import RailsCore.AccountLists
import RailsCore.Binary64
import RailsCore.LedgerEntries

/-!
# The number of pages

The list endpoints divide the number of rows by the rows of a page as floats,
take the ceiling and cast it. For 1 to 100 rows a page the detour loses
nothing: below 2 ^ 53 rows the quotient is rounded by less than the distance to
the next whole number, and beyond that the cast has long saturated.
-/

namespace RailsCore
open Binary64 Float.Model Float.Model.UnpackedFloat

universe u

/-- `f64::ceil`. -/
def ceil (f : Float.Model) : Float.Model :=
  match f.unpack with
  | .finite sign mantissa exponent _ =>
    if 0 ≤ exponent then f
    else
      let places := (-exponent).toNat
      let whole := match sign with
        | .positive => (mantissa + (2 ^ places - 1)) / 2 ^ places
        | .negative => mantissa / 2 ^ places
      Float.Model.pack (.round .binary64 sign whole 0)
  | _ => f

/-- `((total_count as f64) / (per_page as f64)).ceil() as u32`. -/
def totalPages (totalCount : Int64) (perPage : UInt32) : UInt32 :=
  (ceil (Float.Model.ofInt64 totalCount / Float.Model.ofUInt32 perPage)).toUInt32

/-- `(total_count.to_f / per_page).ceil`, of finite floats. -/
def EntriesController.totalPages (totalCount perPage : Nat) : Int :=
  (ceil (Float.Model.ofNat totalCount / Float.Model.ofNat perPage)).unpack.toInt 0 0

theorem ceil_positive {f : Float.Model} {y : ℚ} (denotes : Denotes f .positive y) :
    ∃ i : ℕ, y ≤ i ∧ i < y + 1 ∧ Denotes (ceil f) .positive i := by
  have shape := denotes
  obtain ⟨m, e, pos, unpacked, bits, rfl⟩ := shape
  rw [ceil, unpacked]
  simp only
  split_ifs with whole
  · obtain ⟨k, rfl⟩ := Int.eq_ofNat_of_zero_le whole
    have value : (m * 2 ^ (k : ℤ) : ℚ) = (m * 2 ^ k : ℕ) := by
      rw [zpow_natCast]
      push_cast
      rfl
    rw [value] at denotes ⊢
    exact ⟨m * 2 ^ k, le_refl _, by linarith, denotes⟩
  · obtain ⟨k, places⟩ : ∃ k : ℕ, (-e).toNat = k := ⟨_, rfl⟩
    have fraction : (2 : ℚ) ^ e = (2 ^ k)⁻¹ := by
      rw [← zpow_natCast, ← zpow_neg]
      congr 1
      omega
    have unit : (0 : ℚ) < 2 ^ k := by positivity
    obtain ⟨i, here⟩ : ∃ i, i = (m + (2 ^ k - 1)) / 2 ^ k := ⟨_, rfl⟩
    have power : 1 ≤ 2 ^ k := Nat.one_le_two_pow
    have low : m ≤ i * 2 ^ k := by
      have := Nat.lt_div_mul_add (a := m + (2 ^ k - 1)) (Nat.two_pow_pos k)
      rw [here]
      omega
    have high : i * 2 ^ k < m + 2 ^ k := by
      have := Nat.div_mul_le_self (m + (2 ^ k - 1)) (2 ^ k)
      rw [here]
      omega
    have least : 0 < i := by
      apply Nat.pos_of_ne_zero
      rintro rfl
      omega
    have most : i < 2 ^ 53 := by
      obtain ⟨j, rfl⟩ := Nat.exists_eq_succ_of_ne_zero least.ne'
      rw [Nat.succ_mul] at high
      have two_ : 2 ^ 1 ≤ 2 ^ k := Nat.pow_le_pow_right two_pos (by omega)
      have := Nat.mul_le_mul_left j two_
      omega
    refine ⟨i, ?_, ?_, ?_⟩
    · rw [fraction, ← div_eq_mul_inv, div_le_iff₀ unit]
      exact_mod_cast low
    · rw [fraction, ← div_eq_mul_inv, ← sub_lt_iff_lt_add, lt_div_iff₀ unit, sub_mul, one_mul,
        sub_lt_iff_lt_add]
      exact_mod_cast high
    · simp only [places, ← here]
      exact round_whole least most .positive

/-- A quotient that is rounded is as far from the whole numbers as before. -/
theorem ceil_quotient {n d : ℕ} (pos : 0 < d) (small : n < 2 ^ 53) {y : ℚ}
    (near : Nearest (n / d) y) {i : ℕ} (low : y ≤ i) (high : i < y + 1) :
    i = (n + (d - 1)) / d := by
  have positive : (0 : ℚ) < d := by exact_mod_cast pos
  obtain ⟨q, here⟩ : ∃ q, q = (n + (d - 1)) / d := ⟨_, rfl⟩
  have above : n ≤ q * d := by
    have := Nat.lt_div_mul_add (a := n + (d - 1)) pos
    rw [here]
    omega
  have below : q * d < n + d := by
    have := Nat.div_mul_le_self (n + (d - 1)) d
    rw [here]
    omega
  have few : q ≤ n := by
    by_contra more
    have := Nat.mul_le_mul_right d (show n + 1 ≤ q by omega)
    have := Nat.le_mul_of_pos_right n pos
    rw [Nat.succ_mul] at *
    omega
  -- `y` is at most the ceiling, which is a float
  have under : y ≤ q := by
    have := near.le_of_le (i := q) (by exact_mod_cast (by omega : q < 2 ^ 53)) (by
      rw [div_le_iff₀ positive]
      exact_mod_cast above)
    exact_mod_cast this
  -- and it misses the ceiling by less than the last unit
  have beyond : (q : ℚ) - 1 < y := by
    have error := near.error
    rw [abs_le] at error
    have part : (n / d : ℚ) * 2 ^ (-53 : ℤ) < 1 / d := by
      have : (n : ℚ) < 2 ^ (53 : ℤ) := by exact_mod_cast small
      rw [div_mul_eq_mul_div]
      apply div_lt_div_of_pos_right _ positive
      calc (n : ℚ) * 2 ^ (-53 : ℤ) < 2 ^ (53 : ℤ) * 2 ^ (-53 : ℤ) :=
            mul_lt_mul_of_pos_right this (zpow_pos two_pos _)
        _ = 1 := by norm_num
    have step : (q : ℚ) - 1 + 1 / d ≤ n / d := by
      rw [← sub_nonneg]
      have : (q * d + 1 : ℚ) ≤ n + d := by exact_mod_cast below
      have : (0 : ℚ) ≤ (n + d - q * d - 1) / d := div_nonneg (by linarith) positive.le
      field_simp at this ⊢
      linarith
    linarith [error.1]
  rw [← here]
  have first : (i : ℚ) < (q + 1 : ℕ) := by
    push_cast
    linarith
  have second : (q : ℚ) < (i + 1 : ℕ) := by
    push_cast
    linarith
  have first : i < q + 1 := by exact_mod_cast first
  have second : q < i + 1 := by exact_mod_cast second
  omega

theorem inRange_quotient {x : ℚ} {d : ℕ} (low : 1 ≤ x) (high : x ≤ 2 ^ (64 : ℤ)) (pos : 0 < d)
    (few : d ≤ 100) : InRange (x / d) := by
  have positive : (0 : ℚ) < d := by exact_mod_cast pos
  have bound : (d : ℚ) ≤ 100 := by exact_mod_cast few
  constructor
  · calc (2 : ℚ) ^ (-1022 : ℤ) ≤ 2 ^ (-7 : ℤ) := zpow_le_zpow_right₀ one_le_two (by omega)
      _ ≤ 1 / 100 := by norm_num
      _ ≤ x / d := by
        rw [div_le_div_iff₀ (by norm_num) positive]
        linarith
  · have one_ : (1 : ℚ) ≤ d := by exact_mod_cast pos
    calc x / d ≤ x := div_le_self (by linarith) one_
      _ ≤ 2 ^ (64 : ℤ) := high
      _ < 2 ^ (1023 : ℤ) := zpow_lt_zpow_right₀ one_lt_two (by omega)

/-- The cast to 32 bits cuts off. -/
theorem toUInt32_whole {f : Float.Model} {i : ℕ} (denotes : Denotes f .positive i) :
    f.toUInt32.toNat = min i (2 ^ 32 - 1) := by
  have cast : f.toUInt32 = UInt32.ofNatClamp (f.unpack.toInt 0 (UInt32.size - 1)).toNat := rfl
  rw [cast, denotes.toInt (le_refl _) (by linarith)]
  show (UInt32.ofNatClamp i).toNat = _
  rw [UInt32.ofNatClamp]
  split
  · rename_i fits
    have : i < 4294967296 := fits
    rw [UInt32.toNat_ofNatLT]
    omega
  · rename_i beyond
    have : ¬ i < 4294967296 := beyond
    show 4294967295 = _
    omega

theorem ceil_zero {perPage : Nat} (some_ : 1 ≤ perPage) (few : perPage ≤ 100) :
    ceil (Float.Model.ofNat 0 / Float.Model.ofNat perPage) =
      Float.Model.pack (.zero .positive) := by
  obtain ⟨m, e, pos, unpacked, -, -⟩ := ofNat_whole some_ (by omega)
  have quotient : Float.Model.ofNat 0 / Float.Model.ofNat perPage =
      Float.Model.pack (.zero .positive) := by
    show Float.Model.pack (UnpackedFloat.div .binary64 (Float.Model.ofNat 0).unpack
      (Float.Model.ofNat perPage).unpack) = _
    have none_ : (Float.Model.ofNat 0).unpack = .zero .positive := by rfl
    rw [unpacked, none_]
    rfl
  rw [quotient]
  rfl

/-- The ceiling of the rounded quotient of a rounded number of rows. -/
theorem ceil_pages {n d : ℕ} (rows : 0 < n) (bigint : n < 2 ^ 63) (some_ : 1 ≤ d) (few : d ≤ 100) :
    ∃ i : ℕ, Denotes (ceil (Float.Model.ofNat n / Float.Model.ofNat d)) .positive i ∧
      (n < 2 ^ 53 → i = (n + (d - 1)) / d) ∧ (2 ^ 53 ≤ n → 2 ^ 46 ≤ i) := by
  obtain ⟨x, whole, near⟩ := ofNat_nearest rows (inRange_whole rows (by omega))
  have low := near.ge_of_ge (i := 1) (by norm_num) (by exact_mod_cast rows)
  have high : x ≤ 2 ^ (64 : ℤ) := by
    have error := near.error
    rw [abs_le] at error
    have : (n : ℚ) < 9223372036854775808 := by exact_mod_cast bigint
    norm_num at error ⊢
    linarith
  obtain ⟨y, quotient, second⟩ := whole.div (ofNat_whole some_ (by omega))
    (inRange_quotient (by exact_mod_cast low) high some_ few)
  obtain ⟨i, under, beyond, ceiling⟩ := ceil_positive quotient
  refine ⟨i, ceiling, fun small => ?_, fun large => ?_⟩
  · have same := near.eq_of_whole (i := n) (by exact_mod_cast small) rfl
    rw [same] at second
    exact ceil_quotient some_ small second under beyond
  · have least := near.ge_of_ge (i := 2 ^ 53) (le_refl _) (by exact_mod_cast large)
    have positive : (0 : ℚ) < d := by exact_mod_cast some_
    have bound : (d : ℚ) ≤ 100 := by exact_mod_cast few
    have kept := second.ge_of_ge (i := 2 ^ 46) (by norm_num) (by
      rw [le_div_iff₀ positive]
      push_cast at least ⊢
      linarith)
    have : ((2 ^ 46 : ℕ) : ℚ) ≤ i := by
      push_cast at kept ⊢
      linarith
    exact_mod_cast this

/-- The number of pages that the source computes with floats is the quotient
rounded up, and the largest 32-bit number where there are more. -/
theorem totalPages_eq {totalCount : Int64} {perPage : UInt32} (count : 0 ≤ totalCount.toInt)
    (some_ : 1 ≤ perPage.toNat) (few : perPage.toNat ≤ 100) :
    (totalPages totalCount perPage).toNat =
      min ((totalCount.toInt.toNat + (perPage.toNat - 1)) / perPage.toNat) (2 ^ 32 - 1) := by
  obtain ⟨n, rows⟩ := Int.eq_ofNat_of_zero_le count
  have bigint := totalCount.toInt_lt
  have formula : totalPages totalCount perPage =
      (ceil (Float.Model.ofNat n / Float.Model.ofNat perPage.toNat)).toUInt32 := by
    have same : Float.Model.ofInt64 totalCount = Float.Model.ofNat n := by
      show Float.Model.pack (UnpackedFloat.ofInt .binary64 totalCount.toInt) = _
      rw [rows]
      rfl
    rw [totalPages, same]
    rfl
  rw [formula, rows, Int.toNat_natCast]
  by_cases none_ : n = 0
  · subst none_
    rw [ceil_zero some_ few, Nat.zero_add, Nat.div_eq_of_lt (by omega)]
    decide +kernel
  · obtain ⟨i, ceiling, exact_, large⟩ := ceil_pages (Nat.pos_of_ne_zero none_) (by omega) some_ few
    rw [toUInt32_whole ceiling]
    by_cases small : n < 2 ^ 53
    · rw [exact_ small]
    · have := large (by omega)
      have : 2 ^ 46 ≤ (n + (perPage.toNat - 1)) / perPage.toNat := by
        apply (Nat.le_div_iff_mul_le some_).mpr
        calc 2 ^ 46 * perPage.toNat ≤ 2 ^ 46 * 100 := Nat.mul_le_mul_left _ few
          _ ≤ n + (perPage.toNat - 1) := by omega
      omega

/-- Every list of the Rust services reports the number of pages that its source
computes with floats, and this is the quotient rounded up, whatever the number of
rows a database can count. -/
theorem paginated_totalPages {α : Type u} (ordered : List α) (page perPage : UInt32)
    (countable : ordered.length < 2 ^ 63) (some_ : 1 ≤ perPage.toNat) (few : perPage.toNat ≤ 100) :
    (paginated ordered page perPage).2.totalPages =
        (totalPages (Int64.ofNat ordered.length) perPage).toNat ∧
      (totalPages (Int64.ofNat ordered.length) perPage).toNat =
        min ((ordered.length + (perPage.toNat - 1)) / perPage.toNat) (2 ^ 32 - 1) := by
  have stored : (Int64.ofNat ordered.length).toInt = ordered.length :=
    Int64.toInt_ofNat_of_lt countable
  have pages : (totalPages (Int64.ofNat ordered.length) perPage).toNat =
      min ((ordered.length + (perPage.toNat - 1)) / perPage.toNat) (2 ^ 32 - 1) := by
    rw [totalPages_eq (by omega) some_ few, stored, Int.toNat_natCast]
  exact ⟨pages.symm, pages⟩

theorem paginated_totalPages_seven : (paginated (List.replicate 7 ()) 1 3).2.totalPages = 3 ∧
    (paginated (List.replicate 7 ()) 1 3).2.totalPages = (totalPages (Int64.ofNat 7) 3).toNat ∧
      (totalPages (Int64.ofNat 7) 3).toNat = min ((7 + (3 - 1)) / 3) (2 ^ 32 - 1) :=
  ⟨by decide, paginated_totalPages (List.replicate 7 ()) 1 3 (by decide) (by decide) (by decide)⟩

/-- The sizes of page that a query can ask of `list_accounts` are among these, so every answer
has the exact number of pages of the accounts that it counts. -/
theorem Handlers.listAccounts_totalPages {rows : List ListedAccount} {environment : Environment}
    {query : ListAccountsQuery} {accounts : List AccountResponse} {pagination : PaginationMeta}
    (answered : Handlers.listAccounts rows environment query = .ok (accounts, pagination))
    (countable : rows.length < 2 ^ 63) :
    (totalPages (Int64.ofNat pagination.totalCount) pagination.perPage).toNat =
      pagination.totalPages ∧ pagination.totalCount ≤ rows.length := by
  obtain ⟨least, most⟩ := toNat_perPageOfQuery 10 query.perPage
  have one : ∀ column id, AccountRepository.findPaginated column rows id environment
      (pageOfQuery query.page) (perPageOfQuery 10 query.perPage) = (accounts, pagination) →
      (totalPages (Int64.ofNat pagination.totalCount) pagination.perPage).toNat =
        pagination.totalPages ∧ pagination.totalCount ≤ rows.length := by
    rintro column id found
    obtain ⟨-, rfl⟩ := Prod.mk.inj found
    have count : (AccountRepository.selected column id environment rows).length ≤ rows.length := by
      rw [AccountRepository.selected, List.length_insertionSort]
      exact List.length_filter_le _ rows
    have stored : (Int64.ofNat (AccountRepository.selected column id environment
        rows).length).toInt = (AccountRepository.selected column id environment rows).length :=
      Int64.toInt_ofNat_of_lt (Nat.lt_of_le_of_lt count countable)
    have pages : (totalPages (Int64.ofNat (AccountRepository.selected column id environment
        rows).length) (perPageOfQuery 10 query.perPage)).toNat = _ :=
      totalPages_eq (by omega) least most
    rw [stored, Int.toNat_natCast] at pages
    exact ⟨pages, count⟩
  rw [Handlers.listAccounts] at answered
  split at answered
  · exact one _ _ (Except.ok.inj answered)
  · exact one _ _ (Except.ok.inj answered)
  · exact one _ _ (Except.ok.inj answered)
  · cases answered

/-- `EntriesController` reports the same quotient. -/
theorem EntriesController.totalPages_eq {totalCount perPage : Nat} (countable : totalCount < 2 ^ 53)
    (some_ : 1 ≤ perPage) (few : perPage ≤ 100) :
    EntriesController.totalPages totalCount perPage =
      ((totalCount + (perPage - 1)) / perPage : Nat) := by
  rw [EntriesController.totalPages]
  by_cases none_ : totalCount = 0
  · subst none_
    rw [ceil_zero some_ few, Nat.zero_add, Nat.div_eq_of_lt (by omega)]
    rfl
  · obtain ⟨i, ceiling, exact_, -⟩ :=
      ceil_pages (Nat.pos_of_ne_zero none_) (by omega) some_ few
    rw [ceiling.toInt (le_refl _) (by linarith), exact_ countable]
    rfl

end RailsCore
