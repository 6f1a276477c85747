import RailsCore.Amounts
import RailsCore.Binary64

/-!
# Dollars and cents

A string of dollars is rounded to the nearest `f64`, multiplied by 100 with
another rounding and rounded to whole cents. Below 2 ^ 45 dollars the two
errors together stay under half a cent, so every amount that is a whole number
of cents is read as exactly that number, however it is written.
-/

namespace RailsCore.Amounts
open Numerals UsersService Binary64 Float.Model Float.Model.UnpackedFloat

/-- The magnitude is rounded to the nearest whole number. -/
theorem round_nearestWhole {f : Float.Model} {sign : Sign} {y : ℚ} (denotes : Denotes f sign y)
    {n : ℕ} (pos : 0 < n) (small : n < 2 ^ 53) (close : |y - n| < 1 / 2) :
    Denotes (round f) sign n := by
  rw [abs_lt] at close
  have shape := denotes
  obtain ⟨m, e, mpos, unpacked, -, rfl⟩ := shape
  rw [round, unpacked]
  simp only
  split_ifs with whole
  · -- without a fraction the number is `n` already
    obtain ⟨k, rfl⟩ := Int.eq_ofNat_of_zero_le whole
    have same : m * 2 ^ k = n := by
      have low : ((n : ℚ) : ℚ) < ((m * 2 ^ k : ℕ) : ℚ) + 1 := by
        push_cast
        have := close.1
        rw [zpow_natCast] at this
        linarith
      have high : ((m * 2 ^ k : ℕ) : ℚ) < (n : ℚ) + 1 := by
        push_cast
        have := close.2
        rw [zpow_natCast] at this
        linarith
      have low : n < m * 2 ^ k + 1 := by exact_mod_cast low
      have high : m * 2 ^ k < n + 1 := by exact_mod_cast high
      omega
    have value : (m * 2 ^ (k : ℤ) : ℚ) = n := by
      rw [zpow_natCast, ← same]
      push_cast
      rfl
    rw [value] at denotes
    exact denotes
  · obtain ⟨k, places⟩ : ∃ k : ℕ, (-e).toNat = k := ⟨_, rfl⟩
    have fraction : (2 : ℚ) ^ e = (2 ^ k)⁻¹ := by
      rw [← zpow_natCast, ← zpow_neg]
      congr 1
      omega
    have unit : (0 : ℚ) < 2 ^ k := by positivity
    rw [fraction, ← div_eq_mul_inv] at close
    have low : ((n : ℚ) - 1 / 2) * 2 ^ k < m := by
      rw [← lt_div_iff₀ unit]
      linarith
    have high : (m : ℚ) < (n + 1 / 2) * 2 ^ k := by
      rw [← div_lt_iff₀ unit]
      linarith
    have nearest : (2 * m + 2 ^ k) / 2 ^ (k + 1) = n := by
      apply Nat.div_eq_of_lt_le
      · have : ((n * 2 ^ (k + 1) : ℕ) : ℚ) ≤ (2 * m + 2 ^ k : ℕ) := by
          push_cast
          rw [pow_succ]
          linarith
        exact_mod_cast this
      · have : ((2 * m + 2 ^ k : ℕ) : ℚ) < ((n + 1) * 2 ^ (k + 1) : ℕ) := by
          push_cast
          rw [pow_succ]
          linarith
        exact_mod_cast this
    simp only [places, nearest]
    exact round_whole pos small sign

theorem cents_lt {c : ℕ} (small : c < 100 * 2 ^ 45) : (c / 100 : ℚ) < 2 ^ (45 : ℤ) := by
  rw [div_lt_iff₀ (by norm_num)]
  have : (c : ℚ) < ((100 * 2 ^ 45 : ℕ) : ℚ) := by exact_mod_cast small
  push_cast at this
  norm_num at this ⊢
  linarith

/-- A number of dollars that is a whole number of cents, rounded twice. -/
theorem cents_close {c : ℕ} (small : c < 100 * 2 ^ 45) {y z : ℚ}
    (first : Nearest (c / 100) y) (second : Nearest (y * 100) z) : |z - c| < 1 / 2 := by
  have dollars := cents_lt small
  have one_ := first.close dollars
  have product : y * 100 < 2 ^ (52 : ℤ) := by
    rw [abs_le] at one_
    norm_num at one_ dollars ⊢
    linarith
  have two_ := second.close product
  rw [abs_le] at one_ two_
  rw [abs_lt]
  norm_num at one_ two_ ⊢
  constructor <;> linarith

/-- The cast to cents of a magnitude that has been rounded to a whole number. -/
theorem toInt64_whole {f : Float.Model} {sign : Sign} {n : ℕ} (denotes : Denotes f sign n)
    (small : n < 2 ^ 53) : f.toInt64.toInt = sign.apply n := by
  have least : Int64.minValue.toInt = -9223372036854775808 := by decide
  have most : Int64.maxValue.toInt = 9223372036854775807 := by decide
  have range : -9223372036854775808 ≤ sign.apply n ∧ sign.apply n ≤ 9223372036854775807 := by
    cases sign with
    | negative =>
      show -9223372036854775808 ≤ -(n : ℤ) ∧ -(n : ℤ) ≤ 9223372036854775807
      omega
    | positive =>
      show -9223372036854775808 ≤ (n : ℤ) ∧ (n : ℤ) ≤ 9223372036854775807
      omega
  have cast : f.toInt64 =
      Int64.ofIntClamp (f.unpack.toInt Int64.minValue.toInt Int64.maxValue.toInt) := rfl
  rw [cast, denotes.toInt (le_refl _) (by linarith)]
  exact Int64.toInt_ofIntClamp (least ▸ range.1) (most ▸ range.2)

/-- The float of a decimal that is a whole number of cents. -/
theorem toF64_whole {d : Decimal} {c : ℤ} (value : 100 * d.value = c) (nonzero : c ≠ 0)
    (small : c.natAbs < 100 * 2 ^ 45) : ∃ (sign : Sign) (y : ℚ), Denotes d.toF64 sign y ∧
      Nearest (c.natAbs / 100) y ∧ sign.apply c.natAbs = c := by
  obtain ⟨negative, m, e⟩ := d
  have power : (0 : ℚ) < 10 ^ e := zpow_pos (by norm_num) e
  have pos : 0 < m := by
    apply Nat.pos_of_ne_zero
    rintro rfl
    apply nonzero
    have : (c : ℚ) = 0 := by
      rw [← value]
      cases negative <;> simp [Decimal.value, signed]
    exact_mod_cast this
  have magnitude : (m * 10 ^ e : ℚ) = c.natAbs / 100 ∧ negative = decide (c < 0) := by
    have one_ : (0 : ℚ) < m := by exact_mod_cast pos
    have product := mul_pos one_ power
    cases negative with
    | false =>
      have value : 100 * (m * 10 ^ e) = (c : ℚ) := by simpa [Decimal.value, signed] using value
      have positive : 0 < c := by
        have : (0 : ℚ) < c := by linarith
        exact_mod_cast this
      have abs : ((c.natAbs : ℤ) : ℚ) = c := congrArg _ (Int.natAbs_of_nonneg positive.le)
      rw [Int.cast_natCast] at abs
      exact ⟨by rw [abs]; linarith, by simp [positive.le]⟩
    | true =>
      have value : 100 * -(m * 10 ^ e) = (c : ℚ) := by simpa [Decimal.value, signed] using value
      have negative : c < 0 := by
        have : (c : ℚ) < 0 := by linarith
        exact_mod_cast this
      have abs : ((c.natAbs : ℤ) : ℚ) = (-c : ℤ) :=
        congrArg _ (Int.ofNat_natAbs_of_nonpos negative.le)
      rw [Int.cast_natCast, Int.cast_neg] at abs
      exact ⟨by rw [abs]; linarith, by simp [negative]⟩
  obtain ⟨magnitude, sign⟩ := magnitude
  have range : InRange (m * 10 ^ e) := by
    rw [magnitude]
    have some_ : (1 : ℚ) ≤ c.natAbs := by exact_mod_cast Int.natAbs_pos.mpr nonzero
    have few : (c.natAbs : ℚ) < 2 ^ (64 : ℤ) := by
      have : c.natAbs < 2 ^ 64 := by omega
      exact_mod_cast this
    constructor
    · calc (2 : ℚ) ^ (-1022 : ℤ) ≤ 2 ^ (-7 : ℤ) := zpow_le_zpow_right₀ one_le_two (by omega)
        _ ≤ 1 / 100 := by norm_num
        _ ≤ c.natAbs / 100 := by linarith
    · calc (c.natAbs / 100 : ℚ) ≤ c.natAbs := by linarith
        _ < 2 ^ (64 : ℤ) := few
        _ ≤ 2 ^ (1023 : ℤ) := zpow_le_zpow_right₀ one_le_two (by omega)
  obtain ⟨y, denotes, near⟩ := ofScientific_nearest pos range
  rw [magnitude] at near
  by_cases below : c < 0
  · refine ⟨.negative, y, ?_, near, ?_⟩
    · rw [Decimal.toF64, sign, if_pos (decide_eq_true below)]
      exact denotes.neg
    · show -(c.natAbs : ℤ) = c
      omega
  · refine ⟨.positive, y, ?_, near, ?_⟩
    · rw [Decimal.toF64, sign, if_neg (by simpa using below)]
      exact denotes
    · show (c.natAbs : ℤ) = c
      omega

/-- A float of at least a cent stays in range when it is turned into cents. -/
theorem dollars_inRange {x y : ℚ} (near : Nearest x y) (low : 1 / 100 ≤ x)
    (high : x < 2 ^ (45 : ℤ)) : InRange (y * (100 : ℕ)) := by
  have error := near.error
  rw [abs_le] at error
  norm_num at error high
  constructor
  · calc (2 : ℚ) ^ (-1022 : ℤ) ≤ 2 ^ (-1 : ℤ) := zpow_le_zpow_right₀ one_le_two (by omega)
      _ ≤ y * (100 : ℕ) := by
        norm_num
        linarith
  · calc y * (100 : ℕ) < 2 ^ (53 : ℤ) := by
          norm_num
          linarith
      _ ≤ 2 ^ (1023 : ℤ) := zpow_le_zpow_right₀ one_le_two (by omega)

theorem zero_cents :
    (round (Float.Model.pack (.zero .positive) * Float.Model.ofNat 100)).toInt64.toInt = 0 ∧
      (round (-Float.Model.pack (.zero .positive) * Float.Model.ofNat 100)).toInt64.toInt = 0 := by
  decide +kernel

/-- Both roundings and the cast give a whole number of cents back. -/
theorem decimal_exact {d : Decimal} {c : ℤ} (value : 100 * d.value = c)
    (small : c.natAbs < 100 * 2 ^ 45) :
    (round (d.toF64 * Float.Model.ofNat 100)).toInt64.toInt = c := by
  by_cases zero : c = 0
  · obtain ⟨negative, m, e⟩ := d
    have none_ : m = 0 := by
      have power : (10 : ℚ) ^ e ≠ 0 := (zpow_pos (by norm_num) e).ne'
      rw [zero, Decimal.value] at value
      cases negative <;> simpa [signed, power] using value
    have magnitude : Float.Model.ofScientific 0 e = Float.Model.pack (.zero .positive) := by
      rw [Float.Model.ofScientific, UnpackedFloat.ofScientific, dif_pos rfl]
    rw [zero, none_, Decimal.toF64, magnitude]
    clear small value magnitude
    cases negative with
    | false => exact zero_cents.1
    | true => exact zero_cents.2
  · obtain ⟨sign, y, denotes, near, same⟩ := toF64_whole value zero small
    have some_ : 0 < c.natAbs := Int.natAbs_pos.mpr zero
    have dollars : (c.natAbs / 100 : ℚ) < 2 ^ (45 : ℤ) := cents_lt small
    have cents : (1 / 100 : ℚ) ≤ c.natAbs / 100 := by
      have : (1 : ℚ) ≤ c.natAbs := by exact_mod_cast some_
      linarith
    have range := dollars_inRange near cents dollars
    obtain ⟨z, product, second⟩ := denotes.mul (ofNat_whole (by norm_num) (by norm_num)) range
    push_cast at second
    have sign_ : sign * Sign.positive = sign := by cases sign <;> rfl
    rw [sign_] at product
    have rounded := round_nearestWhole product some_ (by omega) (cents_close small near second)
    rw [toInt64_whole rounded (by omega), same]

/-- A value that stands for a whole number of cents below 2 ^ 45 dollars is read
as exactly this number, as a JSON number, as cents or as dollars. -/
theorem whole_cents_exact (v : Value) (c : ℤ) (denotes : Cents v c)
    (small : c.natAbs < 100 * 2 ^ 45) : ∃ n, deserializeAmount v = .ok n ∧ n.toInt = c := by
  have least : Int64.minValue.toInt = -9223372036854775808 := by decide
  have most : Int64.maxValue.toInt = 9223372036854775807 := by decide
  generalize here : (c : ℚ) = q at denotes
  cases denotes with
  | posInt =>
    rename_i n
    have same : c = n.toNat := by exact_mod_cast here
    have fits : n.toNat ≤ Int64.maxValue.toInt := by omega
    refine ⟨n.toInt64, by simp only [deserializeAmount, Number.asI64, if_pos fits], ?_⟩
    have small : n.toBitVec.toNat < 2 ^ 63 := by
      rw [UInt64.toNat_toBitVec]
      omega
    show n.toInt64.toBitVec.toInt = c
    rw [UInt64.toBitVec_toInt64, BitVec.toInt_eq_toNat_of_lt (by omega), UInt64.toNat_toBitVec,
      same]
  | negInt =>
    rename_i n negative
    refine ⟨n, rfl, ?_⟩
    exact_mod_cast here.symm
  | cents text =>
    rename_i s n
    have same : c = n := by exact_mod_cast here
    subst same
    have stored : (Int64.ofInt c).toInt = c :=
      Int64.toInt_ofInt_of_le (by omega) (by omega)
    have read : parseI64 (trim s).toList = some (Int64.ofInt c) := by
      rw [parseI64_iff, stored]
      exact text
    exact ⟨_, by simp only [deserializeAmount, read], stored⟩
  | dollars text other =>
    rename_i s q
    obtain ⟨d, read, rfl⟩ := readDecimal_iff.mpr text
    have unread : parseI64 (trim s).toList = none := by
      rw [Option.eq_none_iff_forall_ne_some]
      intro n read
      exact other _ (parseI64_iff.mp read)
    refine ⟨_, ?_, decimal_exact here.symm small⟩
    simp only [deserializeAmount, unread, parseF64, read]

/-- Dollars and a third digit behind the point, which is a zero. -/
theorem whole_cents_exact_dollars :
    ∃ n, deserializeAmount (.string " +12.340e0 ") = .ok n ∧ n.toInt = 1234 := by
  have read : readDecimal (trim " +12.340e0 ").toList = some ⟨false, 12340, -3⟩ := by decide
  have unread : readInteger (trim " +12.340e0 ").toList = none := by decide
  have text := readDecimal_iff.mp ⟨_, read, rfl⟩
  have value : (100 * Decimal.value ⟨false, 12340, -3⟩ : ℚ) = (1234 : ℤ) := by
    norm_num [Decimal.value, signed]
  refine whole_cents_exact _ 1234 (value ▸ .dollars text fun n integer => ?_) (by decide)
  rw [← readInteger_iff, unread] at integer
  cases integer

/-- From 2 ^ 45 dollars on a cent can be lost. -/
example : deserializeAmount (.string "35184372088832.02") = .ok 3518437208883203 := by
  decide +kernel

end RailsCore.Amounts
