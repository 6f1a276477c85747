import Mathlib

/-!
# Rounding to binary64

The operations of `Float.Model` against the rational numbers: a product, a
quotient or a conversion is the exact result rounded to the nearest number with
53 significant bits. The results are stated for magnitudes away from the
subnormal numbers and from overflow. Which of two nearest numbers is taken is
left open, since no result here depends on it.
-/

namespace Binary64
open Float.Model Float.Model.UnpackedFloat

/-- `y` is `x` rounded to a number with 53 significant bits, one of the nearest. -/
def Nearest (x y : ℚ) : Prop :=
  ∃ k j : ℤ, 2 ^ k ≤ x ∧ x < 2 ^ (k + 1) ∧ y = j * 2 ^ (k - 52) ∧ |y - x| ≤ 2 ^ (k - 53)

/-- Neither subnormal nor near overflow. -/
def InRange (x : ℚ) : Prop := 2 ^ (-1022 : ℤ) ≤ x ∧ x < 2 ^ (1023 : ℤ)

theorem InRange.exponent {x : ℚ} (range : InRange x) {k : ℤ} (low : 2 ^ k ≤ x)
    (high : x < 2 ^ (k + 1)) : -1022 ≤ k ∧ k ≤ 1022 := by
  have first := (zpow_lt_zpow_iff_right₀ (by norm_num : (1 : ℚ) < 2)).mp
    (lt_of_le_of_lt range.1 high)
  have last := (zpow_lt_zpow_iff_right₀ (by norm_num : (1 : ℚ) < 2)).mp
    (lt_of_le_of_lt low range.2)
  omega

/-! ## Residual bits -/

/-- The mantissa and the residual bits of `q`, whose part of a unit is `f`. -/
structure Represents (em : ExtendedMantissa) (q f : ℚ) : Prop where
  value : q = em.mantissa + f
  nonneg : 0 ≤ f
  below : f < 1
  half : em.roundBit = true ↔ 1 / 2 ≤ f
  rest : em.stickyBit = false ↔ f = 0 ∨ f = 1 / 2

theorem represents_exact (m : ℕ) :
    Represents (ExtendedMantissa.ofMantissaAndAccuracy m .exact) m 0 := by
  constructor <;> norm_num [ExtendedMantissa.ofMantissaAndAccuracy]

/-- The accuracy of a quotient of numbers. -/
theorem represents_quotient (m : ℕ) {d : ℕ} (pos : 0 < d) :
    Represents (ExtendedMantissa.ofMantissaAndAccuracy (m / d) (accuracyOfFraction (m % d) d))
      (m / d) ((m % d : ℕ) / d) := by
  have here : (0 : ℚ) < d := by exact_mod_cast pos
  have divided : (d : ℚ) * (m / d : ℕ) + (m % d : ℕ) = m := by exact_mod_cast Nat.div_add_mod m d
  have small : ((m % d : ℕ) : ℚ) < d := by exact_mod_cast Nat.mod_lt m pos
  have split : (m / d : ℚ) = (m / d : ℕ) + (m % d : ℕ) / d := by
    field_simp
    linarith
  have part : ((m % d : ℕ) : ℚ) / d < 1 := by rwa [div_lt_one here]
  have nonneg : 0 ≤ ((m % d : ℕ) : ℚ) / d := by positivity
  have zero : ((m % d : ℕ) : ℚ) / d = 0 ↔ m % d = 0 := by
    rw [div_eq_zero_iff, or_iff_left here.ne', Nat.cast_eq_zero]
  have less : ((m % d : ℕ) : ℚ) / d < 1 / 2 ↔ 2 * (m % d) < d := by
    rw [div_lt_div_iff₀ here two_pos, one_mul, mul_comm]
    exact_mod_cast Iff.rfl
  have more : 1 / 2 < ((m % d : ℕ) : ℚ) / d ↔ d < 2 * (m % d) := by
    rw [div_lt_div_iff₀ two_pos here, one_mul, mul_comm _ (2 : ℚ)]
    exact_mod_cast Iff.rfl
  generalize ((m % d : ℕ) : ℚ) / d = f at *
  rw [accuracyOfFraction]
  by_cases none_ : m % d = 0
  · have whole : f = 0 := zero.mpr none_
    rw [if_pos none_, whole]
    rw [whole, add_zero] at split
    rw [split]
    exact represents_exact (m / d)
  have apart : f ≠ 0 := fun whole => none_ (zero.mp whole)
  rw [if_neg none_]
  cases order : compare (2 * (m % d)) d with
  | lt =>
    have below := less.mpr (Nat.compare_eq_lt.mp order)
    refine ⟨split, nonneg, part, iff_of_false nofun (not_le.mpr below), ?_⟩
    exact iff_of_false nofun (not_or.mpr ⟨apart, below.ne⟩)
  | eq =>
    have middle : f = 1 / 2 := by
      have same := Nat.compare_eq_eq.mp order
      have notLess := mt less.mp (by omega)
      have notMore := mt more.mp (by omega)
      linarith
    exact ⟨split, nonneg, part, iff_of_true rfl middle.ge, iff_of_true rfl (.inr middle)⟩
  | gt =>
    have above := more.mpr (Nat.compare_eq_gt.mp order)
    refine ⟨split, nonneg, part, iff_of_true rfl above.le, ?_⟩
    exact iff_of_false nofun (not_or.mpr ⟨apart, above.ne'⟩)

/-- Half the mantissa, and the bit that falls off. -/
theorem Represents.shiftRightOne {em : ExtendedMantissa} {q f : ℚ} (h : Represents em q f) :
    Represents em.shiftRightOne (q / 2) (((em.mantissa % 2 : ℕ) + f) / 2) := by
  obtain ⟨m, round, sticky⟩ := em
  obtain ⟨value, nonneg, below, half, rest⟩ := h
  simp only at value half rest ⊢
  have halves : (m : ℚ) = 2 * (m / 2 : ℕ) + (m % 2 : ℕ) := by
    exact_mod_cast (Nat.div_add_mod m 2).symm
  have lost : (round || sticky) = false ↔ f = 0 := by
    rw [Bool.or_eq_false_iff, rest, ← Bool.not_eq_true, half]
    constructor
    · rintro ⟨under, whole | middle⟩
      · exact whole
      · exact absurd middle.ge under
    · rintro rfl
      norm_num
  have bit : ((m % 2 : ℕ) : ℚ) = 0 ∧ m % 2 = 0 ∨ ((m % 2 : ℕ) : ℚ) = 1 ∧ m % 2 = 1 := by
    rcases Nat.mod_two_eq_zero_or_one m with even | odd
    · exact .inl ⟨by rw [even, Nat.cast_zero], even⟩
    · exact .inr ⟨by rw [odd, Nat.cast_one], odd⟩
  refine ⟨?_, ?_, ?_, ?_, ?_⟩
  · show q / 2 = (m / 2 : ℕ) + _
    linarith
  · positivity
  · rcases bit with ⟨even, -⟩ | ⟨odd, -⟩ <;> linarith
  · show (m % 2 != 0) = true ↔ _
    rcases bit with ⟨even, same⟩ | ⟨odd, same⟩
    · exact iff_of_false (by simp [same]) (by linarith)
    · exact iff_of_true (by simp [same]) (by linarith)
  · show (round || sticky) = false ↔ _
    rw [lost]
    constructor
    · rintro rfl
      rcases bit with ⟨even, -⟩ | ⟨odd, -⟩
      · exact .inl (by linarith)
      · exact .inr (by linarith)
    · rintro (whole | middle) <;> rcases bit with ⟨even, -⟩ | ⟨odd, -⟩ <;> linarith

/-- Shifts one after another. -/
theorem Represents.shiftRight {em : ExtendedMantissa} {q f : ℚ} (h : Represents em q f) (n : ℕ) :
    (em >>> n).mantissa = em.mantissa / 2 ^ n ∧ ∃ g, Represents (em >>> n) (q / 2 ^ n) g := by
  induction n with
  | zero => exact ⟨(Nat.div_one _).symm, f, by rwa [pow_zero, div_one]⟩
  | succ n ih =>
    obtain ⟨mantissa, g, shifted⟩ := ih
    have next : em >>> (n + 1) = (em >>> n).shiftRightOne := rfl
    rw [next, pow_succ, pow_succ, ← div_div]
    refine ⟨?_, _, shifted.shiftRightOne⟩
    rw [← Nat.div_div_eq_div_mul, ← mantissa]
    rfl

/-- The mantissa is rounded up where at least half a unit is left, and down
where at most half of it is. -/
theorem Represents.roundedMantissa_cases {em : ExtendedMantissa} {q f : ℚ}
    (h : Represents em q f) : em.roundedMantissa = em.mantissa ∧ f ≤ 1 / 2 ∨
      em.roundedMantissa = em.mantissa + 1 ∧ 1 / 2 ≤ f := by
  obtain ⟨m, round, sticky⟩ := em
  obtain ⟨-, -, -, half, rest⟩ := h
  cases round with
  | false =>
    have under : ¬ 1 / 2 ≤ f := fun beyond => Bool.false_ne_true (half.mpr beyond)
    left
    cases sticky <;> exact ⟨rfl, (not_le.mp under).le⟩
  | true =>
    have beyond : 1 / 2 ≤ f := half.mp rfl
    cases sticky with
    | true => exact .inr ⟨rfl, beyond⟩
    | false =>
      have middle : f = 1 / 2 := by
        rcases rest.mp rfl with whole | middle
        · linarith
        · exact middle
      rcases Nat.mod_two_eq_zero_or_one m with even | odd
      · left
        refine ⟨?_, middle.le⟩
        show m + m % 2 = m
        omega
      · right
        refine ⟨?_, beyond⟩
        show m + m % 2 = m + 1
        omega

theorem Represents.rounded {em : ExtendedMantissa} {q f : ℚ} (h : Represents em q f) :
    |(em.roundedMantissa : ℚ) - q| ≤ 1 / 2 := by
  have value := h.value
  have nonneg := h.nonneg
  have below := h.below
  rw [abs_le]
  rcases h.roundedMantissa_cases with ⟨same, under⟩ | ⟨next, beyond⟩
  · rw [same]
    constructor <;> linarith
  · rw [next]
    push_cast
    constructor <;> linarith

/-! ## Rounding to the format -/

theorem targetExponent_eq (n : ℕ) (m : ℕ) (e : ℤ) (bits : m.log2 = n) (above : -1074 ≤ n + e - 52) :
    Format.binary64.targetExponent (totalExponent m e) = n + e - 52 := by
  simp only [Format.targetExponent, totalExponent, Format.mantissaBits, Format.minExponent, bits]
  norm_num
  omega

theorem mantissa_ofMantissaAndAccuracy (m : ℕ) (accuracy : Accuracy) :
    (ExtendedMantissa.ofMantissaAndAccuracy m accuracy).mantissa = m := by
  cases accuracy with
  | exact => rfl
  | inexact order => cases order <;> rfl

/-- The second shift: a mantissa that has been rounded up to 54 bits loses one of them. -/
theorem shiftToTargetExponent_rounded {r : ℕ} {e : ℤ} (low : 2 ^ 52 ≤ r) (high : r ≤ 2 ^ 53)
    (above : -1074 ≤ e) :
    ∃ (mantissa : ℕ) (exponent : ℤ),
      ((shiftToTargetExponent .binary64 r e .exact).1.mantissa = mantissa ∧
        (shiftToTargetExponent .binary64 r e .exact).2 = exponent) ∧
      2 ^ 52 ≤ mantissa ∧ mantissa < 2 ^ 53 ∧ e ≤ exponent ∧ exponent ≤ e + 1 ∧
      (mantissa * 2 ^ exponent : ℚ) = r * 2 ^ e := by
  by_cases carry : r = 2 ^ 53
  · have bits : r.log2 = 53 := by rw [carry, Nat.log2_two_pow]
    have target := targetExponent_eq 53 r e bits (by push_cast; omega)
    refine ⟨2 ^ 52, e + 1, ?_, le_refl _, by norm_num, by omega, le_refl _, ?_⟩
    · have shift : ((53 : ℕ) + e - 52 - e).toNat = 1 := by omega
      simp only [shiftToTargetExponent, target, shiftToExponent, shift]
      refine ⟨?_, rfl⟩
      show r / 2 = 2 ^ 52
      omega
    · rw [carry, zpow_add_one₀ two_ne_zero]
      push_cast
      ring
  · have bits : r.log2 = 52 := by
      rw [Nat.log2_eq_iff (by omega)]
      omega
    have target := targetExponent_eq 52 r e bits (by push_cast; omega)
    refine ⟨r, e, ?_, low, by omega, le_refl _, by omega, rfl⟩
    have shift : ((52 : ℕ) + e - 52 - e).toNat = 0 := by omega
    simp only [shiftToTargetExponent, target, shiftToExponent, shift]
    exact ⟨rfl, by simp⟩

theorem shifted_bounds {m s : ℕ} (least : 2 ^ (s + 52) ≤ m) (most : m < 2 ^ (s + 52 + 1)) :
    2 ^ 52 ≤ m / 2 ^ s ∧ m / 2 ^ s < 2 ^ 53 := by
  constructor
  · apply (Nat.le_div_iff_mul_le (Nat.two_pow_pos s)).mpr
    calc 2 ^ 52 * 2 ^ s = 2 ^ (s + 52) := by rw [← pow_add, add_comm]
      _ ≤ m := least
  · apply (Nat.div_lt_iff_lt_mul (Nat.two_pow_pos s)).mpr
    calc m < 2 ^ (s + 52 + 1) := most
      _ = 2 ^ 53 * 2 ^ s := by
        rw [← pow_add]
        congr 1
        omega

/-- A result away from the subnormal numbers and from overflow is rounded to
53 bits, and its exponent fits. -/
theorem roundWithAccuracy_nearest {m : ℕ} {e : ℤ} {accuracy : Accuracy} {q f : ℚ}
    (represents : Represents (ExtendedMantissa.ofMantissaAndAccuracy m accuracy) q f)
    (enough : 2 ^ 52 ≤ m) (range : InRange (q * 2 ^ e)) (sign : Sign) :
    ∃ (mantissa : ℕ) (exponent : ℤ) (pos : 0 < mantissa),
      roundWithAccuracy .binary64 sign m e accuracy = .finite sign mantissa exponent pos ∧
      2 ^ 52 ≤ mantissa ∧ mantissa < 2 ^ 53 ∧ -1074 ≤ exponent ∧ exponent ≤ 971 ∧
      Nearest (q * 2 ^ e) (mantissa * 2 ^ exponent) := by
  have positive : (0 : ℚ) < 2 ^ e := zpow_pos two_pos e
  obtain ⟨n, bits⟩ : ∃ n, m.log2 = n := ⟨_, rfl⟩
  have big : m ≠ 0 := by omega
  obtain ⟨least, most⟩ := (Nat.log2_eq_iff big).mp bits
  have n52 : 52 ≤ n := by
    by_contra few
    have : 2 ^ (n + 1) ≤ 2 ^ 52 := Nat.pow_le_pow_right two_pos (by omega)
    omega
  -- the exponent of the exact result
  have value := represents.value
  rw [mantissa_ofMantissaAndAccuracy] at value
  have low : (2 : ℚ) ^ n ≤ q := by
    have : ((2 ^ n : ℕ) : ℚ) ≤ m := by exact_mod_cast least
    push_cast at this
    linarith [represents.nonneg]
  have high : q < (2 : ℚ) ^ (n + 1) := by
    have : ((m + 1 : ℕ) : ℚ) ≤ (2 ^ (n + 1) : ℕ) := by exact_mod_cast most
    push_cast at this
    linarith [represents.below]
  have from_ : (2 : ℚ) ^ (n + e : ℤ) ≤ q * 2 ^ e := by
    rw [zpow_add₀ two_ne_zero, zpow_natCast]
    exact mul_le_mul_of_nonneg_right low positive.le
  have under : q * 2 ^ e < (2 : ℚ) ^ (n + e + 1 : ℤ) := by
    rw [show (n + e + 1 : ℤ) = ((n + 1 : ℕ) : ℤ) + e by push_cast; ring, zpow_add₀ two_ne_zero,
      zpow_natCast]
    exact mul_lt_mul_of_pos_right high positive
  obtain ⟨above, below⟩ := range.exponent from_ under
  -- the first shift leaves 53 bits
  have target := targetExponent_eq n m e bits (by omega)
  obtain ⟨s, shift⟩ : ∃ s : ℕ, n = s + 52 := ⟨n - 52, by omega⟩
  have amount : ((n : ℤ) + e - 52 - e).toNat = s := by omega
  have first : shiftToTargetExponent .binary64 m e accuracy =
      (ExtendedMantissa.ofMantissaAndAccuracy m accuracy >>> s, e + s) := by
    simp only [shiftToTargetExponent, target, shiftToExponent, amount]
  obtain ⟨mantissa, g, shifted⟩ := represents.shiftRight s
  rw [mantissa_ofMantissaAndAccuracy] at mantissa
  subst shift
  obtain ⟨floor, ceil⟩ := shifted_bounds least most
  generalize ExtendedMantissa.ofMantissaAndAccuracy m accuracy >>> s = em at *
  have near := shifted.rounded
  have rounded : 2 ^ 52 ≤ em.roundedMantissa ∧ em.roundedMantissa ≤ 2 ^ 53 := by
    rcases shifted.roundedMantissa_cases with ⟨same, -⟩ | ⟨next, -⟩ <;> omega
  obtain ⟨final, exponent, ⟨isFinal, isExponent⟩, least', most', notLess, notMore, same⟩ :=
    shiftToTargetExponent_rounded rounded.1 rounded.2 (show -1074 ≤ e + s by omega)
  refine ⟨final, exponent, by omega, ?_, least', most', by omega, by omega, ?_⟩
  · rw [roundWithAccuracy, first]
    simp only [isFinal, isExponent]
    rw [dif_neg (by omega)]
  · have unit : q * 2 ^ e = q / 2 ^ s * 2 ^ (e + s) := by
      rw [zpow_add₀ two_ne_zero, zpow_natCast]
      field_simp
    have half : (2 : ℚ) ^ (e + s - 1 : ℤ) = 1 / 2 * 2 ^ (e + s) := by
      rw [zpow_sub_one₀ two_ne_zero]
      ring
    have step : (0 : ℚ) < 2 ^ (e + s : ℤ) := zpow_pos two_pos _
    rw [same]
    refine ⟨(s + 52 : ℕ) + e, em.roundedMantissa, from_, under, ?_, ?_⟩
    · rw [show ((s + 52 : ℕ) + e - 52 : ℤ) = e + s by omega]
      push_cast
      rfl
    · rw [show ((s + 52 : ℕ) + e - 53 : ℤ) = e + s - 1 by omega, unit, half, ← sub_mul, abs_mul,
        abs_of_pos step]
      exact mul_le_mul_of_nonneg_right near step.le

/-! ## Bits -/

theorem unpack_packComponents (sign : Sign) {exponent : BitVec 11} (mantissa : BitVec 52)
    (finite : exponent ≠ -1#11) (normal : exponent ≠ 0#11) :
    UnpackedFloat.unpack .binary64 (packComponents .binary64 sign exponent mantissa) =
      .finite sign (1#1 ++ mantissa).toNat (exponent.toNat - 1075)
        (by rw [BitVec.toNat_append]; simp) := by
  simp only [UnpackedFloat.unpack, unpackMantissa_packComponents, unpackExponent_packComponents,
    unpackSign_packComponents, Sign.ofBitVec_toBitVec, if_neg finite, if_neg normal]
  rfl

/-- A number with 53 bits is not changed by the bits it is stored in. -/
theorem unpack_pack {sign : Sign} {m : ℕ} {e : ℤ} (pos : 0 < m) (low : 2 ^ 52 ≤ m)
    (high : m < 2 ^ 53) (least : -1074 ≤ e) (most : e ≤ 971) :
    (Float.Model.pack (.finite sign m e pos)).unpack = .finite sign m e pos := by
  have bits : m.log2 = 52 := by
    rw [Nat.log2_eq_iff (by omega)]
    omega
  obtain ⟨b, rfl⟩ : ∃ b : ℕ, e = b - 1075 := ⟨(e + 1075).toNat, by omega⟩
  have packed : UnpackedFloat.pack .binary64 (.finite sign m (b - 1075) pos) =
      packComponents .binary64 sign (BitVec.ofNat 11 b) (BitVec.ofNat 52 m) := by
    have biased : ((b : ℤ) - 1075 + Format.binary64.exponentBias + (52 : ℕ)).toNat = b := by
      show ((b : ℤ) - 1075 + 1023 + (52 : ℕ)).toNat = b
      omega
    simp only [UnpackedFloat.pack, bits, biased]
    rw [if_neg (by norm_num; omega), if_pos (show 52 + 1 = Format.binary64.mantissaBits from rfl)]
  have stored : (BitVec.ofNat 11 b).toNat = b := by
    rw [BitVec.toNat_ofNat, Nat.mod_eq_of_lt (by norm_num; omega)]
  have apart : ∀ c : BitVec 11, c.toNat ≠ b → BitVec.ofNat 11 b ≠ c := by
    rintro c differ rfl
    exact differ stored
  have implicit : (1#1 ++ BitVec.ofNat 52 m).toNat = m := by
    rw [BitVec.toNat_append, ← Nat.shiftLeft_add_eq_or_of_lt (BitVec.isLt _), BitVec.toNat_ofNat,
      Nat.shiftLeft_eq]
    simp only [BitVec.toNat_ofNat]
    omega
  show UnpackedFloat.unpack .binary64 (UnpackedFloat.pack .binary64 _) = _
  rw [packed, unpack_packComponents sign _ (apart _ (by simp; omega)) (apart _ (by simp; omega))]
  simp only [implicit, stored]

/-! ## Operations -/

/-- The float is normal, with this sign and this magnitude. -/
def Denotes (f : Float.Model) (sign : Sign) (y : ℚ) : Prop :=
  ∃ (m : ℕ) (e : ℤ) (pos : 0 < m), f.unpack = .finite sign m e pos ∧
    (2 ^ 52 ≤ m ∧ m < 2 ^ 53 ∧ -1074 ≤ e ∧ e ≤ 971) ∧ y = m * 2 ^ e

theorem denotes_pack {sign : Sign} {m : ℕ} {e : ℤ} (pos : 0 < m)
    (bits : 2 ^ 52 ≤ m ∧ m < 2 ^ 53 ∧ -1074 ≤ e ∧ e ≤ 971) :
    Denotes (Float.Model.pack (.finite sign m e pos)) sign (m * 2 ^ e) :=
  ⟨m, e, pos, unpack_pack pos bits.1 bits.2.1 bits.2.2.1 bits.2.2.2, bits, rfl⟩

theorem denotes_round {m : ℕ} {e : ℤ} {accuracy : Accuracy} {q f : ℚ}
    (represents : Represents (ExtendedMantissa.ofMantissaAndAccuracy m accuracy) q f)
    (enough : 2 ^ 52 ≤ m) (range : InRange (q * 2 ^ e)) (sign : Sign) :
    ∃ y, Denotes (Float.Model.pack (roundWithAccuracy .binary64 sign m e accuracy)) sign y ∧
      Nearest (q * 2 ^ e) y := by
  obtain ⟨mantissa, exponent, pos, rounded, low, high, least, most, near⟩ :=
    roundWithAccuracy_nearest represents enough range sign
  rw [rounded]
  exact ⟨_, denotes_pack pos ⟨low, high, least, most⟩, near⟩

theorem mul_nearest {s t : Sign} {m n : ℕ} {e c : ℤ} (hm : 0 < m) (hn : 0 < n)
    (enough : 2 ^ 52 ≤ m) (range : InRange (m * 2 ^ e * (n * 2 ^ c))) :
    ∃ y, Denotes (Float.Model.pack
        (UnpackedFloat.mul .binary64 (.finite s m e hm) (.finite t n c hn))) (s * t) y ∧
      Nearest (m * 2 ^ e * (n * 2 ^ c)) y := by
  have product : (m * 2 ^ e * (n * 2 ^ c) : ℚ) = (m * n : ℕ) * 2 ^ (e + c) := by
    rw [zpow_add₀ two_ne_zero]
    push_cast
    ring
  rw [product] at range ⊢
  exact denotes_round (represents_exact (m * n)) (Nat.le_mul_of_pos_right m hn |>.trans' enough)
    range (s * t)

theorem magnitude {m : ℕ} (pos : 0 < m) :
    (2 : ℚ) ^ m.log2 ≤ m ∧ (m : ℚ) < 2 ^ (m.log2 + 1) := by
  obtain ⟨least, most⟩ := (Nat.log2_eq_iff pos.ne').mp rfl
  exact ⟨by exact_mod_cast least, by exact_mod_cast most⟩

/-- The exponent that `divCore` divides with leaves at least 53 bits in the quotient. -/
theorem quotient_enough {m d : ℕ} {e c t : ℤ} (hm : 0 < m) (hd : 0 < d)
    (range : InRange (m * 2 ^ e / (d * 2 ^ c)))
    (small : t ≤ Format.binary64.targetExponent (totalExponent m e - totalExponent d c)) :
    (2 : ℚ) ^ (52 + t) ≤ m * 2 ^ e / (d * 2 ^ c) := by
  have positive : (0 : ℚ) < d := by exact_mod_cast hd
  have unit : ∀ z : ℤ, (0 : ℚ) < 2 ^ z := fun z => zpow_pos two_pos z
  have target : t ≤ -1074 ∨ t ≤ m.log2 + e - d.log2 - c - 53 := by
    simp only [Format.targetExponent, totalExponent, Format.mantissaBits, Format.minExponent]
      at small
    norm_num at small
    omega
  rcases target with subnormal | normal
  · exact le_trans (zpow_le_zpow_right₀ one_le_two (by omega)) range.1
  · obtain ⟨least, -⟩ := magnitude hm
    obtain ⟨-, most⟩ := magnitude hd
    rw [le_div_iff₀ (mul_pos positive (unit c))]
    calc (2 : ℚ) ^ (52 + t) * (d * 2 ^ c)
        ≤ 2 ^ (m.log2 + e - d.log2 - c - 1) * (2 ^ (d.log2 + 1) * 2 ^ c) :=
          mul_le_mul (zpow_le_zpow_right₀ one_le_two (by omega))
            (mul_le_mul_of_nonneg_right most.le (unit c).le)
            (mul_pos positive (unit c)).le (unit _).le
      _ = 2 ^ m.log2 * 2 ^ e := by
          rw [← zpow_natCast, ← zpow_natCast, ← zpow_add₀ two_ne_zero, ← zpow_add₀ two_ne_zero,
            ← zpow_add₀ two_ne_zero]
          congr 1
          push_cast
          ring
      _ ≤ m * 2 ^ e := mul_le_mul_of_nonneg_right least (unit e).le

/-- A quotient is rounded once. -/
theorem div_nearest {s t : Sign} {m d : ℕ} {e c : ℤ} (hm : 0 < m) (hd : 0 < d)
    (range : InRange (m * 2 ^ e / (d * 2 ^ c))) :
    ∃ y, Denotes (Float.Model.pack
        (UnpackedFloat.div .binary64 (.finite s m e hm) (.finite t d c hd))) (s / t) y ∧
      Nearest (m * 2 ^ e / (d * 2 ^ c)) y := by
  have positive : (0 : ℚ) < d := by exact_mod_cast hd
  obtain ⟨low, here⟩ : ∃ low, low = min (e - c)
      (Format.binary64.targetExponent (totalExponent m e - totalExponent d c)) := ⟨_, rfl⟩
  obtain ⟨n, shift⟩ : ∃ n : ℕ, e - c = n + low := ⟨(e - c - low).toNat, by omega⟩
  have amount : (e - c - low).toNat = n := by omega
  have quotient : (m * 2 ^ e / (d * 2 ^ c) : ℚ) = ((m * 2 ^ n : ℕ) : ℚ) / d * 2 ^ low := by
    have exponents : (2 : ℚ) ^ e = 2 ^ c * (2 ^ n * 2 ^ low) := by
      rw [← zpow_natCast, ← zpow_add₀ two_ne_zero, ← zpow_add₀ two_ne_zero]
      congr 1
      omega
    have unit : (2 : ℚ) ^ c ≠ 0 := (zpow_pos two_pos c).ne'
    rw [exponents]
    push_cast
    field_simp
  have enough := quotient_enough hm hd range (here.trans_le (min_le_right _ _))
  have core : divCore .binary64 m e d c =
      (m * 2 ^ n / d, low, accuracyOfFraction (m * 2 ^ n % d) d) := by
    simp only [divCore, ← here, amount, Nat.shiftLeft_eq]
  have div : UnpackedFloat.div .binary64 (.finite s m e hm) (.finite t d c hd) =
      roundWithAccuracy .binary64 (s / t) (m * 2 ^ n / d) low
        (accuracyOfFraction (m * 2 ^ n % d) d) := by
    simp only [UnpackedFloat.div, core]
  rw [div]
  rw [quotient] at enough range ⊢
  refine denotes_round (represents_quotient _ hd) ?_ range (s / t)
  rw [zpow_add₀ two_ne_zero, mul_le_mul_iff_left₀ (zpow_pos two_pos low), le_div_iff₀ positive]
    at enough
  apply (Nat.le_div_iff_mul_le hd).mpr
  exact_mod_cast enough

/-- A whole number is rounded. -/
theorem round_nearest {n : ℕ} (pos : 0 < n) (range : InRange n) (sign : Sign) :
    ∃ y, Denotes (Float.Model.pack (UnpackedFloat.round .binary64 sign n 0)) sign y ∧
      Nearest n y := by
  obtain ⟨least, -⟩ := (Nat.log2_eq_iff pos.ne').mp rfl
  have target := targetExponent_eq n.log2 n 0 rfl (by omega)
  obtain ⟨s, amount⟩ : ∃ s : ℕ, (0 - (n.log2 + 0 - 52 : ℤ)).toNat = s := ⟨_, rfl⟩
  have value : (n : ℚ) = (n * 2 ^ s : ℕ) * 2 ^ (0 - s : ℤ) := by
    rw [zero_sub, zpow_neg, zpow_natCast]
    push_cast
    field_simp
  have bits : 2 ^ 52 ≤ n * 2 ^ s := by
    calc 2 ^ 52 ≤ 2 ^ (n.log2 + s) := Nat.pow_le_pow_right two_pos (by omega)
      _ = 2 ^ n.log2 * 2 ^ s := pow_add _ _ _
      _ ≤ n * 2 ^ s := Nat.mul_le_mul_right _ least
  have rounded : UnpackedFloat.round .binary64 sign n 0 =
      roundWithAccuracy .binary64 sign (n * 2 ^ s) (0 - s) .exact := by
    simp only [UnpackedFloat.round, decreaseExponent, target, amount, Nat.shiftLeft_eq]
  rw [rounded]
  rw [value] at range ⊢
  exact denotes_round (represents_exact _) bits range sign

/-- The powers of ten that are not computed belong to numbers out of range. -/
theorem InRange.decimal {m : ℕ} {e : ℤ} (pos : 0 < m) (range : InRange (m * 10 ^ e)) :
    e < 1023 ∧ -1023 ≤ m.log2 + e := by
  obtain ⟨-, most⟩ := magnitude pos
  constructor
  · by_contra large
    have one_ : (1 : ℚ) ≤ m := by exact_mod_cast pos
    have : (2 : ℚ) ^ (1023 : ℤ) ≤ m * 10 ^ e :=
      calc (2 : ℚ) ^ (1023 : ℤ) ≤ 2 ^ e := zpow_le_zpow_right₀ one_le_two (by omega)
        _ ≤ 10 ^ e := zpow_le_zpow_left₀ (by omega) (by norm_num) (by norm_num)
        _ ≤ m * 10 ^ e := le_mul_of_one_le_left (zpow_pos (by norm_num) e).le one_
    exact absurd range.2 (not_lt.mpr this)
  · by_contra tiny
    have small : (10 : ℚ) ^ e ≤ 2 ^ e := by
      have := zpow_le_zpow_left₀ (show 0 ≤ -e by omega) (by norm_num : (0 : ℚ) ≤ 2)
        (by norm_num : (2 : ℚ) ≤ 10)
      rw [zpow_neg, zpow_neg] at this
      exact (inv_le_inv₀ (zpow_pos two_pos e) (zpow_pos (by norm_num) e)).mp this
    have : (m * 10 ^ e : ℚ) < 2 ^ (-1022 : ℤ) :=
      calc (m * 10 ^ e : ℚ) < 2 ^ (m.log2 + 1) * 10 ^ e :=
            mul_lt_mul_of_pos_right most (zpow_pos (by norm_num) e)
        _ ≤ 2 ^ (m.log2 + 1) * 2 ^ e := mul_le_mul_of_nonneg_left small (by positivity)
        _ = 2 ^ ((m.log2 + 1 : ℕ) + e : ℤ) := by rw [zpow_add₀ two_ne_zero, zpow_natCast]
        _ ≤ 2 ^ (-1022 : ℤ) := zpow_le_zpow_right₀ one_le_two (by push_cast; omega)
    exact absurd range.1 (not_le.mpr this)

/-- A decimal number is rounded once. -/
theorem ofScientific_nearest {m : ℕ} {e : ℤ} (pos : 0 < m) (range : InRange (m * 10 ^ e)) :
    ∃ y, Denotes (Float.Model.ofScientific m e) .positive y ∧ Nearest (m * 10 ^ e) y := by
  obtain ⟨notHuge, notTiny⟩ := range.decimal pos
  rw [Float.Model.ofScientific, UnpackedFloat.ofScientific, dif_neg pos.ne',
    if_neg (by norm_num; omega), if_neg (by norm_num; omega)]
  split_ifs with nonneg
  · have value : (m * 10 ^ e : ℚ) =
        (m <<< 53 : ℕ) * 2 ^ (-53 : ℤ) * ((10 ^ e.toNat : ℕ) * 2 ^ (0 : ℤ)) := by
      have power : (10 : ℚ) ^ e = 10 ^ e.toNat := by
        rw [← zpow_natCast, Int.toNat_of_nonneg nonneg]
      have shifted : (9007199254740992 : ℚ) * 2 ^ (-53 : ℤ) = 1 := by norm_num
      rw [power, Nat.shiftLeft_eq]
      push_cast
      rw [mul_assoc (m : ℚ), shifted, mul_one, mul_one]
    have bits : 2 ^ 52 ≤ m <<< 53 := by
      rw [Nat.shiftLeft_eq]
      omega
    rw [value] at range ⊢
    exact mul_nearest _ _ bits range
  · have value : (m * 10 ^ e : ℚ) =
        m * 2 ^ (0 : ℤ) / ((10 ^ (-e).toNat : ℕ) * 2 ^ (0 : ℤ)) := by
      have power : (10 : ℚ) ^ e = ((10 : ℚ) ^ (-e).toNat)⁻¹ := by
        rw [← zpow_natCast, Int.toNat_of_nonneg (by omega), zpow_neg, inv_inv]
      have unit : (2 : ℚ) ^ (0 : ℤ) = 1 := zpow_zero 2
      rw [power, unit]
      push_cast
      rw [mul_one, mul_one, div_eq_mul_inv]
    rw [value] at range ⊢
    exact div_nearest _ _ range

namespace Denotes

variable {f g : Float.Model} {s t : Sign} {x y : ℚ}

theorem neg (denotes : Denotes f s x) : Denotes (-f) (-s) x := by
  obtain ⟨m, e, pos, unpacked, bits, rfl⟩ := denotes
  show Denotes (Float.Model.pack f.unpack.neg) (-s) _
  rw [unpacked]
  exact denotes_pack pos bits

theorem mul (left : Denotes f s x) (right : Denotes g t y) (range : InRange (x * y)) :
    ∃ z, Denotes (f * g) (s * t) z ∧ Nearest (x * y) z := by
  obtain ⟨m, e, pos, unpacked, bits, rfl⟩ := left
  obtain ⟨n, c, pos', unpacked', -, rfl⟩ := right
  show ∃ z, Denotes (Float.Model.pack (UnpackedFloat.mul .binary64 f.unpack g.unpack)) _ z ∧ _
  rw [unpacked, unpacked']
  exact mul_nearest pos pos' bits.1 range

theorem div (left : Denotes f s x) (right : Denotes g t y) (range : InRange (x / y)) :
    ∃ z, Denotes (f / g) (s / t) z ∧ Nearest (x / y) z := by
  obtain ⟨m, e, pos, unpacked, -, rfl⟩ := left
  obtain ⟨n, c, pos', unpacked', -, rfl⟩ := right
  show ∃ z, Denotes (Float.Model.pack (UnpackedFloat.div .binary64 f.unpack g.unpack)) _ z ∧ _
  rw [unpacked, unpacked']
  exact div_nearest pos pos' range

end Denotes

theorem ofNat_nearest {n : ℕ} (pos : 0 < n) (range : InRange n) :
    ∃ y, Denotes (Float.Model.ofNat n) .positive y ∧ Nearest n y := by
  have order : compare (n : ℤ) 0 = .gt := Int.compare_eq_gt.mpr (by omega)
  have rounded : UnpackedFloat.ofNat .binary64 n = UnpackedFloat.round .binary64 .positive n 0 := by
    simp only [UnpackedFloat.ofNat, UnpackedFloat.ofInt, UnpackedFloat.normalize, order,
      Int.toNat_natCast]
  rw [Float.Model.ofNat, rounded]
  exact round_nearest pos range .positive

/-! ## What rounding keeps -/

namespace Nearest

variable {x y : ℚ}

/-- The error is at most one part in 2 ^ 53. -/
theorem error (near : Nearest x y) : |y - x| ≤ x * 2 ^ (-53 : ℤ) := by
  obtain ⟨k, j, low, -, -, close⟩ := near
  refine close.trans ?_
  rw [sub_eq_add_neg, zpow_add₀ two_ne_zero]
  exact mul_le_mul_of_nonneg_right low (zpow_pos two_pos _).le

/-- Half of the last place bounds the error. -/
theorem close (near : Nearest x y) {j : ℤ} (below : x < 2 ^ j) : |y - x| ≤ 2 ^ (j - 54) := by
  obtain ⟨k, -, low, -, -, close⟩ := near
  have := (zpow_lt_zpow_iff_right₀ one_lt_two).mp (lt_of_le_of_lt low below)
  exact close.trans (zpow_le_zpow_right₀ one_le_two (by omega))

/-- Rounding does not pass a multiple of the last place. -/
theorem grid (near : Nearest x y) : ∃ k : ℤ, 2 ^ k ≤ x ∧ ∀ i : ℤ,
    (x ≤ i * 2 ^ (k - 52) → y ≤ i * 2 ^ (k - 52)) ∧
      (i * 2 ^ (k - 52) ≤ x → i * 2 ^ (k - 52) ≤ y) := by
  obtain ⟨k, j, low, -, rfl, close⟩ := near
  have unit : (0 : ℚ) < 2 ^ (k - 52) := zpow_pos two_pos _
  have half : (2 : ℚ) ^ (k - 53) = 2 ^ (k - 52) / 2 := by
    rw [show k - 53 = k - 52 - 1 by omega, zpow_sub_one₀ two_ne_zero, div_eq_mul_inv]
  rw [half, abs_le] at close
  have apart : ∀ a b : ℤ, (a : ℚ) * 2 ^ (k - 52) < b * 2 ^ (k - 52) + 2 ^ (k - 52) → a ≤ b := by
    intro a b less
    have : (a : ℚ) < b + 1 := by
      rw [← mul_lt_mul_iff_left₀ unit, add_mul, one_mul]
      exact less
    have : a < b + 1 := by exact_mod_cast this
    omega
  refine ⟨k, low, fun i => ⟨fun le => ?_, fun ge => ?_⟩⟩
  · have := apart j i (by linarith)
    exact mul_le_mul_of_nonneg_right (by exact_mod_cast this) unit.le
  · have := apart i j (by linarith)
    exact mul_le_mul_of_nonneg_right (by exact_mod_cast this) unit.le

/-- A whole number below 2 ^ 53 is a multiple of the last place of what is not above it. -/
theorem whole_multiple {k : ℤ} (small : k ≤ 52) (i : ℤ) :
    ∃ j : ℤ, (i : ℚ) = j * 2 ^ (k - 52) := by
  refine ⟨i * 2 ^ (52 - k).toNat, ?_⟩
  push_cast
  rw [mul_assoc, ← zpow_natCast, ← zpow_add₀ two_ne_zero, Int.toNat_of_nonneg (by omega)]
  rw [show 52 - k + (k - 52) = 0 by omega, zpow_zero, mul_one]

/-- A whole bound that the number meets, the rounded number meets. -/
theorem le_of_le (near : Nearest x y) {i : ℤ} (small : i < 2 ^ 53) (le : x ≤ i) : y ≤ i := by
  obtain ⟨k, low, grid⟩ := near.grid
  have place : k ≤ 52 := by
    have : (2 : ℚ) ^ k < 2 ^ (53 : ℤ) := lt_of_le_of_lt (low.trans le) (by exact_mod_cast small)
    have := (zpow_lt_zpow_iff_right₀ one_lt_two).mp this
    omega
  obtain ⟨j, multiple⟩ := whole_multiple place i
  rw [multiple] at le ⊢
  exact (grid j).1 le

theorem ge_of_ge (near : Nearest x y) {i : ℤ} (small : i ≤ 2 ^ 53) (ge : i ≤ x) : i ≤ y := by
  obtain ⟨k, low, grid⟩ := near.grid
  by_cases place : k ≤ 52
  · obtain ⟨j, multiple⟩ := whole_multiple place i
    rw [multiple] at ge ⊢
    exact (grid j).2 ge
  · -- the power of two below the number is one of its multiples
    have power : (2 : ℚ) ^ k = ((2 ^ 52 : ℤ) : ℚ) * 2 ^ (k - 52) := by
      rw [zpow_sub₀ two_ne_zero]
      norm_num
      ring
    have kept := (grid (2 ^ 52)).2 (power ▸ low)
    rw [← power] at kept
    refine le_trans ?_ kept
    calc (i : ℚ) ≤ 2 ^ (53 : ℤ) := by exact_mod_cast small
      _ ≤ 2 ^ k := zpow_le_zpow_right₀ one_le_two (by omega)

/-- A whole number below 2 ^ 53 is not changed. -/
theorem eq_of_whole (near : Nearest x y) {i : ℤ} (small : i < 2 ^ 53) (same : x = i) : y = i :=
  le_antisymm (near.le_of_le small same.le) (near.ge_of_ge small.le same.ge)

end Nearest

theorem inRange_whole {n : ℕ} (pos : 0 < n) (small : n < 2 ^ 64) : InRange n := by
  constructor
  · calc (2 : ℚ) ^ (-1022 : ℤ) ≤ 2 ^ (0 : ℤ) := zpow_le_zpow_right₀ one_le_two (by omega)
      _ = 1 := zpow_zero 2
      _ ≤ n := by exact_mod_cast pos
  · calc (n : ℚ) < 2 ^ (64 : ℤ) := by exact_mod_cast small
      _ ≤ 2 ^ (1023 : ℤ) := zpow_le_zpow_right₀ one_le_two (by omega)

/-- Whole numbers below 2 ^ 53 are floats. -/
theorem round_whole {n : ℕ} (pos : 0 < n) (small : n < 2 ^ 53) (sign : Sign) :
    Denotes (Float.Model.pack (UnpackedFloat.round .binary64 sign n 0)) sign n := by
  obtain ⟨y, denotes, near⟩ := round_nearest pos (inRange_whole pos (by omega)) sign
  have same := near.eq_of_whole (i := n) (by exact_mod_cast small) rfl
  rw [same] at denotes
  exact denotes

theorem ofNat_whole {n : ℕ} (pos : 0 < n) (small : n < 2 ^ 53) :
    Denotes (Float.Model.ofNat n) .positive n := by
  obtain ⟨y, denotes, near⟩ := ofNat_nearest pos (inRange_whole pos (by omega))
  have same := near.eq_of_whole (i := n) (by exact_mod_cast small) rfl
  rw [same] at denotes
  exact denotes

/-! ## Back to whole numbers -/

theorem shiftToExponent_mantissa (m : ℕ) (e t : ℤ) :
    (shiftToExponent m e .exact t).1.mantissa = m / 2 ^ (t - e).toNat := by
  obtain ⟨mantissa, -⟩ := (represents_exact m).shiftRight (t - e).toNat
  exact mantissa

/-- The cast of a float to an integer drops what is behind the point. -/
theorem Denotes.toInt {f : Float.Model} {sign : Sign} {y : ℚ} (denotes : Denotes f sign y) {n : ℕ}
    (low : n ≤ y) (high : y < n + 1) (least most : ℤ) :
    f.unpack.toInt least most = sign.apply n := by
  obtain ⟨m, e, pos, unpacked, -, rfl⟩ := denotes
  rw [unpacked]
  show roundToInt sign m e = sign.apply n
  obtain ⟨a, up⟩ : ∃ a : ℕ, (e - 0).toNat = a := ⟨_, rfl⟩
  obtain ⟨b, down⟩ : ∃ b : ℕ, (0 - (e - a)).toNat = b := ⟨_, rfl⟩
  have exponents : (2 : ℚ) ^ a = 2 ^ e * 2 ^ b := by
    rw [← zpow_natCast, ← zpow_natCast, ← zpow_add₀ two_ne_zero]
    congr 1
    omega
  have unit : (0 : ℚ) < 2 ^ b := by positivity
  have scaled : ((m * 2 ^ a : ℕ) : ℚ) = m * 2 ^ e * 2 ^ b := by
    push_cast
    rw [exponents, mul_assoc]
  have whole : m * 2 ^ a / 2 ^ b = n := by
    apply Nat.div_eq_of_lt_le
    · have : ((n * 2 ^ b : ℕ) : ℚ) ≤ (m * 2 ^ a : ℕ) := by
        rw [scaled]
        push_cast
        exact mul_le_mul_of_nonneg_right low unit.le
      exact_mod_cast this
    · have : ((m * 2 ^ a : ℕ) : ℚ) < ((n + 1) * 2 ^ b : ℕ) := by
        rw [scaled]
        push_cast
        exact mul_lt_mul_of_pos_right high unit
      exact_mod_cast this
  simp only [roundToInt, decreaseExponent, shiftToExponent_mantissa, up, down, Nat.shiftLeft_eq,
    whole]

end Binary64
