import Mathlib.Algebra.Order.Field.Rat
import Mathlib.Tactic.Ring
import RailsCore.Digits

/-!
# Numbers as text

Rust's `i64::from_str` and `f64::from_str` beside the grammar that each of them
documents. The readers take exactly the texts of the grammar, and a text of the
one or of the other denotes one number.
-/

namespace Numerals
open Digits

/-- The number with this sign. -/
def signed (negative : Bool) (n : Nat) : Int := if negative then -n else n

/-- The sign at the front of a number, and what follows it. -/
def readSign : List Char → Bool × List Char
  | [] => (false, [])
  | c :: s => if c = '-' then (true, s) else if c = '+' then (false, s) else (false, c :: s)

/-- A sign and digits, up to the end of the text. -/
def readInteger (s : List Char) : Option Int :=
  let digits := readDigits 10 (readSign s).2
  if digits.1 = [] ∨ digits.2 ≠ [] then none
  else some (signed (readSign s).1 (digitsValue 10 digits.1))

/-- `i64::from_str`. -/
def parseI64 (s : List Char) : Option Int64 :=
  (readInteger s).bind fun n =>
    if Int64.minValue.toInt ≤ n ∧ n ≤ Int64.maxValue.toInt then some (Int64.ofInt n) else none

/-- `u64::from_str`. -/
def parseU64 (s : List Char) : Option UInt64 :=
  if (readSign s).1 then none
  else (readInteger s).bind fun n =>
    if n.toNat < UInt64.size then some (UInt64.ofNat n.toNat) else none

/-- A decimal number: its digits without the point, and the power of ten that they count. -/
structure Decimal where
  negative : Bool
  mantissa : Nat
  exponent : Int
deriving DecidableEq, Repr

def Decimal.value (d : Decimal) : ℚ := signed d.negative d.mantissa * 10 ^ d.exponent

def readFraction : List Char → List Nat × List Char
  | [] => ([], [])
  | c :: s => if c = '.' then readDigits 10 s else ([], c :: s)

/-- The exponent after the digits, if there is one; nothing follows it. -/
def readExponent : List Char → Option Int
  | [] => some 0
  | c :: s => if c = 'e' ∨ c = 'E' then readInteger s else none

/-- The part of `f64::from_str` that reads a number. -/
def readDecimal (s : List Char) : Option Decimal :=
  let whole := readDigits 10 (readSign s).2
  let fraction := readFraction whole.2
  let digits := whole.1 ++ fraction.1
  if digits = [] then none
  else (readExponent fraction.2).map fun exponent =>
    ⟨(readSign s).1, digitsValue 10 digits, exponent - fraction.1.length⟩

/-- The number that is nearest to the decimal. -/
def Decimal.toF64 (d : Decimal) : Float.Model :=
  let magnitude := Float.Model.ofScientific d.mantissa d.exponent
  if d.negative then -magnitude else magnitude

/-- What a word in capitals stands for. -/
def wordValue (word : List Char) : Option Float.Model :=
  if word = "INF".toList ∨ word = "INFINITY".toList then
    some (Float.Model.pack (.infinity .positive))
  else if word = "NAN".toList then some (Float.Model.pack .notANumber)
  else none

/-- The part of `f64::from_str` that reads a word, in either case. -/
def parseInfNan (s : List Char) : Option Float.Model :=
  (wordValue ((readSign s).2.map Char.toUpper)).map fun float =>
    if (readSign s).1 then -float else float

/-- `f64::from_str`. -/
def parseF64 (s : List Char) : Option Float.Model :=
  match readDecimal s with
  | some d => some d.toF64
  | none => parseInfNan s

/-! ## The grammar -/

/-- `Digit*`, with the digits. -/
def IsDigits (s : List Char) (digits : List Nat) : Prop :=
  s = digits.map Nat.digitChar ∧ ∀ d ∈ digits, d < 10

/-- `Sign?`, with whether it is a minus. -/
inductive IsSign : List Char → Bool → Prop
  | absent : IsSign [] false
  | plus : IsSign ['+'] false
  | minus : IsSign ['-'] true

/-- `Sign? Digit+`, with the number. -/
inductive IntegerText : List Char → Int → Prop
  | intro {sign s : List Char} {negative : Bool} {digits : List Nat} :
    IsSign sign negative → IsDigits s digits → digits ≠ [] →
    IntegerText (sign ++ s) (signed negative (digitsValue 10 digits))

/-- `Exp?`, with the exponent. -/
inductive IsExponent : List Char → Int → Prop
  | absent : IsExponent [] 0
  | lower {s : List Char} {n : Int} : IntegerText s n → IsExponent ('e' :: s) n
  | upper {s : List Char} {n : Int} : IntegerText s n → IsExponent ('E' :: s) n

/-- `Digit*` after a point, or neither. -/
inductive IsFraction : List Char → List Nat → Prop
  | absent : IsFraction [] []
  | point {s : List Char} {digits : List Nat} : IsDigits s digits → IsFraction ('.' :: s) digits

/-- `Sign? Number`, with the number. -/
inductive DecimalText : List Char → ℚ → Prop
  | intro {sign s t e : List Char} {negative : Bool} {whole fraction : List Nat} {exponent : Int} :
    IsSign sign negative → IsDigits s whole → IsFraction t fraction → whole ++ fraction ≠ [] →
    IsExponent e exponent →
    DecimalText (sign ++ (s ++ (t ++ e)))
      (signed negative (digitsValue 10 (whole ++ fraction)) * 10 ^ (exponent - fraction.length))

/-! ## The readers and the grammar -/

theorem toDigit_ten {c : Char} {d : Nat} (read : toDigit 10 c = some d) :
    c = d.digitChar ∧ d < 10 := by
  rw [toDigit, Option.filter_eq_some_iff] at read
  obtain ⟨value, small⟩ := read
  have small : d < 10 := of_decide_eq_true small
  refine ⟨?_, small⟩
  apply Char.toNat_inj.mp
  rw [Nat.toNat_digitChar_of_lt_ten small]
  split at value
  · rename_i digit
    have : 48 ≤ c.toNat := digit.1
    have := Option.some.inj value
    omega
  · split at value
    · have := Option.some.inj value
      omega
    · split at value
      · have := Option.some.inj value
        omega
      · cases value

theorem readDigits_iff {s rest : List Char} {digits : List Nat} :
    readDigits 10 s = (digits, rest) ↔
      ∃ t, s = t ++ rest ∧ IsDigits t digits ∧ Ends 10 rest := by
  constructor
  · intro read
    induction s generalizing digits with
    | nil =>
      cases read
      exact ⟨[], rfl, ⟨rfl, by simp⟩, ends_nil 10⟩
    | cons c s ih =>
      rw [readDigits] at read
      cases first : toDigit 10 c with
      | none =>
        rw [first] at read
        cases read
        exact ⟨[], rfl, ⟨rfl, by simp⟩, ends_cons first⟩
      | some d =>
        rw [first] at read
        obtain ⟨t, whole, ⟨text, small⟩, ends⟩ := ih (Prod.ext rfl (Prod.mk.inj read).2)
        obtain ⟨here, within⟩ := toDigit_ten first
        rw [← (Prod.mk.inj read).1]
        refine ⟨c :: t, by rw [whole, List.cons_append], ⟨?_, ?_⟩, ends⟩
        · rw [text, here, List.map_cons]
        · intro e listed
          rcases List.mem_cons.mp listed with rfl | later
          · exact within
          · exact small e later
  · rintro ⟨t, rfl, ⟨rfl, small⟩, ends⟩
    exact readDigits_digits (by decide) small ends

/-- Text that does not begin with a sign. -/
def Unsigned (s : List Char) : Prop := ∀ c ∈ s.head?, c ≠ '-' ∧ c ≠ '+'

theorem readSign_spec (s : List Char) :
    ∃ sign, IsSign sign (readSign s).1 ∧ s = sign ++ (readSign s).2 := by
  cases s with
  | nil => exact ⟨[], .absent, rfl⟩
  | cons c s =>
    rw [readSign]
    split
    · rename_i minus
      exact ⟨['-'], .minus, by rw [minus]; rfl⟩
    · split
      · rename_i plus
        exact ⟨['+'], .plus, by rw [plus]; rfl⟩
      · exact ⟨[], .absent, rfl⟩

theorem readSign_of_sign {sign s : List Char} {negative : Bool} (h : IsSign sign negative)
    (plain : Unsigned s) : readSign (sign ++ s) = (negative, s) := by
  cases h with
  | plus => rfl
  | minus => rfl
  | absent =>
    cases s with
    | nil => rfl
    | cons c s =>
      have other := plain c rfl
      rw [List.nil_append, readSign, if_neg other.1, if_neg other.2]

theorem digitChar_unsigned : ∀ d < 10, Nat.digitChar d ≠ '-' ∧ Nat.digitChar d ≠ '+' := by decide

theorem IsDigits.unsigned {s rest : List Char} {digits : List Nat} (h : IsDigits s digits)
    (plain : digits = [] → Unsigned rest) : Unsigned (s ++ rest) := by
  obtain ⟨rfl, small⟩ := h
  cases digits with
  | nil => exact plain rfl
  | cons d digits =>
    intro c first
    cases Option.some.inj first
    exact digitChar_unsigned d (small d List.mem_cons_self)

theorem readInteger_iff {s : List Char} {n : Int} : readInteger s = some n ↔ IntegerText s n := by
  constructor
  · intro read
    obtain ⟨sign, signs, whole⟩ := readSign_spec s
    obtain ⟨t, text, digits, -⟩ := readDigits_iff.mp (rfl : readDigits 10 (readSign s).2 = (_, _))
    simp only [readInteger] at read
    split at read
    · exact absurd read nofun
    · rename_i read_
      rw [not_or, not_not] at read_
      have spelled := IntegerText.intro signs digits read_.1
      rw [read_.2, List.append_nil] at text
      rwa [← text, ← whole, Option.some.inj read] at spelled
  · intro h
    cases h with
    | @intro sign s negative ds signs digits some_ =>
      have text := readDigits_iff.mpr ⟨s, (List.append_nil s).symm, digits, ends_nil 10⟩
      have plain : Unsigned (s ++ []) := digits.unsigned fun none_ => absurd none_ some_
      rw [List.append_nil] at plain
      simp only [readInteger, readSign_of_sign signs plain, text]
      rw [if_neg (by simp [some_])]

theorem parseI64_iff {s : List Char} {n : Int64} :
    parseI64 s = some n ↔ IntegerText s n.toInt := by
  rw [parseI64, Option.bind_eq_some_iff, ← readInteger_iff]
  constructor
  · rintro ⟨z, read, fits⟩
    split at fits
    · rename_i range
      rw [read, ← Option.some.inj fits,
        Int64.toInt_ofInt_of_le range.1 (Int.lt_of_le_of_lt range.2 (by decide))]
    · exact absurd fits nofun
  · intro read
    refine ⟨n.toInt, read, ?_⟩
    rw [if_pos ⟨n.minValue_le_toInt, n.toInt_le⟩, Int64.ofInt_toInt]

/-- An integer that is not read does not fit. -/
theorem IntegerText.outside {s : List Char} {n : Int} (h : IntegerText s n)
    (unread : parseI64 s = none) : n < Int64.minValue.toInt ∨ Int64.maxValue.toInt < n := by
  rw [parseI64, readInteger_iff.mpr h, Option.bind_some] at unread
  split at unread
  · exact absurd unread nofun
  · omega

theorem readExponent_iff {s : List Char} {n : Int} :
    readExponent s = some n ↔ IsExponent s n := by
  cases s with
  | nil =>
    constructor
    · intro read
      cases Option.some.inj read
      exact .absent
    · intro h
      cases h
      rfl
  | cons c s =>
    rw [readExponent]
    constructor
    · intro read
      split at read
      · rename_i letter
        rcases letter with rfl | rfl
        · exact .lower (readInteger_iff.mp read)
        · exact .upper (readInteger_iff.mp read)
      · exact absurd read nofun
    · intro h
      cases h with
      | lower text => exact readInteger_iff.mpr text
      | upper text => exact readInteger_iff.mpr text

theorem IsExponent.ends {s : List Char} {n : Int} (h : IsExponent s n) : Ends 10 s := by
  cases h with
  | absent => exact ends_nil 10
  | lower => exact ends_cons (by decide)
  | upper => exact ends_cons (by decide)

theorem readFraction_spec (s : List Char) :
    ∃ t, IsFraction t (readFraction s).1 ∧ s = t ++ (readFraction s).2 := by
  cases s with
  | nil => exact ⟨[], .absent, rfl⟩
  | cons c s =>
    rw [readFraction]
    split
    · rename_i point
      obtain ⟨t, text, digits, -⟩ := readDigits_iff.mp (rfl : readDigits 10 s = (_, _))
      refine ⟨'.' :: t, .point digits, ?_⟩
      rw [point, List.cons_append, ← text]
    · exact ⟨[], .absent, rfl⟩

theorem readFraction_of_exponent {t e : List Char} {fraction : List Nat} {exponent : Int}
    (h : IsFraction t fraction) (after : IsExponent e exponent) :
    readFraction (t ++ e) = (fraction, e) := by
  cases h with
  | absent =>
    cases after with
    | absent => rfl
    | lower => rfl
    | upper => rfl
  | point digits => exact readDigits_iff.mpr ⟨_, rfl, digits, after.ends⟩

theorem readDecimal_iff {s : List Char} {q : ℚ} :
    (∃ d, readDecimal s = some d ∧ d.value = q) ↔ DecimalText s q := by
  constructor
  · rintro ⟨d, read, rfl⟩
    obtain ⟨sign, signs, whole⟩ := readSign_spec s
    obtain ⟨t, text, digits, -⟩ := readDigits_iff.mp (rfl : readDigits 10 (readSign s).2 = (_, _))
    obtain ⟨u, fractions, rest⟩ := readFraction_spec (readDigits 10 (readSign s).2).2
    simp only [readDecimal] at read
    split at read
    · exact absurd read nofun
    · rename_i some_
      obtain ⟨exponent, exponents, rfl⟩ := Option.map_eq_some_iff.mp read
      have spelled := DecimalText.intro signs digits fractions some_ (readExponent_iff.mp exponents)
      rwa [← rest, ← text, ← whole] at spelled
  · intro h
    cases h with
    | @intro sign s t e negative whole fraction exponent signs digits fractions some_ exponents =>
      have plain : Unsigned (s ++ (t ++ e)) := by
        apply digits.unsigned
        rintro rfl
        cases fractions with
        | absent => exact absurd rfl some_
        | point => exact fun c first => by cases Option.some.inj first; decide
      have ends : Ends 10 (t ++ e) := by
        cases fractions with
        | absent => exact exponents.ends
        | point => exact ends_cons (by decide)
      have text := readDigits_iff.mpr ⟨s, rfl, digits, ends⟩
      refine ⟨⟨negative, digitsValue 10 (whole ++ fraction), exponent - fraction.length⟩, ?_, rfl⟩
      simp only [readDecimal, readSign_of_sign signs plain, text,
        readFraction_of_exponent fractions exponents, readExponent_iff.mpr exponents]
      rw [if_neg some_, Option.map_some]

/-- An integer is written like a decimal number without point and exponent. -/
theorem IntegerText.decimal {s : List Char} {n : Int} (h : IntegerText s n) : DecimalText s n := by
  cases h with
  | @intro sign s negative ds signs digits some_ =>
    have spelled := DecimalText.intro signs digits .absent (by simpa using some_) .absent
    simpa using spelled

end Numerals
