import Mathlib.Algebra.Group.Nat.Defs
import Mathlib.Data.Fin.Basic
import Mathlib.Data.List.Basic
import Mathlib.Data.Nat.Basic

/-!
# Digits of numbers in text

Reading the digits at the front of a text, in any radix up to 36, and their
value. The digits that a number is written with are read back, up to the first
character that is no digit.
-/

namespace Digits

/-- `char::to_digit`. -/
def toDigit (radix : Nat) (c : Char) : Option Nat :=
  let digit :=
    if '0' ≤ c ∧ c ≤ '9' then some (c.toNat - 48)
    else if 'a' ≤ c ∧ c ≤ 'z' then some (c.toNat - 97 + 10)
    else if 'A' ≤ c ∧ c ≤ 'Z' then some (c.toNat - 65 + 10)
    else none
  digit.filter (fun d => d < radix)

/-- The digits at the front of the text, and what follows them. -/
def readDigits (radix : Nat) : List Char → List Nat × List Char
  | [] => ([], [])
  | c :: rest => match toDigit radix c with
    | some d => (d :: (readDigits radix rest).1, (readDigits radix rest).2)
    | none => ([], c :: rest)

def digitsValue (radix : Nat) (digits : List Nat) : Nat :=
  digits.foldl (fun n d => n * radix + d) 0

theorem digit_digitChar : ∀ d < 16, ∀ radix, d < radix → toDigit radix d.digitChar = some d := by
  intro d small radix within
  have plain : ∀ d < 16, toDigit 16 (Nat.digitChar d) = some d := by decide
  have value := plain d small
  rw [toDigit, Option.filter_eq_some_iff] at value ⊢
  exact ⟨value.1, decide_eq_true within⟩

theorem digitChar_eq_zero : ∀ d < 16, Nat.digitChar d = '0' → d = 0 := by decide

/-- The digits of a number: they are in range, their value is the number, and
only the number zero begins with the digit zero. -/
theorem toDigits_spec {radix : Nat} (base : 1 < radix) (n : Nat) :
    ∃ ds : List Nat, Nat.toDigits radix n = ds.map Nat.digitChar ∧ (∀ d ∈ ds, d < radix) ∧
      digitsValue radix ds = n ∧ ds ≠ [] ∧ (1 < ds.length → ds.head? ≠ some 0) := by
  suffices strong : ∃ ds : List Nat, Nat.toDigits radix n = ds.map Nat.digitChar ∧
      (∀ d ∈ ds, d < radix) ∧ digitsValue radix ds = n ∧ ds ≠ [] ∧
      (1 < ds.length → ds.head? ≠ some 0) ∧ (0 < n → ds.head? ≠ some 0) by
    obtain ⟨ds, text, range, value, some_, first, -⟩ := strong
    exact ⟨ds, text, range, value, some_, first⟩
  induction n using Nat.strongRecOn with
  | ind n ih =>
    by_cases small : n < radix
    · refine ⟨[n], ?_, ?_, ?_, by simp, by simp, ?_⟩
      · rw [Nat.toDigits_of_lt_base small, List.map_singleton]
      · intro d listed
        rw [List.mem_singleton.mp listed]
        exact small
      · simp [digitsValue]
      · intro positive first
        have : n = 0 := Option.some.inj first
        omega
    · have less : n / radix < n := Nat.div_lt_self (by omega) base
      have positive : 0 < n / radix := Nat.div_pos (by omega) (by omega)
      obtain ⟨ds, text, range, value, some_, -, first⟩ := ih (n / radix) less
      have head : (ds ++ [n % radix]).head? ≠ some 0 := by
        rw [List.head?_append_of_ne_nil _ some_]
        exact first positive
      refine ⟨ds ++ [n % radix], ?_, ?_, ?_, by simp, fun _ => head, fun _ => head⟩
      · rw [Nat.toDigits_of_base_le base (by omega), text, List.map_append, List.map_singleton]
      · intro d listed
        rcases List.mem_append.mp listed with old | new
        · exact range d old
        · rw [List.mem_singleton.mp new]
          exact Nat.mod_lt _ (by omega)
      · rw [digitsValue] at value ⊢
        rw [List.foldl_append, value]
        have := Nat.div_add_mod n radix
        simp only [List.foldl_cons, List.foldl_nil]
        rw [Nat.mul_comm]
        exact this

/-- An ASCII letter or digit, by its number. -/
theorem alphanum_range {c : Char} (alnum : c.isAlphanum) :
    48 ≤ c.toNat ∧ c.toNat ≤ 57 ∨ 65 ≤ c.toNat ∧ c.toNat ≤ 90 ∨
      97 ≤ c.toNat ∧ c.toNat ≤ 122 := by
  rcases Bool.or_eq_true_iff.mp alnum with letter | digit
  · rcases Bool.or_eq_true_iff.mp letter with upper | lower
    · exact .inr (.inl (of_decide_eq_true upper))
    · obtain ⟨least, greatest⟩ := Bool.and_eq_true_iff.mp lower
      exact .inr (.inr ⟨of_decide_eq_true least, of_decide_eq_true greatest⟩)
  · obtain ⟨least, greatest⟩ := Bool.and_eq_true_iff.mp digit
    exact .inl ⟨of_decide_eq_true least, of_decide_eq_true greatest⟩

/-- Text on which the reading of digits ends. -/
def Ends (radix : Nat) (rest : List Char) : Prop := ∀ c ∈ rest.head?, toDigit radix c = none

theorem readDigits_of_ends {radix : Nat} {rest : List Char} (ends : Ends radix rest) :
    readDigits radix rest = ([], rest) := by
  cases rest with
  | nil => rfl
  | cons c rest => rw [readDigits, ends c rfl]

theorem readDigits_digits {radix : Nat} (base : radix ≤ 16) {ds : List Nat} {rest : List Char}
    (range : ∀ d ∈ ds, d < radix) (ends : Ends radix rest) :
    readDigits radix (ds.map Nat.digitChar ++ rest) = (ds, rest) := by
  induction ds with
  | nil => exact readDigits_of_ends ends
  | cons d ds ih =>
    have here := range d List.mem_cons_self
    rw [List.map_cons, List.cons_append, readDigits, digit_digitChar d (by omega) radix here,
      ih fun e listed => range e (List.mem_cons_of_mem d listed)]

theorem ends_nil (radix : Nat) : Ends radix [] := fun _ none_ => nomatch none_

theorem ends_cons {radix : Nat} {c : Char} {rest : List Char} (other : toDigit radix c = none) :
    Ends radix (c :: rest) := by
  intro d first
  cases Option.some.inj first
  exact other

/-- What is left after digits is a part of the text. -/
theorem readDigits_suffix (radix : Nat) (s : List Char) : (readDigits radix s).2 <:+ s := by
  induction s with
  | nil => exact List.suffix_refl _
  | cons c s ih =>
    rw [readDigits]
    split
    · exact ih.trans (List.suffix_cons c s)
    · exact List.suffix_refl _

end Digits
