import Mathlib.Data.List.DropRight

/-!
# Lists without the elements that a predicate drops at both ends

What trimming keeps of a list, for any predicate: its ends are not dropped,
nothing grows, and trimming again changes nothing.
-/

namespace RailsCore

variable {α : Type*}

abbrev dropBoth (p : α → Bool) (l : List α) : List α := (l.dropWhile p).rdropWhile p

theorem dropBoth_ends (p : α → Bool) (l : List α) :
    (∀ c ∈ (dropBoth p l).head?, p c = false) ∧ ∀ c ∈ (dropBoth p l).getLast?, p c = false := by
  have front : ∀ m : List α, ∀ c ∈ (m.dropWhile p).head?, p c = false := by
    intro m c hc
    have first := List.head?_dropWhile_not p m
    rw [Option.mem_def.mp hc] at first
    simpa using first
  constructor
  · intro c hc
    obtain ⟨rest, whole⟩ := List.rdropWhile_prefix p (l := l.dropWhile p)
    apply front l
    rw [← whole, Option.mem_def, List.head?_append, Option.mem_def.mp hc, Option.some_or]
  · intro c hc
    rw [dropBoth, List.rdropWhile, List.getLast?_reverse] at hc
    exact front _ c hc

theorem dropBoth_of_ends {p : α → Bool} {l : List α} (first : ∀ c ∈ l.head?, p c = false)
    (last : ∀ c ∈ l.getLast?, p c = false) : dropBoth p l = l := by
  have keep : l.dropWhile p = l := by
    cases l with
    | nil => rfl
    | cons c l => simp [first c rfl]
  rw [dropBoth, keep, List.rdropWhile_eq_self_iff]
  intro some
  simp [last _ (List.getLast?_eq_some_getLast some)]

theorem dropBoth_dropBoth (p : α → Bool) (l : List α) : dropBoth p (dropBoth p l) = dropBoth p l :=
  dropBoth_of_ends (dropBoth_ends p l).1 (dropBoth_ends p l).2

theorem length_dropBoth_le (p : α → Bool) (l : List α) : (dropBoth p l).length ≤ l.length :=
  (List.rdropWhile_prefix p _).length_le.trans (List.length_dropWhile_le p l)

theorem dropBoth_eq_nil {p : α → Bool} {l : List α} :
    dropBoth p l = [] ↔ ∀ c ∈ l, p c = true := by
  rw [List.rdropWhile_eq_nil_iff, ← List.dropWhile_eq_nil_iff, List.dropWhile_idempotent,
    List.dropWhile_eq_nil_iff]

end RailsCore
