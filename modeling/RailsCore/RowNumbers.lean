import Mathlib.Data.Set.Finite.List
import Mathlib.Order.WellFoundedSet

/-!
# Row numbers

`ROW_NUMBER() OVER (PARTITION BY part ORDER BY before)`, over rows of any type
and any strict order of them. The rows with number 1 are one for each value of
`part`: the first of its rows.
-/

namespace RowNumbers

universe u v
variable {Row : Type u} {Key : Type v} [DecidableEq Key]
variable (part : Row → Key) (before : Row → Row → Prop) [DecidableRel before]

/-- The place of a row among the rows of its part, from 1. -/
def rowNumber (rows : List Row) (r : Row) : Nat :=
  (rows.filter (fun s => part s = part r ∧ before s r)).length + 1

/-- What is left when every row with a number above 1 is deleted. -/
def firsts (rows : List Row) : List Row :=
  rows.filter (fun r => ¬ 1 < rowNumber part before rows r)

variable {part before} {rows : List Row} {r s : Row}

theorem rowNumber_le_one :
    ¬ 1 < rowNumber part before rows r ↔ ∀ s ∈ rows, part s = part r → ¬ before s r := by
  have alone : ∀ n, ¬ 1 < n + 1 ↔ n = 0 := by omega
  rw [rowNumber, alone, List.length_eq_zero_iff, List.filter_eq_nil_iff]
  simp

theorem mem_firsts :
    r ∈ firsts part before rows ↔ r ∈ rows ∧ ∀ s ∈ rows, part s = part r → ¬ before s r := by
  rw [firsts, List.mem_filter, decide_eq_true_iff, rowNumber_le_one]

/-- No two first rows are in one part, where the order decides between any two rows. -/
theorem firsts_unique (distinct : rows.Nodup)
    (total : ∀ r ∈ rows, ∀ s ∈ rows, r ≠ s → before r s ∨ before s r) :
    ((firsts part before rows).map part).Nodup := by
  refine (distinct.filter _).map_on fun r hr s hs same => ?_
  obtain ⟨listed, first⟩ := mem_firsts.mp hr
  obtain ⟨listed', first'⟩ := mem_firsts.mp hs
  by_contra apart
  rcases total r listed s listed' apart with earlier | earlier
  · exact first' r listed same earlier
  · exact first s listed' same.symm earlier

variable [IsStrictOrder Row before]

variable (part before) in
/-- Every row is the first of its part or comes after it. -/
theorem exists_first (listed : r ∈ rows) :
    ∃ s ∈ firsts part before rows, part s = part r ∧ (s = r ∨ before s r) := by
  have finite : {s | s ∈ rows}.WellFoundedOn before := (List.finite_toSet rows).wellFoundedOn
  refine finite.induction (P := fun r => ∃ s ∈ firsts part before rows,
    part s = part r ∧ (s = r ∨ before s r)) listed fun r listed ih => ?_
  by_cases first : ∀ s ∈ rows, part s = part r → ¬ before s r
  · exact ⟨r, mem_firsts.mpr ⟨listed, first⟩, rfl, .inl rfl⟩
  · push Not at first
    obtain ⟨s, hs, same, earlier⟩ := first
    obtain ⟨t, ht, same', still⟩ := ih s hs earlier
    refine ⟨t, ht, same'.trans same, .inr ?_⟩
    rcases still with rfl | earlier'
    · exact earlier
    · exact trans_of before earlier' earlier

/-- Where the parts are single rows, all rows are first. -/
theorem firsts_eq_self (unique : (rows.map part).Nodup) : firsts part before rows = rows := by
  refine List.filter_eq_self.mpr fun r listed => decide_eq_true (rowNumber_le_one.mpr ?_)
  intro s hs same
  obtain rfl := List.inj_on_of_nodup_map unique hs listed same
  exact irrefl s

end RowNumbers
