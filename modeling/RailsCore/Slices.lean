import Mathlib.Data.List.Basic
import Mathlib.Data.List.Flatten
import Mathlib.Data.List.Nodup
import Mathlib.Data.Nat.Init

/-!
# Slices of a list

A list cut into slices of one length, the last one as short as it comes. The
slices in their order are the whole list, and those after the last are empty.
-/

namespace Slices

universe u
variable {α : Type u}

/-- Slice number `p`, counted from 0. -/
def slice (n p : Nat) (rows : List α) : List α := (rows.drop (p * n)).take n

/-- The number of slices of length `n` that `k` rows fill. -/
def count (n k : Nat) : Nat := (k + (n - 1)) / n

theorem slice_eq_nil {n p : Nat} {rows : List α} (beyond : count n rows.length ≤ p) (pos : 0 < n) :
    slice n p rows = [] := by
  have filled : rows.length ≤ p * n := by
    have := (Nat.div_le_iff_le_mul_add_pred pos).mp beyond
    rw [Nat.mul_comm]
    omega
  rw [slice, List.drop_eq_nil_of_le filled, List.take_nil]

/-- The first `p` slices are the first `p * n` rows. -/
theorem flatten_slices (n p : Nat) (rows : List α) :
    ((List.range p).map (fun k => slice n k rows)).flatten = rows.take (p * n) := by
  induction p with
  | zero => rw [Nat.zero_mul, List.take_zero, List.range_zero, List.map_nil, List.flatten_nil]
  | succ p ih =>
    rw [List.range_succ, List.map_append, List.flatten_append, ih, List.map_singleton,
      List.flatten_singleton, slice, Nat.succ_mul, List.take_add]

/-- All slices together are the whole list. -/
theorem flatten_all {n : Nat} (pos : 0 < n) (rows : List α) :
    ((List.range (count n rows.length)).map (fun k => slice n k rows)).flatten = rows := by
  rw [flatten_slices]
  refine List.take_of_length_le ?_
  have last := (Nat.div_le_iff_le_mul_add_pred pos).mp (Nat.le_refl (count n rows.length))
  rw [Nat.mul_comm]
  omega

theorem mem_window {o n : Nat} {rows : List α} {row : α} :
    row ∈ (rows.drop o).take n ↔ ∃ k, o ≤ k ∧ k < o + n ∧ rows[k]? = some row := by
  rw [List.mem_iff_getElem?]
  constructor
  · rintro ⟨i, there⟩
    by_cases within : i < n
    · rw [List.getElem?_take_of_lt within, List.getElem?_drop] at there
      exact ⟨o + i, by omega, by omega, there⟩
    · rw [List.getElem?_eq_none (by rw [List.length_take]; omega)] at there
      exact nomatch there
  · rintro ⟨k, after, before, there⟩
    refine ⟨k - o, ?_⟩
    rw [List.getElem?_take_of_lt (by omega), List.getElem?_drop, Nat.add_sub_cancel' after]
    exact there

/-- A row is on some slice, and on none that starts after the last row. -/
theorem mem_slices {n : Nat} (pos : 0 < n) {rows : List α} {row : α} :
    row ∈ rows ↔ ∃ p, p * n < rows.length ∧ row ∈ slice n p rows := by
  constructor
  · intro listed
    obtain ⟨k, there⟩ := List.mem_iff_getElem?.mp listed
    have within := (List.getElem?_eq_some_iff.mp there).1
    have start := Nat.div_mul_le_self k n
    have rest := Nat.lt_div_mul_add pos (a := k)
    exact ⟨k / n, by omega, mem_window.mpr ⟨k, start, rest, there⟩⟩
  · rintro ⟨p, -, shown⟩
    exact List.mem_of_mem_drop (List.mem_of_mem_take shown)

/-- In a sorted list without duplicates the position of a row is the number of rows before it. -/
theorem position_eq {before : α → α → Prop} [DecidableRel before] [DecidableEq α] {rows : List α}
    (sorted : rows.Pairwise before) (apart : rows.Nodup)
    (antisymm : ∀ a ∈ rows, ∀ b ∈ rows, before a b → before b a → a = b) {k : Nat} {row : α}
    (at_ : rows[k]? = some row) :
    (rows.filter (fun r => r ≠ row ∧ before r row)).length = k := by
  obtain ⟨within, value⟩ := List.getElem?_eq_some_iff.mp at_
  have split : rows = rows.take k ++ row :: rows.drop (k + 1) := by
    rw [← value, List.getElem_cons_drop, List.take_append_drop]
  have left : ∀ r ∈ rows.take k, r ≠ row ∧ before r row := by
    intro r listed
    rw [split, List.pairwise_append] at sorted
    rw [split, List.nodup_append] at apart
    exact ⟨apart.2.2 r listed _ List.mem_cons_self, sorted.2.2 r listed _ List.mem_cons_self⟩
  have right : ∀ r ∈ row :: rows.drop (k + 1), ¬ (r ≠ row ∧ before r row) := by
    rintro r listed ⟨other, ahead⟩
    rcases List.mem_cons.mp listed with same | behind
    · exact other same
    · rw [split, List.pairwise_append, List.pairwise_cons] at sorted
      exact other (antisymm r (List.mem_of_mem_drop behind) _ (value ▸ List.getElem_mem within) ahead
        (sorted.2.1.1 r behind))
  have whole : rows.filter (fun r => r ≠ row ∧ before r row) = rows.take k := by
    conv_lhs => rw [split]
    rw [List.filter_append, List.filter_eq_self.mpr fun r listed => decide_eq_true (left r listed),
      List.filter_eq_nil_iff.mpr fun r listed => by simpa using right r listed, List.append_nil]
  rw [whole, List.length_take]
  omega

end Slices
