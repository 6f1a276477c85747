import Mathlib.Data.List.Nodup

/-!
# Tables with an index

A table is the list of its committed rows. `find` is a select by an indexed
column, `updateWhere` an update statement, `upsert` an insert that overwrites
the row with the same key, and `Unique` says that the index is unique.
-/

namespace Table

universe u v
variable {Row : Type u} {Key : Type v} [DecidableEq Key]

def find (key : Row → Key) (k : Key) (rows : List Row) : Option Row :=
  rows.find? (fun r => key r = k)

def updateWhere (p : Row → Bool) (f : Row → Row) (rows : List Row) : List Row :=
  rows.map (fun r => if p r then f r else r)

def upsert (key : Row → Key) (row : Row) (rows : List Row) : List Row :=
  if (find key (key row) rows).isSome then
    updateWhere (fun r => key r = key row) (fun _ => row) rows
  else rows ++ [row]

omit [DecidableEq Key] in
/-- No two rows carry the same key. -/
def Unique (key : Row → Key) (rows : List Row) : Prop := (rows.map key).Nodup

instance (key : Row → Key) (rows : List Row) : Decidable (Unique key rows) :=
  inferInstanceAs (Decidable (rows.map key).Nodup)

theorem find_some {key : Row → Key} {k : Key} {rows : List Row} {r : Row}
    (h : find key k rows = some r) : r ∈ rows ∧ key r = k :=
  ⟨List.mem_of_find?_eq_some h, by simpa using List.find?_some h⟩

theorem find_none_iff {key : Row → Key} {k : Key} {rows : List Row} :
    find key k rows = none ↔ ∀ r ∈ rows, key r ≠ k := by
  simp [find]

omit [DecidableEq Key] in
theorem Unique.eq {key : Row → Key} {rows : List Row} (unique : Unique key rows)
    {r s : Row} (hr : r ∈ rows) (hs : s ∈ rows) (same : key r = key s) : r = s :=
  List.inj_on_of_nodup_map unique hr hs same

theorem Unique.find {key : Row → Key} {rows : List Row} (unique : Unique key rows)
    {r : Row} (hr : r ∈ rows) : find key (key r) rows = some r := by
  cases hf : Table.find key (key r) rows with
  | none => exact absurd rfl (find_none_iff.mp hf r hr)
  | some s =>
    obtain ⟨hs, same⟩ := find_some hf
    rw [unique.eq hs hr same]

/-- A query by the key of a row finds that row alone. -/
theorem Unique.filter_eq {key : Row → Key} {rows : List Row} (unique : Unique key rows) {r : Row}
    (listed : r ∈ rows) : rows.filter (fun s => key s = key r) = [r] := by
  obtain ⟨before, after, rfl⟩ := List.append_of_mem listed
  rw [Unique, List.map_append, List.map_cons, List.nodup_append, List.nodup_cons] at unique
  obtain ⟨-, ⟨notAfter, -⟩, apart⟩ := unique
  have left : before.filter (fun s => key s = key r) = [] := by
    rw [List.filter_eq_nil_iff]
    intro s hs same
    exact apart _ (List.mem_map_of_mem hs) _ List.mem_cons_self (of_decide_eq_true same)
  have right : after.filter (fun s => key s = key r) = [] := by
    rw [List.filter_eq_nil_iff]
    intro s hs same
    exact notAfter (of_decide_eq_true same ▸ List.mem_map_of_mem hs)
  rw [List.filter_append, left, List.nil_append, List.filter_cons, right, if_pos (decide_eq_true rfl)]

omit [DecidableEq Key] in
theorem unique_nil (key : Row → Key) : Unique key [] := List.nodup_nil

omit [DecidableEq Key] in
theorem Unique.insert {key : Row → Key} {rows : List Row} (unique : Unique key rows)
    {row : Row} (fresh : ∀ r ∈ rows, key r ≠ key row) : Unique key (rows ++ [row]) := by
  rw [Unique, List.map_append, List.nodup_append]
  refine ⟨unique, List.nodup_singleton _, ?_⟩
  intro a ha b hb same
  obtain ⟨r, hr, rfl⟩ := List.mem_map.mp ha
  simp only [List.map_cons, List.map_nil, List.mem_singleton] at hb
  exact fresh r hr (same.trans hb)

omit [DecidableEq Key] in
theorem map_updateWhere {key : Row → Key} {p : Row → Bool} {f : Row → Row}
    (keeps : ∀ r, key (f r) = key r) (rows : List Row) :
    (updateWhere p f rows).map key = rows.map key := by
  rw [updateWhere, List.map_map]
  refine List.map_congr_left (fun r _ => ?_)
  by_cases hp : p r
  · simp [hp, keeps r]
  · simp [hp]

omit [DecidableEq Key] in
theorem Unique.updateWhere {key : Row → Key} {rows : List Row} (unique : Unique key rows)
    {p : Row → Bool} {f : Row → Row} (keeps : ∀ r, key (f r) = key r) :
    Unique key (updateWhere p f rows) := by
  rw [Unique, map_updateWhere keeps]
  exact unique

theorem mem_updateWhere {p : Row → Bool} {f : Row → Row} {rows : List Row} {t : Row} :
    t ∈ updateWhere p f rows ↔ ∃ r ∈ rows, t = if p r then f r else r := by
  simp only [updateWhere, List.mem_map]
  exact exists_congr fun r => and_congr_right fun _ => eq_comm

/-- An update by a unique key changes the one row that has it. -/
theorem Unique.update_one {key : Row → Key} {before after : List Row} {row : Row}
    (unique : Unique key (before ++ row :: after)) (f : Row → Row) :
    Table.updateWhere (fun r => key r = key row) f (before ++ row :: after) =
      before ++ f row :: after := by
  rw [Unique, List.map_append, List.map_cons, List.nodup_middle, List.nodup_cons] at unique
  have others : ∀ rows : List Row, (∀ r ∈ rows, key r ≠ key row) →
      Table.updateWhere (fun r => key r = key row) f rows = rows := by
    intro rows apart
    refine (List.map_congr_left fun r hr => ?_).trans (List.map_id rows)
    simp [apart r hr]
  have apart : ∀ r ∈ before ++ after, key r ≠ key row := by
    intro r hr same
    refine unique.1 ?_
    rw [← List.map_append, ← same]
    exact List.mem_map_of_mem hr
  have first := others before fun r hr => apart r (List.mem_append_left _ hr)
  have last := others after fun r hr => apart r (List.mem_append_right _ hr)
  rw [Table.updateWhere] at first last ⊢
  rw [List.map_append, List.map_cons, first, last]
  simp

theorem find_insert {key : Row → Key} (row : Row) (rows : List Row) (k : Key) :
    find key k (rows ++ [row]) =
      (find key k rows).or (if key row = k then some row else none) := by
  simp only [find, List.find?_append, List.find?_cons, List.find?_nil]
  by_cases h : key row = k <;> simp [h]

theorem find_replace {key : Row → Key} (row : Row) (rows : List Row) (k : Key) :
    find key k (updateWhere (fun r => key r = key row) (fun _ => row) rows) =
      if k = key row then (find key k rows).map (fun _ => row) else find key k rows := by
  induction rows with
  | nil => simp [find, updateWhere]
  | cons r rows ih =>
    simp only [find, updateWhere, List.map_cons, List.find?_cons] at ih ⊢
    by_cases hk : k = key row
    · subst hk
      by_cases hr : key r = key row
      · simp [hr]
      · simpa [hr] using ih
    · by_cases hr : key r = key row
      · simpa [hr, hk, Ne.symm hk] using ih
      · by_cases hrk : key r = k
        · simp [hrk, hk]
        · simpa [hr, hrk, hk] using ih

/-- An update by a key that leaves the key as it is. -/
theorem find_updateWhere {key : Row → Key} {f : Row → Row} (keeps : ∀ r, key (f r) = key r)
    (k : Key) (rows : List Row) :
    find key k (updateWhere (fun r => key r = k) f rows) = (find key k rows).map f := by
  induction rows with
  | nil => rfl
  | cons r rows ih =>
    simp only [find, updateWhere, List.map_cons, List.find?_cons] at ih ⊢
    by_cases own : key r = k
    · simp [own, keeps r]
    · simpa [own] using ih

/-- After an upsert the row is found under its key, and nothing else moved. -/
theorem find_upsert {key : Row → Key} (row : Row) (rows : List Row) (k : Key) :
    find key k (upsert key row rows) = if k = key row then some row else find key k rows := by
  rw [upsert]
  cases hf : find key (key row) rows with
  | none =>
    simp only [Option.isSome_none, Bool.false_eq_true, if_false, find_insert]
    by_cases hk : k = key row
    · subst hk
      simp [hf]
    · simp [hk, Ne.symm hk]
  | some r =>
    simp only [Option.isSome_some, if_true, find_replace]
    by_cases hk : k = key row
    · subst hk
      simp [hf]
    · simp [hk]

end Table
