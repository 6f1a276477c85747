import Mathlib.Data.List.Nodup

/-!
# Tables under read committed isolation

A cell is one row with its committed version and the version that an open
transaction has written, which is also the row's lock. A statement reads the
committed versions and those of its own transaction. An update takes a
snapshot of the keys it selects, then rewrites them one at a time: it waits
for a row that another transaction holds, and evaluates its condition again on
the version it then finds. Deadlock detection is not modelled: a transaction
that waits may be rolled back at any time. Rows are never deleted.
-/

namespace ReadCommitted

universe u v
variable {Row : Type u} {Key : Type v}

structure Cell (Row : Type u) where
  committed : Option Row
  pending : Option (Nat × Row)
deriving DecidableEq, Repr

abbrev Cells (Row : Type u) := List (Cell Row)

namespace Cell

/-- The version that a transaction reads: its own, else the committed one. -/
def visible (tx : Nat) (c : Cell Row) : Option Row :=
  match c.pending with
  | some (holder, row) => if holder = tx then some row else c.committed
  | none => c.committed

/-- No other transaction holds the row. -/
def free (tx : Nat) (c : Cell Row) : Bool := c.pending.all (fun held => held.1 = tx)

def update (tx : Nat) (p : Row → Bool) (f : Row → Row) (c : Cell Row) : Cell Row :=
  match (c.visible tx).filter p with
  | some row => { c with pending := some (tx, f row) }
  | none => c

def commit (tx : Nat) (c : Cell Row) : Cell Row :=
  match c.pending with
  | some (holder, row) => if holder = tx then ⟨some row, none⟩ else c
  | none => c

/-- Without its pending version; a row that was only inserted is gone. -/
def rollback (tx : Nat) (c : Cell Row) : Option (Cell Row) :=
  match c.pending with
  | some (holder, _) => if holder = tx then c.committed.map (fun row => ⟨some row, none⟩) else some c
  | none => some c

/-- A row is one of the versions of the cell. -/
def Version (c : Cell Row) (row : Row) : Prop :=
  c.committed = some row ∨ ∃ tx, c.pending = some (tx, row)

def keyed [DecidableEq Key] (key : Row → Key) (k : Key) (c : Cell Row) : Bool :=
  c.committed.any (fun row => key row = k) || c.pending.any (fun held => key held.2 = k)

theorem visible_version {tx : Nat} {c : Cell Row} {row : Row} (h : c.visible tx = some row) :
    c.Version row := by
  unfold visible at h
  split at h
  · rename_i holder held pending
    split at h
    · cases h
      exact .inr ⟨holder, pending⟩
    · exact .inl h
  · exact .inl h

theorem visible_own {tx : Nat} {c : Cell Row} {row : Row} (h : c.pending = some (tx, row)) :
    c.visible tx = some row := by
  simp [visible, h]

theorem visible_other {tx : Nat} {c : Cell Row} (h : ∀ row, c.pending ≠ some (tx, row)) :
    c.visible tx = c.committed := by
  unfold visible
  split
  · rename_i holder held pending
    rw [if_neg]
    rintro rfl
    exact h held pending
  · rfl

theorem update_cases (tx : Nat) (p : Row → Bool) (f : Row → Row) (c : Cell Row) :
    ((∀ row, c.visible tx = some row → p row = false) ∧ c.update tx p f = c) ∨
      ∃ row, c.visible tx = some row ∧ p row = true ∧
        c.update tx p f = { c with pending := some (tx, f row) } := by
  unfold update
  split
  · rename_i row selected
    obtain ⟨seen, passes⟩ := Option.filter_eq_some_iff.mp selected
    exact .inr ⟨row, seen, passes, rfl⟩
  · rename_i none
    refine .inl ⟨fun row seen => ?_, rfl⟩
    simpa using Option.filter_eq_none_iff.mp none row seen

@[simp] theorem committed_update (tx : Nat) (p : Row → Bool) (f : Row → Row) (c : Cell Row) :
    (c.update tx p f).committed = c.committed := by
  rcases update_cases tx p f c with ⟨-, same⟩ | ⟨row, -, -, written⟩
  · rw [same]
  · rw [written]

theorem held_or_free (tx : Nat) (c : Cell Row) :
    (∃ row, c.pending = some (tx, row)) ∨ ∀ row, c.pending ≠ some (tx, row) := by
  by_cases held : ∃ row, c.pending = some (tx, row)
  · exact .inl held
  · exact .inr fun row same => held ⟨row, same⟩

theorem commit_own {tx : Nat} {c : Cell Row} {row : Row} (h : c.pending = some (tx, row)) :
    c.commit tx = ⟨some row, none⟩ := by
  simp [commit, h]

theorem commit_other {tx : Nat} {c : Cell Row} (h : ∀ row, c.pending ≠ some (tx, row)) :
    c.commit tx = c := by
  unfold commit
  split
  · rename_i holder held pending
    rw [if_neg]
    rintro rfl
    exact h held pending
  · rfl

theorem rollback_own {tx : Nat} {c : Cell Row} {row : Row} (h : c.pending = some (tx, row)) :
    c.rollback tx = c.committed.map (fun row => ⟨some row, none⟩) := by
  simp [rollback, h]

theorem rollback_other {tx : Nat} {c : Cell Row} (h : ∀ row, c.pending ≠ some (tx, row)) :
    c.rollback tx = some c := by
  unfold rollback
  split
  · rename_i holder held pending
    rw [if_neg]
    rintro rfl
    exact h held pending
  · rfl

theorem keyed_iff [DecidableEq Key] {key : Row → Key} {k : Key} {c : Cell Row} :
    c.keyed key k = true ↔ ∃ row, c.Version row ∧ key row = k := by
  simp only [keyed, Bool.or_eq_true, Option.any_eq_true, decide_eq_true_eq]
  constructor
  · rintro (⟨row, committed, same⟩ | ⟨⟨tx, row⟩, pending, same⟩)
    · exact ⟨row, .inl committed, same⟩
    · exact ⟨row, .inr ⟨tx, pending⟩, same⟩
  · rintro ⟨row, committed | ⟨tx, pending⟩, same⟩
    · exact .inl ⟨row, committed, same⟩
    · exact .inr ⟨(tx, row), pending, same⟩

/-- A cell of another transaction is not free. -/
theorem free_iff {tx : Nat} {c : Cell Row} :
    c.free tx = true ↔ ∀ holder row, c.pending = some (holder, row) → holder = tx := by
  simp [free, Option.all_eq_true]

end Cell

/-- The committed rows. -/
def committed (t : Cells Row) : List Row := t.filterMap Cell.committed

/-- The rows that a statement of the transaction reads. -/
def visible (tx : Nat) (t : Cells Row) : List Row := t.filterMap (Cell.visible tx)

/-- The snapshot of an update: the keys of the rows that it selects. -/
def scan (key : Row → Key) (tx : Nat) (p : Row → Bool) (t : Cells Row) : List Key :=
  ((visible tx t).filter p).map key

/-- An update reaches one key of its snapshot. It does not go on while another transaction
holds the row. The second result is the new version, where the condition still holds. -/
def touch [DecidableEq Key] (key : Row → Key) (tx : Nat) (k : Key) (p : Row → Bool)
    (f : Row → Row) (t : Cells Row) : Option (Cells Row × Option Row) :=
  if t.all (fun c => !c.keyed key k || c.free tx) then
    some (t.map (fun c => if c.keyed key k then c.update tx p f else c),
      (t.filter (fun c => c.keyed key k)).findSome? (fun c => ((c.visible tx).filter p).map f))
  else none

def insert (tx : Nat) (row : Row) (t : Cells Row) : Cells Row := t ++ [⟨none, some (tx, row)⟩]

/-- An insert that is a transaction of its own. -/
def insertNow (row : Row) (t : Cells Row) : Cells Row := t ++ [⟨some row, none⟩]

def commit (tx : Nat) (t : Cells Row) : Cells Row := t.map (Cell.commit tx)

def rollback (tx : Nat) (t : Cells Row) : Cells Row := t.filterMap (Cell.rollback tx)

/-- No version in the table has the key. -/
def Unused (key : Row → Key) (k : Key) (t : Cells Row) : Prop :=
  ∀ c ∈ t, ∀ row, c.Version row → key row ≠ k

def unused [DecidableEq Key] (key : Row → Key) (k : Key) (t : Cells Row) : Bool :=
  t.all (fun c => !c.keyed key k)

theorem unused_iff [DecidableEq Key] {key : Row → Key} {k : Key} {t : Cells Row} :
    unused key k t = true ↔ Unused key k t := by
  simp only [unused, List.all_eq_true, Bool.not_eq_true', Unused]
  refine forall₂_congr fun c _ => ?_
  rw [← Bool.not_eq_true, Cell.keyed_iff]
  exact ⟨fun none row version same => none ⟨row, version, same⟩,
    fun all some => all some.choose some.choose_spec.1 some.choose_spec.2⟩

/-- What a unique index says to the insert of a row: another transaction holds an entry
with the key, a committed row has it, or it is free. -/
inductive IndexEntry where
  | held
  | taken
  | free
deriving DecidableEq, Repr

def indexEntry [DecidableEq Key] (key : Row → Key) (tx : Nat) (k : Key) (t : Cells Row) :
    IndexEntry :=
  if t.any (fun c => c.keyed key k && !c.free tx) then .held
  else if t.any (fun c => c.keyed key k) then .taken
  else .free

theorem indexEntry_free [DecidableEq Key] {key : Row → Key} {tx : Nat} {k : Key} {t : Cells Row} :
    indexEntry key tx k t = .free ↔ Unused key k t := by
  rw [← unused_iff, unused, indexEntry]
  constructor
  · intro free
    split_ifs at free with held taken
    rw [List.all_eq_true]
    intro c hc
    simpa using fun keyed => taken (List.any_eq_true.mpr ⟨c, hc, keyed⟩)
  · intro all
    have apart : ∀ c ∈ t, c.keyed key k = false := by simpa using all
    rw [if_neg, if_neg]
    · intro taken
      obtain ⟨c, hc, keyed⟩ := List.any_eq_true.mp taken
      rw [apart c hc] at keyed
      cases keyed
    · intro held
      obtain ⟨c, hc, keyed⟩ := List.any_eq_true.mp held
      rw [apart c hc] at keyed
      cases keyed

theorem indexEntry_held [DecidableEq Key] {key : Row → Key} {tx : Nat} {k : Key} {t : Cells Row}
    (held : indexEntry key tx k t = .held) :
    ∃ c ∈ t, ∃ holder row, c.pending = some (holder, row) ∧ holder ≠ tx := by
  rw [indexEntry] at held
  split_ifs at held with waits
  obtain ⟨c, hc, both⟩ := List.any_eq_true.mp waits
  obtain ⟨-, busy⟩ : c.keyed key k = true ∧ c.free tx = false := by simpa using both
  by_contra others
  rw [Cell.free_iff.mpr fun holder row pending => ?_] at busy
  · cases busy
  · by_contra other
    exact others ⟨c, hc, holder, row, pending, other⟩

/-- An entry that is taken is a version that no other transaction holds. -/
theorem indexEntry_taken [DecidableEq Key] {key : Row → Key} {tx : Nat} {k : Key} {t : Cells Row} :
    indexEntry key tx k t = .taken ↔
      (∀ c ∈ t, c.keyed key k = true → c.free tx = true) ∧ ∃ c ∈ t, c.keyed key k = true := by
  rw [indexEntry]
  constructor
  · intro taken
    split_ifs at taken with held some_
    refine ⟨fun c hc keyed => ?_, List.any_eq_true.mp some_⟩
    by_contra waits
    exact held (List.any_eq_true.mpr ⟨c, hc, by simp [keyed, waits]⟩)
  · rintro ⟨free, some_⟩
    rw [if_neg, if_pos (List.any_eq_true.mpr some_)]
    intro held
    obtain ⟨c, hc, both⟩ := List.any_eq_true.mp held
    obtain ⟨keyed, waits⟩ : c.keyed key k = true ∧ c.free tx = false := by simpa using both
    rw [free c hc keyed] at waits
    cases waits

theorem mem_committed {t : Cells Row} {row : Row} :
    row ∈ committed t ↔ ∃ c ∈ t, c.committed = some row := List.mem_filterMap

theorem mem_visible {tx : Nat} {t : Cells Row} {row : Row} :
    row ∈ visible tx t ↔ ∃ c ∈ t, c.visible tx = some row := List.mem_filterMap

theorem mem_scan {key : Row → Key} {tx : Nat} {p : Row → Bool} {t : Cells Row} {k : Key} :
    k ∈ scan key tx p t ↔ ∃ c ∈ t, ∃ row, c.visible tx = some row ∧ p row = true ∧ key row = k := by
  simp only [scan, List.mem_map, List.mem_filter, mem_visible]
  constructor
  · rintro ⟨row, ⟨⟨c, hc, seen⟩, selected⟩, same⟩
    exact ⟨c, hc, row, seen, selected, same⟩
  · rintro ⟨c, hc, row, seen, selected, same⟩
    exact ⟨row, ⟨⟨c, hc, seen⟩, selected⟩, same⟩

theorem mem_commit {tx : Nat} {t : Cells Row} {d : Cell Row} :
    d ∈ commit tx t ↔ ∃ c ∈ t, c.commit tx = d := List.mem_map

theorem mem_rollback {tx : Nat} {t : Cells Row} {d : Cell Row} :
    d ∈ rollback tx t ↔ ∃ c ∈ t, c.rollback tx = some d := List.mem_filterMap

theorem mem_insert {tx : Nat} {row : Row} {t : Cells Row} {d : Cell Row} :
    d ∈ insert tx row t ↔ d ∈ t ∨ d = ⟨none, some (tx, row)⟩ := by
  rw [insert, List.mem_append, List.mem_singleton]

theorem mem_insertNow {row : Row} {t : Cells Row} {d : Cell Row} :
    d ∈ insertNow row t ↔ d ∈ t ∨ d = ⟨some row, none⟩ := by
  rw [insertNow, List.mem_append, List.mem_singleton]

theorem touch_some [DecidableEq Key] {key : Row → Key} {tx : Nat} {k : Key} {p : Row → Bool}
    {f : Row → Row} {t t' : Cells Row} {result : Option Row}
    (h : touch key tx k p f t = some (t', result)) :
    (∀ c ∈ t, c.keyed key k = true → c.free tx = true) ∧
      t' = t.map (fun c => if c.keyed key k then c.update tx p f else c) ∧
      result = (t.filter (fun c => c.keyed key k)).findSome?
        (fun c => ((c.visible tx).filter p).map f) := by
  unfold touch at h
  split at h
  · rename_i free
    cases h
    refine ⟨fun c hc keyed => ?_, rfl, rfl⟩
    simpa [keyed] using List.all_eq_true.mp free c hc
  · exact nomatch h

/-- What an update that reached a key makes of one cell. -/
theorem mem_touch [DecidableEq Key] {key : Row → Key} {tx : Nat} {k : Key} {p : Row → Bool}
    {f : Row → Row} {t t' : Cells Row} {result : Option Row}
    (h : touch key tx k p f t = some (t', result)) {d : Cell Row} :
    d ∈ t' ↔ ∃ c ∈ t, d = if c.keyed key k then c.update tx p f else c := by
  rw [(touch_some h).2.1, List.mem_map]
  exact exists_congr fun c => and_congr_right fun _ => eq_comm

/-- Each cell stays, or is free and takes a new version of the row that the transaction sees. -/
theorem touch_cases [DecidableEq Key] {key : Row → Key} {tx : Nat} {k : Key} {p : Row → Bool}
    {f : Row → Row} {t t' : Cells Row} {result : Option Row}
    (h : touch key tx k p f t = some (t', result)) {d : Cell Row} (hd : d ∈ t') :
    d ∈ t ∨ ∃ c ∈ t, ∃ row, c.free tx = true ∧ c.visible tx = some row ∧ p row = true ∧
      d = { c with pending := some (tx, f row) } := by
  obtain ⟨c, hc, rfl⟩ := (mem_touch h).mp hd
  by_cases keyed : c.keyed key k = true
  · rw [if_pos keyed] at hd ⊢
    rcases c.update_cases tx p f with ⟨-, same⟩ | ⟨row, seen, passes, written⟩
    · exact .inl (same.symm ▸ hc)
    · exact .inr ⟨c, hc, row, (touch_some h).1 c hc keyed, seen, passes, written⟩
  · rw [if_neg keyed]
    exact .inl hc

/-- The version that an update returns is in its transaction. -/
theorem touch_result [DecidableEq Key] {key : Row → Key} {tx : Nat} {k : Key} {p : Row → Bool}
    {f : Row → Row} {t t' : Cells Row} {row' : Row}
    (h : touch key tx k p f t = some (t', some row')) :
    ∃ c ∈ t, ∃ row, c.visible tx = some row ∧ p row = true ∧ row' = f row ∧
      { c with pending := some (tx, f row) } ∈ t' := by
  obtain ⟨c, listed, written⟩ := List.exists_of_findSome?_eq_some (touch_some h).2.2.symm
  obtain ⟨hc, keyed⟩ := List.mem_filter.mp listed
  obtain ⟨row, selected, same⟩ := Option.map_eq_some_iff.mp written
  obtain ⟨seen, passes⟩ := Option.filter_eq_some_iff.mp selected
  refine ⟨c, hc, row, seen, passes, same.symm, (mem_touch h).mpr ⟨c, hc, ?_⟩⟩
  rw [if_pos keyed, Cell.update, selected]

/-- An update that returns nothing has written nothing. -/
theorem touch_none [DecidableEq Key] {key : Row → Key} {tx : Nat} {k : Key} {p : Row → Bool}
    {f : Row → Row} {t t' : Cells Row} (h : touch key tx k p f t = some (t', none)) : t' = t := by
  obtain ⟨-, rfl, written⟩ := touch_some h
  refine (List.map_congr_left fun c hc => ?_).trans (List.map_id t)
  split
  · rename_i keyed
    have idle := List.findSome?_eq_none_iff.mp written.symm c (List.mem_filter.mpr ⟨hc, keyed⟩)
    rw [Cell.update, Option.map_eq_none_iff.mp idle]
    rfl
  · rfl

/-- An update leaves a cell of another transaction alone. -/
theorem touch_held [DecidableEq Key] {key : Row → Key} {tx holder : Nat} {k : Key} {p : Row → Bool}
    {f : Row → Row} {t t' : Cells Row} {result : Option Row} {row : Row}
    (h : touch key tx k p f t = some (t', result)) {c : Cell Row} (hc : c ∈ t)
    (held : c.pending = some (holder, row)) (other : holder ≠ tx) : c ∈ t' := by
  refine (mem_touch h).mpr ⟨c, hc, ?_⟩
  rw [if_neg]
  intro keyed
  exact other (Cell.free_iff.mp ((touch_some h).1 c hc keyed) holder row held)

/-- Each cell is still there with what it had committed. -/
theorem touch_committed [DecidableEq Key] {key : Row → Key} {tx : Nat} {k : Key} {p : Row → Bool}
    {f : Row → Row} {t t' : Cells Row} {result : Option Row}
    (h : touch key tx k p f t = some (t', result)) {c : Cell Row} (hc : c ∈ t) :
    ∃ d ∈ t', d.committed = c.committed := by
  refine ⟨_, (mem_touch h).mpr ⟨c, hc, rfl⟩, ?_⟩
  split
  · exact c.committed_update tx p f
  · rfl

/-- An update does not change what is committed. -/
theorem committed_touch [DecidableEq Key] {key : Row → Key} {tx : Nat} {k : Key} {p : Row → Bool}
    {f : Row → Row} {t t' : Cells Row} {result : Option Row}
    (h : touch key tx k p f t = some (t', result)) : committed t' = committed t := by
  rw [(touch_some h).2.1, committed, List.filterMap_map]
  refine List.filterMap_congr fun c _ => ?_
  rw [Function.comp_apply]
  split
  · exact c.committed_update tx p f
  · rfl

theorem committed_insert (tx : Nat) (row : Row) (t : Cells Row) :
    committed (insert tx row t) = committed t := by
  simp [committed, insert]

theorem committed_insertNow (row : Row) (t : Cells Row) :
    committed (insertNow row t) = committed t ++ [row] := by
  simp [committed, insertNow]

/-- What is committed after a commit was committed before, or is the transaction's. -/
theorem committed_commit {tx : Nat} {t : Cells Row} {row : Row} (h : row ∈ committed (commit tx t)) :
    (∃ c ∈ t, c.committed = some row ∧ ∀ own, c.pending ≠ some (tx, own)) ∨
      ∃ c ∈ t, c.pending = some (tx, row) := by
  obtain ⟨d, hd, stored⟩ := mem_committed.mp h
  obtain ⟨c, hc, rfl⟩ := mem_commit.mp hd
  rcases c.held_or_free tx with ⟨own, held⟩ | free
  · rw [Cell.commit_own held] at stored
    exact .inr ⟨c, hc, held.trans (by rw [Option.some.inj stored])⟩
  · rw [Cell.commit_other free] at stored
    exact .inl ⟨c, hc, stored, free⟩

theorem commit_idle {tx : Nat} {t : Cells Row} (idle : ∀ c ∈ t, ∀ row, c.pending ≠ some (tx, row)) :
    commit tx t = t :=
  (List.map_congr_left fun c hc => Cell.commit_other (idle c hc)).trans (List.map_id t)

/-- A rollback does not change what is committed. -/
theorem committed_rollback (tx : Nat) (t : Cells Row) : committed (rollback tx t) = committed t := by
  rw [committed, rollback, List.filterMap_filterMap]
  refine List.filterMap_congr fun c _ => ?_
  rcases c.held_or_free tx with ⟨own, held⟩ | free
  · rw [Cell.rollback_own held]
    cases c.committed with
    | none => rfl
    | some row => rfl
  · rw [Cell.rollback_other free]
    rfl

/-- A commit ends the transaction in every cell. -/
theorem commit_ends {tx : Nat} {t : Cells Row} {d : Cell Row} (h : d ∈ commit tx t) :
    (d ∈ t ∧ ∀ row, d.pending ≠ some (tx, row)) ∨
      d.pending = none ∧ ∀ row, d.committed = some row → ∃ c ∈ t, c.Version row := by
  obtain ⟨c, hc, rfl⟩ := mem_commit.mp h
  rcases c.held_or_free tx with ⟨own, held⟩ | free
  · rw [Cell.commit_own held]
    refine .inr ⟨rfl, fun row stored => ⟨c, hc, .inr ⟨tx, ?_⟩⟩⟩
    rw [held, Option.some.inj stored]
  · rw [Cell.commit_other free]
    exact .inl ⟨hc, free⟩

/-- So does a rollback. -/
theorem rollback_ends {tx : Nat} {t : Cells Row} {d : Cell Row} (h : d ∈ rollback tx t) :
    (d ∈ t ∧ ∀ row, d.pending ≠ some (tx, row)) ∨
      d.pending = none ∧ ∀ row, d.committed = some row → ∃ c ∈ t, c.Version row := by
  obtain ⟨c, hc, kept⟩ := mem_rollback.mp h
  rcases c.held_or_free tx with ⟨own, held⟩ | free
  · rw [Cell.rollback_own held] at kept
    obtain ⟨old, stored, rfl⟩ := Option.map_eq_some_iff.mp kept
    refine .inr ⟨rfl, fun row same => ⟨c, hc, .inl ?_⟩⟩
    rw [stored, ← same]
  · rw [Cell.rollback_other free] at kept
    obtain rfl := Option.some.inj kept
    exact .inl ⟨hc, free⟩

/-- One cell holds the versions of one key, and no key is in two cells. -/
structure Keyed (key : Row → Key) (t : Cells Row) : Prop where
  same : ∀ c ∈ t, ∀ row row', c.Version row → c.Version row' → key row = key row'
  apart : ∀ c ∈ t, ∀ d ∈ t, ∀ row row', c.Version row → d.Version row' → key row = key row' → c = d

namespace Keyed
variable {key : Row → Key} {t t' : Cells Row}

theorem empty : Keyed key ([] : Cells Row) := ⟨nofun, nofun⟩

/-- The committed rows have different keys. -/
theorem unique (keyed : Keyed key t) {row row' : Row} (h : row ∈ committed t)
    (h' : row' ∈ committed t) (same : key row = key row') : row = row' := by
  obtain ⟨c, hc, stored⟩ := mem_committed.mp h
  obtain ⟨d, hd, stored'⟩ := mem_committed.mp h'
  obtain rfl := keyed.apart c hc d hd row row' (.inl stored) (.inl stored') same
  exact Option.some.inj (stored.symm.trans stored')

/-- Cells that come from cells by `g`, and whose versions keep their keys, stay keyed. -/
theorem of (keyed : Keyed key t) (g : Cell Row → Cell Row)
    (source : ∀ d ∈ t', ∃ c ∈ t, d = g c ∧
      ∀ row, d.Version row → ∃ old, c.Version old ∧ key old = key row) : Keyed key t' := by
  constructor
  · intro d hd row row' version version'
    obtain ⟨c, hc, -, olds⟩ := source d hd
    obtain ⟨old, was, same⟩ := olds row version
    obtain ⟨old', was', same'⟩ := olds row' version'
    rw [← same, ← same']
    exact keyed.same c hc old old' was was'
  · intro d hd d' hd' row row' version version' equal
    obtain ⟨c, hc, rfl, olds⟩ := source d hd
    obtain ⟨c', hc', rfl, olds'⟩ := source d' hd'
    obtain ⟨old, was, same⟩ := olds row version
    obtain ⟨old', was', same'⟩ := olds' row' version'
    rw [keyed.apart c hc c' hc' old old' was was' (by rw [same, same', equal])]

theorem commit (keyed : Keyed key t) (tx : Nat) : Keyed key (commit tx t) := by
  apply keyed.of (Cell.commit tx)
  intro d hd
  obtain ⟨c, hc, rfl⟩ := mem_commit.mp hd
  refine ⟨c, hc, rfl, fun row version => ⟨row, ?_, rfl⟩⟩
  rcases c.held_or_free tx with ⟨held, pending⟩ | other
  · rw [Cell.commit_own pending] at version
    rcases version with committed | ⟨holder, impossible⟩
    · cases committed
      exact .inr ⟨tx, pending⟩
    · exact nomatch impossible
  · rwa [Cell.commit_other other] at version

theorem rollback (keyed : Keyed key t) (tx : Nat) : Keyed key (rollback tx t) := by
  apply keyed.of (fun c => (c.rollback tx).getD c)
  intro d hd
  obtain ⟨c, hc, kept⟩ := mem_rollback.mp hd
  refine ⟨c, hc, by rw [kept, Option.getD_some], fun row version => ⟨row, ?_, rfl⟩⟩
  rcases c.held_or_free tx with ⟨held, pending⟩ | other
  · rw [Cell.rollback_own pending] at kept
    obtain ⟨old, before, rfl⟩ := Option.map_eq_some_iff.mp kept
    rcases version with committed | ⟨holder, impossible⟩
    · cases committed
      exact .inl before
    · exact nomatch impossible
  · rw [Cell.rollback_other other] at kept
    cases kept
    exact version

theorem touch {Key' : Type v} [DecidableEq Key'] {key' : Row → Key'} {tx : Nat} {k : Key'}
    {p : Row → Bool} {f : Row → Row} {result : Option Row} (keyed : Keyed key t)
    (keeps : ∀ row, key (f row) = key row)
    (h : ReadCommitted.touch key' tx k p f t = some (t', result)) : Keyed key t' := by
  apply keyed.of (fun c => if c.keyed key' k then c.update tx p f else c)
  intro d hd
  obtain ⟨c, hc, rfl⟩ := (mem_touch h).mp hd
  refine ⟨c, hc, rfl, fun row version => ?_⟩
  split at version
  · rcases c.update_cases tx p f with ⟨-, same⟩ | ⟨old, seen, -, written⟩
    · exact ⟨row, same ▸ version, rfl⟩
    · rw [written] at version
      rcases version with committed | ⟨holder, pending⟩
      · exact ⟨row, .inl committed, rfl⟩
      · cases pending
        exact ⟨old, Cell.visible_version seen, (keeps old).symm⟩
  · exact ⟨row, version, rfl⟩

/-- A new cell of one version, with an unused key. -/
theorem append (keyed : Keyed key t) {d : Cell Row} {row : Row}
    (only : ∀ row', d.Version row' ↔ row' = row) (unused : Unused key (key row) t) :
    Keyed key (t ++ [d]) := by
  have member : ∀ c ∈ t ++ [d], c ∈ t ∨ c = d := by simp
  constructor
  · intro c hc r r' version version'
    rcases member c hc with old | rfl
    · exact keyed.same c old r r' version version'
    · rw [(only r).mp version, (only r').mp version']
  · intro c hc c' hc' r r' version version' equal
    rcases member c hc with old | rfl <;> rcases member c' hc' with old' | rfl
    · exact keyed.apart c old c' old' r r' version version' equal
    · exact absurd (equal.trans (congrArg key ((only r').mp version'))) (unused c old r version)
    · exact absurd (equal.symm.trans (congrArg key ((only r).mp version)))
        (unused c' old' r' version')
    · rfl

theorem insert (keyed : Keyed key t) (tx : Nat) {row : Row} (unused : Unused key (key row) t) :
    Keyed key (insert tx row t) := by
  refine keyed.append (fun row' => ⟨?_, ?_⟩) unused
  · rintro (impossible | ⟨holder, pending⟩)
    · exact nomatch impossible
    · cases pending
      rfl
  · rintro rfl
    exact .inr ⟨tx, rfl⟩

theorem insertNow (keyed : Keyed key t) {row : Row} (unused : Unused key (key row) t) :
    Keyed key (insertNow row t) := by
  refine keyed.append (fun row' => ⟨?_, ?_⟩) unused
  · rintro (committed | ⟨holder, impossible⟩)
    · cases committed
      rfl
    · exact nomatch impossible
  · rintro rfl
    exact .inl rfl

/-- A key of the committed rows is in one cell only. -/
theorem nodup_committed (keyed : Keyed key t) (nodup : t.Nodup) :
    ((committed t).map key).Nodup := by
  rw [committed, List.map_filterMap, List.Nodup, List.pairwise_filterMap]
  refine nodup.imp_of_mem fun {c d} hc hd other k hk k' hk' same => other ?_
  obtain ⟨row, stored, rfl⟩ := Option.map_eq_some_iff.mp hk
  obtain ⟨row', stored', rfl⟩ := Option.map_eq_some_iff.mp hk'
  exact keyed.apart c hc d hd row row' (.inl stored) (.inl stored') same

theorem nodup_insert (nodup : t.Nodup) {tx : Nat} {row : Row} (unused : Unused key (key row) t) :
    (ReadCommitted.insert tx row t).Nodup := by
  rw [ReadCommitted.insert, List.nodup_append]
  refine ⟨nodup, List.nodup_singleton _, fun c hc d new same => ?_⟩
  obtain rfl := List.mem_singleton.mp new
  exact unused c hc row (.inr ⟨tx, same ▸ rfl⟩) rfl

theorem nodup_insertNow (nodup : t.Nodup) {row : Row} (unused : Unused key (key row) t) :
    (ReadCommitted.insertNow row t).Nodup := by
  rw [ReadCommitted.insertNow, List.nodup_append]
  refine ⟨nodup, List.nodup_singleton _, fun c hc d new same => ?_⟩
  obtain rfl := List.mem_singleton.mp new
  exact unused c hc row (.inl (same ▸ rfl)) rfl

/-- A table of committed rows with different keys. -/
theorem stored {rows : List Row} (unique : (rows.map key).Nodup) :
    Keyed key (rows.map fun row => ⟨some row, none⟩) ∧
      (rows.map fun row => (⟨some row, none⟩ : Cell Row)).Nodup := by
  have version : ∀ c ∈ rows.map fun row => (⟨some row, none⟩ : Cell Row), ∀ row, c.Version row →
      row ∈ rows ∧ c = ⟨some row, none⟩ := by
    intro c hc row here
    obtain ⟨row', listed, rfl⟩ := List.mem_map.mp hc
    rcases here with committed | ⟨tx, pending⟩
    · cases committed
      exact ⟨listed, rfl⟩
    · cases pending
  refine ⟨⟨fun c hc row row' here here' => ?_, fun c hc d hd row row' here here' same => ?_⟩, ?_⟩
  · obtain ⟨-, rfl⟩ := version c hc row here
    obtain ⟨-, equal⟩ := version _ hc row' here'
    cases equal
    rfl
  · obtain ⟨listed, rfl⟩ := version c hc row here
    obtain ⟨listed', rfl⟩ := version d hd row' here'
    rw [List.inj_on_of_nodup_map unique listed listed' same]
  · refine (unique.of_map key).map fun row row' same => ?_
    cases same
    rfl

theorem nodup_commit (keyed : Keyed key t) (nodup : t.Nodup) (tx : Nat) :
    (ReadCommitted.commit tx t).Nodup := by
  refine List.Nodup.map_on (fun c hc d hd same => ?_) nodup
  rcases c.held_or_free tx with ⟨row, held⟩ | idle <;>
    rcases d.held_or_free tx with ⟨row', held'⟩ | idle'
  · rw [Cell.commit_own held, Cell.commit_own held'] at same
    cases same
    exact keyed.apart c hc d hd row row (.inr ⟨tx, held⟩) (.inr ⟨tx, held'⟩) rfl
  · rw [Cell.commit_own held, Cell.commit_other idle'] at same
    exact keyed.apart c hc d hd row row (.inr ⟨tx, held⟩) (.inl (same ▸ rfl)) rfl
  · rw [Cell.commit_other idle, Cell.commit_own held'] at same
    exact keyed.apart c hc d hd row' row' (.inl (same ▸ rfl)) (.inr ⟨tx, held'⟩) rfl
  · rwa [Cell.commit_other idle, Cell.commit_other idle'] at same

theorem nodup_rollback (keyed : Keyed key t) (nodup : t.Nodup) (tx : Nat) :
    (ReadCommitted.rollback tx t).Nodup := by
  rw [ReadCommitted.rollback, List.Nodup, List.pairwise_filterMap]
  refine nodup.imp_of_mem fun {c d} hc hd other e he e' he' same => other ?_
  subst same
  -- what is left of both cells is one cell, so they have a committed row in common
  rcases c.held_or_free tx with ⟨row, held⟩ | idle <;>
    rcases d.held_or_free tx with ⟨row', held'⟩ | idle'
  · rw [Cell.rollback_own held] at he
    rw [Cell.rollback_own held'] at he'
    obtain ⟨old, before, rfl⟩ := Option.map_eq_some_iff.mp he
    obtain ⟨old', before', equal⟩ := Option.map_eq_some_iff.mp he'
    cases equal
    exact keyed.apart c hc d hd old old (.inl before) (.inl before') rfl
  · rw [Cell.rollback_own held] at he
    rw [Cell.rollback_other idle'] at he'
    obtain ⟨old, before, rfl⟩ := Option.map_eq_some_iff.mp he
    cases he'
    exact keyed.apart c hc _ hd old old (.inl before) (.inl rfl) rfl
  · rw [Cell.rollback_other idle] at he
    rw [Cell.rollback_own held'] at he'
    obtain ⟨old, before, rfl⟩ := Option.map_eq_some_iff.mp he'
    cases he
    exact keyed.apart _ hc d hd old old (.inl rfl) (.inl before) rfl
  · rw [Cell.rollback_other idle] at he
    rw [Cell.rollback_other idle'] at he'
    exact Option.some.inj (he.trans he'.symm)

end Keyed

/-- What other transactions do to a table, as `tx` sees it: committed rows stay up to `step`,
its own versions stay, and it reads nothing new but rows with keys that were not committed. -/
structure Frame (key : Row → Key) (step : Row → Row → Prop) (tx : Nat) (t t' : Cells Row) :
    Prop where
  rows : ∀ c ∈ t, ∀ row, c.committed = some row →
    ∃ d ∈ t', ∃ row', d.committed = some row' ∧ step row row'
  own : ∀ c ∈ t, ∀ row, c.pending = some (tx, row) → c ∈ t'
  seen : ∀ d ∈ t', ∀ row', d.visible tx = some row' →
    (∃ c ∈ t, ∃ row, c.visible tx = some row ∧ step row row') ∨
      ∀ c ∈ t, ∀ row, c.committed = some row → key row ≠ key row'

namespace Frame
variable {key : Row → Key} {step : Row → Row → Prop} {tx other : Nat} {t t' : Cells Row}

theorem touch {Key' : Type v} [DecidableEq Key'] {key' : Row → Key'} {k : Key'} {p : Row → Bool}
    {f : Row → Row} {result : Option Row} (refl : ∀ row, step row row) (apart : other ≠ tx)
    (h : ReadCommitted.touch key' other k p f t = some (t', result)) : Frame key step tx t t' := by
  refine ⟨fun c hc row before => ?_, fun c hc row held => touch_held h hc held apart.symm,
    fun d hd row' seen => .inl ?_⟩
  · obtain ⟨d, hd, same⟩ := touch_committed h hc
    exact ⟨d, hd, row, same.trans before, refl row⟩
  · rcases touch_cases h hd with kept | ⟨c, hc, row, free, -, -, rfl⟩
    · exact ⟨d, kept, row', seen, refl row'⟩
    · have idle : c.visible tx = c.committed := Cell.visible_other fun row held =>
        apart (Cell.free_iff.mp free tx row held).symm
      refine ⟨c, hc, row', ?_, refl row'⟩
      rw [Cell.visible_other fun row held => apart (Prod.mk.inj (Option.some.inj held)).1] at seen
      rw [idle, ← seen]

theorem insert {row : Row} (refl : ∀ row, step row row) (apart : other ≠ tx) :
    Frame key step tx t (insert other row t) := by
  refine ⟨fun c hc row before => ⟨c, mem_insert.mpr (.inl hc), row, before, refl row⟩,
    fun c hc row held => mem_insert.mpr (.inl hc), fun d hd row' seen => .inl ?_⟩
  rcases mem_insert.mp hd with kept | rfl
  · exact ⟨d, kept, row', seen, refl row'⟩
  · simp [Cell.visible, apart] at seen

theorem insertNow {row : Row} (refl : ∀ row, step row row) (unused : Unused key (key row) t) :
    Frame key step tx t (insertNow row t) := by
  refine ⟨fun c hc row before => ⟨c, mem_insertNow.mpr (.inl hc), row, before, refl row⟩,
    fun c hc row held => mem_insertNow.mpr (.inl hc), fun d hd row' seen => ?_⟩
  rcases mem_insertNow.mp hd with kept | rfl
  · exact .inl ⟨d, kept, row', seen, refl row'⟩
  · cases seen
    exact .inr fun c hc old before => unused c hc old (.inl before)

theorem commit (refl : ∀ row, step row row) (apart : other ≠ tx) (keyed : Keyed key t)
    (steps : ∀ c ∈ t, ∀ old row, c.committed = some old → c.pending = some (other, row) →
      step old row) : Frame key step tx t (commit other t) := by
  constructor
  · intro c hc old before
    rcases c.held_or_free other with ⟨row, held⟩ | idle
    · exact ⟨⟨some row, none⟩, mem_commit.mpr ⟨c, hc, Cell.commit_own held⟩, row, rfl,
        steps c hc old row before held⟩
    · exact ⟨c, mem_commit.mpr ⟨c, hc, Cell.commit_other idle⟩, old, before, refl old⟩
  · intro c hc row held
    refine mem_commit.mpr ⟨c, hc, Cell.commit_other fun row' held' => apart ?_⟩
    exact (Prod.mk.inj (Option.some.inj (held'.symm.trans held))).1
  · intro d hd row' seen
    obtain ⟨c, hc, rfl⟩ := mem_commit.mp hd
    rcases c.held_or_free other with ⟨row, held⟩ | idle
    · rw [Cell.commit_own held] at seen
      obtain rfl : row' = row := (Option.some.inj seen).symm
      have reads : c.visible tx = c.committed := Cell.visible_other fun r held' =>
        apart (Prod.mk.inj (Option.some.inj (held.symm.trans held'))).1
      cases before : c.committed with
      | some old => exact .inl ⟨c, hc, old, reads.trans before, steps c hc old row' before held⟩
      | none =>
        refine .inr fun e he r committed same => ?_
        have here := keyed.apart e he c hc r row' (.inl committed) (.inr ⟨other, held⟩) same
        rw [here, before] at committed
        exact nomatch committed
    · rw [Cell.commit_other idle] at seen
      exact .inl ⟨c, hc, row', seen, refl row'⟩

theorem rollback (refl : ∀ row, step row row) (apart : other ≠ tx) :
    Frame key step tx t (rollback other t) := by
  constructor
  · intro c hc old before
    rcases c.held_or_free other with ⟨row, held⟩ | idle
    · refine ⟨⟨some old, none⟩, mem_rollback.mpr ⟨c, hc, ?_⟩, old, rfl, refl old⟩
      rw [Cell.rollback_own held, before, Option.map_some]
    · exact ⟨c, mem_rollback.mpr ⟨c, hc, Cell.rollback_other idle⟩, old, before, refl old⟩
  · intro c hc row held
    refine mem_rollback.mpr ⟨c, hc, Cell.rollback_other fun row' held' => apart ?_⟩
    exact (Prod.mk.inj (Option.some.inj (held'.symm.trans held))).1
  · intro d hd row' seen
    obtain ⟨c, hc, kept⟩ := mem_rollback.mp hd
    rcases c.held_or_free other with ⟨row, held⟩ | idle
    · rw [Cell.rollback_own held] at kept
      obtain ⟨old, before, rfl⟩ := Option.map_eq_some_iff.mp kept
      obtain rfl : row' = old := (Option.some.inj seen).symm
      refine .inl ⟨c, hc, row', ?_, refl row'⟩
      rw [Cell.visible_other fun r held' =>
        apart (Prod.mk.inj (Option.some.inj (held.symm.trans held'))).1, before]
    · rw [Cell.rollback_other idle] at kept
      obtain rfl := Option.some.inj kept
      exact .inl ⟨c, hc, row', seen, refl row'⟩

end Frame

end ReadCommitted
