import RailsCore.ReadCommitted

/-!
# Who has written a row

Rows that carry the transaction that inserted them, in a table whose rows are
inserted and not updated. Each pending row is one that its holder inserted, so
that a commit adds the rows of one transaction and a rollback takes them away.
What a transaction does leaves the committed rows and the pending rows of the
others in place.
-/

namespace ReadCommitted

universe u
variable {Row : Type u} {writer : Row → Option Nat} {tx : Nat} {t : Cells Row}

/-- A pending row is new, and a transaction that is `writing` has inserted it. -/
def Inserts (writer : Row → Option Nat) (writing : Nat → Prop) (t : Cells Row) : Prop :=
  ∀ c ∈ t, ∀ i row, c.pending = some (i, row) →
    c.committed = none ∧ writer row = some i ∧ writing i

/-- The committed rows of a transaction are there only when it `wrote` them. -/
def Written (writer : Row → Option Nat) (wrote : Nat → Prop) (t : Cells Row) : Prop :=
  ∀ row ∈ committed t, ∀ i, writer row = some i → wrote i

/-- What a transaction leaves to the others. -/
structure Spares (tx : Nat) (t t' : Cells Row) : Prop where
  stored : ∀ row ∈ committed t, row ∈ committed t'
  held : ∀ c ∈ t, ∀ i row, c.pending = some (i, row) → i ≠ tx → c ∈ t'

namespace Inserts
variable {writing writing' : Nat → Prop}

theorem mono (inserts : Inserts writer writing t) (more : ∀ i, writing i → writing' i) :
    Inserts writer writing' t := by
  intro c hc i row held
  obtain ⟨new, own, open_⟩ := inserts c hc i row held
  exact ⟨new, own, more i open_⟩

theorem insert (inserts : Inserts writer writing t) {row : Row} (own : writer row = some tx)
    (open_ : writing tx) : Inserts writer writing (ReadCommitted.insert tx row t) := by
  intro c hc i held pending
  rcases mem_insert.mp hc with old | rfl
  · exact inserts c old i held pending
  · cases pending
    exact ⟨rfl, own, open_⟩

theorem insertNow (inserts : Inserts writer writing t) (row : Row) :
    Inserts writer writing (ReadCommitted.insertNow row t) := by
  intro c hc i held pending
  rcases mem_insertNow.mp hc with old | rfl
  · exact inserts c old i held pending
  · cases pending

/-- Neither end of a transaction leaves a row of it pending. -/
theorem commit (inserts : Inserts writer writing t) (rest : ∀ i, i ≠ tx → writing i → writing' i) :
    Inserts writer writing' (ReadCommitted.commit tx t) := by
  intro c hc i row held
  rcases commit_ends hc with ⟨old, free⟩ | ⟨none_, -⟩
  · obtain ⟨new, own, open_⟩ := inserts c old i row held
    refine ⟨new, own, rest i ?_ open_⟩
    rintro rfl
    exact free row held
  · rw [none_] at held
    exact nomatch held

theorem rollback (inserts : Inserts writer writing t)
    (rest : ∀ i, i ≠ tx → writing i → writing' i) :
    Inserts writer writing' (ReadCommitted.rollback tx t) := by
  intro c hc i row held
  rcases rollback_ends hc with ⟨old, free⟩ | ⟨none_, -⟩
  · obtain ⟨new, own, open_⟩ := inserts c old i row held
    refine ⟨new, own, rest i ?_ open_⟩
    rintro rfl
    exact free row held
  · rw [none_] at held
    exact nomatch held

/-- Of a transaction that is not writing nothing is pending. -/
theorem idle (inserts : Inserts writer writing t) (closed : ¬ writing tx) :
    ∀ c ∈ t, ∀ row, c.pending ≠ some (tx, row) :=
  fun c hc row held => closed (inserts c hc tx row held).2.2

theorem commit_spares (inserts : Inserts writer writing t) (tx : Nat) :
    Spares tx t (ReadCommitted.commit tx t) := by
  constructor
  · intro row listed
    obtain ⟨c, hc, stored⟩ := mem_committed.mp listed
    have free : ∀ own, c.pending ≠ some (tx, own) := by
      intro own held
      rw [(inserts c hc tx own held).1] at stored
      exact nomatch stored
    exact mem_committed.mpr ⟨c, mem_commit.mpr ⟨c, hc, Cell.commit_other free⟩, stored⟩
  · intro c hc i row held other
    refine mem_commit.mpr ⟨c, hc, Cell.commit_other fun own held' => other ?_⟩
    exact (Prod.mk.inj (Option.some.inj (held.symm.trans held'))).1

end Inserts

namespace Written
variable {wrote wrote' : Nat → Prop}

theorem mono (written : Written writer wrote t) (more : ∀ i, wrote i → wrote' i) :
    Written writer wrote' t :=
  fun row listed i own => more i (written row listed i own)

theorem insert (written : Written writer wrote t) (tx : Nat) (row : Row) :
    Written writer wrote (ReadCommitted.insert tx row t) := by
  intro row' listed
  rw [committed_insert] at listed
  exact written row' listed

theorem insertNow (written : Written writer wrote t) {row : Row}
    (ends : ∀ i, writer row = some i → wrote i) :
    Written writer wrote (ReadCommitted.insertNow row t) := by
  intro row' listed i own
  rw [committed_insertNow] at listed
  rcases List.mem_append.mp listed with old | new
  · exact written row' old i own
  · cases List.mem_singleton.mp new
    exact ends i own

theorem commit {writing : Nat → Prop} (written : Written writer wrote t)
    (inserts : Inserts writer writing t) (ends : wrote tx) :
    Written writer wrote (ReadCommitted.commit tx t) := by
  intro row listed i own
  obtain ⟨d, hd, stored⟩ := mem_committed.mp listed
  obtain ⟨c, hc, rfl⟩ := mem_commit.mp hd
  rcases c.held_or_free tx with ⟨new, held⟩ | free
  · rw [Cell.commit_own held] at stored
    cases stored
    have mine := (inserts c hc tx row held).2.1
    cases Option.some.inj (mine.symm.trans own)
    exact ends
  · rw [Cell.commit_other free] at stored
    exact written row (mem_committed.mpr ⟨c, hc, stored⟩) i own

theorem rollback (written : Written writer wrote t) (tx : Nat) :
    Written writer wrote (ReadCommitted.rollback tx t) := by
  intro row listed
  rw [committed_rollback] at listed
  exact written row listed

end Written

namespace Spares

theorem refl (tx : Nat) (t : Cells Row) : Spares tx t t :=
  ⟨fun _ listed => listed, fun _ hc _ _ _ _ => hc⟩

theorem insert (tx : Nat) (row : Row) (t : Cells Row) :
    Spares tx t (ReadCommitted.insert tx row t) := by
  constructor
  · intro row' listed
    rwa [committed_insert]
  · intro c hc i held pending other
    exact mem_insert.mpr (.inl hc)

theorem insertNow (tx : Nat) (row : Row) (t : Cells Row) :
    Spares tx t (ReadCommitted.insertNow row t) := by
  constructor
  · intro row' listed
    rw [committed_insertNow]
    exact List.mem_append_left _ listed
  · intro c hc i held pending other
    exact mem_insertNow.mpr (.inl hc)

theorem rollback (tx : Nat) (t : Cells Row) : Spares tx t (ReadCommitted.rollback tx t) := by
  constructor
  · intro row listed
    rwa [committed_rollback]
  · intro c hc i row held other
    refine mem_rollback.mpr ⟨c, hc, Cell.rollback_other fun own held' => other ?_⟩
    exact (Prod.mk.inj (Option.some.inj (held.symm.trans held'))).1

end Spares

/-- A pending row is committed with its transaction. -/
theorem commit_own {c : Cell Row} {row : Row} (hc : c ∈ t) (held : c.pending = some (tx, row)) :
    row ∈ committed (commit tx t) :=
  mem_committed.mpr ⟨_, mem_commit.mpr ⟨c, hc, Cell.commit_own held⟩, rfl⟩

end ReadCommitted
