import RailsCore.SessionsMoves

/-!
# What holds of sessions in every state

Whoever interleaves with whom, a session row only ever turns from active to
revoked, an open transaction holds revoked copies of committed rows and the
one successor that its refresh has inserted, and a request still finds what
its stage remembers.
-/

namespace RailsCore.UsersService

open ReadCommitted (Cell Cells Keyed Frame committed scan touch Unused mem_committed)

/-- A version of a session, and what it may have become. -/
def SessionRow.Later (r r' : SessionRow) : Prop := r' = r ∨ r' = r.revoked

theorem SessionRow.later_refl (r : SessionRow) : r.Later r := .inl rfl

theorem SessionRow.Later.revoked {r r' : SessionRow} (later : r.Later r') :
    r'.revoked = r.revoked := by
  rcases later with rfl | rfl
  · rfl
  · rfl

theorem SessionRow.Later.id {r r' : SessionRow} (later : r.Later r') : r'.id = r.id := by
  rcases later with rfl | rfl
  · rfl
  · rfl

theorem SessionRow.Later.refreshToken {r r' : SessionRow} (later : r.Later r') : r'.refreshToken = r.refreshToken := by
  rcases later with rfl | rfl
  · rfl
  · rfl

theorem SessionRow.Later.parent {r r' : SessionRow} (later : r.Later r') : r'.parent = r.parent := by
  rcases later with rfl | rfl
  · rfl
  · rfl

theorem SessionRow.Later.root {r r' : SessionRow} (later : r.Later r') : r'.root = r.root := by
  rcases later with rfl | rfl
  · rfl
  · rfl

/-- A row that a refresh of the session inserts. -/
def SessionRow.Succeeds (r session : SessionRow) : Prop :=
  ∃ expiresAt id refreshToken, r = refreshedSession session expiresAt id refreshToken

/-- What a request at this stage still finds in the table. -/
def StageSound (sessions : Cells SessionRow) (tx : Nat) : Stage → Prop
  | .reading session => ∃ c ∈ sessions, ∃ r, c.committed = some r ∧ r.revoked = session.revoked
  | .rotating session | .rotated session _ =>
    ∃ c ∈ sessions, ∃ r v, c.committed = some r ∧ r.revoked = session.revoked ∧
      c.pending = some (tx, v)
  | .revoking token true =>
    ∃ c ∈ sessions, ∃ r v, c.committed = some r ∧ revokes token r = true ∧
      c.pending = some (tx, v)
  | .evicting userId scanned remaining =>
    (∀ c ∈ sessions, ∀ v, c.visible tx = some v → v.userId = userId → v.id ∈ scanned →
      v.id ∉ remaining → v.status = .revoked) ∧
    ∀ id ∈ scanned, ∃ c ∈ sessions, ∃ r, c.committed = some r ∧ r.id = id
  | _ => True

theorem StageSound.frame {sessions sessions' : Cells SessionRow} {tx : Nat} {stage : Stage}
    (sound : StageSound sessions tx stage)
    (frame : Frame SessionRow.id SessionRow.Later tx sessions sessions') :
    StageSound sessions' tx stage := by
  cases stage with
  | nothing | entering userId generation | revoked token | changed userId => trivial
  | reading session =>
    obtain ⟨c, hc, r, stored, same⟩ := sound
    obtain ⟨d, hd, r', stored', later⟩ := frame.rows c hc r stored
    exact ⟨d, hd, r', stored', later.revoked.trans same⟩
  | rotating session | rotated session child =>
    obtain ⟨c, hc, r, v, stored, same, held⟩ := sound
    exact ⟨c, frame.own c hc v held, r, v, stored, same, held⟩
  | revoking token hit =>
    cases hit with
    | false => trivial
    | true =>
      obtain ⟨c, hc, r, v, stored, live, held⟩ := sound
      exact ⟨c, frame.own c hc v held, r, v, stored, live, held⟩
  | evicting userId scanned remaining =>
    obtain ⟨reached, known⟩ := sound
    constructor
    · intro d hd v' seen' owner listed done
      rcases frame.seen d hd v' seen' with ⟨c, hc, v, seen, rfl | rfl⟩ | new
      · exact reached c hc _ seen owner listed done
      · rfl
      · obtain ⟨c, hc, r, stored, same⟩ := known _ listed
        exact absurd same (new c hc r stored)
    · intro id listed
      obtain ⟨c, hc, r, stored, same⟩ := known id listed
      obtain ⟨d, hd, r', stored', later⟩ := frame.rows c hc r stored
      exact ⟨d, hd, r', stored', later.id.trans same⟩

structure CellsSound (sessions : Cells SessionRow) (stage : Nat → Stage) : Prop where
  ids : Keyed SessionRow.id sessions
  tokens : Keyed SessionRow.refreshToken sessions
  busy : ∀ c ∈ sessions, ∀ tx v, c.pending = some (tx, v) → ¬ (stage tx).Idle
  revision : ∀ c ∈ sessions, ∀ tx v r, c.pending = some (tx, v) → c.committed = some r →
    v = r.revoked
  child : ∀ c ∈ sessions, ∀ tx v, c.pending = some (tx, v) → c.committed = none →
    ∃ session, stage tx = .rotated session v ∧ v.Succeeds session
  roots : ∀ c ∈ sessions, ∀ v, c.Version v → ∃ d ∈ sessions, ∃ r, d.committed = some r ∧ r.id = v.root

namespace CellsSound
variable {sessions sessions' : Cells SessionRow} {stage stage' : Nat → Stage} {tx : Nat}

/-- A pending row is seen by its own transaction only, and every other one still sees a later
version of what it saw. -/
theorem steps (sound : CellsSound sessions stage) : ∀ c ∈ sessions, ∀ old row,
    c.committed = some old → c.pending = some (tx, row) → old.Later row :=
  fun c hc old row stored held => .inr (sound.revision c hc tx row old held stored)

/-- A row that a transaction without a successor sees was committed. -/
theorem seen_committed (sound : CellsSound sessions stage)
    (apart : ∀ session child, stage tx ≠ .rotated session child) {c : Cell SessionRow}
    (hc : c ∈ sessions) {row : SessionRow} (seen : c.visible tx = some row) :
    ∃ r, c.committed = some r ∧ r.Later row := by
  rcases c.held_or_free tx with ⟨own, held⟩ | free
  · obtain rfl : own = row := Option.some.inj ((Cell.visible_own held).symm.trans seen)
    cases stored : c.committed with
    | some r => exact ⟨r, rfl, .inr (sound.revision c hc tx own r held stored)⟩
    | none =>
      obtain ⟨session, at_, -⟩ := sound.child c hc tx own held stored
      exact absurd at_ (apart session own)
  · exact ⟨row, (Cell.visible_other free).symm.trans seen, row.later_refl⟩

/-- Only the stage of `tx` changes. -/
theorem restage (sound : CellsSound sessions stage) (others : ∀ j, j ≠ tx → stage' j = stage j)
    (own : (stage tx).Idle ∨ ¬ (stage' tx).Idle ∧ ∀ session child, stage tx ≠ .rotated session child) :
    CellsSound sessions stage' := by
  refine ⟨sound.ids, sound.tokens, ?_, sound.revision, ?_, sound.roots⟩
  · intro c hc holder v held
    by_cases mine : holder = tx
    · subst mine
      rcases own with idle | ⟨busy, -⟩
      · exact absurd idle (sound.busy c hc holder v held)
      · exact busy
    · rw [others holder mine]
      exact sound.busy c hc holder v held
  · intro c hc holder v held new
    obtain ⟨session, at_, succeeds⟩ := sound.child c hc holder v held new
    by_cases mine : holder = tx
    · subst mine
      rcases own with idle | ⟨-, apart⟩
      · exact absurd idle (sound.busy c hc holder v held)
      · exact absurd at_ (apart session v)
    · exact ⟨session, (others holder mine).trans at_, succeeds⟩

theorem touch {k : Uuid} {p : SessionRow → Bool} {result : Option SessionRow}
    (sound : CellsSound sessions stage) (others : ∀ j, j ≠ tx → stage' j = stage j)
    (busy : ¬ (stage' tx).Idle) (apart : ∀ session child, stage tx ≠ .rotated session child)
    (update : ReadCommitted.touch SessionRow.id tx k p SessionRow.revoked sessions =
      some (sessions', result)) : CellsSound sessions' stage' := by
  have before : ∀ c ∈ sessions, ∀ row, c.visible tx = some row →
      ∃ r, c.committed = some r ∧ row.revoked = r.revoked := by
    intro c hc row seen
    obtain ⟨r, stored, later⟩ := sound.seen_committed apart hc seen
    exact ⟨r, stored, later.revoked⟩
  refine ⟨sound.ids.touch (f := SessionRow.revoked) (fun _ => rfl) update,
    sound.tokens.touch (f := SessionRow.revoked) (fun _ => rfl) update, ?_, ?_, ?_, ?_⟩
  · intro d hd holder v held
    by_cases mine : holder = tx
    · exact mine ▸ busy
    · rw [others holder mine]
      rcases ReadCommitted.touch_cases update hd with kept | ⟨c, hc, row, -, -, -, rfl⟩
      · exact sound.busy d kept holder v held
      · exact absurd (Prod.mk.inj (Option.some.inj held)).1.symm mine
  · intro d hd holder v r held stored
    rcases ReadCommitted.touch_cases update hd with kept | ⟨c, hc, row, -, seen, -, rfl⟩
    · exact sound.revision d kept holder v r held stored
    · obtain ⟨r', stored', same⟩ := before c hc row seen
      cases held
      rw [same, Option.some.inj (stored'.symm.trans stored)]
  · intro d hd holder v held new
    rcases ReadCommitted.touch_cases update hd with kept | ⟨c, hc, row, -, seen, -, rfl⟩
    · obtain ⟨session, at_, succeeds⟩ := sound.child d kept holder v held new
      have other : holder ≠ tx := by
        rintro rfl
        exact apart session v at_
      exact ⟨session, (others holder other).trans at_, succeeds⟩
    · obtain ⟨r', stored', -⟩ := before c hc row seen
      exact nomatch stored'.symm.trans new
  · intro d hd v version
    have old : ∃ c ∈ sessions, ∃ w, c.Version w ∧ w.root = v.root := by
      rcases ReadCommitted.touch_cases update hd with kept | ⟨c, hc, row, -, seen, -, rfl⟩
      · exact ⟨d, kept, v, version, rfl⟩
      · rcases version with stored | ⟨holder, held⟩
        · exact ⟨c, hc, v, .inl stored, rfl⟩
        · cases held
          exact ⟨c, hc, row, Cell.visible_version seen, rfl⟩
    obtain ⟨c, hc, w, version', same⟩ := old
    obtain ⟨e, he, r, stored, root⟩ := sound.roots c hc w version'
    obtain ⟨e', he', same'⟩ := ReadCommitted.touch_committed update he
    exact ⟨e', he', r, same'.trans stored, root.trans same⟩

theorem insertNow {row : SessionRow} (sound : CellsSound sessions stage)
    (newId : Unused SessionRow.id row.id sessions)
    (newToken : Unused SessionRow.refreshToken row.refreshToken sessions) (self : row.root = row.id) :
    CellsSound (ReadCommitted.insertNow row sessions) stage := by
  refine ⟨sound.ids.insertNow newId, sound.tokens.insertNow newToken, ?_, ?_, ?_, ?_⟩
  · intro d hd holder v held
    rcases ReadCommitted.mem_insertNow.mp hd with kept | rfl
    · exact sound.busy d kept holder v held
    · exact nomatch held
  · intro d hd holder v r held stored
    rcases ReadCommitted.mem_insertNow.mp hd with kept | rfl
    · exact sound.revision d kept holder v r held stored
    · exact nomatch held
  · intro d hd holder v held new
    rcases ReadCommitted.mem_insertNow.mp hd with kept | rfl
    · exact sound.child d kept holder v held new
    · exact nomatch held
  · intro d hd v version
    rcases ReadCommitted.mem_insertNow.mp hd with kept | rfl
    · obtain ⟨e, he, r, stored, root⟩ := sound.roots d kept v version
      exact ⟨e, ReadCommitted.mem_insertNow.mpr (.inl he), r, stored, root⟩
    · rcases version with stored | ⟨holder, held⟩
      · obtain rfl : row = v := Option.some.inj stored
        exact ⟨_, hd, row, rfl, self.symm⟩
      · exact nomatch held

theorem insert {session row : SessionRow} (sound : CellsSound sessions stage)
    (others : ∀ j, j ≠ tx → stage' j = stage j) (at_ : stage tx = .rotating session)
    (at' : stage' tx = .rotated session row) (succeeds : row.Succeeds session)
    (newId : Unused SessionRow.id row.id sessions)
    (newToken : Unused SessionRow.refreshToken row.refreshToken sessions)
    (rooted : ∃ d ∈ sessions, ∃ r, d.committed = some r ∧ r.id = row.root) :
    CellsSound (ReadCommitted.insert tx row sessions) stage' := by
  have kept : CellsSound sessions stage' := by
    refine sound.restage others (.inr ⟨?_, ?_⟩)
    · rw [at']
      exact id
    · intro session' child same
      rw [at_] at same
      exact nomatch same
  refine ⟨sound.ids.insert tx newId, sound.tokens.insert tx newToken, ?_, ?_, ?_, ?_⟩
  · intro d hd holder v held
    rcases ReadCommitted.mem_insert.mp hd with old | rfl
    · exact kept.busy d old holder v held
    · cases held
      rw [at']
      exact id
  · intro d hd holder v r held stored
    rcases ReadCommitted.mem_insert.mp hd with old | rfl
    · exact kept.revision d old holder v r held stored
    · exact nomatch stored
  · intro d hd holder v held new
    rcases ReadCommitted.mem_insert.mp hd with old | rfl
    · exact kept.child d old holder v held new
    · cases held
      exact ⟨session, at', succeeds⟩
  · intro d hd v version
    have root : ∃ e ∈ sessions, ∃ r, e.committed = some r ∧ r.id = v.root := by
      rcases ReadCommitted.mem_insert.mp hd with old | rfl
      · exact sound.roots d old v version
      · rcases version with stored | ⟨holder, held⟩
        · exact nomatch stored
        · cases held
          exact rooted
    obtain ⟨e, he, r, stored, root⟩ := root
    exact ⟨e, ReadCommitted.mem_insert.mpr (.inl he), r, stored, root⟩

/-- The end of a transaction: its cells lose their pending versions, the others stay. -/
theorem finish (sound : CellsSound sessions stage) (others : ∀ j, j ≠ tx → stage' j = stage j)
    (ids : Keyed SessionRow.id sessions') (tokens : Keyed SessionRow.refreshToken sessions')
    (rows : ∀ c ∈ sessions, ∀ r, c.committed = some r →
      ∃ d ∈ sessions', ∃ r', d.committed = some r' ∧ r.Later r')
    (cells : ∀ d ∈ sessions', (d ∈ sessions ∧ ∀ v, d.pending ≠ some (tx, v)) ∨
      d.pending = none ∧ ∀ v, d.committed = some v → ∃ c ∈ sessions, c.Version v) :
    CellsSound sessions' stage' := by
  refine ⟨ids, tokens, ?_, ?_, ?_, ?_⟩
  · intro d hd holder v held
    rcases cells d hd with ⟨kept, free⟩ | ⟨done, -⟩
    · rw [others holder (fun mine => free v (mine ▸ held))]
      exact sound.busy d kept holder v held
    · exact nomatch done.symm.trans held
  · intro d hd holder v r held stored
    rcases cells d hd with ⟨kept, -⟩ | ⟨done, -⟩
    · exact sound.revision d kept holder v r held stored
    · exact nomatch done.symm.trans held
  · intro d hd holder v held new
    rcases cells d hd with ⟨kept, free⟩ | ⟨done, -⟩
    · obtain ⟨session, at_, succeeds⟩ := sound.child d kept holder v held new
      exact ⟨session, (others holder (fun mine => free v (mine ▸ held))).trans at_, succeeds⟩
    · exact nomatch done.symm.trans held
  · intro d hd v version
    have old : ∃ c ∈ sessions, c.Version v := by
      rcases cells d hd with ⟨kept, -⟩ | ⟨done, from_⟩
      · exact ⟨d, kept, version⟩
      · rcases version with stored | ⟨holder, held⟩
        · exact from_ v stored
        · exact nomatch done.symm.trans held
    obtain ⟨c, hc, version'⟩ := old
    obtain ⟨e, he, r, stored, root⟩ := sound.roots c hc v version'
    obtain ⟨e', he', r', stored', later⟩ := rows e he r stored
    exact ⟨e', he', r', stored', later.id.trans root⟩

theorem frame_commit {other : Nat} (sound : CellsSound sessions stage) (apart : tx ≠ other) :
    Frame SessionRow.id SessionRow.Later other sessions (ReadCommitted.commit tx sessions) :=
  Frame.commit SessionRow.later_refl apart sound.ids sound.steps

theorem commit (sound : CellsSound sessions stage) (others : ∀ j, j ≠ tx → stage' j = stage j) :
    CellsSound (ReadCommitted.commit tx sessions) stage' := by
  have frame := sound.frame_commit (Nat.succ_ne_self tx).symm
  exact sound.finish others (sound.ids.commit tx) (sound.tokens.commit tx) frame.rows
    (fun _ => ReadCommitted.commit_ends)

theorem rollback (sound : CellsSound sessions stage) (others : ∀ j, j ≠ tx → stage' j = stage j) :
    CellsSound (ReadCommitted.rollback tx sessions) stage' := by
  have frame : Frame SessionRow.id SessionRow.Later (tx + 1) sessions
      (ReadCommitted.rollback tx sessions) :=
    Frame.rollback SessionRow.later_refl (Nat.succ_ne_self tx).symm
  exact sound.finish others (sound.ids.rollback tx) (sound.tokens.rollback tx) frame.rows
    (fun _ => ReadCommitted.rollback_ends)

end CellsSound

/-- What holds of the sessions and of every request in every state. -/
structure Sound (sessions : Cells SessionRow) (stage : Nat → Stage) : Prop where
  cells : CellsSound sessions stage
  stages : ∀ tx, StageSound sessions tx (stage tx)

namespace Sound
variable {sessions sessions' : Cells SessionRow} {stage stage' : Nat → Stage} {tx : Nat}

theorem rotate {session : SessionRow} {result : Option SessionRow} (sound : Sound sessions stage)
    (at_ : stage tx = .reading session)
    (update : touch SessionRow.id tx session.id (fun r => r.id = session.id) SessionRow.revoked
      sessions = some (sessions', result)) : StageSound sessions' tx (.rotating session) := by
  have reading := sound.stages tx
  rw [at_] at reading
  obtain ⟨c, hc, r, stored, same⟩ := reading
  have free : ∀ v, c.pending ≠ some (tx, v) := by
    intro v held
    have busy := sound.cells.busy c hc tx v held
    rw [at_] at busy
    exact busy trivial
  have seen : c.visible tx = some r := (Cell.visible_other free).trans stored
  have named : r.id = session.id := show r.revoked.id = session.revoked.id by rw [same]
  have keyed : c.keyed SessionRow.id session.id = true :=
    Cell.keyed_iff.mpr ⟨r, .inl stored, named⟩
  refine ⟨_, (ReadCommitted.mem_touch update).mpr ⟨c, hc, rfl⟩, r, r.revoked, ?_, same, ?_⟩
  · rw [if_pos keyed, Cell.committed_update, stored]
  · have selected : (c.visible tx).filter (fun r => r.id = session.id) = some r := by
      rw [seen, Option.filter_some, if_pos (decide_eq_true named)]
    rw [if_pos keyed, Cell.update, selected]

theorem hit {token : String} {k : Uuid} {hit : Bool} {result : Option SessionRow}
    (sound : Sound sessions stage) (at_ : stage tx = .revoking token hit)
    (update : touch SessionRow.id tx k (revokes token) SessionRow.revoked sessions =
      some (sessions', result)) : StageSound sessions' tx (.revoking token (hit || result.isSome)) := by
  cases result with
  | none =>
    rw [Option.isSome_none, Bool.or_false]
    cases hit with
    | false => trivial
    | true =>
      have revoking := sound.stages tx
      rw [at_] at revoking
      obtain ⟨c, hc, r, v, stored, live, held⟩ := revoking
      have kept : ∃ d ∈ sessions', d.committed = some r ∧ ∃ w, d.pending = some (tx, w) := by
        refine ⟨_, (ReadCommitted.mem_touch update).mpr ⟨c, hc, rfl⟩, ?_⟩
        split
        · refine ⟨(c.committed_update _ _ _).trans stored, ?_⟩
          rcases c.update_cases tx (revokes token) SessionRow.revoked with
            ⟨-, same⟩ | ⟨row, -, -, written⟩
          · exact ⟨v, same.symm ▸ held⟩
          · exact ⟨row.revoked, by rw [written]⟩
        · exact ⟨stored, v, held⟩
      obtain ⟨d, hd, stored', w, held'⟩ := kept
      exact ⟨d, hd, r, w, stored', live, held'⟩
  | some row' =>
    rw [Option.isSome_some, Bool.or_true]
    obtain ⟨c, hc, row, seen, live, -, written⟩ := ReadCommitted.touch_result update
    have apart : ∀ session child, stage tx ≠ .rotated session child := by
      intro session child same
      rw [at_] at same
      cases same
    obtain ⟨r, stored, rfl | rfl⟩ := sound.cells.seen_committed apart hc seen
    · exact ⟨_, written, row, row.revoked, stored, live, rfl⟩
    · simp [revokes, SessionRow.revoked] at live

theorem aimAll {userId : Uuid} (sound : Sound sessions stage) (at_ : stage tx = .changed userId) :
    StageSound sessions tx (.evicting userId (scan SessionRow.id tx (evicts userId) sessions)
      (scan SessionRow.id tx (evicts userId) sessions)) := by
  refine ⟨fun c hc v seen owner listed reached => absurd listed reached, fun id listed => ?_⟩
  obtain ⟨c, hc, row, seen, -, rfl⟩ := ReadCommitted.mem_scan.mp listed
  have apart : ∀ session child, stage tx ≠ .rotated session child := by
    intro session child same
    rw [at_] at same
    cases same
  obtain ⟨r, stored, later⟩ := sound.cells.seen_committed apart hc seen
  exact ⟨c, hc, r, stored, later.id.symm⟩

theorem evict {userId k : Uuid} {scanned remaining : List Uuid} {result : Option SessionRow}
    (sound : Sound sessions stage) (at_ : stage tx = .evicting userId scanned (k :: remaining))
    (update : touch SessionRow.id tx k (evicts userId) SessionRow.revoked sessions =
      some (sessions', result)) : StageSound sessions' tx (.evicting userId scanned remaining) := by
  have evicting := sound.stages tx
  rw [at_] at evicting
  obtain ⟨reached, known⟩ := evicting
  constructor
  · intro d hd v seen owner listed done
    obtain ⟨c, hc, rfl⟩ := (ReadCommitted.mem_touch update).mp hd
    by_cases keyed : c.keyed SessionRow.id k = true
    · rw [if_pos keyed] at seen
      rcases c.update_cases tx (evicts userId) SessionRow.revoked with
        ⟨passed, same⟩ | ⟨row, -, -, written⟩
      · rw [same] at seen
        have unmatched := passed v seen
        simp only [evicts, owner, true_and, decide_eq_false_iff_not] at unmatched
        cases status : v.status with
        | active => exact absurd status unmatched
        | revoked => rfl
      · rw [written] at seen
        obtain rfl : row.revoked = v := Option.some.inj ((Cell.visible_own rfl).symm.trans seen)
        rfl
    · rw [if_neg keyed] at seen
      refine reached c hc v seen owner listed ?_
      rw [List.mem_cons, not_or]
      refine ⟨fun same => keyed ?_, done⟩
      exact Cell.keyed_iff.mpr ⟨v, Cell.visible_version seen, same⟩
  · intro id listed
    obtain ⟨c, hc, r, stored, same⟩ := known id listed
    obtain ⟨d, hd, unchanged⟩ := ReadCommitted.touch_committed update hc
    exact ⟨d, hd, r, unchanged.trans stored, same⟩

/-- What other requests still find after this one has moved, and what it finds itself. -/
theorem of_frame (sound : Sound sessions stage) (cells : CellsSound sessions' stage')
    (others : ∀ j, j ≠ tx → stage' j = stage j)
    (frame : ∀ j, j ≠ tx → Frame SessionRow.id SessionRow.Later j sessions sessions')
    (own : StageSound sessions' tx (stage' tx)) : Sound sessions' stage' := by
  refine ⟨cells, fun j => ?_⟩
  by_cases mine : j = tx
  · exact mine ▸ own
  · rw [others j mine]
    exact (sound.stages j).frame (frame j mine)

/-- The request only changes its stage. -/
theorem restage (sound : Sound sessions stage) (others : ∀ j, j ≠ tx → stage' j = stage j)
    (apart : (stage tx).Idle ∨ ¬ (stage' tx).Idle ∧ ∀ session child, stage tx ≠ .rotated session child)
    (own : StageSound sessions tx (stage' tx)) : Sound sessions stage' := by
  refine ⟨sound.cells.restage others apart, fun j => ?_⟩
  by_cases mine : j = tx
  · exact mine ▸ own
  · rw [others j mine]
    exact sound.stages j

theorem touched {k : Uuid} {p : SessionRow → Bool} {result : Option SessionRow}
    (sound : Sound sessions stage) (others : ∀ j, j ≠ tx → stage' j = stage j)
    (busy : ¬ (stage' tx).Idle) (apart : ∀ session child, stage tx ≠ .rotated session child)
    (update : touch SessionRow.id tx k p SessionRow.revoked sessions = some (sessions', result))
    (own : StageSound sessions' tx (stage' tx)) : Sound sessions' stage' :=
  sound.of_frame (sound.cells.touch others busy apart update) others
    (fun _ mine => Frame.touch SessionRow.later_refl mine.symm update) own

theorem unmoved (sound : Sound sessions stage) (own : stage tx = stage' tx)
    (others : ∀ j, j ≠ tx → stage' j = stage j) : Sound sessions stage' := by
  obtain rfl : stage' = stage := funext fun j => by
    by_cases mine : j = tx
    · exact mine ▸ own.symm
    · exact others j mine
  exact sound

theorem committed (sound : Sound sessions stage) (others : ∀ j, j ≠ tx → stage' j = stage j)
    (own : StageSound (ReadCommitted.commit tx sessions) tx (stage' tx)) :
    Sound (ReadCommitted.commit tx sessions) stage' :=
  sound.of_frame (sound.cells.commit others) others
    (fun _ mine => sound.cells.frame_commit mine.symm) own

theorem move {users users' : Cells UserAccount} {st st' : Stage} (sound : Sound sessions stage)
    (at_ : stage tx = st) (at' : stage' tx = st') (others : ∀ j, j ≠ tx → stage' j = stage j)
    (moved : Move tx users sessions st st' users' sessions') : Sound sessions' stage' := by
  cases moved with
  | quiet => exact sound.unmoved (at_.trans at'.symm) others
  | leave idle =>
    refine sound.restage others (.inl (at_.symm ▸ idle)) ?_
    rw [at']
    trivial
  | enter userId generation =>
    refine sound.restage others (.inl ?_) ?_
    · rw [at_]
      trivial
    · rw [at']
      trivial
  | read stored =>
    refine sound.restage others (.inl ?_) ?_
    · rw [at_]
      trivial
    · rw [at']
      obtain ⟨c, hc, stored⟩ := mem_committed.mp stored
      exact ⟨c, hc, _, stored, rfl⟩
  | aim token =>
    refine sound.restage others (.inl ?_) ?_
    · rw [at_]
      trivial
    · rw [at']
      trivial
  | aimAll userId =>
    refine sound.restage others (.inr ⟨?_, ?_⟩) ?_
    · rw [at']
      exact id
    · rw [at_]
      exact fun _ _ same => nomatch same
    · rw [at']
      exact sound.aimAll at_
  | change update =>
    refine sound.restage others (.inl ?_) ?_
    · rw [at_]
      trivial
    · rw [at']
      trivial
  | login newId newToken =>
    have kept : Sound sessions stage' := by
      refine sound.restage others (.inl ?_) ?_
      · rw [at_]
        trivial
      · rw [at']
        trivial
    have own (inserted : Cells SessionRow) : StageSound inserted tx (stage' tx) := by
      rw [at']
      trivial
    exact kept.of_frame (kept.cells.insertNow newId newToken rfl) (fun _ _ => rfl)
      (fun _ _ => Frame.insertNow SessionRow.later_refl newId) (own _)
  | @succeed session expiresAt id refreshToken newId newToken =>
    have rotating := sound.stages tx
    rw [at_] at rotating
    obtain ⟨c, hc, r, v, stored, same, held⟩ := rotating
    obtain ⟨d, hd, root, rooted, named⟩ := sound.cells.roots c hc r (.inl stored)
    have origin : r.revoked.root = session.revoked.root := congrArg SessionRow.root same
    have cells := sound.cells.insert others at_ at' ⟨expiresAt, id, refreshToken, rfl⟩ newId newToken
      ⟨d, hd, root, rooted, named.trans origin⟩
    refine sound.of_frame cells others
      (fun _ mine => Frame.insert SessionRow.later_refl mine.symm) ?_
    rw [at']
    exact ⟨c, ReadCommitted.mem_insert.mpr (.inl hc), r, v, stored, same, held⟩
  | rotate update =>
    refine sound.touched others ?_ ?_ update ?_
    · rw [at']
      exact id
    · rw [at_]
      exact fun _ _ same => nomatch same
    · rw [at']
      exact sound.rotate at_ update
  | @hit token k hit _ result update =>
    cases result with
    | none =>
      rw [Option.isSome_none, Bool.or_false] at at'
      rw [ReadCommitted.touch_none update]
      exact sound.unmoved (at_.trans at'.symm) others
    | some row =>
      refine sound.touched others ?_ ?_ update ?_
      · rw [at', Option.isSome_some, Bool.or_true]
        exact id
      · rw [at_]
        exact fun _ _ same => nomatch same
      · rw [at']
        exact sound.hit at_ update
  | evict update =>
    refine sound.touched others ?_ ?_ update ?_
    · rw [at']
      exact id
    · rw [at_]
      exact fun _ _ same => nomatch same
    · rw [at']
      exact sound.evict at_ update
  | commitRefresh | commitRevoke | commitReset | commitOther =>
    refine sound.committed others ?_
    rw [at']
    trivial
  | rollback =>
    refine sound.of_frame (sound.cells.rollback others) others
      (fun _ mine => Frame.rollback SessionRow.later_refl mine.symm) ?_
    rw [at']
    trivial

end Sound

namespace SessionsService

/-- The tables and the requests agree. -/
def Sound (s : SessionsService) : Prop := UsersService.Sound s.db.sessions s.stage

theorem sound_registered (users : List UserAccount) : (registered users).Sound where
  cells := ⟨Keyed.empty, Keyed.empty, nofun, nofun, nofun, nofun⟩
  stages := fun _ => trivial

theorem Sound.step {lib : Credentials} {s t : SessionsService} {a : SessionsAction}
    (sound : s.Sound) (h : s.step lib a = some t) : t.Sound := by
  rcases moved_step h with ⟨db, stage⟩ | ⟨i, -, moved, others⟩
  · rw [Sound, db, stage]
    exact sound
  · exact UsersService.Sound.move sound rfl rfl others moved

end SessionsService

end RailsCore.UsersService
