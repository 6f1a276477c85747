import Mathlib.Logic.Relation
import RailsCore.Evictions

/-!
# Refresh tokens are used once

Whether a refresh token yields one session and a revocation is final. A
refresh checks that its session is active, and rotates it in a transaction
that does not check again. The property holds along the runs in which every
session is still active when its refresh commits.
-/

namespace RailsCore.UsersService

open ReadCommitted (Cell Cells Keyed Unused committed mem_committed)

/-- A refresh of the session has committed its successor. -/
def Yields (sessions : Cells SessionRow) (r child : SessionRow) : Prop :=
  child ∈ committed sessions ∧ child.parent = some r.id

/-- Through one refresh or more. -/
def Descends (sessions : Cells SessionRow) : SessionRow → SessionRow → Prop :=
  Relation.TransGen (Yields sessions)

/-- A session of the login that inserted `first`. -/
def OfLogin (sessions : Cells SessionRow) : SessionRow → SessionRow → Prop :=
  Relation.ReflTransGen (Yields sessions)

/-- The session that a refresh is about to replace has not been revoked meanwhile. -/
def Stage.StillActive (sessions : Cells SessionRow) : Stage → Prop
  | .rotated session _ => ∀ r ∈ committed sessions, r.id = session.id → r.status = .active
  | _ => True

instance (sessions : Cells SessionRow) : ∀ stage : Stage, Decidable (stage.StillActive sessions)
  | .rotated _ _ => inferInstanceAs (Decidable (∀ _ ∈ _, _ → _))
  | .nothing | .entering _ _ | .reading _ | .rotating _ | .revoking _ _ | .revoked _ | .changed _
  | .evicting _ _ _ => inferInstanceAs (Decidable True)

/-- A session with a successor is revoked, has no other, and is of the same login, and a
login has one active session. -/
structure Rotated (sessions : Cells SessionRow) : Prop where
  parent : ∀ child ∈ committed sessions, ∀ id, child.parent = some id →
    ∃ r ∈ committed sessions, r.id = id ∧ r.status = .revoked ∧ r.root = child.root
  successor : ∀ a ∈ committed sessions, ∀ b ∈ committed sessions, ∀ id,
    a.parent = some id → b.parent = some id → a = b
  lineage : ∀ a ∈ committed sessions, ∀ b ∈ committed sessions,
    a.status = .active → b.status = .active → a.root = b.root → a = b

/-- The session with this token is revoked and has no successor. -/
def Retired (sessions : Cells SessionRow) (token : String) : Prop :=
  ∃ r ∈ committed sessions, r.refreshToken = token ∧ r.status = .revoked ∧
    ∀ child ∈ committed sessions, child.parent ≠ some r.id

/-- No session goes or becomes active, and those that come are new ones. -/
structure Continues (New : SessionRow → Prop) (sessions sessions' : Cells SessionRow) : Prop where
  rows : ∀ r ∈ committed sessions, ∃ r' ∈ committed sessions', r.Later r'
  back : ∀ r' ∈ committed sessions', (∃ r ∈ committed sessions, r.Later r') ∨ New r'

theorem SessionRow.Later.of_revoked {r r' : SessionRow} (later : r.Later r')
    (revoked : r.status = .revoked) : r'.status = .revoked := by
  rcases later with rfl | rfl
  · exact revoked
  · rfl

theorem SessionRow.Later.of_active {r r' : SessionRow} (later : r.Later r')
    (active : r'.status = .active) : r' = r := by
  rcases later with same | rfl
  · exact same
  · exact nomatch active

variable {users users' : Cells UserAccount} {sessions sessions' : Cells SessionRow}
  {stage stage' : Nat → Stage} {tx : Nat}

theorem Continues.mono {New New' : SessionRow → Prop} (continues : Continues New sessions sessions')
    (weaker : ∀ r, New r → New' r) : Continues New' sessions sessions' :=
  ⟨continues.rows, fun r stored => (continues.back r stored).imp_right (weaker r)⟩

theorem Continues.of_committed {New : SessionRow → Prop}
    (same : committed sessions' = committed sessions) : Continues New sessions sessions' := by
  constructor
  · intro r stored
    exact ⟨r, same ▸ stored, r.later_refl⟩
  · intro r stored
    exact .inl ⟨r, same ▸ stored, r.later_refl⟩

theorem Continues.insertNow (row : SessionRow) (sessions : Cells SessionRow) :
    Continues (fun r => r = row) sessions (ReadCommitted.insertNow row sessions) := by
  constructor
  · intro r stored
    refine ⟨r, ?_, r.later_refl⟩
    rw [ReadCommitted.committed_insertNow]
    exact List.mem_append_left _ stored
  · intro r stored
    rw [ReadCommitted.committed_insertNow, List.mem_append, List.mem_singleton] at stored
    exact stored.imp_left (fun old => ⟨r, old, r.later_refl⟩)

/-- A commit brings the successor of its refresh and nothing else. -/
theorem CellsSound.continues (sound : CellsSound sessions stage) (tx : Nat) :
    Continues (fun r => ∃ session, stage tx = .rotated session r ∧ r.Succeeds session) sessions
      (ReadCommitted.commit tx sessions) := by
  constructor
  · intro r stored
    obtain ⟨c, hc, stored⟩ := mem_committed.mp stored
    have frame := sound.frame_commit (Nat.succ_ne_self tx).symm
    obtain ⟨d, hd, r', stored', later⟩ := frame.rows c hc r stored
    exact ⟨r', mem_committed.mpr ⟨d, hd, stored'⟩, later⟩
  · intro r' stored
    rcases ReadCommitted.committed_commit stored with ⟨c, hc, before, -⟩ | ⟨c, hc, held⟩
    · exact .inl ⟨r', mem_committed.mpr ⟨c, hc, before⟩, r'.later_refl⟩
    · cases old : c.committed with
      | none => exact .inr (sound.child c hc tx r' held old)
      | some r =>
        exact .inl ⟨r, mem_committed.mpr ⟨c, hc, old⟩, .inr (sound.revision c hc tx r' r held old)⟩

/-- It is enough to look at the new sessions. -/
theorem Rotated.step {New : SessionRow → Prop} (rotated : Rotated sessions)
    (continues : Continues New sessions sessions') (ids : Keyed SessionRow.id sessions')
    (parent : ∀ child, New child → ∀ id, child.parent = some id →
      ∃ r ∈ committed sessions', r.id = id ∧ r.status = .revoked ∧ r.root = child.root)
    (successor : ∀ a, New a → ∀ b ∈ committed sessions', ∀ id,
      a.parent = some id → b.parent = some id → a = b)
    (lineage : ∀ a, New a → ∀ b ∈ committed sessions', b.status = .active → a.root = b.root → a = b) :
    Rotated sessions' := by
  refine ⟨?_, ?_, ?_⟩
  · intro child stored id of
    rcases continues.back child stored with ⟨before, stored, later⟩ | new
    · obtain ⟨r, known, named, revoked, root⟩ :=
        rotated.parent before stored id (later.parent.symm.trans of)
      obtain ⟨r', known', later'⟩ := continues.rows r known
      refine ⟨r', known', later'.id.trans named, later'.of_revoked revoked, ?_⟩
      calc r'.root = r.root := later'.root
        _ = before.root := root
        _ = child.root := later.root.symm
    · exact parent child new id of
  · intro a ha b hb id ofA ofB
    rcases continues.back a ha with ⟨a', ha', laterA⟩ | new
    · rcases continues.back b hb with ⟨b', hb', laterB⟩ | new
      · have same : a' = b' := rotated.successor a' ha' b' hb' id (laterA.parent.symm.trans ofA)
          (laterB.parent.symm.trans ofB)
        refine ids.unique ha hb ?_
        calc a.id = a'.id := laterA.id
          _ = b'.id := congrArg SessionRow.id same
          _ = b.id := laterB.id.symm
      · exact (successor b new a ha id ofB ofA).symm
    · exact successor a new b hb id ofA ofB
  · intro a ha b hb activeA activeB root
    rcases continues.back a ha with ⟨a', ha', laterA⟩ | new
    · rcases continues.back b hb with ⟨b', hb', laterB⟩ | new
      · obtain rfl := laterA.of_active activeA
        obtain rfl := laterB.of_active activeB
        exact rotated.lineage a ha' b hb' activeA activeB root
      · exact (lineage b new a ha activeA root.symm).symm
    · exact lineage a new b hb activeB root

theorem Retired.step {New : SessionRow → Prop} {token : String} (retired : Retired sessions token)
    (continues : Continues New sessions sessions')
    (parent : ∀ child, New child → ∀ r ∈ committed sessions, r.status = .revoked →
      child.parent ≠ some r.id) : Retired sessions' token := by
  obtain ⟨r, stored, named, revoked, childless⟩ := retired
  obtain ⟨r', stored', later⟩ := continues.rows r stored
  refine ⟨r', stored', later.refreshToken.trans named, later.of_revoked revoked,
    fun child known of => ?_⟩
  rcases continues.back child known with ⟨before, known, older⟩ | new
  · refine childless before known ?_
    calc before.parent = child.parent := older.parent.symm
      _ = some r'.id := of
      _ = some r.id := congrArg some later.id
  · exact parent child new r stored revoked (of.trans (congrArg some later.id))

theorem Rotated.login {row : SessionRow} (rotated : Rotated sessions)
    (sound : CellsSound sessions stage) (newId : Unused SessionRow.id row.id sessions)
    (fresh : row.parent = none) (self : row.root = row.id) :
    Rotated (ReadCommitted.insertNow row sessions) := by
  refine rotated.step (.insertNow row sessions) (sound.ids.insertNow newId) ?_ ?_ ?_
  · rintro child rfl id of
    exact nomatch fresh.symm.trans of
  · rintro a rfl b - id of -
    exact nomatch fresh.symm.trans of
  · rintro a rfl b stored - root
    rw [ReadCommitted.committed_insertNow, List.mem_append, List.mem_singleton] at stored
    rcases stored with old | rfl
    · obtain ⟨c, hc, old⟩ := mem_committed.mp old
      obtain ⟨d, hd, r, known, named⟩ := sound.roots c hc b (.inl old)
      exact absurd (named.trans (root.symm.trans self)) (newId d hd r (.inl known))
    · rfl

/-- What the refresh finds when its session is still active: the row itself, revoked by
its own transaction only. -/
theorem live_rotation {session child : SessionRow} (sound : Sound sessions stage)
    (at_ : stage tx = .rotated session child)
    (live : ∀ r ∈ committed sessions, r.id = session.id → r.status = .active) :
    ∃ r ∈ committed sessions, r.id = session.id ∧ r.status = .active ∧ r.root = session.root ∧
      r.revoked ∈ committed (ReadCommitted.commit tx sessions) := by
  have rotated := sound.stages tx
  rw [at_] at rotated
  obtain ⟨c, hc, r, v, stored, same, held⟩ := rotated
  have known : r ∈ committed sessions := mem_committed.mpr ⟨c, hc, stored⟩
  have named : r.id = session.id := show r.revoked.id = session.revoked.id by rw [same]
  have root : r.root = session.root := show r.revoked.root = session.revoked.root by rw [same]
  refine ⟨r, known, named, live r known named, root, mem_committed.mpr ?_⟩
  obtain rfl := sound.cells.revision c hc tx v r held stored
  exact ⟨_, ReadCommitted.mem_commit.mpr ⟨c, hc, rfl⟩, by rw [Cell.commit_own held]⟩

theorem Rotated.refresh {session child : SessionRow} (rotated : Rotated sessions)
    (sound : Sound sessions stage) (at_ : stage tx = .rotated session child)
    (live : ∀ r ∈ committed sessions, r.id = session.id → r.status = .active) :
    Rotated (ReadCommitted.commit tx sessions) := by
  obtain ⟨r, known, named, active, root, replaced⟩ := live_rotation sound at_ live
  have continues := sound.cells.continues tx
  have ids := sound.cells.ids.commit tx
  refine rotated.step continues ids ?_ ?_ ?_
  · rintro a ⟨session', same, expiresAt, id, refreshToken, rfl⟩ id' of
    cases at_.symm.trans same
    exact ⟨r.revoked, replaced, named.trans (Option.some.inj of), rfl, root⟩
  · rintro a ⟨session', same, expiresAt, id, refreshToken, rfl⟩ b stored id' ofA ofB
    cases at_.symm.trans same
    rcases continues.back b stored with ⟨b', stored', later⟩ | ⟨session', same, -⟩
    · -- another successor would have revoked the session
      obtain ⟨r', known', named', revoked, -⟩ :=
        rotated.parent b' stored' id' (later.parent.symm.trans ofB)
      have equal : r'.id = r.id := named'.trans ((Option.some.inj ofA).symm.trans named.symm)
      obtain rfl := sound.cells.ids.unique known' known equal
      exact nomatch active.symm.trans revoked
    · cases at_.symm.trans same
      rfl
  · rintro a ⟨session', same, expiresAt, id, refreshToken, rfl⟩ b stored activeB origin
    cases at_.symm.trans same
    rcases continues.back b stored with ⟨b', stored', later⟩ | ⟨session', same, -⟩
    · -- the active session of the login was the one that is now revoked
      obtain rfl := later.of_active activeB
      have equal : r.root = b.root := root.trans origin
      obtain rfl := rotated.lineage r known b stored' active activeB equal
      have twice := ids.unique stored replaced rfl
      exact nomatch (congrArg SessionRow.status twice).symm.trans active
    · cases at_.symm.trans same
      rfl

theorem Rotated.of_committed (rotated : Rotated sessions)
    (same : committed sessions' = committed sessions) : Rotated sessions' := by
  obtain ⟨parent, successor, lineage⟩ := rotated
  rw [← same] at parent successor lineage
  exact ⟨parent, successor, lineage⟩

theorem Rotated.move {st st' : Stage} (rotated : Rotated sessions) (sound : Sound sessions stage)
    (at_ : stage tx = st) (live : st.StillActive sessions)
    (moved : Move tx users sessions st st' users' sessions') : Rotated sessions' := by
  have quietly : (∀ session child, st ≠ .rotated session child) →
      Rotated (ReadCommitted.commit tx sessions) := by
    intro apart
    refine rotated.step (sound.cells.continues tx) (sound.cells.ids.commit tx) ?_ ?_ ?_
    · rintro child ⟨session, same, -⟩
      exact absurd (at_.symm.trans same) (apart session child)
    · rintro a ⟨session, same, -⟩
      exact absurd (at_.symm.trans same) (apart session a)
    · rintro a ⟨session, same, -⟩
      exact absurd (at_.symm.trans same) (apart session a)
  cases moved with
  | quiet | leave | enter | read | aim | aimAll | change => exact rotated
  | login newId newToken => exact rotated.login sound.cells newId rfl rfl
  | rotate update | hit update | evict update =>
    exact rotated.of_committed (ReadCommitted.committed_touch update)
  | succeed => exact rotated.of_committed (ReadCommitted.committed_insert _ _ _)
  | commitRefresh session child => exact rotated.refresh sound at_ live
  | commitRevoke | commitReset | commitOther => exact quietly (fun _ _ same => nomatch same)
  | rollback => exact rotated.of_committed (ReadCommitted.committed_rollback _ _)

/-- A session that comes with a move is of a new login, or replaces that of a refresh. -/
theorem Move.continues {st st' : Stage} (sound : CellsSound sessions stage) (at_ : stage tx = st)
    (moved : Move tx users sessions st st' users' sessions') :
    Continues (fun r => r.parent = none ∨ ∃ session, st = .rotated session r ∧ r.Succeeds session)
      sessions sessions' := by
  have committing := sound.continues tx
  rw [at_] at committing
  cases moved with
  | quiet | leave | enter | read | aim | aimAll | change => exact .of_committed rfl
  | login =>
    refine (Continues.insertNow _ sessions).mono ?_
    rintro r rfl
    exact .inl rfl
  | rotate update | hit update | evict update =>
    exact .of_committed (ReadCommitted.committed_touch update)
  | succeed => exact .of_committed (ReadCommitted.committed_insert _ _ _)
  | commitRefresh | commitRevoke | commitReset | commitOther =>
    exact committing.mono (fun _ => .inr)
  | rollback => exact .of_committed (ReadCommitted.committed_rollback _ _)

theorem Retired.move {st st' : Stage} {token : String} (retired : Retired sessions token)
    (sound : CellsSound sessions stage) (at_ : stage tx = st) (live : st.StillActive sessions)
    (moved : Move tx users sessions st st' users' sessions') : Retired sessions' token := by
  refine retired.step (moved.continues sound at_) ?_
  rintro child (fresh | ⟨session, rfl, expiresAt, id, refreshToken, rfl⟩) r known revoked of
  · exact nomatch fresh.symm.trans of
  · have active := live r known (Option.some.inj of).symm
    exact nomatch active.symm.trans revoked

/-- A revocation finds its session active, so the session has no successor yet. -/
theorem Rotated.revoke {token : String} (rotated : Rotated sessions) (sound : Sound sessions stage)
    (at_ : stage tx = .revoking token true) : Retired (ReadCommitted.commit tx sessions) token := by
  have revoking := sound.stages tx
  rw [at_] at revoking
  obtain ⟨c, hc, r, v, stored, live, held⟩ := revoking
  obtain ⟨named, active⟩ : r.refreshToken = token ∧ r.status = .active := of_decide_eq_true live
  have known : r ∈ committed sessions := mem_committed.mpr ⟨c, hc, stored⟩
  obtain rfl := sound.cells.revision c hc tx v r held stored
  refine ⟨r.revoked, mem_committed.mpr ⟨_, ReadCommitted.mem_commit.mpr ⟨c, hc, rfl⟩, ?_⟩, named, rfl,
    fun child stored' of => ?_⟩
  · rw [Cell.commit_own held]
  · rcases (sound.cells.continues tx).back child stored' with ⟨before, old, later⟩ | ⟨session, same, -⟩
    · obtain ⟨r', known', same, revoked, -⟩ := rotated.parent before old r.id (later.parent.symm.trans of)
      obtain rfl := sound.cells.ids.unique known' known same
      exact nomatch active.symm.trans revoked
    · exact nomatch at_.symm.trans same

theorem Rotated.retires {st : Stage} {token : String} (rotated : Rotated sessions)
    (sound : Sound sessions stage) (at_ : stage tx = st)
    (retired : st = .revoked token → Retired sessions token)
    (moved : Move tx users sessions st (.revoked token) users' sessions') :
    Retired sessions' token := by
  cases moved with
  | quiet => exact retired rfl
  | commitRevoke => exact rotated.revoke sound at_

/-- Every session of a login is committed, and says so. -/
theorem Rotated.root {first r : SessionRow} (rotated : Rotated sessions)
    (ids : Keyed SessionRow.id sessions) (stored : first ∈ committed sessions)
    (of : OfLogin sessions first r) : r ∈ committed sessions ∧ r.root = first.root := by
  induction of with
  | refl => exact ⟨stored, rfl⟩
  | tail _ yields ih =>
    obtain ⟨known, root⟩ := ih
    obtain ⟨r', known', named, -, origin⟩ := rotated.parent _ yields.1 _ yields.2
    obtain rfl := ids.unique known' known named
    exact ⟨yields.1, origin.symm.trans root⟩

namespace SessionsService

/-- Refresh tokens are single-use and revocation is final. -/
structure SingleUse (s : SessionsService) : Prop where
  token : ∀ a ∈ committed s.db.sessions, ∀ b ∈ committed s.db.sessions,
    a.refreshToken = b.refreshToken → a = b
  successor : ∀ r a b, Yields s.db.sessions r a → Yields s.db.sessions r b → a = b
  final : ∀ (i : Nat) (token : String), s.requests[i]? = some (.revokeToken token (.done (.ok ()))) →
    ∃ r ∈ committed s.db.sessions, r.refreshToken = token ∧ r.status = .revoked ∧
      ∀ r', ¬ Descends s.db.sessions r r'
  login : ∀ first ∈ committed s.db.sessions, ∀ a b, OfLogin s.db.sessions first a →
    OfLogin s.db.sessions first b → a.status = .active → b.status = .active → a = b

/-- A statement that is taken while the session of its refresh is still active. -/
def StillActive (s : SessionsService) : SessionsAction → Prop
  | .run i _ => (s.stage i).StillActive s.db.sessions
  | _ => True

instance (s : SessionsService) : ∀ a, Decidable (s.StillActive a)
  | .run i _ => inferInstanceAs (Decidable ((s.stage i).StillActive s.db.sessions))
  | .tick _ | .login _ | .refreshToken _ | .revokeToken _ | .requestPasswordReset _
  | .resetPassword _ _ | .fail _ => inferInstanceAs (Decidable True)

structure Rotating (s : SessionsService) : Prop where
  sound : s.Sound
  rotated : Rotated s.db.sessions
  retired : ∀ i token, s.stage i = .revoked token → Retired s.db.sessions token

theorem rotating_registered (users : List UserAccount) : (registered users).Rotating where
  sound := sound_registered users
  rotated := ⟨nofun, nofun, nofun⟩
  retired := nofun

theorem Rotating.step {lib : Credentials} {s t : SessionsService} {a : SessionsAction}
    (rotating : s.Rotating) (live : s.StillActive a) (h : s.step lib a = some t) : t.Rotating := by
  have sound := rotating.sound.step h
  rcases moved_step h with ⟨db, stage⟩ | ⟨i, taken, moved, others⟩
  · refine ⟨sound, ?_, ?_⟩
    · rw [db]
      exact rotating.rotated
    · rw [db, stage]
      exact rotating.retired
  · have own : ∀ token, t.stage i = .revoked token → Retired t.db.sessions token := by
      intro token done
      rw [done] at moved
      exact rotating.rotated.retires rotating.sound rfl (rotating.retired i token) moved
    have rest : Rotated t.db.sessions ∧ ∀ token, Retired s.db.sessions token →
        Retired t.db.sessions token := by
      rcases taken with ⟨input, rfl⟩ | failed
      · exact ⟨rotating.rotated.move rotating.sound rfl live moved,
          fun token retired => retired.move rotating.sound.cells rfl live moved⟩
      · have same : committed t.db.sessions = committed s.db.sessions := by
          rw [failed]
          exact ReadCommitted.committed_rollback i s.db.sessions
        refine ⟨rotating.rotated.of_committed same, fun token retired => ?_⟩
        rw [Retired, same]
        exact retired
    refine ⟨sound, rest.1, fun j token done => ?_⟩
    by_cases mine : j = i
    · exact own token (mine ▸ done)
    · rw [others j mine] at done
      exact rest.2 token (rotating.retired j token done)

theorem Rotating.singleUse {s : SessionsService} (rotating : s.Rotating) : s.SingleUse := by
  have ids : Keyed SessionRow.id s.db.sessions := rotating.sound.cells.ids
  refine ⟨?_, ?_, ?_, ?_⟩
  · intro a ha b hb same
    exact rotating.sound.cells.tokens.unique ha hb same
  · intro r a b ofA ofB
    exact rotating.rotated.successor a ofA.1 b ofB.1 r.id ofA.2 ofB.2
  · intro i token done
    obtain ⟨r, known, named, revoked, childless⟩ := rotating.retired i token (stage_of done)
    refine ⟨r, known, named, revoked, fun r' descends => ?_⟩
    -- the chain of successors would start with one of the session itself
    obtain ⟨child, yields, -⟩ := Relation.TransGen.head'_iff.mp descends
    exact childless child yields.1 yields.2
  · intro first known a b ofA ofB activeA activeB
    obtain ⟨storedA, rootA⟩ := rotating.rotated.root ids known ofA
    obtain ⟨storedB, rootB⟩ := rotating.rotated.root ids known ofB
    exact rotating.rotated.lineage a storedA b storedB activeA activeB (rootA.trans rootB.symm)

/-- In every run whose refreshes commit while their sessions are still active, every state
has single-use tokens and final revocations. -/
theorem refresh_single_use (lib : Credentials) (users : List UserAccount)
    {as : List SessionsAction} {s : SessionsService}
    (live : Machine.Along (step lib) StillActive (registered users) as)
    (h : Machine.run (step lib) (registered users) as = some s) : s.SingleUse :=
  (Machine.invariant_along (fun _ _ _ => Rotating.step) (rotating_registered users) live h).singleUse

/-- A login, and its session with the token "first". -/
def loggedIn : List SessionsAction :=
  loginVerified 0 "password" ++ [.run 0 (.random ⟨10⟩ "first")]

/-- The statements of a refresh after it has found its session active. -/
def rotation (i : Nat) (id : Uuid) (token : String) : List SessionsAction :=
  [.run i .go, .run i .go, .run i (.random id token), .run i .go]

/-- A token that has been replaced is refused, and its successor can be revoked. -/
theorem refresh_single_use_revoked :
    ∃ s, Machine.run (step sampleCredentials) (registered [sampleUser])
        (loggedIn ++ [.refreshToken "first", .run 1 .go] ++ rotation 1 ⟨11⟩ "second" ++
          [.refreshToken "first", .run 2 .go, .revokeToken "second", .run 3 .go, .run 3 .go,
            .run 3 .go, .run 3 .go]) = some s ∧
      s.requests[2]? = some (.refreshToken "first" (.done (.error .unauthorized))) ∧
      s.requests[3]? = some (.revokeToken "second" (.done (.ok ()))) ∧ s.SingleUse := by
  have evaluated : (Machine.run (step sampleCredentials) (registered [sampleUser])
      (loggedIn ++ [.refreshToken "first", .run 1 .go] ++ rotation 1 ⟨11⟩ "second" ++
        [.refreshToken "first", .run 2 .go, .revokeToken "second", .run 3 .go, .run 3 .go,
          .run 3 .go, .run 3 .go])).any (fun s =>
            s.requests[2]? = some (.refreshToken "first" (.done (.error .unauthorized))) ∧
            s.requests[3]? = some (.revokeToken "second" (.done (.ok ())))) = true := by
    decide +kernel
  obtain ⟨s, h, answers⟩ := (Option.any_eq_true _ _).mp evaluated
  obtain ⟨refused, revoked⟩ := of_decide_eq_true answers
  exact ⟨s, h, refused, revoked,
    refresh_single_use sampleCredentials [sampleUser] (by decide +kernel) h⟩

/-- Two refreshes find the same session active, and each of them replaces it. -/
theorem token_refreshed_twice :
    ¬ ∀ (lib : Credentials) (users : List UserAccount) (as : List SessionsAction)
      (s : SessionsService), Machine.run (step lib) (registered users) as = some s →
        s.SingleUse := by
  intro claim
  have evaluated : (Machine.run (step sampleCredentials) (registered [sampleUser])
      (loggedIn ++ [.refreshToken "first", .run 1 .go, .refreshToken "first", .run 2 .go] ++
        rotation 1 ⟨11⟩ "second" ++ rotation 2 ⟨12⟩ "third")).any (fun s =>
          ∃ r ∈ committed s.db.sessions, ∃ a ∈ committed s.db.sessions,
            ∃ b ∈ committed s.db.sessions,
              a.parent = some r.id ∧ b.parent = some r.id ∧ a ≠ b) = true := by
    decide +kernel
  obtain ⟨s, h, twice⟩ := (Option.any_eq_true _ _).mp evaluated
  obtain ⟨r, -, a, storedA, b, storedB, ofA, ofB, apart⟩ := of_decide_eq_true twice
  exact apart ((claim _ _ _ _ h).successor r a b ⟨storedA, ofA⟩ ⟨storedB, ofB⟩)

end SessionsService

end RailsCore.UsersService
