import RailsCore.SessionsSound

/-!
# Password resets and old sessions

Whether a committed reset leaves no active session that goes back to an older
password. A login and a refresh check first and insert later, and a reset
revokes the sessions of one snapshot, so a session can slip through between.
The property holds along the runs in which none does.
-/

namespace RailsCore.UsersService

open ReadCommitted (Cell Cells committed mem_committed)

/-- Every active session goes back to the password that its user has now. -/
def Evicted (users : Cells UserAccount) (sessions : Cells SessionRow) : Prop :=
  ∀ r ∈ committed sessions, r.status = .active →
    ∀ u ∈ committed users, u.id = r.userId → r.generation = u.resets

instance (users : Cells UserAccount) (sessions : Cells SessionRow) :
    Decidable (Evicted users sessions) :=
  inferInstanceAs (Decidable (∀ _ ∈ _, _ → ∀ _ ∈ _, _))

/-- No reset of the user has committed since this generation of the password was read. -/
def Unreset (users : Cells UserAccount) (userId : Uuid) (generation : Nat) : Prop :=
  ∀ u ∈ committed users, u.id = userId → u.resets = generation

instance (users : Cells UserAccount) (userId : Uuid) (generation : Nat) :
    Decidable (Unreset users userId generation) :=
  inferInstanceAs (Decidable (∀ _ ∈ _, _))

/-- When a login inserts its session or a refresh commits its successor, no reset has come
between; when a reset commits, no session has come since its snapshot. -/
def Stage.UpToDate (users : Cells UserAccount) (sessions : Cells SessionRow) : Stage → Prop
  | .entering userId generation => Unreset users userId generation
  | .rotated session _ => Unreset users session.userId session.generation
  | .evicting userId scanned [] =>
    ∀ r ∈ committed sessions, r.userId = userId → r.status = .active → r.id ∈ scanned
  | _ => True

instance (users : Cells UserAccount) (sessions : Cells SessionRow) :
    ∀ stage : Stage, Decidable (stage.UpToDate users sessions)
  | .entering userId generation => inferInstanceAs (Decidable (Unreset users userId generation))
  | .rotated session _ =>
    inferInstanceAs (Decidable (Unreset users session.userId session.generation))
  | .evicting _ _ [] => inferInstanceAs (Decidable (∀ _ ∈ _, _ → _ → _))
  | .evicting _ _ (_ :: _) | .nothing | .reading _ | .rotating _ | .revoking _ _ | .revoked _
  | .changed _ => inferInstanceAs (Decidable True)

/-- The stages in which a reset may hold the row of a user. -/
def Stage.Resets (userId : Uuid) : Stage → Prop
  | .changed u | .evicting u _ _ => u = userId
  | _ => False

/-- Only a reset of the user holds the row of a user. -/
def UsersSound (users : Cells UserAccount) (stage : Nat → Stage) : Prop :=
  ∀ c ∈ users, ∀ tx u, c.pending = some (tx, u) → (stage tx).Resets u.id

variable {users users' : Cells UserAccount} {sessions sessions' : Cells SessionRow}
  {stage stage' : Nat → Stage} {tx : Nat}

theorem Stage.Idle.not_resets {st : Stage} (idle : st.Idle) (userId : Uuid) :
    ¬ st.Resets userId := by
  cases st with
  | changed u | evicting u scanned remaining => exact idle.elim
  | nothing | entering | reading | rotating | rotated | revoking | revoked => exact id

theorem UsersSound.move {st st' : Stage} (sound : UsersSound users stage) (at_ : stage tx = st)
    (at' : stage' tx = st') (others : ∀ j, j ≠ tx → stage' j = stage j)
    (moved : Move tx users sessions st st' users' sessions') : UsersSound users' stage' := by
  have keep : (∀ u, st.Resets u → st'.Resets u) → UsersSound users stage' := by
    intro kept c hc holder u held
    have before := sound c hc holder u held
    by_cases mine : holder = tx
    · rw [mine, at_] at before
      rw [mine, at']
      exact kept u.id before
    · rw [others holder mine]
      exact before
  -- after the end of its transaction a request holds nothing
  have ending : (∀ d ∈ users', (d ∈ users ∧ ∀ u, d.pending ≠ some (tx, u)) ∨
      d.pending = none ∧ ∀ u, d.committed = some u → ∃ c ∈ users, c.Version u) →
      UsersSound users' stage' := by
    intro cells d hd holder u held
    rcases cells d hd with ⟨kept, free⟩ | ⟨done, -⟩
    · rw [others holder (fun mine => free u (mine ▸ held))]
      exact sound d kept holder u held
    · exact nomatch done.symm.trans held
  cases moved with
  | quiet | login | succeed | rotate | hit | evict | aimAll => exact keep (fun _ resets => resets)
  | leave idle => exact keep (fun u resets => absurd resets (idle.not_resets u))
  | enter | read | aim => exact keep nofun
  | @change userId passwordHash _ row update =>
    have kept := keep nofun
    intro d hd holder u held
    rcases ReadCommitted.touch_cases update hd with old | ⟨c, hc, v, -, -, named, rfl⟩
    · exact kept d old holder u held
    · cases held
      rw [at']
      exact (of_decide_eq_true named).symm
  | commitRefresh | commitRevoke | commitReset | commitOther =>
    exact ending (fun _ => ReadCommitted.commit_ends)
  | rollback => exact ending (fun _ => ReadCommitted.rollback_ends)

/-- A commit leaves an active session that was committed before, or the successor that
its refresh has inserted. -/
theorem active_commit (sound : CellsSound sessions stage) {r : SessionRow}
    (stored : r ∈ committed (ReadCommitted.commit tx sessions)) (active : r.status = .active) :
    (∃ c ∈ sessions, c.committed = some r ∧ ∀ v, c.pending ≠ some (tx, v)) ∨
      ∃ session, stage tx = .rotated session r ∧ r.Succeeds session := by
  rcases ReadCommitted.committed_commit stored with before | ⟨c, hc, held⟩
  · exact .inl before
  · cases old : c.committed with
    | none => exact .inr (sound.child c hc tx r held old)
    | some r' =>
      rw [sound.revision c hc tx r r' held old] at active
      exact nomatch active

/-- A commit of a transaction that holds no user. -/
theorem users_commit (sound : UsersSound users stage) (others : ∀ userId, ¬ (stage tx).Resets userId)
    {u : UserAccount} (stored : u ∈ committed (ReadCommitted.commit tx users)) :
    u ∈ committed users := by
  rcases ReadCommitted.committed_commit stored with ⟨c, hc, before, -⟩ | ⟨c, hc, held⟩
  · exact mem_committed.mpr ⟨c, hc, before⟩
  · exact absurd (sound c hc tx u held) (others u.id)

theorem Evicted.rollback (evicted : Evicted users sessions) (tx : Nat) :
    Evicted (ReadCommitted.rollback tx users) (ReadCommitted.rollback tx sessions) := by
  rw [Evicted, ReadCommitted.committed_rollback, ReadCommitted.committed_rollback]
  exact evicted

theorem Evicted.move {st st' : Stage} (evicted : Evicted users sessions)
    (sound : Sound sessions stage) (usersSound : UsersSound users stage) (at_ : stage tx = st)
    (current : st.UpToDate users sessions) (moved : Move tx users sessions st st' users' sessions') :
    Evicted users' sessions' := by
  have same : committed users' = committed users → committed sessions' = committed sessions →
      Evicted users' sessions' := by
    intro users sessions
    rw [Evicted, users, sessions]
    exact evicted
  have stays : (∀ userId, ¬ st.Resets userId) → (∀ session r, st ≠ .rotated session r) →
      Evicted (ReadCommitted.commit tx users) (ReadCommitted.commit tx sessions) := by
    intro others apart r stored active u known owner
    rcases active_commit sound.cells stored active with ⟨c, hc, before, -⟩ | ⟨session, rotated, -⟩
    · exact evicted r (mem_committed.mpr ⟨c, hc, before⟩) active u
        (users_commit usersSound (at_.symm ▸ others) known) owner
    · exact absurd (at_.symm.trans rotated) (apart session r)
  cases moved with
  | quiet | leave | enter | read | aim | aimAll => exact evicted
  | login newId newToken =>
    intro r stored active u known owner
    rw [ReadCommitted.committed_insertNow, List.mem_append, List.mem_singleton] at stored
    rcases stored with before | rfl
    · exact evicted r before active u known owner
    · exact (current u known owner).symm
  | rotate update | hit update | evict update => exact same rfl (ReadCommitted.committed_touch update)
  | succeed => exact same rfl (ReadCommitted.committed_insert _ _ _)
  | change update => exact same (ReadCommitted.committed_touch update) rfl
  | commitRefresh session child =>
    intro r stored active u known owner
    have known := users_commit usersSound (at_.symm ▸ fun _ => id) known
    rcases active_commit sound.cells stored active with
      ⟨c, hc, before, -⟩ | ⟨session', rotated, expiresAt, id, refreshToken, rfl⟩
    · exact evicted r (mem_committed.mpr ⟨c, hc, before⟩) active u known owner
    · cases at_.symm.trans rotated
      exact (current u known owner).symm
  | commitRevoke token => exact stays (fun _ => id) (fun _ _ same => nomatch same)
  | commitOther => exact stays (fun _ => id) (fun _ _ same => nomatch same)
  | commitReset userId scanned =>
    intro r stored active u known owner
    rcases active_commit sound.cells stored active with ⟨c, hc, before, free⟩ | ⟨session, rotated, -⟩
    · -- the session survives, so it is not one of the user's
      have other : r.userId ≠ userId := by
        intro mine
        have listed := current r (mem_committed.mpr ⟨c, hc, before⟩) mine active
        have evicting := sound.stages tx
        rw [at_] at evicting
        have revoked := evicting.1 c hc r ((Cell.visible_other free).trans before) mine listed
          (List.not_mem_nil)
        exact nomatch active.symm.trans revoked
      rcases ReadCommitted.committed_commit known with ⟨d, hd, kept, -⟩ | ⟨d, hd, held⟩
      · exact evicted r (mem_committed.mpr ⟨c, hc, before⟩) active u (mem_committed.mpr ⟨d, hd, kept⟩)
          owner
      · have reset := usersSound d hd tx u held
        rw [at_] at reset
        exact absurd (owner.symm.trans reset.symm) other
    · exact nomatch at_.symm.trans rotated
  | rollback => exact evicted.rollback tx

namespace SessionsService

/-- The requests and sessions agree, and every session is up to date. -/
structure Current (s : SessionsService) : Prop where
  sound : s.Sound
  users : UsersSound s.db.users s.stage
  evicted : Evicted s.db.users s.db.sessions

/-- A statement that is taken while what its request has read still holds. -/
def UpToDate (s : SessionsService) : SessionsAction → Prop
  | .run i _ => (s.stage i).UpToDate s.db.users s.db.sessions
  | _ => True

instance (s : SessionsService) : ∀ a, Decidable (s.UpToDate a)
  | .run i _ => inferInstanceAs (Decidable ((s.stage i).UpToDate s.db.users s.db.sessions))
  | .tick _ | .login _ | .refreshToken _ | .revokeToken _ | .requestPasswordReset _
  | .resetPassword _ _ | .fail _ => inferInstanceAs (Decidable True)

theorem usersSound_registered (users : List UserAccount) :
    UsersSound (registered users).db.users (registered users).stage := by
  intro c hc tx u held
  obtain ⟨v, -, rfl⟩ := List.mem_map.mp hc
  exact nomatch held

theorem usersSound_step {lib : Credentials} {s t : SessionsService} {a : SessionsAction}
    (sound : UsersSound s.db.users s.stage) (h : s.step lib a = some t) :
    UsersSound t.db.users t.stage := by
  rcases moved_step h with ⟨db, stage⟩ | ⟨i, -, moved, others⟩
  · rw [db, stage]
    exact sound
  · exact sound.move rfl rfl others moved

theorem current_registered (users : List UserAccount) : (registered users).Current :=
  ⟨sound_registered users, usersSound_registered users, nofun⟩

theorem Current.step {lib : Credentials} {s t : SessionsService} {a : SessionsAction}
    (current : s.Current) (upToDate : s.UpToDate a) (h : s.step lib a = some t) : t.Current := by
  refine ⟨current.sound.step h, usersSound_step current.users h, ?_⟩
  rcases moved_step h with ⟨db, -⟩ | ⟨i, ⟨input, rfl⟩ | failed, moved, -⟩
  · rw [db]
    exact current.evicted
  · exact current.evicted.move current.sound current.users rfl upToDate moved
  · rw [failed]
    exact current.evicted.rollback i

/-- In every run whose statements are up to date, every state has no active session that
goes back to a password from before a committed reset. -/
theorem reset_evicts_sessions (lib : Credentials) (users : List UserAccount)
    {as : List SessionsAction} {s : SessionsService}
    (upToDate : Machine.Along (step lib) UpToDate (registered users) as)
    (h : Machine.run (step lib) (registered users) as = some s) :
    Evicted s.db.users s.db.sessions :=
  (Machine.invariant_along (fun _ _ _ => Current.step) (current_registered users) upToDate h).evicted

def oldPasswordHash : String :=
  "$argon2id$v=19$m=65536,t=2,p=1$c29tc2FsdA$CTFhFdXPJO1aFaMaO6Mm5c8y7cJHAph8ArZWb2GRPPc"

def newPasswordHash : String :=
  "$argon2id$v=19$m=65536,t=2,p=1$c29tc2FsdA$C4TWUs9rDEvq7w3+J4umqA32aWKB1+DSiRuBfYxFj94"

def sampleResetToken : String := "q5cVb1nT0mYxkRkz2oJ8eWl4uHs3aPdG7fIyCwXtB6E"

/-- Two passwords with their Argon2id hashes, and one token with its SHA-256. -/
def sampleCredentials : Credentials where
  toLowercasing := .latin
  verifyPassword password hash :=
    if password = "password" ∧ hash = oldPasswordHash ∨
      password = "differentpassword" ∧ hash = newPasswordHash then .ok ()
    else .error .unauthorized
  hashToken token :=
    if token = sampleResetToken then
      "15a83b6b527b98be9c2af81c4b1c063b754ddb6c0b277150f9c1b970fcacb876"
    else token

def sampleUser : UserAccount :=
  ⟨⟨⟨1⟩, ⟨2⟩, ⟨3⟩, "active"⟩, "ada@example.com", oldPasswordHash, 0⟩

def sampleEnvironment : EnvironmentRow := ⟨⟨3⟩, ⟨2⟩, "sandbox", "active"⟩

/-- The statements of a login before it inserts its session. -/
def loginVerified (i : Nat) (password : String) : List SessionsAction :=
  [.login ⟨sampleUser.email, password, none⟩, .run i .go, .run i (.environments [sampleEnvironment])]

/-- Request `i` asks for a reset, and request `i + 1` uses the token up to its commit. -/
def resetUpToCommit (i : Nat) (sessions : List Uuid) : List SessionsAction :=
  [.requestPasswordReset sampleUser.email, .run i .go, .run i .go, .run i .go, .run i .go,
    .run i (.random ⟨20⟩ sampleResetToken), .run i .go, .run i .go,
    .resetPassword sampleResetToken "differentpassword", .run (i + 1) .go, .run (i + 1) .go,
    .run (i + 1) .go, .run (i + 1) .go, .run (i + 1) .go, .run (i + 1) (.hashed newPasswordHash),
    .run (i + 1) .go, .run (i + 1) .go, .run (i + 1) .go] ++ sessions.map (fun _ => .run (i + 1) .go)

/-- A session from before the reset is revoked, and one from a later login is active. -/
theorem reset_evicts_sessions_later_login :
    ∃ s, Machine.run (step sampleCredentials) (registered [sampleUser])
        (loginVerified 0 "password" ++ [.run 0 (.random ⟨10⟩ "first")] ++
          resetUpToCommit 1 [⟨10⟩] ++ [.run 2 .go] ++
          loginVerified 3 "differentpassword" ++ [.run 3 (.random ⟨11⟩ "second")]) = some s ∧
      (committed s.db.sessions).map SessionRow.status = [.revoked, .active] ∧
      Evicted s.db.users s.db.sessions := by
  have evaluated : (Machine.run (step sampleCredentials) (registered [sampleUser])
      (loginVerified 0 "password" ++ [.run 0 (.random ⟨10⟩ "first")] ++
        resetUpToCommit 1 [⟨10⟩] ++ [.run 2 .go] ++
        loginVerified 3 "differentpassword" ++ [.run 3 (.random ⟨11⟩ "second")])).any (fun s =>
          (committed s.db.sessions).map SessionRow.status = [.revoked, .active]) = true := by
    decide +kernel
  obtain ⟨s, h, statuses⟩ := (Option.any_eq_true _ _).mp evaluated
  exact ⟨s, h, of_decide_eq_true statuses,
    reset_evicts_sessions sampleCredentials [sampleUser] (by decide +kernel) h⟩

/-- A login verifies the old password, a reset commits, and then the login inserts. -/
theorem old_password_session_survives :
    ¬ ∀ (lib : Credentials) (users : List UserAccount) (as : List SessionsAction)
      (s : SessionsService), Machine.run (step lib) (registered users) as = some s →
        Evicted s.db.users s.db.sessions := by
  intro claim
  have evaluated : (Machine.run (step sampleCredentials) (registered [sampleUser])
      (loginVerified 0 "password" ++ resetUpToCommit 1 [] ++
        [.run 2 .go, .run 0 (.random ⟨10⟩ "first")])).any (fun s =>
          ¬ Evicted s.db.users s.db.sessions) = true := by
    decide +kernel
  obtain ⟨s, h, survives⟩ := (Option.any_eq_true _ _).mp evaluated
  exact of_decide_eq_true survives (claim _ _ _ _ h)

end SessionsService

end RailsCore.UsersService
