import RailsCore.ResetTokens

/-!
# Password changes by reset tokens

A claim marks its token under the row's lock, and a password changes only with
the commit of the reset that has claimed a token, which makes the mark final.
So whoever interleaves with whom, a token is behind one committed change at
most, and a reset that fails leaves no trace.
-/

namespace RailsCore.UsersService

open ReadCommitted (Cell Cells committed touch mem_committed)

/-- What a claim of `claim_token_sql` marks with its next statement: its clock reading and
the token. -/
def SessionRequest.claim (lib : Credentials) (tx : Nat) (db : Database) :
    SessionRequest → Option (Nat × PasswordResetToken)
  | .resetPassword token _ (.claiming now (k :: _) _) => do
    let (_, row) ← touch PasswordResetToken.id tx k (claims now (lib.hashToken token))
      (PasswordResetToken.used now) db.tokens
    row.map (fun row => (now, row))
  | _ => none

/-- The token behind the password change that the next statement commits. -/
def SessionRequest.change : SessionRequest → Option PasswordResetToken
  | .resetPassword _ _ (.evicting token _ []) => some token
  | _ => none

/-- The tokens that a request has claimed. -/
def SessionRequest.claimed : SessionRequest → List PasswordResetToken
  | .resetPassword _ _ (.claiming _ _ claimed) => claimed
  | .resetPassword _ _ (.business token) | .resetPassword _ _ (.password token)
  | .resetPassword _ _ (.siblings token) | .resetPassword _ _ (.invalidating token _ _)
  | .resetPassword _ _ (.sessions token) | .resetPassword _ _ (.evicting token _ _) => [token]
  | _ => []

def SessionRequest.isReset : SessionRequest → Bool
  | .resetPassword _ _ _ => true
  | _ => false

/-- The committed rows of the three tables. -/
def Database.stored (db : Database) :
    List UserAccount × List SessionRow × List PasswordResetToken :=
  (committed db.users, committed db.sessions, committed db.tokens)

/-- The transaction holds no row. -/
structure Database.Released (db : Database) (tx : Nat) : Prop where
  users : ∀ c ∈ db.users, ∀ row, c.pending ≠ some (tx, row)
  sessions : ∀ c ∈ db.sessions, ∀ row, c.pending ≠ some (tx, row)
  tokens : ∀ c ∈ db.tokens, ∀ row, c.pending ≠ some (tx, row)

theorem stored_rollback (tx : Nat) (db : Database) : (db.rollback tx).stored = db.stored := by
  simp only [Database.stored, Database.rollback, ReadCommitted.committed_rollback]

/-- Only a claim makes a request claim a token. -/
theorem claimed_next {lib : Credentials} {now tx : Nat} {db db' : Database} {q q' : SessionRequest}
    {input : SessionInput} (next : q.next lib now tx db input = some (db', q'))
    {token : PasswordResetToken} (listed : token ∈ q'.claimed) :
    token ∈ q.claimed ∨ ∃ now', q.claim lib tx db = some (now', token) := by
  cases q with
  | login l point | refreshToken l point | revokeToken l point | requestPasswordReset l point =>
    obtain ⟨⟨after, point'⟩, -, same⟩ := Option.bind_eq_some_iff.mp next
    cases same
    exact absurd listed List.not_mem_nil
  | resetPassword plain newPassword point =>
    obtain ⟨⟨after, point'⟩, one, same⟩ := Option.bind_eq_some_iff.mp next
    cases same
    unfold resetNext at one
    split at one
    · split at one <;> cases one <;> exact absurd listed List.not_mem_nil
    · cases one
      exact absurd listed List.not_mem_nil
    · rename_i now' k remaining claimed
      obtain ⟨⟨tokens, row⟩, update, one⟩ := Option.bind_eq_some_iff.mp one
      cases one
      rcases List.mem_append.mp listed with before | new
      · exact .inl before
      · refine .inr ⟨now', ?_⟩
        rw [SessionRequest.claim, update, Option.mem_toList.mp new]
        rfl
    · cases one
      exact absurd listed List.not_mem_nil
    · cases one
      rw [List.mem_singleton.mp listed]
      exact .inl List.mem_cons_self
    · split at one <;> cases one
      · exact absurd listed List.not_mem_nil
      · exact .inl listed
    · obtain ⟨⟨users, row⟩, -, one⟩ := Option.bind_eq_some_iff.mp one
      cases one
      exact .inl listed
    · cases one
      exact .inl listed
    · obtain ⟨⟨tokens, row⟩, -, one⟩ := Option.bind_eq_some_iff.mp one
      cases one
      exact .inl listed
    · cases one
      exact .inl listed
    · cases one
      exact .inl listed
    · obtain ⟨⟨sessions, row⟩, -, one⟩ := Option.bind_eq_some_iff.mp one
      cases one
      exact .inl listed
    · cases one
      exact absurd listed List.not_mem_nil
    · exact nomatch one

/-- A statement of a reset that commits no change leaves the committed rows alone. -/
theorem stored_next {lib : Credentials} {now tx : Nat} {db db' : Database} {q q' : SessionRequest}
    {input : SessionInput} (next : q.next lib now tx db input = some (db', q'))
    (reset : q.isReset = true) (unchanged : q.change = none) : db'.stored = db.stored := by
  cases q with
  | login l point | refreshToken l point | revokeToken l point | requestPasswordReset l point =>
    exact nomatch reset
  | resetPassword plain newPassword point =>
    obtain ⟨⟨after, point'⟩, one, same⟩ := Option.bind_eq_some_iff.mp next
    cases same
    unfold resetNext at one
    split at one
    · split at one <;> cases one <;> rfl
    · cases one
      rfl
    · obtain ⟨⟨tokens, row⟩, update, one⟩ := Option.bind_eq_some_iff.mp one
      cases one
      rw [Database.stored, ReadCommitted.committed_touch update, Database.stored]
    · cases one
      exact stored_rollback tx db
    · cases one
      rfl
    · split at one <;> cases one
      · exact stored_rollback tx db
      · rfl
    · obtain ⟨⟨users, row⟩, update, one⟩ := Option.bind_eq_some_iff.mp one
      cases one
      rw [Database.stored, ReadCommitted.committed_touch update, Database.stored]
    · cases one
      rfl
    · obtain ⟨⟨tokens, row⟩, update, one⟩ := Option.bind_eq_some_iff.mp one
      cases one
      rw [Database.stored, ReadCommitted.committed_touch update, Database.stored]
    · cases one
      rfl
    · cases one
      rfl
    · obtain ⟨⟨sessions, row⟩, update, one⟩ := Option.bind_eq_some_iff.mp one
      cases one
      rw [Database.stored, ReadCommitted.committed_touch update, Database.stored]
    · exact nomatch unchanged
    · exact nomatch one

/-- A change commits what its transaction holds, and the reset succeeds. -/
theorem change_next {lib : Credentials} {now tx : Nat} {db db' : Database} {q q' : SessionRequest}
    {input : SessionInput} {token : PasswordResetToken} (changes : q.change = some token)
    (next : q.next lib now tx db input = some (db', q')) :
    q.tokenStage = .claimed token ∧ token ∈ q.claimed ∧ db' = db.commit tx ∧
      ∃ plain newPassword, q' = .resetPassword plain newPassword (.done (.ok ())) := by
  unfold SessionRequest.change at changes
  split at changes
  · cases changes
    cases input with
    | go =>
      cases next
      exact ⟨rfl, List.mem_cons_self, rfl, _, _, rfl⟩
    | environments | random | hashed => exact nomatch next
  · exact nomatch changes

/-- A reset that has revoked its snapshot of sessions is about to commit its change. -/
theorem evicted_change {q : SessionRequest} {userId : Uuid} {scanned : List Uuid}
    (at_ : q.stage = .evicting userId scanned []) : q.change ≠ none := by
  unfold SessionRequest.stage at at_
  split at at_ <;> cases at_
  exact nofun

/-- Without a password change the committed users stay. -/
theorem Move.users {tx : Nat} {users users' : Cells UserAccount} {sessions sessions' : Cells SessionRow}
    {stage : Nat → Stage} {st st' : Stage} (moved : Move tx users sessions st st' users' sessions')
    (sound : UsersSound users stage) (at_ : stage tx = st)
    (unchanged : ∀ userId scanned, st ≠ .evicting userId scanned []) :
    committed users' = committed users := by
  have idle : (∀ userId, ¬ st.Resets userId) →
      committed (ReadCommitted.commit tx users) = committed users := by
    intro others
    rw [ReadCommitted.commit_idle fun c hc u held => others u.id (at_ ▸ sound c hc tx u held)]
  cases moved with
  | quiet | leave | enter | read | login | rotate | succeed | aim | hit | aimAll | evict => rfl
  | change update => exact ReadCommitted.committed_touch update
  | commitRefresh | commitRevoke | commitOther => exact idle fun _ => id
  | commitReset userId scanned => exact absurd rfl (unchanged userId scanned)
  | rollback => exact ReadCommitted.committed_rollback tx users

namespace SessionsService

def claimedToken (lib : Credentials) (s : SessionsService) :
    SessionsAction → Option (Nat × Nat × PasswordResetToken)
  | .run i _ => (s.requests[i]?.bind (SessionRequest.claim lib i s.db)).map (fun claim => (i, claim))
  | _ => none

def passwordChange (s : SessionsService) : SessionsAction → Option (Nat × PasswordResetToken)
  | .run i _ => (s.requests[i]?.bind SessionRequest.change).map (fun token => (i, token))
  | _ => none

/-- The request that an action moves. -/
def mover (s : SessionsService) : SessionsAction → Option SessionRequest
  | .run i _ | .fail i => s.requests[i]?
  | _ => none

/-- A run in which each token is behind one password change at most, claimed in time and
unspent, and in which a failed reset changes nothing. -/
structure SpentOnce (lib : Credentials) (start : SessionsService) (as : List SessionsAction)
    (s : SessionsService) : Prop where
  once : ((Machine.trace (step lib) passwordChange start as).map (fun change => change.2.id)).Nodup
  claimed : ∀ i token, (i, token) ∈ Machine.trace (step lib) passwordChange start as →
    ∃ now, (i, now, token) ∈ Machine.trace (step lib) (claimedToken lib) start as
  inTime : ∀ i now token, (i, now, token) ∈ Machine.trace (step lib) (claimedToken lib) start as →
    now ≤ token.expiresAt
  unspent : ∀ first later a rest e m, as = first ++ (later ++ a :: rest) →
    Machine.run (step lib) start first = some e → Machine.run (step lib) e later = some m →
    ∀ i now token, claimedToken lib m a = some (i, now, token) →
      ∀ r ∈ committed e.db.tokens, r.id = token.id → r.usedAt = none
  only : ∀ before a after m t, as = before ++ a :: after →
    Machine.run (step lib) start before = some m → m.step lib a = some t →
    passwordChange m a = none → committed t.db.users = committed m.db.users ∧
      ((m.mover a).any SessionRequest.isReset = true → t.db.stored = m.db.stored)
  failed : ∀ i plain newPassword e,
    s.requests[i]? = some (.resetPassword plain newPassword (.done (.error e))) →
      s.db.Released i ∧
        ∀ token, (i, token) ∉ Machine.trace (step lib) passwordChange start as

/-- The requests agree with all three tables. -/
structure TablesSound (s : SessionsService) : Prop where
  sessions : s.Sound
  users : UsersSound s.db.users s.stage
  tokens : TokensSound s.db.tokens s.tokenStage

theorem tablesSound_registered (users : List UserAccount) : (registered users).TablesSound :=
  ⟨sound_registered users, usersSound_registered users, tokensSound_registered users⟩

theorem TablesSound.step {lib : Credentials} {s t : SessionsService} {a : SessionsAction}
    (sound : s.TablesSound) (h : s.step lib a = some t) : t.TablesSound :=
  ⟨sound.sessions.step h, usersSound_step sound.users h, tokensSound_step sound.tokens h⟩

theorem TablesSound.run {lib : Credentials} {s t : SessionsService} {as : List SessionsAction}
    (sound : s.TablesSound) (h : Machine.run (SessionsService.step lib) s as = some t) :
    t.TablesSound :=
  Machine.invariant_run (fun _ _ _ => TablesSound.step) sound h

/-- A request that has returned holds no row. -/
theorem TablesSound.released {s : SessionsService} (sound : s.TablesSound) {i : Nat}
    {q : SessionRequest} (at_ : s.requests[i]? = some q) (idle : q.stage = .nothing)
    (tokenless : q.tokenStage = .nothing) : s.db.Released i := by
  have stage : s.stage i = .nothing := (stage_of at_).trans idle
  refine ⟨fun c hc u held => ?_, fun c hc r held => ?_, fun c hc r held => ?_⟩
  · have resets := sound.users c hc i u held
    rw [stage] at resets
    exact resets
  · have busy := sound.sessions.cells.busy c hc i r held
    rw [stage] at busy
    exact busy trivial
  · exact sound.tokens.busy c hc i r held ((view_of at_).trans tokenless)

/-- A used token stays as it is. -/
theorem used_step {lib : Credentials} {s t : SessionsService} {a : SessionsAction}
    (sound : s.TablesSound) (h : s.step lib a = some t) {r : PasswordResetToken}
    (stored : r ∈ committed s.db.tokens) (used : r.usedAt ≠ none) : r ∈ committed t.db.tokens := by
  rcases tokens_step h with ⟨db, -⟩ | ⟨i, -, moved, -⟩
  · exact db.symm ▸ stored
  · obtain ⟨r', stored', rfl | ⟨unused, -⟩⟩ := sound.tokens.later moved stored
    · exact stored'
    · exact absurd unused used

theorem used_run {lib : Credentials} {s t : SessionsService} {as : List SessionsAction}
    (sound : s.TablesSound) (h : Machine.run (step lib) s as = some t) {r : PasswordResetToken}
    (stored : r ∈ committed s.db.tokens) (used : r.usedAt ≠ none) : r ∈ committed t.db.tokens := by
  have kept : ∀ (s : SessionsService) a t, (s.TablesSound ∧ r ∈ committed s.db.tokens) →
      s.step lib a = some t → t.TablesSound ∧ r ∈ committed t.db.tokens :=
    fun _ _ _ ⟨sound, stored⟩ h => ⟨sound.step h, used_step sound h stored used⟩
  exact (Machine.invariant_run kept ⟨sound, stored⟩ h).2

/-- A request that has returned takes no further statement. -/
theorem returned_step {lib : Credentials} {s t : SessionsService} {a : SessionsAction}
    (h : s.step lib a = some t) {i : Nat} {q : SessionRequest} (at_ : s.requests[i]? = some q)
    (returned : q.failed = none) (still : ∀ now tx db input, q.next lib now tx db input = none) :
    t.requests[i]? = some q := by
  rcases step_cases h with ⟨-, -, same | ⟨q', -, started⟩⟩ | ⟨j, q', q'', at_', set, taken⟩
  · rw [same]
    exact at_
  · rw [started, List.getElem?_append_left (List.getElem?_eq_some_iff.mp at_).1]
    exact at_
  · by_cases mine : j = i
    · subst mine
      obtain rfl : q' = q := Option.some.inj (at_'.symm.trans at_)
      rcases taken with ⟨input, -, next⟩ | ⟨-, failed, -⟩
      · exact nomatch (still _ _ _ _).symm.trans next
      · exact nomatch returned.symm.trans failed
    · rw [set, List.getElem?_set_ne mine]
      exact at_

/-- The changes so far: no token twice, each of them used for good, each reset successful. -/
structure Changed (past : List (Nat × PasswordResetToken)) (s : SessionsService) : Prop where
  sound : s.TablesSound
  once : (past.map (fun change => change.2.id)).Nodup
  used : ∀ change ∈ past, ∃ r ∈ committed s.db.tokens, r.id = change.2.id ∧ r.usedAt ≠ none
  succeeded : ∀ change ∈ past, ∃ plain newPassword,
    s.requests[change.1]? = some (.resetPassword plain newPassword (.done (.ok ())))

/-- What a step that commits a password change does. -/
theorem passwordChange_step {lib : Credentials} {s t : SessionsService} {a : SessionsAction}
    {i : Nat} {token : PasswordResetToken} (changes : s.passwordChange a = some (i, token))
    (h : s.step lib a = some t) :
    s.tokenStage i = .claimed token ∧ (∃ q, s.requests[i]? = some q ∧ token ∈ q.claimed) ∧
      t.db = s.db.commit i ∧ ∃ plain newPassword,
        t.requests[i]? = some (.resetPassword plain newPassword (.done (.ok ()))) := by
  unfold passwordChange at changes
  split at changes
  · rename_i j input
    obtain ⟨token', changed, same⟩ := Option.map_eq_some_iff.mp changes
    cases same
    obtain ⟨q, at_, changed⟩ := Option.bind_eq_some_iff.mp changed
    obtain ⟨q', at', h⟩ := Option.bind_eq_some_iff.mp h
    obtain rfl : q = q' := Option.some.inj (at_.symm.trans at')
    obtain ⟨⟨db, q'⟩, next, h⟩ := Option.bind_eq_some_iff.mp h
    cases h
    obtain ⟨stage, listed, db, plain, newPassword, rfl⟩ := change_next changed next
    refine ⟨(view_of at_).trans stage, ⟨q, at_, listed⟩, db, plain, newPassword, ?_⟩
    exact List.getElem?_set_self (List.getElem?_eq_some_iff.mp at_).1
  · exact nomatch changes

theorem Changed.step {lib : Credentials} {past : List (Nat × PasswordResetToken)}
    {s t : SessionsService} {a : SessionsAction} (changed : Changed past s)
    (h : s.step lib a = some t) : Changed (past ++ (s.passwordChange a).toList) t := by
  have used : ∀ change ∈ past, ∃ r ∈ committed t.db.tokens, r.id = change.2.id ∧
      r.usedAt ≠ none := by
    intro change listed
    obtain ⟨r, stored, same, used⟩ := changed.used change listed
    exact ⟨r, used_step changed.sound h stored used, same, used⟩
  have succeeded : ∀ change ∈ past, ∃ plain newPassword,
      t.requests[change.1]? = some (.resetPassword plain newPassword (.done (.ok ()))) := by
    intro change listed
    obtain ⟨plain, newPassword, at_⟩ := changed.succeeded change listed
    exact ⟨plain, newPassword, returned_step h at_ rfl fun _ _ _ input => by cases input <;> rfl⟩
  cases changes : s.passwordChange a with
  | none =>
    rw [Option.toList_none, List.append_nil]
    exact ⟨changed.sound.step h, changed.once, used, succeeded⟩
  | some change =>
    obtain ⟨i, token⟩ := change
    obtain ⟨stage, -, db, done⟩ := passwordChange_step changes h
    have own := changed.sound.tokens.stages i
    rw [stage] at own
    obtain ⟨c, hc, r, now, stored, unused, rfl, -, held⟩ := own
    rw [Option.toList_some]
    refine ⟨changed.sound.step h, ?_, ?_, ?_⟩
    · -- the token was still unused, unlike those behind the earlier changes
      have fresh : ∀ change ∈ past, change.2.id ≠ r.id := by
        intro change listed same
        obtain ⟨r', stored', same', used'⟩ := changed.used change listed
        obtain rfl := changed.sound.tokens.ids.unique stored' (mem_committed.mpr ⟨c, hc, stored⟩)
          (same'.trans same)
        exact used' unused
      rw [List.map_append, List.nodup_append]
      refine ⟨changed.once, List.nodup_singleton _, ?_⟩
      intro id listed id' listed' same
      obtain ⟨change, earlier, rfl⟩ := List.mem_map.mp listed
      exact fresh change earlier (same.trans (List.mem_singleton.mp listed'))
    · intro change listed
      rcases List.mem_append.mp listed with before | now'
      · exact used change before
      · obtain rfl := List.mem_singleton.mp now'
        refine ⟨r.used now, ?_, rfl, nofun⟩
        rw [db]
        exact mem_committed.mpr ⟨_, ReadCommitted.mem_commit.mpr ⟨c, hc, Cell.commit_own held⟩, rfl⟩
    · intro change listed
      rcases List.mem_append.mp listed with before | now'
      · exact succeeded change before
      · obtain rfl := List.mem_singleton.mp now'
        exact done

/-- Every token that a request has claimed is among the claims so far. -/
def Traced (past : List (Nat × Nat × PasswordResetToken)) (s : SessionsService) : Prop :=
  ∀ i q, s.requests[i]? = some q → ∀ token ∈ q.claimed, ∃ now, (i, now, token) ∈ past

theorem fresh_claimed {q : SessionRequest} (fresh : q.Fresh) : q.claimed = [] := by
  rcases fresh with ⟨l, rfl⟩ | ⟨token, rfl⟩ | ⟨token, rfl⟩ | ⟨email, rfl⟩ |
    ⟨token, newPassword, rfl⟩ <;> rfl

theorem failed_claimed {q q' : SessionRequest} (failed : q.failed = some q') : q'.claimed = [] := by
  unfold SessionRequest.failed at failed
  split at failed <;> cases failed <;> rfl

theorem Traced.step {lib : Credentials} {past : List (Nat × Nat × PasswordResetToken)}
    {s t : SessionsService} {a : SessionsAction} (traced : Traced past s)
    (h : s.step lib a = some t) : Traced (past ++ (claimedToken lib s a).toList) t := by
  have old : ∀ i q, s.requests[i]? = some q → ∀ token ∈ q.claimed,
      ∃ now, (i, now, token) ∈ past ++ (claimedToken lib s a).toList := by
    intro i q at_ token listed
    obtain ⟨now, earlier⟩ := traced i q at_ token listed
    exact ⟨now, List.mem_append_left _ earlier⟩
  intro i q at_ token listed
  rcases step_cases h with ⟨-, -, same | ⟨q', fresh, started⟩⟩ | ⟨j, q', q'', at_', set, taken⟩
  · exact old i q (same ▸ at_) token listed
  · rw [started, List.getElem?_append] at at_
    split at at_
    · exact old i q at_ token listed
    · obtain rfl : q = q' := by simpa using List.mem_of_getElem? at_
      rw [fresh_claimed fresh] at listed
      exact absurd listed List.not_mem_nil
  · rw [set] at at_
    rcases Machine.replaced_cases at_' at_ with ⟨rfl, rfl⟩ | ⟨-, at_⟩
    · rcases taken with ⟨input, rfl, next⟩ | ⟨-, failed, -⟩
      · rcases claimed_next next listed with before | ⟨now, claim⟩
        · exact old i q' at_' token before
        · refine ⟨now, List.mem_append_right _ (Option.mem_toList.mpr ?_)⟩
          rw [claimedToken, at_', Option.bind_some, claim]
          rfl
      · rw [failed_claimed failed] at listed
        exact absurd listed List.not_mem_nil
    · exact old i q at_ token listed

/-- A claim marks a token that is unused and has not expired. -/
theorem claimedToken_unused {lib : Credentials} {s : SessionsService} {a : SessionsAction}
    {i now : Nat} {token : PasswordResetToken} (sound : s.TablesSound)
    (claim : claimedToken lib s a = some (i, now, token)) :
    now ≤ token.expiresAt ∧ ∃ r ∈ committed s.db.tokens, r.id = token.id ∧ r.usedAt = none := by
  unfold claimedToken at claim
  split at claim
  · rename_i j input
    obtain ⟨⟨now', token'⟩, claim, same⟩ := Option.map_eq_some_iff.mp claim
    cases same
    obtain ⟨q, at_, claim⟩ := Option.bind_eq_some_iff.mp claim
    unfold SessionRequest.claim at claim
    split at claim
    · rename_i plain newPassword now' k remaining rows
      obtain ⟨⟨tokens, row⟩, update, claim⟩ := Option.bind_eq_some_iff.mp claim
      obtain ⟨token, rfl, same⟩ := Option.map_eq_some_iff.mp claim
      cases same
      obtain ⟨c, hc, row, seen, passes, rfl, -⟩ := ReadCommitted.touch_result update
      obtain ⟨-, unused, inTime⟩ := of_decide_eq_true passes
      have stage : s.tokenStage i = .claiming rows := view_of at_
      have apart : ∀ u, s.tokenStage i ≠ .issued u := by
        rw [stage]
        exact nofun
      obtain ⟨stored, -⟩ := sound.tokens.seen_unused apart hc seen unused
      exact ⟨inTime, row, mem_committed.mpr ⟨c, hc, stored⟩, rfl, unused⟩
    · exact nomatch claim
  · exact nomatch claim

/-- A step that changes no password leaves the committed users alone, and if it is a step
of a reset, all that is committed. -/
theorem unchanged_step {lib : Credentials} {s t : SessionsService} {a : SessionsAction}
    (sound : s.TablesSound) (h : s.step lib a = some t) (unchanged : s.passwordChange a = none) :
    committed t.db.users = committed s.db.users ∧
      ((s.mover a).any SessionRequest.isReset = true → t.db.stored = s.db.stored) := by
  rcases step_cases h with ⟨db, -, -⟩ | ⟨i, q, q', at_, -, ⟨input, rfl, next⟩ | ⟨-, -, db⟩⟩
  · rw [db]
    exact ⟨rfl, fun _ => rfl⟩
  · have unchanged : q.change = none := by simpa [passwordChange, at_] using unchanged
    refine ⟨(next_move next).users sound.users (stage_of at_) ?_, fun reset => ?_⟩
    · exact fun userId scanned same => evicted_change same unchanged
    · refine stored_next next ?_ unchanged
      simpa [mover, at_] using reset
  · rw [db]
    exact ⟨ReadCommitted.committed_rollback i s.db.users, fun _ => stored_rollback i s.db⟩

/-- In every run each token is behind at most one password change, claimed in time and
unspent, and a failed reset has changed nothing. -/
theorem token_changes_password_once (lib : Credentials) (users : List UserAccount)
    {as : List SessionsAction} {s : SessionsService}
    (h : Machine.run (step lib) (registered users) as = some s) :
    SpentOnce lib (registered users) as s := by
  have start := tablesSound_registered users
  have changed : Changed (Machine.trace (step lib) passwordChange (registered users) as) s := by
    have none_yet : Changed [] (registered users) := ⟨start, List.nodup_nil, nofun, nofun⟩
    exact Machine.invariant_trace (fun _ _ _ _ => Changed.step) none_yet h
  refine ⟨changed.once, ?_, ?_, ?_, ?_, ?_⟩
  · intro i token listed
    obtain ⟨before, a, after, m, rfl, first, changes⟩ := Machine.mem_trace listed
    obtain ⟨t, taken, -⟩ := Machine.run_split first h
    have traced : Traced (Machine.trace (step lib) (claimedToken lib) (registered users) before) m :=
      Machine.invariant_trace (fun _ _ _ _ => Traced.step) (fun _ _ none => nomatch none) first
    obtain ⟨-, ⟨q, at_, claimed⟩, -⟩ := passwordChange_step changes taken
    obtain ⟨now, earlier⟩ := traced i q at_ token claimed
    refine ⟨now, ?_⟩
    rw [Machine.trace_append first]
    exact List.mem_append_left _ earlier
  · intro i now token listed
    obtain ⟨before, a, after, m, -, first, claim⟩ := Machine.mem_trace listed
    exact (claimedToken_unused (start.run first) claim).1
  · intro first later a rest e m _ hfirst hlater i now token claim r stored same
    have sound := start.run hfirst
    obtain ⟨-, r', stored', same', unused⟩ := claimedToken_unused (sound.run hlater) claim
    by_contra used
    obtain rfl := (sound.run hlater).tokens.ids.unique (used_run sound hlater stored used) stored'
      (same.trans same'.symm)
    exact used unused
  · intro before a after m t _ first taken unchanged
    exact unchanged_step (start.run first) taken unchanged
  · intro i plain newPassword e at_
    refine ⟨changed.sound.released at_ rfl rfl, fun token listed => ?_⟩
    obtain ⟨plain', newPassword', done⟩ := changed.succeeded _ listed
    exact nomatch at_.symm.trans done

/-- A second reset with the token fails, and the first has changed the password. -/
theorem token_changes_password_once_reused :
    ∃ s, Machine.run (step sampleCredentials) (registered [sampleUser])
        (resetUpToCommit 0 [] ++ [.run 1 .go, .resetPassword sampleResetToken "password", .run 2 .go,
          .run 2 .go, .run 2 .go]) = some s ∧
      (committed s.db.users).map UserAccount.passwordHash = [newPasswordHash] ∧
      s.requests[2]? = some (.resetPassword sampleResetToken "password"
        (.done (.error (.badRequest "Invalid or expired reset token")))) ∧
      SpentOnce sampleCredentials (registered [sampleUser])
        (resetUpToCommit 0 [] ++ [.run 1 .go, .resetPassword sampleResetToken "password", .run 2 .go,
          .run 2 .go, .run 2 .go]) s := by
  have evaluated : (Machine.run (step sampleCredentials) (registered [sampleUser])
      (resetUpToCommit 0 [] ++ [.run 1 .go, .resetPassword sampleResetToken "password", .run 2 .go,
        .run 2 .go, .run 2 .go])).any (fun s =>
          (committed s.db.users).map UserAccount.passwordHash = [newPasswordHash] ∧
          s.requests[2]? = some (.resetPassword sampleResetToken "password"
            (.done (.error (.badRequest "Invalid or expired reset token"))))) = true := by
    decide +kernel
  obtain ⟨s, h, answers⟩ := (Option.any_eq_true _ _).mp evaluated
  obtain ⟨changed, refused⟩ := of_decide_eq_true answers
  exact ⟨s, h, changed, refused, token_changes_password_once sampleCredentials [sampleUser] h⟩

end SessionsService

end RailsCore.UsersService
