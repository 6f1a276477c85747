import RailsCore.SessionsService

/-!
# What a request does to sessions and passwords

Every statement of the five requests, seen from the tables of users and
sessions: most of them leave both alone, and the rest are one of the moves
listed here. The stage of a request keeps what it has read or written so far
and still depends on.
-/

namespace RailsCore.UsersService

open ReadCommitted (Cells committed scan touch unused Unused)

inductive Stage where
  | nothing
  | entering (userId : Uuid) (generation : Nat)
  | reading (session : SessionRow)
  | rotating (session : SessionRow)
  | rotated (session child : SessionRow)
  | revoking (token : String) (hit : Bool)
  | revoked (token : String)
  | changed (userId : Uuid)
  | evicting (userId : Uuid) (scanned remaining : List Uuid)

def SessionRequest.stage : SessionRequest → Stage
  | .login _ (.insert userId _ generation _) => .entering userId generation
  | .refreshToken _ (.business session) | .refreshToken _ (.update session _) => .reading session
  | .refreshToken _ (.insert session _) => .rotating session
  | .refreshToken _ (.commit session child) => .rotated session child
  | .revokeToken token (.updating _ affected) => .revoking token (affected ≠ 0)
  | .revokeToken token (.done (.ok ())) => .revoked token
  | .resetPassword _ _ (.siblings token) | .resetPassword _ _ (.invalidating token _ _)
  | .resetPassword _ _ (.sessions token) => .changed token.userId
  | .resetPassword _ _ (.evicting token scanned remaining) => .evicting token.userId scanned remaining
  | _ => .nothing

/-- The stages in which a request holds no user and no session. -/
def Stage.Idle : Stage → Prop
  | .nothing | .entering _ _ | .reading _ | .revoking _ false | .revoked _ => True
  | _ => False

/-- One statement of the transaction `tx`: its stage, the users and the sessions, before and after. -/
inductive Move (tx : Nat) (users : Cells UserAccount) (sessions : Cells SessionRow) :
    Stage → Stage → Cells UserAccount → Cells SessionRow → Prop where
  | quiet (stage) : Move tx users sessions stage stage users sessions
  | leave {stage} (idle : stage.Idle) : Move tx users sessions stage .nothing users sessions
  | enter (userId generation) :
      Move tx users sessions .nothing (.entering userId generation) users sessions
  | read {session} (stored : session ∈ committed sessions) :
      Move tx users sessions .nothing (.reading session) users sessions
  | login {userId environmentId generation expiresAt id refreshToken}
      (newId : Unused SessionRow.id id sessions)
      (newToken : Unused SessionRow.refreshToken refreshToken sessions) :
      Move tx users sessions (.entering userId generation) .nothing users
        (ReadCommitted.insertNow
          (loginSession userId environmentId generation expiresAt id refreshToken) sessions)
  | rotate {session sessions' row}
      (update : touch SessionRow.id tx session.id (fun r => r.id = session.id) SessionRow.revoked
        sessions = some (sessions', row)) :
      Move tx users sessions (.reading session) (.rotating session) users sessions'
  | succeed {session expiresAt id refreshToken} (newId : Unused SessionRow.id id sessions)
      (newToken : Unused SessionRow.refreshToken refreshToken sessions) :
      Move tx users sessions (.rotating session)
        (.rotated session (refreshedSession session expiresAt id refreshToken)) users
        (ReadCommitted.insert tx (refreshedSession session expiresAt id refreshToken) sessions)
  | aim (token) : Move tx users sessions .nothing (.revoking token false) users sessions
  | hit {token k hit sessions' row}
      (update : touch SessionRow.id tx k (revokes token) SessionRow.revoked sessions =
        some (sessions', row)) :
      Move tx users sessions (.revoking token hit) (.revoking token (hit || row.isSome)) users sessions'
  | change {userId passwordHash users' row}
      (update : touch (fun u : UserAccount => u.id) tx userId (fun u => u.id = userId)
        (withPassword passwordHash) users = some (users', row)) :
      Move tx users sessions .nothing (.changed userId) users' sessions
  | aimAll (userId) : Move tx users sessions (.changed userId)
      (.evicting userId (scan SessionRow.id tx (evicts userId) sessions)
        (scan SessionRow.id tx (evicts userId) sessions)) users sessions
  | evict {userId scanned k remaining sessions' row}
      (update : touch SessionRow.id tx k (evicts userId) SessionRow.revoked sessions =
        some (sessions', row)) :
      Move tx users sessions (.evicting userId scanned (k :: remaining))
        (.evicting userId scanned remaining) users sessions'
  | commitRefresh (session child) : Move tx users sessions (.rotated session child) .nothing
      (ReadCommitted.commit tx users) (ReadCommitted.commit tx sessions)
  | commitRevoke (token) : Move tx users sessions (.revoking token true) (.revoked token)
      (ReadCommitted.commit tx users) (ReadCommitted.commit tx sessions)
  | commitReset (userId scanned) : Move tx users sessions (.evicting userId scanned []) .nothing
      (ReadCommitted.commit tx users) (ReadCommitted.commit tx sessions)
  | commitOther : Move tx users sessions .nothing .nothing
      (ReadCommitted.commit tx users) (ReadCommitted.commit tx sessions)
  | rollback (stage) : Move tx users sessions stage .nothing
      (ReadCommitted.rollback tx users) (ReadCommitted.rollback tx sessions)

theorem login_move {lib : Credentials} {now tx : Nat} {q : LoginRequest} {db db' : Database}
    {point point' : LoginPoint} {input : SessionInput}
    (next : loginNext lib now q db point input = some (db', point')) :
    Move tx db.users db.sessions (SessionRequest.login q point).stage
      (SessionRequest.login q point').stage db'.users db'.sessions := by
  unfold loginNext at next
  split at next
  · dsimp only at next
    split at next
    · cases next
      exact .quiet .nothing
    · split at next <;> cases next <;> exact .quiet .nothing
  · split at next
    · split at next
      · cases next
        exact .quiet .nothing
      · split at next
        · cases next
          exact .quiet .nothing
        · cases next
          exact .enter _ _
    · exact nomatch next
  · split at next
    · rename_i fresh
      cases next
      exact .login (ReadCommitted.unused_iff.mp fresh.1) (ReadCommitted.unused_iff.mp fresh.2)
    · exact nomatch next
  · exact nomatch next

theorem refresh_move {now tx : Nat} {token : String} {db db' : Database}
    {point point' : RefreshPoint} {input : SessionInput}
    (next : refreshNext now tx token db point input = some (db', point')) :
    Move tx db.users db.sessions (SessionRequest.refreshToken token point).stage
      (SessionRequest.refreshToken token point').stage db'.users db'.sessions := by
  unfold refreshNext at next
  split at next
  · split at next
    · cases next
      exact .quiet .nothing
    · rename_i session found
      split at next <;> cases next
      · exact .quiet .nothing
      · exact .read (List.mem_of_find?_eq_some found)
  · split at next <;> cases next
    · exact .leave trivial
    · exact .quiet _
  · obtain ⟨⟨sessions, row⟩, update, next⟩ := Option.bind_eq_some_iff.mp next
    cases next
    exact .rotate update
  · split at next
    · rename_i fresh
      cases next
      exact .succeed (ReadCommitted.unused_iff.mp fresh.1) (ReadCommitted.unused_iff.mp fresh.2)
    · exact nomatch next
  · cases next
    exact .commitRefresh _ _
  · exact nomatch next

theorem revoke_move {tx : Nat} {token : String} {db db' : Database}
    {point point' : RevokePoint} {input : SessionInput}
    (next : revokeNext tx token db point input = some (db', point')) :
    Move tx db.users db.sessions (SessionRequest.revokeToken token point).stage
      (SessionRequest.revokeToken token point').stage db'.users db'.sessions := by
  unfold revokeNext at next
  split at next
  · split at next <;> cases next <;> exact .quiet .nothing
  · cases next
    exact .aim token
  · rename_i k remaining affected
    obtain ⟨⟨sessions, row⟩, update, next⟩ := Option.bind_eq_some_iff.mp next
    cases next
    have counted : decide ((if row.isSome then affected + 1 else affected) ≠ 0) =
        (decide (affected ≠ 0) || row.isSome) := by
      cases row <;> simp
    simp only [SessionRequest.stage, counted]
    exact .hit update
  · rename_i affected
    split at next <;> cases next
    · rename_i none
      simp only [SessionRequest.stage, none]
      exact .leave trivial
    · rename_i some
      simp only [SessionRequest.stage, ne_eq, some, not_false_eq_true, decide_true]
      exact .commitRevoke token
  · exact nomatch next

theorem requestReset_move {lib : Credentials} {now tx : Nat} {email : String} {db db' : Database}
    {point point' : RequestResetPoint} {input : SessionInput}
    (next : requestResetNext lib now tx email db point input = some (db', point')) :
    Move tx db.users db.sessions (SessionRequest.requestPasswordReset email point).stage
      (SessionRequest.requestPasswordReset email point').stage db'.users db'.sessions := by
  unfold requestResetNext at next
  split at next
  · split at next <;> cases next <;> exact .quiet .nothing
  · cases next
    exact .quiet .nothing
  · cases next
    exact .quiet .nothing
  · obtain ⟨⟨tokens, row⟩, -, next⟩ := Option.bind_eq_some_iff.mp next
    cases next
    exact .quiet .nothing
  · cases next
    exact .quiet .nothing
  · split at next
    · cases next
      exact .quiet .nothing
    · exact nomatch next
  · cases next
    exact .commitOther
  · split at next <;> cases next <;> exact .quiet .nothing
  · exact nomatch next

theorem reset_move {lib : Credentials} {now tx : Nat} {token newPassword : String}
    {db db' : Database} {point point' : ResetPoint} {input : SessionInput}
    (next : resetNext lib now tx token newPassword db point input = some (db', point')) :
    Move tx db.users db.sessions (SessionRequest.resetPassword token newPassword point).stage
      (SessionRequest.resetPassword token newPassword point').stage db'.users db'.sessions := by
  unfold resetNext at next
  split at next
  · split at next <;> cases next <;> exact .quiet .nothing
  · cases next
    exact .quiet .nothing
  · obtain ⟨⟨tokens, row⟩, -, next⟩ := Option.bind_eq_some_iff.mp next
    cases next
    exact .quiet .nothing
  · cases next
    exact .rollback .nothing
  · cases next
    exact .quiet .nothing
  · split at next <;> cases next
    · exact .rollback .nothing
    · exact .quiet .nothing
  · obtain ⟨⟨users, row⟩, update, next⟩ := Option.bind_eq_some_iff.mp next
    cases next
    exact .change update
  · cases next
    exact .quiet (.changed _)
  · obtain ⟨⟨tokens, row⟩, -, next⟩ := Option.bind_eq_some_iff.mp next
    cases next
    exact .quiet (.changed _)
  · cases next
    exact .quiet (.changed _)
  · cases next
    exact .aimAll _
  · obtain ⟨⟨sessions, row⟩, update, next⟩ := Option.bind_eq_some_iff.mp next
    cases next
    exact .evict update
  · cases next
    exact .commitReset _ _
  · exact nomatch next

theorem next_move {lib : Credentials} {now tx : Nat} {db db' : Database} {q q' : SessionRequest}
    {input : SessionInput} (next : q.next lib now tx db input = some (db', q')) :
    Move tx db.users db.sessions q.stage q'.stage db'.users db'.sessions := by
  cases q with
  | login q point =>
    obtain ⟨⟨after, point'⟩, one, same⟩ := Option.bind_eq_some_iff.mp next
    cases same
    exact login_move one
  | refreshToken token point =>
    obtain ⟨⟨after, point'⟩, one, same⟩ := Option.bind_eq_some_iff.mp next
    cases same
    exact refresh_move one
  | revokeToken token point =>
    obtain ⟨⟨after, point'⟩, one, same⟩ := Option.bind_eq_some_iff.mp next
    cases same
    exact revoke_move one
  | requestPasswordReset email point =>
    obtain ⟨⟨after, point'⟩, one, same⟩ := Option.bind_eq_some_iff.mp next
    cases same
    exact requestReset_move one
  | resetPassword token newPassword point =>
    obtain ⟨⟨after, point'⟩, one, same⟩ := Option.bind_eq_some_iff.mp next
    cases same
    exact reset_move one

theorem failed_stage {q q' : SessionRequest} (failed : q.failed = some q') : q'.stage = .nothing := by
  unfold SessionRequest.failed at failed
  split at failed <;> cases failed <;> rfl

/-- A request that has not taken its first statement. -/
def SessionRequest.Fresh (q : SessionRequest) : Prop :=
  (∃ l, q = .login l .find) ∨ (∃ token, q = .refreshToken token .find) ∨
    (∃ token, q = .revokeToken token .find) ∨ (∃ email, q = .requestPasswordReset email .find) ∨
      ∃ token newPassword, q = .resetPassword token newPassword .check

namespace SessionsService

/-- An action starts a request or moves the clock, takes one statement of a request, or fails it. -/
theorem step_cases {lib : Credentials} {s t : SessionsService} {a : SessionsAction}
    (h : s.step lib a = some t) :
    (t.db = s.db ∧ (∀ i input, a ≠ .run i input) ∧
        (t.requests = s.requests ∨ ∃ q, q.Fresh ∧ t.requests = s.requests ++ [q])) ∨
      ∃ i q q', s.requests[i]? = some q ∧ t.requests = s.requests.set i q' ∧
        ((∃ input, a = .run i input ∧ q.next lib s.now i s.db input = some (t.db, q')) ∨
          a = .fail i ∧ q.failed = some q' ∧ t.db = s.db.rollback i) := by
  cases a with
  | tick now =>
    rw [step] at h
    split at h
    · cases h
      exact .inl ⟨rfl, nofun, .inl rfl⟩
    · exact nomatch h
  | login q =>
    cases h
    exact .inl ⟨rfl, nofun, .inr ⟨_, .inl ⟨q, rfl⟩, rfl⟩⟩
  | refreshToken token =>
    cases h
    exact .inl ⟨rfl, nofun, .inr ⟨_, .inr (.inl ⟨token, rfl⟩), rfl⟩⟩
  | revokeToken token =>
    cases h
    exact .inl ⟨rfl, nofun, .inr ⟨_, .inr (.inr (.inl ⟨token, rfl⟩)), rfl⟩⟩
  | requestPasswordReset email =>
    cases h
    exact .inl ⟨rfl, nofun, .inr ⟨_, .inr (.inr (.inr (.inl ⟨email, rfl⟩))), rfl⟩⟩
  | resetPassword token newPassword =>
    cases h
    exact .inl ⟨rfl, nofun, .inr ⟨_, .inr (.inr (.inr (.inr ⟨token, newPassword, rfl⟩))), rfl⟩⟩
  | run i input =>
    obtain ⟨q, at_, h⟩ := Option.bind_eq_some_iff.mp h
    obtain ⟨⟨db, q'⟩, next, h⟩ := Option.bind_eq_some_iff.mp h
    cases h
    exact .inr ⟨i, q, q', at_, rfl, .inl ⟨input, rfl, next⟩⟩
  | fail i =>
    obtain ⟨q, at_, h⟩ := Option.bind_eq_some_iff.mp h
    obtain ⟨q', failed, h⟩ := Option.bind_eq_some_iff.mp h
    cases h
    exact .inr ⟨i, q, q', at_, rfl, .inr ⟨rfl, failed, rfl⟩⟩

section View
variable {α : Type} {f : SessionRequest → α} {d : α} {s t : SessionsService} {i : Nat}
  {q q' : SessionRequest}

/-- What `f` says of a request, and `d` of one that has not started. -/
def view (f : SessionRequest → α) (d : α) (s : SessionsService) (i : Nat) : α :=
  (s.requests[i]?.map f).getD d

theorem view_of (at_ : s.requests[i]? = some q) : s.view f d i = f q := by
  rw [view, at_, Option.map_some, Option.getD_some]

theorem view_same (same : t.requests = s.requests) : t.view f d = s.view f d := by
  funext j
  rw [view, view, same]

theorem view_set (at_ : s.requests[i]? = some q) (set : t.requests = s.requests.set i q') (j : Nat) :
    t.view f d j = if j = i then f q' else s.view f d j := by
  have within : i < s.requests.length := (List.getElem?_eq_some_iff.mp at_).1
  rw [view, set, List.getElem?_set]
  by_cases same : j = i
  · subst same
    simp [within]
  · simp [same, Ne.symm same, view]

theorem view_start (calm : f q = d) (started : t.requests = s.requests ++ [q]) :
    t.view f d = s.view f d := by
  funext j
  rw [view, view, started, List.getElem?_append]
  split
  · rfl
  · rename_i beyond
    rw [List.getElem?_eq_none (by omega : s.requests.length ≤ j)]
    cases at_ : [q][j - s.requests.length]? with
    | none => rfl
    | some q' =>
      obtain rfl : q' = q := by simpa using List.mem_of_getElem? at_
      exact calm

end View

/-- The stage of a request, and nothing for a request that has not started. -/
def stage (s : SessionsService) (i : Nat) : Stage :=
  (s.requests[i]?.map SessionRequest.stage).getD .nothing

theorem stage_of {s : SessionsService} {i : Nat} {q : SessionRequest} (at_ : s.requests[i]? = some q) :
    s.stage i = q.stage := view_of at_

theorem fresh_stage {q : SessionRequest} (fresh : q.Fresh) : q.stage = .nothing := by
  rcases fresh with ⟨l, rfl⟩ | ⟨token, rfl⟩ | ⟨token, rfl⟩ | ⟨email, rfl⟩ |
    ⟨token, newPassword, rfl⟩ <;> rfl

/-- An action moves one request, or neither table and no stage. -/
theorem moved_step {lib : Credentials} {s t : SessionsService} {a : SessionsAction}
    (h : s.step lib a = some t) :
    (t.db = s.db ∧ t.stage = s.stage) ∨ ∃ i, ((∃ input, a = .run i input) ∨ t.db = s.db.rollback i) ∧
      Move i s.db.users s.db.sessions (s.stage i) (t.stage i) t.db.users t.db.sessions ∧
      ∀ j, j ≠ i → t.stage j = s.stage j := by
  rcases step_cases h with ⟨db, -, same | ⟨q, fresh, started⟩⟩ | ⟨i, q, q', at_, set, taken⟩
  · exact .inl ⟨db, view_same same⟩
  · exact .inl ⟨db, view_start (fresh_stage fresh) started⟩
  · have own : t.stage i = q'.stage := (view_set at_ set i).trans (if_pos rfl)
    have others (j : Nat) (apart : j ≠ i) : t.stage j = s.stage j :=
      (view_set at_ set j).trans (if_neg apart)
    rcases taken with ⟨input, rfl, next⟩ | ⟨-, failed, db⟩
    · refine .inr ⟨i, .inl ⟨input, rfl⟩, ?_, others⟩
      rw [stage_of at_, own]
      exact next_move next
    · refine .inr ⟨i, .inr db, ?_, others⟩
      rw [db, own, failed_stage failed]
      exact .rollback _

end SessionsService

end RailsCore.UsersService
