import RailsCore.SessionsMoves

/-!
# What a request does to reset tokens

Every statement of the five requests, seen from the table of reset tokens. A
request for a reset marks the unused tokens of its user and inserts a new one,
a reset marks the token that it claims and the others of the same user, and
nothing else touches the table.
-/

namespace RailsCore.UsersService

open ReadCommitted (Cells committed scan touch unused Unused)

inductive TokenStage where
  | nothing
  | replacing (userId : Uuid)
  | issued (userId : Uuid)
  | claiming (claimed : List PasswordResetToken)
  | claimed (token : PasswordResetToken)

def SessionRequest.tokenStage : SessionRequest → TokenStage
  | .requestPasswordReset _ (.invalidate userId _)
  | .requestPasswordReset _ (.invalidating userId _ _)
  | .requestPasswordReset _ (.insert userId _) => .replacing userId
  | .requestPasswordReset _ (.commit userId) => .issued userId
  | .resetPassword _ _ (.claiming _ _ claimed) => .claiming claimed
  | .resetPassword _ _ (.business token) | .resetPassword _ _ (.password token)
  | .resetPassword _ _ (.siblings token) | .resetPassword _ _ (.invalidating token _ _)
  | .resetPassword _ _ (.sessions token) | .resetPassword _ _ (.evicting token _ _) => .claimed token
  | _ => .nothing

/-- One statement of the transaction `tx`: its stage and the tokens, before and after. -/
inductive TokenMove (tx : Nat) (tokens : Cells PasswordResetToken) :
    TokenStage → TokenStage → Cells PasswordResetToken → Prop where
  | quiet (stage) : TokenMove tx tokens stage stage tokens
  | begin (userId) : TokenMove tx tokens .nothing (.replacing userId) tokens
  | aim : TokenMove tx tokens .nothing (.claiming []) tokens
  | take (token rest) : TokenMove tx tokens (.claiming (token :: rest)) (.claimed token) tokens
  | replace {userId k now tokens' row}
      (update : touch PasswordResetToken.id tx k (invalidates userId) (PasswordResetToken.used now)
        tokens = some (tokens', row)) :
      TokenMove tx tokens (.replacing userId) (.replacing userId) tokens'
  | issue {row} (newId : Unused PasswordResetToken.id row.id tokens) (unspent : row.usedAt = none) :
      TokenMove tx tokens (.replacing row.userId) (.issued row.userId)
        (ReadCommitted.insert tx row tokens)
  | claim {k now tokenHash claimed tokens' row}
      (update : touch PasswordResetToken.id tx k (claims now tokenHash) (PasswordResetToken.used now)
        tokens = some (tokens', row)) :
      TokenMove tx tokens (.claiming claimed) (.claiming (claimed ++ row.toList)) tokens'
  | sibling {token k now tokens' row}
      (update : touch PasswordResetToken.id tx k (siblingOf token) (PasswordResetToken.used now)
        tokens = some (tokens', row)) :
      TokenMove tx tokens (.claimed token) (.claimed token) tokens'
  | commitIssue (userId) :
      TokenMove tx tokens (.issued userId) .nothing (ReadCommitted.commit tx tokens)
  | commitReset (token) :
      TokenMove tx tokens (.claimed token) .nothing (ReadCommitted.commit tx tokens)
  | commitOther : TokenMove tx tokens .nothing .nothing (ReadCommitted.commit tx tokens)
  | rollback (stage) : TokenMove tx tokens stage .nothing (ReadCommitted.rollback tx tokens)

theorem login_tokens {lib : Credentials} {now tx : Nat} {q : LoginRequest} {db db' : Database}
    {point point' : LoginPoint} {input : SessionInput}
    (next : loginNext lib now q db point input = some (db', point')) :
    TokenMove tx db.tokens .nothing .nothing db'.tokens := by
  unfold loginNext at next
  split at next
  · dsimp only at next
    split at next
    · cases next
      exact .quiet .nothing
    · split at next <;> cases next <;> exact .quiet .nothing
  · split at next
    · split at next
      · cases next
        exact .quiet .nothing
      · split at next <;> cases next <;> exact .quiet .nothing
    · exact nomatch next
  · split at next
    · cases next
      exact .quiet .nothing
    · exact nomatch next
  · exact nomatch next

theorem refresh_tokens {now tx : Nat} {token : String} {db db' : Database}
    {point point' : RefreshPoint} {input : SessionInput}
    (next : refreshNext now tx token db point input = some (db', point')) :
    TokenMove tx db.tokens .nothing .nothing db'.tokens := by
  unfold refreshNext at next
  split at next
  · split at next
    · cases next
      exact .quiet .nothing
    · split at next <;> cases next <;> exact .quiet .nothing
  · split at next <;> cases next <;> exact .quiet .nothing
  · obtain ⟨⟨sessions, row⟩, -, next⟩ := Option.bind_eq_some_iff.mp next
    cases next
    exact .quiet .nothing
  · split at next
    · cases next
      exact .quiet .nothing
    · cases next
  · cases next
    exact .commitOther
  · cases next

theorem revoke_tokens {tx : Nat} {token : String} {db db' : Database}
    {point point' : RevokePoint} {input : SessionInput}
    (next : revokeNext tx token db point input = some (db', point')) :
    TokenMove tx db.tokens .nothing .nothing db'.tokens := by
  unfold revokeNext at next
  split at next
  · split at next <;> cases next <;> exact .quiet .nothing
  · cases next
    exact .quiet .nothing
  · obtain ⟨⟨sessions, row⟩, -, next⟩ := Option.bind_eq_some_iff.mp next
    cases next
    exact .quiet .nothing
  · split at next <;> cases next
    · exact .quiet .nothing
    · exact .commitOther
  · exact nomatch next

theorem requestReset_tokens {lib : Credentials} {now tx : Nat} {email : String} {db db' : Database}
    {point point' : RequestResetPoint} {input : SessionInput}
    (next : requestResetNext lib now tx email db point input = some (db', point')) :
    TokenMove tx db.tokens (SessionRequest.requestPasswordReset email point).tokenStage
      (SessionRequest.requestPasswordReset email point').tokenStage db'.tokens := by
  unfold requestResetNext at next
  split at next
  · split at next <;> cases next <;> exact .quiet .nothing
  · cases next
    exact .begin _
  · cases next
    exact .quiet (.replacing _)
  · obtain ⟨⟨tokens, row⟩, update, next⟩ := Option.bind_eq_some_iff.mp next
    cases next
    exact .replace update
  · cases next
    exact .quiet (.replacing _)
  · rename_i userId expiry id token
    split at next
    · rename_i fresh
      cases next
      let row : PasswordResetToken := ⟨id, userId, lib.hashToken token, expiry + oneHour, none⟩
      have unspent : row.usedAt = none := rfl
      exact .issue (ReadCommitted.unused_iff.mp fresh.1) unspent
    · cases next
  · cases next
    exact .commitIssue _
  · split at next <;> cases next <;> exact .quiet .nothing
  · cases next

theorem reset_tokens {lib : Credentials} {now tx : Nat} {token newPassword : String}
    {db db' : Database} {point point' : ResetPoint} {input : SessionInput}
    (next : resetNext lib now tx token newPassword db point input = some (db', point')) :
    TokenMove tx db.tokens (SessionRequest.resetPassword token newPassword point).tokenStage
      (SessionRequest.resetPassword token newPassword point').tokenStage db'.tokens := by
  unfold resetNext at next
  split at next
  · split at next <;> cases next <;> exact .quiet .nothing
  · cases next
    exact .aim
  · obtain ⟨⟨tokens, row⟩, update, next⟩ := Option.bind_eq_some_iff.mp next
    cases next
    exact .claim update
  · cases next
    exact .rollback _
  · cases next
    exact .take _ _
  · split at next <;> cases next
    · exact .rollback _
    · exact .quiet (.claimed _)
  · obtain ⟨⟨users, row⟩, -, next⟩ := Option.bind_eq_some_iff.mp next
    cases next
    exact .quiet (.claimed _)
  · cases next
    exact .quiet (.claimed _)
  · obtain ⟨⟨tokens, row⟩, update, next⟩ := Option.bind_eq_some_iff.mp next
    cases next
    exact .sibling update
  · cases next
    exact .quiet (.claimed _)
  · cases next
    exact .quiet (.claimed _)
  · obtain ⟨⟨sessions, row⟩, -, next⟩ := Option.bind_eq_some_iff.mp next
    cases next
    exact .quiet (.claimed _)
  · cases next
    exact .commitReset _
  · exact nomatch next

theorem next_tokens {lib : Credentials} {now tx : Nat} {db db' : Database} {q q' : SessionRequest}
    {input : SessionInput} (next : q.next lib now tx db input = some (db', q')) :
    TokenMove tx db.tokens q.tokenStage q'.tokenStage db'.tokens := by
  cases q with
  | login q point =>
    obtain ⟨⟨after, point'⟩, one, same⟩ := Option.bind_eq_some_iff.mp next
    cases same
    exact login_tokens one
  | refreshToken token point =>
    obtain ⟨⟨after, point'⟩, one, same⟩ := Option.bind_eq_some_iff.mp next
    cases same
    exact refresh_tokens one
  | revokeToken token point =>
    obtain ⟨⟨after, point'⟩, one, same⟩ := Option.bind_eq_some_iff.mp next
    cases same
    exact revoke_tokens one
  | requestPasswordReset email point =>
    obtain ⟨⟨after, point'⟩, one, same⟩ := Option.bind_eq_some_iff.mp next
    cases same
    exact requestReset_tokens one
  | resetPassword token newPassword point =>
    obtain ⟨⟨after, point'⟩, one, same⟩ := Option.bind_eq_some_iff.mp next
    cases same
    exact reset_tokens one

theorem failed_tokenStage {q q' : SessionRequest} (failed : q.failed = some q') :
    q'.tokenStage = .nothing := by
  unfold SessionRequest.failed at failed
  split at failed <;> cases failed <;> rfl

theorem fresh_tokenStage {q : SessionRequest} (fresh : q.Fresh) : q.tokenStage = .nothing := by
  rcases fresh with ⟨l, rfl⟩ | ⟨token, rfl⟩ | ⟨token, rfl⟩ | ⟨email, rfl⟩ |
    ⟨token, newPassword, rfl⟩ <;> rfl

namespace SessionsService

def tokenStage (s : SessionsService) : Nat → TokenStage :=
  s.view SessionRequest.tokenStage .nothing

/-- An action moves one request, or the tokens stay and every stage. -/
theorem tokens_step {lib : Credentials} {s t : SessionsService} {a : SessionsAction}
    (h : s.step lib a = some t) :
    (t.db = s.db ∧ t.tokenStage = s.tokenStage) ∨
      ∃ i, ((∃ input, a = .run i input) ∨ t.db = s.db.rollback i) ∧
        TokenMove i s.db.tokens (s.tokenStage i) (t.tokenStage i) t.db.tokens ∧
        ∀ j, j ≠ i → t.tokenStage j = s.tokenStage j := by
  rcases step_cases h with ⟨db, -, same | ⟨q, fresh, started⟩⟩ | ⟨i, q, q', at_, set, taken⟩
  · exact .inl ⟨db, view_same same⟩
  · exact .inl ⟨db, view_start (fresh_tokenStage fresh) started⟩
  · have before : s.tokenStage i = q.tokenStage := view_of at_
    have own : t.tokenStage i = q'.tokenStage := (view_set at_ set i).trans (if_pos rfl)
    have others (j : Nat) (apart : j ≠ i) : t.tokenStage j = s.tokenStage j :=
      (view_set at_ set j).trans (if_neg apart)
    rcases taken with ⟨input, rfl, next⟩ | ⟨-, failed, db⟩
    · refine .inr ⟨i, .inl ⟨input, rfl⟩, ?_, others⟩
      rw [before, own]
      exact next_tokens next
    · refine .inr ⟨i, .inr db, ?_, others⟩
      rw [db, own, failed_tokenStage failed]
      exact .rollback _

end SessionsService

end RailsCore.UsersService
