import RailsCore.Registrations

/-!
# What registrations leave in the database

Every step of a call is one of the moves listed here. The pending rows of a call
are those of its open transaction, and what it has committed stays. So a
registration that fails has added no row, unless it fails after its commit: the
session is written by a statement of its own, and the rows committed before it
are not taken back.
-/

namespace RailsCore.UsersService

open ReadCommitted (Cells committed Unused Inserts Written Spares)

variable {lower : Lowercasing}

/-- The transaction has inserted a row and is still open. -/
def RegisterPoint.writing : RegisterPoint → Bool
  | .sandbox _ | .production _ _ | .hash _ _ _ | .user _ _ _ _ | .commit _ => true
  | _ => false

/-- The transaction is committed, and the call has not failed. -/
def RegisterPoint.wrote : RegisterPoint → Bool
  | .encode _ | .session _ | .done (.ok _) => true
  | _ => false

theorem RegisterPoint.not_wrote {point : RegisterPoint} (open_ : point.writing = true) :
    point.wrote = false := by
  cases point <;> first | rfl | exact nomatch open_

namespace RegistrationCall

def writing : RegistrationCall → Bool
  | .register _ point => point.writing
  | .createSdkUser _ _ _ => false

def wrote : RegistrationCall → Bool
  | .register _ point => point.wrote
  | .createSdkUser _ _ (.done (.ok _)) => true
  | _ => false

/-- The user is inserted, and nothing is left to do but to commit. -/
def inserted : RegistrationCall → Bool
  | .register _ (.commit _) => true
  | _ => false

def registers : RegistrationCall → Bool
  | .register _ _ => true
  | .createSdkUser _ _ _ => false

/-- The email kept since the validation is the normalized one. -/
def Consistent (lower : Lowercasing) : RegistrationCall → Prop
  | .createSdkUser _ q (.find email _ _) | .createSdkUser _ q (.hash email _ _)
  | .createSdkUser _ q (.insert email _ _ _) => email = normalizeEmail lower q.email
  | _ => True

end RegistrationCall

namespace RegistrationDatabase

structure Inserts (db : RegistrationDatabase) (writing : Nat → Prop) : Prop where
  businesses : ReadCommitted.Inserts RegisteredBusiness.writer writing db.businesses
  environments : ReadCommitted.Inserts RegisteredEnvironment.writer writing db.environments
  users : ReadCommitted.Inserts RegisteredUser.writer writing db.users
  sessions : ReadCommitted.Inserts RegisteredSession.writer writing db.sessions

structure Written (db : RegistrationDatabase) (wrote : Nat → Prop) : Prop where
  businesses : ReadCommitted.Written RegisteredBusiness.writer wrote db.businesses
  environments : ReadCommitted.Written RegisteredEnvironment.writer wrote db.environments
  users : ReadCommitted.Written RegisteredUser.writer wrote db.users
  sessions : ReadCommitted.Written RegisteredSession.writer wrote db.sessions

/-- No committed row is one that the call has inserted. -/
def Nothing (db : RegistrationDatabase) (i : Nat) : Prop := db.Written fun j => j ≠ i

/-- What a call leaves to the others, in the tables whose rows they depend on. -/
structure Spares (i : Nat) (db db' : RegistrationDatabase) : Prop where
  businesses : ReadCommitted.Spares i db.businesses db'.businesses
  users : ReadCommitted.Spares i db.users db'.users

variable {db : RegistrationDatabase} {writing writing' wrote wrote' : Nat → Prop} {i : Nat}

theorem Inserts.mono (inserts : db.Inserts writing) (more : ∀ j, writing j → writing' j) :
    db.Inserts writing' :=
  ⟨inserts.businesses.mono more, inserts.environments.mono more, inserts.users.mono more,
    inserts.sessions.mono more⟩

theorem Inserts.commit (inserts : db.Inserts writing)
    (rest : ∀ j, j ≠ i → writing j → writing' j) : (db.commit i).Inserts writing' :=
  ⟨inserts.businesses.commit rest, inserts.environments.commit rest, inserts.users.commit rest,
    inserts.sessions.commit rest⟩

theorem Inserts.rollback (inserts : db.Inserts writing)
    (rest : ∀ j, j ≠ i → writing j → writing' j) : (db.rollback i).Inserts writing' :=
  ⟨inserts.businesses.rollback rest, inserts.environments.rollback rest,
    inserts.users.rollback rest, inserts.sessions.rollback rest⟩

theorem Written.mono (written : db.Written wrote) (more : ∀ j, wrote j → wrote' j) :
    db.Written wrote' :=
  ⟨written.businesses.mono more, written.environments.mono more, written.users.mono more,
    written.sessions.mono more⟩

theorem Written.commit (written : db.Written wrote) (inserts : db.Inserts writing)
    (ends : wrote i) : (db.commit i).Written wrote :=
  ⟨written.businesses.commit inserts.businesses ends,
    written.environments.commit inserts.environments ends,
    written.users.commit inserts.users ends, written.sessions.commit inserts.sessions ends⟩

theorem Written.rollback (written : db.Written wrote) (i : Nat) : (db.rollback i).Written wrote :=
  ⟨written.businesses.rollback i, written.environments.rollback i, written.users.rollback i,
    written.sessions.rollback i⟩

theorem Spares.refl (i : Nat) (db : RegistrationDatabase) : db.Spares i db :=
  ⟨.refl i db.businesses, .refl i db.users⟩

theorem Inserts.commit_spares (inserts : db.Inserts writing) (i : Nat) :
    db.Spares i (db.commit i) :=
  ⟨inserts.businesses.commit_spares i, inserts.users.commit_spares i⟩

theorem Spares.rollback (i : Nat) (db : RegistrationDatabase) : db.Spares i (db.rollback i) :=
  ⟨.rollback i db.businesses, .rollback i db.users⟩

end RegistrationDatabase

/-- What one step of call `i` makes of the database and of the call. -/
inductive RegistrationMove (lower : Lowercasing) (i : Nat) (db : RegistrationDatabase) :
    RegistrationCall → RegistrationDatabase → RegistrationCall → Prop where
  | quiet {c c'} (running : c.outcome = none) (writing : c'.writing = c.writing)
      (early : c'.inserted = false) (wrote : c'.wrote = c.wrote)
      (consistent : c.Consistent lower → c'.Consistent lower)
      (ends : ∀ e, c'.outcome = some (.error e) →
        e = .conflict duplicateEmailMessage ∨ c.invalid lower = some e)
      (same : c'.email lower = c.email lower ∧ c'.invalid lower = c.invalid lower ∧
        c'.registers = c.registers) :
      RegistrationMove lower i db c db c'
  | business {q id row} (own : row.writer = some i) :
      RegistrationMove lower i db (.register q .business)
        { db with businesses := ReadCommitted.insert i row db.businesses }
        (.register q (.sandbox id))
  | environment {q point point' row} (own : row.writer = some i) (open_ : point.writing = true)
      (next : (point'.writing = true ∧ ∀ ids, point' ≠ .commit ids)) :
      RegistrationMove lower i db (.register q point)
        { db with environments := ReadCommitted.insert i row db.environments }
        (.register q point')
  | user {q businessId sandboxId productionId passwordHash row ids} (own : row.writer = some i)
      (email : row.email = normalizeEmail lower q.adminEmail)
      (free : Unused RegisteredUser.email row.email db.users) :
      RegistrationMove lower i db
        (.register q (.user businessId sandboxId productionId passwordHash))
        { db with users := ReadCommitted.insert i row db.users } (.register q (.commit ids))
  | lost {q businessId sandboxId productionId passwordHash} :
      RegistrationMove lower i db
        (.register q (.user businessId sandboxId productionId passwordHash)) (db.rollback i)
        (.register q (.done (.error (.conflict duplicateEmailMessage))))
  | commit {q ids} : RegistrationMove lower i db (.register q (.commit ids)) (db.commit i)
      (.register q (.encode ids))
  | session {q ids row response} (own : row.writer = some i) :
      RegistrationMove lower i db (.register q (.session ids))
        { db with sessions := ReadCommitted.insertNow row db.sessions }
        (.register q (.done (.ok response)))
  | sdkUser {ctx q email firstName lastName passwordHash row id} (own : row.writer = some i)
      (same : row.email = email) (free : Unused RegisteredUser.email row.email db.users) :
      RegistrationMove lower i db
        (.createSdkUser ctx q (.insert email firstName lastName passwordHash))
        { db with users := ReadCommitted.insertNow row db.users }
        (.createSdkUser ctx q (.done (.ok id)))

theorem outcome_of_writing {q : RegisterBusinessRequest} {point : RegisterPoint}
    (open_ : point.writing = true) : (RegistrationCall.register q point).outcome = none := by
  cases point <;> first | rfl | exact nomatch open_

theorem RegistrationMove.running {i : Nat} {db db' : RegistrationDatabase}
    {c c' : RegistrationCall} (move : RegistrationMove lower i db c db' c') : c.outcome = none := by
  cases move with
  | quiet running => exact running
  | environment own open_ next => exact outcome_of_writing open_
  | _ => rfl

theorem userInsertError_unique_email :
    userInsertError "duplicate key value violates unique constraint \"unique_email\"" =
      .conflict duplicateEmailMessage := by decide +kernel

/-- How the insert of a user goes on. -/
theorem uniqueEmail_cases {tx : Nat} {email : String} {users : Cells RegisteredUser}
    {result : Except String Unit} (h : uniqueEmail tx email users = some result) :
    result = .error "duplicate key value violates unique constraint \"unique_email\"" ∨
      result = .ok () ∧ Unused RegisteredUser.email email users := by
  rw [uniqueEmail] at h
  split at h
  · exact nomatch h
  · exact .inl (Option.some.inj h).symm
  · rename_i free
    exact .inr ⟨(Option.some.inj h).symm, ReadCommitted.indexEntry_free.mp free⟩

theorem validateSdkUserPayload_email {q : CreateSdkUserRequest}
    {email firstName lastName : String}
    (valid : validateSdkUserPayload lower q = .ok (email, firstName, lastName)) :
    email = normalizeEmail lower q.email := by
  simp only [validateSdkUserPayload] at valid
  split_ifs at valid
  exact (Prod.mk.inj (Except.ok.inj valid)).1.symm

theorem registerNext_move {i : Nat} {q : RegisterBusinessRequest} {db db' : RegistrationDatabase}
    {point point' : RegisterPoint} {input : RegistrationInput}
    (h : registerNext lower i q db point input = some (db', point')) :
    RegistrationMove lower i db (.register q point) db' (.register q point') := by
  cases point <;> cases input <;> simp only [registerNext, reduceCtorEq] at h
  case start.go =>
    split_ifs at h with blank <;> cases h
    · refine .quiet rfl rfl rfl rfl id (fun e ended => .inr ?_) ⟨rfl, rfl, rfl⟩
      cases ended
      simp [RegistrationCall.invalid, blank]
    · exact .quiet rfl rfl rfl rfl id nofun ⟨rfl, rfl, rfl⟩
  case find.go =>
    split_ifs at h <;> cases h
    · refine .quiet rfl rfl rfl rfl id (fun e ended => .inl ?_) ⟨rfl, rfl, rfl⟩
      cases ended
      rfl
    · exact .quiet rfl rfl rfl rfl id nofun ⟨rfl, rfl, rfl⟩
  case begin.go =>
    cases h
    exact .quiet rfl rfl rfl rfl id nofun ⟨rfl, rfl, rfl⟩
  case business.random id =>
    split_ifs at h
    cases h
    exact .business rfl
  case sandbox.random businessId id =>
    split_ifs at h
    cases h
    exact .environment rfl rfl ⟨rfl, nofun⟩
  case production.random businessId sandboxId id =>
    split_ifs at h
    cases h
    exact .environment rfl rfl ⟨rfl, nofun⟩
  case hash.hashed =>
    cases h
    exact .quiet rfl rfl rfl rfl id nofun ⟨rfl, rfl, rfl⟩
  case user.random businessId sandboxId productionId passwordHash id =>
    split_ifs at h
    split at h
    · exact nomatch h
    · rename_i message entry
      rcases uniqueEmail_cases entry with same | ⟨same, -⟩
      · cases same
        cases h
        rw [userInsertError_unique_email]
        exact .lost
      · exact nomatch same
    · rename_i entry
      rcases uniqueEmail_cases entry with same | ⟨-, free⟩
      · exact nomatch same
      · cases h
        exact .user rfl rfl free
  case commit.go =>
    cases h
    exact .commit
  case encode.go =>
    cases h
    exact .quiet rfl rfl rfl rfl id nofun ⟨rfl, rfl, rfl⟩
  case session.session ids id refreshToken jwtId =>
    split_ifs at h
    cases h
    exact .session rfl

theorem createSdkUserNext_move {i : Nat} {ctx : ApiKeyOnlyContext} {q : CreateSdkUserRequest}
    {db db' : RegistrationDatabase} {point point' : SdkUserPoint} {input : RegistrationInput}
    (h : createSdkUserNext lower i ctx q db point input = some (db', point')) :
    RegistrationMove lower i db (.createSdkUser ctx q point) db' (.createSdkUser ctx q point') := by
  cases point <;> cases input <;> simp only [createSdkUserNext, reduceCtorEq] at h
  case start.go =>
    split at h <;> cases h
    · rename_i e refused
      refine .quiet rfl rfl rfl rfl id (fun e' ended => .inr ?_) ⟨rfl, rfl, rfl⟩
      cases ended
      simp [RegistrationCall.invalid, refused]
    · rename_i email firstName lastName valid
      exact .quiet rfl rfl rfl rfl (fun _ => validateSdkUserPayload_email valid) nofun
        ⟨rfl, rfl, rfl⟩
  case find.go =>
    split_ifs at h <;> cases h
    · refine .quiet rfl rfl rfl rfl (fun _ => trivial) (fun e ended => .inl ?_) ⟨rfl, rfl, rfl⟩
      cases ended
      rfl
    · exact .quiet rfl rfl rfl rfl id nofun ⟨rfl, rfl, rfl⟩
  case hash.hashed =>
    cases h
    exact .quiet rfl rfl rfl rfl id nofun ⟨rfl, rfl, rfl⟩
  case insert.random email firstName lastName passwordHash id =>
    split_ifs at h
    split at h
    · exact nomatch h
    · rename_i message entry
      rcases uniqueEmail_cases entry with same | ⟨same, -⟩
      · cases same
        cases h
        refine .quiet rfl rfl rfl rfl (fun _ => trivial) (fun e ended => .inl ?_) ⟨rfl, rfl, rfl⟩
        rw [userInsertError_unique_email] at ended
        cases ended
        rfl
      · exact nomatch same
    · rename_i entry
      rcases uniqueEmail_cases entry with same | ⟨-, free⟩
      · exact nomatch same
      · cases h
        exact .sdkUser rfl rfl free

namespace Registrations
variable {s s' : Registrations} {a : RegistrationAction} {i : Nat} {c c' : RegistrationCall}
  {db : RegistrationDatabase}

/-- The state after call `i` has moved. -/
def settle (s : Registrations) (i : Nat) (db : RegistrationDatabase) (c : RegistrationCall) :
    Registrations :=
  ⟨db, s.calls.set i c⟩

/-- A step is the arrival of a call, a move of one, or its failure. -/
theorem step_cases (h : s.step lower a = some s') :
    (∃ c, ((∃ q, c = .register q .start) ∨ ∃ ctx q, c = .createSdkUser ctx q .start) ∧
        s' = { s with calls := s.calls ++ [c] }) ∨
      (∃ i c db c', s.calls[i]? = some c ∧ RegistrationMove lower i s.db c db c' ∧
        s' = s.settle i db c') ∨
      ∃ i c c', a = .fail i ∧ s.calls[i]? = some c ∧ c.failed = some c' ∧
        s' = s.settle i (s.db.rollback i) c' := by
  cases a with
  | registerBusiness q =>
    exact .inl ⟨_, .inl ⟨q, rfl⟩, (Option.some.inj h).symm⟩
  | createSdkUser ctx q =>
    exact .inl ⟨_, .inr ⟨ctx, q, rfl⟩, (Option.some.inj h).symm⟩
  | run i input =>
    obtain ⟨c, at_, moved⟩ := Option.bind_eq_some_iff.mp h
    obtain ⟨⟨db, c'⟩, taken, same⟩ := Option.bind_eq_some_iff.mp moved
    refine .inr (.inl ⟨i, c, db, c', at_, ?_, (Option.some.inj same).symm⟩)
    cases c with
    | register q point =>
      obtain ⟨⟨db', point'⟩, next, equal⟩ := Option.map_eq_some_iff.mp taken
      cases equal
      exact registerNext_move next
    | createSdkUser ctx q point =>
      obtain ⟨⟨db', point'⟩, next, equal⟩ := Option.map_eq_some_iff.mp taken
      cases equal
      exact createSdkUserNext_move next
  | fail i =>
    obtain ⟨c, at_, moved⟩ := Option.bind_eq_some_iff.mp h
    obtain ⟨c', failed, same⟩ := Option.bind_eq_some_iff.mp moved
    exact .inr (.inr ⟨i, c, c', rfl, at_, failed, (Option.some.inj same).symm⟩)

/-- Call `i` is there, and it is as the flag says. -/
def Is (s : Registrations) (flag : RegistrationCall → Bool) (i : Nat) : Prop :=
  ∃ c, s.calls[i]? = some c ∧ flag c = true

theorem is_arrive {flag : RegistrationCall → Bool} (h : s.Is flag i) (c : RegistrationCall) :
    Is { s with calls := s.calls ++ [c] } flag i := by
  obtain ⟨d, at_, yes⟩ := h
  refine ⟨d, ?_, yes⟩
  rw [List.getElem?_append_left (List.getElem?_eq_some_iff.mp at_).1]
  exact at_

theorem is_other {flag : RegistrationCall → Bool} {j : Nat} (other : j ≠ i) (h : s.Is flag j)
    (db : RegistrationDatabase) (c : RegistrationCall) : (s.settle i db c).Is flag j := by
  obtain ⟨d, at_, yes⟩ := h
  exact ⟨d, by rw [settle, List.getElem?_set_ne other.symm, at_], yes⟩

theorem is_own {flag : RegistrationCall → Bool} (at_ : s.calls[i]? = some c)
    (yes : flag c' = true) (db : RegistrationDatabase) : (s.settle i db c').Is flag i :=
  ⟨c', List.getElem?_set_self (List.getElem?_eq_some_iff.mp at_).1, yes⟩

/-- A flag that a move does not take away. -/
theorem is_keep {flag : RegistrationCall → Bool} (at_ : s.calls[i]? = some c)
    (keeps : flag c = true → flag c' = true) (db : RegistrationDatabase) {j : Nat}
    (h : s.Is flag j) : (s.settle i db c').Is flag j := by
  by_cases own : j = i
  · subst own
    obtain ⟨d, at', yes⟩ := h
    cases Option.some.inj (at_.symm.trans at')
    exact is_own at_ (keeps yes) db
  · exact is_other own h db c'

/-- What the database holds for a call. -/
structure Facts (lower : Lowercasing) (db : RegistrationDatabase) (i : Nat)
    (c : RegistrationCall) : Prop where
  consistent : c.Consistent lower
  begun : c.writing = true → ∃ d ∈ db.businesses, ∃ row, d.pending = some (i, row)
  inserted : c.inserted = true →
    ∃ d ∈ db.users, ∃ row, d.pending = some (i, row) ∧ row.email = c.email lower
  business : c.wrote = true → c.registers = true →
    ∃ row ∈ committed db.businesses, row.writer = some i
  user : c.wrote = true →
    ∃ row ∈ committed db.users, row.writer = some i ∧ row.email = c.email lower

structure Sound (lower : Lowercasing) (s : Registrations) : Prop where
  inserts : s.db.Inserts (s.Is RegistrationCall.writing)
  facts : ∀ i c, s.calls[i]? = some c → Facts lower s.db i c

theorem Facts.spares {db' : RegistrationDatabase} {j : Nat} (facts : Facts lower db j c)
    (spares : db.Spares i db') (other : j ≠ i) : Facts lower db' j c where
  consistent := facts.consistent
  begun := by
    intro writing
    obtain ⟨d, hd, row, held⟩ := facts.begun writing
    exact ⟨d, spares.businesses.held d hd j row held other, row, held⟩
  inserted := by
    intro inserted
    obtain ⟨d, hd, row, held, same⟩ := facts.inserted inserted
    exact ⟨d, spares.users.held d hd j row held other, row, held, same⟩
  business := by
    intro wrote registers
    obtain ⟨row, listed, own⟩ := facts.business wrote registers
    exact ⟨row, spares.businesses.stored row listed, own⟩
  user := by
    intro wrote
    obtain ⟨row, listed, own⟩ := facts.user wrote
    exact ⟨row, spares.users.stored row listed, own⟩

/-- A call that has just arrived has nothing in the database. -/
theorem facts_start (db : RegistrationDatabase) (i : Nat)
    (new : (∃ q, c = .register q .start) ∨ ∃ ctx q, c = .createSdkUser ctx q .start) :
    Facts lower db i c := by
  rcases new with ⟨q, rfl⟩ | ⟨ctx, q, rfl⟩
  · exact ⟨trivial, nofun, nofun, nofun, nofun⟩
  · exact ⟨trivial, nofun, nofun, nofun, nofun⟩

/-- A call that has failed ends with an internal error, and nothing of it is known
to be in the database. -/
theorem facts_failed (failed : c.failed = some c') (db : RegistrationDatabase) (i : Nat) :
    Facts lower db i c' := by
  cases c with
  | register q point =>
    cases point <;> simp only [RegistrationCall.failed, reduceCtorEq] at failed <;> cases failed <;>
      exact ⟨trivial, nofun, nofun, nofun, nofun⟩
  | createSdkUser ctx q point =>
    cases point <;> simp only [RegistrationCall.failed, reduceCtorEq] at failed <;> cases failed <;>
      exact ⟨trivial, nofun, nofun, nofun, nofun⟩

/-- What a move of call `i` leaves in place for the others. -/
theorem RegistrationMove.spares {writing : Nat → Prop} (move : RegistrationMove lower i db c db' c')
    (inserts : db.Inserts writing) : db.Spares i db' := by
  cases move with
  | quiet => exact .refl i db
  | business => exact ⟨.insert i _ _, .refl i _⟩
  | environment => exact ⟨.refl i _, .refl i _⟩
  | user => exact ⟨.refl i _, .insert i _ _⟩
  | lost => exact .rollback i db
  | commit => exact inserts.commit_spares i
  | session => exact ⟨.refl i _, .refl i _⟩
  | sdkUser => exact ⟨.refl i _, .insertNow i _ _⟩

/-- The pending rows after a move are those of the transactions open then. -/
theorem RegistrationMove.inserts (at_ : s.calls[i]? = some c)
    (move : RegistrationMove lower i s.db c db c')
    (inserts : s.db.Inserts (s.Is RegistrationCall.writing)) :
    db.Inserts ((s.settle i db c').Is RegistrationCall.writing) := by
  have others : ∀ j, j ≠ i → s.Is RegistrationCall.writing j →
      (s.settle i db c').Is RegistrationCall.writing j := fun j other h => is_other other h db c'
  have keep : (c.writing = true → c'.writing = true) → ∀ j, s.Is RegistrationCall.writing j →
      (s.settle i db c').Is RegistrationCall.writing j := fun keeps j => is_keep at_ keeps db
  have now : c'.writing = true → (s.settle i db c').Is RegistrationCall.writing i :=
    fun yes => is_own at_ yes db
  cases move with
  | quiet running writing => exact inserts.mono (keep fun yes => writing.trans yes)
  | business own =>
    have old := inserts.mono (keep fun _ => rfl)
    exact ⟨old.businesses.insert own (now rfl), old.environments, old.users, old.sessions⟩
  | environment own open_ next =>
    have old := inserts.mono (keep fun _ => next.1)
    exact ⟨old.businesses, old.environments.insert own (now next.1), old.users, old.sessions⟩
  | user own =>
    have old := inserts.mono (keep fun _ => rfl)
    exact ⟨old.businesses, old.environments, old.users.insert own (now rfl), old.sessions⟩
  | lost => exact inserts.rollback others
  | commit => exact inserts.commit others
  | session own =>
    have old := inserts.mono (keep nofun)
    exact ⟨old.businesses, old.environments, old.users, old.sessions.insertNow _⟩
  | sdkUser own =>
    have old := inserts.mono (keep nofun)
    exact ⟨old.businesses, old.environments, old.users.insertNow _, old.sessions⟩

/-- What the database holds for the call that has moved. -/
theorem RegistrationMove.facts {writing : Nat → Prop} (move : RegistrationMove lower i s.db c db c')
    (inserts : s.db.Inserts writing) (facts : Facts lower s.db i c) : Facts lower db i c' := by
  cases move with
  | quiet running writing early wrote consistent ends same =>
    obtain ⟨email, -, registers⟩ := same
    refine ⟨consistent facts.consistent, fun yes => facts.begun (writing ▸ yes), ?_, ?_, ?_⟩
    · intro yes
      rw [early] at yes
      exact nomatch yes
    · intro yes registered
      exact facts.business (wrote ▸ yes) (registers ▸ registered)
    · intro yes
      rw [email]
      exact facts.user (wrote ▸ yes)
  | @business q id row own =>
    exact ⟨trivial, fun _ => ⟨⟨none, some (i, row)⟩, ReadCommitted.mem_insert.mpr (.inr rfl), row,
      rfl⟩, nofun, nofun, nofun⟩
  | @environment q point point' row own open_ next =>
    refine ⟨trivial, fun _ => facts.begun open_, ?_, ?_, ?_⟩
    · intro yes
      cases point' with
      | commit ids => exact absurd rfl (next.2 ids)
      | _ => exact nomatch yes
    · intro yes
      exact absurd ((RegisterPoint.not_wrote next.1).symm.trans yes) Bool.false_ne_true
    · intro yes
      exact absurd ((RegisterPoint.not_wrote next.1).symm.trans yes) Bool.false_ne_true
  | @user q businessId sandboxId productionId passwordHash row ids own email free =>
    exact ⟨trivial, fun _ => facts.begun rfl, fun _ => ⟨⟨none, some (i, row)⟩,
      ReadCommitted.mem_insert.mpr (.inr rfl), row, rfl, email⟩, nofun, nofun⟩
  | lost => exact ⟨trivial, nofun, nofun, nofun, nofun⟩
  | commit =>
    obtain ⟨b, listedB, business, pendingB⟩ := facts.begun rfl
    obtain ⟨u, listedU, user, pendingU, email⟩ := facts.inserted rfl
    exact ⟨trivial, nofun, nofun,
      fun _ _ => ⟨business, ReadCommitted.commit_own listedB pendingB,
        (inserts.businesses b listedB i business pendingB).2.1⟩,
      fun _ => ⟨user, ReadCommitted.commit_own listedU pendingU,
        (inserts.users u listedU i user pendingU).2.1, email⟩⟩
  | session own =>
    exact ⟨trivial, nofun, nofun, fun _ _ => facts.business rfl rfl, fun _ => facts.user rfl⟩
  | @sdkUser ctx q email firstName lastName passwordHash row id own same free =>
    refine ⟨trivial, nofun, nofun, nofun, fun _ => ⟨row, ?_, own, same.trans facts.consistent⟩⟩
    rw [ReadCommitted.committed_insertNow]
    exact List.mem_append_right _ (List.mem_singleton_self row)

/-- The step lemma. -/
theorem Sound.step (sound : s.Sound lower) (h : s.step lower a = some s') : s'.Sound lower := by
  rcases step_cases h with
    ⟨c, new, rfl⟩ | ⟨i, c, db, c', at_, move, rfl⟩ | ⟨i, c, c', -, at_, failed, rfl⟩
  · refine ⟨sound.inserts.mono fun j yes => is_arrive yes c, fun j d at' => ?_⟩
    by_cases there : j < s.calls.length
    · rw [List.getElem?_append_left there] at at'
      exact sound.facts j d at'
    · rw [List.getElem?_append_right (by omega)] at at'
      cases List.mem_singleton.mp (List.mem_of_getElem? at')
      exact facts_start s.db j new
  · refine ⟨RegistrationMove.inserts at_ move sound.inserts, fun j d at' => ?_⟩
    rcases Machine.replaced_cases at_ at' with ⟨rfl, rfl⟩ | ⟨other, at'⟩
    · exact RegistrationMove.facts move sound.inserts (sound.facts j c at_)
    · exact (sound.facts j d at').spares (RegistrationMove.spares move sound.inserts) other
  · refine ⟨sound.inserts.rollback fun j other yes => is_other other yes _ c', fun j d at' => ?_⟩
    rcases Machine.replaced_cases at_ at' with ⟨rfl, rfl⟩ | ⟨other, at'⟩
    · exact facts_failed failed _ j
    · exact (sound.facts j d at').spares (.rollback i s.db) other

theorem sound_start (businesses : List RegisteredBusiness)
    (environments : List RegisteredEnvironment) (users : List RegisteredUser)
    (sessions : List RegisteredSession) :
    (start businesses environments users sessions).Sound lower := by
  have none_ : ∀ {Row : Type} {writer : Row → Option Nat} {writing : Nat → Prop} (f : Row → Row)
      (rows : List Row), Inserts writer writing (rows.map fun row => ⟨some (f row), none⟩) := by
    intro Row writer writing f rows c hc i row held
    obtain ⟨stored, -, rfl⟩ := List.mem_map.mp hc
    cases held
  refine ⟨⟨none_ _ businesses, none_ _ environments, none_ _ users, none_ _ sessions⟩, ?_⟩
  intro i c at_
  simp [start] at at_

/-- What is committed was written by calls that have not failed since. -/
def Kept (s : Registrations) : Prop := s.db.Written (s.Is RegistrationCall.wrote)

theorem kept_start (businesses : List RegisteredBusiness)
    (environments : List RegisteredEnvironment) (users : List RegisteredUser)
    (sessions : List RegisteredSession) : (start businesses environments users sessions).Kept := by
  have none_ : ∀ {Row : Type} {writer : Row → Option Nat} {wrote : Nat → Prop} (f : Row → Row)
      (rows : List Row), (∀ row, writer (f row) = none) →
        Written writer wrote (rows.map fun row => ⟨some (f row), none⟩) := by
    intro Row writer wrote f rows unwritten row listed i own
    obtain ⟨c, hc, stored⟩ := ReadCommitted.mem_committed.mp listed
    obtain ⟨old, -, rfl⟩ := List.mem_map.mp hc
    cases stored
    rw [unwritten old] at own
    exact nomatch own
  exact ⟨none_ _ businesses fun _ => rfl, none_ _ environments fun _ => rfl,
    none_ _ users fun _ => rfl, none_ _ sessions fun _ => rfl⟩

/-- No call fails that has committed already. -/
def NoLateFailure (s : Registrations) (a : RegistrationAction) : Prop :=
  ∀ i, a = .fail i → ∀ c, s.calls[i]? = some c → c.wrote = false

instance (s : Registrations) (a : RegistrationAction) : Decidable (s.NoLateFailure a) :=
  match a with
  | .fail i => decidable_of_iff (∀ c ∈ s.calls[i]?, c.wrote = false)
      ⟨fun all j same c at_ => all c (by cases same; exact at_), fun all c at_ => all i rfl c at_⟩
  | .registerBusiness _ => isTrue nofun
  | .createSdkUser _ _ => isTrue nofun
  | .run _ _ => isTrue nofun

theorem Kept.step (kept : s.Kept) (sound : s.Sound lower) (timely : s.NoLateFailure a)
    (h : s.step lower a = some s') : s'.Kept := by
  have more : ∀ {db : RegistrationDatabase} {wrote : Nat → Prop}, s.db = db →
      (∀ j, s.Is RegistrationCall.wrote j → wrote j) → db.Written wrote := by
    rintro db wrote rfl keeps
    exact RegistrationDatabase.Written.mono kept keeps
  rcases step_cases h with
    ⟨c, new, rfl⟩ | ⟨i, c, db, c', at_, move, rfl⟩ | ⟨i, c, c', rfl, at_, failed, rfl⟩
  · exact more rfl fun j yes => is_arrive yes c
  · have keep : (c.wrote = true → c'.wrote = true) → ∀ j, s.Is RegistrationCall.wrote j →
        (s.settle i db c').Is RegistrationCall.wrote j := fun keeps j => is_keep at_ keeps db
    have now : c'.wrote = true → (s.settle i db c').Is RegistrationCall.wrote i :=
      fun yes => is_own at_ yes db
    have ended : ∀ {writer : Option Nat}, writer = some i → c'.wrote = true → ∀ j,
        writer = some j → (s.settle i db c').Is RegistrationCall.wrote j := by
      rintro writer rfl yes j same
      cases same
      exact now yes
    cases move with
    | quiet running writing early wrote => exact more rfl (keep fun yes => wrote.trans yes)
    | business own =>
      have old := more rfl (keep nofun)
      exact ⟨old.businesses.insert i _, old.environments, old.users, old.sessions⟩
    | environment own open_ next =>
      have old := more rfl (keep fun yes =>
        absurd ((RegisterPoint.not_wrote open_).symm.trans yes) Bool.false_ne_true)
      exact ⟨old.businesses, old.environments.insert i _, old.users, old.sessions⟩
    | user own =>
      have old := more rfl (keep nofun)
      exact ⟨old.businesses, old.environments, old.users.insert i _, old.sessions⟩
    | lost => exact (more rfl (keep nofun)).rollback i
    | commit => exact (more rfl (keep nofun)).commit sound.inserts (now rfl)
    | session own =>
      have old := more rfl (keep fun _ => rfl)
      exact ⟨old.businesses, old.environments, old.users, old.sessions.insertNow (ended own rfl)⟩
    | sdkUser own =>
      have old := more rfl (keep nofun)
      exact ⟨old.businesses, old.environments, old.users.insertNow (ended own rfl), old.sessions⟩
  · refine (more rfl fun j yes => is_keep at_ (fun yes => ?_) _ yes).rollback i
    exact absurd ((timely i rfl c at_).symm.trans yes) Bool.false_ne_true

/-- A registration that has returned an error has added no row. -/
def AllOrNothing (s : Registrations) : Prop :=
  ∀ i q e, s.calls[i]? = some (.register q (.done (.error e))) → s.db.Nothing i

theorem Kept.allOrNothing (kept : s.Kept) : s.AllOrNothing := by
  intro i q e at_
  refine RegistrationDatabase.Written.mono kept ?_
  rintro j ⟨c, at', wrote⟩ rfl
  cases Option.some.inj (at_.symm.trans at')
  exact nomatch wrote

/-- A registration has returned an error, and its business is there. -/
def Stranded (s : Registrations) : Prop :=
  ∃ i q e, s.calls[i]? = some (.register q (.done (.error e))) ∧
    ∃ row ∈ committed s.db.businesses, row.writer = some i

theorem Stranded.not_allOrNothing (stranded : s.Stranded) : ¬ s.AllOrNothing := by
  obtain ⟨i, q, e, at_, row, listed, own⟩ := stranded
  intro all
  exact (all i q e at_).businesses row listed i own rfl

/-- A call that has returned makes no move, and what it has committed stays. -/
theorem Stranded.step (stranded : s.Stranded) (sound : s.Sound lower)
    (h : s.step lower a = some s') : s'.Stranded := by
  obtain ⟨i, q, e, at_, row, listed, own⟩ := stranded
  have within := (List.getElem?_eq_some_iff.mp at_).1
  rcases step_cases h with
    ⟨c, new, rfl⟩ | ⟨j, c, db, c', at', move, rfl⟩ | ⟨j, c, c', -, at', failed, rfl⟩
  · refine ⟨i, q, e, ?_, row, listed, own⟩
    rw [List.getElem?_append_left within]
    exact at_
  · have other : j ≠ i := by
      rintro rfl
      cases Option.some.inj (at_.symm.trans at')
      exact nomatch move.running
    have spares := RegistrationMove.spares move sound.inserts
    refine ⟨i, q, e, ?_, row, spares.businesses.stored row listed, own⟩
    rw [settle, List.getElem?_set_ne other]
    exact at_
  · have other : j ≠ i := by
      rintro rfl
      cases Option.some.inj (at_.symm.trans at')
      exact nomatch failed
    have spares := RegistrationDatabase.Spares.rollback j s.db
    refine ⟨i, q, e, ?_, row, spares.businesses.stored row listed, own⟩
    rw [settle, List.getElem?_set_ne other]
    exact at_

/-- A failure after the commit strands what is committed. -/
theorem stranded_of_late (sound : s.Sound lower) (h : s.step lower a = some s')
    (late : ¬ s.NoLateFailure a) : s'.Stranded := by
  obtain ⟨i, rfl, c, at_, wrote⟩ :
      ∃ i, a = .fail i ∧ ∃ c, s.calls[i]? = some c ∧ c.wrote = true := by
    by_contra none_
    refine late fun i same c at_ => Bool.eq_false_iff.mpr fun wrote => ?_
    exact none_ ⟨i, same, c, at_, wrote⟩
  obtain ⟨d, at', moved⟩ := Option.bind_eq_some_iff.mp h
  obtain ⟨c', failed, same⟩ := Option.bind_eq_some_iff.mp moved
  cases Option.some.inj (at_.symm.trans at')
  obtain ⟨q, rfl, registers⟩ :
      ∃ q, c' = .register q (.done (.error .internal)) ∧ c.registers = true := by
    cases c with
    | register q point =>
      cases point <;> simp only [RegistrationCall.failed, reduceCtorEq] at failed <;>
        exact ⟨q, (Option.some.inj failed).symm, rfl⟩
    | createSdkUser ctx q point =>
      cases point <;> simp [RegistrationCall.failed, RegistrationCall.wrote] at failed wrote
  obtain ⟨row, listed, own⟩ := (sound.facts i c at_).business wrote registers
  cases same
  have spares := RegistrationDatabase.Spares.rollback i s.db
  exact ⟨i, q, .internal, List.getElem?_set_self (List.getElem?_eq_some_iff.mp at_).1, row,
    spares.businesses.stored row listed, own⟩

/-- In every run, whatever is in the database before it, the registrations that have
returned an error have added no rows exactly when none of them failed after its commit. -/
theorem register_all_or_nothing_iff (lower : Lowercasing)
    (businesses : List RegisteredBusiness) (environments : List RegisteredEnvironment)
    (users : List RegisteredUser) (sessions : List RegisteredSession)
    (as : List RegistrationAction) (s : Registrations)
    (run : Machine.run (step lower) (start businesses environments users sessions) as = some s) :
    s.AllOrNothing ↔
      Machine.Along (step lower) NoLateFailure
        (start businesses environments users sessions) as := by
  have first : (start businesses environments users sessions).Sound lower :=
    sound_start businesses environments users sessions
  constructor
  · intro all
    exact Machine.along_of_avoided (I := Sound lower) (fun _ _ _ sound => sound.step)
      (fun _ _ _ sound stranded h => stranded.step sound h)
      (fun _ _ _ sound h late => stranded_of_late sound h late) first run
      fun stranded => stranded.not_allOrNothing all
  · intro timely
    have kept := (Machine.invariant_along (I := fun s => s.Sound lower ∧ s.Kept)
      (fun s a t both now h => ⟨both.1.step h, both.2.step both.1 now h⟩)
      ⟨first, kept_start businesses environments users sessions⟩ timely run).2
    exact kept.allOrNothing

def sampleRegistration : RegisterBusinessRequest :=
  ⟨"Acme", none, "Ada", "Byron", "Ada@acme.test ", "correct horse"⟩

/-- A registration up to its commit, and the failure of what comes after it. -/
def failsAfterCommit : List RegistrationAction :=
  [.registerBusiness sampleRegistration, .run 0 .go, .run 0 .go, .run 0 .go, .run 0 (.random ⟨1⟩),
    .run 0 (.random ⟨2⟩), .run 0 (.random ⟨3⟩), .run 0 (.hashed "hash"), .run 0 (.random ⟨4⟩),
    .run 0 .go, .run 0 .go, .fail 0]

theorem register_all_or_nothing_iff_failed : ∃ s,
    Machine.run (step .latin) (start [] [] [] []) failsAfterCommit = some s ∧
      (s.AllOrNothing ↔
        Machine.Along (step .latin) NoLateFailure (start [] [] [] []) failsAfterCommit) := by
  have evaluated :
      (Machine.run (step .latin) (start [] [] [] []) failsAfterCommit).isSome = true := by
    decide +kernel
  obtain ⟨s, run⟩ := Option.isSome_iff_exists.mp evaluated
  exact ⟨s, run, register_all_or_nothing_iff .latin [] [] [] [] failsAfterCommit s run⟩

/-- The insert of the session fails, and the business, its environments and the user stay:
the same registration is refused from then on. -/
theorem failed_session_strands_business : ¬ ∀ (lower : Lowercasing)
    (businesses : List RegisteredBusiness) (environments : List RegisteredEnvironment)
    (users : List RegisteredUser) (sessions : List RegisteredSession)
    (as : List RegistrationAction) (s : Registrations),
      Machine.run (step lower) (start businesses environments users sessions) as = some s →
        s.AllOrNothing := by
  intro claim
  have evaluated : (Machine.run (step .latin) (start [] [] [] []) (failsAfterCommit ++
      [.registerBusiness sampleRegistration, .run 1 .go, .run 1 .go])).any (fun s =>
        s.calls = [.register sampleRegistration (.done (.error .internal)),
          .register sampleRegistration (.done (.error (.conflict duplicateEmailMessage)))] ∧
        (committed s.db.businesses).any (fun row => row.writer = some 0)) = true := by
    decide +kernel
  obtain ⟨s, run, both⟩ := (Option.any_eq_true _ _).mp evaluated
  obtain ⟨calls, stays⟩ := of_decide_eq_true both
  obtain ⟨row, listed, own⟩ := List.any_eq_true.mp stays
  have nothing := claim .latin [] [] [] [] _ s run 0 sampleRegistration .internal
    (by rw [calls]; rfl)
  exact nothing.businesses row listed 0 (of_decide_eq_true own) rfl

end Registrations

end RailsCore.UsersService
