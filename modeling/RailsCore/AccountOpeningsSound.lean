import RailsCore.AccountOpenings
import RailsCore.AccountRules
import RailsCore.RegistrationsSound

/-!
# Every account has its owner in the users service

No constraint connects the two databases. What connects them is that users and
environments are never changed in the columns that the lookup reads and never
deleted, and that an account keeps the columns it was opened with. So what the
lookup has found for a request is still so in every later state.
-/

namespace RailsCore

namespace UsersService
open ReadCommitted (committed Keyed Spares)

/-- The primary keys of users and environments, also over the pending rows. -/
structure RegistrationDatabase.KeyedIds (db : RegistrationDatabase) : Prop where
  users : Keyed (fun u : RegisteredUser => u.id) db.users
  environments : Keyed (fun e : RegisteredEnvironment => e.id) db.environments

/-- What is committed in one state is committed in the other. -/
structure RegistrationDatabase.Stays (db db' : RegistrationDatabase) : Prop where
  users : ∀ u ∈ committed db.users, u ∈ committed db'.users
  environments : ∀ e ∈ committed db.environments, e ∈ committed db'.environments

namespace Registrations
variable {lower : Lowercasing} {s s' : Registrations} {a : RegistrationAction} {i : Nat}
  {db db' : RegistrationDatabase}

theorem keyedIds_registerNext {q : RegisterBusinessRequest} {point point' : RegisterPoint}
    {input : RegistrationInput} (keyed : db.KeyedIds)
    (h : registerNext lower i q db point input = some (db', point')) : db'.KeyedIds := by
  obtain ⟨users, environments⟩ := keyed
  cases point <;> cases input <;> simp only [registerNext, reduceCtorEq] at h
  case start.go | find.go =>
    split_ifs at h <;> cases h <;> exact ⟨users, environments⟩
  case begin.go | hash.hashed | encode.go =>
    cases h
    exact ⟨users, environments⟩
  case business.random id =>
    split_ifs at h
    cases h
    exact ⟨users, environments⟩
  case sandbox.random businessId id | production.random businessId sandboxId id =>
    split_ifs at h with fresh
    cases h
    exact ⟨users, environments.insert i (ReadCommitted.unused_iff.mp fresh)⟩
  case user.random businessId sandboxId productionId passwordHash id =>
    split_ifs at h with fresh
    split at h
    · cases h
    · cases h
      exact ⟨users.rollback i, environments.rollback i⟩
    · cases h
      exact ⟨users.insert i (ReadCommitted.unused_iff.mp fresh), environments⟩
  case commit.go =>
    cases h
    exact ⟨users.commit i, environments.commit i⟩
  case session.session ids id refreshToken jwtId =>
    split_ifs at h
    cases h
    exact ⟨users, environments⟩

theorem keyedIds_createSdkUserNext {ctx : ApiKeyOnlyContext} {q : CreateSdkUserRequest}
    {point point' : SdkUserPoint} {input : RegistrationInput} (keyed : db.KeyedIds)
    (h : createSdkUserNext lower i ctx q db point input = some (db', point')) : db'.KeyedIds := by
  obtain ⟨users, environments⟩ := keyed
  cases point <;> cases input <;> simp only [createSdkUserNext, reduceCtorEq] at h
  case start.go =>
    split at h <;> cases h <;> exact ⟨users, environments⟩
  case find.go =>
    split_ifs at h <;> cases h <;> exact ⟨users, environments⟩
  case hash.hashed =>
    cases h
    exact ⟨users, environments⟩
  case insert.random email firstName lastName passwordHash id =>
    split_ifs at h with fresh
    split at h
    · cases h
    · cases h
      exact ⟨users, environments⟩
    · cases h
      exact ⟨users.insertNow (ReadCommitted.unused_iff.mp fresh), environments⟩

theorem keyedIds_step (keyed : s.db.KeyedIds) (h : s.step lower a = some s') : s'.db.KeyedIds := by
  cases a with
  | registerBusiness q | createSdkUser ctx q =>
    cases h
    exact keyed
  | run i input =>
    obtain ⟨c, at_, moved⟩ := Option.bind_eq_some_iff.mp h
    obtain ⟨⟨db, c'⟩, taken, same⟩ := Option.bind_eq_some_iff.mp moved
    cases same
    cases c with
    | register q point =>
      obtain ⟨⟨db', point'⟩, next, equal⟩ := Option.map_eq_some_iff.mp taken
      cases equal
      exact keyedIds_registerNext keyed next
    | createSdkUser ctx q point =>
      obtain ⟨⟨db', point'⟩, next, equal⟩ := Option.map_eq_some_iff.mp taken
      cases equal
      exact keyedIds_createSdkUserNext keyed next
  | fail i =>
    obtain ⟨c, at_, moved⟩ := Option.bind_eq_some_iff.mp h
    obtain ⟨c', failed, same⟩ := Option.bind_eq_some_iff.mp moved
    cases same
    exact ⟨keyed.users.rollback i, keyed.environments.rollback i⟩

theorem stays_step (sound : s.Sound lower) (h : s.step lower a = some s') : s.db.Stays s'.db := by
  rcases step_cases h with
    ⟨c, new, rfl⟩ | ⟨i, c, db, c', at_, move, rfl⟩ | ⟨i, c, c', -, at_, failed, rfl⟩
  · exact ⟨fun _ listed => listed, fun _ listed => listed⟩
  · refine ⟨(RegistrationMove.spares move sound.inserts).users.stored, ?_⟩
    cases move with
    | environment => exact (Spares.insert i _ _).stored
    | lost => exact (Spares.rollback i _).stored
    | commit => exact (sound.inserts.environments.commit_spares i).stored
    | quiet | business | user | session | sdkUser => exact fun _ listed => listed
  · exact ⟨(Spares.rollback i _).stored, (Spares.rollback i _).stored⟩

theorem keyedIds_start (businesses : List RegisteredBusiness)
    {environments : List RegisteredEnvironment} {users : List RegisteredUser}
    (sessions : List RegisteredSession) (userIds : Table.Unique (fun u => u.id) users)
    (environmentIds : Table.Unique (fun e => e.id) environments) :
    (start businesses environments users sessions).db.KeyedIds := by
  constructor
  · have rows : ((users.map fun row => { row with writer := none }).map
        (fun u : RegisteredUser => u.id)).Nodup := by
      rw [List.map_map]
      exact userIds
    have stored := (Keyed.stored rows).1
    rw [List.map_map] at stored
    exact stored
  · have rows : ((environments.map fun row => { row with writer := none }).map
        (fun e : RegisteredEnvironment => e.id)).Nodup := by
      rw [List.map_map]
      exact environmentIds
    have stored := (Keyed.stored rows).1
    rw [List.map_map] at stored
    exact stored

end Registrations

end UsersService

open UsersService (RegisteredBusiness RegisteredEnvironment RegisteredUser RegisteredSession
  RegistrationDatabase ApiKeyRow Lowercasing normalizeEmail trim)
open ReadCommitted (committed)

/-! Opening an account -/

/-- The columns of an account that come from the request to open it. -/
structure CreateAccount.Opens (q : CreateAccount) (r : AccountRow) : Prop where
  organizationId : r.organizationId = some q.organizationId
  environment : r.environment = some q.environment
  userId : r.userId = some q.userId
  accountType : r.accountType = q.accountType
  currency : r.currency = varchar 3 q.currency

namespace AccountAdministration
open AccountRepository AccountService
variable {s t : AccountAdministration}

theorem create_opens {rows rows' : List AccountRow} {id : Uuid} {accountNumber : String}
    {q : CreateAccount} {row : AccountRow} (h : create rows id accountNumber q = .ok (rows', row)) :
    rows' = rows ++ [row] ∧ q.Opens row := by
  unfold create at h
  split at h
  · cases h
  · rename_i currency fits
    split_ifs at h
    cases h
    exact ⟨rfl, rfl, rfl, rfl, rfl, fits.symm⟩

theorem creationNext_opens {rows rows' : List AccountRow} {c : Creation} {input : CreationInput}
    {row : AccountRow} (next : creationNext rows c input = some (rows', .done (.ok row))) :
    c.request.Opens row := by
  unfold creationNext at next
  split at next
  · dsimp only at next
    split at next <;> cases next
  · split at next
    · cases next
    · split at next <;> cases next
  · split at next
    · rename_i inserted
      cases next
      exact (create_opens inserted).2
    · cases next
  · exact nomatch next

/-- Where a row has come from that is there after a step. -/
theorem rows_step {a : AdministrationAction} (h : s.step a = some t) :
    ∀ r ∈ t.rows, (∃ r₀ ∈ s.rows, ∀ q : CreateAccount, q.Opens r₀ → q.Opens r) ∨
      ∃ d ∈ s.creations, d.request.Opens r := by
  intro r hr
  have moved := moved_step h
  generalize t.rows = rows at moved hr
  cases moved with
  | same => exact .inl ⟨r, hr, fun _ opens => opens⟩
  | inserted at_ point insert =>
    obtain ⟨rfl, opens⟩ := create_opens insert
    rcases List.mem_append.mp hr with before | new
    · exact .inl ⟨r, before, fun _ opens => opens⟩
    · cases List.mem_singleton.mp new
      exact .inr ⟨_, List.mem_of_getElem? at_, opens⟩
  | updated at_ point =>
    rw [AccountRules.updateStatus_rows] at hr
    obtain ⟨r₀, before, same⟩ := Table.mem_updateWhere.mp hr
    refine .inl ⟨r₀, before, fun q opens => ?_⟩
    split at same <;> subst same
    · exact ⟨opens.organizationId, opens.environment, opens.userId, opens.accountType,
        opens.currency⟩
    · exact opens

/-- A creation keeps its request, and returns an account that it has opened. -/
structure CreationKept (d d' : Creation) : Prop where
  request : d'.request = d.request
  opened : ∀ row, d'.point = .done (.ok row) → d.point = .done (.ok row) ∨ d.request.Opens row

theorem creations_step {a : AdministrationAction} (closed : ∀ q, a ≠ .open_ q)
    (h : s.step a = some t) :
    t.creations.length = s.creations.length ∧ ∀ (j : Nat) (d' : Creation),
      t.creations[j]? = some d' → ∃ d, s.creations[j]? = some d ∧ CreationKept d d' := by
  have same : ∀ (j : Nat) (d' : Creation), s.creations[j]? = some d' →
      ∃ d, s.creations[j]? = some d ∧ CreationKept d d' :=
    fun j d' at_ => ⟨d', at_, rfl, fun _ ended => .inl ended⟩
  cases a with
  | open_ q => exact absurd rfl (closed q)
  | updateAccountStatus id environment status =>
    cases h
    exact ⟨rfl, same⟩
  | change i =>
    obtain ⟨c, at_, h⟩ := Option.bind_eq_some_iff.mp h
    obtain ⟨⟨rows, point⟩, next, h⟩ := Option.bind_eq_some_iff.mp h
    cases h
    exact ⟨rfl, same⟩
  | creation i input =>
    obtain ⟨c, at_, h⟩ := Option.bind_eq_some_iff.mp h
    obtain ⟨⟨rows, point⟩, next, h⟩ := Option.bind_eq_some_iff.mp h
    cases h
    refine ⟨List.length_set, fun j d' there => ?_⟩
    rcases Machine.replaced_cases at_ there with ⟨rfl, rfl⟩ | ⟨-, old⟩
    · refine ⟨c, at_, rfl, fun row ended => .inr ?_⟩
      cases ended
      exact creationNext_opens next
    · exact same j d' old

end AccountAdministration

theorem Environment.display_lower (environment : Environment) :
    UsersService.toLowercase (trim environment.display) = environment.display ∧
      (environment.display = "sandbox" ∨ environment.display = "production") := by
  cases environment <;> decide +kernel

theorem Environment.display_injective {environment environment' : Environment}
    (h : environment.display = environment'.display) : environment = environment' := by
  cases environment <;> cases environment' <;> first | rfl | exact absurd h (by decide)

namespace CreateAccountCall
variable {c : CreateAccountCall}

/-- The users service refuses nothing that the handler has let pass, and looks up
what the request says. -/
theorem accepted_eq (lower : Lowercasing) : c.accepted lower = (checkCreateAccount c.headers c.request).map
    fun (environment, apiKey) => (environment, {
      apiKeyPlain := apiKey, environment := environment.display
      email := normalizeEmail lower c.request.email, firstName := trim c.request.firstName
      lastName := trim c.request.lastName }) := by
  rw [accepted]
  cases checked : checkCreateAccount c.headers c.request with
  | error e => rfl
  | ok passed =>
    obtain ⟨environment, apiKey⟩ := passed
    unfold checkCreateAccount at checked
    split at checked
    · cases checked
    · split at checked
      · cases checked
      · rename_i text key
        split_ifs at checked with email firstName lastName
        cases checked
        obtain ⟨raw, -, trimmed⟩ : ∃ raw, True ∧ apiKey = trim raw := by
          obtain ⟨raw, -, same⟩ := Option.map_eq_some_iff.mp (Option.filter_eq_some_iff.mp key).1
          exact ⟨raw, trivial, same.symm⟩
        have visible : apiKey ≠ "" := by
          simpa using (Option.filter_eq_some_iff.mp key).2
        have again : trim apiKey = apiKey := by rw [trimmed, UsersService.trim_trim]
        obtain ⟨same, known⟩ := environment.display_lower
        have normal : normalizeEmail lower c.request.email ≠ "" :=
          lower.toLowercase_ne_empty email
        have inputs : UsersService.validateApiKeyRequestInputs apiKey environment.display =
            .ok (apiKey, environment.display) := by
          rw [UsersService.validateApiKeyRequestInputs, again, same, if_neg visible, if_neg]
          rintro ⟨sandbox, production⟩
          exact known.elim sandbox production
        have names : UsersService.normalizeAccountUserLookupInputs lower
            c.request.email c.request.firstName c.request.lastName =
              .ok (normalizeEmail lower c.request.email, trim c.request.firstName,
                trim c.request.lastName) := by
          simp only [UsersService.normalizeAccountUserLookupInputs, normal, firstName, lastName,
            if_false]
        simp only [UsersService.ownerLookup, inputs, names]
        rfl

end CreateAccountCall

namespace AccountOpenings

variable (lib : OpeningLibraries)

/-- In one of these states the API key was usable, and one of the business. -/
def HadKey (past : List AccountOpenings) (apiKey : String) (businessId : Uuid) : Prop :=
  ∃ m ∈ past, ∃ key ∈ m.apiKeys, key.keyHash = lib.hashApiKey apiKey ∧ key.Usable ∧
    key.businessId = businessId

/-- The business has this environment, of this type, and it is active. -/
def InEnvironment (db : RegistrationDatabase) (environment : Environment)
    (businessId environmentId : Uuid) : Prop :=
  ∃ e ∈ committed db.environments, e.id = environmentId ∧ e.businessId = businessId ∧
    e.type = environment.display ∧ e.status = "active"

/-- The users service has the user, with the email and the names of the request. -/
def HasUser (db : RegistrationDatabase) (request : CreateAccountRequest)
    (owner : ResolvedAccountUser) : Prop :=
  ∃ u ∈ committed db.users, u.id = owner.userId ∧ u.businessId = owner.businessId ∧
    u.environmentId = owner.environmentId ∧
    u.email = normalizeEmail lib.toLowercasing request.email ∧
    u.firstName = trim request.firstName ∧ u.lastName = trim request.lastName ∧
    u.status = "active"

/-- A request passes the checks in this environment, and its API key was that of the business of
a user whom it names. -/
structure Entitled (past : List AccountOpenings) (db : RegistrationDatabase)
    (c : CreateAccountCall) (environment : Environment) (owner : ResolvedAccountUser) : Prop where
  key : ∃ apiKey, checkCreateAccount c.headers c.request = .ok (environment, apiKey) ∧
    HadKey lib past apiKey owner.businessId
  environment : InEnvironment db environment owner.businessId owner.environmentId
  user : HasUser lib db c.request owner

/-- What is known of a request at its point. -/
def PointSound (past : List AccountOpenings) (s : AccountOpenings) (c : CreateAccountCall) : Prop :=
  match c.point with
  | .received | .failed _ => True
  | .key environment q => c.accepted lib.toLowercasing = .ok (environment, q)
  | .environment environment q businessId =>
    c.accepted lib.toLowercasing = .ok (environment, q) ∧ HadKey lib past q.apiKeyPlain businessId
  | .user environment q businessId environmentId =>
    c.accepted lib.toLowercasing = .ok (environment, q) ∧ HadKey lib past q.apiKeyPlain businessId ∧
      InEnvironment s.registrations.db environment businessId environmentId
  | .reply environment owner => Entitled lib past s.registrations.db c environment owner
  | .creation j => ∃ d environment owner, s.accounts.creations[j]? = some d ∧
    d.request = c.creation environment owner ∧
    Entitled lib past s.registrations.db c environment owner

/-- What some request has become after the lookup. -/
def Requested (past : List AccountOpenings) (s : AccountOpenings) (q : CreateAccount) : Prop :=
  ∃ c ∈ s.calls, ∃ environment owner, q = c.creation environment owner ∧
    Entitled lib past s.registrations.db c environment owner

structure History (past : List AccountOpenings) (s : AccountOpenings) : Prop where
  sound : s.registrations.Sound lib.toLowercasing
  ids : s.registrations.db.KeyedIds
  points : ∀ c ∈ s.calls, PointSound lib past s c
  requested : ∀ d ∈ s.accounts.creations, Requested lib past s d.request
  rows : ∀ r ∈ s.accounts.rows, ∃ q, Requested lib past s q ∧ q.Opens r
  opened : ∀ d ∈ s.accounts.creations, ∀ row, d.point = .done (.ok row) → d.request.Opens row

/-- What a later state keeps of an earlier one. -/
structure Extends (past past' : List AccountOpenings) (s t : AccountOpenings) : Prop where
  past : past ⊆ past'
  database : s.registrations.db.Stays t.registrations.db
  calls : ∀ c ∈ s.calls, ∃ c' ∈ t.calls, c'.headers = c.headers ∧ c'.request = c.request
  creations : ∀ (j : Nat) d, s.accounts.creations[j]? = some d →
    ∃ d', t.accounts.creations[j]? = some d' ∧ d'.request = d.request

variable {lib} {past past' : List AccountOpenings} {s t : AccountOpenings}
  {c c' : CreateAccountCall}

theorem HadKey.mono {apiKey : String} {businessId : Uuid} (h : HadKey lib past apiKey businessId)
    (more : past ⊆ past') : HadKey lib past' apiKey businessId := by
  obtain ⟨m, listed, key⟩ := h
  exact ⟨m, more listed, key⟩

theorem InEnvironment.mono {db db' : RegistrationDatabase} {environment : Environment}
    {businessId environmentId : Uuid}
    (h : InEnvironment db environment businessId environmentId) (stays : db.Stays db') :
    InEnvironment db' environment businessId environmentId := by
  obtain ⟨e, listed, is⟩ := h
  exact ⟨e, stays.environments e listed, is⟩

theorem Entitled.mono {environment : Environment} {owner : ResolvedAccountUser}
    (h : Entitled lib past s.registrations.db c environment owner)
    (extends_ : Extends past past' s t) (headers : c'.headers = c.headers)
    (request : c'.request = c.request) :
    Entitled lib past' t.registrations.db c' environment owner := by
  obtain ⟨⟨apiKey, checked, had⟩, inside, u, listed, is⟩ := h
  refine ⟨⟨apiKey, ?_, had.mono extends_.past⟩, inside.mono extends_.database, u,
    extends_.database.users u listed, ?_⟩
  · rw [headers, request]
    exact checked
  · rw [request]
    exact is

theorem Requested.mono {q : CreateAccount} (h : Requested lib past s q)
    (extends_ : Extends past past' s t) : Requested lib past' t q := by
  obtain ⟨c, hc, environment, owner, rfl, entitled⟩ := h
  obtain ⟨c', hc', headers, request⟩ := extends_.calls c hc
  refine ⟨c', hc', environment, owner, ?_, entitled.mono extends_ headers request⟩
  rw [CreateAccountCall.creation, CreateAccountCall.creation, request]

theorem PointSound.mono (h : PointSound lib past s c) (extends_ : Extends past past' s t) :
    PointSound lib past' t c := by
  obtain ⟨headers, request, point⟩ := c
  cases point with
  | received | failed => trivial
  | key environment q => exact h
  | environment environment q businessId => exact ⟨h.1, h.2.mono extends_.past⟩
  | user environment q businessId environmentId =>
    exact ⟨h.1, h.2.1.mono extends_.past, h.2.2.mono extends_.database⟩
  | reply environment owner => exact Entitled.mono h extends_ rfl rfl
  | creation j =>
    obtain ⟨d, environment, owner, at_, same, entitled⟩ := h
    obtain ⟨d', at', kept⟩ := extends_.creations j d at_
    exact ⟨d', environment, owner, at', kept.trans same, entitled.mono extends_ rfl rfl⟩

/-- Every step but the insert of an account: what is new are points and requests. -/
theorem History.extend (history : History lib past s) (extends_ : Extends past past' s t)
    (sound : t.registrations.Sound lib.toLowercasing) (ids : t.registrations.db.KeyedIds)
    (points : ∀ c ∈ t.calls, c ∈ s.calls ∨ PointSound lib past' t c)
    (requested : ∀ d ∈ t.accounts.creations,
      (∃ d₀ ∈ s.accounts.creations, AccountAdministration.CreationKept d₀ d) ∨
        Requested lib past' t d.request ∧ d.point = .count)
    (rows : ∀ r ∈ t.accounts.rows,
      (∃ r₀ ∈ s.accounts.rows, ∀ q : CreateAccount, q.Opens r₀ → q.Opens r) ∨
        ∃ d ∈ s.accounts.creations, d.request.Opens r) : History lib past' t := by
  refine ⟨sound, ids, ?_, ?_, ?_, ?_⟩
  · intro c hc
    rcases points c hc with before | new
    · exact (history.points c before).mono extends_
    · exact new
  · intro d hd
    rcases requested d hd with ⟨d₀, before, kept⟩ | ⟨new, -⟩
    · rw [kept.request]
      exact (history.requested d₀ before).mono extends_
    · exact new
  · intro r hr
    rcases rows r hr with ⟨r₀, before, keeps⟩ | ⟨d, made, opens⟩
    · obtain ⟨q, asked, opens⟩ := history.rows r₀ before
      exact ⟨q, asked.mono extends_, keeps q opens⟩
    · exact ⟨d.request, (history.requested d made).mono extends_, opens⟩
  · intro d hd row ended
    rcases requested d hd with ⟨d₀, before, kept⟩ | ⟨-, counting⟩
    · rw [kept.request]
      rcases kept.opened row ended with old | opens
      · exact history.opened d₀ before row old
      · exact opens
    · cases counting.symm.trans ended

theorem accepted_environment {environment : Environment} {q : UsersService.OwnerLookup}
    (accepted : c.accepted lib.toLowercasing = .ok (environment, q)) :
    checkCreateAccount c.headers c.request = .ok (environment, q.apiKeyPlain) ∧
      q.environment = environment.display ∧
      q.email = normalizeEmail lib.toLowercasing c.request.email ∧
      q.firstName = trim c.request.firstName ∧ q.lastName = trim c.request.lastName := by
  rw [CreateAccountCall.accepted_eq] at accepted
  cases checked : checkCreateAccount c.headers c.request with
  | error e =>
    rw [checked] at accepted
    cases accepted
  | ok passed =>
    rw [checked] at accepted
    cases accepted
    exact ⟨rfl, rfl, rfl, rfl, rfl⟩

theorem keyStatement_hadKey {apiKeyPlain : String} {businessId : Uuid} (here : s ∈ past)
    (h : UsersService.keyStatement lib.toLibraries s.usersDatabase apiKeyPlain = .ok businessId) :
    HadKey lib past apiKeyPlain businessId := by
  rw [UsersService.keyStatement] at h
  split at h
  · cases h
  · rename_i key found
    split_ifs at h with usable
    cases h
    have row : Table.find ApiKeyRow.keyHash (lib.hashApiKey apiKeyPlain) s.apiKeys = some key :=
      found
    obtain ⟨stored, hash⟩ := Table.find_some row
    exact ⟨s, here, key, stored, hash, usable, rfl⟩

theorem environmentStatement_inEnvironment {environment : Environment}
    {businessId environmentId : Uuid}
    (h : UsersService.environmentStatement s.usersDatabase businessId environment.display =
      .ok environmentId) :
    InEnvironment s.registrations.db environment businessId environmentId := by
  rw [UsersService.environmentStatement] at h
  split at h
  · cases h
  · rename_i row found
    cases h
    obtain ⟨e, listed, rfl⟩ := List.mem_map.mp (List.mem_of_find?_eq_some found)
    have selected := List.find?_some found
    simp only [Bool.and_eq_true, decide_eq_true_eq] at selected
    exact ⟨e, listed, rfl, selected.1.1, selected.1.2, selected.2⟩

/-- One statement of the lookup. -/
theorem next_sound {point : CreateAccountPoint} (before : PointSound lib past s c)
    (here : s ∈ past)
    (h : c.next lib s.usersDatabase (committed s.registrations.db.users) = some point) :
    PointSound lib past s { c with point } := by
  obtain ⟨headers, request, at_⟩ := c
  cases at_ with
  | received =>
    simp only [CreateAccountCall.next] at h
    split at h
    · cases h
      trivial
    · rename_i environment q passed
      cases h
      exact passed
  | key environment q =>
    simp only [CreateAccountCall.next] at h
    split at h
    · cases h
      trivial
    · rename_i businessId found
      cases h
      exact ⟨before, keyStatement_hadKey here found⟩
  | environment environment q businessId =>
    obtain ⟨accepted, had⟩ := before
    obtain ⟨-, type, -⟩ := accepted_environment accepted
    simp only [CreateAccountCall.next, type] at h
    split at h
    · cases h
      trivial
    · rename_i environmentId found
      cases h
      exact ⟨accepted, had, environmentStatement_inEnvironment found⟩
  | user environment q businessId environmentId =>
    obtain ⟨accepted, had, inside⟩ := before
    obtain ⟨checked, -, email, firstName, lastName⟩ := accepted_environment accepted
    simp only [CreateAccountCall.next] at h
    split at h
    · cases h
      trivial
    · rename_i row found
      cases h
      have selected := List.find?_some found
      simp only [UsersService.ownedBy, Bool.and_eq_true, decide_eq_true_eq, email, firstName,
        lastName] at selected
      obtain ⟨⟨⟨⟨⟨business, environment'⟩, same⟩, first⟩, last⟩, active⟩ := selected
      exact ⟨⟨q.apiKeyPlain, checked, had⟩, inside, row, List.mem_of_find?_eq_some found, rfl,
        business, environment', same, first, last, active⟩
  | reply | creation | failed => cases h

theorem calls_set {i : Nat} (at_ : s.calls[i]? = some c) (point : CreateAccountPoint) :
    ∀ d ∈ s.calls, ∃ d' ∈ s.calls.set i { c with point },
      d'.headers = d.headers ∧ d'.request = d.request := by
  intro d hd
  obtain ⟨j, there⟩ := List.mem_iff_getElem?.mp hd
  by_cases same : j = i
  · subst same
    cases at_.symm.trans there
    exact ⟨_, List.mem_set (List.getElem?_eq_some_iff.mp at_).1 _, rfl, rfl⟩
  · refine ⟨d, List.mem_of_getElem? (i := j) ?_, rfl, rfl⟩
    rw [List.getElem?_set_ne (Ne.symm same)]
    exact there

/-- A later past alone. -/
theorem Extends.of_past (more : past ⊆ past') (s : AccountOpenings) : Extends past past' s s :=
  ⟨more, ⟨fun _ listed => listed, fun _ listed => listed⟩, fun c hc => ⟨c, hc, rfl, rfl⟩,
    fun _ d at_ => ⟨d, at_, rfl⟩⟩

/-- A request moves, and nothing else. -/
theorem History.moved {i : Nat} (history : History lib past s) (more : past ⊆ past')
    (at_ : s.calls[i]? = some c) {point : CreateAccountPoint}
    (now : PointSound lib past' s { c with point }) :
    History lib past' { s with calls := s.calls.set i { c with point } } := by
  have extends_ : Extends past past' s { s with calls := s.calls.set i { c with point } } :=
    ⟨more, ⟨fun _ listed => listed, fun _ listed => listed⟩, calls_set at_ point,
      fun _ d at' => ⟨d, at', rfl⟩⟩
  refine history.extend extends_ history.sound history.ids ?_ ?_ ?_
  · intro d hd
    rcases List.mem_or_eq_of_mem_set hd with before | rfl
    · exact .inl before
    · exact .inr now
  · intro d hd
    exact .inl ⟨d, hd, rfl, fun _ ended => .inl ended⟩
  · intro r hr
    exact .inl ⟨r, hr, fun _ opens => opens⟩

/-- The step lemma. -/
theorem History.step {a : OpeningAction} (history : History lib past s)
    (h : s.step lib a = some t) : History lib (past ++ [s]) t := by
  have more : past ⊆ past ++ [s] := List.subset_append_left past [s]
  have here : s ∈ past ++ [s] := by simp
  have keptRows : ∀ r ∈ s.accounts.rows,
      (∃ r₀ ∈ s.accounts.rows, ∀ q : CreateAccount, q.Opens r₀ → q.Opens r) ∨
        ∃ d ∈ s.accounts.creations, d.request.Opens r :=
    fun r hr => .inl ⟨r, hr, fun _ opens => opens⟩
  have keptCreations : ∀ d ∈ s.accounts.creations,
      (∃ d₀ ∈ s.accounts.creations, AccountAdministration.CreationKept d₀ d) ∨
        Requested lib (past ++ [s]) t d.request ∧ d.point = .count :=
    fun d hd => .inl ⟨d, hd, rfl, fun _ ended => .inl ended⟩
  cases a with
  | users a =>
    obtain ⟨registrations, taken, rfl⟩ := Option.map_eq_some_iff.mp h
    have extends_ : Extends past (past ++ [s]) s { s with registrations } :=
      ⟨more, UsersService.Registrations.stays_step history.sound taken,
        fun c hc => ⟨c, hc, rfl, rfl⟩, fun _ d at_ => ⟨d, at_, rfl⟩⟩
    exact history.extend extends_ (history.sound.step taken)
      (UsersService.Registrations.keyedIds_step history.ids taken) (fun c hc => .inl hc)
      keptCreations keptRows
  | keys apiKeys =>
    cases h
    have extends_ : Extends past (past ++ [s]) s { s with apiKeys } :=
      ⟨more, ⟨fun _ listed => listed, fun _ listed => listed⟩, fun c hc => ⟨c, hc, rfl, rfl⟩,
        fun _ d at_ => ⟨d, at_, rfl⟩⟩
    exact history.extend extends_ history.sound history.ids (fun c hc => .inl hc) keptCreations
      keptRows
  | receive headers request =>
    cases h
    have extends_ : Extends past (past ++ [s]) s
        { s with calls := s.calls ++ [⟨headers, request, .received⟩] } :=
      ⟨more, ⟨fun _ listed => listed, fun _ listed => listed⟩,
        fun c hc => ⟨c, List.mem_append_left _ hc, rfl, rfl⟩, fun _ d at_ => ⟨d, at_, rfl⟩⟩
    refine history.extend extends_ history.sound history.ids ?_ keptCreations keptRows
    intro c hc
    rcases List.mem_append.mp hc with before | new
    · exact .inl before
    · cases List.mem_singleton.mp new
      exact .inr trivial
  | run i =>
    obtain ⟨c, at_, h⟩ := Option.bind_eq_some_iff.mp h
    have known := (history.points c (List.mem_of_getElem? at_)).mono (.of_past more s)
    split at h
    · rename_i environment owner replied
      have entitled : Entitled lib (past ++ [s]) s.registrations.db c environment owner := by
        rw [PointSound, replied] at known
        exact known
      cases h
      have extends_ : Extends past (past ++ [s]) s { s with
          accounts := { s.accounts with creations := s.accounts.creations ++
            [⟨c.creation environment owner, .count⟩] }
          calls := s.calls.set i { c with point := .creation s.accounts.creations.length } } := by
        refine ⟨more, ⟨fun _ listed => listed, fun _ listed => listed⟩, calls_set at_ _, ?_⟩
        intro j d at'
        refine ⟨d, ?_, rfl⟩
        rw [List.getElem?_append_left (List.getElem?_eq_some_iff.mp at').1]
        exact at'
      refine history.extend extends_ history.sound history.ids ?_ ?_ ?_
      · intro d hd
        rcases List.mem_or_eq_of_mem_set hd with before | rfl
        · exact .inl before
        · exact .inr ⟨_, environment, owner, List.getElem?_concat_length, rfl, entitled.key,
            entitled.environment, entitled.user⟩
      · intro d hd
        rcases List.mem_append.mp hd with before | new
        · exact .inl ⟨d, before, rfl, fun _ ended => .inl ended⟩
        · cases List.mem_singleton.mp new
          have asks := List.mem_set (List.getElem?_eq_some_iff.mp at_).1
            { c with point := .creation s.accounts.creations.length }
          exact .inr ⟨⟨_, asks, environment, owner, rfl, entitled.key, entitled.environment,
            entitled.user⟩, rfl⟩
      · exact keptRows
    · obtain ⟨point, next, h⟩ := Option.bind_eq_some_iff.mp h
      cases h
      exact history.moved more at_ (next_sound known here next)
  | fail i message =>
    obtain ⟨c, at_, h⟩ := Option.bind_eq_some_iff.mp h
    obtain ⟨point, failed, h⟩ := Option.bind_eq_some_iff.mp h
    cases h
    refine history.moved more at_ ?_
    unfold CreateAccountCall.fail at failed
    split at failed <;> cases failed <;> trivial
  | accounts a =>
    have closed : ∀ q, a ≠ .open_ q := by
      rintro q rfl
      cases h
    have taken : ∃ accounts, s.accounts.step a = some accounts ∧ { s with accounts } = t := by
      cases a with
      | open_ q => exact absurd rfl (closed q)
      | creation | updateAccountStatus | change => exact Option.map_eq_some_iff.mp h
    obtain ⟨accounts, taken, rfl⟩ := taken
    obtain ⟨length, kept⟩ := AccountAdministration.creations_step closed taken
    have extends_ : Extends past (past ++ [s]) s { s with accounts } := by
      refine ⟨more, ⟨fun _ listed => listed, fun _ listed => listed⟩,
        fun c hc => ⟨c, hc, rfl, rfl⟩, fun j d at_ => ?_⟩
      have bound : j < accounts.creations.length :=
        length ▸ (List.getElem?_eq_some_iff.mp at_).1
      obtain ⟨d₀, at₀, same⟩ := kept j _ (List.getElem?_eq_getElem bound)
      cases at_.symm.trans at₀
      exact ⟨_, List.getElem?_eq_getElem bound, same.request⟩
    refine history.extend extends_ history.sound history.ids (fun c hc => .inl hc) ?_
      (AccountAdministration.rows_step taken)
    intro d hd
    obtain ⟨j, at_⟩ := List.mem_iff_getElem?.mp hd
    obtain ⟨d₀, at₀, same⟩ := kept j d at_
    exact .inl ⟨d₀, List.mem_of_getElem? at₀, same⟩

theorem history_start (lib : OpeningLibraries) (businesses : List RegisteredBusiness)
    {environments : List RegisteredEnvironment} {users : List RegisteredUser}
    (sessions : List RegisteredSession) (apiKeys : List ApiKeyRow)
    (userIds : Table.Unique (fun u => u.id) users)
    (environmentIds : Table.Unique (fun e => e.id) environments) :
    History lib [] (start businesses environments users sessions apiKeys) where
  sound := UsersService.Registrations.sound_start businesses environments users sessions
  ids := UsersService.Registrations.keyedIds_start businesses sessions userIds environmentIds
  points := by simp [start]
  requested := by simp [start, AccountAdministration.empty]
  rows := by simp [start, AccountAdministration.empty]
  opened := by simp [start, AccountAdministration.empty]

/-- The states that a run goes through before its last one. -/
def passed (lib : OpeningLibraries) (s : AccountOpenings) (as : List OpeningAction) :
    List AccountOpenings :=
  Machine.trace (AccountOpenings.step lib) (fun s _ => some s) s as

/-- The account is one that the request was entitled to open. -/
def OpenedBy (lib : OpeningLibraries) (past : List AccountOpenings)
    (db : RegistrationDatabase) (c : CreateAccountCall) (r : AccountRow) : Prop :=
  ∃ environment owner, Entitled lib past db c environment owner ∧
    (c.creation environment owner).Opens r

/-- Two accounts of one user are in one business and one environment. -/
theorem History.together (history : History lib past s) {r r' : AccountRow}
    (listed : r ∈ s.accounts.rows) (listed' : r' ∈ s.accounts.rows)
    (same : r.userId = r'.userId) :
    r.organizationId = r'.organizationId ∧ r.environment = r'.environment := by
  obtain ⟨_, ⟨c, -, environment, owner, rfl, entitled⟩, opens⟩ := history.rows r listed
  obtain ⟨_, ⟨c', -, environment', owner', rfl, entitled'⟩, opens'⟩ := history.rows r' listed'
  obtain ⟨u, hu, id, business, inside, -⟩ := entitled.user
  obtain ⟨u', hu', id', business', inside', -⟩ := entitled'.user
  obtain ⟨e, he, eid, -, type, -⟩ := entitled.environment
  obtain ⟨e', he', eid', -, type', -⟩ := entitled'.environment
  have users : owner.userId = owner'.userId := by
    have ids := opens.userId.symm.trans (same.trans opens'.userId)
    exact Option.some.inj ids
  obtain rfl : u = u' := history.ids.users.unique hu hu' (id.trans (users.trans id'.symm))
  have businesses : owner.businessId = owner'.businessId := business.symm.trans business'
  have ids : owner.environmentId = owner'.environmentId := inside.symm.trans inside'
  obtain rfl : e = e' :=
    history.ids.environments.unique he he' (eid.trans (ids.trans eid'.symm))
  have environments : environment = environment' :=
    Environment.display_injective (type.symm.trans type')
  constructor
  · exact opens.organizationId.trans ((congrArg some businesses).trans opens'.organizationId.symm)
  · exact opens.environment.trans ((congrArg some environments).trans opens'.environment.symm)

/-- In every run of both services: every account, and every account that a request is answered
with, is one that a request asked for whose API key was usable in an earlier state and one of
the account's business. Its owner is there, an active user of that business with the email and
the names of the request, in the active environment of the account. All accounts of a user are
in one business and one environment. -/
theorem accounts_have_owners (lib : OpeningLibraries)
    (businesses : List RegisteredBusiness) (environments : List RegisteredEnvironment)
    (users : List RegisteredUser) (sessions : List RegisteredSession) (apiKeys : List ApiKeyRow)
    (userIds : Table.Unique (fun u => u.id) users)
    (environmentIds : Table.Unique (fun e => e.id) environments) (as : List OpeningAction)
    (s : AccountOpenings) (run : Machine.run (AccountOpenings.step lib)
      (start businesses environments users sessions apiKeys) as = some s) :
    (∀ r ∈ s.accounts.rows, ∃ c ∈ s.calls,
      OpenedBy lib (passed lib (start businesses environments users sessions apiKeys) as)
        s.registrations.db c r) ∧
    (∀ c ∈ s.calls, ∀ r, s.answer c = some (.ok r) →
      OpenedBy lib (passed lib (start businesses environments users sessions apiKeys) as)
        s.registrations.db c r) ∧
    ∀ r ∈ s.accounts.rows, ∀ r' ∈ s.accounts.rows, r.userId = r'.userId →
      r.organizationId = r'.organizationId ∧ r.environment = r'.environment := by
  have history : History lib
      (passed lib (start businesses environments users sessions apiKeys) as) s :=
    Machine.invariant_trace (fun _ _ _ _ => History.step)
      (history_start lib businesses sessions apiKeys userIds environmentIds) run
  refine ⟨?_, ?_, fun r hr r' hr' => history.together hr hr'⟩
  · intro r hr
    obtain ⟨_, ⟨c, hc, environment, owner, rfl, entitled⟩, opens⟩ := history.rows r hr
    exact ⟨c, hc, environment, owner, entitled, opens⟩
  · intro c hc r answered
    have known := history.points c hc
    obtain ⟨headers, request, point⟩ := c
    cases point with
    | creation j =>
      obtain ⟨d, environment, owner, at_, same, entitled⟩ := known
      simp only [answer, at_, Option.map_some] at answered
      split at answered
      · rename_i result ended
        cases answered
        have done : d.point = .done (.ok r) := Option.some.inj ended
        refine ⟨environment, owner, entitled, ?_⟩
        rw [← same]
        exact history.opened d (List.mem_of_getElem? at_) r done
      · cases answered
    | received | key | environment | user | reply | failed => cases answered

def openingLibraries : OpeningLibraries where
  toLibraries := UsersService.sampleLibraries
  toLowercasing := .latin

def acme : AccountOpenings :=
  start [⟨⟨1⟩, "Acme", none, "active", none⟩] [⟨⟨⟨5⟩, ⟨1⟩, "sandbox", "active"⟩, none⟩]
    [⟨⟨⟨9⟩, ⟨1⟩, ⟨5⟩, "active"⟩, "Ada", "Lovelace", "ada@acme.test", "", "admin", none, none⟩] []
    [⟨⟨6⟩, ⟨1⟩, UsersService.sampleLibraries.hashApiKey "key", "active", none⟩]

/-- The key is revoked while the request is on its way. -/
def openForAda : List OpeningAction :=
  [.receive ⟨some (UsersService.headerOf "Sandbox"), none, none, none,
      some (UsersService.headerOf "key"), none⟩
      ⟨.checking, "ZAR", " Ada@acme.test", "Ada ", "Lovelace"⟩,
    .run 0, .run 0, .keys [], .run 0, .run 0, .run 0, .accounts (.creation 0 .go),
    .accounts (.creation 0 (.candidate "100000000001")), .accounts (.creation 0 (.created ⟨30⟩))]

theorem accounts_have_owners_ada : ∃ s, Machine.run (AccountOpenings.step
    openingLibraries) acme openForAda = some s ∧
    s.accounts.rows.map (fun r => (r.id, r.userId)) = [(⟨30⟩, some ⟨9⟩)] ∧
    ∀ r ∈ s.accounts.rows, ∃ c ∈ s.calls,
      OpenedBy openingLibraries
        (passed openingLibraries acme openForAda) s.registrations.db c r := by
  have evaluated : (Machine.run (AccountOpenings.step openingLibraries) acme
      openForAda).map (fun s => s.accounts.rows.map (fun r => (r.id, r.userId))) =
        some [(⟨30⟩, some ⟨9⟩)] := by
    decide +kernel
  obtain ⟨s, run, rows⟩ := Option.map_eq_some_iff.mp evaluated
  exact ⟨s, run, rows, (accounts_have_owners openingLibraries _ _ _ _ _ (by decide)
    (by decide) openForAda s run).1⟩

end AccountOpenings

end RailsCore
