import RailsCore.AccountAdministration
import RailsCore.AccountLists
import RailsCore.AuditEmission
import RailsCore.Registrations

/-!
# Opening an account across two services

`create_account` of the accounts service, with the lookup of the owner that the
users service makes for it, cut at its statements. Any number of requests run
beside registrations, beside whatever is written to `api_keys`, and beside
changes of the status of accounts. A call between the services may fail at any
point; the lookup only reads, so that nothing is left of one that has failed.
-/

namespace RailsCore

namespace UsersService

def normalizeAccountUserLookupInputs (lower : Lowercasing) (email firstName lastName : String) :
    Except Status (String × String × String) :=
  let email := normalizeEmail lower email
  let firstName := trim firstName
  let lastName := trim lastName
  if email = "" then .error ⟨.invalidArgument, "email is required"⟩
  else if firstName = "" then .error ⟨.invalidArgument, "first_name is required"⟩
  else if lastName = "" then .error ⟨.invalidArgument, "last_name is required"⟩
  else .ok (email, firstName, lastName)

/-- What `resolve_account_user_for_api_key` looks up, after the checks of its inputs. -/
structure OwnerLookup where
  apiKeyPlain : String
  environment : String
  email : String
  firstName : String
  lastName : String
deriving DecidableEq, Repr

def ownerLookup (lower : Lowercasing) (apiKey environment email firstName lastName : String) :
    Except Status OwnerLookup := do
  let (apiKeyPlain, environment) ← validateApiKeyRequestInputs apiKey environment
  let (email, firstName, lastName) ←
    normalizeAccountUserLookupInputs lower email firstName lastName
  .ok { apiKeyPlain, environment, email, firstName, lastName }

/-- The first statement of `validate_api_key_scope`, with the checks of its row. -/
def keyStatement (lib : Libraries) (db : UsersDatabase) (apiKeyPlain : String) :
    Except Status Uuid :=
  match db.apiKeyByHash (lib.hashApiKey apiKeyPlain) with
  | none => .error ⟨.unauthenticated, "Invalid or revoked API key"⟩
  | some key =>
    if key.Usable then .ok key.businessId
    else .error ⟨.unauthenticated, "API key is revoked or inactive"⟩

/-- The second statement of `validate_api_key_scope`. -/
def environmentStatement (db : UsersDatabase) (businessId : Uuid) (environment : String) :
    Except Status Uuid :=
  match db.activeEnvironmentOfType businessId environment with
  | none => .error ⟨.failedPrecondition, "No such environment for business"⟩
  | some row => .ok row.id

/-- The rows that `resolve_account_user_for_api_key` selects in the end. -/
def ownedBy (q : OwnerLookup) (businessId environmentId : Uuid) (u : RegisteredUser) : Bool :=
  u.businessId = businessId && u.environmentId = environmentId && u.email = q.email &&
    u.firstName = q.firstName && u.lastName = q.lastName && u.status = "active"

end UsersService

/-- What the lookup of an owner takes from libraries. -/
structure OpeningLibraries extends UsersService.Libraries, UsersService.Lowercasing

open UsersService (ApiKeyRow UsersDatabase RegisteredBusiness RegisteredEnvironment RegisteredUser
  RegisteredSession Registrations RegistrationAction OwnerLookup trim)

/-- The codes of a gRPC status that the client of the users service tells apart. -/
inductive GrpcCode where
  | unauthenticated
  | invalidArgument
  | notFound
  | failedPrecondition
  | other
deriving DecidableEq, Repr

def GrpcCode.ofStatusCode : UsersService.StatusCode → GrpcCode
  | .unauthenticated => .unauthenticated
  | .invalidArgument => .invalidArgument
  | .failedPrecondition => .failedPrecondition

/-- What the client makes of an error. -/
def resolveError (code : GrpcCode) (message : String) : AppError :=
  match code with
  | .unauthenticated => .unauthorized message
  | .invalidArgument | .notFound | .failedPrecondition => .validation message
  | .other => .internal ("Users gRPC error: " ++ message)

def statusError (status : UsersService.Status) : AppError :=
  resolveError (.ofStatusCode status.code) status.message

structure ResolvedAccountUser where
  businessId : Uuid
  environmentId : Uuid
  userId : Uuid
deriving DecidableEq, Repr

structure CreateAccountRequest where
  accountType : Account.AccountType
  currency : String
  email : String
  firstName : String
  lastName : String
deriving DecidableEq, Repr

/-- The checks that the handler makes itself: the environment and the API key. -/
def checkCreateAccount (headers : Audit.Headers) (request : CreateAccountRequest) :
    Except AppError (Environment × String) :=
  match Audit.Accounts.extractEnvironment headers with
  | none => .error (.validation
      "X-Environment header is required and must be 'sandbox' or 'production'")
  | some environment =>
    match UsersService.headerText headers.apiKey with
    | none => .error (.validation "X-API-Key header is required for account creation")
    | some apiKey =>
      if trim request.email = "" then .error (.validation "email is required")
      else if trim request.firstName = "" then .error (.validation "first_name is required")
      else if trim request.lastName = "" then .error (.validation "last_name is required")
      else .ok (environment, apiKey)

/-- The statement that a request waits for, the answer of the users service, or
the creation that it has become. -/
inductive CreateAccountPoint where
  | received
  | key (environment : Environment) (q : OwnerLookup)
  | environment (environment : Environment) (q : OwnerLookup) (businessId : Uuid)
  | user (environment : Environment) (q : OwnerLookup) (businessId environmentId : Uuid)
  | reply (environment : Environment) (owner : ResolvedAccountUser)
  | creation (j : Nat)
  | failed (error : AppError)
deriving DecidableEq, Repr

structure CreateAccountCall where
  headers : Audit.Headers
  request : CreateAccountRequest
  point : CreateAccountPoint
deriving DecidableEq, Repr

namespace CreateAccountCall

/-- What both services accept of a request before any statement. -/
def accepted (lower : UsersService.Lowercasing) (c : CreateAccountCall) :
    Except AppError (Environment × OwnerLookup) :=
  match checkCreateAccount c.headers c.request with
  | .error e => .error e
  | .ok (environment, apiKey) =>
    match UsersService.ownerLookup lower apiKey environment.display c.request.email
        c.request.firstName c.request.lastName with
    | .error status => .error (statusError status)
    | .ok q => .ok (environment, q)

/-- The next point of a request that the users service works on. -/
def next (lib : OpeningLibraries) (db : UsersDatabase) (users : List RegisteredUser)
    (c : CreateAccountCall) : Option CreateAccountPoint :=
  match c.point with
  | .received =>
    match c.accepted lib.toLowercasing with
    | .error e => some (.failed e)
    | .ok (environment, q) => some (.key environment q)
  | .key environment q =>
    match UsersService.keyStatement lib.toLibraries db q.apiKeyPlain with
    | .error status => some (.failed (statusError status))
    | .ok businessId => some (.environment environment q businessId)
  | .environment environment q businessId =>
    match UsersService.environmentStatement db businessId q.environment with
    | .error status => some (.failed (statusError status))
    | .ok environmentId => some (.user environment q businessId environmentId)
  | .user environment q businessId environmentId =>
    match users.find? (UsersService.ownedBy q businessId environmentId) with
    | none => some (.failed (resolveError .notFound
        "No active user matches the supplied account owner details"))
    | some row => some (.reply environment ⟨businessId, environmentId, row.id⟩)
  | .reply _ _ | .creation _ | .failed _ => none

/-- A statement of the users service, or the call to it, has failed. -/
def fail (message : String) (c : CreateAccountCall) : Option CreateAccountPoint :=
  match c.point with
  | .key _ _ | .environment _ _ _ | .user _ _ _ _ | .reply _ _ =>
    some (.failed (resolveError .other message))
  | .received | .creation _ | .failed _ => none

/-- What the handler asks of `create_account_for_existing_user`. -/
def creation (c : CreateAccountCall) (environment : Environment) (owner : ResolvedAccountUser) :
    CreateAccount where
  accountType := c.request.accountType
  currency := c.request.currency
  organizationId := owner.businessId
  environment := environment
  userId := owner.userId

end CreateAccountCall

/-- The tables of both services, and the requests to open an account. -/
structure AccountOpenings where
  registrations : Registrations
  apiKeys : List ApiKeyRow
  accounts : AccountAdministration
  calls : List CreateAccountCall
deriving DecidableEq, Repr

inductive OpeningAction where
  | users (a : RegistrationAction)
  /-- Whatever is written to `api_keys`. -/
  | keys (apiKeys : List ApiKeyRow)
  | receive (headers : Audit.Headers) (request : CreateAccountRequest)
  | run (i : Nat)
  | fail (i : Nat) (message : String)
  | accounts (a : AdministrationAction)
deriving DecidableEq, Repr

namespace AccountOpenings

def usersDatabase (s : AccountOpenings) : UsersDatabase where
  environments := (ReadCommitted.committed s.registrations.db.environments).map
    RegisteredEnvironment.toEnvironmentRow
  users := (ReadCommitted.committed s.registrations.db.users).map RegisteredUser.toUserRow
  apiKeys := s.apiKeys

/-- Any rows in the users service, and no account. -/
def start (businesses : List RegisteredBusiness) (environments : List RegisteredEnvironment)
    (users : List RegisteredUser) (sessions : List RegisteredSession) (apiKeys : List ApiKeyRow) :
    AccountOpenings where
  registrations := .start businesses environments users sessions
  apiKeys := apiKeys
  accounts := .empty
  calls := []

def step (lib : OpeningLibraries) (s : AccountOpenings) :
    OpeningAction → Option AccountOpenings
  | .users a => (s.registrations.step lib.toLowercasing a).map fun registrations =>
      { s with registrations }
  | .keys apiKeys => some { s with apiKeys }
  | .receive headers request =>
    some { s with calls := s.calls ++ [⟨headers, request, .received⟩] }
  | .run i => do
    let c ← s.calls[i]?
    match c.point with
    | .reply environment owner =>
      let accounts ← s.accounts.step (.open_ (c.creation environment owner))
      let point := .creation s.accounts.creations.length
      some { s with accounts, calls := s.calls.set i { c with point } }
    | _ =>
      let point ← c.next lib s.usersDatabase (ReadCommitted.committed s.registrations.db.users)
      some { s with calls := s.calls.set i { c with point } }
  | .fail i message => do
    let c ← s.calls[i]?
    let point ← c.fail message
    some { s with calls := s.calls.set i { c with point } }
  -- accounts are opened by the requests alone
  | .accounts (.open_ _) => none
  | .accounts a => (s.accounts.step a).map fun accounts => { s with accounts }

/-- What the caller of a request is answered. -/
def answer (s : AccountOpenings) (c : CreateAccountCall) : Option (Except AppError AccountRow) :=
  match c.point with
  | .failed e => some (.error e)
  | .creation j =>
    match s.accounts.creations[j]?.map Creation.point with
    | some (.done result) => some result
    | _ => none
  | _ => none

end AccountOpenings

end RailsCore
