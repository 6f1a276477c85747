import RailsCore.AuditEvents

/-!
# The audit events of the mutation handlers

`emit_users_mutation`, `emit_accounts_mutation`, and the event that each
handler of the two services hands to them. A handler is taken after its inner
function: the result of that function, with any error and any text in it, is
an argument. A handler that returns before it reports emits nothing.
-/

namespace RailsCore.Audit

open UsersService (trim toLowercase HeaderValue headerText)

/-- The headers that handlers and events read, each with its first value. -/
structure Headers where
  environment : Option HeaderValue
  correlationId : Option HeaderValue
  forwardedFor : Option HeaderValue
  userAgent : Option HeaderValue
  apiKey : Option HeaderValue
  idempotencyKey : Option HeaderValue
deriving DecidableEq, Repr

/-- What an emission finds around it: the headers, the printed address of the
peer, the clock, and the uuids it generates. -/
structure Emission where
  headers : Headers
  peer : String
  now : Nat
  requestId : Uuid
  correlationId : Uuid
deriving DecidableEq, Repr

def environmentFromHeaders (headers : Headers) : String :=
  (headerText headers.environment).getD "unknown"

def correlationFromHeaders (headers : Headers) (generated : Uuid) : String :=
  (headerText headers.correlationId).getD generated.toString

/-- The first address of a forwarding list, else the peer. -/
def clientIp (headers : Headers) (peer : String) : String :=
  (((headers.forwardedFor.bind HeaderValue.toStr).map
    (fun s => trim (String.ofList (s.toList.takeWhile (fun c => c ≠ ','))))).filter
      (fun s => s ≠ "")).getD peer

def userAgent (headers : Headers) : String := (headers.userAgent.bind HeaderValue.toStr).getD ""

def outcomeFromStatus (status : Nat) : Int :=
  if status ≥ 500 then Outcome.serverError.toI32
  else if status ≥ 400 then Outcome.clientError.toI32
  else Outcome.success.toI32

def truncateReason (s : String) : String :=
  let out := s.toList.take 500
  String.ofList (if s.toList.length > 500 then out ++ ['…'] else out)

/-- The event that both emitters build; they differ in the service they name. -/
def emitMutation (sourceService : String) (lib : Libraries) (e : Emission)
    (method path action : String) (organizationId : Uuid) (actorType : ActorType)
    (actorId : String) (actorRoles : List String) (targetType : String) (targetId : Uuid)
    (httpStatus : Nat) (reason : Option String) (metadata : List (String × String)) :
    AuditEvent where
  occurredAt := lib.toRfc3339 e.now
  schemaVersion := 1
  sourceService := sourceService
  organizationId := organizationId.toString
  environment := environmentFromHeaders e.headers
  actor := some ⟨actorType.toI32, actorId, actorRoles⟩
  action := action
  target := some ⟨targetType, targetId.toString⟩
  outcome := outcomeFromStatus httpStatus
  request := some ⟨e.requestId.toString, method, path, clientIp e.headers e.peer,
    userAgent e.headers⟩
  correlationId := correlationFromHeaders e.headers e.correlationId
  reason := reason
  metadata := metadata

def emitUsersMutation := emitMutation "users"

def emitAccountsMutation := emitMutation "accounts"

namespace Users

/-- What a handler says about a call that succeeded. -/
structure Done where
  organizationId : Uuid
  actorType : ActorType
  actorId : String
  actorRoles : List String
  targetType : String
  targetId : Uuid

/-- Both branches of a handler. A failed call names no organization and no actor. -/
def report (lib : Libraries) (e : Emission) (path action failedType : String) (failedId : Uuid)
    (result : Except UsersService.AppError Done) : AuditEvent :=
  match result with
  | .ok done =>
    emitUsersMutation lib e "POST" path action done.organizationId done.actorType done.actorId
      done.actorRoles done.targetType done.targetId 200 none []
  | .error error =>
    emitUsersMutation lib e "POST" path action Uuid.nil .anonymous "" [] failedType failedId
      error.statusCode (some (truncateReason error.display))
      [("http_status", toString error.statusCode)]

variable (lib : Libraries) (e : Emission)

/-- The result of a call by a user: the user and the business. -/
abbrev UserCall := Except UsersService.AppError (Uuid × Uuid)

def userDone : Uuid × Uuid → Done
  | (userId, businessId) => ⟨businessId, .user, userId.toString, [], "user", userId⟩

def login (result : UserCall) : AuditEvent :=
  report lib e "/api/v1/auth/login" "users.auth.login" "user" Uuid.nil (result.map userDone)

def refreshToken (result : UserCall) : AuditEvent :=
  report lib e "/api/v1/auth/refresh" "users.auth.refresh" "session" Uuid.nil (result.map userDone)

def revokeToken (result : UserCall) : AuditEvent :=
  report lib e "/api/v1/auth/revoke" "users.auth.revoke" "session" Uuid.nil (result.map userDone)

def resetPassword (result : UserCall) : AuditEvent :=
  report lib e "/api/v1/auth/password-reset/reset" "users.password_reset.complete" "user" Uuid.nil
    (result.map userDone)

def requestPasswordReset
    (result : Except UsersService.AppError UsersService.PasswordResetRequestOutcome) : AuditEvent :=
  report lib e "/api/v1/auth/password-reset/request" "users.password_reset.request" "user" Uuid.nil
    (result.map fun
      | .noSuchUser => ⟨Uuid.nil, .anonymous, "", [], "user", Uuid.nil⟩
      | .issued userId businessId => userDone (userId, businessId))

/-- The result holds the business and its admin. -/
def registerBusiness (result : Except UsersService.AppError (Uuid × Uuid)) : AuditEvent :=
  report lib e "/api/v1/business/register" "users.business.register" "business" Uuid.nil
    (result.map fun (businessId, adminUserId) =>
      ⟨businessId, .user, adminUserId.toString, ["admin"], "business", businessId⟩)

def applyForBeta (result : Except UsersService.AppError Uuid) : AuditEvent :=
  report lib e "/api/v1/beta/apply" "users.beta.apply" "beta_application" Uuid.nil
    (result.map fun applicationId =>
      ⟨Uuid.nil, .anonymous, "", [], "beta_application", applicationId⟩)

/-- The result of a call about an api key: the key, the business and the user. -/
abbrev KeyCall := Except UsersService.AppError (Uuid × Uuid × Uuid)

def keyDone : Uuid × Uuid × Uuid → Done
  | (keyId, businessId, userId) =>
    ⟨businessId, .user, userId.toString, ["admin"], "api_key", keyId⟩

def createApiKey (result : KeyCall) : AuditEvent :=
  report lib e "/api/v1/api-keys" "users.api_key.create" "api_key" Uuid.nil (result.map keyDone)

def revokeApiKey (apiKeyId : Uuid) (result : KeyCall) : AuditEvent :=
  report lib e ("/api/v1/api-keys/" ++ apiKeyId.toString ++ "/revoke") "users.api_key.revoke"
    "api_key" apiKeyId (result.map keyDone)

/-- The one handler that knows its business when it fails, and adds metadata of its own. -/
def createSdkUser (businessId apiKeyId : Uuid) (result : Except UsersService.AppError Uuid) :
    AuditEvent :=
  match result with
  | .ok userId =>
    emitUsersMutation lib e "POST" "/api/v1/users" "users.sdk.user.create" businessId .anonymous ""
      [] "user" userId 200 none [("api_key_id", apiKeyId.toString)]
  | .error error =>
    emitUsersMutation lib e "POST" "/api/v1/users" "users.sdk.user.create" businessId .anonymous ""
      [] "user" Uuid.nil error.statusCode (some (truncateReason error.display))
      [("api_key_id", apiKeyId.toString), ("http_status", toString error.statusCode)]

end Users

namespace Accounts

variable (lib : Libraries) (e : Emission)

def extractEnvironment (headers : Headers) : Option Environment :=
  match ((headers.environment.bind HeaderValue.toStr).map (fun s => toLowercase (trim s))) with
  | some "sandbox" => some .sandbox
  | some "production" => some .production
  | _ => none

/-- The account that a creation returns, with the columns the handler reads. -/
structure CreatedAccount where
  id : Uuid
  organizationId : Option Uuid
  adminUserId : Option Uuid
  userId : Option Uuid
deriving DecidableEq, Repr

structure CreateAccountRequest where
  email : String
  firstName : String
  lastName : String
deriving DecidableEq, Repr

/-- Who created the account: its administrator, else its owner. -/
def CreatedAccount.actor (account : CreatedAccount) : ActorType × String :=
  match account.adminUserId, account.userId with
  | some admin, _ => (.user, admin.toString)
  | none, some userId => (.user, userId.toString)
  | none, none => (.anonymous, "")

/-- `resolved` is the business of the api key, and `created` what the service answers. -/
def createAccount (request : CreateAccountRequest) (resolved : Except AppError Uuid)
    (created : Except AppError CreatedAccount) : Option AuditEvent :=
  match extractEnvironment e.headers, headerText e.headers.apiKey with
  | some _, some _ =>
    if trim request.email = "" ∨ trim request.firstName = "" ∨ trim request.lastName = "" then none
    else
      match resolved with
      | .error _ => none
      | .ok businessId =>
        match created with
        | .ok account =>
          account.organizationId.map fun org =>
            emitAccountsMutation lib e "POST" "/api/v1/accounts" "accounts.account.create" org
              account.actor.1 account.actor.2 [] "account" account.id 201 none []
        | .error error =>
          some (emitAccountsMutation lib e "POST" "/api/v1/accounts" "accounts.account.create"
            businessId .anonymous "" [] "account" Uuid.nil error.statusCode
            (some (truncateReason error.display)) [("http_status", toString error.statusCode)])
  | _, _ => none

/-- The organization of the account: from the result, or read again when the call failed. -/
def reportedOrganization (result found : Except AppError Account) : Option Uuid :=
  match result with
  | .ok account => account.organizationId
  | .error _ =>
    match found with
    | .ok account => account.organizationId
    | .error _ => none

/-- The end of the handlers that name an account: `metadata` of their own, `done` on success. -/
def report {α : Type} (method path action : String) (id : Uuid) (org : Option Uuid)
    (result : Except AppError α) (status : α → Nat) (metadata done : List (String × String)) :
    Option AuditEvent :=
  org.map fun organizationId =>
    match result with
    | .ok answer =>
      emitAccountsMutation lib e method path action organizationId .anonymous "" [] "account" id
        (status answer) none (metadata ++ done)
    | .error error =>
      emitAccountsMutation lib e method path action organizationId .anonymous "" [] "account" id
        error.statusCode (some (truncateReason error.display))
        (metadata ++ [("http_status", toString error.statusCode)])

/-- The derived text of a status. -/
def debugStatus : AccountStatus → String
  | .active => "Active"
  | .suspended => "Suspended"
  | .closed => "Closed"

def accountPath (id : Uuid) : String := "/api/v1/accounts/" ++ id.toString

def updateAccountStatus (id : Uuid) (status : Option AccountStatus)
    (result found : Except AppError Account) : Option AuditEvent :=
  match extractEnvironment e.headers, status with
  | some _, some status =>
    report lib e "PATCH" (accountPath id) "accounts.account.update_status" id
      (reportedOrganization result found) result (fun _ => 200) []
      [("new_status", debugStatus status)]
  | _, _ => none

def closeAccount (id : Uuid) (result found : Except AppError Account) : Option AuditEvent :=
  match extractEnvironment e.headers with
  | some _ =>
    report lib e "DELETE" (accountPath id) "accounts.account.close" id
      (reportedOrganization result found) result (fun _ => 200) [] [("new_status", "closed")]
  | none => none

def mutationHttpStatus : TransactionStatus → Nat
  | .posted => 200
  | .pending | .posting => 202
  | .failed => 500

/-- The result of a money request: the account that the path names, and the transaction. -/
abbrev MoneyCall := Except AppError (Account × Transaction)

def money (operation action : String) (id : Uuid) (amount : Int) (result : MoneyCall)
    (found : Except AppError Account) : Option AuditEvent :=
  match extractEnvironment e.headers, headerText e.headers.idempotencyKey with
  | some _, some _ =>
    if amount ≤ 0 then none
    else
      report lib e "POST" (accountPath id ++ operation) action id
        (reportedOrganization (result.map Prod.fst) found) result
        (fun answer => mutationHttpStatus answer.2.status)
        [("idempotency_key_present", "true")] []
  | _, _ => none

def deposit := money lib e "/deposit" "accounts.money.deposit"

def withdraw := money lib e "/withdraw" "accounts.money.withdraw"

def transfer := money lib e "/transfer" "accounts.money.transfer"

end Accounts

/-- A call of a mutation handler, with everything that its audit event depends on. -/
inductive Mutation where
  | login (result : Users.UserCall)
  | refreshToken (result : Users.UserCall)
  | revokeToken (result : Users.UserCall)
  | resetPassword (result : Users.UserCall)
  | requestPasswordReset
      (result : Except UsersService.AppError UsersService.PasswordResetRequestOutcome)
  | registerBusiness (result : Except UsersService.AppError (Uuid × Uuid))
  | applyForBeta (result : Except UsersService.AppError Uuid)
  | createApiKey (result : Users.KeyCall)
  | revokeApiKey (apiKeyId : Uuid) (result : Users.KeyCall)
  | createSdkUser (businessId apiKeyId : Uuid) (result : Except UsersService.AppError Uuid)
  | createAccount (request : Accounts.CreateAccountRequest) (resolved : Except AppError Uuid)
      (created : Except AppError Accounts.CreatedAccount)
  | updateAccountStatus (id : Uuid) (status : Option AccountStatus)
      (result found : Except AppError Account)
  | closeAccount (id : Uuid) (result found : Except AppError Account)
  | deposit (id : Uuid) (amount : Int) (result : Accounts.MoneyCall)
      (found : Except AppError Account)
  | withdraw (id : Uuid) (amount : Int) (result : Accounts.MoneyCall)
      (found : Except AppError Account)
  | transfer (id : Uuid) (amount : Int) (result : Accounts.MoneyCall)
      (found : Except AppError Account)

/-- The event that the call emits, if it emits one. -/
def Mutation.event (lib : Libraries) (e : Emission) : Mutation → Option AuditEvent
  | .login result => some (Users.login lib e result)
  | .refreshToken result => some (Users.refreshToken lib e result)
  | .revokeToken result => some (Users.revokeToken lib e result)
  | .resetPassword result => some (Users.resetPassword lib e result)
  | .requestPasswordReset result => some (Users.requestPasswordReset lib e result)
  | .registerBusiness result => some (Users.registerBusiness lib e result)
  | .applyForBeta result => some (Users.applyForBeta lib e result)
  | .createApiKey result => some (Users.createApiKey lib e result)
  | .revokeApiKey apiKeyId result => some (Users.revokeApiKey lib e apiKeyId result)
  | .createSdkUser businessId apiKeyId result =>
    some (Users.createSdkUser lib e businessId apiKeyId result)
  | .createAccount request resolved created => Accounts.createAccount lib e request resolved created
  | .updateAccountStatus id status result found =>
    Accounts.updateAccountStatus lib e id status result found
  | .closeAccount id result found => Accounts.closeAccount lib e id result found
  | .deposit id amount result found => Accounts.deposit lib e id amount result found
  | .withdraw id amount result found => Accounts.withdraw lib e id amount result found
  | .transfer id amount result found => Accounts.transfer lib e id amount result found

end RailsCore.Audit
