import Mathlib.Data.List.Infix
import RailsCore.AuthContexts
import RailsCore.Machine
import RailsCore.SessionsService
import RailsCore.Writers

/-!
# Registration of businesses and users

`register_business_inner` and `create_sdk_user_inner`, cut at their statements
and at the hashing and the encoding between them, any number of each interleaved
under read committed isolation. A call may fail at any of these points, and its
open transaction is then rolled back. A registration writes its business, its
two environments and its user in one transaction, and its session after the
commit. `writer` is not a column: it says which call has inserted a row. Times
and audit events are left out.
-/

namespace RailsCore.UsersService

open ReadCommitted (Cells committed unused indexEntry)

structure RegisteredBusiness where
  id : Uuid
  name : String
  website : Option String
  status : String
  writer : Option Nat
deriving DecidableEq, Repr

structure RegisteredEnvironment extends EnvironmentRow where
  writer : Option Nat
deriving DecidableEq, Repr

structure RegisteredUser extends UserRow where
  firstName : String
  lastName : String
  email : String
  passwordHash : String
  role : String
  createdByApiKeyId : Option Uuid
  writer : Option Nat
deriving DecidableEq, Repr

structure RegisteredSession where
  id : Uuid
  userId : Uuid
  environmentId : Uuid
  refreshToken : String
  jwtId : String
  status : String
  writer : Option Nat
deriving DecidableEq, Repr

structure RegistrationDatabase where
  businesses : Cells RegisteredBusiness
  environments : Cells RegisteredEnvironment
  users : Cells RegisteredUser
  sessions : Cells RegisteredSession
deriving DecidableEq, Repr

namespace RegistrationDatabase

def commit (tx : Nat) (db : RegistrationDatabase) : RegistrationDatabase where
  businesses := ReadCommitted.commit tx db.businesses
  environments := ReadCommitted.commit tx db.environments
  users := ReadCommitted.commit tx db.users
  sessions := ReadCommitted.commit tx db.sessions

def rollback (tx : Nat) (db : RegistrationDatabase) : RegistrationDatabase where
  businesses := ReadCommitted.rollback tx db.businesses
  environments := ReadCommitted.rollback tx db.environments
  users := ReadCommitted.rollback tx db.users
  sessions := ReadCommitted.rollback tx db.sessions

/-- `SELECT EXISTS(SELECT 1 FROM users WHERE email = $1)`. -/
def emailExists (db : RegistrationDatabase) (email : String) : Bool :=
  (committed db.users).any fun u => u.email = email

end RegistrationDatabase

def duplicateEmailMessage : String :=
  "An account with this email already exists. Try signing in or resetting your password."

structure RegisterBusinessRequest where
  name : String
  website : Option String
  adminFirstName : String
  adminLastName : String
  adminEmail : String
  adminPassword : String
deriving DecidableEq, Repr

structure CreateSdkUserRequest where
  email : String
  firstName : String
  lastName : String
  password : String
deriving DecidableEq, Repr

/-- The response of `register_business_inner`, without the access token. -/
structure RegisterBusinessResponse where
  businessId : Uuid
  adminUserId : Uuid
  sandboxId : Uuid
  productionId : Uuid
  refreshToken : String
  selectedEnvironmentId : Uuid
deriving DecidableEq, Repr

/-- The ids of the rows of a registration. -/
structure RegisteredIds where
  businessId : Uuid
  sandboxId : Uuid
  productionId : Uuid
  adminUserId : Uuid
deriving DecidableEq, Repr

/-- `validate_sdk_user_payload`: the normalized email and the trimmed names. -/
def validateSdkUserPayload (lower : Lowercasing) (q : CreateSdkUserRequest) :
    Except AppError (String × String × String) :=
  let email := normalizeEmail lower q.email
  if email = "" then .error (.badRequest "Email is required.")
  else
    let firstName := trim q.firstName
    if firstName = "" then .error (.badRequest "First name is required.")
    else
      let lastName := trim q.lastName
      if lastName = "" then .error (.badRequest "Last name is required.")
      else if q.password.utf8ByteSize < 8 then
        .error (.badRequest "Password must be at least 8 characters.")
      else .ok (email, firstName, lastName)

/-- What the insert of a user makes of the message of a database error. -/
def userInsertError (message : String) : AppError :=
  if "unique_email".toList <:+: message.toList then .conflict duplicateEmailMessage else .internal

/-- The unique index on the email, for the insert of a user: it waits for another
transaction, or says how it goes on. -/
def uniqueEmail (tx : Nat) (email : String) (users : Cells RegisteredUser) :
    Option (Except String Unit) :=
  match indexEntry RegisteredUser.email tx email users with
  | .held => none
  | .taken => some (.error "duplicate key value violates unique constraint \"unique_email\"")
  | .free => some (.ok ())

/-- What a step waits for: nothing, a random id, a password hash, or the random
values of a session. -/
inductive RegistrationInput where
  | go
  | random (id : Uuid)
  | hashed (passwordHash : String)
  | session (id : Uuid) (refreshToken jwtId : String)
deriving DecidableEq, Repr

inductive RegisterPoint where
  | start
  | find
  | begin
  | business
  | sandbox (businessId : Uuid)
  | production (businessId sandboxId : Uuid)
  | hash (businessId sandboxId productionId : Uuid)
  | user (businessId sandboxId productionId : Uuid) (passwordHash : String)
  | commit (ids : RegisteredIds)
  | encode (ids : RegisteredIds)
  | session (ids : RegisteredIds)
  | done (result : Except AppError RegisterBusinessResponse)
deriving DecidableEq, Repr

inductive SdkUserPoint where
  | start
  | find (email firstName lastName : String)
  | hash (email firstName lastName : String)
  | insert (email firstName lastName passwordHash : String)
  | done (result : Except AppError Uuid)
deriving DecidableEq, Repr

/-- `register_business_inner`, as the transaction `tx`. -/
def registerNext (lower : Lowercasing) (tx : Nat) (q : RegisterBusinessRequest)
    (db : RegistrationDatabase) (point : RegisterPoint) (input : RegistrationInput) :
    Option (RegistrationDatabase × RegisterPoint) :=
  match point, input with
  | .start, .go =>
    if normalizeEmail lower q.adminEmail = "" then
      some (db, .done (.error (.badRequest "Admin email is required.")))
    else some (db, .find)
  | .find, .go =>
    if db.emailExists (normalizeEmail lower q.adminEmail) then
      some (db, .done (.error (.conflict duplicateEmailMessage)))
    else some (db, .begin)
  | .begin, .go => some (db, .business)
  | .business, .random id =>
    if unused RegisteredBusiness.id id db.businesses then
      let row : RegisteredBusiness := ⟨id, q.name, q.website, "active", some tx⟩
      some ({ db with businesses := ReadCommitted.insert tx row db.businesses }, .sandbox id)
    else none
  | .sandbox businessId, .random id =>
    if unused (fun e => e.id) id db.environments then
      let row : RegisteredEnvironment := ⟨⟨id, businessId, "sandbox", "active"⟩, some tx⟩
      some ({ db with environments := ReadCommitted.insert tx row db.environments },
        .production businessId id)
    else none
  | .production businessId sandboxId, .random id =>
    if unused (fun e => e.id) id db.environments then
      let row : RegisteredEnvironment := ⟨⟨id, businessId, "production", "active"⟩, some tx⟩
      some ({ db with environments := ReadCommitted.insert tx row db.environments },
        .hash businessId sandboxId id)
    else none
  | .hash businessId sandboxId productionId, .hashed passwordHash =>
    some (db, .user businessId sandboxId productionId passwordHash)
  | .user businessId sandboxId productionId passwordHash, .random id =>
    if unused (fun u => u.id) id db.users then
      match uniqueEmail tx (normalizeEmail lower q.adminEmail) db.users with
      | none => none
      | some (.error message) =>
        some (db.rollback tx, .done (.error (userInsertError message)))
      | some (.ok ()) =>
        let row : RegisteredUser := {
          id, businessId, environmentId := sandboxId, status := "active"
          firstName := q.adminFirstName, lastName := q.adminLastName
          email := normalizeEmail lower q.adminEmail, passwordHash, role := "admin"
          createdByApiKeyId := none, writer := some tx }
        some ({ db with users := ReadCommitted.insert tx row db.users },
          .commit ⟨businessId, sandboxId, productionId, id⟩)
    else none
  | .commit ids, .go => some (db.commit tx, .encode ids)
  | .encode ids, .go => some (db, .session ids)
  | .session ids, .session id refreshToken jwtId =>
    if unused RegisteredSession.id id db.sessions then
      let row : RegisteredSession :=
        ⟨id, ids.adminUserId, ids.sandboxId, refreshToken, jwtId, "active", some tx⟩
      some ({ db with sessions := ReadCommitted.insertNow row db.sessions },
        .done (.ok ⟨ids.businessId, ids.adminUserId, ids.sandboxId, ids.productionId, refreshToken,
          ids.sandboxId⟩))
    else none
  | _, _ => none

/-- `create_sdk_user_inner`; its insert is a transaction of its own. -/
def createSdkUserNext (lower : Lowercasing) (tx : Nat) (ctx : ApiKeyOnlyContext)
    (q : CreateSdkUserRequest) (db : RegistrationDatabase) (point : SdkUserPoint)
    (input : RegistrationInput) :
    Option (RegistrationDatabase × SdkUserPoint) :=
  match point, input with
  | .start, .go =>
    match validateSdkUserPayload lower q with
    | .error e => some (db, .done (.error e))
    | .ok (email, firstName, lastName) => some (db, .find email firstName lastName)
  | .find email firstName lastName, .go =>
    if db.emailExists email then some (db, .done (.error (.conflict duplicateEmailMessage)))
    else some (db, .hash email firstName lastName)
  | .hash email firstName lastName, .hashed passwordHash =>
    some (db, .insert email firstName lastName passwordHash)
  | .insert email firstName lastName passwordHash, .random id =>
    if unused (fun u => u.id) id db.users then
      match uniqueEmail tx email db.users with
      | none => none
      | some (.error message) => some (db, .done (.error (userInsertError message)))
      | some (.ok ()) =>
        let row : RegisteredUser := {
          id, businessId := ctx.businessId, environmentId := ctx.environmentId, status := "active"
          firstName, lastName, email, passwordHash, role := "user"
          createdByApiKeyId := some ctx.apiKeyId, writer := some tx }
        some ({ db with users := ReadCommitted.insertNow row db.users }, .done (.ok id))
    else none
  | _, _ => none

inductive RegistrationCall where
  | register (q : RegisterBusinessRequest) (point : RegisterPoint)
  | createSdkUser (ctx : ApiKeyOnlyContext) (q : CreateSdkUserRequest) (point : SdkUserPoint)
deriving DecidableEq, Repr

namespace RegistrationCall

def next (lower : Lowercasing) (tx : Nat) (db : RegistrationDatabase)
    (input : RegistrationInput) :
    RegistrationCall → Option (RegistrationDatabase × RegistrationCall)
  | .register q point =>
    (registerNext lower tx q db point input).map fun (db, point) => (db, .register q point)
  | .createSdkUser ctx q point =>
    (createSdkUserNext lower tx ctx q db point input).map fun (db, point) =>
      (db, .createSdkUser ctx q point)

/-- The call after what it was about to do has failed; the validation cannot fail so. -/
def failed : RegistrationCall → Option RegistrationCall
  | .register _ .start | .register _ (.done _) => none
  | .createSdkUser _ _ .start | .createSdkUser _ _ (.done _) => none
  | .register q _ => some (.register q (.done (.error .internal)))
  | .createSdkUser ctx q _ => some (.createSdkUser ctx q (.done (.error .internal)))

/-- The email that a call registers. -/
def email (lower : Lowercasing) : RegistrationCall → String
  | .register q _ => normalizeEmail lower q.adminEmail
  | .createSdkUser _ q _ => normalizeEmail lower q.email

/-- What the validation says against the request of a call. -/
def invalid (lower : Lowercasing) : RegistrationCall → Option AppError
  | .register q _ =>
    if normalizeEmail lower q.adminEmail = "" then
      some (.badRequest "Admin email is required.")
    else none
  | .createSdkUser _ q _ => match validateSdkUserPayload lower q with
    | .error e => some e
    | .ok _ => none

/-- How a call has ended. -/
def outcome : RegistrationCall → Option (Except AppError Unit)
  | .register _ (.done result) => some (result.map fun _ => ())
  | .createSdkUser _ _ (.done result) => some (result.map fun _ => ())
  | _ => none

end RegistrationCall

structure Registrations where
  db : RegistrationDatabase
  calls : List RegistrationCall
deriving DecidableEq, Repr

inductive RegistrationAction where
  | registerBusiness (q : RegisterBusinessRequest)
  | createSdkUser (ctx : ApiKeyOnlyContext) (q : CreateSdkUserRequest)
  | run (i : Nat) (input : RegistrationInput)
  | fail (i : Nat)
deriving DecidableEq, Repr

namespace Registrations

/-- Any rows, before the first call. -/
def start (businesses : List RegisteredBusiness) (environments : List RegisteredEnvironment)
    (users : List RegisteredUser) (sessions : List RegisteredSession) : Registrations where
  db := {
    businesses := businesses.map fun row => ⟨some { row with writer := none }, none⟩
    environments := environments.map fun row => ⟨some { row with writer := none }, none⟩
    users := users.map fun row => ⟨some { row with writer := none }, none⟩
    sessions := sessions.map fun row => ⟨some { row with writer := none }, none⟩ }
  calls := []

def step (lower : Lowercasing) (s : Registrations) : RegistrationAction → Option Registrations
  | .registerBusiness q => some { s with calls := s.calls ++ [.register q .start] }
  | .createSdkUser ctx q => some { s with calls := s.calls ++ [.createSdkUser ctx q .start] }
  | .run i input => do
    let c ← s.calls[i]?
    let (db, c) ← c.next lower i s.db input
    some { s with db, calls := s.calls.set i c }
  | .fail i => do
    let c ← s.calls[i]?
    let c ← c.failed
    some { db := s.db.rollback i, calls := s.calls.set i c }

end Registrations

end RailsCore.UsersService
