import RailsCore.Machine
import RailsCore.ReadCommitted
import RailsCore.UsersService

/-!
# Sessions and password resets

`login`, `refresh_token`, `revoke_token`, `request_password_reset` and
`reset_password`, cut at their statements, any number of each interleaved over
three tables under read committed isolation. A request may fail at any of its
statements, and its transaction is then rolled back: it is assumed that a
`COMMIT` that is answered with an error has had no effect. Random values are
inputs of a step and do not repeat. `resets`, `generation`, `parent` and `root` are
not columns: they say which password a session goes back to, and through which
sessions. Emails, access tokens and audit events are left out.
-/

namespace RailsCore.UsersService

open ReadCommitted (Cells committed scan touch unused)

/-- A row of `users`, with the number of resets that its password has gone through. -/
structure UserAccount extends UserRow where
  email : String
  passwordHash : String
  resets : Nat
deriving DecidableEq, Repr

inductive SessionStatus where
  | active
  | revoked
deriving DecidableEq, Repr

/-- A row of `user_sessions`. `generation` is the number of resets of the password that
the login behind the session verified, `parent` the session it was refreshed from, and
`root` the session of that login. -/
structure SessionRow where
  id : Uuid
  userId : Uuid
  environmentId : Uuid
  refreshToken : String
  status : SessionStatus
  expiresAt : Nat
  generation : Nat
  parent : Option Uuid
  root : Uuid
deriving DecidableEq, Repr

/-- A row of `password_reset_tokens`. -/
structure PasswordResetToken where
  id : Uuid
  userId : Uuid
  tokenHash : String
  expiresAt : Nat
  usedAt : Option Nat
deriving DecidableEq, Repr

structure Database where
  users : Cells UserAccount
  sessions : Cells SessionRow
  tokens : Cells PasswordResetToken
deriving DecidableEq, Repr

def Database.commit (tx : Nat) (db : Database) : Database where
  users := ReadCommitted.commit tx db.users
  sessions := ReadCommitted.commit tx db.sessions
  tokens := ReadCommitted.commit tx db.tokens

def Database.rollback (tx : Nat) (db : Database) : Database where
  users := ReadCommitted.rollback tx db.users
  sessions := ReadCommitted.rollback tx db.sessions
  tokens := ReadCommitted.rollback tx db.tokens

/-- `verify_password` of a password and a stored hash, and the hash of a reset token. -/
structure Credentials extends Lowercasing where
  verifyPassword : String → String → Except AppError Unit
  hashToken : String → String

def normalizeEmail (lower : Lowercasing) (email : String) : String :=
  lower.toLowercase (trim email)

/-- In milliseconds. -/
def thirtyDays : Nat := 30 * 24 * 60 * 60 * 1000

def oneHour : Nat := 60 * 60 * 1000

def SessionRow.revoked (r : SessionRow) : SessionRow := { r with status := .revoked }

def PasswordResetToken.used (now : Nat) (r : PasswordResetToken) : PasswordResetToken :=
  { r with usedAt := some now }

/-- What a step waits for: nothing, the environments that a select finds, or random values. -/
inductive SessionInput where
  | go
  | environments (available : List EnvironmentRow)
  | random (id : Uuid) (token : String)
  | hashed (passwordHash : String)
deriving DecidableEq, Repr

structure LoginRequest where
  email : String
  password : String
  environmentId : Option Uuid
deriving DecidableEq, Repr

inductive LoginPoint where
  | find
  | environments (first : UserAccount) (rows : List UserAccount)
  | insert (userId environmentId : Uuid) (generation expiresAt : Nat)
  | done (result : Except AppError SessionRow)
deriving DecidableEq, Repr

inductive RefreshPoint where
  | find
  | business (session : SessionRow)
  | update (session : SessionRow) (expiresAt : Nat)
  | insert (session : SessionRow) (expiresAt : Nat)
  | commit (session child : SessionRow)
  | done (result : Except AppError SessionRow)
deriving DecidableEq, Repr

inductive RevokePoint where
  | find
  | update
  | updating (remaining : List Uuid) (affected : Nat)
  | done (result : Except AppError Unit)
deriving DecidableEq, Repr

inductive RequestResetPoint where
  | find
  | begin (userId : Uuid)
  | invalidate (userId : Uuid) (now : Nat)
  | invalidating (userId : Uuid) (now : Nat) (remaining : List Uuid)
  | insert (userId : Uuid) (now : Nat)
  | commit (userId : Uuid)
  | business (userId : Uuid)
  | done (result : Except AppError PasswordResetRequestOutcome)
deriving DecidableEq, Repr

/-- `scanned` keeps the snapshot of the statement that revokes the sessions. -/
inductive ResetPoint where
  | check
  | claim (now : Nat)
  | claiming (now : Nat) (remaining : List Uuid) (claimed : List PasswordResetToken)
  | business (token : PasswordResetToken)
  | password (token : PasswordResetToken)
  | siblings (token : PasswordResetToken)
  | invalidating (token : PasswordResetToken) (now : Nat) (remaining : List Uuid)
  | sessions (token : PasswordResetToken)
  | evicting (token : PasswordResetToken) (scanned remaining : List Uuid)
  | done (result : Except AppError Unit)
deriving DecidableEq, Repr

/-- The environment of a new session: the one asked for, else the sandbox, else the first. -/
def selectedEnvironment (requested : Option Uuid) (available : List EnvironmentRow) : Option Uuid :=
  let available := available.mergeSort (fun a b => a.type ≤ b.type)
  let sandbox := (available.find? (fun e => e.type = "sandbox")).map EnvironmentRow.id
  (requested.filter (fun id => available.any (fun e => e.id = id))).or
    (sandbox.or (available.head?.map EnvironmentRow.id))

/-- The row that a login inserts. -/
def loginSession (userId environmentId : Uuid) (generation expiresAt : Nat) (id : Uuid)
    (refreshToken : String) : SessionRow :=
  { id, userId, environmentId, refreshToken, status := .active, expiresAt, generation,
    parent := none, root := id }

def loginNext (lib : Credentials) (now : Nat) (q : LoginRequest) (db : Database)
    (point : LoginPoint) (input : SessionInput) : Option (Database × LoginPoint) :=
  match point, input with
  | .find, .go =>
    let rows := (committed db.users).filter (fun u =>
      u.email = normalizeEmail lib.toLowercasing q.email ∧ u.status = "active")
    match rows with
    | [] => some (db, .done (.error .unauthorized))
    | first :: _ =>
      match lib.verifyPassword q.password first.passwordHash with
      | .error e => some (db, .done (.error e))
      | .ok () => some (db, .environments first rows)
  | .environments first rows, .environments available =>
    if available.all (fun e => e.businessId = first.businessId ∧ e.status = "active") then
      match selectedEnvironment q.environmentId available with
      | none => some (db, .done (.error .unauthorized))
      | some selected =>
        match rows.find? (fun u => u.status = "active" ∧ u.environmentId = selected) with
        | none => some (db, .done (.error .unauthorized))
        | some user => some (db, .insert user.id selected first.resets (now + thirtyDays))
    else none
  | .insert userId environmentId generation expiresAt, .random id refreshToken =>
    if unused SessionRow.id id db.sessions ∧
      unused SessionRow.refreshToken refreshToken db.sessions then
      let row := loginSession userId environmentId generation expiresAt id refreshToken
      some ({ db with sessions := ReadCommitted.insertNow row db.sessions }, .done (.ok row))
    else none
  | _, _ => none

/-- The row that a refresh inserts. -/
def refreshedSession (session : SessionRow) (expiresAt : Nat) (id : Uuid) (refreshToken : String) :
    SessionRow :=
  { session with
    id, refreshToken, status := .active, expiresAt, parent := some session.id }

def refreshNext (now tx : Nat) (refreshToken : String) (db : Database) (point : RefreshPoint)
    (input : SessionInput) : Option (Database × RefreshPoint) :=
  match point, input with
  | .find, .go =>
    match (committed db.sessions).find? (fun r => r.refreshToken = refreshToken) with
    | none => some (db, .done (.error .unauthorized))
    | some session =>
      if session.status ≠ .active ∨ session.expiresAt < now then
        some (db, .done (.error .unauthorized))
      else some (db, .business session)
  | .business session, .go =>
    match (committed db.users).find? (fun u => u.id = session.userId) with
    | none => some (db, .done (.error .internal))
    | some _ => some (db, .update session (now + thirtyDays))
  | .update session expiresAt, .go => do
    let (sessions, _) ← touch SessionRow.id tx session.id (fun r => r.id = session.id)
      SessionRow.revoked db.sessions
    some ({ db with sessions }, .insert session expiresAt)
  | .insert session expiresAt, .random id refreshToken =>
    if unused SessionRow.id id db.sessions ∧
      unused SessionRow.refreshToken refreshToken db.sessions then
      let child := refreshedSession session expiresAt id refreshToken
      some ({ db with sessions := ReadCommitted.insert tx child db.sessions }, .commit session child)
    else none
  | .commit _ child, .go => some (db.commit tx, .done (.ok child))
  | _, _ => none

def revokes (refreshToken : String) (r : SessionRow) : Bool :=
  r.refreshToken = refreshToken ∧ r.status = .active

def notRevocable : AppError := .badRequest "Token not found or already revoked"

def revokeNext (tx : Nat) (refreshToken : String) (db : Database) (point : RevokePoint)
    (input : SessionInput) : Option (Database × RevokePoint) :=
  match point, input with
  | .find, .go =>
    if (committed db.sessions).any (fun r => revokes refreshToken r &&
      (committed db.users).any (fun u => u.id = r.userId)) then some (db, .update)
    else some (db, .done (.error notRevocable))
  | .update, .go =>
    some (db, .updating (scan SessionRow.id tx (revokes refreshToken) db.sessions) 0)
  | .updating (k :: remaining) affected, .go => do
    let (sessions, row) ← touch SessionRow.id tx k (revokes refreshToken) SessionRow.revoked
      db.sessions
    some ({ db with sessions }, .updating remaining (if row.isSome then affected + 1 else affected))
  | .updating [] affected, .go =>
    if affected = 0 then some (db, .done (.error notRevocable))
    else some (db.commit tx, .done (.ok ()))
  | _, _ => none

/-- The unused tokens of a user. -/
def invalidates (userId : Uuid) (r : PasswordResetToken) : Bool :=
  r.userId = userId ∧ r.usedAt = none

def requestResetNext (lib : Credentials) (now tx : Nat) (email : String) (db : Database)
    (point : RequestResetPoint) (input : SessionInput) : Option (Database × RequestResetPoint) :=
  match point, input with
  | .find, .go =>
    match (committed db.users).find? (fun u =>
      u.email = normalizeEmail lib.toLowercasing email ∧ u.status = "active") with
    | none => some (db, .done (.ok .noSuchUser))
    | some user => some (db, .begin user.id)
  | .begin userId, .go => some (db, .invalidate userId now)
  | .invalidate userId now, .go =>
    some (db, .invalidating userId now
      (scan PasswordResetToken.id tx (invalidates userId) db.tokens))
  | .invalidating userId now (k :: remaining), .go => do
    let (tokens, _) ← touch PasswordResetToken.id tx k (invalidates userId)
      (PasswordResetToken.used now) db.tokens
    some ({ db with tokens }, .invalidating userId now remaining)
  | .invalidating userId now [], .go => some (db, .insert userId now)
  | .insert userId now, .random id token =>
    if unused PasswordResetToken.id id db.tokens ∧
      unused PasswordResetToken.tokenHash (lib.hashToken token) db.tokens then
      let row : PasswordResetToken := ⟨id, userId, lib.hashToken token, now + oneHour, none⟩
      some ({ db with tokens := ReadCommitted.insert tx row db.tokens }, .commit userId)
    else none
  | .commit userId, .go => some (db.commit tx, .business userId)
  | .business userId, .go =>
    match (committed db.users).find? (fun u => u.id = userId) with
    | none => some (db, .done (.error .internal))
    | some user => some (db, .done (.ok (.issued userId user.businessId)))
  | _, _ => none

/-- The condition of `claim_token_sql`. -/
def claims (now : Nat) (tokenHash : String) (r : PasswordResetToken) : Bool :=
  r.tokenHash = tokenHash ∧ r.usedAt = none ∧ now ≤ r.expiresAt

/-- The condition of `revoke_user_sessions_sql`. -/
def evicts (userId : Uuid) (r : SessionRow) : Bool := r.userId = userId ∧ r.status = .active

/-- The other unused tokens of the user. -/
def siblingOf (token : PasswordResetToken) (r : PasswordResetToken) : Bool :=
  invalidates token.userId r && r.id ≠ token.id

def withPassword (passwordHash : String) (u : UserAccount) : UserAccount :=
  { u with passwordHash, resets := u.resets + 1 }

def resetNext (lib : Credentials) (now tx : Nat) (token newPassword : String) (db : Database)
    (point : ResetPoint) (input : SessionInput) : Option (Database × ResetPoint) :=
  match point, input with
  | .check, .go =>
    if newPassword.utf8ByteSize < 8 then
      some (db, .done (.error (.badRequest "Password must be at least 8 characters long")))
    else some (db, .claim now)
  | .claim now, .go =>
    some (db, .claiming now
      (scan PasswordResetToken.id tx (claims now (lib.hashToken token)) db.tokens) [])
  | .claiming now (k :: remaining) claimed, .go => do
    let (tokens, row) ← touch PasswordResetToken.id tx k (claims now (lib.hashToken token))
      (PasswordResetToken.used now) db.tokens
    some ({ db with tokens }, .claiming now remaining (claimed ++ row.toList))
  | .claiming _ [] [], .go =>
    some (db.rollback tx, .done (.error (.badRequest "Invalid or expired reset token")))
  | .claiming _ [] (row :: _), .go => some (db, .business row)
  | .business row, .go =>
    match (committed db.users).find? (fun u => u.id = row.userId) with
    | none => some (db.rollback tx, .done (.error .internal))
    | some _ => some (db, .password row)
  | .password row, .hashed passwordHash => do
    let (users, _) ← touch (fun u => u.id) tx row.userId (fun u => u.id = row.userId)
      (withPassword passwordHash) db.users
    some ({ db with users }, .siblings row)
  | .siblings row, .go =>
    some (db, .invalidating row now (scan PasswordResetToken.id tx (siblingOf row) db.tokens))
  | .invalidating row usedAt (k :: remaining), .go => do
    let (tokens, _) ← touch PasswordResetToken.id tx k (siblingOf row)
      (PasswordResetToken.used usedAt) db.tokens
    some ({ db with tokens }, .invalidating row usedAt remaining)
  | .invalidating row _ [], .go => some (db, .sessions row)
  | .sessions row, .go =>
    let scanned := scan SessionRow.id tx (evicts row.userId) db.sessions
    some (db, .evicting row scanned scanned)
  | .evicting row scanned (k :: remaining), .go => do
    let (sessions, _) ← touch SessionRow.id tx k (evicts row.userId) SessionRow.revoked db.sessions
    some ({ db with sessions }, .evicting row scanned remaining)
  | .evicting _ _ [], .go => some (db.commit tx, .done (.ok ()))
  | _, _ => none

inductive SessionRequest where
  | login (q : LoginRequest) (point : LoginPoint)
  | refreshToken (token : String) (point : RefreshPoint)
  | revokeToken (token : String) (point : RevokePoint)
  | requestPasswordReset (email : String) (point : RequestResetPoint)
  | resetPassword (token newPassword : String) (point : ResetPoint)
deriving DecidableEq, Repr

namespace SessionRequest

/-- One statement of a request, as the transaction `tx`. -/
def next (lib : Credentials) (now tx : Nat) (db : Database) (input : SessionInput) :
    SessionRequest → Option (Database × SessionRequest)
  | .login q point => do
    let (db, point) ← loginNext lib now q db point input
    some (db, .login q point)
  | .refreshToken token point => do
    let (db, point) ← refreshNext now tx token db point input
    some (db, .refreshToken token point)
  | .revokeToken token point => do
    let (db, point) ← revokeNext tx token db point input
    some (db, .revokeToken token point)
  | .requestPasswordReset email point => do
    let (db, point) ← requestResetNext lib now tx email db point input
    some (db, .requestPasswordReset email point)
  | .resetPassword token newPassword point => do
    let (db, point) ← resetNext lib now tx token newPassword db point input
    some (db, .resetPassword token newPassword point)

/-- The request after a statement of it has failed. -/
def failed : SessionRequest → Option SessionRequest
  | .login _ (.done _) | .refreshToken _ (.done _) | .revokeToken _ (.done _)
  | .requestPasswordReset _ (.done _) | .resetPassword _ _ (.done _) => none
  | .login q _ => some (.login q (.done (.error .internal)))
  | .refreshToken token _ => some (.refreshToken token (.done (.error .internal)))
  | .revokeToken token _ => some (.revokeToken token (.done (.error .internal)))
  | .requestPasswordReset email _ => some (.requestPasswordReset email (.done (.error .internal)))
  | .resetPassword token newPassword _ =>
    some (.resetPassword token newPassword (.done (.error .internal)))

end SessionRequest

structure SessionsService where
  now : Nat
  db : Database
  requests : List SessionRequest
deriving DecidableEq, Repr

inductive SessionsAction where
  | tick (now : Nat)
  | login (q : LoginRequest)
  | refreshToken (token : String)
  | revokeToken (token : String)
  | requestPasswordReset (email : String)
  | resetPassword (token newPassword : String)
  | run (i : Nat) (input : SessionInput)
  | fail (i : Nat)
deriving DecidableEq, Repr

namespace SessionsService

/-- Users who have never logged in. -/
def registered (users : List UserAccount) : SessionsService :=
  ⟨0, ⟨users.map (fun u => ⟨some u, none⟩), [], []⟩, []⟩

def start (s : SessionsService) (q : SessionRequest) : Option SessionsService :=
  some { s with requests := s.requests ++ [q] }

def step (lib : Credentials) (s : SessionsService) : SessionsAction → Option SessionsService
  | .tick now => if s.now ≤ now then some { s with now } else none
  | .login q => s.start (.login q .find)
  | .refreshToken token => s.start (.refreshToken token .find)
  | .revokeToken token => s.start (.revokeToken token .find)
  | .requestPasswordReset email => s.start (.requestPasswordReset email .find)
  | .resetPassword token newPassword => s.start (.resetPassword token newPassword .check)
  | .run i input => do
    let q ← s.requests[i]?
    let (db, q) ← q.next lib s.now i s.db input
    some { s with db, requests := s.requests.set i q }
  | .fail i => do
    let q ← s.requests[i]?
    let q ← q.failed
    some { s with db := s.db.rollback i, requests := s.requests.set i q }

end SessionsService

end RailsCore.UsersService
