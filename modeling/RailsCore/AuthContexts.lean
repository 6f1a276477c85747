import RailsCore.Table
import RailsCore.UsersService

/-!
# Who is asking, and for which environment

The two request extractors of the users service and its gRPC check of an API
key, each over one state of the database. A query that fails rejects the
request, which only shrinks what is accepted, and the time of the last use of
a key is not kept here.
-/

namespace RailsCore.UsersService

structure AuthContext where
  userId : Option Uuid
  apiKeyId : Option Uuid
  businessId : Uuid
  environmentId : Uuid
deriving DecidableEq, Repr

structure ApiKeyOnlyContext where
  apiKeyId : Uuid
  businessId : Uuid
  environmentId : Uuid
deriving DecidableEq, Repr

namespace UsersDatabase
variable (db : UsersDatabase)

def apiKeyByHash (keyHash : String) : Option ApiKeyRow :=
  db.apiKeys.find? (fun k => k.keyHash = keyHash)

def activeEnvironmentOfType (businessId : Uuid) (type : String) : Option EnvironmentRow :=
  db.environments.find? (fun e => e.businessId = businessId && e.type = type && e.status = "active")

/-- The query with which both extractors check an environment at the end. -/
def hasActiveEnvironment (environmentId businessId : Uuid) : Bool :=
  db.environments.any
    (fun e => e.id = environmentId && e.businessId = businessId && e.status = "active")

end UsersDatabase

def ApiKeyRow.Usable (key : ApiKeyRow) : Prop := key.status = "active" ∧ key.revokedAt = none

instance (key : ApiKeyRow) : Decidable key.Usable := inferInstanceAs (Decidable (_ ∧ _))

variable (lib : Libraries) (db : UsersDatabase) (parts : Parts)

def environmentIdFromUuidHeader : Except AppError (Option Uuid) :=
  match headerText parts.environmentId with
  | none => .ok none
  | some raw =>
    match lib.parseUuid raw with
    | some id => .ok (some id)
    | none => .error (.badRequest "Invalid X-Environment-Id header")

/-- The environment that an API key is used in: the one of the uuid header, or the active one
of the type that the string header names. -/
def environmentForKey (businessId : Uuid) (fromUuidHeader : Option Uuid) : Except AppError Uuid :=
  match fromUuidHeader with
  | some environmentId => .ok environmentId
  | none =>
    match headerText parts.environment with
    | none => .error (.badRequest "Missing X-Environment header")
    | some environment =>
      if environment ≠ "sandbox" ∧ environment ≠ "production" then
        .error (.badRequest "Invalid X-Environment header: must be 'sandbox' or 'production'")
      else
        match db.activeEnvironmentOfType businessId environment with
        | none => .error .forbidden
        | some row => .ok row.id

/-- What both extractors do with an API key. -/
def apiKeyContext (fromUuidHeader : Option Uuid) (apiKeyPlain : String) :
    Except AppError ApiKeyOnlyContext :=
  match db.apiKeyByHash (lib.hashApiKey apiKeyPlain) with
  | none => .error .unauthorized
  | some key =>
    if key.Usable then
      match environmentForKey db parts key.businessId fromUuidHeader with
      | .error e => .error e
      | .ok environmentId =>
        if db.hasActiveEnvironment environmentId key.businessId then
          .ok ⟨key.id, key.businessId, environmentId⟩
        else .error .forbidden
    else .error .unauthorized

def stripPrefix (start s : String) : Option String :=
  if start.toList.isPrefixOf s.toList then some (String.ofList (s.toList.drop start.toList.length))
  else none

/-- The user that the bearer token names. -/
def bearerUser : Except AppError Uuid :=
  let named := do
    let authHeader ← parts.authorization.bind HeaderValue.toStr
    let token ← stripPrefix "Bearer " authHeader
    let sub ← lib.decodeToken token
    lib.parseUuid sub
  match named with
  | some userId => .ok userId
  | none => .error .unauthorized

def activeUserIn (userId environmentId : Uuid) : Option UserRow :=
  db.users.find? (fun u => u.id = userId && u.environmentId = environmentId && u.status = "active")

def anyActiveUser (userId : Uuid) : Option UserRow :=
  db.users.find? (fun u => u.id = userId && u.status = "active")

/-- The business of the user in the environment, or of the user elsewhere where the
environment belongs to it. -/
def businessForUser (userId environmentId : Uuid) : Except AppError Uuid :=
  match activeUserIn db userId environmentId with
  | some user => .ok user.businessId
  | none =>
    match anyActiveUser db userId with
    | none => .error .forbidden
    | some user =>
      if db.hasActiveEnvironment environmentId user.businessId then .ok user.businessId
      else .error .forbidden

def AuthContext.fromRequestParts : Except AppError AuthContext := do
  let fromUuidHeader ← environmentIdFromUuidHeader lib parts
  match headerText parts.apiKey with
  | some apiKeyPlain =>
    let ctx ← apiKeyContext lib db parts fromUuidHeader apiKeyPlain
    .ok ⟨none, some ctx.apiKeyId, ctx.businessId, ctx.environmentId⟩
  | none =>
    match fromUuidHeader with
    | none => .error (.badRequest "Missing X-Environment-Id header")
    | some environmentId =>
      let userId ← bearerUser lib parts
      let businessId ← businessForUser db userId environmentId
      .ok ⟨some userId, none, businessId, environmentId⟩

def ApiKeyOnlyContext.fromRequestParts : Except AppError ApiKeyOnlyContext := do
  let fromUuidHeader ← environmentIdFromUuidHeader lib parts
  match headerText parts.apiKey with
  | none => .error .unauthorized
  | some apiKeyPlain => apiKeyContext lib db parts fromUuidHeader apiKeyPlain

/-- The checks of the gRPC interface on its inputs. -/
def validateApiKeyRequestInputs (apiKey environment : String) : Except Status (String × String) :=
  let apiKeyPlain := trim apiKey
  let environment := toLowercase (trim environment)
  if apiKeyPlain = "" then .error ⟨.invalidArgument, "api_key is required"⟩
  else if environment ≠ "sandbox" ∧ environment ≠ "production" then
    .error ⟨.invalidArgument, "environment must be 'sandbox' or 'production'"⟩
  else .ok (apiKeyPlain, environment)

def validateApiKeyScope (apiKeyPlain environment : String) : Except Status (Uuid × Uuid) :=
  match db.apiKeyByHash (lib.hashApiKey apiKeyPlain) with
  | none => .error ⟨.unauthenticated, "Invalid or revoked API key"⟩
  | some key =>
    if key.Usable then
      match db.activeEnvironmentOfType key.businessId environment with
      | none => .error ⟨.failedPrecondition, "No such environment for business"⟩
      | some row => .ok (key.businessId, row.id)
    else .error ⟨.unauthenticated, "API key is revoked or inactive"⟩

/-- The scope of a gRPC request. -/
def grpcScope (apiKey environment : String) : Except Status (Uuid × Uuid) := do
  let (apiKeyPlain, environment) ← validateApiKeyRequestInputs apiKey environment
  validateApiKeyScope lib db apiKeyPlain environment

/-! Scopes -/

variable {lib db parts}

/-- The environment is active and belongs to the business. -/
def WellScoped (db : UsersDatabase) (businessId environmentId : Uuid) : Prop :=
  ∃ row ∈ db.environments, row.id = environmentId ∧ row.businessId = businessId ∧
    row.status = "active"

theorem hasActiveEnvironment_iff {environmentId businessId : Uuid} :
    db.hasActiveEnvironment environmentId businessId = true ↔
      WellScoped db businessId environmentId := by
  simp [UsersDatabase.hasActiveEnvironment, WellScoped, and_assoc]

theorem apiKeyContext_wellScoped {fromUuidHeader : Option Uuid} {apiKeyPlain : String}
    {ctx : ApiKeyOnlyContext}
    (h : apiKeyContext lib db parts fromUuidHeader apiKeyPlain = .ok ctx) :
    WellScoped db ctx.businessId ctx.environmentId := by
  unfold apiKeyContext at h
  split at h
  · exact nomatch h
  · split at h
    · split at h
      · exact nomatch h
      · split at h
        · rename_i active
          cases h
          exact hasActiveEnvironment_iff.mp active
        · exact nomatch h
    · exact nomatch h

theorem apiKeyOnly_wellScoped {ctx : ApiKeyOnlyContext}
    (h : ApiKeyOnlyContext.fromRequestParts lib db parts = .ok ctx) :
    WellScoped db ctx.businessId ctx.environmentId := by
  obtain ⟨fromUuidHeader, header, h⟩ := except_bind_ok.mp h
  split at h
  · exact nomatch h
  · exact apiKeyContext_wellScoped h

/-- The two ways to an accepted context: a key, or a token and an environment id. -/
theorem authContext_ok {ctx : AuthContext}
    (h : AuthContext.fromRequestParts lib db parts = .ok ctx) :
    (∃ fromUuidHeader apiKeyPlain found,
      environmentIdFromUuidHeader lib parts = .ok fromUuidHeader ∧
      headerText parts.apiKey = some apiKeyPlain ∧
      apiKeyContext lib db parts fromUuidHeader apiKeyPlain = .ok found ∧
      ctx = ⟨none, some found.apiKeyId, found.businessId, found.environmentId⟩) ∨
    ∃ environmentId userId businessId,
      environmentIdFromUuidHeader lib parts = .ok (some environmentId) ∧
      headerText parts.apiKey = none ∧ bearerUser lib parts = .ok userId ∧
      businessForUser db userId environmentId = .ok businessId ∧
      ctx = ⟨some userId, none, businessId, environmentId⟩ := by
  obtain ⟨fromUuidHeader, header, h⟩ := except_bind_ok.mp h
  split at h
  · rename_i apiKeyPlain key
    obtain ⟨found, scope, h⟩ := except_bind_ok.mp h
    exact .inl ⟨fromUuidHeader, apiKeyPlain, found, header, key, scope, (Except.ok.inj h).symm⟩
  · rename_i key
    split at h
    · exact nomatch h
    · rename_i environmentId
      obtain ⟨userId, bearer, h⟩ := except_bind_ok.mp h
      obtain ⟨businessId, business, h⟩ := except_bind_ok.mp h
      exact .inr ⟨environmentId, userId, businessId, header, key, bearer, business,
        (Except.ok.inj h).symm⟩

/-- A token without an API key is accepted for the business of its user. -/
theorem authContext_of_token {lib : Libraries} {db : UsersDatabase} {parts : Parts}
    {environmentId userId businessId : Uuid}
    (header : environmentIdFromUuidHeader lib parts = .ok (some environmentId))
    (noKey : headerText parts.apiKey = none) (bearer : bearerUser lib parts = .ok userId)
    (business : businessForUser db userId environmentId = .ok businessId) :
    AuthContext.fromRequestParts lib db parts =
      .ok ⟨some userId, none, businessId, environmentId⟩ := by
  simp only [AuthContext.fromRequestParts, header, noKey, bearer, business, bind, Except.bind]

/-- What the foreign keys and the primary key of the tables promise, and that the
environment of a user belongs to the business of the user. -/
structure UsersDatabase.Consistent (db : UsersDatabase) : Prop where
  environmentIds : (db.environments.map EnvironmentRow.id).Nodup
  owned : ∀ u ∈ db.users, ∃ e ∈ db.environments, e.id = u.environmentId ∧ e.businessId = u.businessId

/-- A request with a token, for the environment that its active user is in, finds it active. -/
def OwnEnvironmentActive (lib : Libraries) (db : UsersDatabase) (parts : Parts) : Prop :=
  headerText parts.apiKey = none →
    ∀ environmentId, environmentIdFromUuidHeader lib parts = .ok (some environmentId) →
      ∀ userId, bearerUser lib parts = .ok userId →
        ∀ u ∈ db.users, u.id = userId → u.environmentId = environmentId → u.status = "active" →
          ∃ e ∈ db.environments, e.id = environmentId ∧ e.status = "active"

/-- Every context that either extractor accepts is well scoped if and only if the
environment of a user with a token is active. -/
theorem contexts_wellScoped_iff (lib : Libraries) (db : UsersDatabase) (parts : Parts)
    (consistent : db.Consistent) :
    ((∀ ctx, AuthContext.fromRequestParts lib db parts = .ok ctx →
        WellScoped db ctx.businessId ctx.environmentId) ∧
      ∀ ctx, ApiKeyOnlyContext.fromRequestParts lib db parts = .ok ctx →
        WellScoped db ctx.businessId ctx.environmentId) ↔ OwnEnvironmentActive lib db parts := by
  constructor
  · rintro ⟨auth, -⟩ noKey environmentId header userId bearer u stored rfl rfl active
    obtain ⟨user, found⟩ : ∃ user, activeUserIn db u.id u.environmentId = some user := by
      apply Option.isSome_iff_exists.mp
      rw [activeUserIn, List.find?_isSome]
      exact ⟨u, stored, by simp [active]⟩
    have accepted : AuthContext.fromRequestParts lib db parts =
        .ok ⟨some u.id, none, user.businessId, u.environmentId⟩ :=
      authContext_of_token header noKey bearer (by rw [businessForUser, found])
    obtain ⟨row, stored, id, -, status⟩ := auth _ accepted
    exact ⟨row, stored, id, status⟩
  · intro own
    refine ⟨fun ctx h => ?_, fun ctx h => apiKeyOnly_wellScoped h⟩
    rcases authContext_ok h with ⟨fromUuidHeader, apiKeyPlain, found, -, -, scope, rfl⟩ |
      ⟨environmentId, userId, businessId, header, noKey, bearer, business, rfl⟩
    · exact apiKeyContext_wellScoped scope
    unfold businessForUser at business
    split at business
    · -- the user's own environment: its status was not asked for
      rename_i user found
      cases business
      have stored := List.mem_of_find?_eq_some found
      have selected := List.find?_some found
      simp only [Bool.and_eq_true, decide_eq_true_eq] at selected
      obtain ⟨⟨id, inside⟩, active⟩ := selected
      obtain ⟨e, he, sameId, status⟩ := own noKey environmentId header userId bearer user stored id
        inside active
      obtain ⟨e', he', sameId', owner⟩ := consistent.owned user stored
      have same := sameId.trans (inside.symm.trans sameId'.symm)
      obtain rfl := List.inj_on_of_nodup_map consistent.environmentIds he he' same
      exact ⟨e, he, sameId, owner, status⟩
    · split at business
      · exact nomatch business
      · split at business
        · rename_i active
          cases business
          exact hasActiveEnvironment_iff.mp active
        · exact nomatch business

/-- A token of user 9, signed with the development secret. -/
def sampleToken : String :=
  "eyJ0eXAiOiJKV1QiLCJhbGciOiJIUzI1NiJ9" ++
    ".eyJzdWIiOiIwMDAwMDAwMC0wMDAwLTAwMDAtMDAwMC0wMDAwMDAwMDAwMDkiLCJleHAiOjQxMDI0NDQ4MDB9" ++
    ".KiDWYlEyrcO1kstFawwZwfPm69XJRxhM1QDtAoIEo8M"

/-- The libraries with the development secrets, on one key, one token and two uuids. -/
def sampleLibraries : Libraries where
  hashApiKey s :=
    if s = "key" then "6deadd633048878e08f063480f25f93280cab64d0c8356d0b6e5c23a7888706e" else ""
  parseUuid s := ([⟨5⟩, ⟨9⟩] : List Uuid).find? (fun u => u.toString = s)
  decodeToken s := if s = sampleToken then some (Uuid.toString ⟨9⟩) else none

/-- An environment with an active user in it. -/
def ownEnvironment (status : String) : UsersDatabase :=
  ⟨[⟨⟨5⟩, ⟨1⟩, "sandbox", status⟩], [⟨⟨9⟩, ⟨1⟩, ⟨5⟩, "active"⟩], []⟩

def tokenRequest : Parts :=
  ⟨some (headerOf (Uuid.toString ⟨5⟩)), none, none, some (headerOf ("Bearer " ++ sampleToken))⟩

theorem stripPrefix_append (start s : String) : stripPrefix start (start ++ s) = some s := by
  have begins : start.toList.isPrefixOf (start ++ s).toList := by
    rw [List.isPrefixOf_iff_prefix, String.toList_append]
    exact List.prefix_append _ _
  rw [stripPrefix, if_pos begins, String.toList_append, List.drop_left, String.ofList_toList]

theorem isVisible_append {s t : String} (first : IsVisible s) (second : IsVisible t) :
    IsVisible (s ++ t) := by
  intro c inside
  rw [String.toList_append] at inside
  rcases List.mem_append.mp inside with inside | inside
  · exact first c inside
  · exact second c inside

/-- A visible token that the libraries take names its user. -/
theorem bearerUser_of_token {lib : Libraries} {parts : Parts} {token sub : String} {userId : Uuid}
    (sent : parts.authorization = some (headerOf ("Bearer " ++ token)))
    (visible : IsVisible ("Bearer " ++ token)) (decoded : lib.decodeToken token = some sub)
    (parsed : lib.parseUuid sub = some userId) : bearerUser lib parts = .ok userId := by
  simp only [bearerUser, sent, Option.bind_eq_bind, Option.bind_some, toStr_headerOf, if_pos visible,
    stripPrefix_append, decoded, parsed]

theorem bearerUser_tokenRequest : bearerUser sampleLibraries tokenRequest = .ok ⟨9⟩ := by
  have sent : tokenRequest.authorization = some (headerOf ("Bearer " ++ sampleToken)) := rfl
  have visible : IsVisible ("Bearer " ++ sampleToken) :=
    isVisible_append (by decide) (isVisible_append (isVisible_append (by decide +kernel)
      (by decide +kernel)) (by decide +kernel))
  have decoded : sampleLibraries.decodeToken sampleToken = some (Uuid.toString ⟨9⟩) := by
    simp only [sampleLibraries, if_true]
  exact bearerUser_of_token sent visible decoded (by decide +kernel)

theorem tokenRequest_accepted {db : UsersDatabase} {businessId : Uuid}
    (business : businessForUser db ⟨9⟩ ⟨5⟩ = .ok businessId) :
    AuthContext.fromRequestParts sampleLibraries db tokenRequest =
      .ok ⟨some ⟨9⟩, none, businessId, ⟨5⟩⟩ :=
  authContext_of_token (by decide +kernel) rfl bearerUser_tokenRequest business

theorem contexts_wellScoped_iff_active :
    AuthContext.fromRequestParts sampleLibraries (ownEnvironment "active") tokenRequest =
      .ok ⟨some ⟨9⟩, none, ⟨1⟩, ⟨5⟩⟩ ∧
    (((∀ ctx, AuthContext.fromRequestParts sampleLibraries (ownEnvironment "active") tokenRequest =
          .ok ctx → WellScoped (ownEnvironment "active") ctx.businessId ctx.environmentId) ∧
        ∀ ctx, ApiKeyOnlyContext.fromRequestParts sampleLibraries (ownEnvironment "active")
          tokenRequest = .ok ctx →
            WellScoped (ownEnvironment "active") ctx.businessId ctx.environmentId) ↔
      OwnEnvironmentActive sampleLibraries (ownEnvironment "active") tokenRequest) :=
  ⟨tokenRequest_accepted (by decide), contexts_wellScoped_iff sampleLibraries
    (ownEnvironment "active") tokenRequest ⟨by decide, by decide⟩⟩

/-- The user's environment is suspended, and the token is accepted for it. -/
theorem suspended_environment_accepted : ¬ ∀ (lib : Libraries) (db : UsersDatabase) (parts : Parts),
    db.Consistent → (∀ ctx, AuthContext.fromRequestParts lib db parts = .ok ctx →
        WellScoped db ctx.businessId ctx.environmentId) ∧
      ∀ ctx, ApiKeyOnlyContext.fromRequestParts lib db parts = .ok ctx →
        WellScoped db ctx.businessId ctx.environmentId := by
  intro claim
  have accepted : AuthContext.fromRequestParts sampleLibraries (ownEnvironment "suspended")
      tokenRequest = .ok ⟨some ⟨9⟩, none, ⟨1⟩, ⟨5⟩⟩ := tokenRequest_accepted (by decide)
  have within := (claim sampleLibraries (ownEnvironment "suspended") tokenRequest
    ⟨by decide, by decide⟩).1 _ accepted
  exact absurd (hasActiveEnvironment_iff.mpr within) (by decide)

end RailsCore.UsersService
