import RailsCore.AuditStore

/-!
# Appending and listing audit events

The gRPC and the HTTP append path, `event_to_insert`, and the HTTP list with
the ways to its scope. `validate_api_key` is a call to the users service and a
parameter of the state, with the answer that its response parses to. An error
of the HTTP interface is kept as its status and message.
-/

namespace RailsCore.Audit

open UsersService (trim toLowercase HeaderValue headerText)

namespace ActorType

def str : ActorType → String
  | .user => "user"
  | .apiKey => "api_key"
  | .internalService => "internal_service"
  | .anonymous => "anonymous"
  | .unspecified => "unspecified"

end ActorType

namespace Outcome

def str : Outcome → String
  | .success => "success"
  | .clientError => "client_error"
  | .serverError => "server_error"
  | .unspecified => "unspecified"

end Outcome

/-- The parsers with `to_rfc3339` of any instant, and the precision of a column of instants. -/
structure StoreLibraries extends Libraries where
  showInstant : Int → String
  precision : Int → Int

/-- `as i16`. -/
def asI16 (n : Int) : Int := n.bmod (2 ^ 16)

/-- The loop that fills the map of a row. -/
def metaMap (metadata : List (String × String)) : Metadata :=
  metadata.foldl (fun m entry => m.insert entry.1 entry.2) []

def eventToInsert (lib : Libraries) (event : AuditEvent) : Except String AuditInsert :=
  match lib.parseRfc3339 event.occurredAt with
  | none => .error "occurred_at"
  | some occurredAt =>
  match lib.parseUuid (trim event.organizationId) with
  | none => .error "organization_id"
  | some org =>
  match event.actor with
  | none => .error "actor"
  | some actor =>
  match ActorType.tryFrom actor.type with
  | none => .error "actor.type"
  | some actorType =>
  match event.target with
  | none => .error "target"
  | some target =>
  match event.request with
  | none => .error "request"
  | some req =>
  match Outcome.tryFrom event.outcome with
  | none => .error "outcome"
  | some outcome =>
    .ok {
      occurredAt := occurredAt
      schemaVersion := asI16 event.schemaVersion
      sourceService := trim event.sourceService
      organizationId := org
      environment := trim event.environment
      actorType := actorType.str
      actorId := trim actor.id
      actorRoles := actor.roles
      action := trim event.action
      targetType := trim target.type
      targetId := trim target.id
      outcome := outcome.str
      requestId := trim req.id
      requestMethod := trim req.method
      requestPath := trim req.path
      requestIp := req.ip
      requestUserAgent := req.userAgent
      correlationId := trim event.correlationId
      reason := event.reason.filter (fun s => trim s ≠ "")
      metadata := metaMap event.metadata }

inductive GrpcStatus where
  | invalidArgument (message : String)
  | internal
deriving DecidableEq, Repr

/-- What an append finds: the clock, and the id and the time that an insert generates. -/
structure AppendInput where
  now : Nat
  id : Uuid
  createdAt : Int
deriving DecidableEq, Repr

namespace Grpc

def appendAuditEvent (lib : StoreLibraries) (input : AppendInput) (rows : List AuditColumns)
    (event : Option AuditEvent) : Except GrpcStatus (List AuditColumns × Uuid) :=
  match event with
  | none => .error (.invalidArgument "event required")
  | some event =>
    match validateAuditEvent lib.toLibraries input.now event with
    | .error message => .error (.invalidArgument message)
    | .ok () =>
      match eventToInsert lib.toLibraries event with
      | .error message => .error (.invalidArgument message)
      | .ok row =>
        match insertAuditEvent lib.precision rows input.id input.createdAt row with
        | none => .error .internal
        | some rows => .ok (rows, input.id)

end Grpc

structure ApiError where
  status : Nat
  message : String
deriving DecidableEq, Repr

/-- The codes of the users service that its errors are told apart by. -/
inductive Code where
  | unauthenticated
  | invalidArgument
  | permissionDenied
  | other
deriving DecidableEq, Repr

structure AppState where
  internalToken : Option String
  validateApiKey : String → String → Except (Code × String) (Uuid × Uuid × Uuid)

/-- The headers of an audit request, each with its first value. -/
structure AuditHeaders where
  internalServiceToken : Option HeaderValue
  environment : Option HeaderValue
  apiKey : Option HeaderValue
deriving DecidableEq, Repr

structure ActorPayload where
  actorType : String
  id : String
  roles : List String
deriving DecidableEq, Repr

structure TargetPayload where
  targetType : String
  id : String
deriving DecidableEq, Repr

structure RequestContextPayload where
  id : String
  method : String
  path : String
  ip : String
  userAgent : String
deriving DecidableEq, Repr

/-- A map of strings, listed in the order it is walked. -/
abbrev StringMap := { entries : List (String × String) // (entries.map Prod.fst).Nodup }

structure AuditEventPayload where
  occurredAt : String
  schemaVersion : Int
  sourceService : String
  organizationId : String
  environment : String
  actor : ActorPayload
  action : String
  target : TargetPayload
  outcome : String
  request : RequestContextPayload
  correlationId : String
  reason : Option String
  metadata : StringMap
deriving DecidableEq, Repr

def validationFailed (message : String) : ApiError := ⟨400, message⟩

def unauthorized (message : String) : ApiError := ⟨401, message⟩

def parseActorType (value : String) : Except ApiError ActorType :=
  match trim value with
  | "user" => .ok .user
  | "api_key" => .ok .apiKey
  | "internal_service" => .ok .internalService
  | "anonymous" => .ok .anonymous
  | _ => .error (validationFailed
      "actor.type must be one of: user, api_key, internal_service, anonymous")

def parseOutcome (value : String) : Except ApiError Outcome :=
  match trim value with
  | "success" => .ok .success
  | "client_error" => .ok .clientError
  | "server_error" => .ok .serverError
  | _ => .error (validationFailed "outcome must be one of: success, client_error, server_error")

def normalizeEnvironment (value : Option String) : Except ApiError String :=
  match value.map (fun s => toLowercase (trim s)) with
  | some "sandbox" => .ok "sandbox"
  | some "production" => .ok "production"
  | _ => .error (validationFailed "environment must be 'sandbox' or 'production'")

def AuditEventPayload.intoProto (payload : AuditEventPayload) : Except ApiError AuditEvent :=
  match parseActorType payload.actor.actorType with
  | .error e => .error e
  | .ok actorType =>
  match parseOutcome payload.outcome with
  | .error e => .error e
  | .ok outcome =>
    .ok {
      occurredAt := payload.occurredAt
      schemaVersion := payload.schemaVersion
      sourceService := payload.sourceService
      organizationId := payload.organizationId
      environment := payload.environment
      actor := some ⟨actorType.toI32, payload.actor.id, payload.actor.roles⟩
      action := payload.action
      target := some ⟨payload.target.targetType, payload.target.id⟩
      outcome := outcome.toI32
      request := some ⟨payload.request.id, payload.request.method, payload.request.path,
        payload.request.ip, payload.request.userAgent⟩
      correlationId := payload.correlationId
      reason := payload.reason
      metadata := payload.metadata.val }

/-- The internal token of a request against the one that is configured. -/
def checkInternalToken (state : AppState) (notConfigured internalToken : String) :
    Except ApiError Unit :=
  match state.internalToken with
  | none => .error (unauthorized notConfigured)
  | some expected =>
    if internalToken ≠ expected then .error (unauthorized "Invalid internal service token")
    else .ok ()

/-- The environment of an event against that of its header, if there is one. -/
def checkEnvironmentHeader (headers : AuditHeaders) (payload : AuditEventPayload) :
    Except ApiError Unit :=
  match headerText headers.environment with
  | none => .ok ()
  | some value =>
    match normalizeEnvironment (some value) with
    | .error e => .error e
    | .ok environment =>
      if toLowercase (trim payload.environment) ≠ environment then
        .error (validationFailed "event.environment must match X-Environment")
      else .ok ()

def appendAuditEvent (lib : StoreLibraries) (state : AppState) (input : AppendInput)
    (rows : List AuditColumns) (headers : AuditHeaders) (payload : AuditEventPayload) :
    Except ApiError (List AuditColumns × Uuid) :=
  match headerText headers.internalServiceToken with
  | none => .error (unauthorized "X-Internal-Service-Token header is required")
  | some internalToken => do
    checkInternalToken state "Internal audit append is not configured" internalToken
    checkEnvironmentHeader headers payload
    if (lib.parseUuid (trim payload.organizationId)).isNone then
      .error (validationFailed "organization_id must be a UUID")
    else do
      let event ← payload.intoProto
      match validateAuditEvent lib.toLibraries input.now event with
      | .error message => .error (validationFailed message)
      | .ok () =>
        match eventToInsert lib.toLibraries event with
        | .error message => .error (validationFailed message)
        | .ok row =>
          match insertAuditEvent lib.precision rows input.id input.createdAt row with
          | none => .error ⟨500, "Failed to append audit event"⟩
          | some rows => .ok (rows, input.id)

structure ListAuditEventsQuery where
  organizationId : Option String
  environment : Option String
  action : Option String
  targetType : Option String
  targetId : Option String
  outcome : Option String
  from_ : Option String
  to_ : Option String
  page : Option UInt32
  perPage : Option UInt32
deriving DecidableEq, Repr

def parseUuid (lib : Libraries) (value : String) : Except ApiError Uuid :=
  match lib.parseUuid (trim value) with
  | none => .error (validationFailed "organization_id must be a UUID")
  | some org => .ok org

def parseRfc3339 (lib : Libraries) (value : String) : Except ApiError Int :=
  match lib.parseRfc3339 (trim value) with
  | none => .error (validationFailed "from and to must be RFC3339 timestamps")
  | some t => .ok t

def mapUsersGrpcError : Code × String → ApiError
  | (.unauthenticated, message) | (.invalidArgument, message) => unauthorized message
  | (.permissionDenied, message) => ⟨403, message⟩
  | (.other, _) => ⟨500, "Failed to validate API key"⟩

/-- A check of a value that is there. -/
def transpose {α : Type} : Option (Except ApiError α) → Except ApiError (Option α)
  | none => .ok none
  | some (.ok a) => .ok (some a)
  | some (.error e) => .error e

def resolveListScope (lib : Libraries) (state : AppState) (headers : AuditHeaders)
    (query : ListAuditEventsQuery) : Except ApiError (Uuid × String) :=
  match headerText headers.internalServiceToken with
  | some internalToken => do
    checkInternalToken state "Internal audit reads are not configured" internalToken
    let organizationId ← match query.organizationId with
      | none => .error (validationFailed "organization_id query parameter is required")
      | some value => parseUuid lib value
    let environment ← normalizeEnvironment query.environment
    .ok (organizationId, environment)
  | none => do
    let named ← transpose (query.environment.map (fun s => normalizeEnvironment (some s)))
    let named ← transpose ((named.or (headerText headers.environment)).map
      (fun s => normalizeEnvironment (some s)))
    let environment := named.getD "sandbox"
    match headerText headers.apiKey with
    | none => .error (unauthorized "X-API-Key header is required")
    | some apiKey =>
      match state.validateApiKey apiKey environment with
      | .error e => .error (mapUsersGrpcError e)
      | .ok (businessId, _, _) => .ok (businessId, environment)

def optionalTrimmed (value : Option String) : Option String :=
  (value.map trim).filter (fun s => s ≠ "")

def validateOutcomeFilter (value : String) : Except ApiError String :=
  if value ∈ ["success", "client_error", "server_error"] then .ok value
  else .error (validationFailed "outcome must be one of: success, client_error, server_error")

def buildListFilters (lib : Libraries) (organizationId : Uuid) (environment : String)
    (query : ListAuditEventsQuery) : Except ApiError AuditListFilters := do
  let outcome ← transpose ((optionalTrimmed query.outcome).map validateOutcomeFilter)
  let from_ ← transpose (query.from_.map (parseRfc3339 lib))
  let to_ ← transpose (query.to_.map (parseRfc3339 lib))
  .ok {
    organizationId
    environment
    action := optionalTrimmed query.action
    targetType := optionalTrimmed query.targetType
    targetId := optionalTrimmed query.targetId
    outcome
    from_
    to_
    page := pageOfQuery query.page
    perPage := perPageOfQuery 25 query.perPage }

structure AuditEventResponse where
  id : String
  occurredAt : String
  schemaVersion : Int
  sourceService : String
  organizationId : String
  environment : String
  actor : ActorPayload
  action : String
  target : TargetPayload
  outcome : String
  request : RequestContextPayload
  correlationId : String
  reason : Option String
  metadata : Metadata
  createdAt : String
deriving DecidableEq, Repr

def AuditEventResponse.fromRow (lib : StoreLibraries) (row : AuditEventRow) : AuditEventResponse where
  id := row.id.toString
  occurredAt := lib.showInstant row.occurredAt
  schemaVersion := row.schemaVersion
  sourceService := row.sourceService
  organizationId := row.organizationId.toString
  environment := row.environment
  actor := ⟨row.actorType, row.actorId, row.actorRoles⟩
  action := row.action
  target := ⟨row.targetType, row.targetId⟩
  outcome := row.outcome
  request := ⟨row.requestId, row.requestMethod, row.requestPath, row.requestIp, row.requestUserAgent⟩
  correlationId := row.correlationId
  reason := row.reason
  metadata := row.metadata
  createdAt := lib.showInstant row.createdAt

def listAuditEventsRoute (lib : StoreLibraries) (state : AppState) (rows : List AuditColumns)
    (headers : AuditHeaders) (query : ListAuditEventsQuery) :
    Except ApiError (List AuditEventResponse × PaginationMeta) := do
  let (organizationId, environment) ← resolveListScope lib.toLibraries state headers query
  let filters ← buildListFilters lib.toLibraries organizationId environment query
  let (rows, pagination) := listAuditEvents rows filters
  .ok (rows.map (AuditEventResponse.fromRow lib), pagination)

end RailsCore.Audit
