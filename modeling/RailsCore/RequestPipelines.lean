import Mathlib
import RailsCore.AuditAcceptance
import RailsCore.ClientKeys
import RailsCore.RateLimiter

/-!
# What stands between a request and its handler

The routers of the users, the accounts and the audit service wrap their handlers
in layers: one that admits only known callers to two routes, one that gives the
request a correlation id and errors a common body, and one that limits the rate
of some routes. The handlers are arbitrary here. The only state is the limiter's.
-/

namespace RailsCore.Pipelines
open UsersService (HeaderValue headerText headerOf trim)

/-- The values of JSON that the layers read and write. -/
inductive Value where
  | string (s : String)
  | number (n : Nat)
  | object (fields : List (String × Value))
  | other

/-- `Value::get`. -/
def Value.get (key : String) : Value → Option Value
  | .object fields => (Table.find Prod.fst key fields).map Prod.snd
  | _ => none

/-- `Value::as_str`. -/
def Value.asStr : Value → Option String
  | .string s => some s
  | _ => none

/-- A body: printed from JSON, or any other bytes. -/
inductive Body where
  | json (v : Value)
  | raw (bytes : List UInt8)

/-- Parsing and printing of JSON, and the standard texts of status codes, none of which is blank. -/
structure Library where
  fromSlice : List UInt8 → Option Value
  printedLength : Value → Nat
  canonicalReason : Nat → Option String
  reasons : ∀ status reason, canonicalReason status = some reason → trim reason ≠ ""

def Body.parse (lib : Library) : Body → Option Value
  | .json v => some v
  | .raw bytes => lib.fromSlice bytes

def Body.length (lib : Library) : Body → Nat
  | .json v => lib.printedLength v
  | .raw bytes => bytes.length

/-- What the layers read of a request. -/
structure Request where
  path : String
  correlationId : Option HeaderValue
  internalServiceToken : Option HeaderValue
  client : ClientKeys.Request
deriving DecidableEq, Repr

structure Response where
  status : Nat
  correlationId : Option HeaderValue
  contentType : Option String
  body : Body

/-- An error of a service, as the status and the text it is shown with. -/
structure ErrorReply where
  status : Nat
  message : String
deriving DecidableEq, Repr

/-- The random and the clock that answering draws on. -/
structure Draws where
  correlationId : Uuid
  errorId : Uuid
  timestamp : String
  errorTimestamp : String

def errorBody (status : Nat) (message correlationId timestamp : String) : Value :=
  .object [("status", .number status), ("message", .string message),
    ("correlationId", .string correlationId), ("timestamp", .string timestamp)]

/-- `AppError::into_response`. -/
def ErrorReply.intoResponse (draws : Draws) (e : ErrorReply) : Response where
  status := e.status
  correlationId := none
  contentType := some "application/json"
  body := .json (errorBody e.status e.message draws.errorId.toString draws.errorTimestamp)

def errorMessageFromBody (lib : Library) (body : Body) (status : Nat) : String :=
  let found := (body.parse lib).bind fun body =>
    ((body.get "message").or (body.get "error")).bind Value.asStr
  (found.filter fun message => trim message ≠ "").getD ((lib.canonicalReason status).getD "error")

/-- The length that `to_bytes` reads. -/
def maxErrorBytes : Nat := 1024 * 1024

/-- A service: the callers it admits, the routes it limits, what becomes of an error whose body is
too long, and whether it writes the id over the one that it was given. -/
structure Service where
  admits : Request → Bool
  unrecognizedSource : ErrorReply
  limited : String → Bool
  clientKey : ClientKeys.Request → String
  config : RateLimiter.RateLimitConfig
  tooManyRequests : ErrorReply
  unreadable : Option ErrorReply
  overwrites : Bool

/-- `standardize_error_response`. An error ends the layer around it. -/
def standardizeErrorResponse (lib : Library) (unreadable : Option ErrorReply) (draws : Draws)
    (res : Response) (correlationId : String) : Except ErrorReply Response :=
  if res.status < 400 then .ok res
  else
    let standard (message : String) : Response :=
      { res with
        contentType := some "application/json"
        body := .json (errorBody res.status message correlationId draws.timestamp) }
    if res.body.length lib ≤ maxErrorBytes then
      .ok (standard (errorMessageFromBody lib res.body res.status))
    else match unreadable with
      | some e => .error e
      | none => .ok (standard ((lib.canonicalReason res.status).getD "error"))

/-- `HeaderValue::from_str`. -/
def parseHeader (s : String) : Option HeaderValue :=
  if (headerOf s).all (fun b => 32 ≤ b && b ≠ 127 || b = 9) then some (headerOf s) else none

theorem parseHeader_visible {s : String} (visible : UsersService.IsVisible s) :
    parseHeader s = some (headerOf s) := by
  have shown := UsersService.toStr_headerOf s
  rw [if_pos visible, HeaderValue.toStr] at shown
  split_ifs at shown with all
  refine if_pos (List.all_eq_true.mpr fun b inside => ?_)
  have plain := List.all_eq_true.mp all b inside
  simp only [UsersService.isVisibleAscii, Bool.or_eq_true, Bool.and_eq_true, decide_eq_true_eq,
    UInt8.le_iff_toNat_le, UInt8.lt_iff_toNat_lt, ne_eq, ← UInt8.toNat_inj,
    UInt8.reduceToNat] at plain ⊢
  omega

/-- What is left of a visible header is visible. -/
theorem isVisible_headerText {value : Option HeaderValue} {s : String}
    (given : headerText value = some s) : UsersService.IsVisible s := by
  obtain ⟨text, -⟩ := Option.filter_eq_some_iff.mp given
  obtain ⟨whole, read, rfl⟩ := Option.map_eq_some_iff.mp text
  obtain ⟨bytes, -, shown⟩ := Option.bind_eq_some_iff.mp read
  rw [HeaderValue.toStr] at shown
  split_ifs at shown with all
  obtain rfl := Option.some.inj shown
  intro c inside
  rw [UsersService.toList_trim] at inside
  have listed := (List.dropWhile_suffix _).subset ((List.rdropWhile_prefix _ _).subset inside)
  rw [String.toList_ofList] at listed
  obtain ⟨b, found, rfl⟩ := List.mem_map.mp listed
  have plain := List.all_eq_true.mp all b found
  have ascii : ∀ n < 128, (Char.ofNat n).toNat = n := by decide
  simp only [UsersService.isVisibleAscii, Bool.or_eq_true, Bool.and_eq_true, decide_eq_true_eq,
    UInt8.le_iff_toNat_le, UInt8.lt_iff_toNat_lt, ← UInt8.toNat_inj, UInt8.reduceToNat] at plain
  rw [ascii b.toNat (by omega)]
  exact plain

theorem isVisible_uuid (u : Uuid) : UsersService.IsVisible u.toString := by
  have digit : ∀ m : BitVec 4, 32 ≤ (Uuid.hexDigit m).toNat ∧ (Uuid.hexDigit m).toNat < 127 := by
    decide
  have digits : ∀ start len, ∀ c ∈ u.digits start len, 32 ≤ c.toNat ∧ c.toNat < 127 := by
    intro start len c inside
    obtain ⟨i, -, rfl⟩ := List.mem_map.mp inside
    exact digit _
  intro c inside
  left
  rw [Uuid.toString, String.toList_ofList] at inside
  simp only [List.append_assoc, List.mem_append, List.cons_append, List.mem_cons] at inside
  rcases inside with h | rfl | h | rfl | h | rfl | h | rfl | h
  all_goals first | exact digits _ _ c h | decide

/-- An id that can be set as a header. -/
structure CorrelationId where
  text : String
  value : HeaderValue
  settable : parseHeader text = some value

/-- The id that a request brings, or a new one: the parsing into a header cannot fail. -/
def correlationId (given : Option HeaderValue) (generated : Uuid) : CorrelationId :=
  match brought : headerText given with
  | some text => ⟨text, headerOf text, parseHeader_visible (isVisible_headerText brought)⟩
  | none =>
    ⟨generated.toString, headerOf generated.toString,
      parseHeader_visible (isVisible_uuid generated)⟩

/-- A request, with what its handler answers, whatever it is given. -/
structure Event where
  request : Request
  now : Nat
  draws : Draws
  handler : Request → Response

/-- The response, and the request that the handler was given if it was reached. -/
structure Served where
  response : Response
  seen : Option Request

namespace Service
variable (service : Service)

/-- The routes, the limited ones behind `auth_rate_limit_middleware` or
`money_rate_limit_middleware`. -/
def route (store : RateLimiter.Store) (e : Event) (req : Request) : RateLimiter.Store × Served :=
  if service.limited req.path then
    let (store, allowed) :=
      RateLimiter.allow service.config store e.now (service.clientKey req.client)
    if allowed then (store, ⟨e.handler req, some req⟩)
    else (store, ⟨service.tooManyRequests.intoResponse e.draws, none⟩)
  else (store, ⟨e.handler req, some req⟩)

/-- `correlation_id_middleware`. -/
def correlationIdMiddleware (lib : Library) (store : RateLimiter.Store) (e : Event) :
    RateLimiter.Store × Served :=
  if "/api/".toList.isPrefixOf e.request.path.toList then
    let id := correlationId e.request.correlationId e.draws.correlationId
    let req :=
      if headerText e.request.correlationId = none ∨ service.overwrites then
        { e.request with correlationId := some id.value }
      else e.request
    let (store, served) := service.route store e req
    match standardizeErrorResponse lib service.unreadable e.draws served.response id.text with
    | .error reply => (store, ⟨reply.intoResponse e.draws, served.seen⟩)
    | .ok res => (store, ⟨{ res with correlationId := some id.value }, served.seen⟩)
  else service.route store e e.request

/-- `internal_caller_middleware`, the outermost layer. -/
def serve (lib : Library) (store : RateLimiter.Store) (e : Event) : RateLimiter.Store × Served :=
  if service.admits e.request then service.correlationIdMiddleware lib store e
  else (store, ⟨service.unrecognizedSource.intoResponse e.draws, none⟩)

/-- Requests in the order in which they take the limiter's lock. -/
def run (lib : Library) (store : RateLimiter.Store) : List Event → List (Event × Served)
  | [] => []
  | e :: es => (e, (service.serve lib store e).2) :: run lib (service.serve lib store e).1 es

end Service

namespace Users

def reply (e : UsersService.AppError) : ErrorReply := ⟨e.statusCode, e.display⟩

def isSensitive (path : String) : Bool :=
  path = "/api/v1/auth/login" || path = "/api/v1/business/register"

/-- The test of `internal_caller_middleware`, of the value of `INTERNAL_SERVICE_TOKEN_ALLOWLIST`. -/
def admits (allowlist : Option String) (req : Request) : Bool :=
  !isSensitive req.path || trim (allowlist.getD "") = "" ||
    let provided := trim ((req.internalServiceToken.bind HeaderValue.toStr).getD "")
    provided ≠ "" && (ClientKeys.tokens (allowlist.getD "")).contains provided

def limitedPaths : List String :=
  ["/api/v1/auth/login", "/api/v1/auth/password-reset/request",
    "/api/v1/auth/password-reset/reset", "/api/v1/beta/apply"]

def service (allowlist trustedProxies : Option String) (config : RateLimiter.RateLimitConfig) :
    Service where
  admits := admits allowlist
  unrecognizedSource := reply .unrecognizedSource
  limited path := limitedPaths.contains path
  clientKey client := ClientKeys.Users.extractClientKey client trustedProxies
  config := config
  tooManyRequests := reply .tooManyRequests
  unreadable := some (reply .internal)
  overwrites := false

end Users

namespace Accounts

def reply (e : AppError) : ErrorReply := ⟨e.statusCode, e.display⟩

/-- The routes `/accounts/:id/deposit`, `/accounts/:id/withdraw` and `/accounts/:id/transfer`. -/
def isMoneyMutation (path : String) : Bool :=
  match path.toList.splitOn '/' with
  | [first, api, v1, accounts, id, operation] =>
    first = [] && api = "api".toList && v1 = "v1".toList && accounts = "accounts".toList &&
      id ≠ [] && ["deposit".toList, "withdraw".toList, "transfer".toList].contains operation
  | _ => false

def service (trustedProxies : Option String) (config : RateLimiter.RateLimitConfig) : Service where
  admits _ := true
  unrecognizedSource := reply (.internal "")
  limited := isMoneyMutation
  clientKey client := ClientKeys.Accounts.extractClientKey client trustedProxies
  config := config
  tooManyRequests := reply .tooManyRequests
  unreadable := some (reply (.internal "Failed to read error response body"))
  overwrites := false

end Accounts

/-- The audit service admits everyone and limits nothing. -/
def AuditRoutes.service : Service where
  admits _ := true
  unrecognizedSource := ⟨403, ""⟩
  limited _ := false
  clientKey _ := ""
  config := ⟨0, 0⟩
  tooManyRequests := ⟨429, ""⟩
  unreadable := none
  overwrites := true

/-! ## The id -/

theorem correlationId_text (given : Option HeaderValue) (generated : Uuid) :
    (correlationId given generated).text = (headerText given).getD generated.toString := by
  rw [correlationId]
  split
  · rename_i text brought
    exact (congrArg (fun given => given.getD generated.toString) brought).symm
  · rename_i absent
    exact (congrArg (fun given => given.getD generated.toString) absent).symm

theorem correlationId_value (given : Option HeaderValue) (generated : Uuid) :
    (correlationId given generated).value = headerOf (correlationId given generated).text := by
  rw [correlationId]
  split <;> rfl

/-- The id is read back from the header that it is set as. -/
theorem headerText_value (given : Option HeaderValue) (generated : Uuid) :
    headerText (some (correlationId given generated).value) =
      some (correlationId given generated).text := by
  rw [correlationId_value, UsersService.headerText_headerOf, correlationId_text]
  cases brought : headerText given with
  | none =>
    rw [Option.getD_none, if_pos ⟨isVisible_uuid generated, Audit.uuid_ne_blank generated⟩,
      Audit.trim_uuid]
  | some text =>
    obtain ⟨trimmed, some_⟩ := Option.filter_eq_some_iff.mp brought
    obtain ⟨whole, -, same⟩ := Option.map_eq_some_iff.mp trimmed
    have once : trim text = text := by rw [← same, UsersService.trim_trim]
    have left : trim text ≠ "" := by simpa [once] using some_
    rw [Option.getD_some, if_pos ⟨isVisible_headerText brought, left⟩, once]

namespace Service
variable {lib : Library} {service : Service}

/-- What the handler of an admitted request is given. -/
def given (service : Service) (e : Event) : Request :=
  if "/api/".toList.isPrefixOf e.request.path.toList then
    if headerText e.request.correlationId = none ∨ service.overwrites then
      { e.request with
        correlationId := some (correlationId e.request.correlationId e.draws.correlationId).value }
    else e.request
  else e.request

/-- The handler reads the id of the response, whichever way it was given. -/
theorem headerText_given {e : Event}
    (api : "/api/".toList.isPrefixOf e.request.path.toList = true) :
    headerText (service.given e).correlationId =
      some (correlationId e.request.correlationId e.draws.correlationId).text := by
  rw [given, if_pos api]
  split_ifs with set_
  · exact headerText_value _ _
  · push Not at set_
    obtain ⟨text, brought⟩ := Option.ne_none_iff_exists'.mp set_.1
    rw [correlationId_text, brought, Option.getD_some]

/-- Every admitted request goes through the limiter, if it is limited, to the handler. -/
theorem serve_route (service : Service) (lib : Library) (store : RateLimiter.Store) {e : Event}
    (admitted : service.admits e.request = true) :
    (service.serve lib store e).1 = (service.route store e (service.given e)).1 ∧
    (service.serve lib store e).2.seen =
      (service.route store e (service.given e)).2.seen := by
  rw [serve, if_pos admitted, correlationIdMiddleware, given]
  split
  · simp only
    split <;> exact ⟨rfl, rfl⟩
  · exact ⟨rfl, rfl⟩

/-- A request that the limiter is asked about. -/
def counted (service : Service) (e : Event) : Bool :=
  service.admits e.request && service.limited e.request.path

def key (service : Service) (e : Event) : String := service.clientKey e.request.client

/-- The calls of the limiter. -/
def calls (service : Service) (events : List Event) : List RateLimiter.Call :=
  (events.filter service.counted).map fun e => ⟨e.now, service.key e⟩

/-- The requests of a client that reach the handlers of limited routes in an interval as long
as a window. -/
def reached (service : Service) (client : String) (t : Nat) (p : Event × Served) : Bool :=
  service.counted p.1 && (service.key p.1 = client && p.2.seen.isSome && t ≤ p.1.now &&
    p.1.now ≤ t + service.config.window)

theorem run_served {store : RateLimiter.Store} {events : List Event} {p : Event × Served}
    (listed : p ∈ service.run lib store events) :
    ∃ store', p.2 = (service.serve lib store' p.1).2 := by
  induction events generalizing store with
  | nil => cases listed
  | cons e es ih =>
    rcases List.mem_cons.mp listed with rfl | later
    · exact ⟨store, rfl⟩
    · exact ih later

/-- The limiter lets a request through to the handler, or answers itself. -/
theorem route_cases (store : RateLimiter.Store) (e : Event) (req : Request) :
    (service.route store e req).2 = ⟨e.handler req, some req⟩ ∨
    (service.route store e req).2 =
      ⟨service.tooManyRequests.intoResponse e.draws, none⟩ := by
  rw [route]
  split
  · simp only
    split
    · exact .inl rfl
    · exact .inr rfl
  · exact .inl rfl

end Service

/-! ## The common body of errors -/

/-- An error that says which request it answers. -/
structure Enveloped (res : Response) (id message : String) : Prop where
  header : res.correlationId = some (headerOf id)
  contentType : res.contentType = some "application/json"
  visible : trim message ≠ ""
  body : ∃ timestamp, res.body = .json (errorBody res.status message id timestamp)

variable {lib : Library}

theorem canonicalReason_ne_blank (lib : Library) (status : Nat) :
    trim ((lib.canonicalReason status).getD "error") ≠ "" := by
  cases reason : lib.canonicalReason status with
  | some text => exact lib.reasons status text reason
  | none =>
    rw [Option.getD_none]
    decide

theorem errorMessageFromBody_ne_blank (body : Body) (status : Nat) :
    trim (errorMessageFromBody lib body status) ≠ "" := by
  rw [errorMessageFromBody]
  cases found : ((body.parse lib).bind fun body =>
      ((body.get "message").or (body.get "error")).bind Value.asStr).filter
        fun message => trim message ≠ "" with
  | some message =>
    have some_ := (Option.filter_eq_some_iff.mp found).2
    rw [Option.getD_some]
    simpa using some_
  | none =>
    rw [Option.getD_none]
    exact canonicalReason_ne_blank lib status

/-- A message that a handler gives its error is the message that is shown. -/
theorem errorMessageFromBody_given {body : Body} {v : Value} {message : String}
    (read : body.parse lib = some v) (given : v.get "message" = some (.string message))
    (some_ : trim message ≠ "") (status : Nat) :
    errorMessageFromBody lib body status = message := by
  simp [errorMessageFromBody, read, given, Value.asStr, Option.filter, some_]

/-- What becomes of the answer that the layer of ids is given. -/
theorem serve_answer (lib : Library) (service : Service) (store : RateLimiter.Store) {e : Event}
    (admitted : service.admits e.request = true)
    (api : "/api/".toList.isPrefixOf e.request.path.toList = true) :
    ∃ inner, (service.route store e (service.given e)).2.response = inner ∧
      match standardizeErrorResponse lib service.unreadable e.draws inner
          (correlationId e.request.correlationId e.draws.correlationId).text with
      | .error reply => (service.serve lib store e).2.response = reply.intoResponse e.draws
      | .ok res => (service.serve lib store e).2.response = { res with
          correlationId :=
            some (correlationId e.request.correlationId e.draws.correlationId).value } := by
  refine ⟨_, rfl, ?_⟩
  rw [Service.serve, if_pos admitted, Service.correlationIdMiddleware, if_pos api, Service.given,
    if_pos api]
  simp only
  split <;> simp_all

def plainLibrary : Library where
  fromSlice _ := none
  printedLength _ := 200
  canonicalReason _ := none
  reasons := by
    intro status reason absent
    cases absent

/-- A login with this token. -/
def loginAt (now : Nat) (token : String) : Event where
  request :=
    ⟨"/api/v1/auth/login", none, some (headerOf token), ⟨none, none, some (headerOf "10.0.0.7")⟩⟩
  now := now
  draws := ⟨⟨1⟩, ⟨2⟩, "", ""⟩
  handler _ := ⟨200, none, none, .raw []⟩

/-- An admitted request under `/api/` has an id: the one that it brings, or a new one. The handler
reads this id, and so does its audit event. An answer below 400 carries it. An error whose body is
at most a mebibyte long carries it too and gets the common body with the id, its status and a
message, the handler's own if it gives one. A longer one keeps its status and gets the standard
text, where the service has no answer of its own for it; where it has one, that is the answer, and
it does not carry the id. -/
theorem responses_carry_their_id (lib : Library) (service : Service) (store : RateLimiter.Store)
    (events : List Event) :
    ∀ p ∈ service.run lib store events, service.admits p.1.request = true →
      "/api/".toList.isPrefixOf p.1.request.path.toList = true →
      ∃ id inner,
        id = (headerText p.1.request.correlationId).getD p.1.draws.correlationId.toString ∧
        ((p.2.seen = none ∧ inner = service.tooManyRequests.intoResponse p.1.draws) ∨
          ∃ req, p.2.seen = some req ∧ inner = p.1.handler req ∧
            ∀ headers : Audit.Headers, headers.correlationId = req.correlationId →
              ∀ generated, Audit.correlationFromHeaders headers generated = id) ∧
        (inner.status < 400 → p.2.response = { inner with correlationId := some (headerOf id) }) ∧
        (400 ≤ inner.status → inner.body.length lib ≤ maxErrorBytes →
          p.2.response.status = inner.status ∧
          ∃ message, Enveloped p.2.response id message ∧
            ∀ v said, inner.body.parse lib = some v → v.get "message" = some (.string said) →
              trim said ≠ "" → message = said) ∧
        (400 ≤ inner.status → maxErrorBytes < inner.body.length lib →
          (service.unreadable = none ∧ p.2.response.status = inner.status ∧
            Enveloped p.2.response id ((lib.canonicalReason inner.status).getD "error")) ∨
          ∃ reply, service.unreadable = some reply ∧
            p.2.response = reply.intoResponse p.1.draws ∧ p.2.response.correlationId = none) := by
  intro p listed admitted api
  obtain ⟨store', served⟩ := Service.run_served listed
  obtain ⟨inner, isInner, answer⟩ := serve_answer lib service store' admitted api
  obtain ⟨-, seen⟩ := service.serve_route lib store' admitted
  have value := correlationId_value p.1.request.correlationId p.1.draws.correlationId
  have read := service.headerText_given api
  generalize known : correlationId p.1.request.correlationId p.1.draws.correlationId = id at *
  rw [served]
  refine ⟨id.text, inner, ?_, ?_, fun success => ?_, fun failed short => ?_,
    fun failed long => ?_⟩
  · rw [← known, correlationId_text]
  · rcases service.route_cases store' p.1 (service.given p.1) with handled | limited
    · refine .inr ⟨service.given p.1, ?_, ?_, fun headers same generated => ?_⟩
      · rw [seen, handled]
      · rw [← isInner, handled]
      · rw [Audit.correlationFromHeaders, same, read, Option.getD_some]
    · refine .inl ⟨?_, ?_⟩
      · rw [seen, limited]
      · rw [← isInner, limited]
  · rw [standardizeErrorResponse, if_pos success] at answer
    rw [answer, value]
  · rw [standardizeErrorResponse, if_neg (by omega), if_pos short] at answer
    rw [answer]
    refine ⟨rfl, errorMessageFromBody lib inner.body inner.status, ⟨?_, rfl, ?_, ?_⟩, ?_⟩
    · rw [← value]
    · exact errorMessageFromBody_ne_blank _ _
    · exact ⟨p.1.draws.timestamp, rfl⟩
    · exact fun v said parsed given some_ => errorMessageFromBody_given parsed given some_ _
  · rw [standardizeErrorResponse, if_neg (by omega), if_neg (by omega)] at answer
    cases unreadable : service.unreadable with
    | none =>
      rw [unreadable] at answer
      refine .inl ⟨rfl, ?_⟩
      rw [answer]
      refine ⟨rfl, ?_, rfl, canonicalReason_ne_blank lib inner.status, p.1.draws.timestamp, rfl⟩
      rw [← value]
    | some reply =>
      rw [unreadable] at answer
      exact .inr ⟨reply, rfl, answer, congrArg Response.correlationId answer⟩

/-- The second of two logins comes too early, and the error says which request it answers. -/
theorem responses_carry_their_id_limited :
    ∃ p ∈ (Users.service none none ⟨40, 1⟩).run plainLibrary [] [loginAt 0 "t", loginAt 10 "t"],
      p.2.seen = none ∧ Enveloped p.2.response (Uuid.toString ⟨1⟩) "Too many requests" := by
  have all : ((Users.service none none ⟨40, 1⟩).run plainLibrary []
      [loginAt 0 "t", loginAt 10 "t"]).all (fun p =>
        (Users.service none none ⟨40, 1⟩).admits p.1.request &&
        "/api/".toList.isPrefixOf p.1.request.path.toList &&
        headerText p.1.request.correlationId = none && p.1.draws.correlationId = ⟨1⟩) = true := by
    decide +kernel
  have any : ((Users.service none none ⟨40, 1⟩).run plainLibrary []
      [loginAt 0 "t", loginAt 10 "t"]).any (fun p => p.2.seen = none) = true := by decide +kernel
  obtain ⟨p, listed, refused⟩ := List.any_eq_true.mp any
  have unseen : p.2.seen = none := of_decide_eq_true refused
  obtain ⟨known, drawn⟩ := Bool.and_eq_true_iff.mp (List.all_eq_true.mp all p listed)
  obtain ⟨known, absent⟩ := Bool.and_eq_true_iff.mp known
  obtain ⟨admitted, api⟩ := Bool.and_eq_true_iff.mp known
  obtain ⟨id, inner, same, answer, -, failed, -⟩ := responses_carry_their_id plainLibrary
    (Users.service none none ⟨40, 1⟩) [] [loginAt 0 "t", loginAt 10 "t"] p listed admitted api
  rw [of_decide_eq_true absent, of_decide_eq_true drawn, Option.getD_none] at same
  rcases answer with ⟨-, rfl⟩ | ⟨req, seen, -⟩
  · have short : plainLibrary.printedLength (errorBody 429 "Too many requests"
        p.1.draws.errorId.toString p.1.draws.errorTimestamp) ≤ maxErrorBytes := by
      show 200 ≤ 1024 * 1024
      omega
    have failure : 400 ≤ 429 := by omega
    obtain ⟨-, message, body, kept⟩ := failed failure short
    have said : message = "Too many requests" := kept _ _ rfl rfl (by decide)
    rw [same, said] at body
    exact ⟨p, listed, unseen, body⟩
  · rw [unseen] at seen
    cases seen

end RailsCore.Pipelines
