import RailsCore.UsersService

/-!
# Audit events and their validation

The message of the audit service and `validate_audit_event`, check by check.
Every refusal is an `invalid_argument` status and is kept as its text. The
uuid and the timestamp parsers are library code and stay parameters. Which
producers meet these checks is the subject of the modules after this one.
-/

namespace RailsCore.Audit

open UsersService (trim)

inductive ActorType where
  | unspecified
  | user
  | apiKey
  | internalService
  | anonymous
deriving DecidableEq, Repr

namespace ActorType

/-- The number of a variant on the wire. -/
def toI32 : ActorType → Int
  | .unspecified => 0
  | .user => 1
  | .apiKey => 2
  | .internalService => 3
  | .anonymous => 4

def tryFrom (n : Int) : Option ActorType :=
  [unspecified, user, apiKey, internalService, anonymous].find? (fun t => t.toI32 = n)

end ActorType

inductive Outcome where
  | unspecified
  | success
  | clientError
  | serverError
deriving DecidableEq, Repr

namespace Outcome

def toI32 : Outcome → Int
  | .unspecified => 0
  | .success => 1
  | .clientError => 2
  | .serverError => 3

def tryFrom (n : Int) : Option Outcome :=
  [unspecified, success, clientError, serverError].find? (fun o => o.toI32 = n)

end Outcome

structure Actor where
  type : Int
  id : String
  roles : List String
deriving DecidableEq, Repr

structure Target where
  type : String
  id : String
deriving DecidableEq, Repr

structure RequestContext where
  id : String
  method : String
  path : String
  ip : String
  userAgent : String
deriving DecidableEq, Repr

/-- The fields of the message; `metadata` is a map, listed in the order it is walked. -/
structure AuditEvent where
  occurredAt : String
  schemaVersion : Int
  sourceService : String
  organizationId : String
  environment : String
  actor : Option Actor
  action : String
  target : Option Target
  outcome : Int
  request : Option RequestContext
  correlationId : String
  reason : Option String
  metadata : List (String × String)
deriving DecidableEq, Repr

/-- `Uuid::parse_str`, `to_rfc3339` and `parse_from_rfc3339`, with instants as
nanoseconds from 1970 on. -/
structure Libraries where
  parseUuid : String → Option Uuid
  toRfc3339 : Nat → String
  parseRfc3339 : String → Option Int

/-- The first instant whose year has five digits. -/
def yearTenThousand : Nat := 253402300800 * 10 ^ 9

/-- What is printed is read back; an RFC 3339 year has four digits. -/
structure Libraries.Lawful (lib : Libraries) : Prop where
  uuid : ∀ u : Uuid, lib.parseUuid u.toString = some u
  instant : ∀ t : Nat,
    lib.parseRfc3339 (lib.toRfc3339 t) = if t < yearTenThousand then some (t : Int) else none

def ORG_ZERO_ALLOWED : List String := [
  "users.business.register",
  "users.auth.login",
  "users.password_reset.request",
  "users.password_reset.complete",
  "users.beta.apply"]

def ALL_ACTIONS : List String := [
  "users.business.register",
  "users.auth.login",
  "users.auth.refresh",
  "users.auth.revoke",
  "users.password_reset.request",
  "users.password_reset.complete",
  "users.beta.apply",
  "users.api_key.create",
  "users.api_key.revoke",
  "accounts.account.create",
  "accounts.account.update_status",
  "accounts.account.close",
  "accounts.money.deposit",
  "accounts.money.withdraw",
  "accounts.money.transfer",
  "ledger.transaction.post"]

def METADATA_KEYS_ALLOWED : List String := [
  "previous_status",
  "new_status",
  "http_status",
  "error_code",
  "idempotency_key_present"]

def NIL_UUID : String := "00000000-0000-0000-0000-000000000000"

def fiveMinutes : Nat := 5 * 60 * 10 ^ 9

def validateSchema (event : AuditEvent) : Except String Unit :=
  if event.schemaVersion ≠ 1 then .error "schema_version must be 1" else .ok ()

def validateOccurredAt (lib : Libraries) (now : Nat) (event : AuditEvent) : Except String Unit :=
  match lib.parseRfc3339 event.occurredAt with
  | none => .error "occurred_at must be RFC3339 UTC"
  | some occurredAt =>
    if occurredAt > now + fiveMinutes then .error "occurred_at cannot be far in the future"
    else .ok ()

def validateSourceService (event : AuditEvent) : Except String Unit :=
  if trim event.sourceService ∈ ["users", "accounts", "ledger"] then .ok ()
  else .error "source_service must be one of: users, accounts, ledger"

def validateOrgAndAction (lib : Libraries) (event : AuditEvent) : Except String Unit :=
  match lib.parseUuid (trim event.organizationId) with
  | none => .error "organization_id must be a UUID"
  | some org =>
    if trim event.action ∉ ALL_ACTIONS then .error "unknown action for v1 catalog"
    else if org.toString = NIL_UUID ∧ trim event.action ∉ ORG_ZERO_ALLOWED then
      .error "organization_id must not be all-zero for this action"
    else .ok ()

def validateEnvironmentAndCorrelation (event : AuditEvent) : Except String Unit :=
  if trim event.environment = "" then .error "environment is required"
  else if trim event.correlationId = "" then .error "correlation_id is required"
  else .ok ()

def validateOutcome (event : AuditEvent) : Except String Unit :=
  match Outcome.tryFrom event.outcome with
  | none => .error "invalid outcome enum value"
  | some .unspecified => .error "outcome must be set"
  | some _ => .ok ()

def validateActor (event : AuditEvent) : Except String Unit :=
  match event.actor with
  | none => .error "actor is required"
  | some actor =>
    match ActorType.tryFrom actor.type with
    | none => .error "invalid actor type"
    | some .unspecified => .error "actor.type must be set"
    | some _ => .ok ()

def validateTarget (event : AuditEvent) : Except String Unit :=
  match event.target with
  | none => .error "target is required"
  | some target =>
    if trim target.type = "" ∨ trim target.id = "" then
      .error "target.type and target.id are required"
    else .ok ()

def validateRequest (event : AuditEvent) : Except String Unit :=
  match event.request with
  | none => .error "request is required"
  | some req =>
    if trim req.method = "" ∨ trim req.path = "" then
      .error "request.method and request.path are required"
    else .ok ()

def validateReason (event : AuditEvent) : Except String Unit :=
  match event.reason with
  | none => .ok ()
  | some reason =>
    if (trim reason).toList.length > 500 then .error "reason exceeds 500 characters" else .ok ()

/-- The loop over the entries of the map. -/
def validateEntries : List (String × String) → Except String Unit
  | [] => .ok ()
  | (k, v) :: entries =>
    if k ∉ METADATA_KEYS_ALLOWED then .error "metadata key not allowlisted for v1"
    else if v.toList.length > 256 then .error "metadata value exceeds 256 characters"
    else validateEntries entries

def validateMetadata (event : AuditEvent) : Except String Unit :=
  if event.metadata.length > 16 then .error "metadata may have at most 16 entries"
  else validateEntries event.metadata

def validateAuditEvent (lib : Libraries) (now : Nat) (event : AuditEvent) : Except String Unit := do
  validateSchema event
  validateOccurredAt lib now event
  validateSourceService event
  validateOrgAndAction lib event
  validateEnvironmentAndCorrelation event
  validateOutcome event
  validateActor event
  validateTarget event
  validateRequest event
  validateReason event
  validateMetadata event

/-- What all checks together ask of an event. -/
structure Accepted (lib : Libraries) (now : Nat) (event : AuditEvent) : Prop where
  schemaVersion : event.schemaVersion = 1
  occurredAt : ∃ t, lib.parseRfc3339 event.occurredAt = some t ∧ t ≤ now + fiveMinutes
  sourceService : trim event.sourceService ∈ ["users", "accounts", "ledger"]
  organization : ∃ org, lib.parseUuid (trim event.organizationId) = some org ∧
    (org.toString = NIL_UUID → trim event.action ∈ ORG_ZERO_ALLOWED)
  action : trim event.action ∈ ALL_ACTIONS
  environment : trim event.environment ≠ ""
  correlation : trim event.correlationId ≠ ""
  outcome : ∃ o, Outcome.tryFrom event.outcome = some o ∧ o ≠ .unspecified
  actor : ∃ actor, event.actor = some actor ∧
    ∃ t, ActorType.tryFrom actor.type = some t ∧ t ≠ .unspecified
  target : ∃ target, event.target = some target ∧ trim target.type ≠ "" ∧ trim target.id ≠ ""
  request : ∃ req, event.request = some req ∧ trim req.method ≠ "" ∧ trim req.path ≠ ""
  reason : ∀ reason, event.reason = some reason → (trim reason).toList.length ≤ 500
  metadata : event.metadata.length ≤ 16
  entries : ∀ entry ∈ event.metadata,
    entry.1 ∈ METADATA_KEYS_ALLOWED ∧ entry.2.toList.length ≤ 256

theorem seq_ok {x y : Except String Unit} :
    (x >>= fun _ => y) = .ok () ↔ x = .ok () ∧ y = .ok () := by
  rw [UsersService.except_bind_ok]
  exact ⟨fun ⟨_, first, second⟩ => ⟨first, second⟩, fun ⟨first, second⟩ => ⟨(), first, second⟩⟩

theorem validateEntries_ok {entries : List (String × String)} : validateEntries entries = .ok () ↔
    ∀ entry ∈ entries, entry.1 ∈ METADATA_KEYS_ALLOWED ∧ entry.2.toList.length ≤ 256 := by
  induction entries with
  | nil => simp [validateEntries]
  | cons entry entries ih =>
    unfold validateEntries
    rw [List.forall_mem_cons, ← ih]
    split
    · simp [*]
    · split
      · rename_i long
        exact iff_of_false (nomatch ·) (fun both => by omega)
      · rename_i listed short
        exact ⟨fun rest => ⟨⟨not_not.mp listed, by omega⟩, rest⟩, And.right⟩

theorem guard_ok {c : Prop} [Decidable c] {message : String} {x : Except String Unit} :
    (if c then .error message else x) = .ok () ↔ ¬ c ∧ x = .ok () := by
  split <;> simp [*]

theorem validateOccurredAt_ok {lib : Libraries} {now : Nat} {event : AuditEvent} :
    validateOccurredAt lib now event = .ok () ↔
      ∃ t, lib.parseRfc3339 event.occurredAt = some t ∧ t ≤ now + fiveMinutes := by
  unfold validateOccurredAt
  split
  · simp [*]
  · simp [*]

theorem validateOrgAndAction_ok {lib : Libraries} {event : AuditEvent} :
    validateOrgAndAction lib event = .ok () ↔ trim event.action ∈ ALL_ACTIONS ∧
      ∃ org, lib.parseUuid (trim event.organizationId) = some org ∧
        (org.toString = NIL_UUID → trim event.action ∈ ORG_ZERO_ALLOWED) := by
  unfold validateOrgAndAction
  split
  · simp [*]
  · rw [guard_ok, guard_ok]
    simp [*]

theorem validateOutcome_ok {event : AuditEvent} : validateOutcome event = .ok () ↔
    ∃ o, Outcome.tryFrom event.outcome = some o ∧ o ≠ .unspecified := by
  unfold validateOutcome
  split <;> simp_all

theorem validateActor_ok {event : AuditEvent} : validateActor event = .ok () ↔
    ∃ actor, event.actor = some actor ∧
      ∃ t, ActorType.tryFrom actor.type = some t ∧ t ≠ .unspecified := by
  unfold validateActor
  split
  · simp [*]
  · split <;> simp_all

theorem validateTarget_ok {event : AuditEvent} : validateTarget event = .ok () ↔
    ∃ target, event.target = some target ∧ trim target.type ≠ "" ∧ trim target.id ≠ "" := by
  unfold validateTarget
  split <;> simp [*]

theorem validateRequest_ok {event : AuditEvent} : validateRequest event = .ok () ↔
    ∃ req, event.request = some req ∧ trim req.method ≠ "" ∧ trim req.path ≠ "" := by
  unfold validateRequest
  split <;> simp [*]

theorem validateReason_ok {event : AuditEvent} : validateReason event = .ok () ↔
    ∀ reason, event.reason = some reason → (trim reason).toList.length ≤ 500 := by
  unfold validateReason
  split <;> simp [*]

/-- The validator accepts exactly the events that meet every check. -/
theorem validateAuditEvent_ok {lib : Libraries} {now : Nat} {event : AuditEvent} :
    validateAuditEvent lib now event = .ok () ↔ Accepted lib now event := by
  simp only [validateAuditEvent, seq_ok, validateSchema, validateSourceService,
    validateEnvironmentAndCorrelation, validateMetadata, guard_ok, validateOccurredAt_ok,
    validateOrgAndAction_ok, validateOutcome_ok, validateActor_ok, validateTarget_ok,
    validateRequest_ok, validateReason_ok, validateEntries_ok, and_true, not_not, gt_iff_lt,
    Nat.not_lt]
  constructor
  · rintro ⟨schema, occurred, source, ⟨action, organization⟩, ⟨environment, correlation⟩, outcome,
      actor, target, request, reason, few, entries⟩
    refine ⟨schema, occurred, ?_, organization, action, environment, correlation, outcome, actor,
      target, request, reason, few, entries⟩
    by_contra unknown
    rw [if_neg unknown] at source
    exact nomatch source
  · intro accepted
    exact ⟨accepted.schemaVersion, accepted.occurredAt, if_pos accepted.sourceService,
      ⟨accepted.action, accepted.organization⟩, ⟨accepted.environment, accepted.correlation⟩,
      accepted.outcome, accepted.actor, accepted.target, accepted.request, accepted.reason,
      accepted.metadata, accepted.entries⟩

end RailsCore.Audit
