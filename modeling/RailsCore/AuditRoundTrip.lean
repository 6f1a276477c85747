import RailsCore.AuditListing

/-!
# The round trip of an audit event

From the JSON payload over the message, the insert with its binds and the row
back to a JSON response. Most strings come back without the space around them;
the address and the user agent of the request, the roles of the actor and a
reason that says something come back as they were sent.
-/

namespace RailsCore.Audit

open UsersService (trim)

theorem Outcome.tryFrom_toI32 (o : Outcome) : Outcome.tryFrom o.toI32 = some o := by
  cases o <;> decide

/-- The variant that a string names is stored under that string. -/
theorem parseActorType_str {value : String} {t : ActorType} (h : parseActorType value = .ok t) :
    t.str = trim value := by
  unfold parseActorType at h
  split at h <;> cases h <;> rename_i same <;> exact same.symm

theorem parseOutcome_str {value : String} {o : Outcome} (h : parseOutcome value = .ok o) :
    o.str = trim value := by
  unfold parseOutcome at h
  split at h <;> cases h <;> rename_i same <;> exact same.symm

theorem intoProto_ok {payload : AuditEventPayload} {event : AuditEvent}
    (h : payload.intoProto = .ok event) :
    ∃ (actorType : ActorType) (outcome : Outcome),
      actorType.str = trim payload.actor.actorType ∧
      outcome.str = trim payload.outcome ∧
      event = {
        occurredAt := payload.occurredAt
        schemaVersion := payload.schemaVersion
        sourceService := payload.sourceService
        organizationId := payload.organizationId
        environment := payload.environment
        actor := some ⟨actorType.toI32, payload.actor.id, payload.actor.roles⟩
        action := payload.action
        target := some ⟨payload.target.targetType, payload.target.id⟩
        outcome := outcome.toI32
        request := some ⟨payload.request.id, payload.request.method, payload.request.path,
          payload.request.ip, payload.request.userAgent⟩
        correlationId := payload.correlationId
        reason := payload.reason
        metadata := payload.metadata.val } := by
  unfold AuditEventPayload.intoProto at h
  split at h
  · exact nomatch h
  rename_i actorType knownType
  split at h
  · exact nomatch h
  rename_i outcome knownOutcome
  cases h
  exact ⟨actorType, outcome, parseActorType_str knownType, parseOutcome_str knownOutcome, rfl⟩

/-- A map with each key once is copied as it is. -/
theorem metaMap_eq {entries : List (String × String)} (unique : (entries.map Prod.fst).Nodup) :
    metaMap entries = entries := by
  have copied : ∀ (rest done : List (String × String)), ((done ++ rest).map Prod.fst).Nodup →
      rest.foldl (fun m entry => Metadata.insert m entry.1 entry.2) done = done ++ rest := by
    intro rest
    induction rest with
    | nil =>
      intro done _
      rw [List.foldl_nil, List.append_nil]
    | cons entry rest ih =>
      intro done unique
      have fresh : done.any (fun e => e.1 = entry.1) = false := by
        rw [List.map_append, List.map_cons, List.nodup_append] at unique
        rw [List.any_eq_false]
        intro e listed same
        exact unique.2.2 e.1 (List.mem_map_of_mem listed) entry.1 List.mem_cons_self
          (of_decide_eq_true same)
      have step : Metadata.insert done entry.1 entry.2 = done ++ [entry] := by
        rw [Metadata.insert, fresh]
        rfl
      rw [List.foldl_cons, step, ih (done ++ [entry]) (by rwa [List.append_assoc])]
      rw [List.append_assoc, List.singleton_append]
  exact copied entries [] unique

/-- The payload as it comes back: without the space around its strings, except in the address
and the user agent of the request, the roles of the actor and the reason. -/
def AuditEventPayload.normalized (p : AuditEventPayload) : AuditEventPayload :=
  { p with
    sourceService := trim p.sourceService
    environment := trim p.environment
    actor := { p.actor with actorType := trim p.actor.actorType, id := trim p.actor.id }
    action := trim p.action
    target := ⟨trim p.target.targetType, trim p.target.id⟩
    outcome := trim p.outcome
    request := { p.request with
      id := trim p.request.id, method := trim p.request.method, path := trim p.request.path }
    correlationId := trim p.correlationId
    reason := p.reason.filter (fun s => trim s ≠ "") }

/-- The payload with every string trimmed. -/
def AuditEventPayload.trimmed (p : AuditEventPayload) : AuditEventPayload :=
  { p.normalized with
    actor := ⟨trim p.actor.actorType, trim p.actor.id, p.actor.roles.map trim⟩
    request := ⟨trim p.request.id, trim p.request.method, trim p.request.path, trim p.request.ip,
      trim p.request.userAgent⟩
    reason := (p.reason.map trim).filter (fun s => s ≠ "") }

/-- The fields of a payload as a response has them, with its organization and its instant
parsed, beside what the insert generates. -/
def AuditEventPayload.response (lib : StoreLibraries) (id organizationId : Uuid)
    (occurredAt createdAt : Int) (p : AuditEventPayload) : AuditEventResponse where
  id := id.toString
  occurredAt := lib.showInstant (lib.precision occurredAt)
  schemaVersion := p.schemaVersion
  sourceService := p.sourceService
  organizationId := organizationId.toString
  environment := p.environment
  actor := p.actor
  action := p.action
  target := p.target
  outcome := p.outcome
  request := p.request
  correlationId := p.correlationId
  reason := p.reason
  metadata := p.metadata.val
  createdAt := lib.showInstant createdAt

/-- An accepted payload is stored as one new row, and its response is the payload again. -/
theorem audit_round_trip {lib : StoreLibraries} {state : AppState} {input : AppendInput}
    {rows rows' : List AuditColumns} {headers : AuditHeaders} {p : AuditEventPayload} {id : Uuid}
    (accepted : appendAuditEvent lib state input rows headers p = .ok (rows', id)) :
    ∃ stored organizationId occurredAt, rows' = rows ++ [stored] ∧
      lib.parseUuid (trim p.organizationId) = some organizationId ∧
      lib.parseRfc3339 p.occurredAt = some occurredAt ∧
      AuditEventResponse.fromRow lib (rowToAuditEvent stored) =
        p.normalized.response lib id organizationId occurredAt input.createdAt := by
  obtain ⟨event, row, rfl, message, valid, converted, inserted⟩ := append_ok accepted
  obtain ⟨actorType, outcome, sameType, sameOutcome, rfl⟩ := intoProto_ok message
  obtain ⟨occurredAt, org, actor, actorType', target, req, outcome', parsedAt, parsedOrg, hasActor,
    knownType, hasTarget, hasRequest, knownOutcome, rfl⟩ := eventToInsert_ok converted
  have schema : p.schemaVersion = 1 := (validateAuditEvent_ok.mp valid).schemaVersion
  cases hasActor
  cases hasTarget
  cases hasRequest
  obtain rfl : actorType = actorType' :=
    Option.some.inj ((ActorType.tryFrom_toI32 actorType).symm.trans knownType)
  obtain rfl : outcome = outcome' :=
    Option.some.inj ((Outcome.tryFrom_toI32 outcome).symm.trans knownOutcome)
  refine ⟨_, org, occurredAt, insert_stored inserted, parsedOrg, parsedAt, ?_⟩
  simp only [AuditEventResponse.fromRow, rowToAuditEvent, AuditInsert.stored, sameType, sameOutcome,
    metaMap_eq p.metadata.property, schema, AuditEventPayload.response, AuditEventPayload.normalized]
  rfl

/-- The sample event in the sandbox, with space around some of its strings. -/
def spacedPayload : AuditEventPayload :=
  { samplePayload " sandbox " with
    actor := ⟨"user ", " ada", ["admin "]⟩
    request := ⟨"r1 ", "POST", "/api/v1/auth/refresh", " 127.0.0.1 ", "curl/8.5.0 "⟩
    reason := some "  " }

def spacedRow : AuditColumns :=
  { sampleRow "sandbox" with
    actorId := "ada"
    actorRoles := ["admin "]
    requestId := "r1"
    requestIp := " 127.0.0.1 "
    requestUserAgent := "curl/8.5.0 " }

theorem spaced_accepted : appendAuditEvent sampleStore internalState ⟨0, ⟨77⟩, 0⟩ [] internalHeaders
    spacedPayload = .ok ([spacedRow], ⟨77⟩) := by
  decide +kernel

theorem audit_round_trip_spaced :
    ∃ stored organizationId occurredAt, [spacedRow] = [] ++ [stored] ∧
      sampleStore.parseUuid (trim spacedPayload.organizationId) = some organizationId ∧
      sampleStore.parseRfc3339 spacedPayload.occurredAt = some occurredAt ∧
      AuditEventResponse.fromRow sampleStore (rowToAuditEvent stored) =
        spacedPayload.normalized.response sampleStore ⟨77⟩ organizationId occurredAt 0 :=
  audit_round_trip spaced_accepted

/-- An address with space around it comes back with the space. -/
theorem address_not_trimmed :
    ¬ ∀ (lib : StoreLibraries) (state : AppState) (input : AppendInput) (rows : List AuditColumns)
      (headers : AuditHeaders) (p : AuditEventPayload) (stored : AuditColumns) (id : Uuid)
      (organizationId : Uuid) (occurredAt : Int), lib.toLibraries.Lawful →
        appendAuditEvent lib state input rows headers p = .ok (rows ++ [stored], id) →
        lib.parseUuid (trim p.organizationId) = some organizationId →
        lib.parseRfc3339 p.occurredAt = some occurredAt →
        AuditEventResponse.fromRow lib (rowToAuditEvent stored) =
          p.trimmed.response lib id organizationId occurredAt input.createdAt := by
  intro claim
  have same := claim sampleStore internalState ⟨0, ⟨77⟩, 0⟩ [] internalHeaders spacedPayload spacedRow
    ⟨77⟩ ⟨1⟩ 0 sampleLibraries_lawful spaced_accepted (by decide +kernel) (by decide +kernel)
  have address := congrArg (fun r => r.request.ip) same
  exact absurd address (by decide +kernel)

end RailsCore.Audit
