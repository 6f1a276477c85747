import RailsCore.AuditAcceptance
import RailsCore.AuditRoutes

/-!
# What is appended can be listed

A stored event is found again under its organization and its environment in
lower case. The append keeps the case of the environment and the list compares
it with the lower case one, so an event that names it in another case is
stored and never listed. Pages and their offsets have 32 bits, and so a list
also has a last row that any page can reach.
-/

namespace RailsCore.Audit

open TransactionRepository (pageOffset)
open UsersService (trim toLowercase HeaderValue headerText headerOf)

section Insert
variable {precision : Int → Int}

/-- The row that an insert stores. -/
def AuditInsert.stored (precision : Int → Int) (id : Uuid) (createdAt : Int) (row : AuditInsert) :
    AuditColumns where
  id := id
  occurredAt := precision row.occurredAt
  schemaVersion := row.schemaVersion
  sourceService := row.sourceService
  organizationId := row.organizationId
  environment := row.environment
  actorType := row.actorType
  actorId := row.actorId
  actorRoles := row.actorRoles
  action := row.action
  targetType := row.targetType
  targetId := row.targetId
  outcome := row.outcome
  requestId := row.requestId
  requestMethod := row.requestMethod
  requestPath := row.requestPath
  requestIp := row.requestIp
  requestUserAgent := row.requestUserAgent
  correlationId := row.correlationId
  reason := row.reason
  metadata := row.metadata
  createdAt := createdAt

theorem setAll_cons {row out : AuditColumns} {column : Column} {columns : List Column}
    {value : SqlValue} {values : List SqlValue}
    (h : row.setAll precision (column :: columns) (value :: values) = some out) :
    ∃ next, row.set precision column value = some next ∧
      next.setAll precision columns values = some out := by
  rw [AuditColumns.setAll] at h
  split at h
  · exact Option.bind_eq_some_iff.mp h
  · exact nomatch h

/-- The binds stand in the order of the columns. -/
theorem setAll_binds {id : Uuid} {createdAt : Int} {row : AuditInsert} {out : AuditColumns}
    (h : (AuditColumns.generated id createdAt).setAll precision insertColumns row.binds = some out) :
    out = row.stored precision id createdAt := by
  unfold insertColumns AuditInsert.binds at h
  repeat
    obtain ⟨next, placed, h⟩ := setAll_cons h
    cases placed
  cases h
  rfl

theorem insert_stored {rows rows' : List AuditColumns} {id : Uuid} {createdAt : Int}
    {row : AuditInsert} (h : insertAuditEvent precision rows id createdAt row = some rows') :
    rows' = rows ++ [row.stored precision id createdAt] := by
  unfold insertAuditEvent at h
  split at h
  · exact nomatch h
  · obtain ⟨stored, placed, rfl⟩ := Option.map_eq_some_iff.mp h
    rw [setAll_binds placed]

end Insert

/-- What the conversion of an event takes it apart into. -/
theorem eventToInsert_ok {lib : Libraries} {event : AuditEvent} {row : AuditInsert}
    (h : eventToInsert lib event = .ok row) :
    ∃ occurredAt org actor actorType target req outcome,
      lib.parseRfc3339 event.occurredAt = some occurredAt ∧
      lib.parseUuid (trim event.organizationId) = some org ∧ event.actor = some actor ∧
      ActorType.tryFrom actor.type = some actorType ∧ event.target = some target ∧
      event.request = some req ∧ Outcome.tryFrom event.outcome = some outcome ∧
      row = {
        occurredAt := occurredAt
        schemaVersion := asI16 event.schemaVersion
        sourceService := trim event.sourceService
        organizationId := org
        environment := trim event.environment
        actorType := actorType.str
        actorId := trim actor.id
        actorRoles := actor.roles
        action := trim event.action
        targetType := trim target.type
        targetId := trim target.id
        outcome := outcome.str
        requestId := trim req.id
        requestMethod := trim req.method
        requestPath := trim req.path
        requestIp := req.ip
        requestUserAgent := req.userAgent
        correlationId := trim event.correlationId
        reason := event.reason.filter (fun s => trim s ≠ "")
        metadata := metaMap event.metadata } := by
  unfold eventToInsert at h
  split at h
  · exact nomatch h
  rename_i occurredAt parsedAt
  split at h
  · exact nomatch h
  rename_i org parsedOrg
  split at h
  · exact nomatch h
  rename_i actor hasActor
  split at h
  · exact nomatch h
  rename_i actorType knownType
  split at h
  · exact nomatch h
  rename_i target hasTarget
  split at h
  · exact nomatch h
  rename_i req hasRequest
  split at h
  · exact nomatch h
  rename_i outcome knownOutcome
  cases h
  exact ⟨occurredAt, org, actor, actorType, target, req, outcome, parsedAt, parsedOrg, hasActor,
    knownType, hasTarget, hasRequest, knownOutcome, rfl⟩

/-- An event that one of the two paths accepts for a table, and the row that it stores. -/
inductive Appended (lib : StoreLibraries) (event : AuditEvent) (rows : List AuditColumns)
    (stored : AuditColumns) : Prop where
  | grpc {input id}
      (accepted : Grpc.appendAuditEvent lib input rows (some event) = .ok (rows ++ [stored], id))
  | http {state input headers payload id} (message : AuditEventPayload.intoProto payload = .ok event)
      (accepted : appendAuditEvent lib state input rows headers payload = .ok (rows ++ [stored], id))

/-- What the HTTP path has checked of an event that it accepts. -/
theorem append_ok {lib : StoreLibraries} {state : AppState} {input : AppendInput}
    {rows rows' : List AuditColumns} {headers : AuditHeaders} {payload : AuditEventPayload} {id : Uuid}
    (h : appendAuditEvent lib state input rows headers payload = .ok (rows', id)) :
    ∃ event row, id = input.id ∧ payload.intoProto = .ok event ∧
      validateAuditEvent lib.toLibraries input.now event = .ok () ∧
      eventToInsert lib.toLibraries event = .ok row ∧
      insertAuditEvent lib.precision rows input.id input.createdAt row = some rows' := by
  unfold appendAuditEvent at h
  split at h
  · exact nomatch h
  obtain ⟨-, -, h⟩ := UsersService.except_bind_ok.mp h
  obtain ⟨-, -, h⟩ := UsersService.except_bind_ok.mp h
  split at h
  · exact nomatch h
  obtain ⟨event, message, h⟩ := UsersService.except_bind_ok.mp h
  split at h
  · exact nomatch h
  rename_i valid
  split at h
  · exact nomatch h
  rename_i row converted
  split at h
  · exact nomatch h
  rename_i stored
  cases h
  exact ⟨event, row, rfl, message, valid, converted, stored⟩

theorem Appended.converted {lib : StoreLibraries} {event : AuditEvent} {rows : List AuditColumns}
    {stored : AuditColumns} (appended : Appended lib event rows stored) :
    ∃ row id createdAt, eventToInsert lib.toLibraries event = .ok row ∧
      stored = row.stored lib.precision id createdAt := by
  cases appended with
  | @grpc input id accepted =>
    unfold Grpc.appendAuditEvent at accepted
    dsimp only at accepted
    split at accepted
    · exact nomatch accepted
    split at accepted
    · exact nomatch accepted
    rename_i row converted
    split at accepted
    · exact nomatch accepted
    rename_i rows' inserted
    cases accepted
    have same := List.append_cancel_left (insert_stored inserted)
    exact ⟨row, _, _, converted, List.cons.inj same |>.1⟩
  | http message accepted =>
    obtain ⟨event', row, -, message', -, converted, inserted⟩ := append_ok accepted
    obtain rfl := Except.ok.inj (message.symm.trans message')
    have same := List.append_cancel_left (insert_stored inserted)
    exact ⟨row, _, _, converted, List.cons.inj same |>.1⟩

/-- The environment is stored as it was sent, without the space around it. -/
theorem Appended.environment {lib : StoreLibraries} {event : AuditEvent} {rows : List AuditColumns}
    {stored : AuditColumns} (appended : Appended lib event rows stored) :
    stored.environment = trim event.environment ∧
      lib.parseUuid (trim event.organizationId) = some stored.organizationId := by
  obtain ⟨row, id, createdAt, converted, rfl⟩ := appended.converted
  obtain ⟨-, org, -, -, -, -, -, -, parsed, -, -, -, -, -, rfl⟩ := eventToInsert_ok converted
  exact ⟨rfl, parsed⟩

/-- A query that filters by its scope alone. -/
structure ListAuditEventsQuery.Unfiltered (query : ListAuditEventsQuery) : Prop where
  action : query.action = none
  targetType : query.targetType = none
  targetId : query.targetId = none
  outcome : query.outcome = none
  from_ : query.from_ = none
  to_ : query.to_ = none

/-- Some page of the query shows the row. -/
def Listed (lib : StoreLibraries) (state : AppState) (table : List AuditColumns)
    (headers : AuditHeaders) (query : ListAuditEventsQuery) (row : AuditColumns) : Prop :=
  ∃ page perPage data pagination,
    listAuditEventsRoute lib state table headers { query with page, perPage } =
      .ok (data, pagination) ∧ AuditEventResponse.fromRow lib (rowToAuditEvent row) ∈ data

/-- The rows of a scope before the row in the order of the list. -/
def ahead (table : List AuditColumns) (organizationId : Uuid) (environment : String)
    (row : AuditColumns) : List AuditColumns :=
  table.filter (fun r => r.organizationId = organizationId ∧ r.environment = environment ∧
    r ≠ row ∧ LatestFirst r row)

instance : Std.Total LatestFirst where
  total a b := by
    unfold LatestFirst
    omega

instance : IsTrans AuditColumns LatestFirst where
  trans a b c := by
    unfold LatestFirst
    omega

theorem latestFirst_antisymm {table : List AuditColumns} (unique : (table.map AuditColumns.id).Nodup)
    {a b : AuditColumns} (ha : a ∈ table) (hb : b ∈ table) (first : LatestFirst a b)
    (second : LatestFirst b a) : a = b := by
  have same : a.id.bits.toNat = b.id.bits.toNat := by
    unfold LatestFirst at first second
    omega
  have ids : a.id = b.id := by
    cases hid : a.id with
    | mk bits =>
      cases hid' : b.id with
      | mk bits' =>
        rw [hid, hid'] at same
        exact congrArg Uuid.mk (BitVec.eq_of_toNat_eq same)
  exact List.inj_on_of_nodup_map unique ha hb ids

/-- The positions that some page can show. -/
theorem reachable_iff (k : Nat) :
    (∃ page perPage : Option UInt32,
      pageOffset (pageOfQuery page) (perPageOfQuery 25 perPage) ≤ k ∧
        k < pageOffset (pageOfQuery page) (perPageOfQuery 25 perPage) +
          (perPageOfQuery 25 perPage).toNat) ↔ k < 2 ^ 32 + 98 := by
  constructor
  · rintro ⟨page, perPage, from_, to_⟩
    obtain ⟨size, most⟩ := toNat_perPageOfQuery 25 perPage
    rw [pageOffset_eq (toNat_pageOfQuery page)] at to_
    generalize (pageOfQuery page).toNat = p at to_
    generalize (perPageOfQuery 25 perPage).toNat = n at to_ size most
    have wrapped : (p - 1) * n % 2 ^ 32 < 2 ^ 32 := Nat.mod_lt _ (by decide)
    by_cases whole : n = 100
    · -- offsets of whole hundreds stay multiples of four
      subst whole
      omega
    · omega
  · intro small
    by_cases single : k < 2 ^ 32 - 1
    · have number : (UInt32.ofNat (k + 1)).toNat = k + 1 := by
        rw [UInt32.toNat_ofNat']
        omega
      have page : (pageOfQuery (some (UInt32.ofNat (k + 1)))).toNat = k + 1 := by
        rw [pageOfQuery, Option.getD_some, toNat_max, number]
        exact Nat.max_eq_left (by simp)
      have size : (perPageOfQuery 25 (some 1)).toNat = 1 := by decide
      refine ⟨some (UInt32.ofNat (k + 1)), some 1, ?_⟩
      rw [pageOffset_eq (by omega), page, size]
      omega
    · -- 99 is odd, so its multiples reach the last offset
      refine ⟨some 1084587702, some 99, ?_⟩
      have offset : pageOffset (pageOfQuery (some 1084587702)) (perPageOfQuery 25 (some 99)) =
          2 ^ 32 - 1 := by decide +kernel
      have size : (perPageOfQuery 25 (some 99)).toNat = 99 := by decide
      rw [offset, size]
      omega

/-- The filters of a scope alone. -/
def scopeFilters (organizationId : Uuid) (environment : String) (page perPage : Option UInt32) :
    AuditListFilters where
  organizationId := organizationId
  environment := environment
  action := none
  targetType := none
  targetId := none
  outcome := none
  from_ := none
  to_ := none
  page := pageOfQuery page
  perPage := perPageOfQuery 25 perPage

theorem route_unfiltered {lib : StoreLibraries} {state : AppState} {headers : AuditHeaders}
    {query : ListAuditEventsQuery} {organizationId : Uuid} {environment : String}
    (scope : resolveListScope lib.toLibraries state headers query = .ok (organizationId, environment))
    (plain : query.Unfiltered) (table : List AuditColumns) (page perPage : Option UInt32) :
    listAuditEventsRoute lib state table headers { query with page, perPage } =
      .ok ((listAuditEvents table (scopeFilters organizationId environment page perPage)).1.map
          (AuditEventResponse.fromRow lib),
        (listAuditEvents table (scopeFilters organizationId environment page perPage)).2) := by
  have scope' : resolveListScope lib.toLibraries state headers { query with page, perPage } =
      .ok (organizationId, environment) := scope
  have filters : buildListFilters lib.toLibraries organizationId environment
      { query with page, perPage } = .ok (scopeFilters organizationId environment page perPage) := by
    unfold buildListFilters
    simp only [plain.action, plain.targetType, plain.targetId, plain.outcome, plain.from_, plain.to_]
    rfl
  unfold listAuditEventsRoute
  rw [scope']
  dsimp only [bind, Except.bind]
  rw [filters]

/-- The rows of a scope in the order of the list. -/
def ofScope (table : List AuditColumns) (organizationId : Uuid) (environment : String) :
    List AuditColumns :=
  (table.filter (fun r => r.organizationId = organizationId ∧ r.environment = environment)).insertionSort
    LatestFirst

theorem selected_scopeFilters (table : List AuditColumns) (organizationId : Uuid)
    (environment : String) (page perPage : Option UInt32) :
    selected (scopeFilters organizationId environment page perPage) table =
      ofScope table organizationId environment := by
  rw [selected, ofScope]
  congr 2
  funext r
  have clauses : (scopeFilters organizationId environment page perPage).selects r =
      (decide (r.organizationId = organizationId) && decide (r.environment = environment) &&
        true && true && true && true && true && true) := rfl
  simp [clauses]

section Scope
variable {table : List AuditColumns} {organizationId : Uuid} {environment : String}

theorem mem_ofScope {row : AuditColumns} : row ∈ ofScope table organizationId environment ↔
    row ∈ table ∧ row.organizationId = organizationId ∧ row.environment = environment := by
  rw [ofScope, List.mem_insertionSort, List.mem_filter, decide_eq_true_eq]

theorem ofScope_position (unique : (table.map AuditColumns.id).Nodup) {k : Nat} {row : AuditColumns}
    (at_ : (ofScope table organizationId environment)[k]? = some row) :
    (ahead table organizationId environment row).length = k := by
  have sorted : (ofScope table organizationId environment).Pairwise LatestFirst :=
    List.pairwise_insertionSort LatestFirst _
  have apart : (ofScope table organizationId environment).Nodup :=
    (List.perm_insertionSort LatestFirst _).nodup_iff.mpr ((List.Nodup.of_map _ unique).filter _)
  have antisymm : ∀ a ∈ ofScope table organizationId environment,
      ∀ b ∈ ofScope table organizationId environment, LatestFirst a b → LatestFirst b a → a = b :=
    fun a ha b hb => latestFirst_antisymm unique (mem_ofScope.mp ha).1 (mem_ofScope.mp hb).1
  rw [← Slices.position_eq sorted apart antisymm at_, ofScope,
    ((List.perm_insertionSort LatestFirst _).filter _).length_eq, List.filter_filter, ahead]
  congr 2
  funext r
  rw [Bool.eq_iff_iff]
  simp only [decide_eq_true_eq, Bool.and_eq_true]
  tauto

/-- A response gives away the id of its row. -/
theorem shown_iff (lib : StoreLibraries) (unique : (table.map AuditColumns.id).Nodup)
    {row : AuditColumns} (there : row ∈ table) (page perPage : Option UInt32) :
    AuditEventResponse.fromRow lib (rowToAuditEvent row) ∈
        (listAuditEvents table (scopeFilters organizationId environment page perPage)).1.map
          (AuditEventResponse.fromRow lib) ↔
      ∃ k, pageOffset (pageOfQuery page) (perPageOfQuery 25 perPage) ≤ k ∧
        k < pageOffset (pageOfQuery page) (perPageOfQuery 25 perPage) +
          (perPageOfQuery 25 perPage).toNat ∧
        (ofScope table organizationId environment)[k]? = some row := by
  rw [← Slices.mem_window, listAuditEvents, selected_scopeFilters, List.map_map, List.mem_map]
  constructor
  · rintro ⟨r, listed, same⟩
    have id : r.id = row.id := Uuid.toString_inj.mp (congrArg AuditEventResponse.id same)
    have known := (mem_ofScope.mp (List.mem_of_mem_drop (List.mem_of_mem_take listed))).1
    rw [← List.inj_on_of_nodup_map unique known there id]
    exact listed
  · intro listed
    exact ⟨row, listed, rfl⟩

end Scope

/-- A list of a scope shows a row of the table exactly if it is of the scope and
a page can reach it. -/
theorem listed_iff {lib : StoreLibraries} {state : AppState} {headers : AuditHeaders}
    {query : ListAuditEventsQuery} {organizationId : Uuid} {environment : String}
    (scope : resolveListScope lib.toLibraries state headers query = .ok (organizationId, environment))
    (plain : query.Unfiltered) {table : List AuditColumns}
    (unique : (table.map AuditColumns.id).Nodup) {row : AuditColumns} (there : row ∈ table) :
    Listed lib state table headers query row ↔
      (row.organizationId = organizationId ∧ row.environment = environment) ∧
        (ahead table organizationId environment row).length < 2 ^ 32 + 98 := by
  constructor
  · rintro ⟨page, perPage, data, pagination, answer, listed⟩
    rw [route_unfiltered scope plain] at answer
    obtain ⟨rfl, -⟩ := Prod.mk.inj (Except.ok.inj answer)
    obtain ⟨k, from_, to_, at_⟩ := (shown_iff lib unique there page perPage).mp listed
    refine ⟨(mem_ofScope.mp (List.mem_of_getElem? at_)).2, ?_⟩
    rw [ofScope_position unique at_]
    exact (reachable_iff k).mp ⟨page, perPage, from_, to_⟩
  · rintro ⟨of, near⟩
    obtain ⟨k, at_⟩ := List.mem_iff_getElem?.mp (mem_ofScope.mpr ⟨there, of⟩)
    rw [ofScope_position unique at_] at near
    obtain ⟨page, perPage, from_, to_⟩ := (reachable_iff k).mpr near
    exact ⟨page, perPage, _, _, route_unfiltered scope plain table page perPage,
      (shown_iff lib unique there page perPage).mpr ⟨k, from_, to_, at_⟩⟩

/-- An appended event is on some page of every list of its organization and its lower-case
environment exactly if it named the environment in lower case and a page can reach its row. -/
theorem appended_listed_iff {lib : StoreLibraries} {event : AuditEvent} {rows table : List AuditColumns}
    {stored : AuditColumns} (appended : Appended lib event rows stored)
    (unique : (table.map AuditColumns.id).Nodup) (there : stored ∈ table) {state : AppState}
    {headers : AuditHeaders} {query : ListAuditEventsQuery} {organizationId : Uuid}
    (organization : lib.parseUuid (trim event.organizationId) = some organizationId)
    (scope : resolveListScope lib.toLibraries state headers query =
      .ok (organizationId, toLowercase (trim event.environment)))
    (plain : query.Unfiltered) :
    Listed lib state table headers query stored ↔
      trim event.environment = toLowercase (trim event.environment) ∧
        (ahead table organizationId (toLowercase (trim event.environment)) stored).length <
          2 ^ 32 + 98 := by
  obtain ⟨environment, parsed⟩ := appended.environment
  have owner : stored.organizationId = organizationId :=
    Option.some.inj (parsed.symm.trans organization)
  rw [listed_iff scope plain unique there, environment]
  simp only [owner, true_and]

/-- The sample parsers, with instants in microseconds. -/
def sampleStore : StoreLibraries where
  toLibraries := sampleLibraries
  showInstant t := sampleLibraries.toRfc3339 t.toNat
  precision t := t - t % 1000

def samplePayload (environment : String) : AuditEventPayload where
  occurredAt := epochText
  schemaVersion := 1
  sourceService := "users"
  organizationId := (Uuid.mk 1).toString
  environment := environment
  actor := ⟨"user", (Uuid.mk 2).toString, []⟩
  action := "users.auth.refresh"
  target := ⟨"session", (Uuid.mk 3).toString⟩
  outcome := "success"
  request := ⟨(Uuid.mk 4).toString, "POST", "/api/v1/auth/refresh", "127.0.0.1", "curl/8.5.0"⟩
  correlationId := (Uuid.mk 5).toString
  reason := none
  metadata := ⟨[("http_status", "200")], List.nodup_singleton _⟩

/-- The message of the sample payload. -/
def sampleEvent (environment : String) : AuditEvent where
  occurredAt := epochText
  schemaVersion := 1
  sourceService := "users"
  organizationId := (Uuid.mk 1).toString
  environment := environment
  actor := some ⟨1, (Uuid.mk 2).toString, []⟩
  action := "users.auth.refresh"
  target := some ⟨"session", (Uuid.mk 3).toString⟩
  outcome := 1
  request := some ⟨(Uuid.mk 4).toString, "POST", "/api/v1/auth/refresh", "127.0.0.1", "curl/8.5.0"⟩
  correlationId := (Uuid.mk 5).toString
  reason := none
  metadata := [("http_status", "200")]

def sampleRow (environment : String) : AuditColumns where
  id := ⟨77⟩
  occurredAt := 0
  schemaVersion := 1
  sourceService := "users"
  organizationId := ⟨1⟩
  environment := environment
  actorType := "user"
  actorId := (Uuid.mk 2).toString
  actorRoles := []
  action := "users.auth.refresh"
  targetType := "session"
  targetId := (Uuid.mk 3).toString
  outcome := "success"
  requestId := (Uuid.mk 4).toString
  requestMethod := "POST"
  requestPath := "/api/v1/auth/refresh"
  requestIp := "127.0.0.1"
  requestUserAgent := "curl/8.5.0"
  correlationId := (Uuid.mk 5).toString
  reason := none
  metadata := [("http_status", "200")]
  createdAt := 0

def internalState : AppState where
  internalToken := some "secret"
  validateApiKey _ _ := .error (.other, "")

/-- The headers of an internal caller in the sandbox. -/
def internalHeaders : AuditHeaders := ⟨some (headerOf "secret"), some (headerOf "sandbox"), none⟩

def internalQuery : ListAuditEventsQuery :=
  ⟨some (Uuid.mk 1).toString, some "sandbox", none, none, none, none, none, none, none, none⟩

theorem internalQuery_unfiltered : internalQuery.Unfiltered := ⟨rfl, rfl, rfl, rfl, rfl, rfl⟩

theorem sampleRow_unique (environment : String) :
    ([sampleRow environment].map AuditColumns.id).Nodup := List.nodup_singleton _

theorem internal_scope : resolveListScope sampleStore.toLibraries internalState internalHeaders
    internalQuery = .ok (⟨1⟩, "sandbox") := by
  decide +kernel

theorem appended_listed_iff_sandbox :
    Listed sampleStore internalState [sampleRow "sandbox"] internalHeaders internalQuery
      (sampleRow "sandbox") := by
  have message : (samplePayload "sandbox").intoProto = .ok (sampleEvent "sandbox") := by
    decide +kernel
  have accepted : appendAuditEvent sampleStore internalState ⟨0, ⟨77⟩, 0⟩ [] internalHeaders
      (samplePayload "sandbox") = .ok ([] ++ [sampleRow "sandbox"], ⟨77⟩) := by
    decide +kernel
  have organization : sampleStore.parseUuid (trim (sampleEvent "sandbox").organizationId) =
      some ⟨1⟩ := by
    decide +kernel
  have lower : toLowercase (trim (sampleEvent "sandbox").environment) = "sandbox" := by
    decide +kernel
  have listed := appended_listed_iff (.http message accepted) (sampleRow_unique "sandbox")
    List.mem_cons_self organization (by rw [lower]; exact internal_scope) internalQuery_unfiltered
  rw [lower] at listed
  exact listed.mpr ⟨by decide +kernel, by decide +kernel⟩

/-- An event of the environment "Sandbox" passes the check of its header and is never listed. -/
theorem mixed_case_unlisted :
    ¬ ∀ (lib : StoreLibraries) (event : AuditEvent) (rows table : List AuditColumns)
      (stored : AuditColumns) (state : AppState) (headers : AuditHeaders)
      (query : ListAuditEventsQuery) (organizationId : Uuid) (environment : String),
      lib.toLibraries.Lawful → Appended lib event rows stored →
        (table.map AuditColumns.id).Nodup → stored ∈ table →
        lib.parseUuid (trim event.organizationId) = some organizationId →
        toLowercase (trim event.environment) = environment →
        environment ∈ ["sandbox", "production"] →
        resolveListScope lib.toLibraries state headers query = .ok (organizationId, environment) →
        query.Unfiltered → Listed lib state table headers query stored := by
  intro claim
  have message : (samplePayload "Sandbox").intoProto = .ok (sampleEvent "Sandbox") := by
    decide +kernel
  have accepted : appendAuditEvent sampleStore internalState ⟨0, ⟨77⟩, 0⟩ [] internalHeaders
      (samplePayload "Sandbox") = .ok ([] ++ [sampleRow "Sandbox"], ⟨77⟩) := by
    decide +kernel
  have listed := claim sampleStore (sampleEvent "Sandbox") [] [sampleRow "Sandbox"]
    (sampleRow "Sandbox") internalState internalHeaders internalQuery ⟨1⟩ "sandbox"
    sampleLibraries_lawful (.http message accepted) (sampleRow_unique "Sandbox") List.mem_cons_self
    (by decide +kernel) (by decide +kernel) List.mem_cons_self internal_scope internalQuery_unfiltered
  have of := ((listed_iff internal_scope internalQuery_unfiltered (sampleRow_unique "Sandbox")
    List.mem_cons_self).mp listed).1.2
  exact absurd of (by decide +kernel)

end RailsCore.Audit
