import Mathlib.Data.List.Sort
import RailsCore.AccountLists
import RailsCore.AuditEvents

/-!
# The table of audit events

The insert with its positional binds, the filtered list, and the way back from
a row. Rows are never updated or deleted. A JSON object is listed by its
entries, with each key once, and the text that the database cannot hold is
refused by the insert. An instant loses what is below the precision of its
column, which is library code and a parameter.
-/

namespace RailsCore.Audit

/-- A JSON object of strings. -/
abbrev Metadata := List (String × String)

/-- `Map::insert`. -/
def Metadata.insert (m : Metadata) (k v : String) : Metadata :=
  if m.any (fun entry => entry.1 = k) then
    m.map (fun entry => if entry.1 = k then (k, v) else entry)
  else m ++ [(k, v)]

structure AuditInsert where
  occurredAt : Int
  schemaVersion : Int
  sourceService : String
  organizationId : Uuid
  environment : String
  actorType : String
  actorId : String
  actorRoles : List String
  action : String
  targetType : String
  targetId : String
  outcome : String
  requestId : String
  requestMethod : String
  requestPath : String
  requestIp : String
  requestUserAgent : String
  correlationId : String
  reason : Option String
  metadata : Metadata
deriving DecidableEq, Repr

structure AuditEventRow extends AuditInsert where
  id : Uuid
  createdAt : Int
deriving DecidableEq, Repr

/-- The columns of `audit_events`. -/
inductive Column where
  | id
  | occurredAt
  | schemaVersion
  | sourceService
  | organizationId
  | environment
  | actorType
  | actorId
  | actorRoles
  | action
  | targetType
  | targetId
  | outcome
  | requestId
  | requestMethod
  | requestPath
  | requestIp
  | requestUserAgent
  | correlationId
  | reason
  | metadata
  | createdAt
deriving DecidableEq, Repr

inductive SqlValue where
  | timestamptz (t : Int)
  | smallint (n : Int)
  | uuid (u : Uuid)
  | text (s : String)
  | nullable (s : Option String)
  | textArray (l : List String)
  | jsonb (m : Metadata)
deriving DecidableEq, Repr

/-- A row of the table, by its columns. -/
structure AuditColumns where
  id : Uuid
  occurredAt : Int
  schemaVersion : Int
  sourceService : String
  organizationId : Uuid
  environment : String
  actorType : String
  actorId : String
  actorRoles : List String
  action : String
  targetType : String
  targetId : String
  outcome : String
  requestId : String
  requestMethod : String
  requestPath : String
  requestIp : String
  requestUserAgent : String
  correlationId : String
  reason : Option String
  metadata : Metadata
  createdAt : Int
deriving DecidableEq, Repr

/-- Text with a zero character is refused. -/
def storable (s : String) : Bool := !s.toList.contains (Char.ofNat 0)

def SqlValue.storable : SqlValue → Bool
  | .text s => Audit.storable s
  | .nullable s => s.all Audit.storable
  | .textArray l => l.all Audit.storable
  | .jsonb m => m.all (fun entry => Audit.storable entry.1 && Audit.storable entry.2)
  | .timestamptz _ | .smallint _ | .uuid _ => true

namespace AuditColumns

/-- A value in a column of its type; `precision` is that of the instants in the table. -/
def set (precision : Int → Int) (row : AuditColumns) : Column → SqlValue → Option AuditColumns
  | .occurredAt, .timestamptz t => some { row with occurredAt := precision t }
  | .schemaVersion, .smallint n => some { row with schemaVersion := n }
  | .sourceService, .text s => some { row with sourceService := s }
  | .organizationId, .uuid u => some { row with organizationId := u }
  | .environment, .text s => some { row with environment := s }
  | .actorType, .text s => some { row with actorType := s }
  | .actorId, .text s => some { row with actorId := s }
  | .actorRoles, .textArray l => some { row with actorRoles := l }
  | .action, .text s => some { row with action := s }
  | .targetType, .text s => some { row with targetType := s }
  | .targetId, .text s => some { row with targetId := s }
  | .outcome, .text s => some { row with outcome := s }
  | .requestId, .text s => some { row with requestId := s }
  | .requestMethod, .text s => some { row with requestMethod := s }
  | .requestPath, .text s => some { row with requestPath := s }
  | .requestIp, .text s => some { row with requestIp := s }
  | .requestUserAgent, .text s => some { row with requestUserAgent := s }
  | .correlationId, .text s => some { row with correlationId := s }
  | .reason, .nullable s => some { row with reason := s }
  | .metadata, .jsonb m => some { row with metadata := m }
  | _, _ => none

/-- The row before its columns are set, with what the database generates. -/
def generated (id : Uuid) (createdAt : Int) : AuditColumns where
  id := id
  occurredAt := 0
  schemaVersion := 0
  sourceService := ""
  organizationId := Uuid.nil
  environment := ""
  actorType := ""
  actorId := ""
  actorRoles := []
  action := ""
  targetType := ""
  targetId := ""
  outcome := ""
  requestId := ""
  requestMethod := ""
  requestPath := ""
  requestIp := ""
  requestUserAgent := ""
  correlationId := ""
  reason := none
  metadata := []
  createdAt := createdAt

/-- Each column takes the value at its position. -/
def setAll (precision : Int → Int) (row : AuditColumns) :
    List Column → List SqlValue → Option AuditColumns
  | [], [] => some row
  | column :: columns, value :: values =>
    if value.storable then do
      let row ← row.set precision column value
      row.setAll precision columns values
    else none
  | _, _ => none

end AuditColumns

/-- The column list of the insert. -/
def insertColumns : List Column := [
  .occurredAt, .schemaVersion, .sourceService, .organizationId, .environment,
  .actorType, .actorId, .actorRoles, .action, .targetType, .targetId, .outcome,
  .requestId, .requestMethod, .requestPath, .requestIp, .requestUserAgent,
  .correlationId, .reason, .metadata]

/-- The binds of the insert, in their order. -/
def AuditInsert.binds (row : AuditInsert) : List SqlValue := [
  .timestamptz row.occurredAt,
  .smallint row.schemaVersion,
  .text row.sourceService,
  .uuid row.organizationId,
  .text row.environment,
  .text row.actorType,
  .text row.actorId,
  .textArray row.actorRoles,
  .text row.action,
  .text row.targetType,
  .text row.targetId,
  .text row.outcome,
  .text row.requestId,
  .text row.requestMethod,
  .text row.requestPath,
  .text row.requestIp,
  .text row.requestUserAgent,
  .text row.correlationId,
  .nullable row.reason,
  .jsonb row.metadata]

/-- The table after the insert, with the id and the time that it generates. -/
def insertAuditEvent (precision : Int → Int) (rows : List AuditColumns) (id : Uuid) (createdAt : Int)
    (row : AuditInsert) : Option (List AuditColumns) :=
  if rows.any (fun r => r.id = id) then none
  else ((AuditColumns.generated id createdAt).setAll precision insertColumns row.binds).map
    (fun stored => rows ++ [stored])

def rowToAuditEvent (row : AuditColumns) : AuditEventRow where
  id := row.id
  occurredAt := row.occurredAt
  schemaVersion := row.schemaVersion
  sourceService := row.sourceService
  organizationId := row.organizationId
  environment := row.environment
  actorType := row.actorType
  actorId := row.actorId
  actorRoles := row.actorRoles
  action := row.action
  targetType := row.targetType
  targetId := row.targetId
  outcome := row.outcome
  requestId := row.requestId
  requestMethod := row.requestMethod
  requestPath := row.requestPath
  requestIp := row.requestIp
  requestUserAgent := row.requestUserAgent
  correlationId := row.correlationId
  reason := row.reason
  metadata := row.metadata
  createdAt := row.createdAt

structure AuditListFilters where
  organizationId : Uuid
  environment : String
  action : Option String
  targetType : Option String
  targetId : Option String
  outcome : Option String
  from_ : Option Int
  to_ : Option Int
  page : UInt32
  perPage : UInt32
deriving DecidableEq, Repr

/-- The filter clause. -/
def AuditListFilters.selects (filters : AuditListFilters) (row : AuditColumns) : Bool :=
  row.organizationId = filters.organizationId && row.environment = filters.environment &&
    filters.action.all (fun action => row.action = action) &&
    filters.targetType.all (fun targetType => row.targetType = targetType) &&
    filters.targetId.all (fun targetId => row.targetId = targetId) &&
    filters.outcome.all (fun outcome => row.outcome = outcome) &&
    filters.from_.all (fun from_ => from_ ≤ row.occurredAt) &&
    filters.to_.all (fun to_ => row.occurredAt ≤ to_)

/-- `ORDER BY occurred_at DESC, created_at DESC, id DESC`. -/
def LatestFirst (a b : AuditColumns) : Prop :=
  b.occurredAt < a.occurredAt ∨ a.occurredAt = b.occurredAt ∧ (b.createdAt < a.createdAt ∨
    a.createdAt = b.createdAt ∧ b.id.bits.toNat ≤ a.id.bits.toNat)

instance : DecidableRel LatestFirst := fun _ _ =>
  inferInstanceAs (Decidable (_ ∨ _ ∧ (_ ∨ _ ∧ _)))

/-- The rows that the filters select, latest first. -/
def selected (filters : AuditListFilters) (rows : List AuditColumns) : List AuditColumns :=
  (rows.filter filters.selects).insertionSort LatestFirst

def listAuditEvents (rows : List AuditColumns) (filters : AuditListFilters) :
    List AuditEventRow × PaginationMeta :=
  let (rows, pagination) := paginated (selected filters rows) filters.page filters.perPage
  (rows.map rowToAuditEvent, pagination)

end RailsCore.Audit
