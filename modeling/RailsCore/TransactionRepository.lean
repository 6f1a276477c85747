import RailsCore.Model
import RailsCore.Table

/-!
# Statements on `transactions`

Each function is one SQL statement, run at time `now` on the rows of the
table. Rows are never deleted. `created_at`, the amount, the accounts and the
key of a row are written once, by the insert: they are its intent.
-/

namespace RailsCore

/-- The columns that no update statement writes. -/
structure Intent where
  id : Uuid
  organizationId : Uuid
  fromAccountId : Uuid
  toAccountId : Uuid
  amount : Int
  currency : String
  transactionKind : TransactionKind
  idempotencyKey : String
  environment : Option Environment
  createdAt : Nat
deriving DecidableEq, Repr

namespace Transaction

def intent (tx : Transaction) : Intent :=
  ⟨tx.id, tx.organizationId, tx.fromAccountId, tx.toAccountId, tx.amount, tx.currency,
    tx.transactionKind, tx.idempotencyKey, tx.environment, tx.createdAt⟩

/-- `row_to_transaction` on a statement that does not return the retry columns. -/
def withoutRetryColumns (tx : Transaction) : Transaction :=
  { tx with retryCount := 0, lastAttemptedAt := none, nextRetryAt := none, terminalFailureAt := none }

@[simp] theorem intent_withoutRetryColumns (tx : Transaction) :
    tx.withoutRetryColumns.intent = tx.intent := rfl

@[simp] theorem status_withoutRetryColumns (tx : Transaction) :
    tx.withoutRetryColumns.status = tx.status := rfl

@[simp] theorem updatedAt_withoutRetryColumns (tx : Transaction) :
    tx.withoutRetryColumns.updatedAt = tx.updatedAt := rfl

theorem id_of_intent {a b : Transaction} (same : a.intent = b.intent) : a.id = b.id :=
  congrArg Intent.id same

theorem key_of_intent {a b : Transaction} (same : a.intent = b.intent) : a.key = b.key :=
  congrArg (fun i : Intent => IdempotencyKey.mk i.organizationId i.environment i.idempotencyKey) same

end Transaction

/-- Seconds of a setting as milliseconds; the statements use at least one second. -/
def intervalMs (secs : Int) : Nat := 1000 * (max secs 1).toNat

namespace TransactionRepository

variable (now : Nat)

/-- A row left in `posting` for longer than the lease. -/
def IsStalePosting (stalePostingAfter : Int) (tx : Transaction) : Bool :=
  tx.status = .posting && tx.updatedAt + intervalMs stalePostingAfter < now

/-- The row as it stands after the expiry of its lease. -/
def requeued (failureReason : String) (tx : Transaction) : Transaction :=
  { tx with status := .pending, failureReason := some failureReason, updatedAt := now }

def requeueStalePosting (stalePostingAfter : Int) (rows : List Transaction) : List Transaction :=
  Table.updateWhere (IsStalePosting now stalePostingAfter)
    (requeued now "reconciler: posting stale; requeued") rows

/-- A pending row that is too old and has been attempted at least once. -/
def IsOverAge (maxPendingAge : Int) (tx : Transaction) : Bool :=
  tx.status = .pending && tx.createdAt + intervalMs maxPendingAge < now && 1 ≤ tx.retryCount

def expired (tx : Transaction) : Transaction :=
  { tx with
    status := .failed
    failureReason := tx.failureReason.or (some "reconciler: pending age exceeded")
    nextRetryAt := none
    terminalFailureAt := some now
    updatedAt := now }

def failOverAge (maxPendingAge : Int) (rows : List Transaction) : List Transaction :=
  Table.updateWhere (IsOverAge now maxPendingAge) (expired now) rows

def findByIdempotency (key : IdempotencyKey) (rows : List Transaction) : Option Transaction :=
  (Table.find Transaction.key key rows).map Transaction.withoutRetryColumns

def findById (id : Uuid) (rows : List Transaction) : Except AppError Transaction :=
  match Table.find Transaction.id id rows with
  | some tx => .ok tx.withoutRetryColumns
  | none => .error (.notFound ("Transaction with id " ++ id.toString ++ " not found"))

/-- The row that `create_or_get_by_idempotency` inserts. -/
def newRow (id organizationId fromAccountId toAccountId : Uuid) (amount : Int) (currency : String)
    (transactionKind : TransactionKind) (idempotencyKey : String) (environment : Environment) :
    Transaction where
  id := id
  organizationId := organizationId
  fromAccountId := fromAccountId
  toAccountId := toAccountId
  amount := amount
  currency := currency
  transactionKind := transactionKind
  status := .pending
  failureReason := none
  idempotencyKey := idempotencyKey
  environment := some environment
  retryCount := 0
  lastAttemptedAt := none
  nextRetryAt := none
  terminalFailureAt := none
  createdAt := now
  updatedAt := now

/-- The row with the key where there is one, else the new row, whose columns
and primary key the database checks. -/
def createOrGetByIdempotency (row : Transaction) (rows : List Transaction) :
    Except AppError (List Transaction × Transaction) :=
  match Table.find Transaction.key row.key rows with
  | some existing => .ok (rows, existing.withoutRetryColumns)
  | none =>
    if 255 < row.idempotencyKey.length then
      .error (.database "value too long for type character varying(255)")
    else if (Table.find Transaction.id row.id rows).isSome then
      .error (.database "duplicate key value violates unique constraint \"transactions_pkey\"")
    else .ok (rows ++ [row], row)

/-- The row as it stands after a claim by an HTTP request. -/
def claimedForPost (tx : Transaction) : Transaction :=
  { tx with status := .posting, failureReason := none, updatedAt := now }

def tryClaimPendingForPost (id : Uuid) (rows : List Transaction) :
    List Transaction × Option Transaction :=
  match Table.find Transaction.id id rows with
  | some tx =>
    if tx.status = .pending then
      (Table.updateWhere (fun r => r.id = id && r.status = .pending) (claimedForPost now) rows,
        some (claimedForPost now tx).withoutRetryColumns)
    else (rows, none)
  | none => (rows, none)

def reclaimStalePostingRows (stalePostingAfter : Int) (rows : List Transaction) :
    List Transaction :=
  Table.updateWhere (IsStalePosting now stalePostingAfter)
    (requeued now "posting lease expired; reclaimed for retry") rows

/-- What the `candidates` of a claim must satisfy. -/
def IsCandidate (olderThan : Int) (tx : Transaction) : Bool :=
  tx.status = .pending && tx.createdAt + intervalMs olderThan < now &&
    tx.nextRetryAt.all (fun next => next ≤ now)

/-- The row as it stands after a claim by a retry worker. -/
def claimedForRetry (tx : Transaction) : Transaction :=
  { tx with
    status := .posting
    failureReason := none
    retryCount := tx.retryCount + 1
    lastAttemptedAt := some now
    updatedAt := now }

/-- The claim of one batch. `ids` are the candidates that no concurrent session
has locked, in the order in which they are returned; `none` when they are not a
batch that the statement can pick. -/
def claimPendingTransactions (olderThan : Int) (limit : Nat) (ids : List Uuid)
    (rows : List Transaction) : Option (List Transaction × List Transaction) :=
  let claimable := rows.filter (IsCandidate now olderThan)
  if ids.length ≤ limit ∧ ids.Nodup ∧ ∀ id ∈ ids, id ∈ claimable.map Transaction.id then
    some (Table.updateWhere (fun r => IsCandidate now olderThan r && r.id ∈ ids)
        (claimedForRetry now) rows,
      ids.filterMap (fun id => (Table.find Transaction.id id claimable).map (claimedForRetry now)))
  else none

def withStatus (status : TransactionStatus) (failureReason : Option String) (tx : Transaction) :
    Transaction :=
  { tx with status, failureReason, updatedAt := now }

def updateStatus (id : Uuid) (status : TransactionStatus) (failureReason : Option String)
    (rows : List Transaction) : List Transaction :=
  Table.updateWhere (fun r => r.id = id) (withStatus now status failureReason) rows

def withRetry (failureReason : String) (nextRetryAt : Nat) (tx : Transaction) : Transaction :=
  { tx with
    status := .pending
    failureReason := some failureReason
    nextRetryAt := some nextRetryAt
    terminalFailureAt := none
    updatedAt := now }

def scheduleRetry (id : Uuid) (failureReason : String) (nextRetryAt : Nat)
    (rows : List Transaction) : List Transaction :=
  Table.updateWhere (fun r => r.id = id) (withRetry now failureReason nextRetryAt) rows

def withTerminalFailure (failureReason : String) (tx : Transaction) : Transaction :=
  { tx with
    status := .failed
    failureReason := some failureReason
    nextRetryAt := none
    terminalFailureAt := some now
    updatedAt := now }

def markTerminalFailure (id : Uuid) (failureReason : String) (rows : List Transaction) :
    List Transaction :=
  Table.updateWhere (fun r => r.id = id) (withTerminalFailure now failureReason) rows

/-- An update that leaves the intent of a row as it is, and sets its status and
the time of its last change. It does not take back a claim. -/
structure Stamps (f : Transaction → Transaction) (status : TransactionStatus) : Prop where
  intent : ∀ tx, (f tx).intent = tx.intent
  status : ∀ tx, (f tx).status = status
  updatedAt : ∀ tx, (f tx).updatedAt = now
  counted : ∀ tx, tx.retryCount ≤ (f tx).retryCount

theorem stamps_requeued (reason : String) : Stamps now (requeued now reason) .pending :=
  ⟨fun _ => rfl, fun _ => rfl, fun _ => rfl, fun _ => Int.le_refl _⟩

theorem stamps_expired : Stamps now (expired now) .failed :=
  ⟨fun _ => rfl, fun _ => rfl, fun _ => rfl, fun _ => Int.le_refl _⟩

theorem stamps_claimedForPost : Stamps now (claimedForPost now) .posting :=
  ⟨fun _ => rfl, fun _ => rfl, fun _ => rfl, fun _ => Int.le_refl _⟩

theorem stamps_claimedForRetry : Stamps now (claimedForRetry now) .posting :=
  ⟨fun _ => rfl, fun _ => rfl, fun _ => rfl, fun tx => Int.le_add_one (Int.le_refl tx.retryCount)⟩

theorem stamps_withStatus (status : TransactionStatus) (reason : Option String) :
    Stamps now (withStatus now status reason) status :=
  ⟨fun _ => rfl, fun _ => rfl, fun _ => rfl, fun _ => Int.le_refl _⟩

theorem stamps_withRetry (reason : String) (nextRetryAt : Nat) :
    Stamps now (withRetry now reason nextRetryAt) .pending :=
  ⟨fun _ => rfl, fun _ => rfl, fun _ => rfl, fun _ => Int.le_refl _⟩

theorem stamps_withTerminalFailure (reason : String) :
    Stamps now (withTerminalFailure now reason) .failed :=
  ⟨fun _ => rfl, fun _ => rfl, fun _ => rfl, fun _ => Int.le_refl _⟩

end TransactionRepository

end RailsCore
