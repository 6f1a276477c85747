import RailsCore.AccountService

/-!
# The retry worker

One poll reclaims stale rows, claims a batch and posts its rows one after
another; the message of a post is built from the row alone. A worker can crash
at any point, and a status write whose error the code ignores can be lost.
-/

namespace RailsCore

/-- The intervals and limits that the services read from their environment. -/
structure Settings where
  stalePostingSecs : Int
  maxPendingAgeSecs : Int
  retryMaxAttempts : Int
  retryBaseDelayMs : Nat
  retryMaxDelayMs : Nat
  ledgerDefaultCurrency : String
deriving DecidableEq, Repr

/-- The values where no environment variable is set. -/
def Settings.fromEnv : Settings := ⟨600, 3600, 8, 500, 300000, "USD"⟩

/-- The lease of a claim. -/
def Settings.leaseMs (settings : Settings) : Nat := intervalMs settings.stalePostingSecs

def computeRetryDelayMs (attempt : Int) (baseMs maxMs : Nat) : Nat :=
  let safeMax := max maxMs baseMs
  let exp := min (max attempt 1 - 1) 16
  min (baseMs * 2 ^ exp.toNat) safeMax

inductive WorkerStage where
  | idle
  | claiming
  | working
  | awaiting (call sentAt : Nat)
  | settle (result : Except AppError Unit)
deriving DecidableEq, Repr

/-- `batch` holds the claimed rows as they were returned, the current one first. -/
structure Worker where
  stage : WorkerStage
  batch : List Transaction
deriving DecidableEq, Repr

inductive WorkerInput where
  | go
  | claimed (ids : List Uuid)
  | reply (answer : Except AppError Unit)
  | writeLost
  | crash
deriving DecidableEq, Repr

namespace TransactionRetry
open TransactionRepository

/-- The environment of a row, or of its account for a row that has none. -/
def resolveEnvironment (accounts : List Account) (tx : Transaction) :
    Except AppError Environment :=
  match tx.environment with
  | some environment => .ok environment
  | none =>
    match AccountRepository.findById accounts tx.fromAccountId .sandbox with
    | .ok account => .ok (account.environment.getD .sandbox)
    | .error _ =>
      match AccountRepository.findById accounts tx.fromAccountId .production with
      | .ok account => .ok (account.environment.getD .sandbox)
      | .error e => .error e

def sourceExternal (tx : Transaction) : String :=
  match tx.transactionKind with
  | .transfer | .withdraw => tx.fromAccountId.toString
  | .deposit => systemCashControl

def destExternal (tx : Transaction) : String :=
  match tx.transactionKind with
  | .transfer | .deposit => tx.toAccountId.toString
  | .withdraw => systemCashControl

/-- The message of a retry: all of it comes from the row. -/
def postRequest (environment : Environment) (tx : Transaction) : PostTransactionRequest where
  organizationId := tx.organizationId
  environment := environment
  sourceExternalAccountId := sourceExternal tx
  destinationExternalAccountId := destExternal tx
  amount := tx.amount
  currency := tx.currency
  externalTransactionId := tx.id
  idempotencyKey := tx.idempotencyKey
  correlationId := tx.id.toString

end TransactionRetry

namespace Worker
open TransactionRepository TransactionRetry

def idle : Worker := ⟨.idle, []⟩

/-- The worker turns to a batch, or sleeps when it is empty. -/
def on (batch : List Transaction) : Worker := ⟨if batch = [] then .idle else .working, batch⟩

/-- The status write after a post. -/
def settled (settings : Settings) (now : Nat) (tx : Transaction) (result : Except AppError Unit)
    (rows : List Transaction) : List Transaction :=
  match result with
  | .ok () => updateStatus now tx.id .posted none rows
  | .error e =>
    if settings.retryMaxAttempts ≤ tx.retryCount then markTerminalFailure now tx.id e.display rows
    else
      let delayMs := computeRetryDelayMs tx.retryCount settings.retryBaseDelayMs
        settings.retryMaxDelayMs
      scheduleRetry now tx.id e.display (now + delayMs) rows

/-- One step of a worker: the rows, the worker after it, and the message it sends. -/
def next (settings : Settings) (now call : Nat) (accounts : List Account)
    (rows : List Transaction) (w : Worker) (input : WorkerInput) :
    Option (List Transaction × Worker × Option PostTransactionRequest) :=
  match w.stage, w.batch, input with
  | _, _, .crash => some (rows, idle, none)
  | .idle, _, .go =>
    some (reclaimStalePostingRows now settings.stalePostingSecs rows, ⟨.claiming, []⟩, none)
  | .claiming, _, .claimed ids =>
    (claimPendingTransactions now 2 200 ids rows).map (fun claim => (claim.1, on claim.2, none))
  | .working, tx :: rest, .go =>
    match resolveEnvironment accounts tx with
    | .ok environment =>
      some (rows, ⟨.awaiting call now, tx :: rest⟩, some (TransactionRetry.postRequest environment tx))
    | .error _ =>
      some (updateStatus now tx.id .pending
        (some "retry_worker: could not resolve account environment") rows, on rest, none)
  | .working, tx :: rest, .writeLost =>
    match resolveEnvironment accounts tx with
    | .ok _ => none
    | .error _ => some (rows, on rest, none)
  | .awaiting _ _, tx :: rest, .reply answer => some (rows, ⟨.settle answer, tx :: rest⟩, none)
  | .settle result, tx :: rest, .go => some (settled settings now tx result rows, on rest, none)
  | .settle _, _ :: rest, .writeLost => some (rows, on rest, none)
  | _, _, _ => none

end Worker

end RailsCore
