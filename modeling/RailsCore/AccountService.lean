import RailsCore.TransactionRepository

/-!
# Money requests

The three services behind `deposit`, `withdraw` and `transfer`, cut at their
database statements and ledger calls. What the three do differently is a
`MoneyOperation`; the sequence of checks, the funds check, the stored intent,
the claim and the immediate post are common to them.
-/

namespace RailsCore

/-- One HTTP request; `kind` is the route, `idempotencyKey` the trimmed header,
and `toAccountId` is read by transfers only. -/
structure MoneyRequest where
  kind : TransactionKind
  accountId : Uuid
  toAccountId : Uuid
  environment : Environment
  amount : Int
  idempotencyKey : String
  correlationId : Option String
deriving DecidableEq, Repr

structure MoneyOperation where
  transactionKind : TransactionKind
  toAccountId : MoneyRequest → Uuid
  sourceExternalAccountId : MoneyRequest → String
  destinationExternalAccountId : MoneyRequest → String
  checksToAccount : Bool
  blocksOverdrafts : Bool

def depositWithIdempotency : MoneyOperation where
  transactionKind := .deposit
  toAccountId q := q.accountId
  sourceExternalAccountId _ := systemCashControl
  destinationExternalAccountId q := q.accountId.toString
  checksToAccount := false
  blocksOverdrafts := false

def withdrawWithIdempotency : MoneyOperation where
  transactionKind := .withdraw
  toAccountId q := q.accountId
  sourceExternalAccountId q := q.accountId.toString
  destinationExternalAccountId _ := systemCashControl
  checksToAccount := false
  blocksOverdrafts := true

def transferWithIdempotency : MoneyOperation where
  transactionKind := .transfer
  toAccountId q := q.toAccountId
  sourceExternalAccountId q := q.accountId.toString
  destinationExternalAccountId q := q.toAccountId.toString
  checksToAccount := true
  blocksOverdrafts := true

def MoneyRequest.operation (q : MoneyRequest) : MoneyOperation :=
  match q.kind with
  | .deposit => depositWithIdempotency
  | .withdraw => withdrawWithIdempotency
  | .transfer => transferWithIdempotency

@[simp] theorem transactionKind_operation (q : MoneyRequest) :
    q.operation.transactionKind = q.kind := by
  cases h : q.kind <;> simp [MoneyRequest.operation, h] <;> rfl

/-- The organization and currency of the account that is debited or credited. -/
structure MoneyContext where
  organizationId : Uuid
  currency : String
deriving DecidableEq, Repr

/-- Where a request stands: the statement or call it makes next, or its result. -/
inductive HandlerPoint where
  | start
  | findToAccount (fromAccount : Account)
  | findExisting (ctx : MoneyContext)
  | checkFunds (ctx : MoneyContext)
  | createOrGet (ctx : MoneyContext)
  | resolve (ctx : MoneyContext) (tx : Transaction)
  | reload (ctx : MoneyContext) (tx : Transaction)
  | post (ctx : MoneyContext) (tx : Transaction)
  | awaitingPost (ctx : MoneyContext) (tx : Transaction) (call sentAt : Nat)
  | settle (ctx : MoneyContext) (tx : Transaction) (result : Except AppError Unit)
  | done (result : Except AppError Transaction)
deriving DecidableEq, Repr

structure Handler where
  request : MoneyRequest
  point : HandlerPoint
deriving DecidableEq, Repr

/-- What a request waits for: nothing, the generated id of a row, or an answer. -/
inductive HandlerInput where
  | go
  | created (id : Uuid)
  | balance (answer : Except AppError Int)
  | reply (answer : Except AppError Unit)
  | fail (error : AppError)
deriving DecidableEq, Repr

namespace AccountRepository

def findById (accounts : List Account) (id : Uuid) (environment : Environment) :
    Except AppError Account :=
  match accounts.find? (fun a => a.id = id && a.environment = some environment) with
  | some account => .ok account
  | none => .error (.notFound ("Account with id " ++ id.toString ++ " not found in environment " ++
      match environment with
      | .sandbox => "sandbox"
      | .production => "production"))

end AccountRepository

namespace AccountService

/-- An account that is there and active. -/
def activeAccount (accounts : List Account) (id : Uuid) (environment : Environment) :
    Except AppError Account := do
  let account ← AccountRepository.findById accounts id environment
  if account.status = some .active then .ok account else .error .accountNotActive

def organizationOf (account : Account) : Except AppError Uuid :=
  match account.organizationId with
  | some organizationId => .ok organizationId
  | none => .error (.validation "organization_id is required")

def currencyOf (account : Account) : String := account.currency.getD "USD"

/-- A request goes on to its next point, or ends with the error. -/
def orEnd (next : Except AppError HandlerPoint) : HandlerPoint :=
  match next with
  | .ok point => point
  | .error e => .done (.error e)

def afterChecks (q : MoneyRequest) (ctx : MoneyContext) : HandlerPoint :=
  if q.operation.blocksOverdrafts then .findExisting ctx else .createOrGet ctx

/-- The checks up to the first account. -/
def start (q : MoneyRequest) (accounts : List Account) : Except AppError HandlerPoint := do
  if q.idempotencyKey = "" then
    .error (.validation "Idempotency-Key header is required")
  else if q.amount ≤ 0 then
    .error (.validation "Amount must be greater than zero")
  else
    let account ← activeAccount accounts q.accountId q.environment
    if q.operation.checksToAccount then .ok (.findToAccount account)
    else
      let organizationId ← organizationOf account
      .ok (afterChecks q ⟨organizationId, currencyOf account⟩)

/-- The checks of a transfer on its second account and on both together. -/
def checkToAccount (q : MoneyRequest) (fromAccount : Account) (accounts : List Account) :
    Except AppError HandlerPoint := do
  let toAccount ← activeAccount accounts q.toAccountId q.environment
  let fromOrg ← organizationOf fromAccount
  let toOrg ← organizationOf toAccount
  if fromOrg ≠ toOrg then
    .error (.validation "accounts must belong to the same organization")
  else if currencyOf fromAccount ≠ currencyOf toAccount then
    .error (.validation "currency must match both accounts")
  else .ok (afterChecks q ⟨fromOrg, currencyOf fromAccount⟩)

def keyOf (q : MoneyRequest) (ctx : MoneyContext) : IdempotencyKey :=
  ⟨ctx.organizationId, some q.environment, q.idempotencyKey⟩

/-- A row with the key that is `posted` or `posting` is the answer; any other
row skips the funds check. -/
def afterLookup (ctx : MoneyContext) (existing : Option Transaction) : HandlerPoint :=
  match existing with
  | some tx =>
    if tx.status = .posted ∨ tx.status = .posting then .done (.ok tx) else .createOrGet ctx
  | none => .checkFunds ctx

/-- The ledger holds a customer's money as a negative balance. -/
def afterFundsCheck (q : MoneyRequest) (ctx : MoneyContext) (answer : Except AppError Int) :
    Except AppError HandlerPoint := do
  let ledgerBalance ← answer
  let displayBalance := -ledgerBalance
  if displayBalance < q.amount then .error .insufficientFunds else .ok (.createOrGet ctx)

def newIntent (now : Nat) (id : Uuid) (q : MoneyRequest) (ctx : MoneyContext) : Transaction :=
  TransactionRepository.newRow now id ctx.organizationId q.accountId
    (q.operation.toAccountId q) q.amount ctx.currency q.operation.transactionKind
    q.idempotencyKey q.environment

/-- The message of the immediate post: all of it but the id comes from the request. -/
def postRequest (q : MoneyRequest) (ctx : MoneyContext) (tx : Transaction) :
    PostTransactionRequest where
  organizationId := ctx.organizationId
  environment := q.environment
  sourceExternalAccountId := q.operation.sourceExternalAccountId q
  destinationExternalAccountId := q.operation.destinationExternalAccountId q
  amount := q.amount
  currency := ctx.currency
  externalTransactionId := tx.id
  idempotencyKey := tx.idempotencyKey
  correlationId := q.correlationId.getD tx.id.toString

end AccountService

namespace Handler
open AccountService TransactionRepository

/-- `resolve_immediate_ledger_post` up to the claim. -/
def resolveImmediateLedgerPost (now : Nat) (ctx : MoneyContext) (tx : Transaction)
    (rows : List Transaction) : List Transaction × HandlerPoint :=
  match tx.status with
  | .posted | .posting | .failed => (rows, .done (.ok tx))
  | .pending =>
    match tryClaimPendingForPost now tx.id rows with
    | (rows', some claimed) => (rows', .post ctx claimed)
    | (rows', none) => (rows', .reload ctx tx)

/-- The status write that answers a request after its post. -/
def settled (now : Nat) (tx : Transaction) (result : Except AppError Unit)
    (rows : List Transaction) : List Transaction :=
  match result with
  | .ok () => updateStatus now tx.id .posted none rows
  | .error e => updateStatus now tx.id .pending (some e.display) rows

/-- One step of a request: the rows, its next point, and the message it sends.
`call` is the number that the next ledger call will get. -/
def next (now call : Nat) (accounts : List Account) (rows : List Transaction) (h : Handler)
    (input : HandlerInput) :
    Option (List Transaction × HandlerPoint × Option PostTransactionRequest) :=
  match h.point, input with
  | .done _, _ => none
  | _, .fail e => some (rows, .done (.error e), none)
  | .start, .go => some (rows, orEnd (start h.request accounts), none)
  | .findToAccount fromAccount, .go =>
    some (rows, orEnd (checkToAccount h.request fromAccount accounts), none)
  | .findExisting ctx, .go =>
    some (rows, afterLookup ctx (findByIdempotency (keyOf h.request ctx) rows), none)
  | .checkFunds ctx, .balance answer =>
    some (rows, orEnd (afterFundsCheck h.request ctx answer), none)
  | .createOrGet ctx, .created id =>
    match createOrGetByIdempotency (newIntent now id h.request ctx) rows with
    | .ok (rows', tx) => some (rows', .resolve ctx tx, none)
    | .error e => some (rows, .done (.error e), none)
  | .resolve ctx tx, .go =>
    let (rows', point) := resolveImmediateLedgerPost now ctx tx rows
    some (rows', point, none)
  | .reload _ tx, .go => some (rows, .done (findById tx.id rows), none)
  | .post ctx tx, .go =>
    some (rows, .awaitingPost ctx tx call now, some (postRequest h.request ctx tx))
  | .awaitingPost ctx tx _ _, .reply answer => some (rows, .settle ctx tx answer, none)
  | .settle _ tx result, .go =>
    let rows' := settled now tx result rows
    some (rows', .done (findById tx.id rows'), none)
  | _, _ => none

end Handler

/-- The row a request owns: claimed, and its status not yet written. -/
def HandlerPoint.held : HandlerPoint → Option Transaction
  | .post _ tx | .awaitingPost _ tx _ _ | .settle _ tx _ => some tx
  | _ => none

end RailsCore
