import Mathlib.Data.List.Sort
import RailsCore.AccountHistory

/-!
# Lists of transactions

`list_account_transactions` and `list_transactions`. Both show a balance after
each row, found by walking back from the ledger's current balance: over the
rows of one account, or over a page of an organization's rows with one running
balance for each account. The two queries of a page see the same rows here.
-/

namespace RailsCore

/-- The ledger's answer for an organization, an environment, an account and a currency. -/
abbrev BalanceQuery := Uuid → Environment → Uuid → String → Except AppError Int

/-- The balance as it is shown; 0 where the ledger does not answer. The least number of
64 bits has no negation in the source; `CheckedBalances` has the arithmetic of 64 bits. -/
def negateLedgerBalanceForDisplay (answer : Except AppError Int) : Int :=
  match answer with
  | .ok balance => -balance
  | .error _ => 0

structure AccountTransactionResponse where
  id : Uuid
  accountId : Uuid
  transactionType : String
  amount : Int
  balanceAfter : Int
  currency : String
  status : String
  createdAt : Nat
  updatedAt : Nat
  recipientAccountId : String
deriving DecidableEq, Repr

namespace AccountTransactionResponse

def build (tx : Transaction) (accountId : Uuid) (transactionType recipientAccountId : String)
    (balanceAfter : Int) : AccountTransactionResponse where
  id := tx.id
  accountId := accountId
  transactionType := transactionType
  amount := tx.amount
  balanceAfter := balanceAfter
  currency := tx.currency
  status := match tx.status with
    | .pending | .posting => "pending"
    | .posted => "completed"
    | .failed => "failed"
  createdAt := tx.createdAt
  updatedAt := tx.updatedAt
  recipientAccountId := recipientAccountId

/-- The row as one of its accounts sees it. -/
def fromTransaction (tx : Transaction) (forAccountId : Uuid) (balanceAfter : Int) :
    AccountTransactionResponse :=
  match tx.transactionKind with
  | .deposit => build tx forAccountId "deposit" "" balanceAfter
  | .withdraw => build tx forAccountId "withdrawal" "" balanceAfter
  | .transfer =>
    if tx.fromAccountId = forAccountId then
      build tx forAccountId "withdrawal" tx.toAccountId.toString balanceAfter
    else build tx forAccountId "deposit" tx.fromAccountId.toString balanceAfter

def forMutationResponse (tx : Transaction) (balanceAfter : Int) : AccountTransactionResponse :=
  match tx.transactionKind with
  | .deposit => build tx tx.fromAccountId "deposit" "" balanceAfter
  | .withdraw => build tx tx.fromAccountId "withdrawal" "" balanceAfter
  | .transfer => build tx tx.fromAccountId "transfer" tx.toAccountId.toString balanceAfter

end AccountTransactionResponse

structure PaginationMeta where
  page : UInt32
  perPage : UInt32
  totalCount : Nat
  totalPages : Nat
deriving DecidableEq, Repr

namespace TransactionRepository

/-- `ORDER BY created_at DESC`. -/
def NewerFirst (a b : Transaction) : Prop := b.createdAt ≤ a.createdAt

instance : DecidableRel NewerFirst := fun a b => inferInstanceAs (Decidable (b.createdAt ≤ a.createdAt))

/-- `ORDER BY created_at DESC, id DESC`. -/
def NewerThenIdFirst (a b : Transaction) : Prop :=
  b.createdAt < a.createdAt ∨ a.createdAt = b.createdAt ∧ b.id.bits.toNat ≤ a.id.bits.toNat

instance : DecidableRel NewerThenIdFirst := fun _ _ => inferInstanceAs (Decidable (_ ∨ _ ∧ _))

/-- The rows of an account, newest first. -/
def ofAccount (accountId : Uuid) (environment : Environment) (rows : List Transaction) :
    List Transaction :=
  ((rows.filter (fun r => r.Names accountId ∧ r.environment = some environment)).map
    Transaction.withoutRetryColumns).insertionSort NewerFirst

def findByAccountId (accountId : Uuid) (limit : Option Int) (environment : Environment)
    (rows : List Transaction) : Except AppError (List Transaction) :=
  let limit := limit.getD 100
  if limit < 0 then .error (.database "LIMIT must not be negative")
  else .ok ((ofAccount accountId environment rows).take limit.toNat)

/-- The rows of an organization, newest first. -/
def ofOrganization (organizationId : Uuid) (environment : Environment) (rows : List Transaction) :
    List Transaction :=
  ((rows.filter (fun r => r.organizationId = organizationId ∧ r.environment = some environment)).map
    Transaction.withoutRetryColumns).insertionSort NewerThenIdFirst

/-- The offset is computed in 32 bits, and wraps around. -/
def pageOffset (page perPage : UInt32) : Nat := ((page - 1) * perPage).toNat

def findByOrganizationIdPaginated (organizationId : Uuid) (environment : Environment)
    (page perPage : UInt32) (rows : List Transaction) : List Transaction × PaginationMeta :=
  let ordered := ofOrganization organizationId environment rows
  let totalCount := ordered.length
  let totalPages := min ((totalCount + (perPage.toNat - 1)) / perPage.toNat) (2 ^ 32 - 1)
  ((ordered.drop (pageOffset page perPage)).take perPage.toNat,
    { page, perPage, totalCount, totalPages })

end TransactionRepository

/-- The running balances of `list_transactions`. -/
abbrev BalanceCache := Uuid → Option Int

namespace BalanceCache

def empty : BalanceCache := fun _ => none

def insert (cache : BalanceCache) (accountId : Uuid) (balance : Int) : BalanceCache :=
  fun other => if other = accountId then some balance else cache other

/-- `*balance_cache.get(&account_id).unwrap_or(&0)`. -/
def read (cache : BalanceCache) (accountId : Uuid) : Int := (cache accountId).getD 0

end BalanceCache

namespace Handlers
open TransactionRepository AccountTransactionResponse

/-- The balance after each row of an account, from the current one. -/
def runningBalances (accountId : Uuid) : Int → List Transaction → List Int
  | _, [] => []
  | running, tx :: txs =>
    running :: runningBalances accountId (running - balanceDeltaForAccount tx accountId) txs

def listAccountTransactions (accounts : List Account) (ledger : BalanceQuery)
    (rows : List Transaction) (environment : Environment) (accountId : Uuid) (limit : Option Int) :
    Except AppError (List AccountTransactionResponse) := do
  let _ ← AccountRepository.findById accounts accountId environment
  let transactions ← findByAccountId accountId limit environment rows
  let currentBalance := match transactions.head? with
    | some tx => negateLedgerBalanceForDisplay
        (ledger tx.organizationId environment accountId tx.currency)
    | none => 0
  .ok (List.zipWith (fun tx balanceAfter => fromTransaction tx accountId balanceAfter) transactions
    (runningBalances accountId currentBalance transactions))

/-- The accounts of a page whose balances are fetched, each with the currency of its row. -/
def uniqueAccounts (transactions : List Transaction) : List (Uuid × String) :=
  (transactions.flatMap (fun tx => (tx.fromAccountId, tx.currency) ::
    if tx.transactionKind = .transfer then [(tx.toAccountId, tx.currency)] else [])).dedup

def fetchBalances (balance : Uuid → String → Int) :
    List (Uuid × String) → BalanceCache → BalanceCache
  | [], cache => cache
  | (accountId, currency) :: rest, cache =>
    if (cache accountId).isSome then fetchBalances balance rest cache
    else fetchBalances balance rest (cache.insert accountId (balance accountId currency))

/-- The cache after one row has been taken back. -/
def takeBack (cache : BalanceCache) (tx : Transaction) : BalanceCache :=
  let fromBa := cache.read tx.fromAccountId
  let cache := cache.insert tx.fromAccountId (fromBa - balanceDeltaForAccount tx tx.fromAccountId)
  if tx.transactionKind = .transfer then
    cache.insert tx.toAccountId
      (cache.read tx.toAccountId - balanceDeltaForAccount tx tx.toAccountId)
  else cache

/-- The balances after each row of a page: of its account, and of the other account of a transfer. -/
def pageBalances : BalanceCache → List Transaction → List (Int × Option Int)
  | _, [] => []
  | cache, tx :: txs =>
    (cache.read tx.fromAccountId,
      if tx.transactionKind = .transfer then some (cache.read tx.toAccountId) else none) ::
      pageBalances (takeBack cache tx) txs

/-- A transfer is shown once for each of its accounts. -/
def responses (tx : Transaction) (balances : Int × Option Int) : List AccountTransactionResponse :=
  match tx.transactionKind with
  | .transfer => fromTransaction tx tx.fromAccountId balances.1 ::
      (balances.2.map (fromTransaction tx tx.toAccountId)).toList
  | .deposit | .withdraw => [forMutationResponse tx balances.1]

/-- `iteration` is the order in which a hash set is read. -/
def listTransactions (ledger : BalanceQuery) (rows : List Transaction) (environment : Environment)
    (iteration : List (Uuid × String) → List (Uuid × String)) (organizationId : Option Uuid)
    (page perPage : Option UInt32) :
    Except AppError (List AccountTransactionResponse × PaginationMeta) :=
  match organizationId with
  | none => .error (.validation "organization_id query parameter is required")
  | some organizationId =>
    let page := max (page.getD 1) 1
    let perPage := min (max (perPage.getD 10) 1) 100
    let (transactions, pagination) :=
      findByOrganizationIdPaginated organizationId environment page perPage rows
    let cache := fetchBalances (fun accountId currency => negateLedgerBalanceForDisplay
      (ledger organizationId environment accountId currency))
      (iteration (uniqueAccounts transactions)) .empty
    .ok ((List.zipWith responses transactions (pageBalances cache transactions)).flatten, pagination)

end Handlers

end RailsCore
