import RailsCore.Ledger

/-!
# LedgerPoster

`LedgerPoster#call` of the ledger service and the methods it is made of, each
under its own name. `call` is the whole method on one session; `statement`
cuts the same method at its database statements, one program point at a time.
The audit event after the commit and the logging change no table and are left
out.
-/

namespace RailsCore

/-- Ruby's `strip` removes these at both ends. -/
def isStripped (c : Char) : Bool :=
  c.val = 0 || c.val = 9 || c.val = 10 || c.val = 11 || c.val = 12 || c.val = 13 || c.val = 32

/-- Unicode white space, which `blank?` skips. -/
def isBlankChar (c : Char) : Bool :=
  (9 ≤ c.val && c.val ≤ 13) || c.val = 0x20 || c.val = 0x85 || c.val = 0xA0 || c.val = 0x1680 ||
    (0x2000 ≤ c.val && c.val ≤ 0x200A) || c.val = 0x2028 || c.val = 0x2029 || c.val = 0x202F ||
    c.val = 0x205F || c.val = 0x3000

def strip (l : List Char) : List Char :=
  ((l.dropWhile isStripped).reverse.dropWhile isStripped).reverse

/-- Full upper case of one character, exact wherever the result is ASCII; a
character whose upper case is not ASCII stays as it is. -/
def upcaseChar (c : Char) : List Char :=
  if c.val = 0xDF then ['S', 'S']
  else if c.val = 0x131 then ['I']
  else if c.val = 0x17F then ['S']
  else if c.val = 0xFB00 then ['F', 'F']
  else if c.val = 0xFB01 then ['F', 'I']
  else if c.val = 0xFB02 then ['F', 'L']
  else if c.val = 0xFB03 then ['F', 'F', 'I']
  else if c.val = 0xFB04 then ['F', 'F', 'L']
  else if c.val = 0xFB05 then ['S', 'T']
  else if c.val = 0xFB06 then ['S', 'T']
  else [c.toUpper]

/-- `strip.upcase`. -/
def stripUpcase (s : String) : String :=
  String.ofList ((strip s.toList).flatMap upcaseChar)

def isBlank (s : String) : Bool := s.toList.all isBlankChar

/-- The pattern `\A[A-Z]{3}\z`. -/
def isCurrencyCode (s : String) : Bool :=
  s.toList.length = 3 && s.toList.all (fun c => 'A'.val ≤ c.val && c.val ≤ 'Z'.val)

def startsWithSystem (s : String) : Bool := "SYSTEM_".toList.isPrefixOf s.toList

/-- The keyword arguments of `LedgerPoster.new`; `is_deposit` is set by
`post_deposit` only. -/
structure PostArguments where
  organizationId : Uuid
  environment : String
  sourceExternalAccountId : String
  destinationExternalAccountId : String
  amount : Int
  currency : String
  externalTransactionId : Uuid
  idempotencyKey : String
  isDeposit : Bool
deriving DecidableEq, Repr

/-- `LedgerPoster.post` passes its arguments on. -/
def PostArguments.post (args : PostArguments) : PostArguments := { args with isDeposit := false }

/-- `LedgerPoster.post_deposit` fixes the source account. -/
def PostArguments.postDeposit (args : PostArguments) : PostArguments :=
  { args with sourceExternalAccountId := systemCashControl, isDeposit := true }

/-- A poster whose arguments have passed `validate_inputs!`. -/
structure LedgerPoster where
  organizationId : Uuid
  environment : Environment
  sourceExternalAccountId : String
  destinationExternalAccountId : String
  amount : Int
  currency : String
  externalTransactionId : Uuid
  idempotencyKey : String
  isDeposit : Bool
  amountPositive : 0 < amount
  currencyCode : isCurrencyCode currency = true
deriving DecidableEq, Repr

def environmentOfString (s : String) : Option Environment :=
  if s = "sandbox" then some .sandbox else if s = "production" then some .production else none

/-- `initialize` followed by `validate_inputs!`. -/
def validateInputs (args : PostArguments) : Except PostingError LedgerPoster :=
  let currency := stripUpcase args.currency
  if amountPositive : 0 < args.amount then
    match environmentOfString args.environment with
    | none => .error ⟨"Invalid environment"⟩
    | some environment =>
      if isBlank currency then .error ⟨"Currency is required"⟩
      else if currencyCode : isCurrencyCode currency = true then
        .ok { args with environment, currency, amountPositive, currencyCode }
      else .error ⟨"Currency must be a 3-letter ISO code"⟩
  else .error ⟨"Amount must be positive"⟩

/-- An accepted argument list is the poster with its environment parsed and its
currency in upper case. -/
theorem validateInputs_ok {args : PostArguments} {p : LedgerPoster}
    (h : validateInputs args = .ok p) :
    environmentOfString args.environment = some p.environment ∧
      p.currency = stripUpcase args.currency ∧ p.organizationId = args.organizationId ∧
      p.sourceExternalAccountId = args.sourceExternalAccountId ∧
      p.destinationExternalAccountId = args.destinationExternalAccountId ∧
      p.amount = args.amount ∧ p.externalTransactionId = args.externalTransactionId ∧
      p.idempotencyKey = args.idempotencyKey ∧ p.isDeposit = args.isDeposit := by
  rw [validateInputs] at h
  by_cases amountPositive : 0 < args.amount
  · cases parsed : environmentOfString args.environment with
    | none => simp [amountPositive, parsed] at h
    | some environment =>
      by_cases blank : isBlank (stripUpcase args.currency) = true
      · simp [amountPositive, parsed, blank] at h
      by_cases currencyCode : isCurrencyCode (stripUpcase args.currency) = true
      · simp only [amountPositive, parsed, blank, currencyCode, dif_pos, if_false,
          Bool.false_eq_true, Except.ok.injEq] at h
        subst h
        exact ⟨rfl, rfl, rfl, rfl, rfl, rfl, rfl, rfl, rfl⟩
      · simp [amountPositive, parsed, blank, currencyCode] at h
  · simp [amountPositive] at h

inductive LedgerOperation where
  | deposit
  | withdraw
  | transfer
deriving DecidableEq, Repr

inductive Side where
  | source
  | destination
deriving DecidableEq, Repr

inductive Change where
  | increase
  | decrease
deriving DecidableEq, Repr

def detectOperation (source destination : LedgerAccount) : LedgerOperation :=
  let sourceIsCash := source.id.externalAccountId = systemCashControl
  let destIsCash := destination.id.externalAccountId = systemCashControl
  if sourceIsCash ∧ ¬ destIsCash then .deposit
  else if destIsCash ∧ ¬ sourceIsCash then .withdraw
  else .transfer

def accountChangeFor (operation : LedgerOperation) (side : Side) : Change :=
  match operation with
  | .transfer => if side = .source then .decrease else .increase
  | .deposit => .increase
  | .withdraw => .decrease

/-- Debit for assets and expenses, credit for the other types. -/
def normalBalance : AccountType → EntryType
  | .asset | .expense => .debit
  | .liability | .equity | .income => .credit

def entryTypeFor (accountType : AccountType) (change : Change) : EntryType :=
  match change with
  | .increase => if normalBalance accountType = .debit then .debit else .credit
  | .decrease => if normalBalance accountType = .debit then .credit else .debit

/-- A debit raises the signed balance, a credit lowers it. -/
def signedAmount (entryType : EntryType) (amount : Int) : Int :=
  match entryType with
  | .debit => amount
  | .credit => -amount

/-- Both resolved accounts with the entry type applied to each. -/
structure Legs where
  source : LedgerAccount
  destination : LedgerAccount
  sourceEntryType : EntryType
  destinationEntryType : EntryType
deriving DecidableEq, Repr

/-- The range of a signed 64-bit column. -/
def InBigint (n : Int) : Prop := -2 ^ 63 ≤ n ∧ n < 2 ^ 63

instance (n : Int) : Decidable (InBigint n) := inferInstanceAs (Decidable (_ ∧ _))

namespace LedgerPoster
open PosterM

variable (p : LedgerPoster)

def key : IdempotencyKey := ⟨p.organizationId, some p.environment, p.idempotencyKey⟩

def accountId (externalAccountId : String) : LedgerAccountId :=
  ⟨p.organizationId, p.environment, externalAccountId, p.currency⟩

def sourceId : LedgerAccountId := p.accountId p.sourceExternalAccountId

def destinationId : LedgerAccountId := p.accountId p.destinationExternalAccountId

def determineSourceAccountType : AccountType :=
  if p.isDeposit || startsWithSystem p.sourceExternalAccountId then .asset else .liability

def determineDestinationAccountType : AccountType :=
  if startsWithSystem p.destinationExternalAccountId then
    if p.destinationExternalAccountId = systemCashControl ∨
        p.destinationExternalAccountId = "SYSTEM_BANK_CLEARING" then .asset
    else if p.destinationExternalAccountId = "SYSTEM_FEE_INCOME" then .income
    else .asset
  else .liability

def newTransaction : LedgerTransaction :=
  ⟨p.organizationId, p.environment, p.externalTransactionId, .pending, p.idempotencyKey, none⟩

/-- `LedgerTransaction.create!`, refused by its validations or by the unique
index on the key. -/
def createLedgerTransaction : PosterM Unit := do
  if isBlank p.idempotencyKey then raise "Validation failed: Idempotency key can't be blank"
  else
    match ← select (fun db => db.transaction p.key) with
    | some _ => raise "duplicate key value violates unique constraint"
    | none => write (.insertTransaction p.newTransaction)

/-- `LedgerAccount.resolve`, a `find_or_create_by!`: the account type counts
only where the row is created. -/
def resolveLedgerAccount (id : LedgerAccountId) (accountType : AccountType) :
    PosterM LedgerAccount := do
  match ← select (fun db => db.account id) with
  | some account => pure account
  | none =>
    if isBlank id.externalAccountId then raise "Validation failed: External account can't be blank"
    else
      write (.insertAccount ⟨id, accountType⟩)
      pure ⟨id, accountType⟩

def validateAccountTypes (source destination : LedgerAccount) : PosterM Unit :=
  if source.id = destination.id ∧ ¬ p.isDeposit then raise "Self-transfers are not allowed"
  else pure ()

def legs (source destination : LedgerAccount) : Legs :=
  let operation := detectOperation source destination
  ⟨source, destination, entryTypeFor source.accountType (accountChangeFor operation .source),
    entryTypeFor destination.accountType (accountChangeFor operation .destination)⟩

def entry (account : LedgerAccount) (entryType : EntryType) : LedgerEntry :=
  ⟨account.id, p.key, entryType, p.amount, p.currency⟩

def sourceEntry (l : Legs) : LedgerEntry := p.entry l.source l.sourceEntryType

def destinationEntry (l : Legs) : LedgerEntry := p.entry l.destination l.destinationEntryType

/-- The column of an amount is a bigint; both entries have the same one. -/
def validateAmountColumn : PosterM Unit :=
  if InBigint p.amount then pure () else raise "amount is out of range"

def createDoubleEntry (source destination : LedgerAccount) : PosterM Legs := do
  let l := legs source destination
  p.validateAmountColumn
  write (.insertEntry (p.sourceEntry l))
  write (.insertEntry (p.destinationEntry l))
  pure l

/-- The `save!` of `update_balance!`: `found` is the balance it read, `none`
when the record is new. A new record is an insert, refused where a row has
appeared since; an existing one is overwritten with the sum computed from
what was read. -/
def saveBalance (account : LedgerAccount) (entryType : EntryType) (found : Option Int) :
    PosterM Unit := do
  let newBalance := found.getD 0 + signedAmount entryType p.amount
  if ¬ InBigint newBalance then raise "balance_cents is out of range"
  else
    match found, ← select (fun db => db.balance account.id) with
    | none, some _ => raise "duplicate key value violates unique constraint"
    | _, _ => write (.saveBalance ⟨account.id, newBalance, p.currency⟩)

def updateBalance (account : LedgerAccount) (entryType : EntryType) : PosterM Unit := do
  let found ← select (fun db => db.balance account.id)
  p.saveBalance account entryType found

def updateBalances (l : Legs) : PosterM Unit := do
  p.updateBalance l.source l.sourceEntryType
  p.updateBalance l.destination l.destinationEntryType

def markAsPosted : PosterM Unit := write (.markPosted p.key)

/-- What `call` and `complete_posting_for_existing!` both do once the row is there. -/
def postEntries : PosterM Unit := do
  let source ← resolveLedgerAccount p.sourceId p.determineSourceAccountType
  let destination ← resolveLedgerAccount p.destinationId p.determineDestinationAccountType
  p.validateAccountTypes source destination
  let l ← p.createDoubleEntry source destination
  p.updateBalances l
  p.markAsPosted

/-- No transaction is opened here: each statement commits on its own. -/
def completePostingForExisting : PosterM Unit := do
  if (← select (fun db => db.entriesOf p.key)) ≠ [] then
    raise "Transaction already exists with partial state; manual intervention required"
  else p.postEntries

def existingResult (existing : LedgerTransaction) : PosterM Unit :=
  if existing.status = .posted then pure () else p.completePostingForExisting

/-- `call` after `validate_inputs!`; the transaction it returns is the one with its key. -/
def call : PosterM Unit := do
  match ← select (fun db => db.transaction p.key) with
  | some existing => p.existingResult existing
  | none =>
    transaction do
      p.createLedgerTransaction
      p.postEntries

/-- A transaction row that `create!` inserts is the first with its key. -/
theorem create_ok {p : LedgerPoster} {db : Ledger} {u : Unit} {ws : List Write}
    (run : p.createLedgerTransaction db = (.ok u, ws)) :
    db.transaction p.key = none ∧ ws = [.insertTransaction p.newTransaction] := by
  rw [createLedgerTransaction] at run
  split_ifs at run with blank
  · simp at run
  rw [PosterM.bind_read (PosterM.select_run _ _)] at run
  cases fresh : db.transaction p.key with
  | some t => simp [fresh] at run
  | none => exact ⟨rfl, by simpa [fresh, eq_comm] using run⟩

theorem resolve_found {id : LedgerAccountId} {accountType : AccountType} {db : Ledger}
    {account : LedgerAccount} (found : db.account id = some account) :
    resolveLedgerAccount id accountType db = (.ok account, []) := by
  rw [resolveLedgerAccount, PosterM.bind_read (PosterM.select_run _ _)]
  simp only [found, PosterM.pure_run]

theorem resolve_missing {id : LedgerAccountId} {accountType : AccountType} {db : Ledger}
    {account : LedgerAccount} {ws : List Write} (missing : db.account id = none)
    (run : resolveLedgerAccount id accountType db = (.ok account, ws)) :
    account = ⟨id, accountType⟩ ∧ ws = [.insertAccount ⟨id, accountType⟩] := by
  rw [resolveLedgerAccount, PosterM.bind_read (PosterM.select_run _ _)] at run
  simp only [missing] at run
  split_ifs at run with blank
  · simp at run
  · simpa [PosterM.bind_run, eq_comm] using run

end LedgerPoster

/-- `new(...).call` run on its own from `db`: the tables afterwards and what it raised. -/
def LedgerPoster.newCall (db : Ledger) (args : PostArguments) : Ledger × Except PostingError Unit :=
  match validateInputs args with
  | .error e => (db, .error e)
  | .ok p => (db.applyAll (p.call db).2, (p.call db).1)

/-- A client call of the class: `post` or `post_deposit`. -/
inductive PostCall where
  | post (args : PostArguments)
  | postDeposit (args : PostArguments)
deriving DecidableEq, Repr

def PostCall.arguments : PostCall → PostArguments
  | .post args => args.post
  | .postDeposit args => args.postDeposit

def PostCall.run (db : Ledger) (c : PostCall) : Ledger × Except PostingError Unit :=
  LedgerPoster.newCall db c.arguments

/-- The ledger that a history of calls, one after another, leaves behind. -/
def ledgerAfter (history : List PostCall) : Ledger :=
  history.foldl (fun db c => (c.run db).1) Ledger.empty

end RailsCore
