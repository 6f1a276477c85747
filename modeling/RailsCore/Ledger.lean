import Mathlib.Data.List.Induction
import RailsCore.Model
import RailsCore.Table

/-!
# Ledger tables and the statements that write them

A `LedgerAccount` row and its generated id determine each other through the
unique index on (organization, environment, external account, currency), so
these four columns stand for the id; likewise a `LedgerTransaction` is
referred to by the columns of its unique index. Statements read the rows they
can see and return the writes they make, so the same statement serves a run
on its own and a run interleaved with other sessions.
-/

namespace RailsCore

inductive AccountType where
  | asset
  | liability
  | equity
  | income
  | expense
deriving DecidableEq, Repr

inductive EntryType where
  | debit
  | credit
deriving DecidableEq, Repr

inductive LedgerStatus where
  | pending
  | posted
  | failed
deriving DecidableEq, Repr

structure LedgerAccountId where
  organizationId : Uuid
  environment : Environment
  externalAccountId : String
  currency : String
deriving DecidableEq, Repr

structure LedgerAccount where
  id : LedgerAccountId
  accountType : AccountType
deriving DecidableEq, Repr

structure LedgerTransaction where
  organizationId : Uuid
  environment : Environment
  externalTransactionId : Uuid
  status : LedgerStatus
  idempotencyKey : String
  failureReason : Option String
deriving DecidableEq, Repr

def LedgerTransaction.key (t : LedgerTransaction) : IdempotencyKey :=
  ⟨t.organizationId, some t.environment, t.idempotencyKey⟩

structure LedgerEntry where
  ledgerAccountId : LedgerAccountId
  transactionId : IdempotencyKey
  entryType : EntryType
  amount : Int
  currency : String
deriving DecidableEq, Repr

structure AccountBalance where
  ledgerAccountId : LedgerAccountId
  balanceCents : Int
  currency : String
deriving DecidableEq, Repr

/-- The four tables of the ledger database. -/
structure Ledger where
  transactions : List LedgerTransaction
  accounts : List LedgerAccount
  entries : List LedgerEntry
  balances : List AccountBalance
deriving DecidableEq, Repr

inductive Write where
  | insertTransaction (t : LedgerTransaction)
  | insertAccount (a : LedgerAccount)
  | insertEntry (e : LedgerEntry)
  | saveBalance (b : AccountBalance)
  | markPosted (key : IdempotencyKey)
deriving DecidableEq, Repr

namespace Ledger

def empty : Ledger := ⟨[], [], [], []⟩

def transaction (db : Ledger) (key : IdempotencyKey) : Option LedgerTransaction :=
  Table.find LedgerTransaction.key key db.transactions

def account (db : Ledger) (id : LedgerAccountId) : Option LedgerAccount :=
  Table.find LedgerAccount.id id db.accounts

def balance (db : Ledger) (id : LedgerAccountId) : Option Int :=
  (Table.find AccountBalance.ledgerAccountId id db.balances).map AccountBalance.balanceCents

/-- `AccountBalance.get_balance`: an account without a balance row has 0. -/
def getBalance (db : Ledger) (id : LedgerAccountId) : Int := (db.balance id).getD 0

def entriesOf (db : Ledger) (key : IdempotencyKey) : List LedgerEntry :=
  db.entries.filter (fun e => e.transactionId = key)

def apply (db : Ledger) : Write → Ledger
  | .insertTransaction t => { db with transactions := db.transactions ++ [t] }
  | .insertAccount a => { db with accounts := db.accounts ++ [a] }
  | .insertEntry e => { db with entries := db.entries ++ [e] }
  | .saveBalance b =>
    { db with balances := Table.upsert AccountBalance.ledgerAccountId b db.balances }
  | .markPosted key =>
    { db with
      transactions := Table.updateWhere (fun t => t.key = key)
        (fun t => { t with status := .posted, failureReason := none }) db.transactions }

def applyAll (db : Ledger) (writes : List Write) : Ledger := writes.foldl apply db

@[simp] theorem applyAll_nil (db : Ledger) : db.applyAll [] = db := rfl

@[simp] theorem applyAll_cons (db : Ledger) (w : Write) (ws : List Write) :
    db.applyAll (w :: ws) = (db.apply w).applyAll ws := rfl

theorem applyAll_append (db : Ledger) (ws vs : List Write) :
    db.applyAll (ws ++ vs) = (db.applyAll ws).applyAll vs := List.foldl_append

theorem balance_saveBalance (db : Ledger) (b : AccountBalance) (id : LedgerAccountId) :
    (db.apply (.saveBalance b)).balance id =
      if id = b.ledgerAccountId then some b.balanceCents else db.balance id := by
  simp only [balance, apply, Table.find_upsert]
  split <;> rfl

/-- The tables that the writes fill when they are all there is. -/
def ofWrites (writes : List Write) : Ledger := empty.applyAll writes

theorem applyAll_concat (db : Ledger) (ws : List Write) (w : Write) :
    db.applyAll (ws ++ [w]) = (db.applyAll ws).apply w := by
  rw [applyAll_append, applyAll_cons, applyAll_nil]

theorem ofWrites_concat (ws : List Write) (w : Write) :
    ofWrites (ws ++ [w]) = (ofWrites ws).apply w := applyAll_concat empty ws w

theorem accounts_applyAll (db : Ledger) (ws : List Write) :
    (db.applyAll ws).accounts = db.accounts ++ (ofWrites ws).accounts := by
  induction ws using List.reverseRecOn with
  | nil => simp [ofWrites, empty]
  | append_singleton ws w ih =>
    rw [applyAll_concat, ofWrites_concat]
    cases w <;> simp [apply, ih]

theorem entries_applyAll (db : Ledger) (ws : List Write) :
    (db.applyAll ws).entries = db.entries ++ (ofWrites ws).entries := by
  induction ws using List.reverseRecOn with
  | nil => simp [ofWrites, empty]
  | append_singleton ws w ih =>
    rw [applyAll_concat, ofWrites_concat]
    cases w <;> simp [apply, ih]

theorem balance_apply (db : Ledger) (w : Write) (id : LedgerAccountId) :
    (db.apply w).balance id = match w with
      | .saveBalance b => if id = b.ledgerAccountId then some b.balanceCents else db.balance id
      | _ => db.balance id := by
  cases w with
  | saveBalance b => exact balance_saveBalance db b id
  | _ => rfl

theorem balance_applyAll (db : Ledger) (ws : List Write) (id : LedgerAccountId) :
    (db.applyAll ws).balance id = ((ofWrites ws).balance id).or (db.balance id) := by
  induction ws using List.reverseRecOn with
  | nil => rfl
  | append_singleton ws w ih =>
    rw [applyAll_concat, ofWrites_concat, balance_apply, balance_apply, ih]
    cases w with
    | saveBalance b =>
      by_cases same : id = b.ledgerAccountId <;> simp [same]
    | _ => rfl

/-- The writes do not mark a committed row. -/
theorem transactions_applyAll {db : Ledger} {ws : List Write}
    (unmarked : ∀ key, .markPosted key ∈ ws → db.transaction key = none) :
    (db.applyAll ws).transactions = db.transactions ++ (ofWrites ws).transactions := by
  induction ws using List.reverseRecOn with
  | nil => simp [ofWrites, empty]
  | append_singleton ws w ih =>
    have earlier := ih (fun key marked => unmarked key (List.mem_append_left _ marked))
    rw [applyAll_concat, ofWrites_concat]
    cases w with
    | markPosted key =>
      have absent := Table.find_none_iff.mp (unmarked key (by simp))
      simp only [apply, earlier, Table.updateWhere, List.map_append]
      refine congrArg (· ++ _) ((List.map_congr_left (fun t ht => ?_)).trans (List.map_id _))
      simp [absent t ht]
    | _ => simp [apply, earlier]

theorem account_applyAll (db : Ledger) (ws : List Write) (id : LedgerAccountId) :
    (db.applyAll ws).account id = (db.account id).or ((ofWrites ws).account id) := by
  simp only [account, accounts_applyAll, Table.find, List.find?_append]

end Ledger

/-- What `call` reports when it raises: every exception leaves it as a
`PostingError` with the message of its cause. -/
structure PostingError where
  message : String
deriving DecidableEq, Repr

/-- A piece of `LedgerPoster#call`: from the rows it sees, its result and its writes. -/
def PosterM (α : Type) : Type := Ledger → Except PostingError α × List Write

namespace PosterM

instance : Monad PosterM where
  pure a := fun _ => (.ok a, [])
  bind m f := fun db => match m db with
    | (.error e, ws) => (.error e, ws)
    | (.ok a, ws) => ((f a (db.applyAll ws)).1, ws ++ (f a (db.applyAll ws)).2)

def select {α : Type} (query : Ledger → α) : PosterM α := fun db => (.ok (query db), [])

def write (w : Write) : PosterM Unit := fun _ => (.ok (), [w])

def raise {α : Type} (message : String) : PosterM α := fun _ => (.error ⟨message⟩, [])

/-- `transaction do ... end`: an exception leaves no write behind. -/
def transaction {α : Type} (m : PosterM α) : PosterM α := fun db => match m db with
  | (.error e, _) => (.error e, [])
  | (.ok a, ws) => (.ok a, ws)

@[simp] theorem pure_run {α : Type} (a : α) (db : Ledger) :
    (pure a : PosterM α) db = (.ok a, []) := rfl

@[simp] theorem select_run {α : Type} (query : Ledger → α) (db : Ledger) :
    select query db = (.ok (query db), []) := rfl

@[simp] theorem write_run (w : Write) (db : Ledger) : write w db = (.ok (), [w]) := rfl

@[simp] theorem raise_run {α : Type} (message : String) (db : Ledger) :
    (raise message : PosterM α) db = (.error ⟨message⟩, []) := rfl

theorem bind_run {α β : Type} (m : PosterM α) (f : α → PosterM β) (db : Ledger) :
    (m >>= f) db = match m db with
    | (.error e, ws) => (.error e, ws)
    | (.ok a, ws) => ((f a (db.applyAll ws)).1, ws ++ (f a (db.applyAll ws)).2) := rfl

theorem bind_pure_run {α : Type} (m : PosterM α) : (m >>= pure) = m := by
  funext db
  rw [bind_run]
  rcases m db with ⟨_ | a, ws⟩
  · rfl
  · simp

theorem bind_bind_run {α β γ : Type} (m : PosterM α) (f : α → PosterM β) (g : β → PosterM γ) :
    (m >>= f >>= g) = (m >>= fun a => f a >>= g) := by
  funext db
  simp only [bind_run]
  rcases m db with ⟨_ | a, ws⟩
  · rfl
  · rcases h : f a (db.applyAll ws) with ⟨_ | b, vs⟩
    · simp [h]
    · simp [h, Ledger.applyAll_append]

instance : LawfulMonad PosterM :=
  LawfulMonad.mk' PosterM bind_pure_run (fun _ _ => rfl) bind_bind_run

@[simp] theorem raise_bind {α β : Type} (message : String) (f : α → PosterM β) :
    (raise message >>= f) = raise message := rfl

theorem bind_read {α β : Type} {m : PosterM α} {f : α → PosterM β} {db : Ledger} {a : α}
    (h : m db = (.ok a, [])) : (m >>= f) db = f a db := by
  simp only [bind_run, h, Ledger.applyAll_nil, List.nil_append]

/-- A sequence that ends without raising is made of two that do. -/
theorem bind_eq_ok {α β : Type} {m : PosterM α} {f : α → PosterM β} {db : Ledger} {b : β}
    {ws : List Write} (h : (m >>= f) db = (.ok b, ws)) :
    ∃ a vs us, m db = (.ok a, vs) ∧ f a (db.applyAll vs) = (.ok b, us) ∧ ws = vs ++ us := by
  rw [bind_run] at h
  rcases hm : m db with ⟨e | a, vs⟩
  · simp [hm] at h
  · simp only [hm, Prod.mk.injEq] at h
    exact ⟨a, vs, _, rfl, Prod.ext h.1 rfl, h.2.symm⟩

end PosterM

end RailsCore
