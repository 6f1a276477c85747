import RailsCore.LedgerPoster
import RailsCore.Machine

/-!
# Concurrent posts at READ COMMITTED

`LedgerPoster#call` cut at its database statements, and any number of such
calls interleaved statement by statement. A statement sees the committed rows
and the writes of its own open transaction. A write takes the row or the
unique index entry it touches, and a second session that needs it waits until
the first commits or rolls back; reads never wait. Nothing is assumed about
the order of sessions, and any open call may raise at any statement.
-/

namespace RailsCore

/-- Where a call stands: the statement it executes next, or how it ended. -/
inductive Point where
  | findExisting
  | createTransaction
  | checkEntries
  | resolveSource
  | resolveDestination (source : LedgerAccount)
  | insertSourceEntry (source destination : LedgerAccount)
  | insertDestinationEntry (legs : Legs)
  | findSourceBalance (legs : Legs)
  | saveSourceBalance (legs : Legs) (found : Option Int)
  | findDestinationBalance (legs : Legs)
  | saveDestinationBalance (legs : Legs) (found : Option Int)
  | markAsPosted (legs : Legs)
  | commit (legs : Legs)
  | returned
  | raised (error : PostingError)
deriving DecidableEq, Repr

namespace LedgerPoster
open PosterM

/-- The next statement of `call`, and the point after it. -/
def statement (p : LedgerPoster) : Point → PosterM Point
  | .findExisting => do
    match ← select (fun db => db.transaction p.key) with
    | some existing => pure (if existing.status = .posted then .returned else .checkEntries)
    | none => pure .createTransaction
  | .createTransaction => do
    p.createLedgerTransaction
    pure .resolveSource
  | .checkEntries => do
    if (← select (fun db => db.entriesOf p.key)) ≠ [] then
      raise "Transaction already exists with partial state; manual intervention required"
    else pure .resolveSource
  | .resolveSource => do
    let source ← resolveLedgerAccount p.sourceId p.determineSourceAccountType
    pure (.resolveDestination source)
  | .resolveDestination source => do
    let destination ← resolveLedgerAccount p.destinationId p.determineDestinationAccountType
    pure (.insertSourceEntry source destination)
  | .insertSourceEntry source destination => do
    p.validateAccountTypes source destination
    p.validateAmountColumn
    write (.insertEntry (p.sourceEntry (legs source destination)))
    pure (.insertDestinationEntry (legs source destination))
  | .insertDestinationEntry l => do
    write (.insertEntry (p.destinationEntry l))
    pure (.findSourceBalance l)
  | .findSourceBalance l => do
    let found ← select (fun db => db.balance l.source.id)
    pure (.saveSourceBalance l found)
  | .saveSourceBalance l found => do
    p.saveBalance l.source l.sourceEntryType found
    pure (.findDestinationBalance l)
  | .findDestinationBalance l => do
    let found ← select (fun db => db.balance l.destination.id)
    pure (.saveDestinationBalance l found)
  | .saveDestinationBalance l found => do
    p.saveBalance l.destination l.destinationEntryType found
    pure (.markAsPosted l)
  | .markAsPosted l => do
    p.markAsPosted
    pure (.commit l)
  | .commit _ => pure .returned
  | .returned => pure .returned
  | .raised e => pure (.raised e)

/-- The statements from a point on, one after another, at most `n` of them. -/
def resume (p : LedgerPoster) : Nat → Point → PosterM Unit
  | 0, _ => pure ()
  | n + 1, point => do
    let next ← p.statement point
    p.resume n next

variable (p : LedgerPoster)

theorem insertSourceEntry_ok {p : LedgerPoster} {source destination : LedgerAccount} {db : Ledger}
    {next : Point} {ws : List Write}
    (run : p.statement (.insertSourceEntry source destination) db = (.ok next, ws)) :
    ¬ (source.id = destination.id ∧ ¬ p.isDeposit) ∧ InBigint p.amount ∧
      next = .insertDestinationEntry (legs source destination) ∧
      ws = [.insertEntry (p.sourceEntry (legs source destination))] := by
  by_cases self : source.id = destination.id ∧ ¬ p.isDeposit
  · simp [statement, validateAccountTypes, self] at run
  · by_cases fits : InBigint p.amount
    · simp only [statement, validateAccountTypes, self, if_false, validateAmountColumn, fits,
        if_true, pure_bind, bind_run, write_run, pure_run, Prod.mk.injEq, Except.ok.injEq] at run
      exact ⟨self, fits, run.1.symm, run.2.symm⟩
    · rw [statement, validateAccountTypes, if_neg self, pure_bind, validateAmountColumn,
        if_neg fits] at run
      simp at run

theorem resume_succ (n : Nat) (point : Point) :
    p.resume (n + 1) point = (p.statement point >>= p.resume n) := rfl

theorem resume_returned (n : Nat) : p.resume n .returned = pure () := by
  induction n with
  | zero => rfl
  | succ n ih => simpa [resume_succ, statement] using ih

theorem resume_commit (n : Nat) (l : Legs) : p.resume n (.commit l) = pure () := by
  cases n with
  | zero => rfl
  | succ n => simp [resume_succ, statement, resume_returned]

theorem postEntries_eq_resume : p.postEntries = p.resume 9 .resolveSource := by
  simp [postEntries, resume, statement, createDoubleEntry, updateBalances, updateBalance]

theorem completePostingForExisting_eq_resume :
    p.completePostingForExisting = p.resume 10 .checkEntries := by
  rw [completePostingForExisting, postEntries_eq_resume, resume_succ p 9, statement, bind_assoc]
  refine congrArg (_ >>= ·) (funext fun entries => ?_)
  split <;> simp

theorem createTransaction_eq_resume :
    (do p.createLedgerTransaction; p.postEntries) = p.resume 10 .createTransaction := by
  simp [postEntries_eq_resume, resume_succ _ 9, statement]

theorem resume_findExisting (n : Nat) (db : Ledger) :
    p.resume (n + 1) .findExisting db = match db.transaction p.key with
      | some t => p.resume n (if t.status = .posted then .returned else .checkEntries) db
      | none => p.resume n .createTransaction db := by
  cases h : db.transaction p.key <;> rw [resume_succ] <;> refine bind_read ?_ <;>
    simp [statement, bind_run, h]

/-- The statements one after another are the whole call, where a raise inside
the transaction of a new row leaves no write. -/
theorem call_eq_resume (db : Ledger) :
    p.call db = if db.transaction p.key = none then transaction (p.resume 11 .findExisting) db
      else p.resume 11 .findExisting db := by
  rw [call, bind_read (select_run _ db)]
  cases h : db.transaction p.key with
  | none =>
    simp only [createTransaction_eq_resume, if_true, transaction, resume_findExisting, h]
  | some existing =>
    simp only [reduceCtorEq, if_false, resume_findExisting, h, existingResult]
    split
    · rw [resume_returned]
    · rw [completePostingForExisting_eq_resume]

end LedgerPoster

/-- What a write keeps other sessions from writing until its transaction ends. -/
inductive Lock where
  | transaction (key : IdempotencyKey)
  | account (id : LedgerAccountId)
  | balance (id : LedgerAccountId)
deriving DecidableEq, Repr

def Write.lock : Write → Option Lock
  | .insertTransaction t => some (.transaction t.key)
  | .insertAccount a => some (.account a.id)
  | .insertEntry _ => none
  | .saveBalance b => some (.balance b.ledgerAccountId)
  | .markPosted key => some (.transaction key)

/-- One call on one session. `writes` are the uncommitted writes of its open
transaction; outside a transaction every statement commits on its own. -/
structure Call where
  poster : LedgerPoster
  point : Point
  inTransaction : Bool
  writes : List Write
deriving DecidableEq, Repr

namespace Call

def start (p : LedgerPoster) : Call := ⟨p, .findExisting, false, []⟩

def locks (c : Call) : List Lock := c.writes.filterMap Write.lock

/-- The rows the next statement of the call sees. -/
def view (c : Call) (db : Ledger) : Ledger := db.applyAll c.writes

def ended (c : Call) : Bool :=
  match c.point with
  | .returned | .raised _ => true
  | _ => false

end Call

/-- The ledger service: committed tables and the calls it has received. -/
structure LedgerService where
  db : Ledger
  calls : List Call
deriving DecidableEq, Repr

inductive LedgerAction where
  | arrive (call : PostCall)
  | statement (i : Nat)
  | fail (i : Nat) (error : PostingError)
deriving DecidableEq, Repr

namespace LedgerService

def empty : LedgerService := ⟨Ledger.empty, []⟩

/-- Another session holds a lock that one of these writes needs. -/
def blocked (s : LedgerService) (i : Nat) (writes : List Write) : Bool :=
  (writes.filterMap Write.lock).any (fun lock =>
    (s.calls.eraseIdx i).any (fun other => other.locks.contains lock))

/-- `BEGIN` comes with the insert of the new transaction row. -/
def begins (c : Call) : Bool := c.inTransaction || c.point = .createTransaction

/-- The session of call `i` ends at `point`; uncommitted writes are dropped. -/
def finish (s : LedgerService) (db : Ledger) (i : Nat) (c : Call) (point : Point) :
    LedgerService :=
  ⟨db, s.calls.set i { c with point, inTransaction := false, writes := [] }⟩

/-- Call `i` executes the statement at its point, unless it has to wait for a lock. -/
def execute (s : LedgerService) (i : Nat) (c : Call) : Option LedgerService :=
  match c.poster.statement c.point (c.view s.db) with
  | (.error e, _) => some (s.finish s.db i c (.raised e))
  | (.ok next, writes) =>
    if s.blocked i writes then none
    else if begins c then
      some ⟨s.db, s.calls.set i
        { c with point := next, inTransaction := true, writes := c.writes ++ writes }⟩
    else
      some ⟨s.db.applyAll writes, s.calls.set i { c with point := next }⟩

def advance (s : LedgerService) (i : Nat) (c : Call) : Option LedgerService :=
  match c.point with
  | .returned | .raised _ => none
  | .commit _ => some (s.finish (c.view s.db) i c .returned)
  | _ => s.execute i c

/-- A call that `validate_inputs!` refuses touches no table and leaves no session. -/
def step (s : LedgerService) : LedgerAction → Option LedgerService
  | .arrive call =>
    match validateInputs call.arguments with
    | .error _ => some s
    | .ok p => some { s with calls := s.calls ++ [Call.start p] }
  | .statement i => (s.calls[i]?).bind (fun c => s.advance i c)
  | .fail i e => (s.calls[i]?).bind (fun c =>
      if c.ended then none else some (s.finish s.db i c (.raised e)))

end LedgerService

end RailsCore
