import RailsCore.Machine
import RailsCore.TransactionRetry

/-!
# The accounts service

The tables of the accounts database, the requests it has received, any number
of retry workers and the reconciler, interleaved statement by statement. Every
statement is atomic; the clock only moves forward. A ledger call is a message
in `sent`, and its number is its place there. What the ledger answers, and
when, is left open here.
-/

namespace RailsCore

structure AccountsService where
  now : Nat
  accounts : List Account
  transactions : List Transaction
  handlers : List Handler
  workers : List Worker
  sent : List PostTransactionRequest
deriving DecidableEq, Repr

inductive AccountsAction where
  | tick (ms : Nat)
  | openAccount (account : Account)
  | setAccountStatus (id : Uuid) (status : AccountStatus)
  | request (q : MoneyRequest)
  | startWorker
  | handler (i : Nat) (input : HandlerInput)
  | worker (w : Nat) (input : WorkerInput)
  | reconcileRequeue
  | reconcileFail
deriving DecidableEq, Repr

/-- Who can own a row: a request or a retry worker. -/
inductive Actor where
  | handler (i : Nat)
  | worker (w : Nat)
deriving DecidableEq, Repr

namespace AccountsService
open TransactionRepository

def empty : AccountsService := ⟨0, [], [], [], [], []⟩

/-- Request `i` has become `h`, over these rows and with this message sent. -/
def afterHandler (s : AccountsService) (i : Nat) (h : Handler) (rows : List Transaction)
    (message : Option PostTransactionRequest) : AccountsService :=
  { s with transactions := rows, handlers := s.handlers.set i h, sent := s.sent ++ message.toList }

def afterWorker (s : AccountsService) (i : Nat) (w : Worker) (rows : List Transaction)
    (message : Option PostTransactionRequest) : AccountsService :=
  { s with transactions := rows, workers := s.workers.set i w, sent := s.sent ++ message.toList }

def step (settings : Settings) (s : AccountsService) : AccountsAction → Option AccountsService
  | .tick ms => some { s with now := s.now + ms }
  | .openAccount account =>
    if (Table.find Account.id account.id s.accounts).isSome then none
    else some { s with accounts := s.accounts ++ [account] }
  | .setAccountStatus id status =>
    some { s with
      accounts := Table.updateWhere (fun a => a.id = id) (fun a => { a with status := some status })
        s.accounts }
  | .request q => some { s with handlers := s.handlers ++ [⟨q, .start⟩] }
  | .startWorker => some { s with workers := s.workers ++ [Worker.idle] }
  | .handler i input => do
    let h ← s.handlers[i]?
    let (rows, point, message) ← h.next s.now s.sent.length s.accounts s.transactions input
    some (s.afterHandler i { h with point } rows message)
  | .worker i input => do
    let w ← s.workers[i]?
    let (rows, w', message) ← w.next settings s.now s.sent.length s.accounts s.transactions input
    some (s.afterWorker i w' rows message)
  | .reconcileRequeue =>
    some { s with transactions := requeueStalePosting s.now settings.stalePostingSecs s.transactions }
  | .reconcileFail =>
    some { s with transactions := failOverAge s.now settings.maxPendingAgeSecs s.transactions }

/-- The actor has claimed the row and not written its status yet. -/
def Holds (s : AccountsService) (actor : Actor) (tx : Transaction) : Prop :=
  match actor with
  | .handler i => ∃ h, s.handlers[i]? = some h ∧ h.point.held = some tx
  | .worker w => ∃ worker, s.workers[w]? = some worker ∧ tx ∈ worker.batch

/-- An active sandbox account in US dollars. -/
def customer (id : Uuid) : Account :=
  ⟨id, some ⟨1⟩, some .sandbox, some "USD", some .active⟩

def depositOf (amount : Int) (key : String) : MoneyRequest :=
  ⟨.deposit, ⟨7⟩, ⟨7⟩, .sandbox, amount, key, none⟩

/-- A request stores its intent, and its client leaves. -/
def storedIntent (i : Nat) (key : String) (id : Uuid) : List AccountsAction :=
  [.request (depositOf 50 key), .handler i .go, .handler i (.created id),
    .handler i (.fail (.internal "connection closed"))]

end AccountsService

end RailsCore
