import RailsCore.AccountsSound
import RailsCore.Journal
import RailsCore.LedgerGrpc

/-!
# Accounts and ledger together

The two services and the network between them. A message is on its way from
the moment it is sent; it may arrive late, twice or never. A call of the
ledger belongs to the message it was made for, and a request or a worker is
told that its post succeeded only where such a call has returned. An error
answer (a refusal, a timeout, a lost connection) can come at any time and says
nothing about what the ledger did or will do.
-/

namespace RailsCore

/-- What a funds check saw when it let a request through: `display` is the
balance it compared with, `debits` the sum of all debits of the account then. -/
structure FundsCheck where
  key : IdempotencyKey
  account : LedgerAccountId
  amount : Int
  display : Int
  debits : Int
deriving DecidableEq, Repr

/-- `inFlight` are the numbers of the messages on their way, `origin` the
message of each ledger call, and `checks` a history of the funds checks that
no step reads. -/
structure System where
  accounts : AccountsService
  ledger : LedgerService
  inFlight : List Nat
  origin : List Nat
  checks : List FundsCheck
deriving DecidableEq, Repr

inductive SystemAction where
  | accounts (a : AccountsAction)
  | deliver (c : Nat)
  | lose (c : Nat)
  | duplicate (c : Nat)
  | statement (i : Nat)
  | fail (i : Nat) (error : PostingError)
deriving DecidableEq, Repr

/-- The action of the ledger alone. -/
def SystemAction.ofLedger : SystemAction → Option LedgerAction
  | .statement i => some (.statement i)
  | .fail i e => some (.fail i e)
  | _ => none

theorem SystemAction.ofLedger_running {a : SystemAction} {b : LedgerAction}
    (of : a.ofLedger = some b) : ∀ call, b ≠ .arrive call := by
  rintro call rfl
  cases a <;> cases of

namespace System

def empty : System := ⟨.empty, .empty, [], [], []⟩

/-- The account whose balance a funds check asks for. -/
def fundsAccount (settings : Settings) (q : MoneyRequest) (ctx : MoneyContext) : LedgerAccountId :=
  ⟨ctx.organizationId, q.environment, q.accountId.toString, normalizeCurrency settings ctx.currency⟩

/-- A ledger call made for message `c` has returned, so an answer says `posted`. -/
def Posted (s : System) (c : Nat) : Prop :=
  ∃ call ∈ s.origin.zip s.ledger.calls, call.1 = c ∧ call.2.point = .returned

instance (s : System) (c : Nat) : Decidable (s.Posted c) :=
  inferInstanceAs (Decidable (∃ call ∈ _, _))

/-- What the step takes for the ledger's answer is one. -/
def Answered (s : System) (settings : Settings) : AccountsAction → Prop
  | .handler i (.reply (.ok ())) =>
    ∀ h ∈ s.accounts.handlers[i]?, ∀ awaited ∈ h.point.awaited, s.Posted awaited.1
  | .worker i (.reply (.ok ())) =>
    ∀ w ∈ s.accounts.workers[i]?, ∀ awaited ∈ w.awaited, s.Posted awaited.1
  | .handler i (.balance (.ok balance)) => ∀ h ∈ s.accounts.handlers[i]?,
    match h.point with
    | .checkFunds ctx =>
      balance = getAccountBalance s.ledger.db (fundsAccount settings h.request ctx)
    | _ => True
  | _ => True

instance (s : System) (settings : Settings) (balance : Int) (h : Handler) :
    ∀ point : HandlerPoint, Decidable (match point with
      | .checkFunds ctx => balance = getAccountBalance s.ledger.db (fundsAccount settings h.request ctx)
      | _ => True)
  | .checkFunds _ => inferInstanceAs (Decidable (_ = _))
  | .start | .findToAccount _ | .findExisting _ | .createOrGet _ | .resolve _ _ | .reload _ _
  | .post _ _ | .awaitingPost _ _ _ _ | .settle _ _ _ | .done _ => isTrue trivial

instance (s : System) (settings : Settings) : ∀ a, Decidable (s.Answered settings a)
  | .handler _ (.reply (.ok ())) | .worker _ (.reply (.ok ())) =>
    inferInstanceAs (Decidable (∀ h ∈ _, ∀ awaited ∈ _, s.Posted _))
  | .handler i (.balance (.ok _)) => inferInstanceAs (Decidable (∀ h ∈ s.accounts.handlers[i]?, _))
  | .handler _ (.reply (.error _)) | .handler _ (.balance (.error _)) | .handler _ .go
  | .handler _ (.created _) | .handler _ (.fail _) | .worker _ (.reply (.error _)) | .worker _ .go
  | .worker _ (.claimed _) | .worker _ .writeLost | .worker _ .crash | .tick _ | .openAccount _
  | .setAccountStatus _ _ | .request _ | .startWorker | .reconcileRequeue | .reconcileFail =>
    isTrue trivial

/-- The funds check that the step passes, if it is one. -/
def passed (s : System) (settings : Settings) : AccountsAction → Option FundsCheck
  | .handler i (.balance (.ok balance)) => do
    let h ← s.accounts.handlers[i]?
    match h.point with
    | .checkFunds ctx =>
      let account := fundsAccount settings h.request ctx
      if h.request.amount ≤ -balance then
        some ⟨AccountService.keyOf h.request ctx, account, h.request.amount, -balance,
          sumOf .debit account s.ledger.db.entries⟩
      else none
    | _ => none
  | _ => none

/-- The ledger's server takes the call of a message. -/
def receive (s : System) (c : Nat) (call : PostCall) : Option System := do
  let ledger ← s.ledger.step (.arrive call)
  let made := ledger.calls.length - s.ledger.calls.length
  some { s with ledger, inFlight := s.inFlight.erase c, origin := s.origin ++ List.replicate made c }

def step (settings : Settings) (s : System) : SystemAction → Option System
  | .accounts a =>
    if s.Answered settings a then do
      let accounts ← s.accounts.step settings a
      let sent := List.range' s.accounts.sent.length (accounts.sent.length - s.accounts.sent.length)
      some { s with
        accounts
        inFlight := s.inFlight ++ sent
        checks := s.checks ++ (s.passed settings a).toList }
    else none
  | .deliver c => do
    let m ← s.accounts.sent[c]?
    if c ∈ s.inFlight then
      match postTransaction settings m with
      | .error _ => some { s with inFlight := s.inFlight.erase c }
      | .ok call => s.receive c call
    else none
  | .lose c => if c ∈ s.inFlight then some { s with inFlight := s.inFlight.erase c } else none
  | .duplicate c => if c ∈ s.inFlight then some { s with inFlight := c :: s.inFlight } else none
  | .statement i => (s.ledger.step (.statement i)).map (fun ledger => { s with ledger })
  | .fail i e => (s.ledger.step (.fail i e)).map (fun ledger => { s with ledger })

/-- What one action does to the two services and the network. -/
inductive Moved (settings : Settings) (s : System) : SystemAction → System → Prop where
  | accounts {a accounts} (answered : s.Answered settings a)
      (step : s.accounts.step settings a = some accounts) :
      Moved settings s (.accounts a) ⟨accounts, s.ledger,
        s.inFlight ++ List.range' s.accounts.sent.length
          (accounts.sent.length - s.accounts.sent.length),
        s.origin, s.checks ++ (s.passed settings a).toList⟩
  | refused {c} : Moved settings s (.deliver c) { s with inFlight := s.inFlight.erase c }
  | arrived {c m p} (sent : s.accounts.sent[c]? = some m) (flying : c ∈ s.inFlight)
      (poster : PosterOf m p) (cash : p.DepositsFromCash) :
      Moved settings s (.deliver c) ⟨s.accounts, { s.ledger with
        calls := s.ledger.calls ++ [Call.start p] }, s.inFlight.erase c, s.origin ++ [c], s.checks⟩
  | lost {c} : Moved settings s (.lose c) { s with inFlight := s.inFlight.erase c }
  | duplicated {c} (flying : c ∈ s.inFlight) :
      Moved settings s (.duplicate c) { s with inFlight := c :: s.inFlight }
  | ledger {a b ledger} (of : a.ofLedger = some b) (step : s.ledger.step b = some ledger) :
      Moved settings s a { s with ledger }

theorem moved_receive {settings : Settings} {s t : System} {c : Nat} {m : PostTransactionRequest}
    {call : PostCall} (sent : s.accounts.sent[c]? = some m) (flying : c ∈ s.inFlight)
    (posted : postTransaction settings m = .ok call) (h : s.receive c call = some t) :
    Moved settings s (.deliver c) t := by
  obtain ⟨ledger, arrived, done⟩ := Option.bind_eq_some_iff.mp h
  cases done
  cases valid : validateInputs call.arguments with
  | error e =>
    obtain rfl : s.ledger = ledger := by simpa [LedgerService.step, valid] using arrived
    have refused : Moved settings s (.deliver c) { s with inFlight := s.inFlight.erase c } := .refused
    simpa using refused
  | ok p =>
    obtain rfl : { s.ledger with calls := s.ledger.calls ++ [Call.start p] } = ledger := by
      simpa [LedgerService.step, valid] using arrived
    simpa using Moved.arrived sent flying (posterOf posted valid)
      (LedgerPoster.validateInputs_depositsFromCash valid)

/-- Every step is one of the moves. -/
theorem moved_step {settings : Settings} {s t : System} {a : SystemAction}
    (h : s.step settings a = some t) : Moved settings s a t := by
  cases a with
  | accounts a =>
    rw [step] at h
    split_ifs at h with answered
    obtain ⟨accounts, moved, done⟩ := Option.bind_eq_some_iff.mp h
    cases done
    exact .accounts answered moved
  | deliver c =>
    obtain ⟨m, sent, rest⟩ := Option.bind_eq_some_iff.mp h
    split_ifs at rest with flying
    cases posted : postTransaction settings m with
    | error e =>
      obtain rfl : { s with inFlight := s.inFlight.erase c } = t := by simpa [posted] using rest
      exact .refused
    | ok call => exact moved_receive sent flying posted (by simpa [posted] using rest)
  | lose c =>
    rw [step] at h
    split_ifs at h
    cases h
    exact .lost
  | duplicate c =>
    rw [step] at h
    split_ifs at h with flying
    cases h
    exact .duplicated flying
  | statement i =>
    obtain ⟨ledger, moved, rfl⟩ := Option.map_eq_some_iff.mp h
    exact .ledger rfl moved
  | fail i e =>
    obtain ⟨ledger, moved, rfl⟩ := Option.map_eq_some_iff.mp h
    exact .ledger rfl moved

/-- Steps of the accounts service alone. -/
def onAccounts (as : List AccountsAction) : List SystemAction := as.map .accounts

/-- The next `n` statements of ledger call `i`. -/
def onLedger (i n : Nat) : List SystemAction := List.replicate n (.statement i)

end System

end RailsCore
