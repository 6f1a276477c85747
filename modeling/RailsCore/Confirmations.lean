import RailsCore.AtMostOnce
import RailsCore.DoubleEntry
import RailsCore.PostMessages

/-!
# What a confirmed answer confirms

A request that is answered with a posted transaction finds one for its key in
the ledger. What that transaction moves is what some request with the same key
asked for: payloads of requests that share a key are nowhere compared. It is
what the answered row says where every request that posts under the key asks
for what its row stores.
-/

namespace RailsCore

/-- What the request asks for, in the currency of its account as the ledger spells it. -/
def MoneyRequest.movement (q : MoneyRequest) (ctx : MoneyContext) : Movement where
  source := ⟨ctx.organizationId, q.environment, q.operation.sourceExternalAccountId q,
    stripUpcase ctx.currency⟩
  destination := ⟨ctx.organizationId, q.environment, q.operation.destinationExternalAccountId q,
    stripUpcase ctx.currency⟩
  amount := q.amount

/-- What the row says is moved. -/
def Transaction.movement (environment : Environment) (tx : Transaction) : Movement :=
  (TransactionRetry.postRequest environment tx).movement

/-- The entries of the key are a debit of the source and a credit of the destination. -/
def Ledger.Moves (db : Ledger) (key : IdempotencyKey) (movement : Movement) : Prop :=
  db.entriesOf key =
    [⟨movement.source, key, .debit, movement.amount, movement.source.currency⟩,
      ⟨movement.destination, key, .credit, movement.amount, movement.destination.currency⟩]

/-- Every request moves money between customers and the cash account. -/
theorem MoneyRequest.betweenCustomers (q : MoneyRequest) :
    LedgerPoster.BetweenCustomers (q.operation.sourceExternalAccountId q)
      (q.operation.destinationExternalAccountId q) := by
  cases kind : q.kind <;> simp only [MoneyRequest.operation, kind]
  · exact (LedgerPoster.betweenCustomers q.accountId _).1
  · exact (LedgerPoster.betweenCustomers _ q.accountId).2.1
  · exact (LedgerPoster.betweenCustomers _ _).2.2

namespace System

variable {s : System}

/-- The call of each poster was made for a message. -/
theorem Sound.message (sound : s.Sound) {i : Nat} {call : Call}
    (at_ : s.ledger.calls[i]? = some call) : ∃ m ∈ s.accounts.sent, PosterOf m call.poster := by
  have bound := (List.getElem?_eq_some_iff.mp at_).1
  obtain ⟨c, origin⟩ : ∃ c, s.origin[i]? = some c :=
    ⟨_, List.getElem?_eq_getElem (sound.origin.symm ▸ bound)⟩
  obtain ⟨m, sent, poster⟩ := sound.posters (c, call.poster) (by
    refine List.mem_of_getElem? (i := i) ?_
    rw [List.getElem?_zip_eq_some]
    exact ⟨origin, by rw [List.getElem?_map, at_]; rfl⟩)
  exact ⟨m, List.mem_of_getElem? sent, poster⟩

/-- Each call posts what some request asked for. -/
theorem Sound.asked (sound : s.Sound) {i : Nat} {call : Call}
    (at_ : s.ledger.calls[i]? = some call) :
    ∃ h ∈ s.accounts.handlers, ∃ ctx, ContextFor s.accounts.accounts h.request ctx ∧
      AccountService.keyOf h.request ctx = call.poster.key ∧
      call.poster.sourceId = (h.request.movement ctx).source ∧
      call.poster.destinationId = (h.request.movement ctx).destination ∧
      call.poster.amount = (h.request.movement ctx).amount := by
  obtain ⟨m, hm, poster⟩ := sound.message at_
  obtain ⟨h, hh, ctx, context, r, hr, key, same⟩ := sound.accounts.sent m hm
  have movement : m.movement = h.request.movement ctx := congrArg PostTransactionRequest.movement same
  have rowKey : m.key = r.key := (congrArg PostTransactionRequest.key same).trans (key_postRequest key)
  refine ⟨h, hh, ctx, context, ?_, ?_, ?_, ?_⟩
  · rw [poster.key, rowKey, key]
  · rw [poster.source, movement]
  · rw [poster.destination, movement]
  · rw [poster.amount, movement]

/-- What the services post debits its source and credits its destination. -/
theorem Sound.debits_source (sound : s.Sound) {i : Nat} {call : Call}
    (at_ : s.ledger.calls[i]? = some call) {db : Ledger} (typed : ∀ a ∈ db.accounts, a.Typed)
    {l : Legs} (recorded : Recorded db call.poster l) :
    l = ⟨l.source, l.destination, .debit, .credit⟩ := by
  obtain ⟨h, -, ctx, -, -, source, destination, -⟩ := sound.asked at_
  refine recorded.legs.trans (LedgerPoster.legs_customers ?_ ?_ ?_)
  · exact typed _ recorded.source.2
  · exact typed _ recorded.destination.2
  · rw [recorded.source.1, source, recorded.destination.1, destination]
    exact h.request.betweenCustomers

/-- A ledger transaction moves what a message with its key says. -/
theorem Sound.moves_message (sound : s.Sound) {x : LedgerTransaction}
    (hx : x ∈ s.ledger.db.transactions) :
    ∃ m ∈ s.accounts.sent, m.key = x.key ∧ s.ledger.db.Moves x.key m.movement := by
  obtain ⟨i, call, l, at_, -, owner, recorded⟩ := sound.ledger.posted x hx
  obtain ⟨m, hm, poster⟩ := sound.message at_
  refine ⟨m, hm, poster.key.symm.trans owner, ?_⟩
  have currency : call.poster.currency = m.movement.source.currency := poster.currency
  rw [Ledger.Moves, ← owner, recorded.entries,
    sound.debits_source at_ sound.ledger.tables.typed recorded, LedgerPoster.sourceEntry,
    LedgerPoster.destinationEntry, LedgerPoster.entry, LedgerPoster.entry, recorded.source.1,
    recorded.destination.1, poster.source, poster.destination, poster.amount, currency]
  rfl

/-- A ledger transaction is what a request with its key asked for. -/
theorem Sound.moves (sound : s.Sound) {x : LedgerTransaction}
    (hx : x ∈ s.ledger.db.transactions) :
    ∃ h ∈ s.accounts.handlers, ∃ ctx, ContextFor s.accounts.accounts h.request ctx ∧
      AccountService.keyOf h.request ctx = x.key ∧
      s.ledger.db.Moves x.key (h.request.movement ctx) := by
  obtain ⟨m, hm, keyed, moves⟩ := sound.moves_message hx
  obtain ⟨h, hh, ctx, context, r, hr, key, same⟩ := sound.accounts.sent m hm
  have movement : m.movement = h.request.movement ctx :=
    congrArg PostTransactionRequest.movement same
  have rowKey : m.key = r.key :=
    (congrArg PostTransactionRequest.key same).trans (key_postRequest key)
  exact ⟨h, hh, ctx, context, key.symm.trans (rowKey.symm.trans keyed), movement ▸ moves⟩

/-- Where the action is the post of a request with the key, the request asks for what its row
stores. -/
def PostsRowOf (key : IdempotencyKey) (s : System) : SystemAction → Prop
  | .accounts a => s.accounts.PostsRowOf key a
  | _ => True

instance (key : IdempotencyKey) (s : System) (a : SystemAction) : Decidable (s.PostsRowOf key a) :=
  match a with
  | .accounts a => inferInstanceAs (Decidable (s.accounts.PostsRowOf key a))
  | .deliver _ | .lose _ | .duplicate _ | .statement _ | .fail _ _ => isTrue trivial

theorem keyEqualsRetry_run {settings : Settings} {as : List SystemAction} {key : IdempotencyKey}
    (run : Machine.run (step settings) empty as = some s)
    (cond : Machine.Along (step settings) (PostsRowOf key) empty as) :
    s.accounts.KeyEqualsRetry key := by
  refine (Machine.invariant_along (I := fun s => s.Sound ∧ s.accounts.KeyEqualsRetry key)
    (fun s a t kept cond moved => ⟨kept.1.step moved, ?_⟩)
    ⟨sound_empty, fun m hm => absurd hm List.not_mem_nil⟩ cond run).2
  cases moved_step moved with
  | accounts answered step => exact kept.1.accounts.keyEqualsRetry_step step kept.2 cond
  | refused | arrived | lost | duplicated | ledger => exact kept.2

/-- A message that equals the retry of its row says what any copy of the row says. -/
theorem Sound.movement_of_row (sound : s.Sound) {m : PostTransactionRequest}
    (hm : m ∈ s.accounts.sent) (same : s.accounts.KeyEqualsRetry m.key) {q : MoneyRequest}
    {ctx : MoneyContext} {tx : Transaction} (row : RowFor s.accounts.transactions q ctx tx)
    (keyed : m.key = tx.key) : m.movement = tx.movement q.environment := by
  obtain ⟨h, -, ctx', -, r, hr, key', message⟩ := sound.accounts.sent m hm
  obtain ⟨key, r', hr', intent⟩ := row
  have rowKey : r.key = m.key :=
    ((congrArg PostTransactionRequest.key message).trans (key_postRequest key')).symm
  obtain rfl : r = r' := sound.accounts.keys.eq hr hr'
    (rowKey.trans (keyed.trans (Transaction.key_of_intent intent).symm))
  have id : r.id = m.externalTransactionId :=
    (congrArg PostTransactionRequest.externalTransactionId message).symm
  obtain ⟨environment, stored, equal⟩ :=
    (sound.accounts.sameAsRetry_iff hr intent m).mp (same m hm rfl r hr id)
  have known : tx.environment = some q.environment := congrArg IdempotencyKey.environment key
  obtain rfl : q.environment = environment := Option.some.inj (known.symm.trans stored)
  have moved := congrArg PostTransactionRequest.movement equal
  exact moved

/-- A request that asks for what the row stores asks for its movement. -/
theorem movement_of_matches {q : MoneyRequest} {ctx : MoneyContext} {tx : Transaction}
    (key : tx.key = AccountService.keyOf q ctx) (same : Matches q ctx tx) :
    tx.movement q.environment = q.movement ctx := by
  obtain ⟨kind, fromAccount, toAccount, amount, currency⟩ := same
  have organization : tx.organizationId = ctx.organizationId :=
    congrArg IdempotencyKey.organizationId key
  have source : TransactionRetry.sourceExternal tx = q.operation.sourceExternalAccountId q := by
    cases hq : q.kind <;> rw [hq] at kind <;>
      simp [TransactionRetry.sourceExternal, MoneyRequest.operation, hq, kind, fromAccount,
        depositWithIdempotency, withdrawWithIdempotency, transferWithIdempotency]
  have destination : TransactionRetry.destExternal tx =
      q.operation.destinationExternalAccountId q := by
    cases hq : q.kind <;> rw [hq] at kind <;>
      simp [TransactionRetry.destExternal, MoneyRequest.operation, hq, kind, toAccount,
        depositWithIdempotency, withdrawWithIdempotency, transferWithIdempotency]
  simp only [Transaction.movement, PostTransactionRequest.movement, TransactionRetry.postRequest,
    MoneyRequest.movement, organization, source, destination, amount, currency]

/-- In every run in which the requests with the key post what their row stores: a request that is
answered with a posted transaction has a posted ledger transaction for its key, which moves exactly
what the answered row says, and so what the request asks for where the row is what it asks for. -/
theorem confirmed_answer (settings : Settings) (as : List SystemAction) (s : System)
    (run : Machine.run (step settings) empty as = some s) (h : Handler)
    (hh : h ∈ s.accounts.handlers) (tx : Transaction) (answered : h.point = .done (.ok tx))
    (posted : tx.status = .posted)
    (cond : Machine.Along (step settings) (PostsRowOf tx.key) empty as) :
    ∃ ctx, ContextFor s.accounts.accounts h.request ctx ∧
      (∃ x ∈ s.ledger.db.transactions,
        x.key = AccountService.keyOf h.request ctx ∧ x.status = .posted) ∧
      s.ledger.db.Moves (AccountService.keyOf h.request ctx)
        (tx.movement h.request.environment) ∧
      (Matches h.request ctx tx →
        s.ledger.db.Moves (AccountService.keyOf h.request ctx) (h.request.movement ctx)) := by
  have sound := sound_run run
  have known := sound.accounts.handlers h hh
  rw [HandlerSound, answered] at known
  obtain ⟨ctx, context, row⟩ := known
  obtain ⟨x, hx, same⟩ := sound.shown h hh tx (by rw [answered]; rfl) posted
  obtain ⟨m, hm, keyed, moves⟩ := sound.moves_message hx
  have ours : x.key = AccountService.keyOf h.request ctx := same.trans row.1
  have retried : s.accounts.KeyEqualsRetry m.key :=
    (keyed.trans same) ▸ keyEqualsRetry_run run cond
  rw [sound.movement_of_row hm retried row (keyed.trans same), ours] at moves
  exact ⟨ctx, context, ⟨x, hx, ours, sound.ledger.tables.posted hx⟩, moves,
    fun matching => movement_of_matches row.1 matching ▸ moves⟩

/-- A deposit of 50, answered when it is posted. -/
def confirmedDeposit : List SystemAction :=
  onAccounts [.openAccount (AccountsService.customer ⟨7⟩), .request (AccountsService.depositOf 50 "a"),
    .handler 0 .go, .handler 0 (.created ⟨101⟩), .handler 0 .go, .handler 0 .go] ++
  .deliver 0 :: onLedger 0 12 ++ onAccounts [.handler 0 (.reply (.ok ())), .handler 0 .go]

/-- The request is answered with a posted transaction. -/
def answeredPosted (h : Handler) : Bool :=
  match h.point with
  | .done (.ok tx) => tx.status = .posted
  | _ => false

theorem answeredPosted_iff {h : Handler} (answered : answeredPosted h = true) :
    ∃ tx, h.point = .done (.ok tx) ∧ tx.status = .posted := by
  rw [answeredPosted] at answered
  split at answered
  · exact ⟨_, ‹_›, of_decide_eq_true answered⟩
  · cases answered

/-- A second deposit with the key, of 70, is answered with the posted transaction of 50. -/
def answeredAgain : List SystemAction :=
  confirmedDeposit ++ onAccounts [.request (AccountsService.depositOf 70 "a"), .handler 1 .go,
    .handler 1 (.created ⟨102⟩), .handler 1 .go]

theorem confirmed_answer_again : ∃ (s : System) (h : Handler) (tx : Transaction),
    Machine.run (step .fromEnv) empty answeredAgain = some s ∧ h.request.amount = 70 ∧
    h.point = .done (.ok tx) ∧ tx.amount = 50 ∧
    ∃ ctx, s.ledger.db.Moves (AccountService.keyOf h.request ctx)
      (tx.movement h.request.environment) := by
  have evaluated : (Machine.run (step .fromEnv) empty answeredAgain).any (fun s =>
      s.accounts.handlers.any fun h => h.request.amount = 70 && answeredPosted h &&
        h.point.shown.all fun tx =>
          tx.key = ⟨⟨1⟩, some .sandbox, "a"⟩ && tx.amount = 50) = true := by
    decide +kernel
  obtain ⟨s, run, evaluated⟩ := (Option.any_eq_true _ _).mp evaluated
  obtain ⟨h, hh, evaluated⟩ := List.any_eq_true.mp evaluated
  obtain ⟨evaluated, row⟩ := Bool.and_eq_true_iff.mp evaluated
  obtain ⟨asked, answered⟩ := Bool.and_eq_true_iff.mp evaluated
  obtain ⟨tx, done, posted⟩ := answeredPosted_iff answered
  rw [done] at row
  obtain ⟨key, amount⟩ := Bool.and_eq_true_iff.mp row
  have cond : Machine.Along (step .fromEnv) (PostsRowOf tx.key) empty answeredAgain := by
    rw [of_decide_eq_true key]
    decide +kernel
  obtain ⟨ctx, -, -, moves, -⟩ :=
    confirmed_answer .fromEnv answeredAgain s run h hh tx done posted cond
  exact ⟨s, h, tx, run, of_decide_eq_true asked, done, of_decide_eq_true amount, ctx, moves⟩

/-- What is moved is not what the second deposit asks for. -/
theorem confirmed_other : ¬ ∀ (settings : Settings) (as : List SystemAction) (s : System),
    Machine.run (step settings) empty as = some s → ∀ h ∈ s.accounts.handlers, ∀ tx,
    h.point = .done (.ok tx) → tx.status = .posted →
    ∃ ctx, ContextFor s.accounts.accounts h.request ctx ∧
      (∃ x ∈ s.ledger.db.transactions,
        x.key = AccountService.keyOf h.request ctx ∧ x.status = .posted) ∧
      s.ledger.db.Moves (AccountService.keyOf h.request ctx) (h.request.movement ctx) := by
  intro claim
  have evaluated : (Machine.run (step .fromEnv) empty answeredAgain).any (fun s =>
      s.ledger.db.entries.all (fun e => e.amount = 50) &&
        s.accounts.handlers.any (fun h => h.request.amount = 70 && answeredPosted h)) = true := by
    decide +kernel
  obtain ⟨s, run, evaluated⟩ := (Option.any_eq_true _ _).mp evaluated
  obtain ⟨entries, evaluated⟩ := Bool.and_eq_true_iff.mp evaluated
  obtain ⟨h, hh, evaluated⟩ := List.any_eq_true.mp evaluated
  obtain ⟨asked, answered⟩ := Bool.and_eq_true_iff.mp evaluated
  obtain ⟨tx, done, posted⟩ := answeredPosted_iff answered
  obtain ⟨ctx, -, -, moves⟩ := claim .fromEnv _ s run h hh tx done posted
  have first : (⟨(h.request.movement ctx).source, AccountService.keyOf h.request ctx, .debit,
      (h.request.movement ctx).amount, (h.request.movement ctx).source.currency⟩ : LedgerEntry) ∈
      s.ledger.db.entriesOf (AccountService.keyOf h.request ctx) := by
    rw [moves]
    exact List.mem_cons_self
  have amount := of_decide_eq_true (List.all_eq_true.mp entries _ (List.mem_of_mem_filter first))
  have seventy : h.request.amount = 70 := of_decide_eq_true asked
  exact absurd (seventy.symm.trans amount) (by decide)

end System

end RailsCore
