import RailsCore.AccountsSound

/-!
# Immediate posts and retries

A request posts what the request says, a retry worker what the row says. The
two messages are the same, up to the correlation id, exactly when the request
names the operation, accounts, amount and currency of the row it was given.
-/

namespace RailsCore
open TransactionRepository

/-- The request asks for what the row stores. -/
def Matches (q : MoneyRequest) (ctx : MoneyContext) (tx : Transaction) : Prop :=
  tx.transactionKind = q.kind ∧ tx.fromAccountId = q.accountId ∧
    tx.toAccountId = q.operation.toAccountId q ∧ tx.amount = q.amount ∧ tx.currency = ctx.currency

instance (q : MoneyRequest) (ctx : MoneyContext) (tx : Transaction) :
    Decidable (Matches q ctx tx) :=
  inferInstanceAs (Decidable (_ ∧ _ ∧ _ ∧ _ ∧ _))

/-- Deposits and withdrawals are stored with one account on both sides. -/
theorem MadeBy.oneAccount {q : MoneyRequest} {ctx : MoneyContext} {r : Transaction}
    (made : MadeBy q ctx r) (kind : r.transactionKind ≠ .transfer) :
    r.fromAccountId = r.toAccountId := by
  have source : r.fromAccountId = q.accountId := congrArg Intent.fromAccountId made
  have destination : r.toAccountId = q.operation.toAccountId q := congrArg Intent.toAccountId made
  have sameKind : r.transactionKind = q.kind :=
    (congrArg Intent.transactionKind made).trans (transactionKind_operation q)
  rw [source, destination]
  cases hk : q.kind with
  | transfer => exact absurd (sameKind.trans hk) kind
  | deposit | withdraw =>
    simp only [MoneyRequest.operation, hk]
    rfl

/-- The two external accounts name the operation and its accounts. -/
theorem externals_eq_iff (q : MoneyRequest) {tx : Transaction}
    (oneAccount : tx.transactionKind ≠ .transfer → tx.fromAccountId = tx.toAccountId) :
    q.operation.sourceExternalAccountId q = TransactionRetry.sourceExternal tx ∧
      q.operation.destinationExternalAccountId q = TransactionRetry.destExternal tx ↔
    tx.transactionKind = q.kind ∧ tx.fromAccountId = q.accountId ∧
      tx.toAccountId = q.operation.toAccountId q := by
  have notCash : ∀ u : Uuid, u.toString ≠ systemCashControl := Uuid.toString_ne_cash
  have cashNot : ∀ u : Uuid, systemCashControl ≠ u.toString := fun u h => notCash u h.symm
  cases hq : q.kind <;> cases ht : tx.transactionKind <;>
    simp only [MoneyRequest.operation, hq, depositWithIdempotency, withdrawWithIdempotency,
      transferWithIdempotency, TransactionRetry.sourceExternal, TransactionRetry.destExternal, ht,
      notCash, cashNot, Uuid.toString_inj, reduceCtorEq, false_and, and_false, true_and, and_true]
  · -- a deposit on both sides
    have same := oneAccount (by simp [ht])
    constructor
    · intro destination
      exact ⟨same.trans destination.symm, destination.symm⟩
    · exact fun both => both.2.symm
  · -- a withdrawal on both sides
    have same := oneAccount (by simp [ht])
    constructor
    · intro source
      exact ⟨source.symm, same.symm.trans source.symm⟩
    · exact fun both => both.1.symm
  · exact and_congr eq_comm eq_comm

/-- The exact condition for one message. -/
theorem uncorrelated_eq_iff {q : MoneyRequest} {ctx : MoneyContext} {tx : Transaction}
    (key : tx.key = AccountService.keyOf q ctx)
    (oneAccount : tx.transactionKind ≠ .transfer → tx.fromAccountId = tx.toAccountId) :
    (AccountService.postRequest q ctx tx).uncorrelated =
      (TransactionRetry.postRequest q.environment tx).uncorrelated ↔ Matches q ctx tx := by
  have organization : ctx.organizationId = tx.organizationId :=
    (congrArg IdempotencyKey.organizationId key).symm
  have externals := externals_eq_iff q oneAccount
  simp only [PostTransactionRequest.uncorrelated, AccountService.postRequest,
    TransactionRetry.postRequest, PostTransactionRequest.mk.injEq, organization, true_and, and_true,
    Matches]
  constructor
  · rintro ⟨source, destination, amount, currency⟩
    obtain ⟨kind, fromAccount, toAccount⟩ := externals.mp ⟨source, destination⟩
    exact ⟨kind, fromAccount, toAccount, amount.symm, currency.symm⟩
  · rintro ⟨kind, fromAccount, toAccount, amount, currency⟩
    obtain ⟨source, destination⟩ := externals.mpr ⟨kind, fromAccount, toAccount⟩
    exact ⟨source, destination, amount.symm, currency.symm⟩

/-- A request about to post asks for what its row stores. -/
def Handler.PostsItsRow (h : Handler) : Prop :=
  match h.point with
  | .post ctx tx => Matches h.request ctx tx
  | _ => True

instance (h : Handler) : Decidable h.PostsItsRow := by
  rw [Handler.PostsItsRow]
  split <;> infer_instance

/-- As `PostsItsRow`, where the request has the key. -/
def Handler.PostsRowOf (key : IdempotencyKey) (h : Handler) : Prop :=
  match h.point with
  | .post ctx tx => tx.key = key → Matches h.request ctx tx
  | _ => True

instance (key : IdempotencyKey) (h : Handler) : Decidable (h.PostsRowOf key) := by
  rw [Handler.PostsRowOf]
  split <;> infer_instance

namespace AccountsService

/-- A retry worker would send this message for the row, up to the correlation id. -/
def SameAsRetry (s : AccountsService) (m : PostTransactionRequest) (r : Transaction) : Prop :=
  ∃ environment, TransactionRetry.resolveEnvironment s.accounts r = .ok environment ∧
    m.uncorrelated = (TransactionRetry.postRequest environment r).uncorrelated

/-- Every message sent for a row is the one its retry would send. -/
def ImmediateEqualsRetry (s : AccountsService) : Prop :=
  ∀ m ∈ s.sent, ∀ r ∈ s.transactions, r.id = m.externalTransactionId → s.SameAsRetry m r

/-- Where the action is the post of a request, the request asks for what its row stores. -/
def PostsItsRow (s : AccountsService) : AccountsAction → Prop
  | .handler i .go => ∀ h ∈ s.handlers[i]?, h.PostsItsRow
  | _ => True

instance (s : AccountsService) (a : AccountsAction) : Decidable (s.PostsItsRow a) :=
  match a with
  | .handler i .go => inferInstanceAs (Decidable (∀ h ∈ s.handlers[i]?, h.PostsItsRow))
  | .tick _ | .openAccount _ | .setAccountStatus _ _ | .request _ | .startWorker | .worker _ _
  | .reconcileRequeue | .reconcileFail | .handler _ (.created _) | .handler _ (.balance _)
  | .handler _ (.reply _) | .handler _ (.fail _) => isTrue trivial

/-- Every message with the key that is sent for a row is the one its retry would send. -/
def KeyEqualsRetry (key : IdempotencyKey) (s : AccountsService) : Prop :=
  ∀ m ∈ s.sent, m.key = key → ∀ r ∈ s.transactions, r.id = m.externalTransactionId →
    s.SameAsRetry m r

/-- Where the action is the post of a request with the key, the request asks for what its row
stores. -/
def PostsRowOf (key : IdempotencyKey) (s : AccountsService) : AccountsAction → Prop
  | .handler i .go => ∀ h ∈ s.handlers[i]?, h.PostsRowOf key
  | _ => True

instance (key : IdempotencyKey) (s : AccountsService) (a : AccountsAction) :
    Decidable (s.PostsRowOf key a) :=
  match a with
  | .handler i .go => inferInstanceAs (Decidable (∀ h ∈ s.handlers[i]?, h.PostsRowOf key))
  | .tick _ | .openAccount _ | .setAccountStatus _ _ | .request _ | .startWorker | .worker _ _
  | .reconcileRequeue | .reconcileFail | .handler _ (.created _) | .handler _ (.balance _)
  | .handler _ (.reply _) | .handler _ (.fail _) => isTrue trivial

variable {settings : Settings} {s t : AccountsService} {a : AccountsAction}

theorem Sound.sameAsRetry_iff (sound : s.Sound) {r tx : Transaction} (hr : r ∈ s.transactions)
    (same : r.intent = tx.intent) (m : PostTransactionRequest) :
    s.SameAsRetry m r ↔ ∃ environment, tx.environment = some environment ∧
      m.uncorrelated = (TransactionRetry.postRequest environment tx).uncorrelated := by
  obtain ⟨h, -, ctx, -, made⟩ := sound.made r hr
  have environment : tx.environment = some h.request.environment :=
    congrArg Intent.environment (same.symm.trans made)
  rw [SameAsRetry, resolveEnvironment_made made rfl, environment]
  simp only [Except.ok.injEq, Option.some.injEq, retryRequest_of_intent same]

/-- A message that was sent for a row of the table says the same later. -/
theorem Sound.old_message (sound : s.Sound) (later : t.Sound) (grows : Grows s t)
    {m : PostTransactionRequest} (hm : m ∈ s.sent) :
    (∀ r ∈ t.transactions, r.id = m.externalTransactionId → t.SameAsRetry m r) ↔
      ∀ r ∈ s.transactions, r.id = m.externalTransactionId → s.SameAsRetry m r := by
  constructor
  · intro all r hr same
    obtain ⟨r', hr', intent⟩ := grows.rows r hr
    have here := all r' hr' ((Transaction.id_of_intent intent).trans same)
    exact (sound.sameAsRetry_iff hr rfl m).mpr ((later.sameAsRetry_iff hr' intent m).mp here)
  · intro all r' hr' same
    obtain ⟨h, -, ctx, -, r, hr, -, message⟩ := sound.sent m hm
    have id : r.id = m.externalTransactionId :=
      (congrArg PostTransactionRequest.externalTransactionId message).symm
    obtain ⟨r'', hr'', intent⟩ := grows.rows r hr
    obtain rfl := later.ids.eq hr'' hr' ((Transaction.id_of_intent intent).trans (id.trans same.symm))
    exact (later.sameAsRetry_iff hr'' intent m).mpr ((sound.sameAsRetry_iff hr rfl m).mp (all r hr id))

/-- The messages of a later state are the old ones and what the step has sent. -/
theorem Sound.immediate_iff (sound : s.Sound) (later : t.Sound) (grows : Grows s t)
    (extra : List PostTransactionRequest) (sent : t.sent = s.sent ++ extra) :
    t.ImmediateEqualsRetry ↔ s.ImmediateEqualsRetry ∧ ∀ m ∈ extra, ∀ r ∈ t.transactions,
      r.id = m.externalTransactionId → t.SameAsRetry m r := by
  constructor
  · intro all
    refine ⟨fun m hm => (sound.old_message later grows hm).mp (all m ?_), fun m hm => all m ?_⟩
    · exact sent ▸ List.mem_append_left _ hm
    · exact sent ▸ List.mem_append_right _ hm
  · rintro ⟨old, new⟩ m hm
    rcases List.mem_append.mp (sent ▸ hm : m ∈ s.sent ++ extra) with before | now
    · exact (sound.old_message later grows before).mpr (old m before)
    · exact new m now

/-- The message of a request is that of the retry just where the request asks for its row. -/
theorem Sound.posted_by_request (sound : s.Sound) {h : Handler} (hh : h ∈ s.handlers)
    {ctx : MoneyContext} {tx : Transaction} (posting : h.point = .post ctx tx) (later : t.Sound)
    (rows : t.transactions = s.transactions) :
    (∀ r ∈ t.transactions, r.id = tx.id →
      t.SameAsRetry (AccountService.postRequest h.request ctx tx) r) ↔ Matches h.request ctx tx := by
  have known := sound.handlers h hh
  rw [HandlerSound, posting] at known
  obtain ⟨-, key, r, hr, intent⟩ := known
  obtain ⟨g, -, ctx', -, made⟩ := sound.made r hr
  have oneAccount : tx.transactionKind ≠ .transfer → tx.fromAccountId = tx.toAccountId := by
    have fields := congrArg (fun i : Intent => (i.transactionKind, i.fromAccountId, i.toAccountId))
      intent
    obtain ⟨kind, source, destination⟩ := Prod.mk.inj fields |>.imp_right Prod.mk.inj
    intro notTransfer
    have one := made.oneAccount (fun transfer => notTransfer (kind.symm.trans transfer))
    exact source.symm.trans (one.trans destination)
  have environment : tx.environment = some h.request.environment :=
    congrArg IdempotencyKey.environment key
  rw [← uncorrelated_eq_iff key oneAccount]
  have hr' : r ∈ t.transactions := rows ▸ hr
  constructor
  · intro all
    obtain ⟨e, found, same⟩ := (later.sameAsRetry_iff hr' intent _).mp
      (all r hr' (Transaction.id_of_intent intent))
    rw [same]
    rw [environment] at found
    rw [Option.some.inj found]
  · intro same r' hr'' id
    obtain rfl := later.ids.eq hr'' hr' (id.trans (Transaction.id_of_intent intent).symm)
    exact (later.sameAsRetry_iff hr' intent _).mpr ⟨_, environment, same⟩

theorem Sound.posted_by_worker (sound : s.Sound) {w : Worker} (hw : w ∈ s.workers)
    {tx : Transaction} (held : tx ∈ w.batch) {environment : Environment}
    (resolved : TransactionRetry.resolveEnvironment s.accounts tx = .ok environment)
    (later : t.Sound) (grows : Grows s t) (r' : Transaction) (hr' : r' ∈ t.transactions)
    (id : r'.id = tx.id) : t.SameAsRetry (TransactionRetry.postRequest environment tx) r' := by
  obtain ⟨r, hr, same⟩ := sound.known w hw tx held
  obtain ⟨h, -, ctx, -, made⟩ := sound.made r hr
  obtain rfl : h.request.environment = environment := by
    simpa using (resolveEnvironment_made made same).symm.trans resolved
  obtain ⟨r'', hr'', intent⟩ := grows.rows r hr
  obtain rfl := later.ids.eq hr'' hr' ((Transaction.id_of_intent (intent.trans same)).trans id.symm)
  exact (later.sameAsRetry_iff hr'' (intent.trans same) _).mpr
    ⟨_, congrArg Intent.environment (same.symm.trans made), rfl⟩

/-- A step sends nothing but retries of its row, or it is the post of a request. -/
theorem Sound.sent_cases (sound : s.Sound) (step : s.step settings a = some t) :
    ∃ extra, t.sent = s.sent ++ extra ∧
      (((∀ m ∈ extra, ∀ r ∈ t.transactions, r.id = m.externalTransactionId →
            t.SameAsRetry m r) ∧ s.PostsItsRow a) ∨
        ∃ i h ctx tx, a = .handler i .go ∧ s.handlers[i]? = some h ∧ h.point = .post ctx tx ∧
          t.transactions = s.transactions ∧
          extra = [AccountService.postRequest h.request ctx tx]) := by
  have later := sound.step step
  have grows := sound.grows step
  have silent : t.sent = s.sent → s.PostsItsRow a → ∃ extra, t.sent = s.sent ++ extra ∧
      (((∀ m ∈ extra, ∀ r ∈ t.transactions, r.id = m.externalTransactionId →
            t.SameAsRetry m r) ∧ s.PostsItsRow a) ∨
        ∃ i h ctx tx, a = .handler i .go ∧ s.handlers[i]? = some h ∧ h.point = .post ctx tx ∧
          t.transactions = s.transactions ∧
          extra = [AccountService.postRequest h.request ctx tx]) :=
    fun sent cond => ⟨[], by simpa using sent, .inl ⟨by simp, cond⟩⟩
  cases a with
  | tick ms | setAccountStatus id status | request q | startWorker | reconcileRequeue
  | reconcileFail =>
    refine silent ?_ trivial
    cases step
    rfl
  | openAccount account =>
    refine silent ?_ trivial
    rw [AccountsService.step] at step
    split_ifs at step
    cases step
    rfl
  | worker i input =>
    obtain ⟨w, at_, rest⟩ := Option.bind_eq_some_iff.mp step
    obtain ⟨⟨rows, w', message⟩, next, done⟩ := Option.bind_eq_some_iff.mp rest
    cases done
    have hw := List.mem_of_getElem? at_
    refine ⟨message.toList, rfl, .inl ⟨fun m hm => ?_, trivial⟩⟩
    cases Worker.next_move next with
    | quiet | reply | reclaim | claim | release | settle => simp at hm
    | post stage resolved =>
      obtain rfl := List.mem_singleton.mp hm
      exact sound.posted_by_worker hw (stage ▸ List.mem_cons_self) resolved later grows
  | handler i input =>
    obtain ⟨h, at_, rest⟩ := Option.bind_eq_some_iff.mp step
    obtain ⟨⟨rows, point, message⟩, next, done⟩ := Option.bind_eq_some_iff.mp rest
    cases done
    by_cases posting : input = .go ∧ ∃ ctx tx, h.point = .post ctx tx
    · obtain ⟨rfl, ctx, tx, posting⟩ := posting
      obtain ⟨rfl, rfl, rfl⟩ : s.transactions = rows ∧
          .awaitingPost ctx tx s.sent.length s.now = point ∧
          some (AccountService.postRequest h.request ctx tx) = message := by
        simpa [Handler.next, posting] using next
      exact ⟨_, rfl, .inr ⟨i, h, ctx, tx, rfl, at_, posting, rfl, rfl⟩⟩
    · refine silent ?_ ?_
      · cases Handler.next_move next with
        | quiet | reply | insert | claim | settle => exact List.append_nil _
        | post point => exact absurd ⟨rfl, _, _, point⟩ posting
      · cases input with
        | go =>
          intro g hg
          obtain rfl : h = g := Option.some.inj (at_.symm.trans hg)
          rw [Handler.PostsItsRow]
          split
          · exact absurd ⟨rfl, _, _, ‹_›⟩ posting
          · trivial
        | created id | balance answer | reply answer | fail e => trivial

/-- The step lemma: a step breaks the equality exactly when a request posts
something else than its row. -/
theorem Sound.immediate_step (sound : s.Sound) (step : s.step settings a = some t) :
    t.ImmediateEqualsRetry ↔ s.ImmediateEqualsRetry ∧ s.PostsItsRow a := by
  have later := sound.step step
  obtain ⟨extra, sent, ⟨same, cond⟩ | ⟨i, h, ctx, tx, rfl, at_, posting, rows, rfl⟩⟩ :=
    sound.sent_cases step
  · rw [sound.immediate_iff later (sound.grows step) extra sent]
    exact and_congr_right fun _ => iff_of_true same cond
  · rw [sound.immediate_iff later (sound.grows step) _ sent]
    have exact_ := sound.posted_by_request (List.mem_of_getElem? at_) posting later rows
    refine and_congr_right (fun _ => ?_)
    simp only [List.mem_singleton, forall_eq, PostsItsRow, at_, Option.mem_some_iff,
      forall_eq', Handler.PostsItsRow, posting]
    exact exact_

/-- The step lemma for one key: only a post with the key has to ask for its row. -/
theorem Sound.keyEqualsRetry_step (sound : s.Sound) {key : IdempotencyKey}
    (step : s.step settings a = some t) (before : s.KeyEqualsRetry key)
    (cond : s.PostsRowOf key a) : t.KeyEqualsRetry key := by
  have later := sound.step step
  obtain ⟨extra, sent, new⟩ := sound.sent_cases step
  intro m hm keyed
  rcases List.mem_append.mp (sent ▸ hm : m ∈ s.sent ++ extra) with old | now
  · exact (sound.old_message later (sound.grows step) old).mpr (before m old keyed)
  · rcases new with ⟨same, -⟩ | ⟨i, h, ctx, tx, rfl, at_, posting, rows, rfl⟩
    · exact same m now
    · obtain rfl := List.mem_singleton.mp now
      have hh := List.mem_of_getElem? at_
      have known := sound.handlers h hh
      rw [HandlerSound, posting] at known
      have here := cond h at_
      rw [Handler.PostsRowOf, posting] at here
      exact (sound.posted_by_request hh posting later rows).mpr
        (here ((key_postRequest known.2.1).symm.trans keyed))

theorem immediate_run (as : List AccountsAction) {s t : AccountsService} (sound : s.Sound)
    (run : Machine.run (step settings) s as = some t) :
    t.ImmediateEqualsRetry ↔
      s.ImmediateEqualsRetry ∧ Machine.Along (step settings) PostsItsRow s as := by
  induction as generalizing s with
  | nil =>
    cases run
    simp [Machine.Along]
  | cons a as ih =>
    obtain ⟨m, moved, rest⟩ := Machine.run_cons run
    rw [ih (sound.step moved) rest, sound.immediate_step moved, Machine.Along, moved, and_assoc]

/-- After a run, every message sent for a row is the one its retry would send
if and only if every request that posted asked for what its row stores. -/
theorem immediate_equals_retry_iff (settings : Settings) (as : List AccountsAction)
    (s : AccountsService) (run : Machine.run (step settings) empty as = some s) :
    s.ImmediateEqualsRetry ↔ Machine.Along (step settings) PostsItsRow empty as := by
  have start : empty.ImmediateEqualsRetry := fun m hm => absurd hm List.not_mem_nil
  rw [immediate_run as sound_empty run]
  exact and_iff_right start

/-- A stored intent of 50, and a second request with its key and another amount that
finds the row, claims it and posts. -/
def postedAgain (amount : Int) : List AccountsAction :=
  .openAccount (customer ⟨7⟩) :: storedIntent 0 "a" ⟨101⟩ ++
    [.request (depositOf amount "a"), .handler 1 .go, .handler 1 (.created ⟨102⟩), .handler 1 .go,
      .handler 1 .go]

theorem immediate_equals_retry_same : ∃ s, Machine.run (step .fromEnv) empty (postedAgain 50) =
    some s ∧ s.sent.length = 1 ∧
    (s.ImmediateEqualsRetry ↔ Machine.Along (step .fromEnv) PostsItsRow empty (postedAgain 50)) := by
  have evaluated : (Machine.run (step .fromEnv) empty (postedAgain 50)).any
      (fun s => s.sent.length = 1) = true := by decide +kernel
  obtain ⟨s, run, sent⟩ := (Option.any_eq_true _ _).mp evaluated
  exact ⟨s, run, of_decide_eq_true sent, immediate_equals_retry_iff .fromEnv _ s run⟩

/-- The second request has the amount 70: the post says 70 and the row 50. -/
theorem reused_key_posts_other : ¬ ∀ (settings : Settings) (as : List AccountsAction)
    (s : AccountsService), Machine.run (step settings) empty as = some s →
    s.ImmediateEqualsRetry := by
  intro claim
  have evaluated : (Machine.run (step .fromEnv) empty (postedAgain 70)).any (fun s =>
      s.sent.any (fun m => s.transactions.any (fun r =>
        r.id = m.externalTransactionId && r.amount = 50 && m.amount = 70))) = true := by
    decide +kernel
  obtain ⟨s, run, evaluated⟩ := (Option.any_eq_true _ _).mp evaluated
  obtain ⟨m, hm, evaluated⟩ := List.any_eq_true.mp evaluated
  obtain ⟨r, hr, evaluated⟩ := List.any_eq_true.mp evaluated
  simp only [Bool.and_eq_true, decide_eq_true_eq] at evaluated
  obtain ⟨⟨id, stored⟩, posted⟩ := evaluated
  obtain ⟨environment, -, same⟩ := claim .fromEnv _ s run m hm r hr id
  have amounts : m.amount = r.amount := congrArg PostTransactionRequest.amount same
  rw [stored, posted] at amounts
  exact absurd amounts (by decide)

end AccountsService

end RailsCore
