import RailsCore.AccountsEffects

/-!
# What no run of the accounts service breaks

Rows have unique ids and keys and were each made by some request; a request
works on a row with its own key; whoever holds a row holds its intent as
stored; and a message was sent for a row of the table. Nothing here depends on
timing or on what the ledger answers.
-/

namespace RailsCore
open TransactionRepository

/-- The account of the request has this organization and currency. -/
def ContextFor (accounts : List Account) (q : MoneyRequest) (ctx : MoneyContext) : Prop :=
  ∃ account ∈ accounts, account.id = q.accountId ∧ account.environment = some q.environment ∧
    account.organizationId = some ctx.organizationId ∧
    AccountService.currencyOf account = ctx.currency

/-- The row carries the key of the request and is in the table. -/
def RowFor (rows : List Transaction) (q : MoneyRequest) (ctx : MoneyContext) (tx : Transaction) :
    Prop :=
  tx.key = AccountService.keyOf q ctx ∧ ∃ r ∈ rows, r.intent = tx.intent

/-- What a request knows at its point. -/
def HandlerSound (accounts : List Account) (rows : List Transaction) (h : Handler) : Prop :=
  match h.point with
  | .start | .done (.error _) => True
  | .findToAccount account => ∃ a ∈ accounts, a.id = h.request.accountId ∧
      a.environment = some h.request.environment ∧ a.organizationId = account.organizationId ∧
      a.currency = account.currency
  | .findExisting ctx | .checkFunds ctx | .createOrGet ctx => ContextFor accounts h.request ctx
  | .resolve ctx tx | .reload ctx tx | .post ctx tx | .awaitingPost ctx tx _ _ | .settle ctx tx _ =>
    ContextFor accounts h.request ctx ∧ RowFor rows h.request ctx tx
  | .done (.ok tx) => ∃ ctx, ContextFor accounts h.request ctx ∧ RowFor rows h.request ctx tx

/-- Later accounts: none is removed, and only their status changes. -/
def AccountsGrow (accounts accounts' : List Account) : Prop :=
  ∀ a ∈ accounts, ∃ b ∈ accounts', b.id = a.id ∧ b.environment = a.environment ∧
    b.organizationId = a.organizationId ∧ b.currency = a.currency

/-- Later rows: none is removed, and their intents stay. -/
def RowsGrow (rows rows' : List Transaction) : Prop :=
  ∀ r ∈ rows, ∃ r' ∈ rows', r'.intent = r.intent

theorem RowsGrow.refl (rows : List Transaction) : RowsGrow rows rows := fun r hr => ⟨r, hr, rfl⟩

theorem RowsGrow.append (rows more : List Transaction) : RowsGrow rows (rows ++ more) :=
  fun r hr => ⟨r, List.mem_append_left _ hr, rfl⟩

theorem RowsGrow.updateWhere {p : Transaction → Bool} {f : Transaction → Transaction}
    (intent : ∀ r, (f r).intent = r.intent) (rows : List Transaction) :
    RowsGrow rows (Table.updateWhere p f rows) := by
  intro r hr
  refine ⟨if p r then f r else r, Table.mem_updateWhere.mpr ⟨r, hr, rfl⟩, ?_⟩
  split
  · exact intent r
  · rfl

theorem ContextFor.mono {accounts accounts' : List Account} (grow : AccountsGrow accounts accounts')
    {q : MoneyRequest} {ctx : MoneyContext} (h : ContextFor accounts q ctx) :
    ContextFor accounts' q ctx := by
  obtain ⟨a, ha, id, environment, organization, currency⟩ := h
  obtain ⟨b, hb, sameId, sameEnvironment, sameOrganization, sameCurrency⟩ := grow a ha
  refine ⟨b, hb, sameId.trans id, sameEnvironment.trans environment,
    sameOrganization.trans organization, ?_⟩
  rw [AccountService.currencyOf, sameCurrency]
  exact currency

theorem RowFor.mono {rows rows' : List Transaction} (grow : RowsGrow rows rows') {q : MoneyRequest}
    {ctx : MoneyContext} {tx : Transaction} (h : RowFor rows q ctx tx) : RowFor rows' q ctx tx := by
  obtain ⟨key, r, hr, intent⟩ := h
  obtain ⟨r', hr', same⟩ := grow r hr
  exact ⟨key, r', hr', same.trans intent⟩

theorem HandlerSound.mono {accounts accounts' : List Account} {rows rows' : List Transaction}
    (growA : AccountsGrow accounts accounts') (growR : RowsGrow rows rows') {h : Handler}
    (sound : HandlerSound accounts rows h) : HandlerSound accounts' rows' h := by
  obtain ⟨q, point⟩ := h
  cases point with
  | start => trivial
  | findToAccount account =>
    obtain ⟨a, ha, id, environment, organization, currency⟩ := sound
    obtain ⟨b, hb, sameId, sameEnvironment, sameOrganization, sameCurrency⟩ := growA a ha
    exact ⟨b, hb, sameId.trans id, sameEnvironment.trans environment,
      sameOrganization.trans organization, sameCurrency.trans currency⟩
  | findExisting ctx | checkFunds ctx | createOrGet ctx => exact ContextFor.mono growA sound
  | resolve ctx tx | reload ctx tx | post ctx tx | awaitingPost ctx tx _ _ | settle ctx tx _ =>
    exact ⟨sound.1.mono growA, sound.2.mono growR⟩
  | done result =>
    cases result with
    | error e => trivial
    | ok tx =>
      obtain ⟨ctx, context, row⟩ := sound
      exact ⟨ctx, context.mono growA, row.mono growR⟩

namespace AccountService

theorem activeAccount_ok {accounts : List Account} {id : Uuid} {environment : Environment}
    {account : Account} (h : activeAccount accounts id environment = .ok account) :
    account ∈ accounts ∧ account.id = id ∧ account.environment = some environment ∧
      account.status = some .active := by
  cases found : accounts.find? (fun a => a.id = id && a.environment = some environment) with
  | none => simp [activeAccount, AccountRepository.findById, found, bind, Except.bind] at h
  | some a =>
    simp only [activeAccount, AccountRepository.findById, found, bind, Except.bind] at h
    split_ifs at h with active
    obtain rfl := Except.ok.inj h
    have both := List.find?_some found
    simp only [Bool.and_eq_true, decide_eq_true_eq] at both
    exact ⟨List.mem_of_find?_eq_some found, both.1, both.2, active⟩

theorem sound_orEnd {accounts : List Account} {rows : List Transaction} {q : MoneyRequest}
    {next : Except AppError HandlerPoint}
    (ok : ∀ point, next = .ok point → HandlerSound accounts rows ⟨q, point⟩) :
    HandlerSound accounts rows ⟨q, orEnd next⟩ := by
  cases next with
  | error e => trivial
  | ok point => exact ok point rfl

theorem sound_afterChecks {accounts : List Account} {rows : List Transaction} {q : MoneyRequest}
    {ctx : MoneyContext} (context : ContextFor accounts q ctx) :
    HandlerSound accounts rows ⟨q, afterChecks q ctx⟩ := by
  rw [afterChecks]
  split <;> exact context

end AccountService

/-- The row found by the id of a known row has its intent. -/
theorem known_by_id {rows : List Transaction} (ids : Table.Unique Transaction.id rows)
    {tx row : Transaction} (known : ∃ r ∈ rows, r.intent = tx.intent)
    (found : Table.find Transaction.id tx.id rows = some row) : row.intent = tx.intent := by
  obtain ⟨r, hr, same⟩ := known
  obtain ⟨mem, id⟩ := Table.find_some found
  rw [ids.eq mem hr (id.trans (Transaction.id_of_intent same).symm)]
  exact same

theorem findById_rowFor {rows : List Transaction} (ids : Table.Unique Transaction.id rows)
    {q : MoneyRequest} {ctx : MoneyContext} {tx tx' : Transaction} (row : RowFor rows q ctx tx)
    (found : findById tx.id rows = .ok tx') : RowFor rows q ctx tx' := by
  rw [findById] at found
  cases hf : Table.find Transaction.id tx.id rows with
  | none => simp [hf] at found
  | some r =>
    simp only [hf] at found
    obtain rfl := Except.ok.inj found
    have same := known_by_id ids row.2 hf
    exact ⟨(Transaction.key_of_intent same).trans row.1, r, (Table.find_some hf).1, rfl⟩

open AccountService in
/-- A step of a request keeps what it knows. -/
theorem Handler.next_sound {now call : Nat} {accounts : List Account} {rows : List Transaction}
    {h : Handler} {input : HandlerInput} {rows' : List Transaction} {point : HandlerPoint}
    {message : Option PostTransactionRequest} (ids : Table.Unique Transaction.id rows)
    (sound : HandlerSound accounts rows h)
    (step : h.next now call accounts rows input = some (rows', point, message)) :
    RowsGrow rows rows' ∧ HandlerSound accounts rows' { h with point } := by
  obtain ⟨request, at_⟩ := h
  by_cases failed : ∃ e, input = .fail e
  · obtain ⟨e, rfl⟩ := failed
    cases at_ <;> simp only [Handler.next, reduceCtorEq] at step <;> cases step <;>
      exact ⟨.refl _, trivial⟩
  cases at_ with
  | done result => simp [Handler.next] at step
  | start =>
    cases input <;> simp [Handler.next] at step failed
    obtain ⟨rfl, rfl, rfl⟩ := step
    refine ⟨.refl _, sound_orEnd (fun point ok => ?_)⟩
    obtain ⟨-, account, found, ⟨-, rfl⟩ | ⟨-, organizationId, organization, rfl⟩⟩ := start_ok ok
    · obtain ⟨mem, id, environment, -⟩ := activeAccount_ok found
      exact ⟨account, mem, id, environment, rfl, rfl⟩
    · obtain ⟨mem, id, environment, -⟩ := activeAccount_ok found
      exact sound_afterChecks ⟨account, mem, id, environment, organization, rfl⟩
  | findToAccount fromAccount =>
    cases input <;> simp [Handler.next] at step failed
    obtain ⟨rfl, rfl, rfl⟩ := step
    refine ⟨.refl _, sound_orEnd (fun point ok => ?_)⟩
    obtain ⟨toAccount, organizationId, -, organization, -, -, rfl⟩ := checkToAccount_ok ok
    obtain ⟨a, ha, id, environment, sameOrganization, sameCurrency⟩ := sound
    refine sound_afterChecks ⟨a, ha, id, environment, sameOrganization.trans organization, ?_⟩
    rw [currencyOf, sameCurrency]
    rfl
  | findExisting ctx =>
    cases input <;> simp [Handler.next] at step failed
    obtain ⟨rfl, rfl, rfl⟩ := step
    refine ⟨.refl _, ?_⟩
    cases found : Table.find Transaction.key (keyOf request ctx) rows with
    | none =>
      rw [findByIdempotency, found]
      exact sound
    | some r =>
      obtain ⟨mem, key⟩ := Table.find_some found
      rw [findByIdempotency, found, Option.map_some, afterLookup]
      split
      · exact ⟨ctx, sound, key, r, mem, rfl⟩
      · exact sound
  | checkFunds ctx =>
    cases input <;> simp [Handler.next] at step failed
    obtain ⟨rfl, rfl, rfl⟩ := step
    refine ⟨.refl _, sound_orEnd (fun point ok => ?_)⟩
    rw [(afterFundsCheck_ok ok).1]
    exact sound
  | createOrGet ctx =>
    cases input <;> simp [Handler.next] at step failed
    rename_i id
    rw [createOrGetByIdempotency] at step
    cases existing : Table.find Transaction.key (newIntent now id request ctx).key rows with
    | some tx =>
      simp only [existing] at step
      cases step
      obtain ⟨mem, key⟩ := Table.find_some existing
      exact ⟨.refl _, sound, key, tx, mem, rfl⟩
    | none =>
      simp only [existing] at step
      split_ifs at step with long taken
      · cases step
        exact ⟨.refl _, trivial⟩
      · cases step
        exact ⟨.refl _, trivial⟩
      · cases step
        exact ⟨.append _ _, sound, rfl, _, List.mem_append_right _ (List.mem_singleton.mpr rfl), rfl⟩
  | resolve ctx tx =>
    cases input <;> simp [Handler.next] at step failed
    obtain ⟨rfl, rfl, rfl⟩ := step
    obtain ⟨context, row⟩ := sound
    rw [resolveImmediateLedgerPost]
    cases status : tx.status with
    | posted | posting | failed => exact ⟨.refl _, ctx, context, row⟩
    | pending =>
      simp only [tryClaimPendingForPost]
      cases found : Table.find Transaction.id tx.id rows with
      | none => exact ⟨.refl _, context, row⟩
      | some r =>
        by_cases pending : r.status = .pending
        · simp only [pending, if_true]
          have grow := RowsGrow.updateWhere (p := fun r => r.id = tx.id && r.status = .pending)
            (stamps_claimedForPost now).intent rows
          have same := known_by_id ids row.2 found
          refine ⟨grow, context, (Transaction.key_of_intent same).trans row.1, ?_⟩
          exact grow r (Table.find_some found).1
        · simp only [pending, if_false]
          exact ⟨.refl _, context, row⟩
  | reload ctx tx =>
    cases input <;> simp [Handler.next] at step failed
    obtain ⟨rfl, rfl, rfl⟩ := step
    refine ⟨.refl _, ?_⟩
    cases found : findById tx.id rows with
    | error e => trivial
    | ok tx' => exact ⟨ctx, sound.1, findById_rowFor ids sound.2 found⟩
  | post ctx tx =>
    cases input <;> simp [Handler.next] at step failed
    obtain ⟨rfl, rfl, rfl⟩ := step
    exact ⟨.refl _, sound⟩
  | awaitingPost ctx tx call' sentAt =>
    cases input <;> simp [Handler.next] at step failed
    obtain ⟨rfl, rfl, rfl⟩ := step
    exact ⟨.refl _, sound⟩
  | settle ctx tx result =>
    cases input <;> simp [Handler.next] at step failed
    obtain ⟨rfl, rfl, rfl⟩ := step
    obtain ⟨f, stamps, rows'⟩ := Handler.settled_stamps now tx result rows
    have grow : RowsGrow rows (Handler.settled now tx result rows) :=
      rows' ▸ RowsGrow.updateWhere stamps.intent rows
    refine ⟨grow, ?_⟩
    cases found : findById tx.id (Handler.settled now tx result rows) with
    | error e => trivial
    | ok tx' =>
      refine ⟨ctx, sound.1, findById_rowFor ?_ (sound.2.mono grow) found⟩
      rw [rows']
      exact ids.updateWhere (fun r => Transaction.id_of_intent (stamps.intent r))

/-- The row was stored by the request. -/
def MadeBy (q : MoneyRequest) (ctx : MoneyContext) (r : Transaction) : Prop :=
  r.intent = (AccountService.newIntent r.createdAt r.id q ctx).intent

theorem MadeBy.key {q : MoneyRequest} {ctx : MoneyContext} {r : Transaction}
    (made : MadeBy q ctx r) : r.key = AccountService.keyOf q ctx :=
  Transaction.key_of_intent made

/-- The retry of a row says what the request that stored it would have said. -/
theorem retry_uncorrelated {q : MoneyRequest} {ctx : MoneyContext} {r : Transaction}
    (made : MadeBy q ctx r) :
    (TransactionRetry.postRequest q.environment r).uncorrelated =
      (AccountService.postRequest q ctx r).uncorrelated := by
  simp only [MadeBy, Transaction.intent, AccountService.newIntent, newRow, Intent.mk.injEq,
    transactionKind_operation] at made
  obtain ⟨-, organization, source, destination, amount, currency, kind, key, -, -⟩ := made
  simp only [PostTransactionRequest.uncorrelated, TransactionRetry.postRequest,
    AccountService.postRequest, TransactionRetry.sourceExternal, TransactionRetry.destExternal,
    organization, amount, currency, source, destination, kind]
  cases hk : q.kind <;> simp [MoneyRequest.operation, hk] <;>
    exact ⟨rfl, rfl⟩

theorem Worker.awaited_calm {w : Worker} (calm : w.stage = .idle ∨ w.stage = .working) :
    w.awaited = none := by
  obtain ⟨stage, batch⟩ := w
  rcases calm with rfl | rfl <;> rfl

theorem postRequest_of_intent {a b : Transaction} (same : a.intent = b.intent) (q : MoneyRequest)
    (ctx : MoneyContext) : AccountService.postRequest q ctx a = AccountService.postRequest q ctx b :=
  congrArg (fun i : Intent => { AccountService.postRequest q ctx a with
    externalTransactionId := i.id
    idempotencyKey := i.idempotencyKey
    correlationId := q.correlationId.getD i.id.toString }) same

/-- A post carries the key of its row. -/
theorem key_postRequest {q : MoneyRequest} {ctx : MoneyContext} {tx : Transaction}
    (key : tx.key = AccountService.keyOf q ctx) :
    (AccountService.postRequest q ctx tx).key = tx.key := by
  have same : tx.idempotencyKey = q.idempotencyKey := congrArg IdempotencyKey.idempotencyKey key
  rw [key]
  exact congrArg _ same

theorem key_retryRequest {tx : Transaction} {environment : Environment}
    (has : tx.environment = some environment) :
    (TransactionRetry.postRequest environment tx).key = tx.key := by
  rw [Transaction.key, has]
  rfl

theorem retryRequest_of_intent {a b : Transaction} (same : a.intent = b.intent)
    (environment : Environment) :
    TransactionRetry.postRequest environment a = TransactionRetry.postRequest environment b := by
  simp only [Transaction.intent, Intent.mk.injEq] at same
  obtain ⟨id, organization, source, destination, amount, currency, kind, key, -, -⟩ := same
  simp only [TransactionRetry.postRequest, TransactionRetry.sourceExternal,
    TransactionRetry.destExternal, id, organization, source, destination, amount, currency, kind,
    key]

theorem back_updateWhere {p : Transaction → Bool} {f : Transaction → Transaction}
    (intent : ∀ r, (f r).intent = r.intent) {rows : List Transaction} :
    ∀ r' ∈ Table.updateWhere p f rows, ∃ r ∈ rows, r'.intent = r.intent := by
  intro r' hr'
  obtain ⟨r, hr, rfl⟩ := Table.mem_updateWhere.mp hr'
  refine ⟨r, hr, ?_⟩
  split
  · exact intent r
  · rfl

/-- Only a request at `createOrGet` brings a new row. -/
theorem HandlerMove.back {now call : Nat} {rows rows' : List Transaction} {h : Handler}
    {input : HandlerInput} {point : HandlerPoint} {message : Option PostTransactionRequest}
    (move : HandlerMove now call rows h input rows' point message) :
    ∀ r' ∈ rows', (∃ r ∈ rows, r'.intent = r.intent) ∨
      ∃ ctx, h.point = .createOrGet ctx ∧ MadeBy h.request ctx r' := by
  intro r' hr'
  cases move with
  | quiet | reply | post => exact .inl ⟨r', hr', rfl⟩
  | insert at_ freshKey freshId =>
    rename_i ctx id
    rcases List.mem_append.mp hr' with old | new
    · exact .inl ⟨r', old, rfl⟩
    · obtain rfl := List.mem_singleton.mp new
      exact .inr ⟨ctx, at_, rfl⟩
  | claim => exact .inl (back_updateWhere (stamps_claimedForPost now).intent r' hr')
  | settle at_ =>
    rename_i ctx tx result
    obtain ⟨f, stamps, updated⟩ := Handler.settled_stamps now tx result rows
    rw [updated] at hr'
    exact .inl (back_updateWhere stamps.intent r' hr')

theorem WorkerMove.back {settings : Settings} {now call : Nat} {accounts : List Account}
    {rows rows' : List Transaction} {w w' : Worker} {input : WorkerInput}
    {message : Option PostTransactionRequest}
    (move : WorkerMove settings now call accounts rows w input rows' w' message) :
    ∀ r' ∈ rows', ∃ r ∈ rows, r'.intent = r.intent := by
  intro r' hr'
  cases move with
  | quiet | reply | post => exact ⟨r', hr', rfl⟩
  | reclaim => exact back_updateWhere (stamps_requeued now _).intent r' hr'
  | claim at_ claimed =>
    rw [(claim_batch claimed).1] at hr'
    exact back_updateWhere (stamps_claimedForRetry now).intent r' hr'
  | release => exact back_updateWhere (stamps_withStatus now _ _).intent r' hr'
  | settle at_ =>
    rename_i tx rest result
    obtain ⟨f, stamps, updated⟩ := Worker.settled_stamps settings now tx result rows
    rw [updated] at hr'
    exact back_updateWhere stamps.intent r' hr'

theorem HandlerPoint.awaited_of_held {point : HandlerPoint} (held : point.held = none) :
    point.awaited = none := by
  cases point <;> first
    | rfl
    | cases held

namespace AccountsService

/-- The message is the immediate post of a request with the key of a row. -/
def SentFor (s : AccountsService) (m : PostTransactionRequest) : Prop :=
  ∃ h ∈ s.handlers, ∃ ctx, ContextFor s.accounts h.request ctx ∧ ∃ r ∈ s.transactions,
    r.key = AccountService.keyOf h.request ctx ∧
    m.uncorrelated = (AccountService.postRequest h.request ctx r).uncorrelated

structure Sound (s : AccountsService) : Prop where
  ids : Table.Unique Transaction.id s.transactions
  keys : Table.Unique Transaction.key s.transactions
  once : ∀ w ∈ s.workers, (w.batch.map Transaction.id).Nodup
  known : ∀ w ∈ s.workers, ∀ tx ∈ w.batch, ∃ r ∈ s.transactions, r.intent = tx.intent
  handlers : ∀ h ∈ s.handlers, HandlerSound s.accounts s.transactions h
  made : ∀ r ∈ s.transactions, ∃ h ∈ s.handlers, ∃ ctx,
    ContextFor s.accounts h.request ctx ∧ MadeBy h.request ctx r
  sent : ∀ m ∈ s.sent, s.SentFor m
  awaitedByHandler : ∀ h ∈ s.handlers, ∀ c tx, h.point.awaited = some (c, tx) →
    ∃ m, s.sent[c]? = some m ∧ m.key = tx.key
  awaitedByWorker : ∀ w ∈ s.workers, ∀ c tx, w.awaited = some (c, tx) →
    ∃ m, s.sent[c]? = some m ∧ m.key = tx.key

theorem sound_empty : empty.Sound := by
  constructor <;> simp [empty, Table.unique_nil]

/-- Everything a later state still has. -/
structure Grows (s t : AccountsService) : Prop where
  now : s.now ≤ t.now
  accounts : AccountsGrow s.accounts t.accounts
  rows : RowsGrow s.transactions t.transactions
  requests : ∀ (i : Nat) (h : Handler), s.handlers[i]? = some h →
    ∃ h', t.handlers[i]? = some h' ∧ h'.request = h.request
  sent : s.sent <+: t.sent

theorem Grows.request {s t : AccountsService} (grows : Grows s t) {h : Handler}
    (hh : h ∈ s.handlers) : ∃ h' ∈ t.handlers, h'.request = h.request := by
  obtain ⟨i, at_⟩ := List.mem_iff_getElem?.mp hh
  obtain ⟨h', at', same⟩ := grows.requests i h at_
  exact ⟨h', List.mem_of_getElem? at', same⟩

theorem Grows.sentFor {s t : AccountsService} (grows : Grows s t) {m : PostTransactionRequest}
    (sent : s.SentFor m) : t.SentFor m := by
  obtain ⟨h, hh, ctx, context, r, hr, key, message⟩ := sent
  obtain ⟨h', hh', same⟩ := grows.request hh
  obtain ⟨r', hr', intent⟩ := grows.rows r hr
  refine ⟨h', hh', ctx, same ▸ context.mono grows.accounts, r', hr', ?_, ?_⟩
  · rw [Transaction.key_of_intent intent, same]
    exact key
  · rw [message, same, postRequest_of_intent intent]

theorem Grows.madeBy {s t : AccountsService} (grows : Grows s t) {r r' : Transaction}
    (intent : r'.intent = r.intent)
    (made : ∃ h ∈ s.handlers, ∃ ctx, ContextFor s.accounts h.request ctx ∧ MadeBy h.request ctx r) :
    ∃ h ∈ t.handlers, ∃ ctx, ContextFor t.accounts h.request ctx ∧ MadeBy h.request ctx r' := by
  obtain ⟨h, hh, ctx, context, made⟩ := made
  obtain ⟨h', hh', same⟩ := grows.request hh
  refine ⟨h', hh', ctx, same ▸ context.mono grows.accounts, ?_⟩
  have fields := congrArg (fun i : Intent => (i.createdAt, i.id)) intent
  obtain ⟨createdAt, id⟩ := Prod.mk.inj fields
  rw [MadeBy, intent, made, same]
  exact congrArg₂ (fun c i => (AccountService.newIntent c i h.request ctx).intent) createdAt.symm
    id.symm

theorem Effect.rowsGrow {settings : Settings} {s t : AccountsService} {a : AccountsAction}
    (effect : Effect settings s a t) : RowsGrow s.transactions t.transactions := by
  cases effect with
  | quiet rows => exact rows ▸ .refl _
  | insert row _ _ _ rows => exact rows ▸ .append _ _
  | claim actor p f only stamps rows => exact rows ▸ .updateWhere stamps.intent _
  | requeue f at_ stamps rows => exact rows ▸ .updateWhere stamps.intent _
  | settle actor tx status f held at_ stamps rows => exact rows ▸ .updateWhere stamps.intent _
  | expire f at_ stamps rows => exact rows ▸ .updateWhere stamps.intent _

/-- A column of the intent that no two rows share stays so, if a new row brings a new value. -/
theorem Effect.unique {settings : Settings} {s t : AccountsService} {a : AccountsAction}
    (effect : Effect settings s a t) :
    (Table.Unique Transaction.id s.transactions → Table.Unique Transaction.id t.transactions) ∧
    (Table.Unique Transaction.key s.transactions → Table.Unique Transaction.key t.transactions) := by
  have update : ∀ {p : Transaction → Bool} {f : Transaction → Transaction},
      (∀ r, (f r).intent = r.intent) → t.transactions = Table.updateWhere p f s.transactions →
      (Table.Unique Transaction.id s.transactions → Table.Unique Transaction.id t.transactions) ∧
      (Table.Unique Transaction.key s.transactions →
        Table.Unique Transaction.key t.transactions) := by
    intro p f intent rows
    rw [rows]
    exact ⟨fun ids => ids.updateWhere (fun r => Transaction.id_of_intent (intent r)),
      fun keys => keys.updateWhere (fun r => Transaction.key_of_intent (intent r))⟩
  cases effect with
  | quiet rows => exact rows ▸ ⟨id, id⟩
  | insert row freshKey freshId pending rows =>
    rw [rows]
    exact ⟨fun ids => ids.insert (Table.find_none_iff.mp freshId),
      fun keys => keys.insert (Table.find_none_iff.mp freshKey)⟩
  | claim actor p f only stamps rows => exact update stamps.intent rows
  | requeue f at_ stamps rows => exact update stamps.intent rows
  | settle actor tx status f held at_ stamps rows => exact update stamps.intent rows
  | expire f at_ stamps rows => exact update stamps.intent rows

theorem grows_afterHandler {s : AccountsService} {i : Nat} {h : Handler} {point : HandlerPoint}
    {rows : List Transaction} {message : Option PostTransactionRequest}
    (at_ : s.handlers[i]? = some h) (rowsGrow : RowsGrow s.transactions rows) :
    Grows s (s.afterHandler i { h with point } rows message) where
  now := Nat.le_refl _
  accounts := fun a ha => ⟨a, ha, rfl, rfl, rfl, rfl⟩
  rows := rowsGrow
  requests := by
    intro j g hg
    have bound := (List.getElem?_eq_some_iff.mp at_).1
    by_cases same : j = i
    · subst same
      obtain rfl : h = g := Option.some.inj (at_.symm.trans hg)
      exact ⟨{ h with point }, by simp [afterHandler, bound], rfl⟩
    · exact ⟨g, by simpa [afterHandler, List.getElem?_set_ne (Ne.symm same)] using hg, rfl⟩
  sent := List.prefix_append _ _

theorem grows_afterWorker {s : AccountsService} {i : Nat} {w : Worker} {rows : List Transaction}
    {message : Option PostTransactionRequest} (rowsGrow : RowsGrow s.transactions rows) :
    Grows s (s.afterWorker i w rows message) where
  now := Nat.le_refl _
  accounts := fun a ha => ⟨a, ha, rfl, rfl, rfl, rfl⟩
  rows := rowsGrow
  requests := fun _ g hg => ⟨g, hg, rfl⟩
  sent := List.prefix_append _ _

theorem Sound.effect {settings : Settings} {s t : AccountsService} {a : AccountsAction}
    (sound : s.Sound) (step : s.step settings a = some t) : Effect settings s a t :=
  effect_step sound.once step

/-- Accounts, rows, requests and messages stay. -/
theorem Sound.grows {settings : Settings} {s t : AccountsService} {a : AccountsAction}
    (sound : s.Sound) (step : s.step settings a = some t) : Grows s t := by
  have rowsGrow := (sound.effect step).rowsGrow
  cases a with
  | tick ms =>
    cases step
    exact ⟨Nat.le_add_right _ _, fun a ha => ⟨a, ha, rfl, rfl, rfl, rfl⟩, rowsGrow,
      fun _ h hh => ⟨h, hh, rfl⟩, List.prefix_refl _⟩
  | openAccount account =>
    rw [AccountsService.step] at step
    split_ifs at step
    cases step
    exact ⟨Nat.le_refl _, fun a ha => ⟨a, List.mem_append_left _ ha, rfl, rfl, rfl, rfl⟩, rowsGrow,
      fun _ h hh => ⟨h, hh, rfl⟩, List.prefix_refl _⟩
  | setAccountStatus id status =>
    cases step
    refine ⟨Nat.le_refl _, fun a ha => ?_, rowsGrow, fun _ h hh => ⟨h, hh, rfl⟩, List.prefix_refl _⟩
    refine ⟨_, Table.mem_updateWhere.mpr ⟨a, ha, rfl⟩, ?_⟩
    split <;> exact ⟨rfl, rfl, rfl, rfl⟩
  | request q =>
    cases step
    refine ⟨Nat.le_refl _, fun a ha => ⟨a, ha, rfl, rfl, rfl, rfl⟩, rowsGrow, fun i h hh => ?_,
      List.prefix_refl _⟩
    refine ⟨h, ?_, rfl⟩
    rw [List.getElem?_append_left (List.getElem?_eq_some_iff.mp hh).1]
    exact hh
  | startWorker | reconcileRequeue | reconcileFail =>
    cases step
    exact ⟨Nat.le_refl _, fun a ha => ⟨a, ha, rfl, rfl, rfl, rfl⟩, rowsGrow,
      fun _ h hh => ⟨h, hh, rfl⟩, List.prefix_refl _⟩
  | handler i input =>
    obtain ⟨h, at_, rest⟩ := Option.bind_eq_some_iff.mp step
    obtain ⟨⟨rows, point, message⟩, next, done⟩ := Option.bind_eq_some_iff.mp rest
    cases done
    exact grows_afterHandler at_ rowsGrow
  | worker i input =>
    obtain ⟨w, at_, rest⟩ := Option.bind_eq_some_iff.mp step
    obtain ⟨⟨rows, w', message⟩, next, done⟩ := Option.bind_eq_some_iff.mp rest
    cases done
    exact grows_afterWorker rowsGrow

theorem awaited_mono {sent sent' : List PostTransactionRequest} (grow : sent <+: sent') {c : Nat}
    {key : IdempotencyKey} (h : ∃ m, sent[c]? = some m ∧ m.key = key) :
    ∃ m, sent'[c]? = some m ∧ m.key = key := by
  obtain ⟨m, at_, same⟩ := h
  obtain ⟨more, rfl⟩ := grow
  refine ⟨m, ?_, same⟩
  rw [List.getElem?_append_left (List.getElem?_eq_some_iff.mp at_).1]
  exact at_

/-- What a step that brings no row, request, message or holder of its own keeps. -/
theorem Sound.same {settings : Settings} {s t : AccountsService} {a : AccountsAction}
    (sound : s.Sound) (step : s.step settings a = some t)
    (rows : ∀ r' ∈ t.transactions, ∃ r ∈ s.transactions, r'.intent = r.intent)
    (handlers : ∀ h ∈ t.handlers, h ∈ s.handlers ∨ h.point = .start)
    (workers : ∀ w ∈ t.workers, w ∈ s.workers ∨ w = Worker.idle)
    (sent : t.sent = s.sent) : t.Sound where
  ids := (sound.effect step).unique.1 sound.ids
  keys := (sound.effect step).unique.2 sound.keys
  once := by
    intro w hw
    rcases workers w hw with old | rfl
    · exact sound.once w old
    · exact List.nodup_nil
  known := by
    intro w hw tx htx
    rcases workers w hw with old | rfl
    · obtain ⟨r, hr, same⟩ := sound.known w old tx htx
      obtain ⟨r', hr', same'⟩ := (sound.grows step).rows r hr
      exact ⟨r', hr', same'.trans same⟩
    · cases htx
  handlers := by
    intro h hh
    rcases handlers h hh with old | start
    · exact (sound.handlers h old).mono (sound.grows step).accounts (sound.grows step).rows
    · rw [HandlerSound, start]
      trivial
  made := by
    intro r' hr'
    obtain ⟨r, hr, same⟩ := rows r' hr'
    exact (sound.grows step).madeBy same (sound.made r hr)
  sent := fun m hm => (sound.grows step).sentFor (sound.sent m (sent ▸ hm))
  awaitedByHandler := by
    intro h hh c tx awaited
    rcases handlers h hh with old | start
    · exact sent ▸ sound.awaitedByHandler h old c tx awaited
    · rw [start] at awaited
      cases awaited
  awaitedByWorker := by
    intro w hw c tx awaited
    rcases workers w hw with old | rfl
    · exact sent ▸ sound.awaitedByWorker w old c tx awaited
    · cases awaited

theorem Sound.handler {s : AccountsService} (sound : s.Sound) {i : Nat}
    {h : Handler} {input : HandlerInput} {rows : List Transaction} {point : HandlerPoint}
    {message : Option PostTransactionRequest} (at_ : s.handlers[i]? = some h)
    (next : h.next s.now s.sent.length s.accounts s.transactions input =
      some (rows, point, message)) : (s.afterHandler i { h with point } rows message).Sound := by
  have effect : Effect .fromEnv s (.handler i input) _ := effect_handler at_ next
  have mem := List.mem_of_getElem? at_
  obtain ⟨rowsGrow, sound'⟩ := Handler.next_sound sound.ids (sound.handlers h mem) next
  have grows : Grows s (s.afterHandler i { h with point } rows message) :=
    grows_afterHandler at_ rowsGrow
  have move := Handler.next_move next
  have known := sound.handlers h mem
  refine ⟨effect.unique.1 sound.ids, effect.unique.2 sound.keys, sound.once, ?_, ?_, ?_, ?_, ?_, ?_⟩
  · intro w hw tx htx
    obtain ⟨r, hr, same⟩ := sound.known w hw tx htx
    obtain ⟨r', hr', same'⟩ := rowsGrow r hr
    exact ⟨r', hr', same'.trans same⟩
  · intro g hg
    rcases List.mem_or_eq_of_mem_set hg with old | rfl
    · exact (sound.handlers g old).mono grows.accounts rowsGrow
    · exact sound'
  · intro r' hr'
    rcases move.back r' hr' with ⟨r, hr, same⟩ | ⟨ctx, creating, made⟩
    · exact grows.madeBy same (sound.made r hr)
    · rw [HandlerSound, creating] at known
      exact grows.madeBy rfl ⟨h, mem, ctx, known, made⟩
  · intro m hm
    rcases List.mem_append.mp hm with old | new
    · exact grows.sentFor (sound.sent m old)
    · cases move with
      | quiet | reply | insert | claim | settle => simp at new
      | post posting =>
        rename_i ctx tx
        obtain rfl : m = AccountService.postRequest h.request ctx tx := by simpa using new
        rw [HandlerSound, posting] at known
        obtain ⟨context, key, r, hr, same⟩ := known
        refine grows.sentFor ⟨h, mem, ctx, context, r, hr, ?_, ?_⟩
        · exact (Transaction.key_of_intent same).trans key
        · rw [postRequest_of_intent same]
  · intro g hg c tx awaited
    rcases List.mem_or_eq_of_mem_set hg with old | rfl
    · exact awaited_mono grows.sent (sound.awaitedByHandler g old c tx awaited)
    · cases move with
      | quiet held =>
        rw [HandlerPoint.awaited_of_held held] at awaited
        cases awaited
      | reply | insert | claim | settle => cases awaited
      | post posting =>
        rename_i ctx tx'
        cases awaited
        rw [HandlerSound, posting] at known
        obtain ⟨context, key, -⟩ := known
        exact ⟨AccountService.postRequest h.request ctx tx, by simp [afterHandler],
          key_postRequest key⟩
  · intro w hw c tx awaited
    exact awaited_mono grows.sent (sound.awaitedByWorker w hw c tx awaited)

/-- A stored row has an environment, and a retry uses it. -/
theorem resolveEnvironment_made {accounts : List Account} {q : MoneyRequest} {ctx : MoneyContext}
    {r tx : Transaction} (made : MadeBy q ctx r) (same : r.intent = tx.intent) :
    TransactionRetry.resolveEnvironment accounts tx = .ok q.environment := by
  have environment : tx.environment = some q.environment :=
    congrArg Intent.environment (same.symm.trans made)
  rw [TransactionRetry.resolveEnvironment, environment]

theorem Sound.environment_resolved {s : AccountsService} (sound : s.Sound) {w : Worker}
    (hw : w ∈ s.workers) {tx : Transaction} (held : tx ∈ w.batch) {environment : Environment}
    (resolved : TransactionRetry.resolveEnvironment s.accounts tx = .ok environment) :
    tx.environment = some environment := by
  obtain ⟨r, hr, same⟩ := sound.known w hw tx held
  obtain ⟨h, -, ctx, -, made⟩ := sound.made r hr
  obtain rfl : h.request.environment = environment := by
    simpa using (resolveEnvironment_made made same).symm.trans resolved
  exact congrArg Intent.environment (same.symm.trans made)

theorem Sound.worker {settings : Settings} {s : AccountsService} (sound : s.Sound) {i : Nat}
    {w w' : Worker} {input : WorkerInput} {rows : List Transaction}
    {message : Option PostTransactionRequest} (at_ : s.workers[i]? = some w)
    (next : w.next settings s.now s.sent.length s.accounts s.transactions input =
      some (rows, w', message)) : (s.afterWorker i w' rows message).Sound := by
  have mem := List.mem_of_getElem? at_
  have effect : Effect settings s (.worker i input) _ := effect_worker at_ (sound.once w mem) next
  have rowsGrow : RowsGrow s.transactions rows := effect.rowsGrow
  have grows : Grows s (s.afterWorker i w' rows message) := grows_afterWorker rowsGrow
  have move := Worker.next_move next
  have once := sound.once w mem
  have known := sound.known w mem
  have later : ∀ tx : Transaction, (∃ r ∈ s.transactions, r.intent = tx.intent) →
      ∃ r ∈ rows, r.intent = tx.intent := by
    rintro tx ⟨r, hr, same⟩
    obtain ⟨r', hr', same'⟩ := rowsGrow r hr
    exact ⟨r', hr', same'.trans same⟩
  refine ⟨effect.unique.1 sound.ids, effect.unique.2 sound.keys, ?_, ?_,
    fun h hh => (sound.handlers h hh).mono grows.accounts rowsGrow, ?_, ?_, ?_, ?_⟩
  · intro v hv
    rcases List.mem_or_eq_of_mem_set hv with old | rfl
    · exact sound.once v old
    · cases move with
      | quiet calm suffix => exact once.sublist (suffix.sublist.map _)
      | reclaim => exact List.nodup_nil
      | claim stage claimed => exact (claim_batch claimed).2.1
      | reply stage | post stage =>
        subst stage
        exact once
      | release stage => exact (stage ▸ once : (List.map _ (_ :: _)).Nodup).of_cons
      | settle stage => exact (stage ▸ once : (List.map _ (_ :: _)).Nodup).of_cons
  · intro v hv tx htx
    rcases List.mem_or_eq_of_mem_set hv with old | rfl
    · exact later tx (sound.known v old tx htx)
    · cases move with
      | quiet calm suffix => exact later tx (known tx (suffix.subset htx))
      | reclaim => cases htx
      | claim stage claimed =>
        obtain ⟨r, hr, -, rfl⟩ := (claim_batch claimed).2.2.2 tx htx
        exact later _ ⟨r, hr, ((stamps_claimedForRetry s.now).intent r).symm⟩
      | reply stage => exact later tx (known tx (stage ▸ htx))
      | post stage => exact later tx (known tx (stage ▸ htx))
      | release stage => exact later tx (known tx (stage ▸ List.mem_cons_of_mem _ htx))
      | settle stage => exact later tx (known tx (stage ▸ List.mem_cons_of_mem _ htx))
  · intro r' hr'
    obtain ⟨r, hr, same⟩ := move.back r' hr'
    exact grows.madeBy same (sound.made r hr)
  · intro m hm
    rcases List.mem_append.mp hm with old | new
    · exact grows.sentFor (sound.sent m old)
    · cases move with
      | quiet | reply | reclaim | claim | release | settle => simp at new
      | post stage resolved =>
        rename_i tx rest environment
        obtain rfl : m = TransactionRetry.postRequest environment tx := by simpa using new
        obtain ⟨r, hr, same⟩ := known tx (stage ▸ List.mem_cons_self)
        obtain ⟨h, hh, ctx, context, made⟩ := sound.made r hr
        obtain rfl : h.request.environment = environment := by
          simpa using (resolveEnvironment_made made same).symm.trans resolved
        refine grows.sentFor ⟨h, hh, ctx, context, r, hr, made.key, ?_⟩
        rw [← retryRequest_of_intent same]
        exact retry_uncorrelated made
  · intro h hh c tx awaited
    exact awaited_mono grows.sent (sound.awaitedByHandler h hh c tx awaited)
  · intro v hv c tx awaited
    rcases List.mem_or_eq_of_mem_set hv with old | rfl
    · exact awaited_mono grows.sent (sound.awaitedByWorker v old c tx awaited)
    · cases move with
      | quiet calm suffix =>
        rw [Worker.awaited_calm calm] at awaited
        cases awaited
      | reclaim => cases awaited
      | reply => cases awaited
      | claim =>
        rw [Worker.awaited_calm (Worker.stage_on _)] at awaited
        cases awaited
      | release =>
        rw [Worker.awaited_calm (Worker.stage_on _)] at awaited
        cases awaited
      | settle =>
        rw [Worker.awaited_calm (Worker.stage_on _)] at awaited
        cases awaited
      | post stage resolved =>
        rename_i tx' rest environment
        cases awaited
        exact ⟨TransactionRetry.postRequest environment tx, by simp [afterWorker],
          key_retryRequest (sound.environment_resolved mem (stage ▸ List.mem_cons_self) resolved)⟩

/-- The step lemma of the accounts service. -/
theorem Sound.step {settings : Settings} {s t : AccountsService} {a : AccountsAction}
    (sound : s.Sound) (step : s.step settings a = some t) : t.Sound := by
  cases a with
  | handler i input =>
    obtain ⟨h, at_, rest⟩ := Option.bind_eq_some_iff.mp step
    obtain ⟨⟨rows, point, message⟩, next, done⟩ := Option.bind_eq_some_iff.mp rest
    cases done
    exact sound.handler at_ next
  | worker i input =>
    obtain ⟨w, at_, rest⟩ := Option.bind_eq_some_iff.mp step
    obtain ⟨⟨rows, w', message⟩, next, done⟩ := Option.bind_eq_some_iff.mp rest
    cases done
    exact sound.worker at_ next
  | tick ms | setAccountStatus id status =>
    refine sound.same step ?_ ?_ ?_ ?_ <;> cases step
    · exact fun r hr => ⟨r, hr, rfl⟩
    · exact fun h hh => .inl hh
    · exact fun w hw => .inl hw
    · rfl
  | openAccount account =>
    refine sound.same step ?_ ?_ ?_ ?_ <;> rw [AccountsService.step] at step <;>
      split_ifs at step <;> cases step
    · exact fun r hr => ⟨r, hr, rfl⟩
    · exact fun h hh => .inl hh
    · exact fun w hw => .inl hw
    · rfl
  | request q =>
    refine sound.same step ?_ ?_ ?_ ?_ <;> cases step
    · exact fun r hr => ⟨r, hr, rfl⟩
    · intro h hh
      rcases List.mem_append.mp hh with old | new
      · exact .inl old
      · exact .inr (List.mem_singleton.mp new ▸ rfl)
    · exact fun w hw => .inl hw
    · rfl
  | startWorker =>
    refine sound.same step ?_ ?_ ?_ ?_ <;> cases step
    · exact fun r hr => ⟨r, hr, rfl⟩
    · exact fun h hh => .inl hh
    · intro w hw
      rcases List.mem_append.mp hw with old | new
      · exact .inl old
      · exact .inr (List.mem_singleton.mp new)
    · rfl
  | reconcileRequeue =>
    refine sound.same step ?_ ?_ ?_ ?_ <;> cases step
    · exact back_updateWhere (stamps_requeued s.now _).intent
    · exact fun h hh => .inl hh
    · exact fun w hw => .inl hw
    · rfl
  | reconcileFail =>
    refine sound.same step ?_ ?_ ?_ ?_ <;> cases step
    · exact back_updateWhere (stamps_expired s.now).intent
    · exact fun h hh => .inl hh
    · exact fun w hw => .inl hw
    · rfl

theorem sound_run {settings : Settings} {as : List AccountsAction} {s : AccountsService}
    (run : Machine.run (step settings) empty as = some s) : s.Sound :=
  Machine.invariant_run (fun _ _ _ sound step => sound.step step) sound_empty run

theorem Sound.holds_known {s : AccountsService} (sound : s.Sound) {actor : Actor} {tx : Transaction}
    (holds : s.Holds actor tx) : ∃ r ∈ s.transactions, r.intent = tx.intent := by
  cases actor with
  | worker w =>
    obtain ⟨v, hv, held⟩ := holds
    exact sound.known v (List.mem_of_getElem? hv) tx held
  | handler i =>
    obtain ⟨h, hh, held⟩ := holds
    have known := sound.handlers h (List.mem_of_getElem? hh)
    obtain ⟨q, point⟩ := h
    cases point <;> cases held <;> exact known.2.2

/-- A step sends at most one message, for a row that its sender holds, and then
changes no row and settles none. -/
theorem Sound.sends {settings : Settings} {s t : AccountsService} {a : AccountsAction}
    (sound : s.Sound) (step : s.step settings a = some t) :
    t.sent = s.sent ∨ (∃ actor tx m, s.Holds actor tx ∧ m.key = tx.key ∧ t.sent = s.sent ++ [m]) ∧
      s.settling settings a = none ∧ a ≠ .reconcileFail := by
  cases a with
  | tick ms | setAccountStatus id status | request q | startWorker | reconcileRequeue
  | reconcileFail =>
    cases step
    exact .inl rfl
  | openAccount account =>
    rw [AccountsService.step] at step
    split_ifs at step
    cases step
    exact .inl rfl
  | handler i input =>
    obtain ⟨h, at_, rest⟩ := Option.bind_eq_some_iff.mp step
    obtain ⟨⟨rows, point, message⟩, next, done⟩ := Option.bind_eq_some_iff.mp rest
    cases done
    cases Handler.next_move next with
    | quiet | reply | insert | claim | settle => exact .inl (List.append_nil _)
    | post posting =>
      rename_i ctx tx
      have known := sound.handlers h (List.mem_of_getElem? at_)
      rw [HandlerSound, posting] at known
      refine .inr ⟨⟨.handler i, tx, _, ⟨h, at_, by rw [posting]; rfl⟩, key_postRequest known.2.1,
        rfl⟩, ?_, by simp⟩
      simp [settling, at_, posting]
  | worker i input =>
    obtain ⟨w, at_, rest⟩ := Option.bind_eq_some_iff.mp step
    obtain ⟨⟨rows, w', message⟩, next, done⟩ := Option.bind_eq_some_iff.mp rest
    cases done
    cases Worker.next_move next with
    | quiet | reply | reclaim | claim | release | settle => exact .inl (List.append_nil _)
    | post stage resolved =>
      rename_i tx rest environment
      subst stage
      refine .inr ⟨⟨.worker i, tx, _, ⟨_, at_, List.mem_cons_self⟩, key_retryRequest
        (sound.environment_resolved (List.mem_of_getElem? at_) List.mem_cons_self resolved), rfl⟩,
        ?_, by simp⟩
      simp [settling, at_, resolved]

end AccountsService

end RailsCore
