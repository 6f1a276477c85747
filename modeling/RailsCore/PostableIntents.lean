import RailsCore.AccountRules
import RailsCore.LedgerGrpc
import RailsCore.PostMessages

/-!
# What the ledger makes of a stored intent

The accounts service checks a request before it stores a row, and the ledger
checks the message of the row, every time it is posted. The checks agree on
amounts, environments and keys. The accounts service does not check the form
of a currency or whether a transfer has two accounts, so a row can be stored
that the ledger refuses for ever.
-/

namespace RailsCore

/-- The ledger's checks of a message that depend on nothing but the message. -/
def LedgerService.Postable (settings : Settings) (m : PostTransactionRequest) : Prop :=
  ∃ call p, postTransaction settings m = .ok call ∧ validateInputs call.arguments = .ok p ∧
    ∀ source destination : LedgerAccount, source.id = p.sourceId → destination.id = p.destinationId →
      p.validateAccountTypes source destination = pure ()

namespace LedgerService

theorem validateAccountTypes_iff {p : LedgerPoster} (notDeposit : p.isDeposit = false) :
    (∀ source destination : LedgerAccount, source.id = p.sourceId →
      destination.id = p.destinationId → p.validateAccountTypes source destination = pure ()) ↔
      p.sourceId ≠ p.destinationId := by
  constructor
  · intro passes same
    have refused := passes ⟨p.sourceId, .asset⟩ ⟨p.destinationId, .asset⟩ rfl rfl
    simp only [LedgerPoster.validateAccountTypes, same, notDeposit] at refused
    cases congrFun refused Ledger.empty
  · intro apart source destination hs hd
    rw [LedgerPoster.validateAccountTypes, if_neg]
    rw [hs, hd]
    exact fun both => apart both.1

theorem isBlank_currencyCode {s : String} (code : isCurrencyCode s = true) : isBlank s = false := by
  simp only [isCurrencyCode, Bool.and_eq_true, decide_eq_true_eq] at code
  obtain ⟨three, letters⟩ := code
  cases list : s.toList with
  | nil =>
    rw [list] at three
    exact nomatch three
  | cons c cs =>
    rw [list, List.all_cons] at letters
    simp only [Bool.and_eq_true, decide_eq_true_eq] at letters
    obtain ⟨⟨low, high⟩, -⟩ := letters
    have visible : isBlankChar c = false := by
      have low : 65 ≤ c.val.toNat := low
      have high : c.val.toNat ≤ 90 := high
      simp only [isBlankChar, Bool.or_eq_false_iff, Bool.and_eq_false_iff, decide_eq_false_iff_not,
        UInt32.le_iff_toNat_le, ← UInt32.toNat_inj]
      simp only [UInt32.reduceToNat]
      omega
    simp [isBlank, list, visible]

/-- The exact condition on the fields of a message. -/
theorem postable_iff (settings : Settings) (m : PostTransactionRequest) :
    Postable settings m ↔ 0 < m.amount ∧ isCurrencyCode (stripUpcase m.currency) = true ∧
      m.idempotencyKey ≠ "" ∧ m.sourceExternalAccountId ≠ "" ∧
      m.destinationExternalAccountId ≠ "" ∧
      m.sourceExternalAccountId ≠ m.destinationExternalAccountId := by
  constructor
  · rintro ⟨call, p, sent, valid, passes⟩
    have of := posterOf sent valid
    have apart := (validateAccountTypes_iff of.notDeposit).mp passes
    rw [of.source, of.destination] at apart
    have positive : 0 < m.amount := lt_of_lt_of_eq p.amountPositive of.amount
    refine ⟨positive, of.currency ▸ p.currencyCode, ?_, ?_, ?_, ?_⟩
    · intro empty
      simp only [postTransaction, empty] at sent
      split_ifs at sent
    · intro empty
      simp only [postTransaction, empty] at sent
      split_ifs at sent
    · intro empty
      simp only [postTransaction, empty] at sent
      split_ifs at sent
    · intro same
      apply apart
      rw [PostTransactionRequest.movement, same]
  · rintro ⟨positive, code, key, source, destination, apart⟩
    have visible : strip m.currency.toList ≠ [] := by
      intro empty
      rw [stripUpcase, empty] at code
      exact absurd code (by decide)
    have normalized : normalizeCurrency settings m.currency = stripUpcase m.currency := by
      rw [normalizeCurrency]
      apply if_neg
      intro empty
      rw [empty] at code
      exact absurd code (by decide)
    have spelled : stripUpcase m.currency ≠ "" := by
      intro empty
      rw [empty] at code
      exact absurd code (by decide)
    have parsed : environmentOfString (protoEnvToString m.environment) = some m.environment := by
      cases m.environment <;> rfl
    let args : PostArguments := ⟨m.organizationId, protoEnvToString m.environment,
      m.sourceExternalAccountId, m.destinationExternalAccountId, m.amount, stripUpcase m.currency,
      m.externalTransactionId, m.idempotencyKey, false⟩
    have sent : postTransaction settings m = .ok (.post args) := by
      simp only [postTransaction, visible, normalized, spelled, key, source, destination, if_false]
      rfl
    have valid : ∃ p, validateInputs args.post = .ok p := by
      simp only [validateInputs, args, PostArguments.post, positive, parsed,
        stripUpcase_stripUpcase, isBlank_currencyCode code, code, dif_pos]
      exact ⟨_, rfl⟩
    obtain ⟨p, valid⟩ := valid
    have of := posterOf sent valid
    refine ⟨_, p, sent, valid, (validateAccountTypes_iff of.notDeposit).mpr ?_⟩
    rw [of.source, of.destination]
    intro same
    exact apart (congrArg LedgerAccountId.externalAccountId same)

end LedgerService

theorem Uuid.toString_ne_empty (u : Uuid) : u.toString ≠ "" := by
  intro empty
  have head := u.toString_head
  rw [empty] at head
  exact nomatch head

/-- Only a transfer can have one account on both sides. -/
theorem TransactionRetry.apart_iff (tx : Transaction) :
    sourceExternal tx ≠ destExternal tx ↔
      ¬ (tx.transactionKind = .transfer ∧ tx.fromAccountId = tx.toAccountId) := by
  cases kind : tx.transactionKind with
  | deposit => simp [sourceExternal, destExternal, kind, (Uuid.toString_ne_cash _).symm]
  | withdraw => simp [sourceExternal, destExternal, kind, Uuid.toString_ne_cash]
  | transfer => simp [sourceExternal, destExternal, kind, Uuid.toString_inj]

theorem TransactionRetry.externals_nonempty (tx : Transaction) :
    sourceExternal tx ≠ "" ∧ destExternal tx ≠ "" := by
  have cash : systemCashControl ≠ "" := by decide
  cases kind : tx.transactionKind <;>
    simp [sourceExternal, destExternal, kind, Uuid.toString_ne_empty, cash]

/-- The first checks of a request: a key and a positive amount. -/
def MoneyRequest.Accepted (q : MoneyRequest) : Prop := 0 < q.amount ∧ q.idempotencyKey ≠ ""

/-- A request that has come past its first step, and not failed, has passed them. -/
def Handler.Accepted (h : Handler) : Prop :=
  h.point = .start ∨ (∃ e, h.point = .done (.error e)) ∨ h.request.Accepted

theorem AccountService.start_accepted {q : MoneyRequest} {accounts : List Account}
    {point : HandlerPoint} (h : start q accounts = .ok point) : q.Accepted := by
  refine ⟨(start_ok h).1, ?_⟩
  intro noKey
  rw [start, if_pos noKey] at h
  cases h

theorem Handler.next_accepted {now call : Nat} {accounts : List Account}
    {rows rows' : List Transaction} {h : Handler} {input : HandlerInput} {point : HandlerPoint}
    {message : Option PostTransactionRequest} (accepted : h.Accepted)
    (next : h.next now call accounts rows input = some (rows', point, message)) :
    Handler.Accepted { h with point } := by
  rcases accepted with start | ⟨e, failed⟩ | passed
  · simp only [Handler.next, start] at next
    cases input with
    | go =>
      cases next
      cases checks : AccountService.start h.request accounts with
      | error e => exact .inr (.inl ⟨e, rfl⟩)
      | ok point => exact .inr (.inr (AccountService.start_accepted checks))
    | fail e =>
      cases next
      exact .inr (.inl ⟨e, rfl⟩)
    | created id | balance answer | reply answer => cases next
  · simp [Handler.next, failed] at next
  · exact .inr (.inr passed)

namespace AccountsService
open TransactionRepository

/-- Requests and rows that have passed the first checks. -/
structure Accepted (s : AccountsService) : Prop where
  handlers : ∀ h ∈ s.handlers, h.Accepted
  rows : ∀ r ∈ s.transactions, 0 < r.amount ∧ r.idempotencyKey ≠ ""

variable {settings : Settings} {s t : AccountsService} {a : AccountsAction}

/-- A row after a step was there before, or a request stores it in this step. -/
theorem rows_back (h : s.step settings a = some t) : ∀ r' ∈ t.transactions,
    (∃ r ∈ s.transactions, r'.intent = r.intent) ∨
      ∃ g ∈ s.handlers, ∃ ctx, g.point = .createOrGet ctx ∧ MadeBy g.request ctx r' := by
  cases a with
  | tick ms | setAccountStatus id status | request q | startWorker =>
    cases h
    exact fun r' hr' => .inl ⟨r', hr', rfl⟩
  | openAccount account =>
    rw [AccountsService.step] at h
    split_ifs at h
    cases h
    exact fun r' hr' => .inl ⟨r', hr', rfl⟩
  | reconcileRequeue =>
    cases h
    exact fun r' hr' => .inl (back_updateWhere (stamps_requeued s.now _).intent r' hr')
  | reconcileFail =>
    cases h
    exact fun r' hr' => .inl (back_updateWhere (stamps_expired s.now).intent r' hr')
  | worker i input =>
    obtain ⟨w, at_, rest⟩ := Option.bind_eq_some_iff.mp h
    obtain ⟨⟨rows, w', message⟩, next, done⟩ := Option.bind_eq_some_iff.mp rest
    cases done
    exact fun r' hr' => .inl ((Worker.next_move next).back r' hr')
  | handler i input =>
    obtain ⟨g, at_, rest⟩ := Option.bind_eq_some_iff.mp h
    obtain ⟨⟨rows, point, message⟩, next, done⟩ := Option.bind_eq_some_iff.mp rest
    cases done
    intro r' hr'
    rcases (Handler.next_move next).back r' hr' with old | ⟨ctx, creating, made⟩
    · exact .inl old
    · exact .inr ⟨g, List.mem_of_getElem? at_, ctx, creating, made⟩

theorem Accepted.step (accepted : s.Accepted) (h : s.step settings a = some t) : t.Accepted where
  rows := by
    intro r' hr'
    rcases rows_back h r' hr' with ⟨r, hr, same⟩ | ⟨g, hg, ctx, creating, made⟩
    · have amount : r'.amount = r.amount := congrArg Intent.amount same
      have key : r'.idempotencyKey = r.idempotencyKey := congrArg Intent.idempotencyKey same
      rw [amount, key]
      exact accepted.rows r hr
    · have amount : r'.amount = g.request.amount := congrArg Intent.amount made
      have key : r'.idempotencyKey = g.request.idempotencyKey := congrArg Intent.idempotencyKey made
      rw [amount, key]
      rcases accepted.handlers g hg with start | ⟨e, failed⟩ | ⟨positive, named⟩
      · rw [start] at creating
        cases creating
      · rw [failed] at creating
        cases creating
      · exact ⟨positive, named⟩
  handlers := by
    cases a with
    | tick ms | setAccountStatus id status | startWorker | reconcileRequeue | reconcileFail =>
      cases h
      exact accepted.handlers
    | openAccount account =>
      rw [AccountsService.step] at h
      split_ifs at h
      cases h
      exact accepted.handlers
    | worker i input =>
      obtain ⟨w, at_, rest⟩ := Option.bind_eq_some_iff.mp h
      obtain ⟨⟨rows, w', message⟩, next, done⟩ := Option.bind_eq_some_iff.mp rest
      cases done
      exact accepted.handlers
    | request q =>
      cases h
      intro g hg
      rcases List.mem_append.mp hg with old | new
      · exact accepted.handlers g old
      · obtain rfl := List.mem_singleton.mp new
        exact .inl rfl
    | handler i input =>
      obtain ⟨g, at_, rest⟩ := Option.bind_eq_some_iff.mp h
      obtain ⟨⟨rows, point, message⟩, next, done⟩ := Option.bind_eq_some_iff.mp rest
      cases done
      intro g' hg'
      rcases List.mem_or_eq_of_mem_set hg' with old | rfl
      · exact accepted.handlers g' old
      · exact Handler.next_accepted (accepted.handlers g (List.mem_of_getElem? at_)) next

theorem accepted_empty : empty.Accepted := ⟨by simp [empty], by simp [empty]⟩

/-- The message of a row is postable just where its currency is a code and it is
no transfer to the same account. -/
theorem Accepted.postable_iff (accepted : s.Accepted) {tx : Transaction} (stored : tx ∈ s.transactions)
    {m : PostTransactionRequest} (same : s.SameAsRetry m tx) (ledger : Settings) :
    LedgerService.Postable ledger m ↔ isCurrencyCode (stripUpcase tx.currency) = true ∧
      ¬ (tx.transactionKind = .transfer ∧ tx.fromAccountId = tx.toAccountId) := by
  obtain ⟨environment, -, same⟩ := same
  have fields := congrArg (fun m : PostTransactionRequest => (m.amount, m.currency, m.idempotencyKey,
    m.sourceExternalAccountId, m.destinationExternalAccountId)) same
  simp only [PostTransactionRequest.uncorrelated, TransactionRetry.postRequest,
    Prod.mk.injEq] at fields
  obtain ⟨amount, currency, key, source, destination⟩ := fields
  obtain ⟨positive, named⟩ := accepted.rows tx stored
  obtain ⟨from_, to_⟩ := TransactionRetry.externals_nonempty tx
  rw [LedgerService.postable_iff, amount, currency, key, source, destination,
    TransactionRetry.apart_iff]
  constructor
  · rintro ⟨-, code, -, -, -, apart⟩
    exact ⟨code, apart⟩
  · rintro ⟨code, apart⟩
    exact ⟨positive, code, named, from_, to_, apart⟩

/-- A stored row comes from a request and its account, and the ledger's checks
pass on every message of the row if and only if the currency of the account is
a code and the request is no transfer to the same account. -/
theorem stored_intent_postable_iff (settings ledger : Settings) (as : List AccountsAction)
    (s : AccountsService) (run : Machine.run (step settings) empty as = some s)
    (tx : Transaction) (stored : tx ∈ s.transactions) :
    ∃ h ∈ s.handlers, ∃ ctx, ContextFor s.accounts h.request ctx ∧ MadeBy h.request ctx tx ∧
      (∃ m, s.SameAsRetry m tx) ∧ ∀ m, s.SameAsRetry m tx →
        (LedgerService.Postable ledger m ↔ isCurrencyCode (stripUpcase ctx.currency) = true ∧
          ¬ (h.request.kind = .transfer ∧ h.request.accountId = h.request.toAccountId)) := by
  have sound := sound_run run
  have accepted := Machine.invariant_run (fun _ _ _ accepted step => Accepted.step accepted step)
    accepted_empty run
  obtain ⟨h, hh, ctx, context, made⟩ := sound.made tx stored
  refine ⟨h, hh, ctx, context, made, ?_, ?_⟩
  · exact ⟨_, h.request.environment, resolveEnvironment_made made rfl, rfl⟩
  intro m same
  rw [accepted.postable_iff stored same ledger]
  simp only [MadeBy, Transaction.intent, AccountService.newIntent, TransactionRepository.newRow,
    Intent.mk.injEq, transactionKind_operation] at made
  obtain ⟨-, -, source, destination, -, currency, kind, -, -, -⟩ := made
  rw [currency, kind, source, destination]
  refine and_congr_right fun _ => not_congr (and_congr_right fun transfer => ?_)
  rw [MoneyRequest.operation, transfer]
  rfl

theorem stored_intent_postable_iff_deposit : ∃ s tx, Machine.run (step .fromEnv) empty
      (.openAccount (customer ⟨7⟩) :: storedIntent 0 "a" ⟨101⟩) = some s ∧ tx ∈ s.transactions ∧
    ∃ h ∈ s.handlers, ∃ ctx, ContextFor s.accounts h.request ctx ∧ MadeBy h.request ctx tx ∧
      (∃ m, s.SameAsRetry m tx) ∧ ∀ m, s.SameAsRetry m tx →
        (LedgerService.Postable .fromEnv m ↔ isCurrencyCode (stripUpcase ctx.currency) = true ∧
          ¬ (h.request.kind = .transfer ∧ h.request.accountId = h.request.toAccountId)) := by
  have evaluated : (Machine.run (step .fromEnv) empty
      (.openAccount (customer ⟨7⟩) :: storedIntent 0 "a" ⟨101⟩)).any
      (fun s => s.transactions.head?.isSome) = true := by decide +kernel
  obtain ⟨s, run, stored⟩ := (Option.any_eq_true _ _).mp evaluated
  obtain ⟨tx, first⟩ := Option.isSome_iff_exists.mp stored
  have stored := List.mem_of_head? first
  exact ⟨s, tx, run, stored, stored_intent_postable_iff .fromEnv .fromEnv _ s run tx stored⟩

/-- A transfer of 50 from an account to itself, up to the insert of its row. -/
def transferToItself (account : Account) : List AccountsAction :=
  [.openAccount account, .request ⟨.transfer, account.id, account.id, .sandbox, 50, "a", none⟩,
    .handler 0 .go, .handler 0 .go, .handler 0 .go, .handler 0 (.balance (.ok (-100))),
    .handler 0 (.created ⟨101⟩)]

/-- The row is stored, and the ledger refuses every message that is made from it. -/
theorem transfer_to_itself_refused : ¬ ∀ (settings ledger : Settings)
    (opening : List AdministrationAction) (d : AccountAdministration) (as : List AccountsAction)
    (s : AccountsService), Machine.run AccountAdministration.step .empty opening = some d →
    (∀ account, .openAccount account ∈ as → account ∈ AccountRepository.accounts d.rows) →
    Machine.run (step settings) empty as = some s →
    ∀ tx ∈ s.transactions, ∀ m, s.SameAsRetry m tx → LedgerService.Postable ledger m := by
  intro claim
  have evaluated : (Machine.run AccountAdministration.step .empty
      AccountAdministration.opened).any (fun d =>
        (AccountRepository.accounts d.rows).any (fun account =>
          (Machine.run (step .fromEnv) empty (transferToItself account)).any (fun s =>
            s.transactions.any (fun tx => tx.environment = some .sandbox ∧
              TransactionRetry.sourceExternal tx = TransactionRetry.destExternal tx)))) = true := by
    decide +kernel
  obtain ⟨d, opening, evaluated⟩ := (Option.any_eq_true _ _).mp evaluated
  obtain ⟨account, created, evaluated⟩ := List.any_eq_true.mp evaluated
  obtain ⟨s, run, evaluated⟩ := (Option.any_eq_true _ _).mp evaluated
  obtain ⟨tx, stored, evaluated⟩ := List.any_eq_true.mp evaluated
  obtain ⟨environment, itself⟩ := of_decide_eq_true evaluated
  have same : s.SameAsRetry (TransactionRetry.postRequest .sandbox tx) tx := by
    refine ⟨.sandbox, ?_, rfl⟩
    rw [TransactionRetry.resolveEnvironment, environment]
  have opens : ∀ a, .openAccount a ∈ transferToItself account →
      a ∈ AccountRepository.accounts d.rows := by
    intro a ha
    obtain rfl : a = account := by simpa [transferToItself] using ha
    exact created
  have posts := claim .fromEnv .fromEnv _ d _ s opening opens run tx stored _ same
  obtain ⟨-, -, -, -, -, apart⟩ := (LedgerService.postable_iff _ _).mp posts
  exact apart itself

end AccountsService

end RailsCore
