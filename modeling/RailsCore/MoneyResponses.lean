import RailsCore.AuditEmission
import RailsCore.LedgerTransactions
import RailsCore.TransactionLists

/-!
# What a money request is answered with

A deposit, a withdrawal or a transfer ends by asking the ledger for balances,
in calls of their own and after everything else. Each balance takes two
statements, and both services go on between all of them. A caller who is told
that a transaction is posted is shown balances that contain it. A balance of the
ledger is within 64 bits, and so is its negation unless it is -2 ^ 63, where the
source overflows (`CheckedBalances.negateLedgerBalanceForDisplay_eq`).
-/

namespace RailsCore

/-- `get_account_balance`, and each half of `get_account_balances`, with the account looked up in
one state of the ledger and its balance in another. -/
def fetchBalance (accounts balances : Ledger) (id : LedgerAccountId) : Int :=
  match accounts.account id with
  | some account => balances.getBalance account.id
  | none => 0

/-- An answer, without the columns of accounts that are copied into it. -/
structure MoneyResponse where
  status : Nat
  balance : Int
  recipientBalance : Option Int
  transaction : AccountTransactionResponse
deriving DecidableEq, Repr

namespace Handlers

/-- The end of `deposit` and of `withdraw`. -/
def accountResponse (organizationId : Option Uuid) (fetched : Except AppError Int)
    (tx : Transaction) : MoneyResponse :=
  let balance := match organizationId with
    | some _ => negateLedgerBalanceForDisplay fetched
    | none => 0
  { status := Audit.Accounts.mutationHttpStatus tx.status
    balance
    recipientBalance := none
    transaction := .forMutationResponse tx balance }

/-- The end of `transfer`. One call fetches both balances, unless only one of the two accounts
has an organization. -/
def transferResponse (fromOrg toOrg : Option Uuid) (both : Except AppError (Int × Int))
    (single : Except AppError Int) (tx : Transaction) : MoneyResponse :=
  let balances := match fromOrg, toOrg with
    | some fromOrgId, some toOrgId =>
      if fromOrgId = toOrgId then
        (negateLedgerBalanceForDisplay (both.map Prod.fst),
          negateLedgerBalanceForDisplay (both.map Prod.snd))
      else (0, 0)
    | some _, none => (negateLedgerBalanceForDisplay single, 0)
    | none, some _ => (0, negateLedgerBalanceForDisplay single)
    | none, none => (0, 0)
  { status := Audit.Accounts.mutationHttpStatus tx.status
    balance := balances.1
    recipientBalance := some balances.2
    transaction := .forMutationResponse tx balances.1 }

end Handlers

/-- The ledger account of a transfer's recipient. -/
def recipientAccount (settings : Settings) (q : MoneyRequest) (ctx : MoneyContext) :
    LedgerAccountId :=
  ⟨ctx.organizationId, q.environment, q.toAccountId.toString,
    normalizeCurrency settings ctx.currency⟩

/-- What an answered request returns when its accounts are of this organization and the ledger
answers with these balances. -/
def Handlers.respond (q : MoneyRequest) (organizationId : Uuid) (own recipient : Int)
    (tx : Transaction) : MoneyResponse :=
  match q.kind with
  | .deposit | .withdraw => accountResponse (some organizationId) (.ok own) tx
  | .transfer =>
    transferResponse (some organizationId) (some organizationId) (.ok (own, recipient)) (.ok own) tx

/-- What a request does to the balance of its own account. -/
def MoneyRequest.change (q : MoneyRequest) : Int :=
  match q.kind with
  | .deposit => q.amount
  | .withdraw | .transfer => -q.amount

/-- The answer says that the transaction is posted, and shows this balance. -/
structure MoneyResponse.Confirms (response : MoneyResponse) (shown : Int) : Prop where
  status : response.status = 200
  completed : response.transaction.status = "completed"
  balance : response.balance = shown
  balanceAfter : response.transaction.balanceAfter = shown

theorem confirms_forMutationResponse {tx : Transaction} (posted : tx.status = .posted)
    (balance : Int) (recipientBalance : Option Int) :
    MoneyResponse.Confirms ⟨Audit.Accounts.mutationHttpStatus tx.status, balance, recipientBalance,
      .forMutationResponse tx balance⟩ balance := by
  constructor
  · rw [posted]
    rfl
  · cases kind : tx.transactionKind <;>
      simp [AccountTransactionResponse.forMutationResponse, kind, posted,
        AccountTransactionResponse.build]
  · rfl
  · cases kind : tx.transactionKind <;>
      simp [AccountTransactionResponse.forMutationResponse, kind, AccountTransactionResponse.build]

theorem confirms_respond {tx : Transaction} (posted : tx.status = .posted) (q : MoneyRequest)
    (organizationId : Uuid) (own recipient : Int) :
    (Handlers.respond q organizationId own recipient tx).Confirms (-own) ∧
      (q.kind = .transfer →
        (Handlers.respond q organizationId own recipient tx).recipientBalance =
          some (-recipient)) := by
  cases kind : q.kind with
  | deposit | withdraw =>
    rw [Handlers.respond, kind]
    exact ⟨confirms_forMutationResponse posted (-own) none, by simp⟩
  | transfer =>
    simp only [Handlers.respond, kind, Handlers.transferResponse, if_true]
    exact ⟨confirms_forMutationResponse posted (-own) (some (-recipient)), fun _ => rfl⟩

/-! What a transaction does to a balance -/

/-- What all other transactions leave a customer with. -/
def Ledger.without (db : Ledger) (key : IdempotencyKey) (id : LedgerAccountId) : Int :=
  -journal id (db.entries.filter (fun e => e.transactionId ≠ key))

theorem journal_filter (id : LedgerAccountId) (p : LedgerEntry → Bool)
    (entries : List LedgerEntry) : journal id entries =
      journal id (entries.filter p) + journal id (entries.filter (fun e => !p e)) := by
  induction entries with
  | nil => rfl
  | cons e es ih =>
    cases kept : p e with
    | true =>
      rw [List.filter_cons_of_pos kept, List.filter_cons_of_neg (by simp [kept]), journal_cons,
        journal_cons, ih]
      omega
    | false =>
      rw [List.filter_cons_of_neg (by simp [kept]), List.filter_cons_of_pos (by simp [kept]),
        journal_cons, journal_cons, ih]
      omega

/-- A balance is what the other transactions leave, with the movement of this one. -/
theorem Ledger.Moves.displayed {db : Ledger} {key : IdempotencyKey} {movement : Movement}
    (moves : db.Moves key movement) {id : LedgerAccountId} (reconciled : db.Reconciled id) :
    displayedBalance db id = db.without key id +
      (if movement.destination = id then movement.amount else 0) -
      (if movement.source = id then movement.amount else 0) := by
  have parts := journal_filter id (fun e => e.transactionId = key) db.entries
  have own : db.entries.filter (fun e => e.transactionId = key) = db.entriesOf key := rfl
  have others : db.entries.filter (fun e => !decide (e.transactionId = key)) =
      db.entries.filter (fun e => e.transactionId ≠ key) := by
    simp
  rw [own, moves, others, journal_cons, journal_cons, journal_nil] at parts
  simp only [signedAmount] at parts
  rw [displayedBalance, reconciled, Ledger.without, parts]
  split_ifs <;> omega

/-- What was posted is seen by every later look at the ledger. -/
theorem fetchBalance_later {db accounts balances : Ledger} {id : LedgerAccountId}
    {a : LedgerAccount} (found : db.account id = some a) (grown : db.Extends accounts) :
    -fetchBalance accounts balances id = displayedBalance balances id := by
  have named : a.id = id := (Table.find_some found).2
  simp only [fetchBalance, grown.account found, named, displayedBalance]

/-! The recipient of a transfer -/

namespace AccountsService
open AccountService

/-- The recipient of a transfer is an account of the sender's organization and environment. -/
def Recipient (accounts : List Account) (q : MoneyRequest) : Prop :=
  q.operation.checksToAccount = true → ∃ a ∈ accounts, ∃ b ∈ accounts, ∃ organizationId,
    (a.id = q.accountId ∧ a.organizationId = some organizationId) ∧
    b.id = q.toAccountId ∧ b.environment = some q.environment ∧
    b.organizationId = some organizationId ∧ currencyOf b = currencyOf a

/-- A request has checked its recipient, unless it is about to, or has failed. -/
def Paired (accounts : List Account) (h : Handler) : Prop :=
  h.point = .start ∨ (∃ account, h.point = .findToAccount account) ∨
    (∃ e, h.point = .done (.error e)) ∨ Recipient accounts h.request

structure Partners (s : AccountsService) : Prop where
  ids : Table.Unique Account.id s.accounts
  handlers : ∀ h ∈ s.handlers, Paired s.accounts h

theorem Recipient.mono {accounts accounts' : List Account} {q : MoneyRequest}
    (h : Recipient accounts q) (grow : AccountsGrow accounts accounts') :
    Recipient accounts' q := by
  intro transfer
  obtain ⟨a, ha, b, hb, organizationId, ⟨id, organization⟩, id', environment', organization',
    currency⟩ := h transfer
  obtain ⟨c, hc, sameId, -, sameOrganization, sameCurrency⟩ := grow a ha
  obtain ⟨d, hd, sameId', sameEnvironment', sameOrganization', sameCurrency'⟩ := grow b hb
  refine ⟨c, hc, d, hd, organizationId, ⟨sameId.trans id, sameOrganization.trans organization⟩,
    sameId'.trans id', sameEnvironment'.trans environment',
    sameOrganization'.trans organization', ?_⟩
  rw [currencyOf, currencyOf, sameCurrency, sameCurrency']
  exact currency

theorem Paired.mono {accounts accounts' : List Account} {h : Handler} (paired : Paired accounts h)
    (grow : AccountsGrow accounts accounts') : Paired accounts' h := by
  rcases paired with start | finding | failed | recipient
  · exact .inl start
  · exact .inr (.inl finding)
  · exact .inr (.inr (.inl failed))
  · exact .inr (.inr (.inr (recipient.mono grow)))

theorem Paired.next {now call : Nat} {accounts : List Account} {rows rows' : List Transaction}
    {h : Handler} {input : HandlerInput} {point : HandlerPoint}
    {message : Option PostTransactionRequest} (paired : Paired accounts h)
    (sound : HandlerSound accounts rows h)
    (next : h.next now call accounts rows input = some (rows', point, message)) :
    Paired accounts { h with point } := by
  rcases paired with begins | ⟨account, finding⟩ | ⟨e, failed⟩ | recipient
  · simp only [Handler.next, begins] at next
    cases input with
    | go =>
      cases next
      cases checks : start h.request accounts with
      | error e => exact .inr (.inr (.inl ⟨e, rfl⟩))
      | ok point =>
        obtain ⟨-, account, -, ⟨-, rfl⟩ | ⟨single, -⟩⟩ := start_ok checks
        · exact .inr (.inl ⟨account, rfl⟩)
        · exact .inr (.inr (.inr fun transfer => by
            rw [show h.request.operation.checksToAccount = false from single] at transfer
            cases transfer))
    | fail e =>
      cases next
      exact .inr (.inr (.inl ⟨e, rfl⟩))
    | created id | balance answer | reply answer => cases next
  · simp only [Handler.next, finding] at next
    cases input with
    | go =>
      cases next
      cases checks : checkToAccount h.request account accounts with
      | error e => exact .inr (.inr (.inl ⟨e, rfl⟩))
      | ok point =>
        obtain ⟨b, organizationId, found, organization, organization', currency, rfl⟩ :=
          checkToAccount_ok checks
        rw [HandlerSound, finding] at sound
        obtain ⟨a, ha, id, -, sameOrganization, sameCurrency⟩ := sound
        obtain ⟨hb, id', environment', -⟩ := activeAccount_ok found
        refine .inr (.inr (.inr fun _ => ⟨a, ha, b, hb, organizationId,
          ⟨id, sameOrganization.trans organization⟩, id', environment', organization', ?_⟩))
        rw [← currency, currencyOf, currencyOf, sameCurrency]
    | fail e =>
      cases next
      exact .inr (.inr (.inl ⟨e, rfl⟩))
    | created id | balance answer | reply answer => cases next
  · simp [Handler.next, failed] at next
  · exact .inr (.inr (.inr recipient))

/-- The step lemma. -/
theorem Partners.step {settings : Settings} {s t : AccountsService} {a : AccountsAction}
    (partners : s.Partners) (sound : s.Sound) (h : s.step settings a = some t) : t.Partners := by
  have grow := (sound.grows h).accounts
  have kept : ∀ g ∈ s.handlers, Paired t.accounts g :=
    fun g hg => (partners.handlers g hg).mono grow
  cases a with
  | tick ms | startWorker | reconcileRequeue | reconcileFail =>
    cases h
    exact ⟨partners.ids, kept⟩
  | openAccount account =>
    rw [AccountsService.step] at h
    split_ifs at h with taken
    cases h
    refine ⟨partners.ids.insert ?_, kept⟩
    exact Table.find_none_iff.mp (by simpa using taken)
  | setAccountStatus id status =>
    cases h
    exact ⟨partners.ids.updateWhere (fun _ => rfl), kept⟩
  | worker i input =>
    obtain ⟨w, at_, rest⟩ := Option.bind_eq_some_iff.mp h
    obtain ⟨⟨rows, w', message⟩, next, done⟩ := Option.bind_eq_some_iff.mp rest
    cases done
    exact ⟨partners.ids, kept⟩
  | request q =>
    cases h
    refine ⟨partners.ids, fun g hg => ?_⟩
    rcases List.mem_append.mp hg with old | new
    · exact kept g old
    · obtain rfl := List.mem_singleton.mp new
      exact .inl rfl
  | handler i input =>
    obtain ⟨g, at_, rest⟩ := Option.bind_eq_some_iff.mp h
    obtain ⟨⟨rows, point, message⟩, next, done⟩ := Option.bind_eq_some_iff.mp rest
    cases done
    refine ⟨partners.ids, fun g' hg' => ?_⟩
    have listed := List.mem_of_getElem? at_
    rcases List.mem_or_eq_of_mem_set hg' with old | rfl
    · exact kept g' old
    · exact (partners.handlers g listed).next (sound.handlers g listed) next

theorem partners_empty : empty.Partners := ⟨Table.unique_nil _, by simp [empty]⟩

end AccountsService

namespace System
variable {settings : Settings} {s t : System}

theorem partners_run {as : List SystemAction}
    (run : Machine.run (step settings) empty as = some s) : s.accounts.Partners := by
  have both : s.Sound ∧ s.accounts.Partners :=
    Machine.invariant_run (I := fun s => s.Sound ∧ s.accounts.Partners)
      (fun s a t kept moved => ⟨kept.1.step moved, by
        cases moved_step moved with
        | accounts answered step => exact kept.2.step kept.1.accounts step
        | refused | arrived | lost | duplicated | ledger => exact kept.2⟩)
      ⟨sound_empty, AccountsService.partners_empty⟩ run
  exact both.2

/-- The recipient of a request that is answered, in the organization of its context. -/
theorem recipient_of_answered {as : List SystemAction}
    (run : Machine.run (step settings) empty as = some s) {h : Handler}
    (hh : h ∈ s.accounts.handlers) {tx : Transaction} (answered : h.point = .done (.ok tx))
    (transfer : h.request.operation.checksToAccount = true) {ctx : MoneyContext}
    (context : ContextFor s.accounts.accounts h.request ctx) :
    ∃ b ∈ s.accounts.accounts, b.id = h.request.toAccountId ∧
      b.environment = some h.request.environment ∧ b.organizationId = some ctx.organizationId ∧
      AccountService.currencyOf b = ctx.currency := by
  have partners := partners_run run
  rcases partners.handlers h hh with start | ⟨a, finding⟩ | ⟨e, failed⟩ | recipient
  · cases start.symm.trans answered
  · cases finding.symm.trans answered
  · cases failed.symm.trans answered
  obtain ⟨a, ha, b, hb, organizationId, ⟨id, organization⟩, id', environment', organization',
    currency⟩ := recipient transfer
  obtain ⟨a', ha', sameId, -, sameOrganization, sameCurrency⟩ := context
  obtain rfl := partners.ids.eq ha ha' (id.trans sameId.symm)
  cases organization.symm.trans sameOrganization
  exact ⟨b, hb, id', environment', organization', currency.trans sameCurrency⟩

/-- A later state of the services, reached without an overwritten balance. -/
def Later (settings : Settings) (as : List SystemAction) (s t : System) : Prop :=
  ∃ bs, Machine.run (step settings) s bs = some t ∧
    Machine.Along (step settings) SavesAllItRead empty (as ++ bs)

theorem extends_step {a : SystemAction} (sound : s.Sound) (h : s.step settings a = some t) :
    s.ledger.db.Extends t.ledger.db := by
  cases moved_step h with
  | accounts | refused | arrived | lost | duplicated => exact .refl _
  | ledger of step => exact sound.ledger.extends_step step

/-- A later state has the rows of the earlier one, and its balances are what its entries say. -/
theorem Later.known {as : List SystemAction} (run : Machine.run (step settings) empty as = some s)
    (later : Later settings as s t) :
    t.Sound ∧ (∀ id, t.ledger.db.Reconciled id) ∧ s.ledger.db.Extends t.ledger.db := by
  obtain ⟨bs, rest, current⟩ := later
  have whole : Machine.run (step settings) empty (as ++ bs) = some t :=
    (Machine.run_append run bs).trans rest
  have kept : t.Sound ∧ ∀ id, t.ledger.Reconciled id :=
    Machine.invariant_along (I := fun s => s.Sound ∧ ∀ id, s.ledger.Reconciled id)
      (fun _ _ _ kept current moved =>
        ⟨kept.1.step moved, reconciled_step kept.2 current moved⟩)
      ⟨sound_empty, LedgerService.reconciled_empty⟩ current whole
  have grown : t.Sound ∧ s.ledger.db.Extends t.ledger.db :=
    Machine.invariant_run (I := fun t => t.Sound ∧ s.ledger.db.Extends t.ledger.db)
      (fun _ _ _ kept moved => ⟨kept.1.step moved, kept.2.trans (extends_step kept.1 moved)⟩)
      ⟨sound_run run, .refl _⟩ rest
  exact ⟨kept.1, fun id => (kept.2 id).tables, grown.2⟩

/-- What the ledger has moved is in a currency it accepts, and between two accounts unless cash
is moved to cash. -/
theorem Sound.moved (sound : s.Sound) {x : LedgerTransaction}
    (hx : x ∈ s.ledger.db.transactions) {movement : Movement}
    (moves : s.ledger.db.Moves x.key movement) :
    isCurrencyCode movement.source.currency = true ∧
      (movement.source = movement.destination →
        movement.source.externalAccountId = systemCashControl) := by
  obtain ⟨i, call, l, at_, -, owner, recorded⟩ := sound.ledger.posted x hx
  have entries := recorded.entries
  rw [owner, moves, List.cons.injEq, List.cons.injEq] at entries
  obtain ⟨first, second, -⟩ := entries
  have source : movement.source = l.source.id := congrArg LedgerEntry.ledgerAccountId first
  have destination : movement.destination = l.destination.id :=
    congrArg LedgerEntry.ledgerAccountId second
  rw [source, destination, recorded.source.1]
  refine ⟨call.poster.currencyCode, fun same => ?_⟩
  have deposit := recorded.noSelfTransfer (recorded.source.1.trans same)
  exact (sound.ledger.calls i call at_).cash deposit

/-- Both accounts of a movement are there. -/
theorem Sound.movedAccounts (sound : s.Sound) {key : IdempotencyKey} {movement : Movement}
    (moves : s.ledger.db.Moves key movement) :
    (∃ a, s.ledger.db.account movement.source = some a) ∧
      ∃ a, s.ledger.db.account movement.destination = some a := by
  have listed : ∀ e ∈ s.ledger.db.entriesOf key,
      ∃ a, s.ledger.db.account e.ledgerAccountId = some a :=
    fun e he => Option.ne_none_iff_exists'.mp
      (sound.ledger.tables.entry_account (List.mem_of_mem_filter he))
  rw [moves] at listed
  exact ⟨listed _ List.mem_cons_self, listed _ (List.mem_cons_of_mem _ List.mem_cons_self)⟩

end System

theorem isCurrencyCode_ne_empty {currency : String} (code : isCurrencyCode currency = true) :
    currency ≠ "" := by
  rintro rfl
  simp [isCurrencyCode] at code

theorem normalizeCurrency_code {settings : Settings} {currency : String}
    (code : isCurrencyCode (stripUpcase currency) = true) :
    normalizeCurrency settings currency = stripUpcase currency := by
  rw [normalizeCurrency, if_neg (isCurrencyCode_ne_empty code)]

namespace System
variable {settings : Settings} {s t : System}

/-- A balance fetched later, as the caller is shown it, contains the movement. -/
theorem Later.shows {as : List SystemAction} {accounts balances : System}
    (run : Machine.run (step settings) empty as = some s) (first : Later settings as s accounts)
    (second : Later settings as s balances) {x : LedgerTransaction}
    (hx : x ∈ s.ledger.db.transactions) {movement : Movement}
    (moves : s.ledger.db.Moves x.key movement) {id : LedgerAccountId}
    (side : movement.source = id ∨ movement.destination = id) :
    -fetchBalance accounts.ledger.db balances.ledger.db id =
      balances.ledger.db.without x.key id +
        (if movement.destination = id then movement.amount else 0) -
        (if movement.source = id then movement.amount else 0) := by
  have sound := sound_run run
  obtain ⟨-, -, grown⟩ := first.known run
  obtain ⟨later, reconciled, grown'⟩ := second.known run
  obtain ⟨source, destination⟩ := sound.movedAccounts moves
  obtain ⟨a, found⟩ : ∃ a, s.ledger.db.account id = some a := by
    rcases side with rfl | rfl
    · exact source
    · exact destination
  have kept : balances.ledger.db.Moves x.key movement :=
    (grown'.entriesOf sound.ledger.tables later.ledger.tables hx).trans moves
  exact (fetchBalance_later found grown).trans (kept.displayed (reconciled id))

/-- The movement of a request, between the accounts that it asks the balances of. -/
theorem movement_accounts {q : MoneyRequest} {ctx : MoneyContext}
    (currency : normalizeCurrency settings ctx.currency = stripUpcase ctx.currency) :
    (q.kind = .deposit → (q.movement ctx).destination = fundsAccount settings q ctx ∧
      (q.movement ctx).source.externalAccountId = systemCashControl) ∧
    (q.kind = .withdraw → (q.movement ctx).source = fundsAccount settings q ctx ∧
      (q.movement ctx).destination.externalAccountId = systemCashControl) ∧
    (q.kind = .transfer → (q.movement ctx).source = fundsAccount settings q ctx ∧
      (q.movement ctx).destination = recipientAccount settings q ctx) := by
  refine ⟨fun kind => ?_, fun kind => ?_, fun kind => ?_⟩ <;>
    simp [MoneyRequest.movement, MoneyRequest.operation, kind, depositWithIdempotency,
      withdrawWithIdempotency, transferWithIdempotency, fundsAccount, recipientAccount, currency]

/-- A caller who is told that a transaction is posted is shown balances that
contain it: the balance of the account, and the recipient's in a transfer, is
what all other transactions leave with the movement added, however far the
services have gone when the ledger is asked, in all runs in which no balance is
saved over a value that has changed since it was read and the requests with the
key ask for the same. -/
theorem posted_answer_shows_itself (settings : Settings) (as : List SystemAction) (s : System)
    (run : Machine.run (step settings) empty as = some s) (h : Handler)
    (hh : h ∈ s.accounts.handlers) (tx : Transaction) (answered : h.point = .done (.ok tx))
    (posted : tx.status = .posted) :
    ∃ ctx, ContextFor s.accounts.accounts h.request ctx ∧
      ((∀ h' ∈ s.accounts.handlers, ∀ ctx', ContextFor s.accounts.accounts h'.request ctx' →
          AccountService.keyOf h'.request ctx' = AccountService.keyOf h.request ctx →
          h'.request.movement ctx' = h.request.movement ctx) →
        ∀ accounts balances accounts' balances', Later settings as s accounts →
          Later settings as s balances → Later settings as s accounts' →
          Later settings as s balances' →
        let key := AccountService.keyOf h.request ctx
        let own := fundsAccount settings h.request ctx
        let recipient := recipientAccount settings h.request ctx
        let response := Handlers.respond h.request ctx.organizationId
          (fetchBalance accounts.ledger.db balances.ledger.db own)
          (fetchBalance accounts'.ledger.db balances'.ledger.db recipient) tx
        response.Confirms (balances.ledger.db.without key own + h.request.change) ∧
        (h.request.kind = .transfer →
          (∃ b ∈ s.accounts.accounts, b.id = h.request.toAccountId ∧
            b.environment = some h.request.environment ∧
            b.organizationId = some ctx.organizationId ∧
            AccountService.currencyOf b = ctx.currency) ∧
          response.recipientBalance =
            some (balances'.ledger.db.without key recipient + h.request.amount))) := by
  have sound := sound_run run
  have known := sound.accounts.handlers h hh
  rw [HandlerSound, answered] at known
  obtain ⟨ctx, context, key, -⟩ := known
  refine ⟨ctx, context, fun agree accounts balances accounts' balances' first second first'
    second' => ?_⟩
  obtain ⟨x, hx, same⟩ := sound.shown h hh tx (by rw [answered]; rfl) posted
  obtain ⟨h', hh', ctx', context', key', moves⟩ := sound.moves hx
  have ours : x.key = AccountService.keyOf h.request ctx := same.trans key
  rw [agree h' hh' ctx' context' (key'.trans ours)] at moves
  obtain ⟨code, apart⟩ := sound.moved hx moves
  have currency : normalizeCurrency settings ctx.currency = stripUpcase ctx.currency :=
    normalizeCurrency_code code
  obtain ⟨deposit, withdraw, transfer⟩ := movement_accounts (q := h.request) currency
  have notCash : (fundsAccount settings h.request ctx).externalAccountId ≠ systemCashControl :=
    Uuid.toString_ne_cash _
  have amount : (h.request.movement ctx).amount = h.request.amount := rfl
  intro key own recipient response
  obtain ⟨confirms, recipientBalance⟩ := confirms_respond posted h.request ctx.organizationId
    (fetchBalance accounts.ledger.db balances.ledger.db own)
    (fetchBalance accounts'.ledger.db balances'.ledger.db recipient)
  cases kind : h.request.kind with
  | deposit =>
    obtain ⟨destination, source⟩ := deposit kind
    have other : (h.request.movement ctx).source ≠ own := by
      intro here
      rw [here] at source
      exact notCash source
    have shown := first.shows run second hx moves (.inr destination)
    rw [if_pos destination, if_neg other, amount, ours, Int.sub_zero] at shown
    rw [shown] at confirms
    rw [MoneyRequest.change, kind]
    exact ⟨confirms, by simp⟩
  | withdraw =>
    obtain ⟨source, destination⟩ := withdraw kind
    have other : (h.request.movement ctx).destination ≠ own := by
      intro here
      rw [here] at destination
      exact notCash destination
    have shown := first.shows run second hx moves (.inl source)
    rw [if_neg other, if_pos source, amount, ours, Int.add_zero] at shown
    rw [shown] at confirms
    rw [MoneyRequest.change, kind]
    exact ⟨confirms, by simp⟩
  | transfer =>
    obtain ⟨source, destination⟩ := transfer kind
    have different : own ≠ recipient := by
      intro here
      refine notCash ?_
      rw [← source]
      exact apart (source.trans (here.trans destination.symm))
    have shown := first.shows run second hx moves (.inl source)
    have shown' := first'.shows run second' hx moves (.inr destination)
    rw [source, destination, if_neg different.symm, if_pos rfl, amount, ours, Int.add_zero] at shown
    rw [source, destination, if_pos rfl, if_neg different, amount, ours, Int.sub_zero] at shown'
    rw [shown] at confirms
    rw [MoneyRequest.change, kind]
    refine ⟨confirms, fun _ => ⟨?_, ?_⟩⟩
    · refine recipient_of_answered run hh answered ?_ context
      rw [MoneyRequest.operation, kind]
      rfl
    · rw [← shown']
      exact recipientBalance kind

/-- The deposit of 100 is shown with the withdrawal of 80 that is posted before the ledger is
asked. -/
theorem posted_answer_shows_itself_deposit : ∃ s t h tx,
    Machine.run (step .fromEnv) empty funded = some s ∧ h ∈ s.accounts.handlers ∧
    h.point = .done (.ok tx) ∧ tx.status = .posted ∧ Later .fromEnv funded s t ∧
    displayedBalance t.ledger.db customerAccount = 20 ∧
    ∃ ctx, ContextFor s.accounts.accounts h.request ctx ∧
      (Handlers.respond h.request ctx.organizationId
        (fetchBalance s.ledger.db t.ledger.db (fundsAccount .fromEnv h.request ctx))
        (fetchBalance s.ledger.db t.ledger.db (recipientAccount .fromEnv h.request ctx))
        tx).Confirms (t.ledger.db.without (AccountService.keyOf h.request ctx)
          (fundsAccount .fromEnv h.request ctx) + h.request.change) := by
  have evaluated : (Machine.run (step .fromEnv) empty funded).any (fun s =>
      s.accounts.accounts = [AccountsService.customer ⟨7⟩] &&
      s.accounts.handlers.map Handler.request = [AccountsService.depositOf 100 "a"] &&
      s.accounts.handlers.any answeredPosted &&
      (Machine.run (step .fromEnv) s
        (checkedWithdrawal 1 "b" ++ postedWithdrawal 1 ⟨102⟩)).any (fun t =>
          displayedBalance t.ledger.db customerAccount = 20)) = true := by decide +kernel
  obtain ⟨s, run, evaluated⟩ := (Option.any_eq_true _ _).mp evaluated
  obtain ⟨evaluated, after⟩ := Bool.and_eq_true_iff.mp evaluated
  obtain ⟨evaluated, answered⟩ := Bool.and_eq_true_iff.mp evaluated
  obtain ⟨accounts, requests⟩ := Bool.and_eq_true_iff.mp evaluated
  have accounts : s.accounts.accounts = [AccountsService.customer ⟨7⟩] := of_decide_eq_true accounts
  have requests : s.accounts.handlers.map Handler.request = [AccountsService.depositOf 100 "a"] :=
    of_decide_eq_true requests
  obtain ⟨t, rest, left⟩ := (Option.any_eq_true _ _).mp after
  obtain ⟨h, hh, answered⟩ := List.any_eq_true.mp answered
  obtain ⟨tx, done, posted⟩ := answeredPosted_iff answered
  have later : Later .fromEnv funded s t := ⟨_, rest, by decide +kernel⟩
  have here : Later .fromEnv funded s s := ⟨[], rfl, by decide +kernel⟩
  have only : ∀ h' ∈ s.accounts.handlers, h'.request = AccountsService.depositOf 100 "a" := by
    intro h' hh'
    have listed := List.mem_map_of_mem (f := Handler.request) hh'
    rw [requests] at listed
    exact List.mem_singleton.mp listed
  have one : ∀ h' ∈ s.accounts.handlers, ∀ ctx, ContextFor s.accounts.accounts h'.request ctx →
      ctx = ⟨⟨1⟩, "USD"⟩ := by
    rintro h' hh' ⟨organizationId, currency⟩ ⟨a, ha, -, -, organization, spelled⟩
    rw [accounts] at ha
    obtain rfl := List.mem_singleton.mp ha
    cases organization
    cases spelled
    rfl
  obtain ⟨ctx, context, shows⟩ :=
    posted_answer_shows_itself .fromEnv funded s run h hh tx done posted
  refine ⟨s, t, h, tx, run, hh, done, posted, later, of_decide_eq_true left, ctx, context, ?_⟩
  refine (shows (fun h' hh' ctx' context' _ => ?_) s t s t here later here later).1
  rw [only h' hh', only h hh, one h' hh' ctx' context', one h hh ctx context]

end System

end RailsCore
