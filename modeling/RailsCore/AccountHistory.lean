import Mathlib.Algebra.BigOperators.Group.Finset.Piecewise
import RailsCore.AccountsSound
import RailsCore.SerialPosts

/-!
# Account histories and ledger balances

The accounts service tells the history of an account by the kind and the
direction of its rows, the ledger by account types and by debits and credits.
Over the rows of one batch, posted one after another to a ledger that was
empty, both arrive at the same balances. Rows that the ledger refuses, or
whose environment cannot be resolved, count on neither side.
-/

namespace RailsCore

/-- `balance_delta_for_account`: a row that is not posted changes nothing. -/
def balanceDeltaForAccount (tx : Transaction) (accountId : Uuid) : Int :=
  if tx.status ≠ .posted then 0
  else
    match tx.transactionKind with
    | .deposit => tx.amount
    | .withdraw => -tx.amount
    | .transfer => if tx.fromAccountId = accountId then -tx.amount else tx.amount

/-- The condition of `find_by_account_id`. -/
def Transaction.Names (tx : Transaction) (accountId : Uuid) : Prop :=
  tx.fromAccountId = accountId ∨ tx.toAccountId = accountId

instance (tx : Transaction) (accountId : Uuid) : Decidable (tx.Names accountId) :=
  inferInstanceAs (Decidable (_ ∨ _))

/-- An organization, an environment and a currency. -/
structure LedgerGroup where
  organizationId : Uuid
  environment : Environment
  currency : String
deriving DecidableEq, Repr

def LedgerAccountId.group (id : LedgerAccountId) : LedgerGroup :=
  ⟨id.organizationId, id.environment, id.currency⟩

def LedgerGroup.account (g : LedgerGroup) (externalAccountId : String) : LedgerAccountId :=
  ⟨g.organizationId, g.environment, externalAccountId, g.currency⟩

def PostTransactionRequest.group (m : PostTransactionRequest) : LedgerGroup :=
  ⟨m.organizationId, m.environment, stripUpcase m.currency⟩

/-- The accounts of the group other than its cash account. -/
def Ledger.customers (db : Ledger) (g : LedgerGroup) : Finset LedgerAccountId :=
  (db.accounts.map LedgerAccount.id).toFinset.filter
    (fun id => id.group = g ∧ id.externalAccountId ≠ systemCashControl)

/-- The tables of both services. -/
structure Books where
  ledger : Ledger
  rows : List Transaction
deriving DecidableEq, Repr

namespace TransactionRetry
open TransactionRepository

/-- The message that a row is posted with, where its environment can be resolved. -/
def message (accounts : List Account) (tx : Transaction) : Option PostTransactionRequest :=
  match resolveEnvironment accounts tx with
  | .ok environment => some (postRequest environment tx)
  | .error _ => none

/-- One turn of the loop of `process_claimed_ledger_posts`, at time `now`. -/
def processClaimed (settings : Settings) (accounts : List Account) (now : Nat) (books : Books)
    (tx : Transaction) : Books :=
  match resolveEnvironment accounts tx with
  | .error _ => ⟨books.ledger, updateStatus now tx.id .pending
      (some "retry_worker: could not resolve account environment") books.rows⟩
  | .ok environment =>
    let (ledger, result) := LedgerGrpc.postTransaction settings (postRequest environment tx)
      books.ledger
    ⟨ledger, Worker.settled settings now tx result books.rows⟩

/-- The whole loop; `clock` tells when each row is settled. -/
def processClaimedLedgerPosts (settings : Settings) (accounts : List Account) (clock : Uuid → Nat)
    (pending : List Transaction) (books : Books) : Books :=
  pending.foldl (fun books tx => processClaimed settings accounts (clock tx.id) books tx) books

/-- The group of the accounts that a row is posted to. -/
def groupOf (accounts : List Account) (tx : Transaction) : Option LedgerGroup :=
  (message accounts tx).map PostTransactionRequest.group

/-- The history of an account: what its rows in the group add up to. -/
def history (accounts : List Account) (g : LedgerGroup) (accountId : Uuid)
    (rows : List Transaction) : Int :=
  ((rows.filter (fun tx => groupOf accounts tx = some g ∧ tx.Names accountId)).map
    (fun tx => balanceDeltaForAccount tx accountId)).sum

theorem message_of_intent {a b : Transaction} (same : a.intent = b.intent)
    (accounts : List Account) : message accounts a = message accounts b := by
  have environment : a.environment = b.environment := congrArg Intent.environment same
  have source : a.fromAccountId = b.fromAccountId := congrArg Intent.fromAccountId same
  have resolved : resolveEnvironment accounts a = resolveEnvironment accounts b := by
    rw [resolveEnvironment, resolveEnvironment, environment, source]
  simp only [message, resolved, retryRequest_of_intent same]

/-- Rows are posted between customers and the cash account. -/
theorem postRequest_betweenCustomers (environment : Environment) (tx : Transaction) :
    LedgerPoster.BetweenCustomers (postRequest environment tx).sourceExternalAccountId
      (postRequest environment tx).destinationExternalAccountId := by
  cases kind : tx.transactionKind <;> simp only [postRequest, sourceExternal, destExternal, kind]
  · exact (LedgerPoster.betweenCustomers tx.fromAccountId _).1
  · exact (LedgerPoster.betweenCustomers _ tx.toAccountId).2.1
  · exact (LedgerPoster.betweenCustomers _ _).2.2

theorem history_append (accounts : List Account) (g : LedgerGroup) (accountId : Uuid)
    (before after : List Transaction) : history accounts g accountId (before ++ after) =
      history accounts g accountId before + history accounts g accountId after := by
  simp only [history, List.filter_append, List.map_append, List.sum_append]

theorem history_single (accounts : List Account) (g : LedgerGroup) (accountId : Uuid)
    (tx : Transaction) : history accounts g accountId [tx] =
      if groupOf accounts tx = some g ∧ tx.Names accountId then
        balanceDeltaForAccount tx accountId else 0 := by
  by_cases counts : groupOf accounts tx = some g ∧ tx.Names accountId <;> simp [history, counts]

/-- A history is all of the account's rows where those outside the group are not posted. -/
theorem history_all {accounts : List Account} {g : LedgerGroup} {accountId : Uuid}
    {rows : List Transaction} (one : ∀ tx ∈ rows, tx.Names accountId →
      groupOf accounts tx = some g ∨ tx.status ≠ .posted) :
    history accounts g accountId rows = ((rows.filter (fun tx => tx.Names accountId)).map
      (fun tx => balanceDeltaForAccount tx accountId)).sum := by
  induction rows with
  | nil => rfl
  | cons tx rows ih =>
    have rest := ih fun r hr => one r (List.mem_cons_of_mem _ hr)
    rw [← List.singleton_append, history_append, history_single, rest, List.filter_append,
      List.map_append, List.sum_append]
    congr 1
    by_cases names : tx.Names accountId
    · rcases one tx List.mem_cons_self names with here | unposted
      · simp [here, names]
      · simp [names, balanceDeltaForAccount, unposted]
    · simp [names]

/-- What is asked of the rows of a batch: one row for each primary key, one
message for each idempotency key, and the same account twice where cash is the
other side. -/
structure Batch (accounts : List Account) (rows : List Transaction) : Prop where
  ids : Table.Unique Transaction.id rows
  keys : ((rows.filterMap (message accounts)).map PostTransactionRequest.key).Nodup
  own : ∀ tx ∈ rows, tx.transactionKind ≠ .transfer → tx.fromAccountId = tx.toAccountId

/-- A row is settled: what is asked of the batch does not read the columns that change. -/
theorem Batch.settle {accounts : List Account} {before after : List Transaction}
    {tx tx' : Transaction} (same : tx'.intent = tx.intent)
    (batch : Batch accounts (before ++ tx :: after)) : Batch accounts (before ++ tx' :: after) where
  ids := by
    have ids := batch.ids
    rw [Table.Unique, List.map_append, List.map_cons] at ids ⊢
    rw [Transaction.id_of_intent same]
    exact ids
  keys := by
    have keys := batch.keys
    rw [List.filterMap_append, List.filterMap_cons] at keys ⊢
    rw [message_of_intent same]
    exact keys
  own := by
    intro r hr kind
    rcases List.mem_append.mp hr with old | new
    · exact batch.own r (List.mem_append_left _ old) kind
    rcases List.mem_cons.mp new with rfl | old
    · have fields : r.transactionKind = tx.transactionKind ∧ r.fromAccountId = tx.fromAccountId ∧
          r.toAccountId = tx.toAccountId :=
        ⟨congrArg Intent.transactionKind same, congrArg Intent.fromAccountId same,
          congrArg Intent.toAccountId same⟩
      rw [fields.2.1, fields.2.2]
      exact batch.own tx (List.mem_append_right _ List.mem_cons_self) (fields.1 ▸ kind)
    · exact batch.own r (List.mem_append_right _ (List.mem_cons_of_mem _ old)) kind

/-- A post is a debit and a credit of its amount. -/
theorem journal_posts {m : PostTransactionRequest} {db next : Ledger} (posts : db.Posts m next)
    (id : LedgerAccountId) : journal id next.entries = journal id db.entries +
      ((if m.movement.source = id then m.amount else 0) -
        (if m.movement.destination = id then m.amount else 0)) := by
  rw [posts.entries, journal_append, journal_cons, journal_cons, journal_nil]
  simp only [signedAmount]
  split_ifs <;> omega

theorem source_account_iff {m : PostTransactionRequest} {g : LedgerGroup} {external : String} :
    m.movement.source = g.account external ↔
      m.group = g ∧ m.sourceExternalAccountId = external := by
  cases g
  simp only [PostTransactionRequest.movement, LedgerGroup.account, PostTransactionRequest.group,
    LedgerAccountId.mk.injEq, LedgerGroup.mk.injEq]
  tauto

theorem destination_account_iff {m : PostTransactionRequest} {g : LedgerGroup} {external : String} :
    m.movement.destination = g.account external ↔
      m.group = g ∧ m.destinationExternalAccountId = external := by
  cases g
  simp only [PostTransactionRequest.movement, LedgerGroup.account, PostTransactionRequest.group,
    LedgerAccountId.mk.injEq, LedgerGroup.mk.injEq]
  tauto

/-- Both sign conventions agree on one posted row. -/
theorem delta_posted {accounts : List Account} {tx : Transaction} {environment : Environment}
    (resolved : message accounts tx = some (postRequest environment tx))
    (posted : tx.status = .posted)
    (own : tx.transactionKind ≠ .transfer → tx.fromAccountId = tx.toAccountId)
    (distinct : (postRequest environment tx).movement.source ≠
      (postRequest environment tx).movement.destination) (g : LedgerGroup) (accountId : Uuid) :
    history accounts g accountId [tx] =
      (if (postRequest environment tx).movement.destination = g.account accountId.toString then
        tx.amount else 0) -
      (if (postRequest environment tx).movement.source = g.account accountId.toString then
        tx.amount else 0) := by
  have cash : systemCashControl ≠ accountId.toString := (Uuid.toString_ne_cash _).symm
  have group : groupOf accounts tx = some (postRequest environment tx).group := by
    rw [groupOf, resolved]
    rfl
  rw [history_single, group]
  simp only [source_account_iff, destination_account_iff]
  by_cases here : (postRequest environment tx).group = g
  · simp only [here, true_and]
    change (if tx.Names accountId then _ else _) =
      (if destExternal tx = accountId.toString then _ else _) -
        (if sourceExternal tx = accountId.toString then _ else _)
    rw [balanceDeltaForAccount, if_neg (not_not_intro posted), sourceExternal, destExternal]
    cases kind : tx.transactionKind with
    | deposit =>
      simp [Transaction.Names, own (by simp [kind]), cash, Uuid.toString_inj]
    | withdraw =>
      have customer : ¬ systemCashControl = accountId.toString := cash
      simp only [Transaction.Names, own (by simp [kind]), customer, Uuid.toString_inj, or_self,
        if_false]
      split_ifs <;> omega
    | transfer =>
      have apart : tx.fromAccountId ≠ tx.toAccountId := by
        intro same
        refine distinct ?_
        simp [PostTransactionRequest.movement, postRequest, sourceExternal, destExternal, kind, same]
      simp only [Transaction.Names, Uuid.toString_inj]
      by_cases source : tx.fromAccountId = accountId
      · have other : tx.toAccountId ≠ accountId := fun same => apart (source.trans same.symm)
        simp [source, other]
      · simp [source]
  · simp [here]

/-- The invariant: `done` are the settled rows, and their histories are what
the ledger's balances say. -/
structure Refines (accounts : List Account) (done rest : List Transaction) (books : Books) :
    Prop where
  rows : books.rows = done ++ rest
  batch : Batch accounts (done ++ rest)
  serial : books.ledger.Serial
  keys : ∀ t ∈ books.ledger.transactions,
    t.key ∈ (done.filterMap (message accounts)).map PostTransactionRequest.key
  histories : ∀ (g : LedgerGroup) (a : Uuid),
    displayedBalance books.ledger (g.account a.toString) = history accounts g a done
  sent : ∀ tx ∈ done, tx.status = .posted → groupOf accounts tx ≠ none
  zero : ∀ (g : LedgerGroup) (ids : Finset LedgerAccountId),
    (∀ e ∈ books.ledger.entries, e.ledgerAccountId.group = g ↔ e.ledgerAccountId ∈ ids) →
    ∑ id ∈ ids, journal id books.ledger.entries = 0

theorem refines_empty {accounts : List Account} {rows : List Transaction}
    (batch : Batch accounts rows) : Refines accounts [] rows ⟨Ledger.empty, rows⟩ where
  rows := rfl
  batch := batch
  serial := Ledger.serial_empty
  keys := fun _ ht => absurd ht List.not_mem_nil
  histories := fun _ _ => rfl
  sent := fun _ htx => absurd htx List.not_mem_nil
  zero := fun _ _ _ => Finset.sum_const_zero

/-- No account, entry or balance of the group differs. -/
structure SameGroup (g : LedgerGroup) (db next : Ledger) : Prop where
  account : ∀ id : LedgerAccountId, id.group = g → next.account id = db.account id
  balance : ∀ id : LedgerAccountId, id.group = g → next.balance id = db.balance id
  entries : next.entries.filter (fun e => e.ledgerAccountId.group = g) =
    db.entries.filter (fun e => e.ledgerAccountId.group = g)

theorem SameGroup.refl (g : LedgerGroup) (db : Ledger) : SameGroup g db db :=
  ⟨fun _ _ => rfl, fun _ _ => rfl, rfl⟩

/-- A post touches its own group only. -/
theorem sameGroup_posts {m : PostTransactionRequest} {db next : Ledger} (posts : db.Posts m next)
    {g : LedgerGroup} (other : m.group ≠ g) : SameGroup g db next := by
  have source : m.movement.source.group = m.group := rfl
  have destination : m.movement.destination.group = m.group := rfl
  have apart : ∀ id : LedgerAccountId, id.group = g →
      id ≠ m.movement.source ∧ id ≠ m.movement.destination := by
    rintro id here
    constructor
    · rintro rfl
      exact other here
    · rintro rfl
      exact other here
  refine ⟨fun id here => ?_, fun id here => ?_, ?_⟩
  · exact posts.account id (apart id here).1 (apart id here).2
  · exact posts.balance id (apart id here).1 (apart id here).2
  · rw [posts.entries, List.filter_append]
    simp [source, destination, other]

/-- A row is settled that is not posted: it counts nowhere. -/
theorem Refines.unposted {accounts : List Account} {done rest : List Transaction}
    {tx tx' : Transaction} {books : Books} (refines : Refines accounts done (tx :: rest) books)
    (same : tx'.intent = tx.intent) (unposted : tx'.status ≠ .posted) :
    Refines accounts (done ++ [tx']) rest ⟨books.ledger, done ++ tx' :: rest⟩ where
  rows := by simp
  batch := by simpa using refines.batch.settle same
  serial := refines.serial
  keys := by
    intro t ht
    rw [List.filterMap_append, List.map_append]
    exact List.mem_append_left _ (refines.keys t ht)
  histories := by
    intro g a
    have nothing : history accounts g a [tx'] = 0 := by
      rw [history_single, balanceDeltaForAccount, if_pos unposted, ite_self]
    rw [history_append, nothing, Int.add_zero]
    exact refines.histories g a
  sent := by
    intro r hr posted
    rcases List.mem_append.mp hr with old | new
    · exact refines.sent r old posted
    · exact absurd (List.mem_singleton.mp new ▸ posted) unposted
  zero := refines.zero

/-- A row is posted: the ledger's balances and the histories move alike. -/
theorem Refines.posted {accounts : List Account} {done rest : List Transaction}
    {tx tx' : Transaction} {books : Books} {environment : Environment} {next : Ledger}
    (refines : Refines accounts done (tx :: rest) books) (same : tx'.intent = tx.intent)
    (posted : tx'.status = .posted) (resolved : message accounts tx = some (postRequest environment tx))
    (serial : next.Serial) (posts : books.ledger.Posts (postRequest environment tx) next) :
    Refines accounts (done ++ [tx']) rest ⟨next, done ++ tx' :: rest⟩ := by
  have batch := refines.batch.settle same
  rw [← message_of_intent same, ← retryRequest_of_intent same] at resolved
  rw [← retryRequest_of_intent same] at posts
  refine ⟨by simp, by simpa using batch, serial, ?_, ?_, ?_, ?_⟩
  · intro t ht
    obtain ⟨row, key, rows⟩ := posts.row
    rw [List.filterMap_append, List.map_append]
    rw [rows] at ht
    rcases List.mem_append.mp ht with old | new
    · exact List.mem_append_left _ (refines.keys t old)
    · obtain rfl := List.mem_singleton.mp new
      simp [resolved, key]
  · intro g a
    have own := batch.own tx' (List.mem_append_right _ List.mem_cons_self)
    have before := refines.histories g a
    have now := serial.reconciled (g.account a.toString)
    have then_ := refines.serial.reconciled (g.account a.toString)
    rw [Ledger.Reconciled] at now then_
    rw [history_append, delta_posted resolved posted own posts.distinct, ← before,
      displayedBalance, displayedBalance, now, then_, journal_posts posts]
    have amount : (postRequest environment tx').amount = tx'.amount := rfl
    rw [amount]
    omega
  · intro r hr here
    rcases List.mem_append.mp hr with old | new
    · exact refines.sent r old here
    · rw [List.mem_singleton.mp new, groupOf, resolved]
      simp
  · intro g ids covers
    have old : ∀ e ∈ books.ledger.entries, e.ledgerAccountId.group = g ↔ e.ledgerAccountId ∈ ids := by
      intro e he
      exact covers e (posts.entries ▸ List.mem_append_left _ he)
    have source := covers _ (posts.entries ▸ List.mem_append_right _ List.mem_cons_self)
    have destination := covers _ (posts.entries ▸ List.mem_append_right _
      (List.mem_cons_of_mem _ List.mem_cons_self))
    have together : (postRequest environment tx').movement.source ∈ ids ↔
        (postRequest environment tx').movement.destination ∈ ids := source.symm.trans destination
    simp only [journal_posts posts, Finset.sum_add_distrib, Finset.sum_sub_distrib,
      Finset.sum_ite_eq, refines.zero g ids old, together, Int.sub_self, Int.add_zero]

/-- The step lemma: one row is settled, and no other group notices. -/
theorem Refines.step (settings : Settings) (now : Nat) {accounts : List Account}
    {done rest : List Transaction} {tx : Transaction} {books : Books}
    (refines : Refines accounts done (tx :: rest) books) :
    ∃ tx', tx'.intent = tx.intent ∧
      Refines accounts (done ++ [tx']) rest (processClaimed settings accounts now books tx) ∧
      ∀ g, groupOf accounts tx ≠ some g →
        SameGroup g books.ledger (processClaimed settings accounts now books tx).ledger := by
  have update : ∀ f : Transaction → Transaction,
      Table.updateWhere (fun r => r.id = tx.id) f books.rows = done ++ f tx :: rest := by
    intro f
    rw [refines.rows]
    exact refines.batch.ids.update_one f
  cases resolved : resolveEnvironment accounts tx with
  | error e =>
    simp only [processClaimed, resolved, updateStatus, update]
    refine ⟨withStatus now .pending _ tx, rfl, refines.unposted ?_ ?_, fun g _ => .refl g _⟩
    · rfl
    · simp [withStatus]
  | ok environment =>
    have sent : message accounts tx = some (postRequest environment tx) := by
      rw [message, resolved]
    have fresh : books.ledger.transaction (postRequest environment tx).key = none := by
      refine Table.find_none_iff.mpr (fun t ht same => ?_)
      have keys := refines.batch.keys
      rw [List.filterMap_append, List.filterMap_cons, sent, List.map_append, List.map_cons,
        List.nodup_append] at keys
      exact keys.2.2 _ (refines.keys t ht) _ List.mem_cons_self same
    have settle : ∀ result, ∃ tx', tx'.intent = tx.intent ∧
        tx'.status = Worker.settledStatus settings tx result ∧
        Worker.settled settings now tx result books.rows = done ++ tx' :: rest := by
      intro result
      obtain ⟨f, stamps, settled⟩ := Worker.settled_stamps settings now tx result books.rows
      exact ⟨f tx, stamps.intent tx, stamps.status tx, settled.trans (update f)⟩
    rcases postTransaction_fresh settings refines.serial fresh
        (postRequest_betweenCustomers environment tx) with
      ⟨e, answer⟩ | ⟨next, answer, serial, posts⟩
    · obtain ⟨tx', same, status, settled⟩ := settle (.error e)
      simp only [processClaimed, resolved, answer, settled]
      refine ⟨tx', same, refines.unposted same ?_, fun g _ => .refl g _⟩
      rw [status, Worker.settledStatus]
      split_ifs <;> decide
    · obtain ⟨tx', same, status, settled⟩ := settle (.ok ())
      simp only [processClaimed, resolved, answer, settled]
      refine ⟨tx', same, refines.posted same status sent serial posts, fun g other => ?_⟩
      refine sameGroup_posts posts (fun here => other ?_)
      rw [groupOf, sent, Option.map_some, here]

/-- The run lemma, by induction on the rows that are settled next. -/
theorem Refines.run (settings : Settings) (clock : Uuid → Nat) {accounts : List Account}
    {pending rest : List Transaction} : ∀ {done : List Transaction} {books : Books},
    Refines accounts done (pending ++ rest) books →
    ∃ done', done'.map Transaction.intent = (done ++ pending).map Transaction.intent ∧
      Refines accounts done' rest
        (processClaimedLedgerPosts settings accounts clock pending books) := by
  induction pending with
  | nil =>
    intro done books refines
    exact ⟨done, by simp, refines⟩
  | cons tx pending ih =>
    intro done books refines
    obtain ⟨tx', same, settled, -⟩ := refines.step settings (clock tx.id)
    obtain ⟨done', intents, all⟩ := ih settled
    refine ⟨done', ?_, all⟩
    rw [intents]
    simp [same]

theorem Ledger.mem_customers {db : Ledger} {g : LedgerGroup} {id : LedgerAccountId} :
    id ∈ db.customers g ↔ (∃ a ∈ db.accounts, a.id = id) ∧ id.group = g ∧
      id.externalAccountId ≠ systemCashControl := by
  simp [Ledger.customers]

/-- What the customers are shown is what the cash account holds. -/
theorem Refines.cash {accounts : List Account} {done rest : List Transaction} {books : Books}
    (refines : Refines accounts done rest books) (g : LedgerGroup) :
    books.ledger.getBalance (g.account systemCashControl) =
      ∑ id ∈ books.ledger.customers g, displayedBalance books.ledger id := by
  have notCustomer : g.account systemCashControl ∉ books.ledger.customers g := by
    intro here
    exact (Ledger.mem_customers.mp here).2.2 rfl
  have zero := refines.zero g (insert (g.account systemCashControl) (books.ledger.customers g)) (by
    intro e he
    rw [Finset.mem_insert, Ledger.mem_customers]
    constructor
    · intro here
      by_cases cash : e.ledgerAccountId.externalAccountId = systemCashControl
      · left
        rw [← here, ← cash]
        rfl
      · right
        obtain ⟨a, found⟩ := Option.ne_none_iff_exists'.mp (refines.serial.sound.entry_account he)
        exact ⟨⟨a, Table.find_some found⟩, here, cash⟩
    · rintro (cash | ⟨-, here, -⟩)
      · rw [cash]
        rfl
      · exact here)
  rw [Finset.sum_insert notCustomer] at zero
  have balance : ∀ id, books.ledger.getBalance id = journal id books.ledger.entries :=
    refines.serial.reconciled
  simp only [displayedBalance, balance, Finset.sum_neg_distrib]
  omega

/-- The rows of a batch, posted one after another from an empty ledger: every
customer's balance is the sum of the row deltas of its account in the group,
and of all its rows where they lie in one group; the cash account holds what
the customers of its group are shown; and no post is noticed in another group. -/
theorem history_refines_ledger (settings : Settings) (accounts : List Account) (clock : Uuid → Nat)
    (rows : List Transaction) (ids : Table.Unique Transaction.id rows)
    (keys : ((rows.filterMap (message accounts)).map PostTransactionRequest.key).Nodup)
    (own : ∀ tx ∈ rows, tx.transactionKind ≠ .transfer → tx.fromAccountId = tx.toAccountId) :
    let run := fun pending =>
      processClaimedLedgerPosts settings accounts clock pending ⟨Ledger.empty, rows⟩
    (∀ g a, displayedBalance (run rows).ledger (g.account (Uuid.toString a)) =
      history accounts g a (run rows).rows) ∧
    (∀ g a, (∀ tx ∈ rows, tx.Names a → ∀ g' ∈ groupOf accounts tx, g' = g) →
      displayedBalance (run rows).ledger (g.account a.toString) =
        (((run rows).rows.filter (fun tx => tx.Names a)).map
          (fun tx => balanceDeltaForAccount tx a)).sum) ∧
    (∀ g, (run rows).ledger.getBalance (g.account systemCashControl) =
      ∑ id ∈ (run rows).ledger.customers g, displayedBalance (run rows).ledger id) ∧
    (∀ before tx after, rows = before ++ tx :: after → ∀ g, groupOf accounts tx ≠ some g →
      SameGroup g (run before).ledger (run (before ++ [tx])).ledger) := by
  intro run
  have start : Refines accounts [] (rows ++ []) ⟨Ledger.empty, rows⟩ := by
    simpa using refines_empty (Batch.mk ids keys own)
  obtain ⟨done, intents, all⟩ := start.run settings clock
  have settled : (run rows).rows = done := all.rows.trans (List.append_nil done)
  refine ⟨fun g a => ?_, fun g a one => ?_, all.cash, ?_⟩
  · rw [settled]
    exact all.histories g a
  · rw [settled]
    refine (all.histories g a).trans (history_all fun tx' htx' names => ?_)
    obtain ⟨tx, htx, same⟩ : ∃ tx ∈ rows, tx.intent = tx'.intent :=
      List.mem_map.mp (intents ▸ List.mem_map_of_mem htx')
    by_cases posted : tx'.status = .posted
    · obtain ⟨g', group⟩ := Option.ne_none_iff_exists'.mp (all.sent tx' htx' posted)
      have source : tx.fromAccountId = tx'.fromAccountId := congrArg Intent.fromAccountId same
      have destination : tx.toAccountId = tx'.toAccountId := congrArg Intent.toAccountId same
      have named : tx.Names a := by
        rw [Transaction.Names, source, destination]
        exact names
      rw [groupOf, ← message_of_intent same] at group
      left
      rw [groupOf, ← message_of_intent same, group, one tx htx named g' group]
    · exact .inr posted
  · rintro before tx after rfl g other
    have from_ : Refines accounts [] (before ++ tx :: after) ⟨Ledger.empty, before ++ tx :: after⟩ :=
      refines_empty (Batch.mk ids keys own)
    obtain ⟨done', -, then_⟩ := from_.run settings clock
    obtain ⟨-, -, -, same⟩ := then_.step settings (clock tx.id)
    have turn : run (before ++ [tx]) = processClaimed settings accounts (clock tx.id) (run before) tx := by
      simp only [run, processClaimedLedgerPosts, List.foldl_append, List.foldl_cons, List.foldl_nil]
    rw [turn]
    exact same g other

/-- A claimed row. -/
def claimedRow (id source destination : Uuid) (amount : Int) (kind : TransactionKind) : Transaction :=
  claimedForRetry 0
    (newRow 0 id ⟨1⟩ source destination amount "usd" kind id.toString .sandbox)

/-- A deposit of 100, a transfer of 30 of it, a withdrawal of 10, and a transfer that is refused. -/
def claimedRows : List Transaction :=
  [claimedRow ⟨101⟩ ⟨7⟩ ⟨7⟩ 100 .deposit, claimedRow ⟨102⟩ ⟨7⟩ ⟨8⟩ 30 .transfer,
    claimedRow ⟨103⟩ ⟨8⟩ ⟨8⟩ 10 .withdraw, claimedRow ⟨104⟩ ⟨7⟩ ⟨7⟩ 5 .transfer]

theorem history_refines_ledger_rows :
    let run := fun pending =>
      processClaimedLedgerPosts .fromEnv [] (fun _ => 5) pending ⟨Ledger.empty, claimedRows⟩
    (run claimedRows).rows.map Transaction.status = [.posted, .posted, .posted, .pending] ∧
    displayedBalance (run claimedRows).ledger
      (LedgerGroup.account ⟨⟨1⟩, .sandbox, "USD"⟩ (Uuid.toString ⟨7⟩)) = 70 ∧
    history [] ⟨⟨1⟩, .sandbox, "USD"⟩ ⟨7⟩ (run claimedRows).rows = 70 := by
  intro run
  have ids : (claimedRows.map Transaction.id).Nodup := by decide +kernel
  have refines := history_refines_ledger .fromEnv [] (fun _ => 5) claimedRows ids
    (by decide +kernel) (by decide +kernel)
  have shown : displayedBalance (run claimedRows).ledger
      (LedgerGroup.account ⟨⟨1⟩, .sandbox, "USD"⟩ (Uuid.toString ⟨7⟩)) = 70 := by decide +kernel
  exact ⟨by decide +kernel, shown, (refines.1 _ _).symm.trans shown⟩

end TransactionRetry

end RailsCore
