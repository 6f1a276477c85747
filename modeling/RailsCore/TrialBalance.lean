import RailsCore.AccountHistory
import RailsCore.FundsChecks

/-!
# The trial balance

What the two services post debits one account and credits another of the same
organization, environment and currency. The debits and the credits of such a
group are therefore equal in every state, whatever is lost, repeated, delayed
or raised on the way. The saved balances add up to zero where no save was
computed from a value that had changed, and what the customers are shown is
then what the cash account holds.
-/

namespace RailsCore

/-- The sum of the entries of one type in a group. -/
def totalOf (entryType : EntryType) (g : LedgerGroup) (entries : List LedgerEntry) : Int :=
  ((entries.filter (fun e => e.ledgerAccountId.group = g ∧ e.entryType = entryType)).map
    LedgerEntry.amount).sum

@[simp] theorem totalOf_nil (entryType : EntryType) (g : LedgerGroup) :
    totalOf entryType g [] = 0 := rfl

theorem totalOf_append (entryType : EntryType) (g : LedgerGroup) (as bs : List LedgerEntry) :
    totalOf entryType g (as ++ bs) = totalOf entryType g as + totalOf entryType g bs := by
  simp only [totalOf, List.filter_append, List.map_append, List.sum_append]

theorem totalOf_cons (entryType : EntryType) (g : LedgerGroup) (e : LedgerEntry)
    (es : List LedgerEntry) : totalOf entryType g (e :: es) =
      (if e.ledgerAccountId.group = g ∧ e.entryType = entryType then e.amount else 0) +
        totalOf entryType g es := by
  by_cases here : e.ledgerAccountId.group = g ∧ e.entryType = entryType <;> simp [totalOf, here]

/-- The total of a group is the sum over its accounts. -/
theorem totalOf_eq_sum (entryType : EntryType) {g : LedgerGroup} {ids : Finset LedgerAccountId}
    (entries : List LedgerEntry)
    (covers : ∀ e ∈ entries, e.ledgerAccountId.group = g ↔ e.ledgerAccountId ∈ ids) :
    totalOf entryType g entries = ∑ id ∈ ids, sumOf entryType id entries := by
  induction entries with
  | nil => simp
  | cons e es ih =>
    have here := covers e List.mem_cons_self
    have rest := ih (fun d hd => covers d (List.mem_cons_of_mem _ hd))
    simp only [totalOf_cons, sumOf_cons, Finset.sum_add_distrib, rest]
    congr 1
    by_cases type : e.entryType = entryType
    · simp [type, here]
    · simp [type]

theorem sum_journal {g : LedgerGroup} {ids : Finset LedgerAccountId} (entries : List LedgerEntry)
    (covers : ∀ e ∈ entries, e.ledgerAccountId.group = g ↔ e.ledgerAccountId ∈ ids) :
    ∑ id ∈ ids, journal id entries = totalOf .debit g entries - totalOf .credit g entries := by
  rw [totalOf_eq_sum .debit entries covers, totalOf_eq_sum .credit entries covers,
    ← Finset.sum_sub_distrib]
  rfl

/-- A debit and a credit of one amount in one group. -/
theorem totalOf_pair {g : LedgerGroup} {d c : LedgerEntry} (debit : d.entryType = .debit)
    (credit : c.entryType = .credit) (group : d.ledgerAccountId.group = c.ledgerAccountId.group)
    (amount : d.amount = c.amount) : totalOf .debit g [d, c] = totalOf .credit g [d, c] := by
  simp [totalOf_cons, debit, credit, group, amount]

/-- The accounts of the group with entries are its cash account and its customers. -/
theorem Ledger.Sound.covers {db : Ledger} (sound : db.Sound) (g : LedgerGroup) :
    ∀ e ∈ db.entries, e.ledgerAccountId.group = g ↔
      e.ledgerAccountId ∈ insert (g.account systemCashControl) (db.customers g) := by
  intro e he
  rw [Finset.mem_insert, TransactionRetry.Ledger.mem_customers]
  constructor
  · rintro rfl
    by_cases cash : e.ledgerAccountId.externalAccountId = systemCashControl
    · left
      rw [← cash]
      rfl
    · right
      obtain ⟨a, found⟩ := Option.ne_none_iff_exists'.mp (sound.entry_account he)
      exact ⟨⟨a, Table.find_some found⟩, rfl, cash⟩
  · rintro (cash | ⟨-, here, -⟩)
    · rw [cash]
      rfl
    · exact here

/-- Where every balance is its journal and the journal balances, the cash
account holds what the customers are shown. -/
theorem Ledger.Sound.cash {db : Ledger} (sound : db.Sound) {g : LedgerGroup}
    (balanced : totalOf .debit g db.entries = totalOf .credit g db.entries)
    (reconciled : ∀ id : LedgerAccountId, id.group = g → db.Reconciled id) :
    db.getBalance (g.account systemCashControl) =
      ∑ id ∈ db.customers g, displayedBalance db id := by
  have notCustomer : g.account systemCashControl ∉ db.customers g := by
    intro here
    exact (TransactionRetry.Ledger.mem_customers.mp here).2.2 rfl
  have zero := sum_journal db.entries (sound.covers g)
  rw [Finset.sum_insert notCustomer, ← reconciled (g.account systemCashControl) rfl] at zero
  have shown : ∑ id ∈ db.customers g, displayedBalance db id =
      -∑ id ∈ db.customers g, journal id db.entries := by
    rw [← Finset.sum_neg_distrib]
    refine Finset.sum_congr rfl (fun id customer => ?_)
    obtain ⟨-, here, -⟩ := TransactionRetry.Ledger.mem_customers.mp customer
    exact congrArg Neg.neg (reconciled id here)
  omega

instance (db : Ledger) : ∀ point : Point, Decidable (∀ id, point.Current id db)
  | .saveSourceBalance l (some value) =>
    decidable_of_iff (db.balance l.source.id = some value)
      ⟨fun found _ here => here ▸ found, fun all => all _ rfl⟩
  | .saveDestinationBalance l (some value) =>
    decidable_of_iff (db.balance l.destination.id = some value)
      ⟨fun found _ here => here ▸ found, fun all => all _ rfl⟩
  | .saveSourceBalance _ none | .saveDestinationBalance _ none | .findExisting
  | .createTransaction | .checkEntries | .resolveSource | .resolveDestination _
  | .insertSourceEntry _ _ | .insertDestinationEntry _ | .findSourceBalance _
  | .findDestinationBalance _ | .markAsPosted _ | .commit _ | .returned | .raised _ =>
    isTrue (fun _ => trivial)

namespace System

/-- No save of any balance overwrites a value that has changed since it was read. -/
def SavesAllItRead (s : System) (a : SystemAction) : Prop := ∀ id, s.SavesWhatItRead id a

instance (s : System) : ∀ a, Decidable (s.SavesAllItRead a)
  | .statement i =>
    decidable_of_iff (∀ c ∈ s.ledger.calls[i]?, ∀ id, c.point.Current id (c.view s.ledger.db))
      ⟨fun all id b of => by cases of; exact fun c hc => all c hc id,
        fun all c hc id => all id _ rfl c hc⟩
  | .fail _ _ => isTrue (fun id b of => by cases of; trivial)
  | .accounts _ | .deliver _ | .lose _ | .duplicate _ => isTrue (fun id b of => by cases of)

/-- The debits and credits of every group are equal. -/
def Balanced (s : System) : Prop :=
  ∀ g, totalOf .debit g s.ledger.db.entries = totalOf .credit g s.ledger.db.entries

variable {settings : Settings} {s t : System} {a : SystemAction}

/-- The step lemma: entries come in pairs, a debit and a credit of one group. -/
theorem Sound.balanced_step (sound : s.Sound) (balanced : s.Balanced)
    (h : s.step settings a = some t) : t.Balanced := by
  cases moved_step h with
  | accounts | refused | arrived | lost | duplicated => exact balanced
  | ledger of step =>
    intro g
    rcases sound.ledger.entries_step step with
      same | ⟨i, c, l, rfl, at_, ready, recorded, entries⟩
    · exact same ▸ balanced g
    have typed := (sound.ledger.step step).tables.typed
    have legs := sound.debits_source at_ typed recorded
    have group : l.source.id.group = l.destination.id.group := by
      rw [recorded.source.1, recorded.destination.1]
      rfl
    rw [entries, totalOf_append, totalOf_append, balanced g]
    congr 1
    rw [legs]
    exact totalOf_pair rfl rfl group rfl

theorem balanced_run {as : List SystemAction} {s : System}
    (run : Machine.run (step settings) empty as = some s) : s.Balanced := by
  have both : s.Sound ∧ s.Balanced :=
    Machine.invariant_run (I := fun s => s.Sound ∧ s.Balanced)
      (fun s a t kept moved => ⟨kept.1.step moved, kept.1.balanced_step kept.2 moved⟩)
      ⟨sound_empty, fun g => rfl⟩ run
  exact both.2

/-- In every run of the two services, and for every organization, environment
and currency, the ledger's debits are its credits. -/
theorem trial_balance (settings : Settings) (as : List SystemAction) (s : System)
    (run : Machine.run (step settings) empty as = some s) (g : LedgerGroup) :
    totalOf .debit g s.ledger.db.entries = totalOf .credit g s.ledger.db.entries :=
  balanced_run run g

/-- Three posts, the last two of them interleaved, and one that raises halfway. -/
theorem trial_balance_thrice : ∃ s, Machine.run (step .fromEnv) empty postedThrice = some s ∧
    s.ledger.db.entries.length = 2 ∧ totalOf .debit customerAccount.group s.ledger.db.entries =
      totalOf .credit customerAccount.group s.ledger.db.entries := by
  have evaluated : (Machine.run (step .fromEnv) empty postedThrice).any
      (fun s => s.ledger.db.entries.length = 2) = true := by decide +kernel
  obtain ⟨s, run, count⟩ := (Option.any_eq_true _ _).mp evaluated
  exact ⟨s, run, of_decide_eq_true count, trial_balance .fromEnv _ s run customerAccount.group⟩

/-- The saved balances stay the journal of every account. -/
theorem reconciled_step (reconciled : ∀ id, s.ledger.Reconciled id)
    (current : s.SavesAllItRead a) (h : s.step settings a = some t) :
    ∀ id, t.ledger.Reconciled id := by
  intro id
  cases moved_step h with
  | accounts | refused | lost | duplicated => exact reconciled id
  | arrived sent flying poster cash => exact (reconciled id).arrive cash
  | ledger of step => exact (reconciled id).step (current id _ of) step

/-- In every run in which no balance is saved over a value that has changed
since it was read, the cash account of each group holds exactly what the
customers of the group are shown. -/
theorem customers_covered (settings : Settings) (as : List SystemAction) (s : System)
    (current : Machine.Along (step settings) SavesAllItRead empty as)
    (run : Machine.run (step settings) empty as = some s) (g : LedgerGroup) :
    s.ledger.db.getBalance (g.account systemCashControl) =
      ∑ id ∈ s.ledger.db.customers g, displayedBalance s.ledger.db id := by
  have kept : s.Sound ∧ ∀ id, s.ledger.Reconciled id :=
    Machine.invariant_along (I := fun s => s.Sound ∧ ∀ id, s.ledger.Reconciled id)
      (fun s a t kept current moved =>
        ⟨kept.1.step moved, reconciled_step kept.2 current moved⟩)
      ⟨sound_empty, LedgerService.reconciled_empty⟩ current run
  exact kept.1.ledger.tables.cash (balanced_run run g) (fun id _ => (kept.2 id).tables)

theorem customers_covered_withdrawal : ∃ s, Machine.run (step .fromEnv) empty
      (funded ++ checkedWithdrawal 1 "b" ++ postedWithdrawal 1 ⟨102⟩) = some s ∧
    s.ledger.db.getBalance (customerAccount.group.account systemCashControl) = 20 ∧
    s.ledger.db.getBalance (customerAccount.group.account systemCashControl) =
      ∑ id ∈ s.ledger.db.customers customerAccount.group, displayedBalance s.ledger.db id := by
  have evaluated : (Machine.run (step .fromEnv) empty
      (funded ++ checkedWithdrawal 1 "b" ++ postedWithdrawal 1 ⟨102⟩)).any (fun s =>
      s.ledger.db.getBalance (customerAccount.group.account systemCashControl) = 20) = true := by
    decide +kernel
  obtain ⟨s, run, left⟩ := (Option.any_eq_true _ _).mp evaluated
  exact ⟨s, run, of_decide_eq_true left, customers_covered .fromEnv _ s (by decide +kernel) run _⟩

end System

end RailsCore
