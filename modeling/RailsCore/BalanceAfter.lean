import Mathlib.Algebra.BigOperators.Group.List.Basic
import RailsCore.TransactionLists

/-!
# Balances shown after each row

What both lists show is compared with one number: the posted deltas of the
account up to the row. The list of an account starts at the newest row and
shows it. A page of an organization starts from the current balance whatever
page it is, so it shows this number only where the rows of earlier pages add
nothing up. The numbers are unbounded here. Where the 64 bits of the source hold
every result of its walk, which is what `CheckedBalances.Computation.InRange`
says, it computes the same ones.
-/

namespace RailsCore
open TransactionRepository Handlers

/-- The row is about the account, in the environment, and not newer than `at_`. -/
def Transaction.CountsFor (r : Transaction) (accountId : Uuid) (environment : Environment)
    (at_ : Nat) : Prop :=
  r.Names accountId ∧ r.environment = some environment ∧ r.createdAt ≤ at_

instance (r : Transaction) (accountId : Uuid) (environment : Environment) (at_ : Nat) :
    Decidable (r.CountsFor accountId environment at_) := inferInstanceAs (Decidable (_ ∧ _ ∧ _))

/-- The posted deltas of the account up to and including the row. -/
def balanceUpTo (rows : List Transaction) (environment : Environment) (accountId : Uuid)
    (tx : Transaction) : Int :=
  ((rows.filter (fun r => r.CountsFor accountId environment tx.createdAt)).map
    (fun r => balanceDeltaForAccount r accountId)).sum

def postedDeltas (rows : List Transaction) (environment : Environment) (accountId : Uuid) : Int :=
  ((rows.filter (fun r => r.Names accountId ∧ r.environment = some environment)).map
    (fun r => balanceDeltaForAccount r accountId)).sum

/-- The rows of an organization and the ledger's balances of its accounts. -/
structure OrganisationHistory (ledger : BalanceQuery) (organizationId : Uuid)
    (environment : Environment) (rows : List Transaction) : Prop where
  ids : Table.Unique Transaction.id rows
  distinct : ∀ r ∈ rows, ∀ r' ∈ rows, r.organizationId = organizationId →
    r'.organizationId = organizationId → r.createdAt = r'.createdAt → r = r'
  oneAccount : ∀ r ∈ rows, r.transactionKind ≠ .transfer → r.fromAccountId = r.toAccountId
  oneOrganization : ∀ r ∈ rows, ∀ r' ∈ rows, ∀ a, r.Names a → r'.Names a →
    r.environment = r'.environment → r.organizationId = r'.organizationId
  balances : ∀ r ∈ rows, r.organizationId = organizationId → r.environment = some environment →
    ∀ a, r.Names a → ledger organizationId environment a r.currency =
      .ok (-postedDeltas rows environment a)

/-- What a row adds to an account that it may or may not be about. -/
def involvedDelta (accountId : Uuid) (r : Transaction) : Int :=
  if r.Names accountId then balanceDeltaForAccount r accountId else 0

def Transaction.SelfTransfer (r : Transaction) (accountId : Uuid) : Prop :=
  r.transactionKind = .transfer ∧ r.fromAccountId = accountId ∧ r.toAccountId = accountId

instance (r : Transaction) (accountId : Uuid) : Decidable (r.SelfTransfer accountId) :=
  inferInstanceAs (Decidable (_ ∧ _ ∧ _))

/-- What the walk over a page takes back from an account for a row. -/
def chargedDelta (accountId : Uuid) (r : Transaction) : Int :=
  (if r.fromAccountId = accountId then balanceDeltaForAccount r accountId else 0) +
    if r.transactionKind = .transfer ∧ r.toAccountId = accountId then
      balanceDeltaForAccount r accountId
    else 0

namespace BalanceCache

@[simp] theorem read_insert (cache : BalanceCache) (a b : Uuid) (balance : Int) :
    (cache.insert a balance).read b = if b = a then balance else cache.read b := by
  rw [read, insert]
  split <;> rfl

end BalanceCache

namespace Handlers

theorem read_takeBack (cache : BalanceCache) (tx : Transaction) (a : Uuid) :
    (takeBack cache tx).read a = cache.read a - chargedDelta a tx := by
  simp only [takeBack, chargedDelta]
  by_cases transfer : tx.transactionKind = .transfer
  · simp only [transfer, if_true, true_and, BalanceCache.read_insert]
    by_cases source : tx.fromAccountId = a <;> by_cases destination : tx.toAccountId = a
    · subst source
      simp only [destination, if_true]
      omega
    · subst source
      simp [destination, Ne.symm destination]
    · subst destination
      simp [source, Ne.symm source]
    · simp [source, destination, Ne.symm source, Ne.symm destination]
  · simp only [transfer, if_false, false_and, BalanceCache.read_insert]
    by_cases source : tx.fromAccountId = a
    · subst source
      simp
    · simp [source, Ne.symm source]

/-- A row is taken back once, and a transfer to the same account twice. -/
theorem chargedDelta_eq {tx : Transaction}
    (oneAccount : tx.transactionKind ≠ .transfer → tx.fromAccountId = tx.toAccountId) (a : Uuid) :
    chargedDelta a tx = involvedDelta a tx +
      if tx.SelfTransfer a then balanceDeltaForAccount tx a else 0 := by
  simp only [chargedDelta, involvedDelta, Transaction.Names, Transaction.SelfTransfer]
  by_cases transfer : tx.transactionKind = .transfer
  · by_cases source : tx.fromAccountId = a <;> by_cases destination : tx.toAccountId = a <;>
      simp [transfer, source, destination]
  · have same := oneAccount transfer
    simp [transfer, same]

/-- Each response of an account's list shows the balance less the rows above it. -/
theorem mem_running {a : Uuid} {resp : AccountTransactionResponse} {running : Int}
    {txs : List Transaction} (shown : resp ∈ List.zipWith
      (fun tx balanceAfter => AccountTransactionResponse.fromTransaction tx a balanceAfter) txs
      (runningBalances a running txs)) :
    ∃ above tx below, txs = above ++ tx :: below ∧ resp = .fromTransaction tx a
      (running - (above.map (fun r => balanceDeltaForAccount r a)).sum) := by
  induction txs generalizing running with
  | nil => exact nomatch shown
  | cons tx txs ih =>
    rw [runningBalances, List.zipWith_cons_cons] at shown
    rcases List.mem_cons.mp shown with rfl | later
    · exact ⟨[], tx, txs, rfl, by simp⟩
    · obtain ⟨above, tx', below, rfl, rfl⟩ := ih later
      refine ⟨tx :: above, tx', below, rfl, ?_⟩
      rw [List.map_cons, List.sum_cons, Int.sub_sub]

theorem running_mem {a : Uuid} (running : Int) (above : List Transaction) (tx : Transaction)
    (below : List Transaction) : AccountTransactionResponse.fromTransaction tx a
      (running - (above.map (fun r => balanceDeltaForAccount r a)).sum) ∈ List.zipWith
      (fun tx balanceAfter => AccountTransactionResponse.fromTransaction tx a balanceAfter)
      (above ++ tx :: below) (runningBalances a running (above ++ tx :: below)) := by
  induction above generalizing running with
  | nil => simp [runningBalances]
  | cons r above ih =>
    rw [List.cons_append, runningBalances, List.zipWith_cons_cons, List.map_cons, List.sum_cons,
      ← Int.sub_sub]
    exact List.mem_cons_of_mem _ (ih _)

/-- Each response of a page shows the cached balance less what is taken back above it. -/
theorem mem_page {resp : AccountTransactionResponse} {cache : BalanceCache} {txs : List Transaction}
    (shown : resp ∈ (List.zipWith responses txs (pageBalances cache txs)).flatten) :
    ∃ above tx below, txs = above ++ tx :: below ∧ resp.id = tx.id ∧
      tx.Names resp.accountId ∧ resp.balanceAfter =
        cache.read resp.accountId - (above.map (chargedDelta resp.accountId)).sum := by
  induction txs generalizing cache with
  | nil => exact nomatch shown
  | cons tx txs ih =>
    rw [pageBalances, List.zipWith_cons_cons, List.flatten_cons] at shown
    rcases List.mem_append.mp shown with here | later
    · refine ⟨[], tx, txs, rfl, ?_⟩
      have sees : ∀ a b, (AccountTransactionResponse.fromTransaction tx a b).id = tx.id ∧
          (AccountTransactionResponse.fromTransaction tx a b).accountId = a ∧
          (AccountTransactionResponse.fromTransaction tx a b).balanceAfter = b := by
        intro a b
        unfold AccountTransactionResponse.fromTransaction
        split
        · exact ⟨rfl, rfl, rfl⟩
        · exact ⟨rfl, rfl, rfl⟩
        · split <;> exact ⟨rfl, rfl, rfl⟩
      cases kind : tx.transactionKind with
      | deposit | withdraw =>
        obtain rfl : resp = AccountTransactionResponse.forMutationResponse tx
            (cache.read tx.fromAccountId) := by simpa [responses, kind] using here
        simp [AccountTransactionResponse.forMutationResponse, kind, Transaction.Names,
          AccountTransactionResponse.build]
      | transfer =>
        simp only [responses, kind, if_true, Option.map_some, Option.toList_some, List.mem_cons,
          List.not_mem_nil, or_false] at here
        rcases here with rfl | rfl
        · obtain ⟨id, account, balance⟩ := sees tx.fromAccountId (cache.read tx.fromAccountId)
          simp [id, account, balance, Transaction.Names]
        · obtain ⟨id, account, balance⟩ := sees tx.toAccountId (cache.read tx.toAccountId)
          simp [id, account, balance, Transaction.Names]
    · obtain ⟨above, tx', below, rfl, id, names, balance⟩ := ih later
      refine ⟨tx :: above, tx', below, rfl, id, names, ?_⟩
      rw [balance, read_takeBack, List.map_cons, List.sum_cons, Int.sub_sub]

/-- A fetched balance is the answer for the account and one of its currencies. -/
theorem fetchBalances_read {balance : Uuid → String → Int} {order : List (Uuid × String)}
    {cache : BalanceCache} {a : Uuid} {value : Int}
    (answers : ∀ c, (a, c) ∈ order → balance a c = value)
    (cached : (∀ v, cache a = some v → v = value) ∧ ((cache a).isSome ∨ ∃ c, (a, c) ∈ order)) :
    fetchBalances balance order cache a = some value := by
  induction order generalizing cache with
  | nil =>
    rw [fetchBalances]
    obtain ⟨agrees, there⟩ := cached
    rcases there with there | ⟨c, none_⟩
    · obtain ⟨v, hv⟩ := Option.isSome_iff_exists.mp there
      rw [hv, agrees v hv]
    · exact absurd none_ List.not_mem_nil
  | cons entry order ih =>
    obtain ⟨b, c⟩ := entry
    obtain ⟨agrees, there⟩ := cached
    have rest : ∀ c, (a, c) ∈ order → balance a c = value :=
      fun c hc => answers c (List.mem_cons_of_mem _ hc)
    rw [fetchBalances]
    by_cases known : (cache b).isSome
    · rw [if_pos known]
      refine ih rest ⟨agrees, ?_⟩
      rcases there with there | ⟨c', found⟩
      · exact .inl there
      · rcases List.mem_cons.mp found with same | later
        · obtain ⟨rfl, rfl⟩ := Prod.mk.inj same
          exact .inl known
        · exact .inr ⟨c', later⟩
    · rw [if_neg known]
      refine ih rest ?_
      by_cases same : a = b
      · subst same
        have answered := answers c List.mem_cons_self
        simp [BalanceCache.insert, answered]
      · simp only [BalanceCache.insert, if_neg same]
        refine ⟨agrees, ?_⟩
        rcases there with there | ⟨c', found⟩
        · exact .inl there
        · rcases List.mem_cons.mp found with here | later
          · exact absurd (Prod.mk.inj here).1 same
          · exact .inr ⟨c', later⟩

end Handlers

/-! Sums over ordered rows -/

theorem sum_filter_map (p : Transaction → Prop) [DecidablePred p] (f : Transaction → Int)
    (rows : List Transaction) : ((rows.filter (fun r => p r)).map f).sum =
      (rows.map (fun r => if p r then f r else 0)).sum := by
  induction rows with
  | nil => rfl
  | cons r rows ih =>
    by_cases holds : p r
    · simp [holds, ih]
    · simp [holds, ih]

/-- The order of the rows, and the columns that are not selected, do not matter to a sum. -/
theorem sum_ordered (before : Transaction → Transaction → Prop) [DecidableRel before]
    (p : Transaction → Prop) [DecidablePred p] {f : Transaction → Int}
    (keeps : ∀ r : Transaction, f r.withoutRetryColumns = f r) (rows : List Transaction) :
    (((((rows.filter (fun r => p r)).map Transaction.withoutRetryColumns).insertionSort before).map
      f).sum) = (rows.map (fun r => if p r then f r else 0)).sum := by
  rw [((List.perm_insertionSort before _).map f).sum_eq, List.map_map, ← sum_filter_map]
  exact congrArg List.sum (List.map_congr_left fun r _ => keeps r)

/-- In a strictly ordered list, what is not newer than a row is the row and those below it. -/
theorem sum_not_newer {above below : List Transaction} {tx : Transaction}
    (ordered : (above ++ tx :: below).Pairwise (fun a b => b.createdAt < a.createdAt))
    (f : Transaction → Int) :
    ((above ++ tx :: below).map (fun r => if r.createdAt ≤ tx.createdAt then f r else 0)).sum =
      ((tx :: below).map f).sum := by
  obtain ⟨-, rest, apart⟩ := List.pairwise_append.mp ordered
  have newer : above.map (fun r => if r.createdAt ≤ tx.createdAt then f r else 0) =
      above.map (fun _ => 0) := by
    refine List.map_congr_left fun r hr => if_neg ?_
    have := apart r hr tx List.mem_cons_self
    omega
  have older : (tx :: below).map (fun r => if r.createdAt ≤ tx.createdAt then f r else 0) =
      (tx :: below).map f := by
    refine List.map_congr_left fun r hr => if_pos ?_
    rcases List.mem_cons.mp hr with rfl | later
    · exact Nat.le_refl _
    · exact Nat.le_of_lt ((List.pairwise_cons.mp rest).1 r later)
  rw [List.map_append, newer, older, List.sum_append]
  simp

/-- What is newer than a row are the rows above it. -/
theorem sum_newer {above below : List Transaction} {tx : Transaction}
    (ordered : (above ++ tx :: below).Pairwise (fun a b => b.createdAt < a.createdAt))
    (p : Transaction → Prop) [DecidablePred p] (f : Transaction → Int) :
    (((above ++ tx :: below).filter (fun r => tx.createdAt < r.createdAt ∧ p r)).map f).sum =
      (above.map (fun r => if p r then f r else 0)).sum := by
  obtain ⟨-, rest, apart⟩ := List.pairwise_append.mp ordered
  have newer : above.map (fun r => if tx.createdAt < r.createdAt ∧ p r then f r else 0) =
      above.map (fun r => if p r then f r else 0) := by
    refine List.map_congr_left fun r hr => ?_
    simp [apart r hr tx List.mem_cons_self]
  have older : (tx :: below).map (fun r => if tx.createdAt < r.createdAt ∧ p r then f r else 0) =
      (tx :: below).map (fun _ => 0) := by
    refine List.map_congr_left fun r hr => if_neg ?_
    rcases List.mem_cons.mp hr with rfl | later
    · omega
    · have := (List.pairwise_cons.mp rest).1 r later
      omega
  rw [sum_filter_map, List.map_append, newer, older, List.sum_append]
  simp

namespace TransactionRepository

instance : Std.Total NewerFirst := ⟨fun a b => Nat.le_total b.createdAt a.createdAt⟩

instance : IsTrans Transaction NewerFirst := ⟨fun _ _ _ first second => Nat.le_trans second first⟩

instance : Std.Total NewerThenIdFirst where
  total a b := by
    unfold NewerThenIdFirst
    omega

instance : IsTrans Transaction NewerThenIdFirst where
  trans a b c := by
    unfold NewerThenIdFirst
    omega

end TransactionRepository

/-- Selected rows with distinct times come strictly newest first. -/
theorem ordered_strictly {before : Transaction → Transaction → Prop} [DecidableRel before]
    [Std.Total before] [IsTrans Transaction before]
    (time : ∀ a b, before a b → b.createdAt ≤ a.createdAt) {rows : List Transaction}
    (ids : Table.Unique Transaction.id rows) (p : Transaction → Prop) [DecidablePred p]
    (distinct : ∀ r ∈ rows, ∀ r' ∈ rows, p r → p r' → r.createdAt = r'.createdAt → r = r') :
    (((rows.filter (fun r => p r)).map Transaction.withoutRetryColumns).insertionSort
      before).Pairwise (fun a b => b.createdAt < a.createdAt) := by
  have sorted := List.pairwise_insertionSort before
    ((rows.filter (fun r => p r)).map Transaction.withoutRetryColumns)
  have times : ((rows.filter (fun r => p r)).map Transaction.createdAt).Nodup := by
    refine List.Nodup.map_on ?_ (ids.of_map.filter _)
    intro r hr r' hr' same
    obtain ⟨mem, holds⟩ := List.mem_filter.mp hr
    obtain ⟨mem', holds'⟩ := List.mem_filter.mp hr'
    exact distinct r mem r' mem' (of_decide_eq_true holds) (of_decide_eq_true holds') same
  have apart : (((rows.filter (fun r => p r)).map Transaction.withoutRetryColumns).insertionSort
      before).Pairwise (fun a b => a.createdAt ≠ b.createdAt) := by
    rw [← List.pairwise_map (f := Transaction.createdAt) (R := fun a b : Nat => a ≠ b)]
    refine ((List.perm_insertionSort before _).map Transaction.createdAt).nodup_iff.mpr ?_
    rw [List.map_map]
    exact times
  refine (sorted.and apart).imp ?_
  rintro a b ⟨newer, differ⟩
  exact Nat.lt_of_le_of_ne (time a b newer) (Ne.symm differ)

theorem ofAccount_strict {ledger : BalanceQuery} {organizationId : Uuid} {environment : Environment}
    {rows : List Transaction} (history : OrganisationHistory ledger organizationId environment rows)
    {a : Uuid} {tx : Transaction} (stored : tx ∈ rows) (owner : tx.organizationId = organizationId)
    (environment_ : tx.environment = some environment) (names : tx.Names a) :
    (ofAccount a environment rows).Pairwise (fun a b => b.createdAt < a.createdAt) := by
  refine ordered_strictly (fun _ _ newer => newer) history.ids _ ?_
  rintro r hr r' hr' ⟨about, here⟩ ⟨about', here'⟩
  refine history.distinct r hr r' hr' ?_ ?_
  · exact (history.oneOrganization r hr tx stored a about names (here.trans environment_.symm)).trans
      owner
  · exact (history.oneOrganization r' hr' tx stored a about' names
      (here'.trans environment_.symm)).trans owner

theorem ofOrganization_strict {ledger : BalanceQuery} {organizationId : Uuid}
    {environment : Environment} {rows : List Transaction}
    (history : OrganisationHistory ledger organizationId environment rows) :
    (ofOrganization organizationId environment rows).Pairwise
      (fun a b => b.createdAt < a.createdAt) := by
  refine ordered_strictly ?_ history.ids _ ?_
  · intro a b newer
    unfold NewerThenIdFirst at newer
    omega
  · rintro r hr r' hr' ⟨owner, -⟩ ⟨owner', -⟩
    exact history.distinct r hr r' hr' owner owner'

theorem mem_selected {before : Transaction → Transaction → Prop} [DecidableRel before]
    {p : Transaction → Prop} [DecidablePred p] {rows : List Transaction} {tx : Transaction}
    (listed : tx ∈ ((rows.filter (fun r => p r)).map Transaction.withoutRetryColumns).insertionSort
      before) : ∃ r ∈ rows, p r ∧ tx = r.withoutRetryColumns := by
  rw [List.mem_insertionSort] at listed
  obtain ⟨r, hr, rfl⟩ := List.mem_map.mp listed
  obtain ⟨mem, holds⟩ := List.mem_filter.mp hr
  exact ⟨r, mem, of_decide_eq_true holds, rfl⟩

/-- Below a row of its list, an account has its deltas up to the row. -/
theorem sum_account {ledger : BalanceQuery} {organizationId : Uuid} {environment : Environment}
    {rows : List Transaction} (history : OrganisationHistory ledger organizationId environment rows)
    {a : Uuid} {tx : Transaction} (stored : tx ∈ rows) (owner : tx.organizationId = organizationId)
    (environment_ : tx.environment = some environment) (names : tx.Names a)
    {above below : List Transaction}
    (listed : ofAccount a environment rows = above ++ tx.withoutRetryColumns :: below) :
    (above.map (fun r => balanceDeltaForAccount r a)).sum + balanceUpTo rows environment a tx =
      postedDeltas rows environment a := by
  have ordered := ofAccount_strict history stored owner environment_ names
  rw [listed] at ordered
  have upTo : balanceUpTo rows environment a tx =
      ((tx.withoutRetryColumns :: below).map (fun r => balanceDeltaForAccount r a)).sum := by
    rw [← sum_not_newer ordered, ← listed, ofAccount, sum_ordered, balanceUpTo, sum_filter_map]
    · refine congrArg List.sum (List.map_congr_left fun r _ => ?_)
      by_cases about : r.Names a ∧ r.environment = some environment
      · by_cases newer : r.createdAt ≤ tx.createdAt <;>
          simp [Transaction.CountsFor, about, Transaction.withoutRetryColumns, newer]
      · rw [if_neg about, if_neg fun counts => about ⟨counts.1, counts.2.1⟩]
    · intro r
      rfl
  have total : postedDeltas rows environment a =
      ((ofAccount a environment rows).map (fun r => balanceDeltaForAccount r a)).sum := by
    rw [ofAccount, sum_ordered, postedDeltas, sum_filter_map]
    intro r
    rfl
  rw [upTo, total, listed, List.map_append, List.sum_append]

/-- Below a row of the organization's list, an account has its deltas up to the row. -/
theorem sum_organization {ledger : BalanceQuery} {organizationId : Uuid} {environment : Environment}
    {rows : List Transaction} (history : OrganisationHistory ledger organizationId environment rows)
    {a : Uuid} {tx : Transaction} (stored : tx ∈ rows) (owner : tx.organizationId = organizationId)
    (environment_ : tx.environment = some environment) (names : tx.Names a)
    {above below : List Transaction} (listed : ofOrganization organizationId environment rows =
      above ++ tx.withoutRetryColumns :: below) :
    (above.map (involvedDelta a)).sum + balanceUpTo rows environment a tx =
      postedDeltas rows environment a := by
  have ordered := ofOrganization_strict history
  rw [listed] at ordered
  have owned : ∀ r ∈ rows, r.Names a → r.environment = some environment →
      r.organizationId = organizationId := by
    intro r hr about here
    exact (history.oneOrganization r hr tx stored a about names (here.trans environment_.symm)).trans
      owner
  have upTo : balanceUpTo rows environment a tx =
      ((tx.withoutRetryColumns :: below).map (involvedDelta a)).sum := by
    rw [← sum_not_newer ordered, ← listed, ofOrganization, sum_ordered, balanceUpTo, sum_filter_map]
    · refine congrArg List.sum (List.map_congr_left fun r hr => ?_)
      by_cases about : r.Names a ∧ r.environment = some environment
      · have here := owned r hr about.1 about.2
        simp [Transaction.CountsFor, about, here, involvedDelta, Transaction.withoutRetryColumns]
      · rw [if_neg fun counts => about ⟨counts.1, counts.2.1⟩]
        split_ifs with mine newer
        · exact (if_neg fun named => about ⟨named, mine.2⟩).symm
        · rfl
        · rfl
    · intro r
      rfl
  have total : postedDeltas rows environment a =
      ((ofOrganization organizationId environment rows).map (involvedDelta a)).sum := by
    rw [ofOrganization, sum_ordered, postedDeltas, sum_filter_map]
    · refine congrArg List.sum (List.map_congr_left fun r hr => ?_)
      by_cases about : r.Names a ∧ r.environment = some environment
      · have here := owned r hr about.1 about.2
        simp [about, here, involvedDelta]
      · rw [if_neg about]
        split_ifs with mine
        · exact (if_neg fun named => about ⟨named, mine.2⟩).symm
        · rfl
    · intro r
      rfl
  rw [upTo, total, listed, List.map_append, List.sum_append]

/-- The rows of earlier pages add to the account what posted transfers to itself above the
row add: nothing, where there are none of either. -/
def NothingSkipped (rows : List Transaction) (organizationId : Uuid) (environment : Environment)
    (page perPage : UInt32) (accountId : Uuid) (tx : Transaction) : Prop :=
  let ordered := ofOrganization organizationId environment rows
  ((ordered.take (pageOffset page perPage)).map (involvedDelta accountId)).sum =
    (((ordered.drop (pageOffset page perPage)).filter (fun r => tx.createdAt < r.createdAt ∧
      r.SelfTransfer accountId)).map (fun r => balanceDeltaForAccount r accountId)).sum

namespace Handlers

variable {ledger : BalanceQuery} {organizationId : Uuid} {environment : Environment}
  {rows : List Transaction} {accounts : List Account}

theorem fromTransaction_fields (tx : Transaction) (a : Uuid) (b : Int) :
    (AccountTransactionResponse.fromTransaction tx a b).id = tx.id ∧
      (AccountTransactionResponse.fromTransaction tx a b).balanceAfter = b := by
  unfold AccountTransactionResponse.fromTransaction
  split
  · exact ⟨rfl, rfl⟩
  · exact ⟨rfl, rfl⟩
  · split <;> exact ⟨rfl, rfl⟩

/-- The current balance of an account that some row is about. -/
theorem currentBalance_eq (history : OrganisationHistory ledger organizationId environment rows)
    {a : Uuid} {tx r : Transaction} (stored : tx ∈ rows) (owner : tx.organizationId = organizationId)
    (environment_ : tx.environment = some environment) (names : tx.Names a)
    (listed : r ∈ ofAccount a environment rows) :
    negateLedgerBalanceForDisplay (ledger r.organizationId environment a r.currency) =
      postedDeltas rows environment a := by
  obtain ⟨r, hr, ⟨about, here⟩, rfl⟩ := mem_selected listed
  have owned : r.organizationId = organizationId :=
    (history.oneOrganization r hr tx stored a about names (here.trans environment_.symm)).trans owner
  have answer := history.balances r hr owned here a about
  simp only [Transaction.withoutRetryColumns, owned, answer, negateLedgerBalanceForDisplay,
    Int.neg_neg]

/-- The list of an account shows the deltas up to each row. -/
theorem account_balanceAfter (history : OrganisationHistory ledger organizationId environment rows)
    {a : Uuid} {limit : Option Int} {data : List AccountTransactionResponse}
    (listed : listAccountTransactions accounts ledger rows environment a limit = .ok data)
    {tx : Transaction} (stored : tx ∈ rows) (owner : tx.organizationId = organizationId)
    (environment_ : tx.environment = some environment) (names : tx.Names a)
    {resp : AccountTransactionResponse} (shown : resp ∈ data) (same : resp.id = tx.id) :
    resp.balanceAfter = balanceUpTo rows environment a tx := by
  cases there : AccountRepository.findById accounts a environment with
  | error e => simp [listAccountTransactions, there, bind, Except.bind] at listed
  | ok account =>
    by_cases negative : limit.getD 100 < 0
    · simp [listAccountTransactions, there, bind, Except.bind, findByAccountId, negative] at listed
    simp only [listAccountTransactions, there, bind, Except.bind, findByAccountId, negative, if_false,
      Except.ok.injEq] at listed
    subst listed
    obtain ⟨above, tx', below, prefix_, rfl⟩ := mem_running shown
    obtain ⟨id, balance⟩ := fromTransaction_fields tx' a _
    have whole : ofAccount a environment rows = above ++ tx' :: (below ++
        (ofAccount a environment rows).drop (limit.getD 100).toNat) := by
      conv_lhs => rw [← List.take_append_drop (limit.getD 100).toNat (ofAccount a environment rows)]
      rw [prefix_, List.append_assoc, List.cons_append]
    have mem : tx' ∈ ofAccount a environment rows := by
      rw [whole]
      simp
    obtain ⟨r, hr, -, rfl⟩ := mem_selected mem
    obtain rfl : r = tx := history.ids.eq hr stored (id.symm.trans same)
    have sums := sum_account history stored owner environment_ names whole
    rw [balance]
    cases first : ((ofAccount a environment rows).take (limit.getD 100).toNat).head? with
    | none =>
      rw [List.head?_eq_none_iff, prefix_] at first
      exact absurd first (by simp)
    | some newest =>
      have newest_mem := List.mem_of_mem_take (List.mem_of_head? first)
      have current := currentBalance_eq history stored owner environment_ names newest_mem
      simp only [current]
      omega

/-- With a limit that does not cut, the list of an account shows each of its rows. -/
theorem account_shows {a : Uuid} {account : Account}
    (there : AccountRepository.findById accounts a environment = .ok account)
    {tx : Transaction} (stored : tx ∈ rows) (environment_ : tx.environment = some environment)
    (names : tx.Names a) : ∃ data, listAccountTransactions accounts ledger rows environment a
      (some rows.length) = .ok data ∧ ∃ resp ∈ data, resp.id = tx.id := by
  have bound : (ofAccount a environment rows).length ≤ rows.length := by
    rw [ofAccount, List.length_insertionSort, List.length_map]
    exact List.length_filter_le _ _
  have all : (ofAccount a environment rows).take rows.length = ofAccount a environment rows :=
    List.take_of_length_le bound
  have mem : tx.withoutRetryColumns ∈ ofAccount a environment rows := by
    rw [ofAccount, List.mem_insertionSort]
    refine List.mem_map_of_mem (List.mem_filter.mpr ⟨stored, ?_⟩)
    simp [names, environment_]
  obtain ⟨above, below, split⟩ := List.append_of_mem mem
  have limit : ¬ ((rows.length : Int) < 0) := by omega
  simp only [listAccountTransactions, there, bind, Except.bind, findByAccountId, Option.getD_some,
    limit, if_false, Int.toNat_natCast, all]
  rw [split]
  exact ⟨_, rfl, _, running_mem _ above _ below, (fromTransaction_fields _ _ _).1⟩

/-- The accounts of a row of the page are among those whose balances are fetched. -/
theorem names_unique {txs : List Transaction} {tx : Transaction} {a : Uuid} (listed : tx ∈ txs)
    (oneAccount : tx.transactionKind ≠ .transfer → tx.fromAccountId = tx.toAccountId)
    (names : tx.Names a) : (a, tx.currency) ∈ uniqueAccounts txs := by
  rw [uniqueAccounts, List.mem_dedup, List.mem_flatMap]
  refine ⟨tx, listed, ?_⟩
  rcases names with rfl | rfl
  · exact List.mem_cons_self
  · by_cases transfer : tx.transactionKind = .transfer
    · simp [transfer]
    · rw [oneAccount transfer]
      exact List.mem_cons_self

theorem unique_names {txs : List Transaction} {a : Uuid} {currency : String}
    (fetched : (a, currency) ∈ uniqueAccounts txs) :
    ∃ tx ∈ txs, tx.Names a ∧ tx.currency = currency := by
  rw [uniqueAccounts, List.mem_dedup, List.mem_flatMap] at fetched
  obtain ⟨tx, listed, pair⟩ := fetched
  refine ⟨tx, listed, ?_⟩
  rcases List.mem_cons.mp pair with here | other
  · obtain ⟨rfl, rfl⟩ := Prod.mk.inj here
    exact ⟨.inl rfl, rfl⟩
  · split at other
    · obtain ⟨rfl, rfl⟩ := Prod.mk.inj (List.mem_singleton.mp other)
      exact ⟨.inr rfl, rfl⟩
    · exact nomatch other

/-- A page shows a row of the organization for an account of the row, and the balance
is the account's deltas up to the row if and only if nothing is skipped. -/
theorem page_balanceAfter (history : OrganisationHistory ledger organizationId environment rows)
    {iteration : List (Uuid × String) → List (Uuid × String)} (anyOrder : ∀ l, (iteration l).Perm l)
    {page perPage : UInt32} (first : 1 ≤ page) (size : 1 ≤ perPage ∧ perPage ≤ 100)
    {data : List AccountTransactionResponse} {pagination : PaginationMeta}
    (listed : listTransactions ledger rows environment iteration (some organizationId) (some page)
      (some perPage) = .ok (data, pagination))
    {resp : AccountTransactionResponse} (shown : resp ∈ data) :
    ∃ tx ∈ rows, tx.id = resp.id ∧ tx.organizationId = organizationId ∧
      tx.environment = some environment ∧ tx.Names resp.accountId ∧
      (resp.balanceAfter = balanceUpTo rows environment resp.accountId tx ↔
        NothingSkipped rows organizationId environment page perPage resp.accountId tx) := by
  have clamped : max page 1 = page ∧ min (max perPage 1) 100 = perPage := by
    have floor : ∀ n : UInt32, 1 ≤ n → max n 1 = n := by
      intro n low
      change (if n ≤ 1 then 1 else n) = n
      split
      · exact UInt32.le_antisymm low ‹_›
      · rfl
    have ceiling : min perPage 100 = perPage := if_pos size.2
    exact ⟨floor page first, (floor perPage size.1).symm ▸ ceiling⟩
  simp only [listTransactions, Option.getD_some, clamped.1, clamped.2, Except.ok.injEq,
    Prod.mk.injEq] at listed
  obtain ⟨rfl, -⟩ := listed
  obtain ⟨above, tx', below, page_, id, names, balance⟩ := mem_page shown
  generalize resp.accountId = a at names balance ⊢
  simp only [findByOrganizationIdPaginated] at page_ balance
  generalize offset : pageOffset page perPage = start at page_ balance
  generalize ordered : ofOrganization organizationId environment rows = all at page_ balance
  have strict := ofOrganization_strict history
  rw [ordered] at strict
  have dropped : all.drop start = above ++ tx' :: (below ++ (all.drop start).drop perPage.toNat) := by
    conv_lhs => rw [← List.take_append_drop perPage.toNat (all.drop start), page_]
    rw [List.append_assoc, List.cons_append]
  have whole : all = (all.take start ++ above) ++
      tx' :: (below ++ (all.drop start).drop perPage.toNat) := by
    conv_lhs => rw [← List.take_append_drop start all, dropped]
    rw [List.append_assoc]
  have row : ∀ r ∈ all, ∃ r' ∈ rows, (r'.organizationId = organizationId ∧
      r'.environment = some environment) ∧ r = r'.withoutRetryColumns :=
    fun r hr => mem_selected (ordered ▸ hr)
  have one : ∀ r ∈ all, r.transactionKind ≠ .transfer → r.fromAccountId = r.toAccountId := by
    intro r hr
    obtain ⟨r', stored, -, rfl⟩ := row r hr
    exact history.oneAccount r' stored
  have onPage : ∀ r ∈ above ++ tx' :: below, r ∈ all :=
    fun r hr => List.mem_of_mem_drop (List.mem_of_mem_take (page_ ▸ hr))
  have here : tx' ∈ above ++ tx' :: below := by simp
  -- the cache starts with the current balance of the account
  have current : (fetchBalances (fun accountId currency => negateLedgerBalanceForDisplay
      (ledger organizationId environment accountId currency))
      (iteration (uniqueAccounts ((all.drop start).take perPage.toNat))) .empty) a =
      some (postedDeltas rows environment a) := by
    rw [page_]
    apply fetchBalances_read
    · intro c fetched
      obtain ⟨r, listed, about, rfl⟩ := unique_names ((anyOrder _).mem_iff.mp fetched)
      obtain ⟨r', stored, ⟨owner, environment_⟩, rfl⟩ := row r (onPage r listed)
      have answer := history.balances r' stored owner environment_ a about
      exact (congrArg negateLedgerBalanceForDisplay answer).trans (Int.neg_neg _)
    · refine ⟨fun v missing => (nomatch missing), .inr ⟨tx'.currency, ?_⟩⟩
      exact (anyOrder _).mem_iff.mpr (names_unique here (one tx' (onPage tx' here)) names)
  rw [BalanceCache.read, current, Option.getD_some] at balance
  obtain ⟨tx, stored, ⟨owner, environment_⟩, rfl⟩ := row tx' (onPage tx' here)
  refine ⟨tx, stored, id.symm, owner, environment_, names, ?_⟩
  have sums := sum_organization history stored owner environment_ names (ordered.trans whole)
  have charged : (above.map (chargedDelta a)).sum = (above.map (involvedDelta a)).sum +
      (above.map (fun r => if r.SelfTransfer a then balanceDeltaForAccount r a else 0)).sum := by
    rw [← List.sum_map_add]
    refine congrArg List.sum (List.map_congr_left fun r hr => ?_)
    exact chargedDelta_eq (one r (onPage r (List.mem_append_left _ hr))) a
  have self : (((all.drop start).filter (fun r => tx.createdAt < r.createdAt ∧
      r.SelfTransfer a)).map (fun r => balanceDeltaForAccount r a)).sum =
      (above.map (fun r => if r.SelfTransfer a then balanceDeltaForAccount r a else 0)).sum := by
    have suffix := strict.drop (i := start)
    rw [dropped] at suffix ⊢
    exact sum_newer suffix (fun r => r.SelfTransfer a) (fun r => balanceDeltaForAccount r a)
  rw [NothingSkipped, offset, ordered]
  simp only [self]
  rw [List.map_append, List.sum_append] at sums
  omega

/-- What the list of the account shows for a row of a page is the account's deltas up
to the row, and the page shows the same if and only if nothing is skipped. By
`CheckedBalances.listTransactions_checked` this is what the source shows on every page
that it computes without leaving 64 bits. -/
theorem balance_after_iff (history : OrganisationHistory ledger organizationId environment rows)
    {iteration : List (Uuid × String) → List (Uuid × String)} (anyOrder : ∀ l, (iteration l).Perm l)
    {page perPage : UInt32} (first : 1 ≤ page) (size : 1 ≤ perPage ∧ perPage ≤ 100)
    {data : List AccountTransactionResponse} {pagination : PaginationMeta}
    (listed : listTransactions ledger rows environment iteration (some organizationId) (some page)
      (some perPage) = .ok (data, pagination))
    {resp : AccountTransactionResponse} (shown : resp ∈ data) :
    ∃ tx ∈ rows, tx.id = resp.id ∧ tx.Names resp.accountId ∧
      (∀ accounts limit data',
        listAccountTransactions accounts ledger rows environment resp.accountId limit = .ok data' →
        ∀ resp' ∈ data', resp'.id = resp.id →
          resp'.balanceAfter = balanceUpTo rows environment resp.accountId tx) ∧
      (∀ accounts account,
        AccountRepository.findById accounts resp.accountId environment = .ok account →
        ∃ data', listAccountTransactions accounts ledger rows environment resp.accountId
          (some rows.length) = .ok data' ∧ ∃ resp' ∈ data', resp'.id = resp.id) ∧
      (resp.balanceAfter = balanceUpTo rows environment resp.accountId tx ↔
        NothingSkipped rows organizationId environment page perPage resp.accountId tx) := by
  obtain ⟨tx, stored, id, owner, environment_, names, page_⟩ :=
    page_balanceAfter history anyOrder first size listed shown
  refine ⟨tx, stored, id, names, ?_, ?_, page_⟩
  · intro accounts limit data' listed' resp' shown' same
    exact account_balanceAfter history listed' stored owner environment_ names shown'
      (same.trans id.symm)
  · intro accounts account there
    rw [← id]
    exact account_shows there stored environment_ names

/-- A posted deposit to the account. -/
def postedDeposit (id : Uuid) (amount : Int) (createdAt : Nat) : Transaction :=
  { newRow createdAt id ⟨1⟩ ⟨7⟩ ⟨7⟩ amount "USD" .deposit "key" .sandbox with status := .posted }

def twoDeposits : List Transaction := [postedDeposit ⟨101⟩ 50 1, postedDeposit ⟨102⟩ 30 2]

theorem twoDeposits_history :
    OrganisationHistory (fun _ _ _ _ => .ok (-80)) ⟨1⟩ .sandbox twoDeposits := by
  have cases_ : ∀ r ∈ twoDeposits, r = postedDeposit ⟨101⟩ 50 1 ∨ r = postedDeposit ⟨102⟩ 30 2 := by
    simp [twoDeposits]
  refine ⟨?_, ?_, ?_, ?_, ?_⟩
  · change (twoDeposits.map Transaction.id).Nodup
    decide
  · decide
  · decide
  · intro r hr r' hr' a _ _ _
    rcases cases_ r hr with rfl | rfl <;> rcases cases_ r' hr' with rfl | rfl <;> rfl
  · intro r hr _ _ a about
    obtain rfl : a = ⟨7⟩ := by
      rcases cases_ r hr with rfl | rfl <;> rcases about with rfl | rfl <;> rfl
    exact congrArg _ (by decide)

/-- The first page shows both, and nothing is skipped. -/
theorem balance_after_iff_first : ∃ data pagination resp,
    listTransactions (fun _ _ _ _ => .ok (-80)) twoDeposits .sandbox id (some ⟨1⟩) (some 1)
      (some 10) = .ok (data, pagination) ∧ resp ∈ data ∧
    ∃ tx ∈ twoDeposits, tx.id = resp.id ∧ tx.Names resp.accountId ∧
      (resp.balanceAfter = balanceUpTo twoDeposits .sandbox resp.accountId tx ↔
        NothingSkipped twoDeposits ⟨1⟩ .sandbox 1 10 resp.accountId tx) := by
  have evaluated : (match listTransactions (fun _ _ _ _ => .ok (-80)) twoDeposits .sandbox id
      (some ⟨1⟩) (some 1) (some 10) with
    | .ok (data, _) => data.head?.isSome
    | .error _ => false) = true := by decide +kernel
  cases listed : listTransactions (fun _ _ _ _ => .ok (-80)) twoDeposits .sandbox id (some ⟨1⟩)
      (some 1) (some 10) with
  | error e =>
    rw [listed] at evaluated
    exact nomatch evaluated
  | ok page =>
    obtain ⟨data, pagination⟩ := page
    rw [listed] at evaluated
    obtain ⟨resp, head⟩ := Option.isSome_iff_exists.mp evaluated
    have shown := List.mem_of_head? head
    obtain ⟨tx, stored, same, names, -, -, exact_⟩ := balance_after_iff twoDeposits_history
      (fun l => List.Perm.refl l) (by decide) (by decide) listed shown
    exact ⟨data, pagination, resp, rfl, shown, tx, stored, same, names, exact_⟩

/-- The second page of size one shows 80 after the first deposit, of 50. -/
theorem page_two_starts_over : ¬ ∀ (ledger : BalanceQuery) (organizationId : Uuid)
    (environment : Environment) (rows : List Transaction)
    (iteration : List (Uuid × String) → List (Uuid × String)) (page perPage : UInt32)
    (data : List AccountTransactionResponse) (pagination : PaginationMeta),
    OrganisationHistory ledger organizationId environment rows → (∀ l, (iteration l).Perm l) →
    1 ≤ page → 1 ≤ perPage ∧ perPage ≤ 100 →
    listTransactions ledger rows environment iteration (some organizationId) (some page)
      (some perPage) = .ok (data, pagination) →
    ∀ resp ∈ data, ∀ tx ∈ rows, tx.id = resp.id →
      resp.balanceAfter = balanceUpTo rows environment resp.accountId tx := by
  intro claim
  have evaluated : (match listTransactions (fun _ _ _ _ => .ok (-80)) twoDeposits .sandbox id
      (some ⟨1⟩) (some 2) (some 1) with
    | .ok (data, _) => data.any (fun resp => resp.id = ⟨101⟩ && resp.accountId = ⟨7⟩ &&
      resp.balanceAfter = 80)
    | .error _ => false) = true := by decide +kernel
  cases listed : listTransactions (fun _ _ _ _ => .ok (-80)) twoDeposits .sandbox id (some ⟨1⟩)
      (some 2) (some 1) with
  | error e =>
    rw [listed] at evaluated
    exact nomatch evaluated
  | ok page =>
    obtain ⟨data, pagination⟩ := page
    rw [listed] at evaluated
    obtain ⟨resp, shown, fields⟩ := List.any_eq_true.mp evaluated
    simp only [Bool.and_eq_true, decide_eq_true_eq] at fields
    obtain ⟨⟨same, account⟩, balance⟩ := fields
    have upTo := claim _ ⟨1⟩ .sandbox twoDeposits id 2 1 data pagination twoDeposits_history
      (fun l => List.Perm.refl l) (by decide) (by decide) listed resp shown
      (postedDeposit ⟨101⟩ 50 1) (by simp [twoDeposits]) same.symm
    rw [balance, account] at upTo
    exact absurd upTo (by decide)

end Handlers

end RailsCore
