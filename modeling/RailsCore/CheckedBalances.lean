import RailsCore.BalanceAfter
import RailsCore.GuardedLoops
import RailsCore.Numerals
import RailsCore.UsersService

/-!
# Balances in 64 bits

The arithmetic of the balances that are shown, as the services do it, with
signed numbers of 64 bits: the negation of the ledger's balance, which the checks
for an overdraft do too, and the walks back over the rows of a list. An operation
whose result does not fit has none. Elsewhere the results are those of the
unbounded numbers.
-/

namespace RailsCore.CheckedBalances
open Numerals GuardedLoop
open UsersService (trim)

def Fits (n : Int) : Prop := Int64.minValue.toInt ≤ n ∧ n ≤ Int64.maxValue.toInt

instance (n : Int) : Decidable (Fits n) := inferInstanceAs (Decidable (_ ∧ _))

/-- The result of an operation, if it fits. -/
def checked (n : Int) : Option Int := if Fits n then some n else none

/-- The ledger's answer about a balance, as it arrives. -/
abbrev Answer := Except AppError String

/-- `negate_ledger_balance_for_display`, and 0 where the ledger does not answer. -/
def negateLedgerBalanceForDisplay (answer : Answer) : Option Int :=
  match answer with
  | .error _ => some 0
  | .ok balance =>
    let trimmed := trim balance
    if trimmed = "" then some 0
    else match parseI64 trimmed.toList with
      | some n => checked (-n.toInt)
      | none => some 0

/-- The check of `withdraw_with_idempotency` and `transfer_with_idempotency`. -/
def checkFunds (answer : Answer) (amount : Int) : Option (Except AppError Unit) :=
  match answer with
  | .error e => some (.error e)
  | .ok balance => match parseI64 (trim balance).toList with
    | none => some (.error (.internal "Failed to parse Ledger balance"))
    | some ledgerBalance => do
      let displayBalance ← checked (-ledgerBalance.toInt)
      return if displayBalance < amount then .error .insufficientFunds else .ok ()

def balanceDeltaForAccount (tx : Transaction) (accountId : Uuid) : Option Int :=
  if tx.status ≠ .posted then some 0
  else match tx.transactionKind with
    | .deposit => some tx.amount
    | .withdraw => checked (-tx.amount)
    | .transfer => if tx.fromAccountId = accountId then checked (-tx.amount) else some tx.amount

def subtractDelta (accountId : Uuid) (running : Int) (tx : Transaction) : Option Int := do
  checked (running - (← balanceDeltaForAccount tx accountId))

/-- The balances of `list_account_transactions`, with the ledger's answer about the account. -/
def listAccountTransactions (accountId : Uuid) (answer : Answer) (transactions : List Transaction) :
    Option (List Int) := do
  let currentBalance ← match transactions.head? with
    | some _ => negateLedgerBalanceForDisplay answer
    | none => some 0
  run (fun running _ => running) (subtractDelta accountId) currentBalance transactions

def fetchBalances (balance : Uuid → String → Option Int) :
    List (Uuid × String) → BalanceCache → Option BalanceCache
  | [], cache => some cache
  | (accountId, currency) :: rest, cache =>
    if (cache accountId).isSome then fetchBalances balance rest cache
    else do fetchBalances balance rest (cache.insert accountId (← balance accountId currency))

/-- The cache after one row has been taken back. -/
def takeBack (cache : BalanceCache) (tx : Transaction) : Option BalanceCache := do
  let fromBa := cache.read tx.fromAccountId
  let deltaFrom ← balanceDeltaForAccount tx tx.fromAccountId
  let cache := cache.insert tx.fromAccountId (← checked (fromBa - deltaFrom))
  if tx.transactionKind = .transfer then
    let toDelta ← balanceDeltaForAccount tx tx.toAccountId
    return cache.insert tx.toAccountId (← checked (cache.read tx.toAccountId - toDelta))
  else return cache

/-- What a page shows of the cache for a row. -/
def balancePair (cache : BalanceCache) (tx : Transaction) : Int × Option Int :=
  (cache.read tx.fromAccountId,
    if tx.transactionKind = .transfer then some (cache.read tx.toAccountId) else none)

/-- The balances of `list_transactions`, with the ledger's answers about the accounts. -/
def listTransactions (answers : Uuid → String → Answer) (uniqueAccounts : List (Uuid × String))
    (transactions : List Transaction) : Option (List (Int × Option Int)) := do
  let cache ← fetchBalances
    (fun accountId currency => negateLedgerBalanceForDisplay (answers accountId currency))
    uniqueAccounts .empty
  run balancePair takeBack cache transactions

/-! ## The unbounded numbers -/

/-- The balance in the ledger's answer, if there is one. -/
def ledgerBalance (answer : Answer) : Option Int64 :=
  match answer with
  | .error _ => none
  | .ok balance => parseI64 (trim balance).toList

def shownBalance (answer : Answer) : Int :=
  match ledgerBalance answer with
  | some n => -n.toInt
  | none => 0

/-- The balance that the walk over a page starts from: the accounts that are
queried with two currencies count with the first. -/
def startBalance (answers : Uuid → String → Answer) (uniqueAccounts : List (Uuid × String))
    (accountId : Uuid) : Int :=
  ((uniqueAccounts.find? fun q => q.1 = accountId).map fun q =>
    shownBalance (answers accountId q.2)).getD 0

theorem fits_iff {n : Int} :
    Fits n ↔ -9223372036854775808 ≤ n ∧ n ≤ 9223372036854775807 := Iff.rfl

theorem checked_of_fits {n : Int} (fits : Fits n) : checked n = some n := if_pos fits

theorem checked_eq_none {n : Int} : checked n = none ↔ ¬ Fits n := by simp [checked]

theorem fits_zero : Fits 0 := by decide

/-- Only the least balance has no negative. -/
theorem fits_neg {n : Int64} : Fits (-n.toInt) ↔ n ≠ Int64.minValue := by
  have range := fits_iff.mp ⟨n.minValue_le_toInt, n.toInt_le⟩
  have least : Int64.minValue.toInt = -9223372036854775808 := rfl
  rw [fits_iff, ← Int64.toInt_inj.ne, least]
  omega

theorem negateLedgerBalanceForDisplay_eq (answer : Answer) :
    negateLedgerBalanceForDisplay answer =
      if ledgerBalance answer = some Int64.minValue then none else some (shownBalance answer) := by
  cases answer with
  | error e => rfl
  | ok balance =>
    have blank : parseI64 "".toList = none := by decide
    simp only [negateLedgerBalanceForDisplay, shownBalance, ledgerBalance]
    rcases Option.eq_none_or_eq_some (parseI64 (trim balance).toList) with read | ⟨n, read⟩
    · simp only [read, ite_self, reduceCtorEq, if_false]
    · have some_ : trim balance ≠ "" := fun empty => by
        rw [empty, blank] at read
        exact absurd read nofun
      simp only [read, if_neg some_, Option.some.injEq]
      by_cases least : n = Int64.minValue
      · rw [if_pos least]
        exact checked_eq_none.mpr fun fits => fits_neg.mp fits least
      · rw [if_neg least]
        exact checked_of_fits (fits_neg.mpr least)

theorem shownBalance_fits {answer : Answer} (h : ledgerBalance answer ≠ some Int64.minValue) :
    Fits (shownBalance answer) := by
  rw [shownBalance]
  cases read : ledgerBalance answer with
  | none => exact fits_zero
  | some n => exact fits_neg.mpr fun least => h (least ▸ read)

/-- Rows that the services keep. -/
def ValidAmount (tx : Transaction) : Prop := 1 ≤ tx.amount ∧ tx.amount ≤ Int64.maxValue.toInt

instance (tx : Transaction) : Decidable (ValidAmount tx) := inferInstanceAs (Decidable (_ ∧ _))

theorem balanceDeltaForAccount_eq {tx : Transaction} (valid : ValidAmount tx) (accountId : Uuid) :
    balanceDeltaForAccount tx accountId = some (RailsCore.balanceDeltaForAccount tx accountId) := by
  have fits : Fits (-tx.amount) := by
    have range := fits_iff.mp ⟨Int.le_trans (by decide) valid.1, valid.2⟩
    have positive := valid.1
    rw [fits_iff]
    omega
  rw [balanceDeltaForAccount, RailsCore.balanceDeltaForAccount, checked_of_fits fits]
  by_cases unposted : tx.status ≠ .posted
  · rw [if_pos unposted, if_pos unposted]
  · rw [if_neg unposted, if_neg unposted]
    cases tx.transactionKind with
    | deposit => rfl
    | withdraw => rfl
    | transfer => exact (apply_ite some _ _ _).symm

/-! ## The list of an account -/

theorem account_guards (accountId : Uuid) : Guards Fits ValidAmount
    (fun running tx => running - RailsCore.balanceDeltaForAccount tx accountId)
    (subtractDelta accountId) where
  goes running tx _ valid fits := by
    rw [subtractDelta, balanceDeltaForAccount_eq valid, Option.bind_eq_bind, Option.bind_some]
    exact checked_of_fits fits
  fails running tx _ valid outside := by
    rw [subtractDelta, balanceDeltaForAccount_eq valid, Option.bind_eq_bind, Option.bind_some]
    exact checked_eq_none.mpr outside

theorem outputs_eq_runningBalances (accountId : Uuid) (running : Int) (txs : List Transaction) :
    outputs (fun running _ => running)
      (fun running tx => running - RailsCore.balanceDeltaForAccount tx accountId) running txs =
      Handlers.runningBalances accountId running txs := by
  induction txs generalizing running with
  | nil => rfl
  | cons tx txs ih => rw [outputs, Handlers.runningBalances, ih]

theorem foldl_running (accountId : Uuid) (running : Int) (txs : List Transaction) :
    txs.foldl (fun running tx => running - RailsCore.balanceDeltaForAccount tx accountId) running =
      running - (txs.map fun tx => RailsCore.balanceDeltaForAccount tx accountId).sum := by
  induction txs generalizing running with
  | nil => simp
  | cons tx txs ih => rw [List.foldl_cons, ih, List.map_cons, List.sum_cons, Int.sub_sub]

theorem stays_running {accountId : Uuid} {running : Int} {txs : List Transaction} :
    Stays Fits (fun running tx => running - RailsCore.balanceDeltaForAccount tx accountId) running
      txs ↔ ∀ p, p <+: txs →
        Fits (running - (p.map fun tx => RailsCore.balanceDeltaForAccount tx accountId).sum) := by
  simp only [Stays, foldl_running]

theorem listAccountTransactions_isSome {accountId : Uuid} {answer : Answer}
    {txs : List Transaction} (valid : ∀ tx ∈ txs, ValidAmount tx) :
    (listAccountTransactions accountId answer txs).isSome ↔
      (txs ≠ [] → ledgerBalance answer ≠ some Int64.minValue ∧ ∀ p, p <+: txs →
        Fits (shownBalance answer -
          (p.map fun tx => RailsCore.balanceDeltaForAccount tx accountId).sum)) := by
  cases txs with
  | nil => exact iff_of_true rfl fun some_ => absurd rfl some_
  | cons tx txs =>
    simp only [listAccountTransactions, List.head?_cons, negateLedgerBalanceForDisplay_eq,
      Option.bind_eq_bind, ne_eq, reduceCtorEq, not_false_eq_true, true_imp_iff]
    by_cases least : ledgerBalance answer = some Int64.minValue
    · simp [least]
    · rw [if_neg least, Option.bind_some,
        (account_guards accountId).run_isSome_iff _ valid (shownBalance_fits least), stays_running]
      exact (and_iff_right least).symm

/-- The result is that of the unbounded numbers. -/
theorem listAccountTransactions_eq {accountId : Uuid} {answer : Answer} {txs : List Transaction}
    (valid : ∀ tx ∈ txs, ValidAmount tx) {balances : List Int}
    (done : listAccountTransactions accountId answer txs = some balances) :
    balances = Handlers.runningBalances accountId (shownBalance answer) txs := by
  have ends := (listAccountTransactions_isSome valid).mp (Option.isSome_of_eq_some done)
  cases txs with
  | nil => exact (Option.some.inj done).symm
  | cons tx txs =>
    obtain ⟨some_, fits⟩ := ends (List.cons_ne_nil tx txs)
    simp only [listAccountTransactions, List.head?_cons, negateLedgerBalanceForDisplay_eq,
      Option.bind_eq_bind, if_neg some_, Option.bind_some] at done
    rw [(account_guards accountId).run_of_stays _ valid (stays_running.mpr fits),
      outputs_eq_runningBalances] at done
    exact (Option.some.inj done).symm

/-! ## A page of an organization -/

/-- All the balances of the cache fit. -/
def AllFit (cache : BalanceCache) : Prop := ∀ a, Fits (cache.read a)

theorem AllFit.insert {cache : BalanceCache} (all : AllFit cache) (accountId : Uuid) {balance : Int}
    (fits : Fits balance) : AllFit (cache.insert accountId balance) := by
  intro a
  rw [BalanceCache.read_insert]
  split
  · exact fits
  · exact all a

/-- A transfer that an account makes to itself is taken back in two steps in
the same direction, so that the first fits if the second does. -/
theorem first_fits {cache : BalanceCache} {tx : Transaction} (all : AllFit cache)
    (after : AllFit (Handlers.takeBack cache tx)) :
    Fits (cache.read tx.fromAccountId - RailsCore.balanceDeltaForAccount tx tx.fromAccountId) := by
  have before := all tx.fromAccountId
  have taken := after tx.fromAccountId
  rw [Handlers.read_takeBack, chargedDelta, if_pos rfl] at taken
  simp only [Fits] at before taken ⊢
  split at taken
  · omega
  · omega

theorem page_guards : Guards AllFit ValidAmount Handlers.takeBack takeBack where
  goes cache tx all valid after := by
    have first := checked_of_fits (first_fits all after)
    simp only [takeBack, balanceDeltaForAccount_eq valid, Option.bind_eq_bind, Option.bind_some,
      first]
    by_cases transfer : tx.transactionKind = .transfer
    · have second := after tx.toAccountId
      rw [Handlers.takeBack, if_pos transfer, BalanceCache.read_insert, if_pos rfl] at second
      simp only [if_pos transfer, checked_of_fits second, Option.bind_some, Handlers.takeBack]
      rfl
    · simp only [if_neg transfer, Handlers.takeBack]
      rfl
  fails cache tx all valid outside := by
    simp only [takeBack, balanceDeltaForAccount_eq valid, Option.bind_eq_bind, Option.bind_some]
    by_cases first : Fits (cache.read tx.fromAccountId -
        RailsCore.balanceDeltaForAccount tx tx.fromAccountId)
    · rw [checked_of_fits first, Option.bind_some]
      by_cases transfer : tx.transactionKind = .transfer
      · rw [if_pos transfer, checked_eq_none.mpr]
        · rfl
        · intro second
          apply outside
          rw [Handlers.takeBack, if_pos transfer]
          exact (all.insert _ first).insert _ second
      · rw [Handlers.takeBack, if_neg transfer] at outside
        exact absurd (all.insert _ first) outside
    · rw [checked_eq_none.mpr first]
      rfl

theorem outputs_eq_pageBalances (cache : BalanceCache) (txs : List Transaction) :
    outputs balancePair Handlers.takeBack cache txs = Handlers.pageBalances cache txs := by
  induction txs generalizing cache with
  | nil => rfl
  | cons tx txs ih =>
    rw [outputs, Handlers.pageBalances, ih]
    rfl

theorem read_foldl_takeBack (cache : BalanceCache) (txs : List Transaction) (a : Uuid) :
    (txs.foldl Handlers.takeBack cache).read a =
      cache.read a - (txs.map (chargedDelta a)).sum := by
  induction txs generalizing cache with
  | nil => simp
  | cons tx txs ih =>
    rw [List.foldl_cons, ih, Handlers.read_takeBack, List.map_cons, List.sum_cons, Int.sub_sub]

theorem stays_page {cache : BalanceCache} {txs : List Transaction} :
    Stays AllFit Handlers.takeBack cache txs ↔
      ∀ p, p <+: txs → ∀ a, Fits (cache.read a - (p.map (chargedDelta a)).sum) := by
  simp only [Stays, AllFit, read_foldl_takeBack]

/-- The accounts whose balances are fetched: the first of each account, and none that
are in the cache. -/
theorem fetchBalances_isSome {balance : Uuid → String → Option Int}
    {uniqueAccounts : List (Uuid × String)} {cache : BalanceCache} :
    (fetchBalances balance uniqueAccounts cache).isSome ↔ ∀ a q, cache a = none →
      (uniqueAccounts.find? fun q => q.1 = a) = some q → (balance a q.2).isSome := by
  induction uniqueAccounts generalizing cache with
  | nil => exact iff_of_true rfl nofun
  | cons first rest ih =>
    obtain ⟨b, currency⟩ := first
    rw [fetchBalances]
    by_cases known : (cache b).isSome
    · rw [if_pos known, ih]
      refine forall_congr' fun a => forall_congr' fun q => forall_congr' fun unknown => ?_
      have other : b ≠ a := by
        rintro rfl
        rw [unknown] at known
        exact absurd known nofun
      rw [List.find?_cons_of_neg (by simpa using other)]
    · have unknown : cache b = none := by simpa using known
      rw [if_neg known]
      cases here : balance b currency with
      | none =>
        refine iff_of_false (by simp) fun all => ?_
        have := all b (b, currency) unknown (by simp)
        rw [here] at this
        exact absurd this nofun
      | some n =>
        rw [Option.bind_eq_bind, Option.bind_some, ih]
        constructor
        · intro all a q open_ found
          by_cases same : b = a
          · subst same
            rw [List.find?_cons_of_pos (by simp)] at found
            rw [← Option.some.inj found, here]
            rfl
          · rw [List.find?_cons_of_neg (by simpa using same)] at found
            refine all a q ?_ found
            rw [BalanceCache.insert, if_neg (Ne.symm same), open_]
        · intro all a q open_ found
          have other : b ≠ a := by
            rintro rfl
            simp [BalanceCache.insert] at open_
          refine all a q ?_ (by rwa [List.find?_cons_of_neg (by simpa using other)])
          rwa [BalanceCache.insert, if_neg (Ne.symm other)] at open_

/-- The balances that are fetched are those of the unbounded numbers. -/
theorem fetchBalances_eq {balance : Uuid → String → Option Int} {unbounded : Uuid → String → Int}
    (same : ∀ a currency n, balance a currency = some n → n = unbounded a currency)
    {uniqueAccounts : List (Uuid × String)} {cache fetched : BalanceCache}
    (done : fetchBalances balance uniqueAccounts cache = some fetched) :
    fetched = Handlers.fetchBalances unbounded uniqueAccounts cache := by
  induction uniqueAccounts generalizing cache with
  | nil => exact (Option.some.inj done).symm
  | cons first rest ih =>
    obtain ⟨b, currency⟩ := first
    rw [fetchBalances] at done
    rw [Handlers.fetchBalances]
    split at done
    · rename_i known
      rw [if_pos known]
      exact ih done
    · rename_i unknown
      obtain ⟨n, here, later⟩ := Option.bind_eq_some_iff.mp done
      rw [if_neg unknown, ← same b currency n here]
      exact ih later

theorem read_fetchBalances (unbounded : Uuid → String → Int) (uniqueAccounts : List (Uuid × String))
    (cache : BalanceCache) (a : Uuid) :
    (Handlers.fetchBalances unbounded uniqueAccounts cache).read a = (cache a).getD
      (((uniqueAccounts.find? fun q => q.1 = a).map fun q => unbounded a q.2).getD 0) := by
  induction uniqueAccounts generalizing cache with
  | nil => rfl
  | cons first rest ih =>
    obtain ⟨b, currency⟩ := first
    rw [Handlers.fetchBalances]
    by_cases same : b = a
    · subst same
      rw [List.find?_cons_of_pos (by simp)]
      cases known : cache b with
      | some n => simp [ih, known]
      | none => simp [ih, BalanceCache.insert]
    · rw [List.find?_cons_of_neg (by simpa using same)]
      split
      · exact ih cache
      · rw [ih, BalanceCache.insert, if_neg (Ne.symm same)]

theorem shown_of_checked {answer : Answer} {n : Int}
    (shown : negateLedgerBalanceForDisplay answer = some n) : n = shownBalance answer := by
  rw [negateLedgerBalanceForDisplay_eq] at shown
  split at shown
  · exact absurd shown nofun
  · exact (Option.some.inj shown).symm

section Page

variable {answers : Uuid → String → Answer} {uniqueAccounts : List (Uuid × String)}
  {txs : List Transaction}

/-- The balances that the page starts from, where none of them is the least. -/
theorem fetched_spec (some_ : ∀ a q, (uniqueAccounts.find? fun q => q.1 = a) = some q →
      ledgerBalance (answers a q.2) ≠ some Int64.minValue) :
    ∃ cache, fetchBalances (fun a currency => negateLedgerBalanceForDisplay (answers a currency))
        uniqueAccounts .empty = some cache ∧ AllFit cache ∧
      ∀ a, cache.read a = startBalance answers uniqueAccounts a := by
  have ends : (fetchBalances (fun a currency => negateLedgerBalanceForDisplay (answers a currency))
      uniqueAccounts .empty).isSome := by
    rw [fetchBalances_isSome]
    intro a q _ found
    rw [negateLedgerBalanceForDisplay_eq, if_neg (some_ a q found)]
    rfl
  obtain ⟨cache, done⟩ := Option.isSome_iff_exists.mp ends
  have read : ∀ a, cache.read a = startBalance answers uniqueAccounts a := by
    intro a
    rw [fetchBalances_eq (fun a currency n => shown_of_checked) done, read_fetchBalances]
    rfl
  refine ⟨cache, done, fun a => ?_, read⟩
  rw [read, startBalance]
  cases found : uniqueAccounts.find? fun q => q.1 = a with
  | none => exact fits_zero
  | some q => exact shownBalance_fits (some_ a q found)

theorem listTransactions_isSome (valid : ∀ tx ∈ txs, ValidAmount tx) :
    (listTransactions answers uniqueAccounts txs).isSome ↔
      (∀ a q, (uniqueAccounts.find? fun q => q.1 = a) = some q →
        ledgerBalance (answers a q.2) ≠ some Int64.minValue) ∧
      ∀ p, p <+: txs → ∀ a,
        Fits (startBalance answers uniqueAccounts a - (p.map (chargedDelta a)).sum) := by
  by_cases some_ : ∀ a q, (uniqueAccounts.find? fun q => q.1 = a) = some q →
      ledgerBalance (answers a q.2) ≠ some Int64.minValue
  · obtain ⟨cache, done, fits, read⟩ := fetched_spec some_
    rw [listTransactions, done, Option.bind_eq_bind, Option.bind_some,
      page_guards.run_isSome_iff _ valid fits, stays_page, and_iff_right some_]
    simp only [read]
  · refine iff_of_false (fun ends => some_ ?_) fun both => some_ both.1
    intro a q found least
    obtain ⟨_, done⟩ := Option.isSome_iff_exists.mp ends
    obtain ⟨cache, fetched, -⟩ := Option.bind_eq_some_iff.mp done
    have shown := fetchBalances_isSome.mp (Option.isSome_of_eq_some fetched) a q rfl found
    rw [negateLedgerBalanceForDisplay_eq, if_pos least] at shown
    exact absurd shown nofun

/-- The result is that of the unbounded numbers. -/
theorem listTransactions_eq (valid : ∀ tx ∈ txs, ValidAmount tx)
    {balances : List (Int × Option Int)}
    (done : listTransactions answers uniqueAccounts txs = some balances) :
    balances = Handlers.pageBalances (Handlers.fetchBalances
      (fun a currency => shownBalance (answers a currency)) uniqueAccounts .empty) txs := by
  obtain ⟨some_, within⟩ := (listTransactions_isSome valid).mp (Option.isSome_of_eq_some done)
  obtain ⟨cache, fetched, -, read⟩ := fetched_spec some_
  simp only [← read] at within
  rw [listTransactions, fetched, Option.bind_eq_bind, Option.bind_some,
    page_guards.run_of_stays _ valid (stays_page.mpr within), outputs_eq_pageBalances] at done
  rw [← Option.some.inj done, fetchBalances_eq (fun a currency n => shown_of_checked) fetched]

end Page

/-! ## The endpoints -/

section Endpoints
open TransactionRepository

variable {ledger : BalanceQuery} {rows : List Transaction} {environment : Environment}

/-- What the list of an account shows has the balances of 64 bits, where it has them. -/
theorem listAccountTransactions_checked {accounts : List Account} {accountId : Uuid}
    {limit : Option Int} {data : List AccountTransactionResponse} {txs : List Transaction}
    (listed : Handlers.listAccountTransactions accounts ledger rows environment accountId limit =
      .ok data) (found : findByAccountId accountId limit environment rows = .ok txs)
    (valid : ∀ tx ∈ txs, ValidAmount tx) {answer : Answer}
    (answers : ∀ tx ∈ txs.head?, shownBalance answer = RailsCore.negateLedgerBalanceForDisplay
      (ledger tx.organizationId environment accountId tx.currency)) {balances : List Int}
    (done : listAccountTransactions accountId answer txs = some balances) :
    data = List.zipWith (fun tx balanceAfter =>
      AccountTransactionResponse.fromTransaction tx accountId balanceAfter) txs balances := by
  have shown := listAccountTransactions_eq valid done
  cases there : AccountRepository.findById accounts accountId environment with
  | error e => simp [Handlers.listAccountTransactions, there, bind, Except.bind] at listed
  | ok account =>
    simp only [Handlers.listAccountTransactions, there, found, bind, Except.bind,
      Except.ok.injEq] at listed
    rw [← listed, shown]
    cases txs with
    | nil => rfl
    | cons tx txs =>
      rw [answers tx rfl]
      rfl

/-- What a page of an organization shows has the balances of 64 bits, where it has them. -/
theorem listTransactions_checked {organizationId : Uuid}
    {iteration : List (Uuid × String) → List (Uuid × String)} {page perPage : Option UInt32}
    {data : List AccountTransactionResponse} {pagination : PaginationMeta}
    (listed : Handlers.listTransactions ledger rows environment iteration (some organizationId)
      page perPage = .ok (data, pagination)) {txs : List Transaction}
    (found : findByOrganizationIdPaginated organizationId environment (max (page.getD 1) 1)
      (min (max (perPage.getD 10) 1) 100) rows = (txs, pagination))
    (valid : ∀ tx ∈ txs, ValidAmount tx) {answers : Uuid → String → Answer}
    (answered : ∀ a currency, shownBalance (answers a currency) =
      RailsCore.negateLedgerBalanceForDisplay (ledger organizationId environment a currency))
    {balances : List (Int × Option Int)}
    (done : listTransactions answers (iteration (Handlers.uniqueAccounts txs)) txs =
      some balances) :
    data = (List.zipWith Handlers.responses txs balances).flatten := by
  rw [listTransactions_eq valid done]
  simp only [answered]
  simp only [Handlers.listTransactions, found] at listed
  exact (Prod.mk.inj (Except.ok.inj listed)).1.symm

end Endpoints

/-! ## Where nothing overflows -/

/-- What the services compute with balances: one to be shown, the funds of a
request, and the balances of both lists. -/
inductive Computation where
  | balance (answer : Answer)
  | funds (answer : Answer) (amount : Int)
  | ofAccount (accountId : Uuid) (answer : Answer) (transactions : List Transaction)
  | ofPage (answers : Uuid → String → Answer) (uniqueAccounts : List (Uuid × String))
    (transactions : List Transaction)

namespace Computation

def rows : Computation → List Transaction
  | .balance _ | .funds _ _ => []
  | .ofAccount _ _ transactions | .ofPage _ _ transactions => transactions

/-- No operation of the computation leaves the 64 bits. -/
def Completes : Computation → Prop
  | .balance answer => (negateLedgerBalanceForDisplay answer).isSome
  | .funds answer amount => (checkFunds answer amount).isSome
  | .ofAccount accountId answer transactions =>
    (listAccountTransactions accountId answer transactions).isSome
  | .ofPage answers uniqueAccounts transactions =>
    (listTransactions answers uniqueAccounts transactions).isSome

/-- The ledger's balances are not the least there is, and the balances shown less the
posted deltas of the newest rows, however many, are in range. -/
def InRange : Computation → Prop
  | .balance answer | .funds answer _ => ledgerBalance answer ≠ some Int64.minValue
  | .ofAccount accountId answer transactions =>
    transactions ≠ [] → ledgerBalance answer ≠ some Int64.minValue ∧ ∀ p, p <+: transactions →
      Fits (shownBalance answer -
        (p.map fun tx => RailsCore.balanceDeltaForAccount tx accountId).sum)
  | .ofPage answers uniqueAccounts transactions =>
    (∀ a q, (uniqueAccounts.find? fun q => q.1 = a) = some q →
      ledgerBalance (answers a q.2) ≠ some Int64.minValue) ∧
    ∀ p, p <+: transactions → ∀ a,
      Fits (startBalance answers uniqueAccounts a - (p.map (chargedDelta a)).sum)

end Computation

theorem checkFunds_isSome (answer : Answer) (amount : Int) :
    (checkFunds answer amount).isSome ↔ ledgerBalance answer ≠ some Int64.minValue := by
  cases answer with
  | error e => exact iff_of_true rfl nofun
  | ok balance =>
    rw [checkFunds, ledgerBalance]
    rcases Option.eq_none_or_eq_some (parseI64 (trim balance).toList) with read | ⟨n, read⟩
    · simp [read]
    · by_cases least : n = Int64.minValue
      · have none_ : checked (-n.toInt) = none :=
          checked_eq_none.mpr fun fits => fits_neg.mp fits least
        simp only [read, none_]
        exact iff_of_false nofun fun other => other (congrArg some least)
      · simp [read, checked_of_fits (fits_neg.mpr least), least]

/-- The computations that overflow are those over a balance or over rows that go too far. -/
theorem completes_iff (c : Computation) (valid : ∀ tx ∈ c.rows, ValidAmount tx) :
    c.Completes ↔ c.InRange := by
  cases c with
  | balance answer =>
    rw [Computation.Completes, Computation.InRange, negateLedgerBalanceForDisplay_eq]
    by_cases least : ledgerBalance answer = some Int64.minValue <;> simp [least]
  | funds answer amount => exact checkFunds_isSome answer amount
  | ofAccount accountId answer transactions => exact listAccountTransactions_isSome valid
  | ofPage answers uniqueAccounts transactions => exact listTransactions_isSome valid

theorem completes_iff_deposits :
    (Computation.ofAccount ⟨7⟩ (.ok "-80") Handlers.twoDeposits).Completes ∧
      ((Computation.ofAccount ⟨7⟩ (.ok "-80") Handlers.twoDeposits).Completes ↔
        (Computation.ofAccount ⟨7⟩ (.ok "-80") Handlers.twoDeposits).InRange) := by
  constructor
  · rw [Computation.Completes]
    decide +kernel
  · exact completes_iff _ (by decide +kernel)

/-- While the ledger does not answer, the second of two large deposits is too much. -/
theorem large_deposits_overflow :
    ¬ ∀ c : Computation, (∀ tx ∈ c.rows, ValidAmount tx) → c.Completes := by
  intro all
  have overflow : listAccountTransactions ⟨7⟩ (.error (.internal "unreachable"))
      [Handlers.postedDeposit ⟨102⟩ (2 ^ 63 - 1) 2, Handlers.postedDeposit ⟨101⟩ (2 ^ 63 - 1) 1] =
      none := by decide +kernel
  have ends := all (.ofAccount ⟨7⟩ (.error (.internal "unreachable"))
    [Handlers.postedDeposit ⟨102⟩ (2 ^ 63 - 1) 2, Handlers.postedDeposit ⟨101⟩ (2 ^ 63 - 1) 1])
    (by decide +kernel)
  rw [Computation.Completes, overflow] at ends
  exact absurd ends nofun

end RailsCore.CheckedBalances
