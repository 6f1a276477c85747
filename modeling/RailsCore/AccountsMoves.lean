import RailsCore.AccountsService

/-!
# What a step of the accounts service can do

Each step of a request or a worker is one of a few moves: it leaves the rows
alone, inserts one, claims some, requeues stale ones, writes the status of a
row it holds, or sends a message. Every invariant is proved from these moves
and from the rows and holders they leave.
-/

namespace RailsCore
open TransactionRepository

/-- The number of the ledger call a request waits for, and the row it is for. -/
def HandlerPoint.awaited : HandlerPoint → Option (Nat × Transaction)
  | .awaitingPost _ tx call _ => some (call, tx)
  | _ => none

def Worker.awaited : Worker → Option (Nat × Transaction)
  | ⟨.awaiting call _, tx :: _⟩ => some (call, tx)
  | _ => none

/-- The claimed rows that a worker has still to post. -/
def Worker.unposted (w : Worker) : List Transaction :=
  match w.stage with
  | .working => w.batch
  | .awaiting _ _ | .settle _ => w.batch.tail
  | .idle | .claiming => []

/-- The row that a request has been given, or answers with. -/
def HandlerPoint.shown : HandlerPoint → Option Transaction
  | .resolve _ tx | .done (.ok tx) => some tx
  | _ => none

/-- The request holds no row and shows none. -/
def HandlerPoint.Silent (point : HandlerPoint) : Prop := point.held = none ∧ point.shown = none

/-- The moves of a request at time `now`. -/
inductive HandlerMove (now call : Nat) (rows : List Transaction) (h : Handler) :
    HandlerInput → List Transaction → HandlerPoint → Option PostTransactionRequest → Prop where
  | quiet {input point} (held : point.held = none)
      (shown : ∀ tx ∈ point.shown, tx ∈ h.point.shown ∨
        ∃ r ∈ rows, r.key = tx.key ∧ r.status = tx.status) :
      HandlerMove now call rows h input rows point none
  | reply {ctx tx sentCall sentAt answer} (at_ : h.point = .awaitingPost ctx tx sentCall sentAt) :
      HandlerMove now call rows h (.reply answer) rows (.settle ctx tx answer) none
  | insert {ctx id} (at_ : h.point = .createOrGet ctx)
      (freshKey : Table.find Transaction.key (AccountService.keyOf h.request ctx) rows = none)
      (freshId : Table.find Transaction.id id rows = none) :
      HandlerMove now call rows h (.created id)
        (rows ++ [AccountService.newIntent now id h.request ctx])
        (.resolve ctx (AccountService.newIntent now id h.request ctx)) none
  | claim {ctx tx row} (at_ : h.point = .resolve ctx tx)
      (found : Table.find Transaction.id tx.id rows = some row) (pending : row.status = .pending) :
      HandlerMove now call rows h .go
        (Table.updateWhere (fun r => r.id = tx.id && r.status = .pending) (claimedForPost now) rows)
        (.post ctx (claimedForPost now row).withoutRetryColumns) none
  | post {ctx tx} (at_ : h.point = .post ctx tx) :
      HandlerMove now call rows h .go rows (.awaitingPost ctx tx call now)
        (some (AccountService.postRequest h.request ctx tx))
  | settle {ctx tx result} (at_ : h.point = .settle ctx tx result) :
      HandlerMove now call rows h .go (Handler.settled now tx result rows)
        (.done (findById tx.id (Handler.settled now tx result rows))) none

theorem HandlerMove.silent {now call : Nat} {rows : List Transaction} {h : Handler}
    {input : HandlerInput} {point : HandlerPoint} (silent : point.Silent) :
    HandlerMove now call rows h input rows point none :=
  .quiet silent.1 (fun tx shown => by simp [silent.2] at shown)

theorem TransactionRepository.findById_ok {id : Uuid} {rows : List Transaction} {tx : Transaction}
    (found : findById id rows = .ok tx) : ∃ r ∈ rows, r.key = tx.key ∧ r.status = tx.status := by
  rw [findById] at found
  cases hf : Table.find Transaction.id id rows with
  | none => simp [hf] at found
  | some r =>
    simp only [hf] at found
    obtain rfl := Except.ok.inj found
    exact ⟨r, (Table.find_some hf).1, rfl, rfl⟩

namespace AccountService

/-- What the checks up to the first account let through. -/
theorem start_ok {q : MoneyRequest} {accounts : List Account} {point : HandlerPoint}
    (h : start q accounts = .ok point) :
    0 < q.amount ∧ ∃ account, activeAccount accounts q.accountId q.environment = .ok account ∧
      (q.operation.checksToAccount = true ∧ point = .findToAccount account ∨
        q.operation.checksToAccount = false ∧ ∃ organizationId,
          account.organizationId = some organizationId ∧
          point = afterChecks q ⟨organizationId, currencyOf account⟩) := by
  by_cases noKey : q.idempotencyKey = ""
  · simp [start, noKey] at h
  by_cases notPositive : q.amount ≤ 0
  · simp [start, noKey, notPositive] at h
  simp only [start, noKey, notPositive, if_false] at h
  refine ⟨by omega, ?_⟩
  cases found : activeAccount accounts q.accountId q.environment with
  | error e => simp [found, bind, Except.bind] at h
  | ok account =>
    refine ⟨account, rfl, ?_⟩
    simp only [found, bind, Except.bind] at h
    cases checks : q.operation.checksToAccount with
    | true => exact .inl ⟨rfl, by simpa [checks] using h.symm⟩
    | false =>
      refine .inr ⟨rfl, ?_⟩
      cases organization : account.organizationId with
      | none => simp [checks, organizationOf, organization] at h
      | some organizationId =>
        exact ⟨organizationId, rfl, by simpa [checks, organizationOf, organization] using h.symm⟩

theorem checkToAccount_ok {q : MoneyRequest} {fromAccount : Account} {accounts : List Account}
    {point : HandlerPoint} (h : checkToAccount q fromAccount accounts = .ok point) :
    ∃ toAccount organizationId,
      activeAccount accounts q.toAccountId q.environment = .ok toAccount ∧
      fromAccount.organizationId = some organizationId ∧
      toAccount.organizationId = some organizationId ∧
      currencyOf fromAccount = currencyOf toAccount ∧
      point = afterChecks q ⟨organizationId, currencyOf fromAccount⟩ := by
  rw [checkToAccount] at h
  cases found : activeAccount accounts q.toAccountId q.environment with
  | error e => simp [found, bind, Except.bind] at h
  | ok toAccount =>
    cases fromOrg : fromAccount.organizationId with
    | none => simp [found, bind, Except.bind, organizationOf, fromOrg] at h
    | some organizationId =>
      cases toOrg : toAccount.organizationId with
      | none => simp [found, bind, Except.bind, organizationOf, fromOrg, toOrg] at h
      | some other =>
        simp only [found, bind, Except.bind, organizationOf, fromOrg, toOrg] at h
        split_ifs at h with orgs currencies
        obtain rfl : organizationId = other := by simpa using orgs
        exact ⟨toAccount, organizationId, rfl, rfl, toOrg, by simpa using currencies,
          (Except.ok.inj h).symm⟩

theorem silent_afterChecks (q : MoneyRequest) (ctx : MoneyContext) :
    (afterChecks q ctx).Silent := by
  rw [afterChecks]
  split <;> exact ⟨rfl, rfl⟩

theorem silent_orEnd {next : Except AppError HandlerPoint}
    (silent : ∀ point, next = .ok point → point.Silent) : (orEnd next).Silent := by
  cases next with
  | error e => exact ⟨rfl, rfl⟩
  | ok point => exact silent point rfl

/-- A funds check lets a request through when the answer covers its amount. -/
theorem afterFundsCheck_ok {q : MoneyRequest} {ctx : MoneyContext} {answer : Except AppError Int}
    {point : HandlerPoint} (h : afterFundsCheck q ctx answer = .ok point) :
    point = .createOrGet ctx ∧ ∃ balance, answer = .ok balance ∧ q.amount ≤ -balance := by
  cases answer with
  | error e => simp [afterFundsCheck, bind, Except.bind] at h
  | ok balance =>
    simp only [afterFundsCheck, bind, Except.bind] at h
    split_ifs at h with short
    exact ⟨(Except.ok.inj h).symm, balance, rfl, by omega⟩

end AccountService

open AccountService in
theorem Handler.next_move {now call : Nat} {accounts : List Account} {rows : List Transaction}
    {h : Handler} {input : HandlerInput} {rows' : List Transaction} {point : HandlerPoint}
    {message : Option PostTransactionRequest}
    (step : h.next now call accounts rows input = some (rows', point, message)) :
    HandlerMove now call rows h input rows' point message := by
  obtain ⟨request, at_⟩ := h
  by_cases failed : ∃ e, input = .fail e
  · obtain ⟨e, rfl⟩ := failed
    cases at_ <;> simp only [Handler.next, reduceCtorEq] at step <;> cases step <;>
      exact .silent ⟨rfl, rfl⟩
  cases at_ with
  | done result => simp [Handler.next] at step
  | start =>
    cases input <;> simp [Handler.next] at step failed
    obtain ⟨rfl, rfl, rfl⟩ := step
    refine .silent (silent_orEnd (fun point ok => ?_))
    obtain ⟨-, account, -, ⟨-, rfl⟩ | ⟨-, organizationId, -, rfl⟩⟩ := start_ok ok
    · exact ⟨rfl, rfl⟩
    · exact silent_afterChecks _ _
  | findToAccount fromAccount =>
    cases input <;> simp [Handler.next] at step failed
    obtain ⟨rfl, rfl, rfl⟩ := step
    refine .silent (silent_orEnd (fun point ok => ?_))
    obtain ⟨toAccount, organizationId, -, -, -, -, rfl⟩ := checkToAccount_ok ok
    exact silent_afterChecks _ _
  | findExisting ctx =>
    cases input <;> simp [Handler.next] at step failed
    obtain ⟨rfl, rfl, rfl⟩ := step
    cases found : Table.find Transaction.key (keyOf request ctx) rows with
    | none =>
      rw [findByIdempotency, found]
      exact .silent ⟨rfl, rfl⟩
    | some r =>
      rw [findByIdempotency, found, Option.map_some, afterLookup]
      split
      · refine .quiet rfl (fun tx shown => .inr ⟨r, (Table.find_some found).1, ?_⟩)
        obtain rfl := Option.some.inj shown
        exact ⟨rfl, rfl⟩
      · exact .silent ⟨rfl, rfl⟩
  | checkFunds ctx =>
    cases input <;> simp [Handler.next] at step failed
    obtain ⟨rfl, rfl, rfl⟩ := step
    refine .silent (silent_orEnd (fun point ok => ?_))
    rw [(afterFundsCheck_ok ok).1]
    exact ⟨rfl, rfl⟩
  | createOrGet ctx =>
    cases input <;> simp [Handler.next] at step failed
    rename_i id
    rw [createOrGetByIdempotency] at step
    cases existing : Table.find Transaction.key (newIntent now id request ctx).key rows with
    | some tx =>
      simp only [existing] at step
      cases step
      refine .quiet rfl (fun tx' shown => .inr ⟨tx, (Table.find_some existing).1, ?_⟩)
      obtain rfl := Option.some.inj shown
      exact ⟨rfl, rfl⟩
    | none =>
      simp only [existing] at step
      split_ifs at step with long taken
      · cases step
        exact .silent ⟨rfl, rfl⟩
      · cases step
        exact .silent ⟨rfl, rfl⟩
      · cases step
        exact .insert rfl existing (by simpa [newIntent, newRow] using taken)
  | resolve ctx tx =>
    cases input <;> simp [Handler.next] at step failed
    obtain ⟨rfl, rfl, rfl⟩ := step
    rw [resolveImmediateLedgerPost]
    cases status : tx.status with
    | posted | posting | failed => exact .quiet rfl (fun _ shown => .inl shown)
    | pending =>
      simp only [tryClaimPendingForPost]
      cases found : Table.find Transaction.id tx.id rows with
      | none => exact .silent ⟨rfl, rfl⟩
      | some row =>
        by_cases pending : row.status = .pending
        · simp only [pending, if_true]
          exact .claim rfl found pending
        · simp only [pending, if_false]
          exact .silent ⟨rfl, rfl⟩
  | reload ctx tx =>
    cases input <;> simp [Handler.next] at step failed
    obtain ⟨rfl, rfl, rfl⟩ := step
    refine .quiet rfl (fun tx' shown => .inr ?_)
    cases found : findById tx.id rows with
    | error e => simp [HandlerPoint.shown, found] at shown
    | ok row =>
      obtain rfl : row = tx' := by simpa [HandlerPoint.shown, found] using shown
      exact findById_ok found
  | post ctx tx =>
    cases input <;> simp [Handler.next] at step failed
    obtain ⟨rfl, rfl, rfl⟩ := step
    exact .post rfl
  | awaitingPost ctx tx call' sentAt =>
    cases input <;> simp [Handler.next] at step failed
    obtain ⟨rfl, rfl, rfl⟩ := step
    exact .reply rfl
  | settle ctx tx result =>
    cases input <;> simp [Handler.next] at step failed
    obtain ⟨rfl, rfl, rfl⟩ := step
    exact .settle rfl

/-- The moves of a retry worker at time `now`. -/
inductive WorkerMove (settings : Settings) (now call : Nat) (accounts : List Account)
    (rows : List Transaction) (w : Worker) :
    WorkerInput → List Transaction → Worker → Option PostTransactionRequest → Prop where
  | quiet {input w'} (calm : w'.stage = .idle ∨ w'.stage = .working)
      (batch : w'.batch <:+ w.batch) (unposted : w'.unposted <:+ w.unposted) :
      WorkerMove settings now call accounts rows w input rows w' none
  | reply {tx rest sentCall sentAt answer} (at_ : w = ⟨.awaiting sentCall sentAt, tx :: rest⟩) :
      WorkerMove settings now call accounts rows w (.reply answer) rows
        ⟨.settle answer, tx :: rest⟩ none
  | reclaim (idle : w.stage = .idle) :
      WorkerMove settings now call accounts rows w .go
        (reclaimStalePostingRows now settings.stalePostingSecs rows) ⟨.claiming, []⟩ none
  | claim {ids rows' batch} (at_ : w.stage = .claiming)
      (claimed : claimPendingTransactions now 2 200 ids rows = some (rows', batch)) :
      WorkerMove settings now call accounts rows w (.claimed ids) rows' (Worker.on batch) none
  | post {tx rest environment} (at_ : w = ⟨.working, tx :: rest⟩)
      (resolved : TransactionRetry.resolveEnvironment accounts tx = .ok environment) :
      WorkerMove settings now call accounts rows w .go rows ⟨.awaiting call now, tx :: rest⟩
        (some (TransactionRetry.postRequest environment tx))
  | release {tx rest e} (at_ : w = ⟨.working, tx :: rest⟩)
      (unresolved : TransactionRetry.resolveEnvironment accounts tx = .error e) :
      WorkerMove settings now call accounts rows w .go
        (updateStatus now tx.id .pending
          (some "retry_worker: could not resolve account environment") rows) (Worker.on rest) none
  | settle {tx rest result} (at_ : w = ⟨.settle result, tx :: rest⟩) :
      WorkerMove settings now call accounts rows w .go
        (Worker.settled settings now tx result rows) (Worker.on rest) none

theorem Worker.stage_on (batch : List Transaction) :
    (Worker.on batch).stage = .idle ∨ (Worker.on batch).stage = .working := by
  rw [Worker.on]
  split
  · exact .inl rfl
  · exact .inr rfl

theorem Worker.unposted_on (batch : List Transaction) : (Worker.on batch).unposted = batch := by
  cases batch with
  | nil => rfl
  | cons tx rest => rfl

theorem Worker.next_move {settings : Settings} {now call : Nat} {accounts : List Account}
    {rows : List Transaction} {w : Worker} {input : WorkerInput} {rows' : List Transaction}
    {w' : Worker} {message : Option PostTransactionRequest}
    (step : w.next settings now call accounts rows input = some (rows', w', message)) :
    WorkerMove settings now call accounts rows w input rows' w' message := by
  obtain ⟨stage, batch⟩ := w
  by_cases crashed : input = .crash
  · subst crashed
    obtain ⟨rfl, rfl, rfl⟩ : rows = rows' ∧ Worker.idle = w' ∧ none = message := by
      simpa [Worker.next] using step
    exact .quiet (.inl rfl) List.nil_suffix List.nil_suffix
  cases stage with
  | idle =>
    cases input <;> simp [Worker.next] at step crashed
    obtain ⟨rfl, rfl, rfl⟩ := step
    exact .reclaim rfl
  | claiming =>
    cases input <;> simp [Worker.next] at step crashed
    obtain ⟨batch, claimed, rfl, rfl⟩ := step
    exact .claim rfl claimed
  | working =>
    cases batch with
    | nil => cases input <;> simp [Worker.next] at step crashed
    | cons tx rest =>
      cases resolved : TransactionRetry.resolveEnvironment accounts tx with
      | ok environment =>
        cases input <;> simp [Worker.next, resolved] at step crashed
        obtain ⟨rfl, rfl, rfl⟩ := step
        exact .post rfl resolved
      | error e =>
        cases input <;> simp [Worker.next, resolved] at step crashed
        · obtain ⟨rfl, rfl, rfl⟩ := step
          exact .release rfl resolved
        · obtain ⟨rfl, rfl, rfl⟩ := step
          refine .quiet (Worker.stage_on rest) (List.suffix_cons tx rest) ?_
          rw [Worker.unposted_on]
          exact List.suffix_cons tx rest
  | awaiting sentCall sentAt =>
    cases batch with
    | nil => cases input <;> simp [Worker.next] at step crashed
    | cons tx rest =>
      cases input <;> simp [Worker.next] at step crashed
      obtain ⟨rfl, rfl, rfl⟩ := step
      exact .reply rfl
  | settle result =>
    cases batch with
    | nil => cases input <;> simp [Worker.next] at step crashed
    | cons tx rest =>
      cases input <;> simp [Worker.next] at step crashed
      · obtain ⟨rfl, rfl, rfl⟩ := step
        exact .settle rfl
      · obtain ⟨rfl, rfl, rfl⟩ := step
        refine .quiet (Worker.stage_on rest) (List.suffix_cons tx rest) ?_
        rw [Worker.unposted_on]
        exact List.suffix_refl rest

/-- The claimed batch has the ids that were picked, in their order. -/
theorem claim_ids {now : Nat} {ids : List Uuid} {rows rows' batch : List Transaction}
    (claimed : claimPendingTransactions now 2 200 ids rows = some (rows', batch)) :
    batch.map Transaction.id = ids := by
  simp only [claimPendingTransactions] at claimed
  split_ifs at claimed with ok
  obtain ⟨-, -, all⟩ := ok
  obtain ⟨-, rfl⟩ := Prod.mk.inj (Option.some.inj claimed)
  have found : ∀ id ∈ ids, ∃ r,
      Table.find Transaction.id id (rows.filter (IsCandidate now 2)) = some r := by
    intro id hid
    obtain ⟨r, hr, same⟩ := List.mem_map.mp (all id hid)
    cases hf : Table.find Transaction.id id (rows.filter (IsCandidate now 2)) with
    | some r => exact ⟨r, rfl⟩
    | none => exact absurd same (Table.find_none_iff.mp hf r hr)
  clear all claimed
  induction ids with
  | nil => rfl
  | cons id rest ih =>
    obtain ⟨r, hr⟩ := found id List.mem_cons_self
    have same : (claimedForRetry now r).id = id := (Table.find_some hr).2
    simp only [List.filterMap_cons, hr, Option.map_some, List.map_cons, same]
    rw [ih fun id hid => found id (List.mem_cons_of_mem _ hid)]

/-- The claimed batch: candidates, each once, as they stand after the claim. -/
theorem claim_batch {now : Nat} {ids : List Uuid} {rows rows' batch : List Transaction}
    (claimed : claimPendingTransactions now 2 200 ids rows = some (rows', batch)) :
    rows' = Table.updateWhere (fun r => IsCandidate now 2 r && r.id ∈ ids) (claimedForRetry now)
      rows ∧ (batch.map Transaction.id).Nodup ∧ batch.length ≤ 200 ∧
      ∀ tx ∈ batch, ∃ r ∈ rows, (IsCandidate now 2 r && r.id ∈ ids) = true ∧
        tx = claimedForRetry now r := by
  have idsOf := claim_ids claimed
  simp only [claimPendingTransactions] at claimed
  split_ifs at claimed with ok
  obtain ⟨few, nodup, -⟩ := ok
  obtain ⟨rfl, rfl⟩ := Prod.mk.inj (Option.some.inj claimed)
  refine ⟨rfl, ?_, ?_, ?_⟩
  · rw [idsOf]
    exact nodup
  · have := congrArg List.length idsOf
    rw [List.length_map] at this
    omega
  · intro tx htx
    obtain ⟨id, hid, hf⟩ := List.mem_filterMap.mp htx
    obtain ⟨r, hr, rfl⟩ := Option.map_eq_some_iff.mp hf
    obtain ⟨mem, same⟩ := Table.find_some hr
    obtain ⟨hrow, candidate⟩ := List.mem_filter.mp mem
    exact ⟨r, hrow, by simp [candidate, same, hid], rfl⟩

end RailsCore
