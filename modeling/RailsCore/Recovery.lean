import Mathlib.Algebra.Order.BigOperators.Group.List
import Mathlib.Algebra.Order.Group.Nat
import RailsCore.Confirmations
import RailsCore.PostableIntents
import RailsCore.SoloPosts

/-!
# Recovery

A stored intent is never out of reach. Whatever has happened to a row that is
pending or posting, there is a way on in which no client takes part and no
message is lost: the ledger's sessions end, the clock passes the leases, and one
new worker polls until the row is in its batch. Every poll claims what its query
picks, the oldest due rows up to the limit, so that the worker may meet any
number of rows before ours; here the posts of all of these fail. What bounds the
wait is what bounds the retries: a claim takes an attempt from each of its rows,
and a row without attempts is given up. What is asked of our row is what the
ledger checks of every message: a currency code, a key that is not blank, two
accounts, and an amount and balances within their columns.
-/

namespace RailsCore
open TransactionRepository

/-- How the query of a claim picks its batch where no other session holds a lock:
the due rows, oldest first, up to the limit. The order in which the statement
returns them is its own. -/
structure Candidates where
  ids : Nat → List Transaction → List Uuid
  picks : ∀ now rows, ∃ ordered : List Transaction,
    ordered.Perm (rows.filter (IsCandidate now 2)) ∧
      ordered.Pairwise (fun a b => a.createdAt ≤ b.createdAt) ∧
      (ids now rows).Perm ((ordered.take 200).map Transaction.id)

/-- No client and no reconciler takes part, a poll claims by the query, and no
worker, write or message is lost. -/
def System.Unattended (query : Candidates) (s : System) : SystemAction → Prop
  | .accounts (.tick _) | .accounts .startWorker | .accounts (.worker _ .go)
  | .accounts (.worker _ (.reply _)) | .deliver _ | .statement _ | .fail _ _ => True
  | .accounts (.worker _ (.claimed ids)) =>
    ids = query.ids s.accounts.now s.accounts.transactions
  | _ => False

/-- The posts that a row has left when every one of them fails. -/
def Transaction.attemptsLeft (settings : Settings) (tx : Transaction) : Nat :=
  match tx.status with
  | .pending => max (settings.retryMaxAttempts - tx.retryCount).toNat 1
  | .posting => (settings.retryMaxAttempts - tx.retryCount).toNat
  | .posted | .failed => 0

def attemptsLeft (settings : Settings) (rows : List Transaction) : Nat :=
  (rows.map (Transaction.attemptsLeft settings)).sum

/-- What a row needs in order to be posted. -/
structure Transaction.Admissible (tx : Transaction) : Prop where
  live : tx.status = .pending ∨ tx.status = .posting
  key : isBlank tx.idempotencyKey = false
  currency : isCurrencyCode (stripUpcase tx.currency) = true
  apart : ¬ (tx.transactionKind = .transfer ∧ tx.fromAccountId = tx.toAccountId)

/-- The amount, and the balances of both accounts after the movement, are within their columns. -/
def Ledger.HasRoom (db : Ledger) (movement : Movement) : Prop :=
  InBigint movement.amount ∧ InBigint (db.getBalance movement.source + movement.amount) ∧
    InBigint (db.getBalance movement.destination - movement.amount)

instance (db : Ledger) (movement : Movement) : Decidable (db.HasRoom movement) :=
  inferInstanceAs (Decidable (_ ∧ _))

theorem Uuid.isBlank_toString (u : Uuid) : isBlank u.toString = false := by
  have head := List.mem_of_head? u.toString_head
  rw [isBlank, List.all_eq_false]
  have visible : ∀ d : BitVec 4, isBlankChar (hexDigit d) = false := by decide
  exact ⟨_, head, by simp [Uuid.digit, visible]⟩

namespace TransactionRetry

theorem externals_named (tx : Transaction) :
    isBlank (sourceExternal tx) = false ∧ isBlank (destExternal tx) = false := by
  have cash : isBlank systemCashControl = false := by decide
  cases kind : tx.transactionKind <;>
    simp [sourceExternal, destExternal, kind, Uuid.isBlank_toString, cash]

/-- Every row moves money between customers and the cash account. -/
theorem betweenCustomers (tx : Transaction) :
    LedgerPoster.BetweenCustomers (sourceExternal tx) (destExternal tx) := by
  cases kind : tx.transactionKind <;> simp only [sourceExternal, destExternal, kind]
  · exact (LedgerPoster.betweenCustomers tx.fromAccountId _).1
  · exact (LedgerPoster.betweenCustomers _ tx.toAccountId).2.1
  · exact (LedgerPoster.betweenCustomers _ _).2.2

end TransactionRetry

namespace Candidates

variable {now : Nat} {rows : List Transaction}

def older (a b : Transaction) : Bool := a.createdAt ≤ b.createdAt

/-- The query where the statement returns the rows in the order of their creation. -/
def oldestFirst : Candidates where
  ids now rows := (((rows.filter (IsCandidate now 2)).mergeSort older).take 200).map Transaction.id
  picks now rows := by
    refine ⟨_, List.mergeSort_perm _ _, ?_, .refl _⟩
    have sorted : ((rows.filter (IsCandidate now 2)).mergeSort older).Pairwise
        (fun a b => older a b = true) := by
      refine List.pairwise_mergeSort (fun a b c ab bc => ?_) (fun a b => ?_) _
      · exact decide_eq_true (Nat.le_trans (of_decide_eq_true ab) (of_decide_eq_true bc))
      · simpa [older] using Nat.le_total a.createdAt b.createdAt
    exact sorted.imp fun le => of_decide_eq_true le

theorem due (query : Candidates) {id : Uuid} (picked : id ∈ query.ids now rows) :
    ∃ r ∈ rows, IsCandidate now 2 r = true ∧ r.id = id := by
  obtain ⟨ordered, same, -, ids⟩ := query.picks now rows
  obtain ⟨r, taken, own⟩ := List.mem_map.mp (ids.mem_iff.mp picked)
  obtain ⟨stored, candidate⟩ :=
    List.mem_filter.mp (same.mem_iff.mp (List.mem_of_mem_take taken))
  exact ⟨r, stored, candidate, own⟩

theorem ids_ne_nil (query : Candidates) {r : Transaction} (stored : r ∈ rows)
    (candidate : IsCandidate now 2 r = true) : query.ids now rows ≠ [] := by
  obtain ⟨ordered, same, -, ids⟩ := query.picks now rows
  intro none_
  rw [none_] at ids
  have empty := List.map_eq_nil_iff.mp ids.nil_eq.symm
  have listed := same.mem_iff.mpr (List.mem_filter.mpr ⟨stored, candidate⟩)
  rw [List.take_eq_nil_iff] at empty
  rcases empty with zero | nil
  · cases zero
  · rw [nil] at listed
    exact absurd listed List.not_mem_nil

/-- What the query picks, the claim takes. -/
theorem claims (query : Candidates) (now : Nat) (unique : Table.Unique Transaction.id rows) :
    ∃ batch, claimPendingTransactions now 2 200 (query.ids now rows) rows =
      some (Table.updateWhere (fun r => IsCandidate now 2 r && r.id ∈ query.ids now rows)
        (claimedForRetry now) rows, batch) := by
  have pick : (query.ids now rows).length ≤ 200 ∧ (query.ids now rows).Nodup ∧
      ∀ id ∈ query.ids now rows, id ∈ (rows.filter (IsCandidate now 2)).map Transaction.id := by
    obtain ⟨ordered, same, -, ids⟩ := query.picks now rows
    refine ⟨?_, ?_, fun id picked => ?_⟩
    · rw [ids.length_eq, List.length_map]
      exact List.length_take_le 200 ordered
    · have whole : (ordered.map Transaction.id).Nodup :=
        ((same.map _).nodup_iff).mpr (unique.sublist (List.filter_sublist.map _))
      exact ids.nodup_iff.mpr (whole.sublist ((List.take_sublist 200 ordered).map _))
    · obtain ⟨r, stored, candidate, own⟩ := query.due picked
      rw [← own]
      exact List.mem_map_of_mem (List.mem_filter.mpr ⟨stored, candidate⟩)
  simp only [claimPendingTransactions, if_pos pick]
  exact ⟨_, rfl⟩

end Candidates

/-- Exactly the rows of the batch are being posted. -/
structure Exclusive (rows batch : List Transaction) : Prop where
  ids : Table.Unique Transaction.id rows
  once : (batch.map Transaction.id).Nodup
  posting : ∀ r, r ∈ batch ↔ r ∈ rows ∧ r.status = .posting

section Rows

variable {settings : Settings} {now : Nat} {rows : List Transaction}

theorem attemptsLeft_updateWhere {p : Transaction → Bool} {f : Transaction → Transaction}
    (le : ∀ r ∈ rows, p r = true → (f r).attemptsLeft settings ≤ r.attemptsLeft settings) :
    attemptsLeft settings (Table.updateWhere p f rows) ≤ attemptsLeft settings rows := by
  rw [attemptsLeft, Table.updateWhere, List.map_map]
  refine List.sum_le_sum fun r stored => ?_
  by_cases taken : p r = true
  · simpa [taken] using le r stored taken
  · simp [taken]

theorem attemptsLeft_claimed {r : Transaction} (pending : r.status = .pending) :
    (claimedForRetry now r).attemptsLeft settings < r.attemptsLeft settings := by
  simp only [Transaction.attemptsLeft, claimedForRetry, pending]
  omega

/-- A poll takes an attempt from a row. -/
theorem attemptsLeft_claim {p : Transaction → Bool}
    (pending : ∀ r ∈ rows, p r = true → r.status = .pending) (some_ : ∃ r ∈ rows, p r = true) :
    attemptsLeft settings (Table.updateWhere p (claimedForRetry now) rows) <
      attemptsLeft settings rows := by
  rw [attemptsLeft, Table.updateWhere, List.map_map]
  refine List.sum_lt_sum _ _ (fun r stored => ?_) ?_
  · by_cases taken : p r = true
    · simpa [taken] using Nat.le_of_lt (attemptsLeft_claimed (pending r stored taken))
    · simp [taken]
  · obtain ⟨r, stored, taken⟩ := some_
    exact ⟨r, stored, by simpa [taken] using attemptsLeft_claimed (pending r stored taken)⟩

/-- The write after a post that failed: the row waits for its next attempt, or is given up. -/
theorem settled_error (settings : Settings) (now : Nat) (b : Transaction) (e : AppError)
    (rows : List Transaction) : ∃ f status, Stamps now f status ∧ status ≠ .posting ∧
      Worker.settled settings now b (.error e) rows =
        Table.updateWhere (fun r => r.id = b.id) f rows ∧
      (b.status = .posting → (f b).attemptsLeft settings ≤ b.attemptsLeft settings) := by
  rw [Worker.settled]
  by_cases spent : settings.retryMaxAttempts ≤ b.retryCount
  · refine ⟨_, _, stamps_withTerminalFailure now e.display, by simp, if_pos spent, fun _ => ?_⟩
    exact Nat.zero_le _
  · refine ⟨_, _, stamps_withRetry now e.display _, by simp, if_neg spent, fun posting => ?_⟩
    simp only [Transaction.attemptsLeft, withRetry, posting]
    omega

namespace Exclusive

variable {batch rest : List Transaction} {b : Transaction}

/-- A claim where nothing is being posted: its batch is all that is. -/
theorem claim {ids : List Uuid} {rows' : List Transaction} (exclusive : Exclusive rows [])
    (claimed : claimPendingTransactions now 2 200 ids rows = some (rows', batch)) :
    Exclusive rows' batch := by
  obtain ⟨rfl, once, -, made⟩ := claim_batch claimed
  have picked := claim_ids claimed
  have unique : Table.Unique Transaction.id (Table.updateWhere
      (fun r => IsCandidate now 2 r && r.id ∈ ids) (claimedForRetry now) rows) :=
    exclusive.ids.updateWhere fun _ => rfl
  have listed : ∀ r ∈ batch, r ∈ Table.updateWhere
      (fun r => IsCandidate now 2 r && r.id ∈ ids) (claimedForRetry now) rows := by
    intro r hr
    obtain ⟨old, stored, taken, rfl⟩ := made r hr
    exact Table.mem_updateWhere.mpr ⟨old, stored, (if_pos taken).symm⟩
  refine ⟨unique, once, fun r => ⟨fun hr => ⟨listed r hr, ?_⟩, ?_⟩⟩
  · obtain ⟨old, -, -, rfl⟩ := made r hr
    rfl
  · rintro ⟨stored, posting⟩
    obtain ⟨old, before, same⟩ := Table.mem_updateWhere.mp stored
    by_cases taken : (IsCandidate now 2 old && decide (old.id ∈ ids)) = true
    · have own : r.id ∈ batch.map Transaction.id := by
        rw [picked, same, if_pos taken]
        exact of_decide_eq_true (Bool.and_eq_true _ _ ▸ taken).2
      obtain ⟨other, held, named⟩ := List.mem_map.mp own
      rwa [unique.eq stored (listed other held) named.symm]
    · rw [if_neg taken] at same
      subst same
      exact absurd ((exclusive.posting r).mpr ⟨before, posting⟩) List.not_mem_nil

/-- Nothing is being posted, so the reclaim of a poll finds nothing. -/
theorem reclaim (exclusive : Exclusive rows []) (now : Nat) (secs : Int) :
    reclaimStalePostingRows now secs rows = rows := by
  refine (List.map_congr_left fun r stored => ?_).trans (List.map_id rows)
  have calm : r.status ≠ .posting := fun posting =>
    absurd ((exclusive.posting r).mpr ⟨stored, posting⟩) List.not_mem_nil
  simp [IsStalePosting, calm]

/-- When every lease has passed, the reclaim leaves nothing in `posting`. -/
theorem of_reclaim (ids : Table.Unique Transaction.id rows)
    (leases : ∀ r ∈ rows, r.updatedAt + settings.leaseMs < now) :
    Exclusive (reclaimStalePostingRows now settings.stalePostingSecs rows) [] := by
  refine ⟨ids.updateWhere fun _ => rfl, List.nodup_nil, fun r => ⟨fun h => ?_, ?_⟩⟩
  · exact absurd h List.not_mem_nil
  · rintro ⟨stored, posting⟩
    obtain ⟨old, before, rfl⟩ := Table.mem_updateWhere.mp stored
    have passed := leases old before
    by_cases was : old.status = .posting
    · have stale : IsStalePosting now settings.stalePostingSecs old = true := by
        simp only [IsStalePosting, was, Bool.and_eq_true, decide_eq_true_eq, true_and]
        exact passed
      rw [if_pos stale] at posting
      cases posting
    · rw [if_neg (by simp [IsStalePosting, was])] at posting
      exact absurd posting was

/-- The step lemma: a row of the batch whose post failed. -/
theorem settled_error (settings : Settings) (now : Nat) (exclusive : Exclusive rows (b :: rest))
    (e : AppError) :
    Exclusive (Worker.settled settings now b (.error e) rows) rest ∧
      attemptsLeft settings (Worker.settled settings now b (.error e) rows) ≤
        attemptsLeft settings rows ∧
      ∀ r ∈ rows, r.id ≠ b.id → r ∈ Worker.settled settings now b (.error e) rows := by
  obtain ⟨ids, once, posting⟩ := exclusive
  rw [List.map_cons, List.nodup_cons] at once
  obtain ⟨stored, being⟩ := (posting b).mp List.mem_cons_self
  obtain ⟨f, status, stamps, calm, write, left⟩ := RailsCore.settled_error settings now b e rows
  rw [write]
  have kept : ∀ r ∈ rows, r.id ≠ b.id →
      r ∈ Table.updateWhere (fun r => r.id = b.id) f rows := fun r hr other =>
    Table.mem_updateWhere.mpr ⟨r, hr, (if_neg (by simpa using other)).symm⟩
  refine ⟨⟨ids.updateWhere fun r => Transaction.id_of_intent (stamps.intent r), once.2,
    fun r => ⟨fun held => ?_, ?_⟩⟩, ?_, kept⟩
  · obtain ⟨old, also⟩ := (posting r).mp (List.mem_cons_of_mem b held)
    refine ⟨kept r old fun same => once.1 ?_, also⟩
    rw [← same]
    exact List.mem_map_of_mem held
  · rintro ⟨after, also⟩
    obtain ⟨old, before, rfl⟩ := Table.mem_updateWhere.mp after
    by_cases own : old.id = b.id
    · rw [if_pos (decide_eq_true own), stamps.status] at also
      exact absurd also calm
    · rw [if_neg (by simpa using own)] at also ⊢
      refine (List.mem_cons.mp ((posting old).mpr ⟨before, also⟩)).resolve_left ?_
      rintro rfl
      exact own rfl
  · refine attemptsLeft_updateWhere fun r before own => ?_
    rw [ids.eq before stored (of_decide_eq_true own)]
    exact left being

end Exclusive

end Rows

namespace AccountsService

variable {settings : Settings} {s t : AccountsService} {query : Candidates}

/-- What a worker does where its posts are not answered in time. -/
def Polling (query : Candidates) (s : AccountsService) : AccountsAction → Prop
  | .tick _ | .startWorker | .worker _ .go | .worker _ (.reply (.error _)) => True
  | .worker _ (.claimed ids) => ids = query.ids s.now s.transactions
  | _ => False

/-- One more worker, at a later time and over these rows. -/
def beside (s : AccountsService) (now : Nat) (rows : List Transaction) (w : Worker) :
    AccountsService :=
  { s with now, transactions := rows, workers := s.workers ++ [w] }

theorem step_beside {now : Nat} {rows rows' : List Transaction} {w w' : Worker}
    {input : WorkerInput} {message : Option PostTransactionRequest}
    (next : w.next settings now s.sent.length s.accounts rows input =
      some (rows', w', message)) :
    (s.beside now rows w).step settings (.worker s.workers.length input) =
      some ({ s with sent := s.sent ++ message.toList }.beside now rows' w') := by
  have at_ : (s.beside now rows w).workers[s.workers.length]? = some w := by simp [beside]
  rw [step, at_]
  simp only [Option.bind_eq_bind, Option.bind_some, beside, next, afterWorker, List.set_append,
    Nat.lt_irrefl, if_false, Nat.sub_self, List.set_cons_zero]

/-- A step of the new worker that sends nothing. -/
theorem step_quiet {now : Nat} {rows rows' : List Transaction} {w w' : Worker}
    {input : WorkerInput}
    (next : w.next settings now s.sent.length s.accounts rows input = some (rows', w', none)) :
    (s.beside now rows w).step settings (.worker s.workers.length input) =
      some (s.beside now rows' w') := by
  rw [step_beside next, Option.toList, List.append_nil]

theorem next_sends {now call : Nat} {accounts : List Account} {rows rest : List Transaction}
    {b : Transaction} {environment : Environment}
    (resolved : TransactionRetry.resolveEnvironment accounts b = .ok environment) :
    (⟨.working, b :: rest⟩ : Worker).next settings now call accounts rows .go =
      some (rows, ⟨.awaiting call now, b :: rest⟩,
        some (TransactionRetry.postRequest environment b)) := by
  simp only [Worker.next, resolved]

/-- A row of the batch is sent, its post is not answered in time, and the failure is written. -/
theorem passes (query : Candidates) {now : Nat} {rows rest : List Transaction} {b : Transaction}
    {environment : Environment}
    (resolved : TransactionRetry.resolveEnvironment s.accounts b = .ok environment)
    (e : AppError) :
    Machine.Leads (step settings) (Polling query) (s.beside now rows ⟨.working, b :: rest⟩)
      ({ s with sent := s.sent ++ [TransactionRetry.postRequest environment b] }.beside now
        (Worker.settled settings now b (.error e) rows) (Worker.on rest)) := by
  have sends : Machine.Leads (step settings) (Polling query)
      (s.beside now rows ⟨.working, b :: rest⟩) _ :=
    .one (a := .worker s.workers.length .go) trivial (step_beside (next_sends resolved))
  have refused := sends.next (a := AccountsAction.worker s.workers.length (.reply (.error e)))
    trivial (step_quiet rfl)
  exact refused.next (a := AccountsAction.worker s.workers.length .go) trivial (step_quiet rfl)

/-- The run lemma: the posts of all rows before a row of the batch fail. -/
theorem clears (query : Candidates) (now : Nat) (front rest : List Transaction) :
    ∀ {s : AccountsService} {rows : List Transaction}, Exclusive rows (front ++ rest) →
      (∀ b ∈ front, ∃ environment,
        TransactionRetry.resolveEnvironment s.accounts b = .ok environment) →
      ∃ sent rows', Machine.Leads (step settings) (Polling query)
          (s.beside now rows (Worker.on (front ++ rest)))
          ({ s with sent }.beside now rows' (Worker.on rest)) ∧
        Exclusive rows' rest ∧ attemptsLeft settings rows' ≤ attemptsLeft settings rows ∧
        ∀ r ∈ rows, (∀ b ∈ front, r.id ≠ b.id) → r ∈ rows' := by
  induction front with
  | nil => exact fun exclusive _ => ⟨_, _, .refl, exclusive, Nat.le_refl _, fun r hr _ => hr⟩
  | cons b front ih =>
    intro s rows exclusive resolves
    obtain ⟨environment, resolved⟩ := resolves b List.mem_cons_self
    let e : AppError := .internal "deadline exceeded"
    obtain ⟨exclusive', fewer, kept⟩ := Exclusive.settled_error settings now exclusive e
    obtain ⟨sent, rows', leads, exclusive'', fewer', kept'⟩ := ih
      (s := { s with sent := s.sent ++ [TransactionRetry.postRequest environment b] })
      exclusive' fun c hc => resolves c (List.mem_cons_of_mem b hc)
    refine ⟨sent, rows', (passes query resolved e).trans leads, exclusive'',
      Nat.le_trans fewer' fewer, fun r hr others => ?_⟩
    exact kept' r (kept r hr (others b List.mem_cons_self)) fun c hc =>
      others c (List.mem_cons_of_mem b hc)

/-- Every row that a worker holds has an environment. -/
theorem Sound.resolves (sound : s.Sound) {w : Worker} (hw : w ∈ s.workers) {b : Transaction}
    (held : b ∈ w.batch) :
    ∃ environment, TransactionRetry.resolveEnvironment s.accounts b = .ok environment := by
  obtain ⟨r, hr, same⟩ := sound.known w hw b held
  obtain ⟨h, -, ctx, -, made⟩ := sound.made r hr
  exact ⟨_, resolveEnvironment_made made same⟩

theorem candidate_later {now later : Nat} {r : Transaction} (candidate : IsCandidate now 2 r = true)
    (le : now ≤ later) : IsCandidate later 2 r = true := by
  simp only [IsCandidate, Bool.and_eq_true, decide_eq_true_eq, Option.all_eq_true] at candidate ⊢
  exact ⟨⟨candidate.1.1, Nat.lt_of_lt_of_le candidate.1.2 le⟩,
    fun next here => Nat.le_trans (candidate.2 next here) le⟩

/-- A poll claims what its query picks, and this takes an attempt from each row of the batch. -/
theorem polls (settings : Settings) (query : Candidates) {now : Nat} {rows : List Transaction}
    (exclusive : Exclusive rows []) :
    ∃ batch rows', Machine.Leads (step settings) (Polling query)
        (s.beside now rows ⟨.claiming, []⟩) (s.beside now rows' (Worker.on batch)) ∧
      Exclusive rows' batch ∧ batch.map Transaction.id = query.ids now rows ∧
      (∀ r ∈ rows, IsCandidate now 2 r = true →
        attemptsLeft settings rows' < attemptsLeft settings rows ∧
        if r.id ∈ query.ids now rows then claimedForRetry now r ∈ batch else r ∈ rows') := by
  obtain ⟨batch, claimed⟩ := query.claims now exclusive.ids
  refine ⟨batch, _, ?_, exclusive.claim claimed, claim_ids claimed,
    fun r stored candidate => ⟨?_, ?_⟩⟩
  · refine .one (a := .worker s.workers.length (.claimed (query.ids now rows))) rfl (step_quiet ?_)
    simp only [Worker.next, claimed, Option.map_some]
  · refine attemptsLeft_claim (fun x _ taken => ?_) ?_
    · simp only [IsCandidate, Bool.and_eq_true, decide_eq_true_eq] at taken
      exact taken.1.1.1
    · obtain ⟨id, listed⟩ := List.exists_mem_of_ne_nil _ (query.ids_ne_nil stored candidate)
      obtain ⟨x, hx, due, rfl⟩ := query.due listed
      exact ⟨x, hx, by simp [due, listed]⟩
  · split
    · rename_i ours
      refine ((exclusive.claim claimed).posting _).mpr
        ⟨Table.mem_updateWhere.mpr ⟨r, stored, ?_⟩, rfl⟩
      simp [candidate, ours]
    · rename_i others
      exact Table.mem_updateWhere.mpr ⟨r, stored, by simp [others]⟩

/-- An idle worker polls again after its sleep. -/
theorem sleeps (settings : Settings) (query : Candidates) {now : Nat} {rows : List Transaction}
    (exclusive : Exclusive rows []) :
    Machine.Leads (step settings) (Polling query) (s.beside now rows .idle)
      (s.beside (now + 3000) rows ⟨.claiming, []⟩) := by
  have poll : Worker.idle.next settings (now + 3000) s.sent.length s.accounts rows .go =
      some (rows, ⟨.claiming, []⟩, none) := by
    show some (reclaimStalePostingRows (now + 3000) settings.stalePostingSecs rows, _, _) = _
    rw [exclusive.reclaim]
  exact (Machine.Leads.one (a := .tick 3000) trivial rfl).next
    (a := AccountsAction.worker s.workers.length .go) trivial (step_quiet poll)

/-- Poll by poll, the new worker comes to a row that is due. The induction is on
the attempts that are left: a batch without the row takes some of them. -/
theorem reaches (query : Candidates) (tx : Transaction) (n : Nat) :
    ∀ {s : AccountsService} {now : Nat} {rows : List Transaction} {r : Transaction},
      (s.beside now rows ⟨.claiming, []⟩).Sound → Exclusive rows [] →
      r ∈ rows → r.intent = tx.intent → IsCandidate now 2 r = true →
      attemptsLeft settings rows = n →
      ∃ sent now' rows' b rest, Machine.Leads (step settings) (Polling query)
          (s.beside now rows ⟨.claiming, []⟩)
          ({ s with sent }.beside now' rows' ⟨.working, b :: rest⟩) ∧
        b.intent = tx.intent ∧ b ∈ rows' := by
  induction n using Nat.strongRecOn with
  | ind n ih =>
    intro s now rows r sound exclusive stored same candidate count
    obtain ⟨batch, rows₁, polled, exclusive₁, picked, claimed⟩ := polls settings query exclusive
    obtain ⟨attempted, claimed⟩ := claimed r stored candidate
    have sound₁ := polled.invariant (fun _ _ _ sound moved => sound.step moved) sound
    have resolves : ∀ b ∈ batch, ∃ environment,
        TransactionRetry.resolveEnvironment s.accounts b = .ok environment := fun b held =>
      sound₁.resolves (w := Worker.on batch) (by simp [beside]) held
    by_cases ours : r.id ∈ query.ids now rows
    · -- the row is in this batch, behind others
      rw [if_pos ours] at claimed
      obtain ⟨front, rest, rfl⟩ := List.append_of_mem claimed
      obtain ⟨sent, rows', leads, exclusive', -, -⟩ :=
        clears query now front (claimedForRetry now r :: rest) exclusive₁
          fun b hb => resolves b (List.mem_append_left _ hb)
      exact ⟨sent, now, rows', claimedForRetry now r, rest, polled.trans leads, same,
        ((exclusive'.posting _).mp List.mem_cons_self).1⟩
    · -- the posts of this batch fail, and the worker polls again
      rw [if_neg ours] at claimed
      obtain ⟨sent, rows', leads, exclusive', fewer, kept⟩ :=
        clears query now batch [] (by rwa [List.append_nil]) resolves
      rw [List.append_nil] at leads
      have stored' : r ∈ rows' := kept r claimed fun b hb own => ours <| by
        rw [← picked, own]
        exact List.mem_map_of_mem hb
      have again := (polled.trans leads).trans (sleeps settings query exclusive')
      obtain ⟨sent', now', rows'', b, rest, onward, intent, found⟩ := ih
        (attemptsLeft settings rows') (Nat.lt_of_le_of_lt fewer (count ▸ attempted))
        (again.invariant (fun _ _ _ sound moved => sound.step moved) sound) exclusive' stored' same
        (candidate_later candidate (Nat.le_add_right now 3000)) rfl
      exact ⟨sent', now', rows'', b, rest, again.trans onward, intent, found⟩

/-- After the reclaim of a poll a row whose lease and delay have passed is a candidate. -/
theorem reclaimed (settings : Settings) (now : Nat) {rows : List Transaction} {tx : Transaction}
    (stored : tx ∈ rows)
    (live : tx.status = .pending ∨ tx.status = .posting)
    (lease : tx.updatedAt + settings.leaseMs < now) (age : tx.createdAt + 2000 < now)
    (delay : ∀ next ∈ tx.nextRetryAt, next ≤ now) :
    ∃ r ∈ reclaimStalePostingRows now settings.stalePostingSecs rows,
      r.intent = tx.intent ∧ IsCandidate now 2 r = true := by
  have due : tx.nextRetryAt.all (fun next => next ≤ now) = true := by
    cases next : tx.nextRetryAt with
    | none => rfl
    | some at_ => exact decide_eq_true (delay at_ next)
  rcases live with pending | posting
  · refine ⟨tx, Table.mem_updateWhere.mpr ⟨tx, stored, ?_⟩, rfl, ?_⟩
    · rw [if_neg (by simp [IsStalePosting, pending])]
    · simp [IsCandidate, pending, due, intervalMs, age]
  · have stale : IsStalePosting now settings.stalePostingSecs tx = true := by
      simp only [IsStalePosting, posting, Bool.and_eq_true, decide_eq_true_eq, true_and]
      exact lease
    refine ⟨_, Table.mem_updateWhere.mpr ⟨tx, stored, (if_pos stale).symm⟩, rfl, ?_⟩
    simp [IsCandidate, requeued, due, intervalMs, age]

/-- A new worker begins its first poll when every lease has passed. -/
theorem starts (settings : Settings) (query : Candidates) (sound : s.Sound) {tx : Transaction}
    (stored : tx ∈ s.transactions) (live : tx.status = .pending ∨ tx.status = .posting) :
    ∃ now rows r, Machine.Leads (step settings) (Polling query) s
        (s.beside now rows ⟨.claiming, []⟩) ∧ Exclusive rows [] ∧
      r ∈ rows ∧ r.intent = tx.intent ∧ IsCandidate now 2 r = true := by
  let ms := (s.transactions.map Transaction.updatedAt).sum + settings.leaseMs + tx.createdAt +
    2001 + tx.nextRetryAt.getD 0
  have leases : ∀ r ∈ s.transactions, r.updatedAt + settings.leaseMs < s.now + ms := by
    intro r hr
    have := List.single_le_sum (fun _ _ => Nat.zero_le _) _
      (List.mem_map_of_mem (f := Transaction.updatedAt) hr)
    omega
  have due : ∀ next ∈ tx.nextRetryAt, next ≤ s.now + ms := by
    intro next here
    rw [Option.mem_def] at here
    simp only [ms, here, Option.getD_some]
    omega
  obtain ⟨r, listed, same, candidate⟩ :=
    reclaimed settings (s.now + ms) stored live (leases tx stored) (by omega) due
  have begun : Machine.Leads (step settings) (Polling query) s
      (s.beside (s.now + ms) s.transactions .idle) :=
    (Machine.Leads.one (a := .tick ms) trivial rfl).next (a := AccountsAction.startWorker)
      trivial rfl
  exact ⟨_, _, r, begun.next (a := AccountsAction.worker s.workers.length .go) trivial
    (step_quiet rfl), Exclusive.of_reclaim sound.ids leases, listed, same, candidate⟩

/-- A new worker comes to a row that is pending or posting. -/
theorem works (settings : Settings) (query : Candidates) (sound : s.Sound) {tx : Transaction}
    (stored : tx ∈ s.transactions) (live : tx.status = .pending ∨ tx.status = .posting) :
    ∃ sent now rows b rest, Machine.Leads (step settings) (Polling query) s
        ({ s with sent }.beside now rows ⟨.working, b :: rest⟩) ∧
      b.intent = tx.intent ∧ b ∈ rows := by
  obtain ⟨now, rows, r, begun, exclusive, listed, same, candidate⟩ :=
    starts settings query sound stored live
  obtain ⟨sent, now', rows', b, rest, reached, found⟩ := reaches query tx _
    (begun.invariant (fun _ _ _ sound moved => sound.step moved) sound) exclusive listed same
    candidate rfl
  exact ⟨sent, now', rows', b, rest, begun.trans reached, found⟩

/-- A worker that was told of its success marks its row. -/
theorem settles (settings : Settings) (now call : Nat) (accounts : List Account)
    (rest : List Transaction) {rows : List Transaction} {b : Transaction} (stored : b ∈ rows) :
    ∃ rows', (⟨.settle (.ok ()), b :: rest⟩ : Worker).next settings now call accounts rows .go =
        some (rows', Worker.on rest, none) ∧
      ∃ r ∈ rows', r.intent = b.intent ∧ r.status = .posted :=
  ⟨_, rfl, _, Table.mem_updateWhere.mpr ⟨b, stored, (if_pos (decide_eq_true rfl)).symm⟩, rfl, rfl⟩

end AccountsService

namespace System

variable {settings : Settings} {s t : System} {query : Candidates}

theorem Sound.leads (sound : s.Sound)
    (leads : Machine.Leads (System.step settings) (Unattended query) s t) : t.Sound :=
  leads.invariant (fun _ _ _ sound moved => sound.step moved) sound

/-- Steps of the ledger alone move the system. -/
theorem leads_ledger {bs : List LedgerAction} {ledger : LedgerService}
    (running : ∀ b ∈ bs, (∃ i, b = .statement i) ∨ ∃ i e, b = .fail i e)
    (run : Machine.run LedgerService.step s.ledger bs = some ledger) :
    Machine.Leads (step settings) (Unattended query) s { s with ledger } := by
  induction bs generalizing s with
  | nil =>
    cases run
    exact .refl
  | cons b bs ih =>
    obtain ⟨m, moved, later⟩ := Machine.run_cons run
    have first : Machine.Leads (step settings) (Unattended query) s { s with ledger := m } := by
      rcases running b List.mem_cons_self with ⟨i, rfl⟩ | ⟨i, e, rfl⟩
      · exact .one (a := .statement i) trivial (by rw [step, moved]; rfl)
      · exact .one (a := .fail i e) trivial (by rw [step, moved]; rfl)
    exact first.trans (ih (s := { s with ledger := m })
      (fun b hb => running b (List.mem_cons_of_mem _ hb)) later)

/-- A step of the accounts service moves the system, and what it sends is on its way. -/
theorem step_accounts {a : AccountsAction} {accounts : AccountsService}
    (answered : s.Answered settings a) (moved : s.accounts.step settings a = some accounts) :
    ∃ t, s.step settings (.accounts a) = some t ∧ t.accounts = accounts ∧
      t.ledger = s.ledger ∧ ∀ c, c ∈ s.inFlight ∨
        s.accounts.sent.length ≤ c ∧ c < accounts.sent.length → c ∈ t.inFlight := by
  refine ⟨⟨accounts, s.ledger, s.inFlight ++ List.range' s.accounts.sent.length
    (accounts.sent.length - s.accounts.sent.length), s.origin,
    s.checks ++ (s.passed settings a).toList⟩, ?_, rfl, rfl, fun c here => ?_⟩
  · rw [step, if_pos answered, moved]
    rfl
  · rcases here with old | ⟨from_, below⟩
    · exact List.mem_append_left _ old
    · refine List.mem_append_right _ (List.mem_range'_1.mpr ⟨from_, ?_⟩)
      omega

/-- What the worker does waits for no answer of the ledger. -/
theorem unattended_of_polling (settings : Settings) {a : AccountsAction}
    (polling : s.accounts.Polling query a) :
    s.Unattended query (.accounts a) ∧ s.Answered settings a := by
  cases a with
  | tick | startWorker => exact ⟨trivial, trivial⟩
  | worker i input =>
    cases input with
    | go => exact ⟨trivial, trivial⟩
    | claimed ids => exact ⟨polling, trivial⟩
    | reply answer =>
      cases answer with
      | ok => cases polling
      | error e => exact ⟨trivial, trivial⟩
    | writeLost | crash => cases polling
  | _ => cases polling

/-- Steps of the accounts service that wait for no answer. -/
theorem leads_accounts {accounts : AccountsService}
    (leads : Machine.Leads (AccountsService.step settings) (AccountsService.Polling query)
      s.accounts accounts) :
    ∃ t, Machine.Leads (step settings) (Unattended query) s t ∧ t.accounts = accounts ∧
      t.ledger = s.ledger := by
  induction leads with
  | refl => exact ⟨s, .refl, rfl, rfl⟩
  | tail _ last ih =>
    obtain ⟨m, first, rfl, ledger⟩ := ih
    obtain ⟨a, polling, moved⟩ := last
    obtain ⟨unattended, answered⟩ := unattended_of_polling settings polling
    obtain ⟨t, stepped, same, ledger', -⟩ := step_accounts answered moved
    exact ⟨t, first.next unattended stepped, same, ledger'.trans ledger⟩

/-- Every session of the ledger can end. -/
theorem ends (settings : Settings) (query : Candidates) (sound : s.Sound) :
    ∃ ledger, Machine.Leads (step settings) (Unattended query) s { s with ledger } ∧
      ledger.db = s.ledger.db ∧ ∀ c ∈ ledger.calls, c.writes = [] := by
  obtain ⟨is, ledger, run, db, length, ended⟩ :=
    LedgerService.drained (s := s.ledger) ⟨"session closed"⟩ _ (Nat.le_refl _)
  have after : ledger.Sound :=
    Machine.invariant_run (fun _ _ _ sound moved => sound.step moved) sound.ledger run
  have quiet : ledger.Quiet := by
    intro c hc
    obtain ⟨i, at_⟩ := List.mem_iff_getElem?.mp hc
    have inside : i < ledger.calls.length := (List.getElem?_eq_some_iff.mp at_).1
    exact ended i (length ▸ inside) c at_
  refine ⟨ledger, leads_ledger (fun b hb => ?_) run, db,
    fun c hc => after.writes_ended hc (quiet c hc)⟩
  obtain ⟨i, -, rfl⟩ := List.mem_map.mp hb
  exact .inr ⟨i, _, rfl⟩

/-- A message that its poster can post is posted, and its sender may be told. -/
theorem delivers (query : Candidates) (sound : s.Sound)
    (free : ∀ d ∈ s.ledger.calls, d.writes = []) {c : Nat}
    {m : PostTransactionRequest} (sent : s.accounts.sent[c]? = some m) (flying : c ∈ s.inFlight)
    (postable : LedgerService.Postable settings m) (key : isBlank m.idempotencyKey = false)
    (source : isBlank m.sourceExternalAccountId = false)
    (destination : isBlank m.destinationExternalAccountId = false)
    (between : LedgerPoster.BetweenCustomers m.sourceExternalAccountId
      m.destinationExternalAccountId)
    (room : s.Has m.key ∨ s.ledger.db.HasRoom m.movement) :
    ∃ t, Machine.Leads (step settings) (Unattended query) s t ∧
      t.accounts = s.accounts ∧ t.Posted c ∧
      (¬ s.Has m.key → t.ledger.db.Moves m.key m.movement) := by
  obtain ⟨call, p, posts, valid, passes⟩ := postable
  have of := posterOf posts valid
  have cash := LedgerPoster.validateInputs_depositsFromCash valid
  have ownKey : p.idempotencyKey = m.idempotencyKey := congrArg IdempotencyKey.idempotencyKey of.key
  have ownSource : p.sourceExternalAccountId = m.sourceExternalAccountId :=
    congrArg LedgerAccountId.externalAccountId of.source
  have ownDestination : p.destinationExternalAccountId = m.destinationExternalAccountId :=
    congrArg LedgerAccountId.externalAccountId of.destination
  have complete : p.Complete := ⟨ownKey ▸ key, ownSource ▸ source, ownDestination ▸ destination,
    (LedgerService.validateAccountTypes_iff of.notDeposit).mp passes,
    by rw [ownSource, ownDestination]; exact between⟩
  have missing : ∀ {key}, s.ledger.db.transaction key = none → ¬ s.Has key := by
    rintro key none_ ⟨x, hx, same⟩
    exact Table.find_none_iff.mp none_ x hx same
  have fits : s.ledger.db.transaction p.key = none → p.Room s.ledger.db := by
    intro none_
    obtain ⟨amount, debit, credit⟩ := room.resolve_left (missing (of.key ▸ none_))
    rw [← of.amount] at amount
    rw [← of.source, ← of.amount] at debit
    rw [← of.destination, ← of.amount] at credit
    exact ⟨amount, debit, credit⟩
  obtain ⟨n, now, run, recorded⟩ :=
    LedgerService.posts_alone free sound.ledger.tables cash complete fits
  let u : System := ⟨s.accounts, LedgerService.beside s.ledger.db s.ledger.calls (Call.start p),
    s.inFlight.erase c, s.origin ++ [c], s.checks⟩
  have arrived : s.step settings (.deliver c) = some u := by
    simp [step, sent, flying, posts, receive, LedgerService.step, valid, u, LedgerService.beside]
  have posted : Machine.Leads (step settings) (Unattended query) u { u with
      ledger := LedgerService.beside now s.ledger.calls ⟨p, .returned, false, []⟩ } :=
    leads_ledger (fun b hb => .inl ⟨_, List.eq_of_mem_replicate hb⟩) run
  have whole := (Machine.Leads.one (P := Unattended query) (a := .deliver c) trivial arrived).trans
    posted
  refine ⟨_, whole, rfl, ?_, ?_⟩
  · refine ⟨(c, ⟨p, .returned, false, []⟩), ?_, rfl, rfl⟩
    show _ ∈ (s.origin ++ [c]).zip (s.ledger.calls ++ [_])
    rw [List.zip_append sound.origin]
    exact List.mem_append_right _ List.mem_cons_self
  · intro fresh
    have none_ : s.ledger.db.transaction p.key = none := by
      rw [of.key]
      refine Table.find_none_iff.mpr fun x hx same => fresh ⟨x, hx, same⟩
    obtain ⟨l, recorded⟩ := recorded none_
    have after := sound.leads whole
    have debits := after.debits_source (LedgerService.getElem_beside _)
      after.ledger.tables.typed recorded
    have currency : p.currency = stripUpcase m.currency := of.currency
    show now.entriesOf m.key = _
    rw [← of.key, recorded.entries, debits, LedgerPoster.sourceEntry,
      LedgerPoster.destinationEntry, LedgerPoster.entry, LedgerPoster.entry, recorded.source.1,
      recorded.destination.1, of.source, of.destination, of.amount, of.currency]
    rfl

theorem accepted_run {as : List SystemAction}
    (run : Machine.run (step settings) empty as = some s) : s.accounts.Accepted := by
  refine Machine.invariant_run (I := fun s : System => s.accounts.Accepted)
    (fun s a t accepted moved => ?_) AccountsService.accepted_empty run
  cases moved_step moved with
  | accounts answered step => exact AccountsService.Accepted.step accepted step
  | refused | arrived | lost | duplicated | ledger => exact accepted

/-- The new worker, told of its success, marks the row. -/
theorem confirms (settings : Settings) (query : Candidates) (accounts : AccountsService)
    {now : Nat} {rows rest : List Transaction} {b : Transaction} {c : Nat}
    (at_ : s.accounts = accounts.beside now rows ⟨.awaiting c now, b :: rest⟩)
    (stored : b ∈ rows) (posted : s.Posted c) :
    ∃ t, Machine.Leads (step settings) (Unattended query) s t ∧ t.ledger = s.ledger ∧
      ∃ r ∈ t.accounts.transactions, r.intent = b.intent ∧ r.status = .posted := by
  have answered : s.Answered settings
      (.worker accounts.workers.length (.reply (.ok ()))) := by
    intro w hw awaited here
    have worker : s.accounts.workers[accounts.workers.length]? =
        some ⟨.awaiting c now, b :: rest⟩ := by
      simp [at_, AccountsService.beside]
    cases worker.symm.trans hw
    cases here
    exact posted
  have told : s.accounts.step settings (.worker accounts.workers.length (.reply (.ok ()))) =
      some (accounts.beside now rows ⟨.settle (.ok ()), b :: rest⟩) := by
    rw [at_, AccountsService.step_quiet rfl]
  obtain ⟨u, first, here, ledger, -⟩ := step_accounts answered told
  obtain ⟨rows', next, marked⟩ :=
    AccountsService.settles settings now accounts.sent.length accounts.accounts rest stored
  have wrote : u.accounts.step settings (.worker accounts.workers.length .go) =
      some (accounts.beside now rows' (Worker.on rest)) := by
    rw [here, AccountsService.step_quiet next]
  have asks : u.Answered settings (.worker accounts.workers.length .go) := trivial
  obtain ⟨t, second, there, ledger', -⟩ := step_accounts asks wrote
  refine ⟨t, (Machine.Leads.one (P := Unattended query)
    (a := .accounts (.worker accounts.workers.length (.reply (.ok ())))) trivial first).next
    (a := SystemAction.accounts (.worker accounts.workers.length .go)) trivial second,
    ledger'.trans ledger, ?_⟩
  rw [there]
  exact marked

/-- From every reachable state, a row that is pending or posting and that the
ledger can post can still be posted: a run in which no client acts, every poll
claims what its query picks and no worker or message is lost leaves the row
`posted` and its key in the ledger, which then moves what the row asks for, if
it had nothing for the key before. -/
theorem intent_recoverable (settings : Settings) (query : Candidates) (as : List SystemAction)
    (s : System) (run : Machine.run (step settings) empty as = some s) (tx : Transaction)
    (stored : tx ∈ s.accounts.transactions) (admissible : tx.Admissible)
    (environment : Environment) (own : tx.environment = some environment)
    (room : s.Has tx.key ∨
      s.ledger.db.HasRoom (TransactionRetry.postRequest environment tx).movement) :
    ∃ bs t, Machine.Along (step settings) (Unattended query) s bs ∧
      Machine.run (step settings) s bs = some t ∧
      (∃ r ∈ t.accounts.transactions, r.intent = tx.intent ∧ r.status = .posted) ∧
      t.Has tx.key ∧ (¬ s.Has tx.key →
        t.ledger.db.Moves tx.key (TransactionRetry.postRequest environment tx).movement) := by
  have sound := sound_run run
  have key : (TransactionRetry.postRequest environment tx).key = tx.key := key_retryRequest own
  have same : s.accounts.SameAsRetry (TransactionRetry.postRequest environment tx) tx :=
    ⟨environment, by rw [TransactionRetry.resolveEnvironment, own], rfl⟩
  have postable := ((accepted_run run).postable_iff stored same settings).mpr
    ⟨admissible.currency, admissible.apart⟩
  -- the sessions of the ledger end
  obtain ⟨ledger, ended, db, free⟩ := ends settings query sound
  -- a new worker comes to the row
  obtain ⟨sent, now, rows, b, rest, worked, intent, listed⟩ :=
    AccountsService.works settings query sound.accounts stored admissible.live
  obtain ⟨s₁, reached, accounts₁, ledger₁⟩ := leads_accounts (s := { s with ledger }) worked
  have resolved : TransactionRetry.resolveEnvironment s.accounts.accounts b = .ok environment := by
    have environment_ : b.environment = some environment :=
      (congrArg Intent.environment intent).trans own
    rw [TransactionRetry.resolveEnvironment, environment_]
  -- and sends its message
  have sends : s₁.accounts.step settings (.worker s.accounts.workers.length .go) =
      some ({ s.accounts with
        sent := sent ++ [TransactionRetry.postRequest environment tx] }.beside now rows
        ⟨.awaiting sent.length now, b :: rest⟩) := by
    rw [accounts₁, ← retryRequest_of_intent intent environment]
    exact AccountsService.step_beside (s := { s.accounts with sent })
      (AccountsService.next_sends resolved)
  have asks : s₁.Answered settings (.worker s.accounts.workers.length .go) := trivial
  obtain ⟨s₂, taken, accounts₂, ledger₂, flying⟩ := step_accounts asks sends
  have sent₁ : s₁.accounts.sent = sent := by rw [accounts₁]; rfl
  have before := (ended.trans reached).next
    (a := SystemAction.accounts (.worker s.accounts.workers.length .go)) trivial taken
  -- which arrives and is posted
  obtain ⟨s₃, arrived, accounts₃, posted, moves⟩ := delivers query (sound.leads before)
    (by rw [ledger₂, ledger₁]; exact free) (c := sent.length)
    (by simp [accounts₂, AccountsService.beside])
    (flying _ (.inr ⟨by rw [sent₁], by simp [AccountsService.beside]⟩)) postable admissible.key
    (TransactionRetry.externals_named tx).1 (TransactionRetry.externals_named tx).2
    (TransactionRetry.betweenCustomers tx) (by
      rw [Has, Ledger.HasRoom, ledger₂, ledger₁, db, key]
      exact room)
  -- and the worker marks its row
  obtain ⟨t, marked, ledger₄, r, inside, same', status⟩ := confirms settings query
    { s.accounts with sent := sent ++ [TransactionRetry.postRequest environment tx] }
    (accounts₃.trans accounts₂) listed posted
  have whole := (before.trans arrived).trans marked
  obtain ⟨bs, along, taken⟩ := Machine.leads_iff_run.mp whole
  refine ⟨bs, t, along, taken, ⟨r, inside, same'.trans intent, status⟩, ?_, fun fresh => ?_⟩
  · have known := (sound.leads whole).posted r inside status
    rw [Transaction.key_of_intent (same'.trans intent)] at known
    exact known
  · rw [ledger₄, ← key]
    refine moves ?_
    rw [Has, ledger₂, ledger₁, db, key]
    exact fresh

/-- A deposit whose client left before its post. -/
def leftDeposit : List SystemAction :=
  onAccounts (.openAccount (AccountsService.customer ⟨7⟩) ::
    AccountsService.storedIntent 0 "a" ⟨101⟩)

theorem intent_recoverable_deposit : ∃ s tx, Machine.run (step .fromEnv) empty leftDeposit =
      some s ∧ tx ∈ s.accounts.transactions ∧ tx.status = .pending ∧
    ∃ bs t, Machine.Along (step .fromEnv) (Unattended .oldestFirst) s bs ∧
      Machine.run (step .fromEnv) s bs = some t ∧
      (∃ r ∈ t.accounts.transactions, r.intent = tx.intent ∧ r.status = .posted) ∧
      t.Has tx.key ∧ (¬ s.Has tx.key →
        t.ledger.db.Moves tx.key (TransactionRetry.postRequest .sandbox tx).movement) := by
  have evaluated : (Machine.run (step .fromEnv) empty leftDeposit).any (fun s =>
      s.accounts.transactions.any (fun tx => tx.status = .pending ∧
        isBlank tx.idempotencyKey = false ∧ isCurrencyCode (stripUpcase tx.currency) = true ∧
        tx.transactionKind ≠ .transfer ∧ tx.environment = some .sandbox ∧
        s.ledger.db.HasRoom (TransactionRetry.postRequest .sandbox tx).movement)) = true := by
    decide +kernel
  obtain ⟨s, run, evaluated⟩ := (Option.any_eq_true _ _).mp evaluated
  obtain ⟨tx, stored, evaluated⟩ := List.any_eq_true.mp evaluated
  obtain ⟨pending, key, currency, kind, own, room⟩ := of_decide_eq_true evaluated
  exact ⟨s, tx, run, stored, pending, intent_recoverable .fromEnv .oldestFirst _ s run tx
    stored
    ⟨.inl pending, key, currency, fun both => kind both.1⟩ .sandbox own (.inr room)⟩

end System

end RailsCore
