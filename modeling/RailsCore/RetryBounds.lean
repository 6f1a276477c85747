import Mathlib.Data.Int.Interval
import RailsCore.AccountsSound

/-!
# How often retry workers post a row

A claim by a retry worker raises the retry count of the row, and a worker posts
each row of its batch at most once. So the posts of one row carry different
counts, and there are no more of them than the largest count that is posted.
The limit on attempts is compared with the count only after a post has failed,
so a row whose worker crashes or whose result is lost is claimed once more.
-/

namespace RailsCore
open TransactionRepository

/-- The row that a worker posts to the ledger with this input. -/
def Worker.posting (accounts : List Account) (w : Worker) (input : WorkerInput) :
    Option Transaction :=
  match w.stage, w.batch, input with
  | .working, tx :: _, .go =>
    match TransactionRetry.resolveEnvironment accounts tx with
    | .ok _ => some tx
    | .error _ => none
  | _, _, _ => none

/-- A worker sends a message just when it posts a row. -/
theorem Worker.next_posting {settings : Settings} {now call : Nat} {accounts : List Account}
    {rows : List Transaction} {w : Worker} {input : WorkerInput} {rows' : List Transaction}
    {w' : Worker} {message : Option PostTransactionRequest}
    (step : w.next settings now call accounts rows input = some (rows', w', message)) :
    message.isSome = (w.posting accounts input).isSome := by
  obtain ⟨stage, batch⟩ := w
  by_cases crashed : input = .crash
  · subst crashed
    obtain ⟨-, -, rfl⟩ : rows = rows' ∧ Worker.idle = w' ∧ none = message := by
      simpa [Worker.next] using step
    simp [Worker.posting]
  cases stage with
  | idle =>
    cases input <;> simp [Worker.next] at step crashed
    simp [Worker.posting, ← step.2.2]
  | claiming =>
    cases input <;> simp [Worker.next] at step crashed
    obtain ⟨claim, -, -, rfl⟩ := step
    simp [Worker.posting]
  | working =>
    cases batch with
    | nil => cases input <;> simp [Worker.next] at step crashed
    | cons tx rest =>
      cases resolved : TransactionRetry.resolveEnvironment accounts tx <;>
        cases input <;> simp [Worker.next, resolved] at step crashed <;>
        simp [Worker.posting, resolved, ← step.2.2]
  | awaiting sentCall sentAt =>
    cases batch with
    | nil => cases input <;> simp [Worker.next] at step crashed
    | cons tx rest =>
      cases input <;> simp [Worker.next] at step crashed
      simp [Worker.posting, ← step.2.2]
  | settle result =>
    cases batch with
    | nil => cases input <;> simp [Worker.next] at step crashed
    | cons tx rest =>
      cases input <;> simp [Worker.next] at step crashed <;>
        simp [Worker.posting, ← step.2.2]

/-- The batch is claimed by the step: each of its rows once, and with the count
of the row raised by one. -/
structure Claimed (rows rows' batch : List Transaction) : Prop where
  once : (batch.map Transaction.id).Nodup
  raised : ∀ tx ∈ batch, ∃ r ∈ rows, r.id = tx.id ∧ tx.retryCount = r.retryCount + 1
  stored : ∀ tx ∈ batch, ∃ r' ∈ rows', r'.id = tx.id ∧ tx.retryCount ≤ r'.retryCount

theorem claimed_nil (rows rows' : List Transaction) : Claimed rows rows' [] where
  once := List.nodup_nil
  raised := fun _ listed => absurd listed List.not_mem_nil
  stored := fun _ listed => absurd listed List.not_mem_nil

theorem claimed_batch {now : Nat} {ids : List Uuid} {rows rows' batch : List Transaction}
    (claimed : claimPendingTransactions now 2 200 ids rows = some (rows', batch)) :
    Claimed rows rows' batch := by
  obtain ⟨updated, once, -, all⟩ := claim_batch claimed
  refine ⟨once, ?_, ?_⟩
  · intro tx listed
    obtain ⟨r, hr, -, rfl⟩ := all tx listed
    exact ⟨r, hr, rfl, rfl⟩
  · intro tx listed
    obtain ⟨r, hr, picked, rfl⟩ := all tx listed
    refine ⟨claimedForRetry now r, ?_, rfl, Int.le_refl _⟩
    rw [updated]
    exact Table.mem_updateWhere.mpr ⟨r, hr, by rw [if_pos picked]⟩

/-- A worker posts rows that it had still to post, and has new ones to post only
by a claim. -/
theorem Worker.next_unposted {settings : Settings} {now call : Nat} {accounts : List Account}
    {rows : List Transaction} {w : Worker} {input : WorkerInput} {rows' : List Transaction}
    {w' : Worker} {message : Option PostTransactionRequest}
    (step : w.next settings now call accounts rows input = some (rows', w', message)) :
    ∃ batch, Claimed rows rows' batch ∧
      ((w.posting accounts input).toList ++ w'.unposted).Subperm (batch ++ w.unposted) := by
  have silent : message = none → (w.posting accounts input).toList = [] := by
    intro unsent
    have none : w.posting accounts input = Option.none := by
      simpa [unsent] using (next_posting step).symm
    rw [none, Option.toList_none]
  -- a move that claims nothing and posts nothing leaves some of the rows
  have left : message = none → w'.unposted.Sublist w.unposted → ∃ batch,
      Claimed rows rows' batch ∧
        ((w.posting accounts input).toList ++ w'.unposted).Subperm (batch ++ w.unposted) := by
    intro unsent sub
    refine ⟨[], claimed_nil rows rows', ?_⟩
    rw [silent unsent]
    exact sub.subperm
  cases Worker.next_move step with
  | quiet calm batch unposted => exact left rfl unposted.sublist
  | reply stage =>
    subst stage
    exact left rfl (List.Sublist.refl _)
  | reclaim idle => exact left rfl (List.nil_sublist _)
  | claim stage claimed =>
    rename_i ids batch
    refine ⟨batch, claimed_batch claimed, ?_⟩
    rw [silent rfl, Worker.unposted_on]
    exact (List.sublist_append_left batch _).subperm
  | post stage resolved =>
    rename_i tx rest environment
    subst stage
    refine ⟨[], claimed_nil rows rows, ?_⟩
    simpa [Worker.posting, Worker.unposted, resolved] using List.Subperm.refl (tx :: rest)
  | release stage unresolved =>
    subst stage
    refine left rfl ?_
    rw [Worker.unposted_on]
    exact List.sublist_cons_self _ _
  | settle stage =>
    subst stage
    refine left rfl ?_
    rw [Worker.unposted_on]
    exact List.Sublist.refl _

namespace AccountsService

/-- The row that a retry worker posts to the ledger by the action. -/
def workerPost (s : AccountsService) : AccountsAction → Option Transaction
  | .worker i input => (s.workers[i]?).bind (fun w => w.posting s.accounts input)
  | _ => none

/-- A retry worker posts a row only under a claim within the limit on attempts. -/
def PostsWithinLimit (settings : Settings) (s : AccountsService) (a : AccountsAction) : Prop :=
  ∀ tx ∈ s.workerPost a, tx.retryCount ≤ settings.retryMaxAttempts

instance (settings : Settings) (s : AccountsService) (a : AccountsAction) :
    Decidable (PostsWithinLimit settings s a) :=
  inferInstanceAs (Decidable (∀ tx ∈ s.workerPost a, tx.retryCount ≤ settings.retryMaxAttempts))

/-- The claimed rows that the workers have still to post. -/
def unposted (s : AccountsService) : List Transaction := s.workers.flatMap Worker.unposted

/-- The step of one worker, seen from all of them. -/
theorem unposted_set {workers : List Worker} {i : Nat} {w w' : Worker}
    {posted batch : List Transaction} (at_ : workers[i]? = some w)
    (moved : (posted ++ w'.unposted).Subperm (batch ++ w.unposted)) :
    (posted ++ (workers.set i w').flatMap Worker.unposted).Subperm
      (batch ++ workers.flatMap Worker.unposted) := by
  obtain ⟨bound, here⟩ := List.getElem?_eq_some_iff.mp at_
  obtain ⟨before, after, split, -, put⟩ : ∃ before after,
      workers = before ++ workers[i] :: after ∧ before.length = i ∧
        workers.set i w' = before ++ w' :: after := List.exists_of_set bound
  rw [here] at split
  have shuffle : ∀ (front : List Transaction) (v : Worker),
      (front ++ (before ++ v :: after).flatMap Worker.unposted).Perm
        ((front ++ v.unposted) ++ (before.flatMap Worker.unposted ++
          after.flatMap Worker.unposted)) := by
    intro front v
    rw [List.flatMap_append, List.flatMap_cons, List.append_assoc]
    refine List.Perm.append_left front ?_
    rw [← List.append_assoc, ← List.append_assoc]
    exact List.perm_append_comm.append_right _
  rw [put, split]
  refine (shuffle posted w').subperm.trans (List.Subperm.trans ?_ (shuffle batch w).symm.subperm)
  exact (List.subperm_append_right _).mpr moved

theorem unposted_step {settings : Settings} {s t : AccountsService} {a : AccountsAction}
    (step : s.step settings a = some t) : ∃ batch,
      Claimed s.transactions t.transactions batch ∧
        ((s.workerPost a).toList ++ t.unposted).Subperm (batch ++ s.unposted) := by
  cases a with
  | worker i input =>
    obtain ⟨w, at_, rest⟩ := Option.bind_eq_some_iff.mp step
    obtain ⟨⟨rows, w', message⟩, next, done⟩ := Option.bind_eq_some_iff.mp rest
    cases done
    obtain ⟨batch, claimed, moved⟩ := Worker.next_unposted next
    refine ⟨batch, claimed, ?_⟩
    simp only [workerPost, at_, Option.bind_some]
    exact unposted_set at_ moved
  | handler i input =>
    obtain ⟨h, at_, rest⟩ := Option.bind_eq_some_iff.mp step
    obtain ⟨⟨rows, point, message⟩, next, done⟩ := Option.bind_eq_some_iff.mp rest
    cases done
    exact ⟨[], claimed_nil _ _, List.Subperm.refl _⟩
  | startWorker =>
    cases step
    refine ⟨[], claimed_nil _ _, ?_⟩
    simpa [workerPost, unposted, Worker.idle, Worker.unposted] using
      List.Subperm.refl (s.workers.flatMap Worker.unposted)
  | openAccount account =>
    rw [AccountsService.step] at step
    split_ifs at step
    cases step
    exact ⟨[], claimed_nil _ _, List.Subperm.refl _⟩
  | tick ms | setAccountStatus id status | request q | reconcileRequeue | reconcileFail =>
    cases step
    exact ⟨[], claimed_nil _ _, List.Subperm.refl _⟩

/-- No update takes back a claim, and no row has a count below zero. -/
theorem Effect.counts {settings : Settings} {s t : AccountsService} {a : AccountsAction}
    (effect : Effect settings s a t) :
    (∀ r ∈ s.transactions, ∃ r' ∈ t.transactions, r'.id = r.id ∧ r.retryCount ≤ r'.retryCount) ∧
      ((∀ r ∈ s.transactions, 0 ≤ r.retryCount) → ∀ r' ∈ t.transactions, 0 ≤ r'.retryCount) := by
  have updated : ∀ {now : Nat} {p : Transaction → Bool} {f : Transaction → Transaction}
      {status : TransactionStatus}, Stamps now f status →
      t.transactions = Table.updateWhere p f s.transactions →
      (∀ r ∈ s.transactions, ∃ r' ∈ t.transactions, r'.id = r.id ∧ r.retryCount ≤ r'.retryCount) ∧
        ((∀ r ∈ s.transactions, 0 ≤ r.retryCount) → ∀ r' ∈ t.transactions, 0 ≤ r'.retryCount) := by
    intro now p f status stamps rows
    rw [rows]
    constructor
    · intro r hr
      refine ⟨if p r then f r else r, Table.mem_updateWhere.mpr ⟨r, hr, rfl⟩, ?_⟩
      split
      · exact ⟨Transaction.id_of_intent (stamps.intent r), stamps.counted r⟩
      · exact ⟨rfl, Int.le_refl _⟩
    · intro counts r' hr'
      obtain ⟨r, hr, rfl⟩ := Table.mem_updateWhere.mp hr'
      have := counts r hr
      split
      · exact Int.le_trans this (stamps.counted r)
      · exact this
  cases effect with
  | quiet rows =>
    rw [rows]
    exact ⟨fun r hr => ⟨r, hr, rfl, Int.le_refl _⟩, fun counts => counts⟩
  | insert row freshKey freshId pending rows holds unclaimed =>
    rw [rows]
    refine ⟨fun r hr => ⟨r, List.mem_append_left _ hr, rfl, Int.le_refl _⟩, ?_⟩
    intro counts r' hr'
    rcases List.mem_append.mp hr' with old | new
    · exact counts r' old
    · obtain rfl := List.mem_singleton.mp new
      omega
  | claim actor p f only stamps rows => exact updated stamps rows
  | requeue f at_ stamps rows => exact updated stamps rows
  | settle actor tx status f held at_ stamps rows => exact updated stamps rows
  | expire f at_ stamps rows => exact updated stamps rows

/-- The claims of the posts made and of those still to come are apart, and each
has been recorded in its row. -/
structure Counted (m : Int) (past : List Transaction) (s : AccountsService) : Prop where
  sound : s.Sound
  counts : ∀ r ∈ s.transactions, 0 ≤ r.retryCount
  apart : ((past ++ s.unposted).map fun tx => (tx.id, tx.retryCount)).Nodup
  recorded : ∀ tx ∈ past ++ s.unposted, 1 ≤ tx.retryCount ∧
    ∃ r ∈ s.transactions, r.id = tx.id ∧ tx.retryCount ≤ r.retryCount
  limited : ∀ tx ∈ past, tx.retryCount ≤ m

theorem counted_empty (m : Int) : Counted m [] empty where
  sound := sound_empty
  counts := fun _ listed => absurd listed List.not_mem_nil
  apart := List.nodup_nil
  recorded := fun _ listed => absurd listed List.not_mem_nil
  limited := fun _ listed => absurd listed List.not_mem_nil

theorem Counted.step {settings : Settings} {past : List Transaction} {s t : AccountsService}
    {a : AccountsAction} (counted : Counted settings.retryMaxAttempts past s)
    (within : PostsWithinLimit settings s a) (step : s.step settings a = some t) :
    Counted settings.retryMaxAttempts (past ++ (s.workerPost a).toList) t := by
  obtain ⟨batch, claimed, moved⟩ := unposted_step step
  obtain ⟨grow, nonneg⟩ := (counted.sound.effect step).counts
  -- the claims after the step are among the new ones and those before it
  have among : (past ++ (s.workerPost a).toList ++ t.unposted).Subperm
      (batch ++ (past ++ s.unposted)) := by
    rw [List.append_assoc]
    refine ((List.subperm_append_left past).mpr moved).trans (List.Perm.subperm ?_)
    rw [← List.append_assoc, ← List.append_assoc]
    exact List.perm_append_comm.append_right _
  have fresh : ∀ tx ∈ batch, ∀ tx' ∈ past ++ s.unposted, tx.id = tx'.id →
      tx'.retryCount < tx.retryCount := by
    intro tx listed tx' old same
    obtain ⟨r, hr, id, raised⟩ := claimed.raised tx listed
    obtain ⟨-, r', hr', id', stored⟩ := counted.recorded tx' old
    obtain rfl := counted.sound.ids.eq hr hr' (id.trans (same.trans id'.symm))
    omega
  refine ⟨counted.sound.step step, nonneg counted.counts, ?_, ?_, ?_⟩
  · obtain ⟨kept, perm, sub⟩ := among
    refine (perm.map _).nodup_iff.mp (List.Nodup.sublist (sub.map _) ?_)
    rw [List.map_append, List.nodup_append]
    refine ⟨?_, counted.apart, ?_⟩
    · refine List.Nodup.of_map Prod.fst ?_
      rw [List.map_map]
      exact claimed.once
    · intro claim new claim' old same
      obtain ⟨tx, listed, rfl⟩ := List.mem_map.mp new
      obtain ⟨tx', listed', rfl⟩ := List.mem_map.mp old
      obtain ⟨id, count⟩ := Prod.mk.inj same
      have := fresh tx listed tx' listed' id
      omega
  · intro tx listed
    rcases List.mem_append.mp (among.subset listed) with new | old
    · obtain ⟨r, hr, -, raised⟩ := claimed.raised tx new
      have := counted.counts r hr
      exact ⟨by omega, claimed.stored tx new⟩
    · obtain ⟨positive, r, hr, id, stored⟩ := counted.recorded tx old
      obtain ⟨r', hr', id', more⟩ := grow r hr
      exact ⟨positive, r', hr', id'.trans id, Int.le_trans stored more⟩
  · intro tx listed
    rcases List.mem_append.mp listed with before | now
    · exact counted.limited tx before
    · exact within tx (Option.mem_toList.mp now)

/-- Different counts within a limit are no more than the limit. -/
theorem length_of_counts {m : Int} (positive : 1 ≤ m) {counts : List Int} (apart : counts.Nodup)
    (within : ∀ c ∈ counts, 1 ≤ c ∧ c ≤ m) : (counts.length : Int) ≤ m := by
  have sub : counts.toFinset ⊆ Finset.Icc 1 m := by
    intro c listed
    exact Finset.mem_Icc.mpr (within c (List.mem_toFinset.mp listed))
  have few := Finset.card_le_card sub
  rw [List.toFinset_card_of_nodup apart, Int.card_Icc] at few
  omega

/-- In a run whose retry workers post rows only under claims within the limit on
attempts, they post each row at most that often. -/
theorem worker_posts_bounded (settings : Settings) (positive : 1 ≤ settings.retryMaxAttempts)
    (as : List AccountsAction) (s : AccountsService)
    (within : Machine.Along (step settings) (PostsWithinLimit settings) empty as)
    (run : Machine.run (step settings) empty as = some s) (id : Uuid) :
    (((Machine.trace (step settings) workerPost empty as).filter (fun tx => tx.id = id)).length :
      Int) ≤ settings.retryMaxAttempts := by
  have counted : Counted settings.retryMaxAttempts
      ([] ++ Machine.trace (step settings) workerPost empty as) s :=
    Machine.invariant_trace_along (fun past s a t counted within moved =>
      counted.step within moved) (counted_empty _) within run
  rw [List.nil_append] at counted
  set posts := Machine.trace (step settings) workerPost empty as
  have apart : ((posts.filter (fun tx => tx.id = id)).map Transaction.retryCount).Nodup := by
    have pairs := counted.apart
    rw [List.map_append] at pairs
    have pairs := pairs.of_append_left.sublist
      (List.filter_sublist (p := fun tx => decide (tx.id = id)).map _)
    refine List.Nodup.of_map (fun count => (id, count)) ?_
    rw [List.map_map]
    refine (List.map_congr_left fun tx listed => ?_) ▸ pairs
    have same := of_decide_eq_true (List.mem_filter.mp listed).2
    rw [Function.comp_apply, same]
  have few := length_of_counts positive apart (fun count listed => by
    obtain ⟨tx, member, rfl⟩ := List.mem_map.mp listed
    have posted := (List.mem_filter.mp member).1
    exact ⟨(counted.recorded tx (List.mem_append_left _ posted)).1, counted.limited tx posted⟩)
  rwa [List.length_map] at few

/-- A worker claims the row, posts it and crashes; after the lease it is claimed
and posted once more. -/
def postedTwice : List AccountsAction :=
  .openAccount (customer ⟨7⟩) :: storedIntent 0 "a" ⟨101⟩ ++
    [.tick 3000, .startWorker, .worker 0 .go, .worker 0 (.claimed [⟨101⟩]), .worker 0 .go,
      .worker 0 .crash, .tick 600001, .worker 0 .go, .worker 0 (.claimed [⟨101⟩]), .worker 0 .go]

theorem worker_posts_bounded_twice : 1 ≤ Settings.fromEnv.retryMaxAttempts ∧
    ((((Machine.trace (step .fromEnv) workerPost empty postedTwice).filter
      (fun tx => tx.id = ⟨101⟩)).length : Nat) : Int) ≤ Settings.fromEnv.retryMaxAttempts := by
  have evaluated : (Machine.run (step .fromEnv) empty postedTwice).isSome = true := by
    decide +kernel
  obtain ⟨s, run⟩ := Option.isSome_iff_exists.mp evaluated
  exact ⟨by decide, worker_posts_bounded .fromEnv (by decide) postedTwice s (by decide +kernel)
    run ⟨101⟩⟩

/-- With a limit of one attempt the row is posted twice. -/
theorem limit_not_checked : ¬ ∀ (settings : Settings) (as : List AccountsAction)
    (s : AccountsService), 1 ≤ settings.retryMaxAttempts →
    Machine.run (step settings) empty as = some s → ∀ id : Uuid,
    (((Machine.trace (step settings) workerPost empty as).filter (fun tx => tx.id = id)).length :
      Int) ≤ settings.retryMaxAttempts := by
  intro claim
  let settings : Settings := { Settings.fromEnv with retryMaxAttempts := 1 }
  have evaluated : (Machine.run (step settings) empty postedTwice).isSome = true := by
    decide +kernel
  obtain ⟨s, run⟩ := Option.isSome_iff_exists.mp evaluated
  have posts : ((Machine.trace (step settings) workerPost empty postedTwice).filter
      (fun tx => tx.id = ⟨101⟩)).length = 2 := by
    decide +kernel
  have bound := claim settings postedTwice s (by decide) run ⟨101⟩
  rw [posts] at bound
  exact absurd bound (by decide)

end AccountsService

end RailsCore
