import RailsCore.AccountsSound

/-!
# Leases

A claim is a status and a time stamp, and nothing revokes the claim of an
actor that is slow: after the lease another actor can claim the row while the
first still means to write its status. Two conditions on a run exclude that,
one on the moments of requeueing and one on the moments of settling; the same
invariant carries both. Runs without them are shown at the end.
-/

namespace RailsCore
open TransactionRepository

/-- When the ledger call that is waited for was made. -/
def HandlerPoint.sentAt : HandlerPoint → Option Nat
  | .awaitingPost _ _ _ sentAt => some sentAt
  | _ => none

def WorkerStage.sentAt : WorkerStage → Option Nat
  | .awaiting _ sentAt => some sentAt
  | _ => none

namespace AccountsService

/-- Holders that count as live own their rows: the row stands in `posting` as
the claim left it, and no other live holder has it. -/
structure Owned (Live : AccountsService → Transaction → Prop) (s : AccountsService) : Prop where
  posting : ∀ actor tx, s.Holds actor tx → Live s tx → ∀ r ∈ s.transactions, r.id = tx.id →
    r.status = .posting ∧ r.updatedAt = tx.updatedAt
  single : ∀ a b tx tx', s.Holds a tx → s.Holds b tx' → tx.id = tx'.id →
    Live s tx → Live s tx' → a = b

theorem not_holds_empty {actor : Actor} {tx : Transaction} : ¬ empty.Holds actor tx := by
  cases actor <;> simp [Holds, empty]

theorem owned_empty (Live : AccountsService → Transaction → Prop) : Owned Live empty where
  posting := fun _ _ holds => absurd holds not_holds_empty
  single := fun _ _ _ _ holds => absurd holds not_holds_empty

/-- The step lemma: ownership lasts when liveness is never regained, when no
live holder's row is requeued, and when only live holders settle. -/
theorem Owned.step {settings : Settings} {Live : AccountsService → Transaction → Prop}
    {s t : AccountsService} {a : AccountsAction} (sound : s.Sound) (owned : Owned Live s)
    (lasting : ∀ tx, Live t tx → Live s tx)
    (requeue : s.requeues a = true → ∀ actor tx, s.Holds actor tx → Live s tx →
      s.now ≤ tx.updatedAt + settings.leaseMs)
    (settle : ∀ actor tx status, s.settling settings a = some (actor, tx, status) → Live s tx)
    (step : s.step settings a = some t) : Owned Live t := by
  -- the row of a live holder that no update touches
  have keep : ∀ {p : Transaction → Bool} {f : Transaction → Transaction} {tx : Transaction},
      t.transactions = Table.updateWhere p f s.transactions →
      (∀ r ∈ s.transactions, r.id = tx.id → r.status = .posting ∧ r.updatedAt = tx.updatedAt) →
      (∀ r, (f r).intent = r.intent) →
      (∀ r, r.id = tx.id → r.status = .posting → r.updatedAt = tx.updatedAt → p r = false) →
      ∀ r' ∈ t.transactions, r'.id = tx.id → r'.status = .posting ∧ r'.updatedAt = tx.updatedAt := by
    intro p f tx rows own intent spared r' hr' same
    rw [rows] at hr'
    obtain ⟨r, hr, rfl⟩ := Table.mem_updateWhere.mp hr'
    have id : r.id = tx.id := by
      by_cases hit : p r = true
      · rw [if_pos hit] at same
        rw [← Transaction.id_of_intent (intent r)]
        exact same
      · rw [if_neg hit] at same
        exact same
    obtain ⟨status, updatedAt⟩ := own r hr id
    rw [spared r id status updatedAt]
    exact ⟨status, updatedAt⟩
  have old : ∀ {actor : Actor} {tx : Transaction}, s.Holds actor tx → Live t tx →
      ∀ r ∈ s.transactions, r.id = tx.id → r.status = .posting ∧ r.updatedAt = tx.updatedAt :=
    fun holds live => owned.posting _ _ holds (lasting _ live)
  cases sound.effect step with
  | quiet rows holds =>
    refine ⟨fun actor tx h live => ?_, fun b c tx tx' hb hc same live live' => ?_⟩
    · rw [rows]
      exact old (holds actor tx h) live
    · exact owned.single b c tx tx' (holds b tx hb) (holds c tx' hc) same (lasting _ live)
        (lasting _ live')
  | insert row freshKey freshId pending rows holds =>
    refine ⟨fun actor tx h live r hr same => ?_, fun b c tx tx' hb hc same live live' => ?_⟩
    · rw [rows] at hr
      rcases List.mem_append.mp hr with before | new
      · exact old (holds actor tx h) live r before same
      · obtain rfl := List.mem_singleton.mp new
        obtain ⟨r', hr', intent⟩ := sound.holds_known (holds actor tx h)
        refine absurd ?_ (Table.find_none_iff.mp freshId r' hr')
        rw [Transaction.id_of_intent intent, same]
    · exact owned.single b c tx tx' (holds b tx hb) (holds c tx' hc) same (lasting _ live)
        (lasting _ live')
  | claim actor p f only stamps rows holds =>
    -- a row that is claimed was pending, so no live holder had it
    have apart : ∀ {b : Actor} {tx : Transaction}, s.Holds b tx → Live t tx →
        ∀ r ∈ s.transactions, p r = true → r.id ≠ tx.id := by
      intro b tx hb live r hr picked same
      have posting := (old hb live r hr same).1
      rw [only r picked] at posting
      cases posting
    refine ⟨fun b tx hb live => ?_, fun b c tx tx' hb hc same live live' => ?_⟩
    · rcases holds b tx hb with before | ⟨-, r, hr, picked, intent, updatedAt⟩
      · refine keep rows (old before live) stamps.intent (fun r same status _ => ?_)
        by_contra picked
        rw [only r (by simpa using picked)] at status
        cases status
      · intro r' hr' same
        rw [rows] at hr'
        obtain ⟨r₀, hr₀, rfl⟩ := Table.mem_updateWhere.mp hr'
        have id₀ : r₀.id = r.id := by
          rw [← Transaction.id_of_intent intent, ← same]
          split
          · exact (Transaction.id_of_intent (stamps.intent r₀)).symm
          · rfl
        obtain rfl := sound.ids.eq hr₀ hr id₀
        rw [if_pos picked, updatedAt]
        exact ⟨stamps.status r₀, stamps.updatedAt r₀⟩
    · rcases holds b tx hb with before | ⟨rfl, r, hr, picked, intent, -⟩
      · rcases holds c tx' hc with before' | ⟨rfl, r, hr, picked, intent, -⟩
        · exact owned.single b c tx tx' before before' same (lasting _ live) (lasting _ live')
        · refine absurd ?_ (apart before live r hr picked)
          rw [same, Transaction.id_of_intent intent]
      · rcases holds c tx' hc with before' | ⟨rfl, -⟩
        · refine absurd ?_ (apart before' live' r hr picked)
          rw [← same, Transaction.id_of_intent intent]
        · rfl
  | requeue f at_ stamps rows holds =>
    refine ⟨fun actor tx h live => ?_, fun b c tx tx' hb hc same live live' => ?_⟩
    · have fresh := requeue at_ actor tx (holds actor tx h) (lasting _ live)
      refine keep rows (old (holds actor tx h) live) stamps.intent (fun r same status updatedAt => ?_)
      have notStale : ¬ r.updatedAt + settings.leaseMs < s.now := by
        rw [updatedAt]
        omega
      rw [Settings.leaseMs] at notStale
      simp [IsStalePosting, notStale]
    · exact owned.single b c tx tx' (holds b tx hb) (holds c tx' hc) same (lasting _ live)
        (lasting _ live')
  | settle actor tx₀ status f held at_ stamps rows holds released =>
    refine ⟨fun b tx hb live => ?_, fun b c tx tx' hb hc same live live' => ?_⟩
    · have other : tx.id ≠ tx₀.id := by
        intro same
        obtain rfl := owned.single b actor tx tx₀ (holds b tx hb) held same (lasting _ live)
          (settle actor tx₀ status at_)
        exact released tx hb same
      refine keep rows (old (holds b tx hb) live) stamps.intent (fun r same _ _ => ?_)
      simpa [same] using other
    · exact owned.single b c tx tx' (holds b tx hb) (holds c tx' hc) same (lasting _ live)
        (lasting _ live')
  | expire f at_ stamps rows holds =>
    refine ⟨fun actor tx h live => ?_, fun b c tx tx' hb hc same live live' => ?_⟩
    · refine keep rows (old (holds actor tx h) live) stamps.intent (fun r _ status _ => ?_)
      simp [IsOverAge, status]
    · exact owned.single b c tx tx' (holds b tx hb) (holds c tx' hc) same (lasting _ live)
        (lasting _ live')

section Settling

variable (settings : Settings)

/-- The claim is not older than the lease. -/
def InLease (s : AccountsService) (tx : Transaction) : Prop :=
  s.now ≤ tx.updatedAt + settings.leaseMs

/-- A final status write comes no later than the lease of its claim. -/
def SettlesInTime (s : AccountsService) (a : AccountsAction) : Prop :=
  ∀ write ∈ s.settling settings a, InLease settings s write.2.1

instance (s : AccountsService) (a : AccountsAction) : Decidable (SettlesInTime settings s a) :=
  inferInstanceAs (Decidable (∀ write ∈ s.settling settings a,
    s.now ≤ write.2.1.updatedAt + settings.leaseMs))

/-- Rows that are settled stay as they are. -/
def Absorbs (s t : AccountsService) : Prop :=
  ∀ r ∈ s.transactions, r.status.Terminal →
    ∃ r' ∈ t.transactions, r'.id = r.id ∧ r'.status = r.status

variable {settings}

theorem Owned.step_inTime {s t : AccountsService} {a : AccountsAction} (sound : s.Sound)
    (owned : Owned (InLease settings) s) (inTime : SettlesInTime settings s a)
    (step : s.step settings a = some t) : Owned (InLease settings) t := by
  refine owned.step sound ?_ (fun _ _ _ _ live => live) ?_ step
  · intro tx live
    exact Nat.le_trans (sound.grows step).now live
  · intro actor tx status at_
    exact inTime (actor, tx, status) at_

theorem absorbs_step {s t : AccountsService} {a : AccountsAction} (sound : s.Sound)
    (owned : Owned (InLease settings) s) (inTime : SettlesInTime settings s a)
    (step : s.step settings a = some t) : Absorbs s t := by
  intro r hr terminal
  have spared : ∀ {p : Transaction → Bool} {f : Transaction → Transaction},
      t.transactions = Table.updateWhere p f s.transactions → p r = false →
      ∃ r' ∈ t.transactions, r'.id = r.id ∧ r'.status = r.status := by
    intro p f rows miss
    refine ⟨r, ?_, rfl, rfl⟩
    rw [rows]
    exact Table.mem_updateWhere.mpr ⟨r, hr, by simp [miss]⟩
  cases sound.effect step with
  | quiet rows => exact ⟨r, rows ▸ hr, rfl, rfl⟩
  | insert row _ _ _ rows => exact ⟨r, rows ▸ List.mem_append_left _ hr, rfl, rfl⟩
  | claim actor p f only stamps rows =>
    refine spared rows ?_
    by_contra hit
    rw [only r (by simpa using hit)] at terminal
    exact terminal
  | requeue f at_ stamps rows =>
    refine spared rows ?_
    cases status : r.status with
    | posting =>
      rw [status] at terminal
      exact terminal.elim
    | pending | posted | failed => simp [IsStalePosting, status]
  | settle actor tx status f held at_ stamps rows =>
    refine spared rows ?_
    -- the row of a live holder is in `posting`
    by_contra hit
    have posting := (owned.posting actor tx held (inTime _ at_) r hr (by simpa using hit)).1
    rw [posting] at terminal
    exact terminal
  | expire f at_ stamps rows =>
    refine spared rows ?_
    cases status : r.status with
    | pending =>
      rw [status] at terminal
      exact terminal.elim
    | posting | posted | failed => simp [IsOverAge, status]

/-- In a run whose final status writes all come within their lease, a row that
has become `posted` or `failed` never changes status again. -/
theorem terminal_absorbing (settings : Settings) (as bs : List AccountsAction) (s t : AccountsService)
    (inTime : Machine.Along (step settings) (SettlesInTime settings) empty (as ++ bs))
    (before : Machine.run (step settings) empty as = some s)
    (after : Machine.run (step settings) s bs = some t)
    (r r' : Transaction) (hr : r ∈ s.transactions) (terminal : r.status.Terminal)
    (hr' : r' ∈ t.transactions) (same : r'.id = r.id) : r'.status = r.status := by
  have keeps : ∀ s a t, (s.Sound ∧ Owned (InLease settings) s) → SettlesInTime settings s a →
      step settings s a = some t → t.Sound ∧ Owned (InLease settings) t :=
    fun s a t inv inTime moved => ⟨inv.1.step moved, inv.2.step_inTime inv.1 inTime moved⟩
  obtain ⟨first, second⟩ := Machine.along_append before inTime
  have inv := Machine.invariant_along keeps ⟨sound_empty, owned_empty _⟩ first before
  have absorbs : Absorbs s t := by
    refine Machine.relation_along keeps (fun _ r hr _ => ⟨r, hr, rfl, rfl⟩) ?_
      (fun s a t inv inTime moved => absorbs_step inv.1 inv.2 inTime moved) inv second after
    intro s t u first second r hr terminal
    obtain ⟨r', hr', id, status⟩ := first r hr terminal
    obtain ⟨r'', hr'', id', status'⟩ := second r' hr' (status ▸ terminal)
    exact ⟨r'', hr'', id'.trans id, status'.trans status⟩
  obtain ⟨r'', hr'', id, status⟩ := absorbs r hr terminal
  have unique := (Machine.invariant_along keeps inv second after).1.ids
  rw [unique.eq hr' hr'' (same.trans id.symm)]
  exact status

end Settling

section Requeueing

variable (settings : Settings)

/-- Stale rows are requeued only while every claim in progress is within its lease. -/
def RequeuesInTime (s : AccountsService) (a : AccountsAction) : Prop :=
  s.requeues a = true →
    (∀ h ∈ s.handlers, ∀ tx ∈ h.point.held, s.now ≤ tx.updatedAt + settings.leaseMs) ∧
    ∀ w ∈ s.workers, ∀ tx ∈ w.batch, s.now ≤ tx.updatedAt + settings.leaseMs

instance (s : AccountsService) (a : AccountsAction) : Decidable (RequeuesInTime settings s a) :=
  inferInstanceAs (Decidable (_ → _))

variable {settings}

theorem Owned.step_requeue {s t : AccountsService} {a : AccountsAction} (sound : s.Sound)
    (owned : Owned (fun _ _ => True) s) (inTime : RequeuesInTime settings s a)
    (step : s.step settings a = some t) : Owned (fun _ _ => True) t := by
  refine owned.step sound (fun _ live => live) ?_ (fun _ _ _ _ => trivial) step
  intro at_ actor tx holds _
  obtain ⟨handlers, workers⟩ := inTime at_
  cases actor with
  | handler i =>
    obtain ⟨h, hh, held⟩ := holds
    exact handlers h (List.mem_of_getElem? hh) tx held
  | worker i =>
    obtain ⟨w, hw, held⟩ := holds
    exact workers w (List.mem_of_getElem? hw) tx held

/-- In a run that requeues stale rows only while every claim in progress is
within its lease, no row has two holders. -/
theorem single_writer (settings : Settings) (as : List AccountsAction) (s : AccountsService)
    (inTime : Machine.Along (step settings) (RequeuesInTime settings) empty as)
    (run : Machine.run (step settings) empty as = some s) (a b : Actor) (tx tx' : Transaction)
    (holds : s.Holds a tx) (holds' : s.Holds b tx') (same : tx.id = tx'.id) : a = b := by
  have inv : s.Sound ∧ Owned (fun _ _ => True) s := Machine.invariant_along
    (fun s a t (inv : s.Sound ∧ Owned (fun _ _ => True) s) inTime moved =>
      ⟨inv.1.step moved, inv.2.step_requeue inv.1 inTime moved⟩)
    ⟨sound_empty, owned_empty _⟩ inTime run
  exact inv.2.single a b tx tx' holds holds' same trivial trivial

end Requeueing

/-- A request claims its row and posts it; the post times out after a minute. -/
def timedOutPost : List AccountsAction :=
  [.openAccount (customer ⟨7⟩), .request (depositOf 50 "a"), .handler 0 .go,
    .handler 0 (.created ⟨101⟩), .handler 0 .go, .handler 0 .go, .tick 60000,
    .handler 0 (.reply (.error (.internal "ledger gRPC post timeout expired")))]

/-- After the lease a worker takes the row over and posts it. -/
def takenOver : List AccountsAction :=
  [.tick 540001, .startWorker, .worker 0 .go, .worker 0 (.claimed [⟨101⟩]), .worker 0 .go,
    .worker 0 (.reply (.ok ())), .worker 0 .go]

theorem terminal_absorbing_settled : ∃ s t,
    Machine.run (step .fromEnv) empty (timedOutPost ++ [.handler 0 .go] ++ takenOver) = some s ∧
    Machine.run (step .fromEnv) s [.tick 900000, .worker 0 .go, .reconcileFail] = some t ∧
    ∀ r ∈ s.transactions, r.status.Terminal → ∀ r' ∈ t.transactions, r'.id = r.id →
      r'.status = r.status := by
  have evaluated : ((Machine.run (step .fromEnv) empty
      (timedOutPost ++ [.handler 0 .go] ++ takenOver)).any (fun s =>
        (Machine.run (step .fromEnv) s [.tick 900000, .worker 0 .go, .reconcileFail]).isSome)) =
      true := by decide +kernel
  obtain ⟨s, before, later⟩ := (Option.any_eq_true _ _).mp evaluated
  obtain ⟨t, after⟩ := Option.isSome_iff_exists.mp later
  refine ⟨s, t, before, after, fun r hr terminal r' hr' same => ?_⟩
  exact terminal_absorbing .fromEnv _ _ s t (by decide +kernel) before after r r' hr
    terminal hr' same

/-- The answer of the slow request puts the posted row back to `pending`. -/
theorem posted_reverted : ¬ ∀ (settings : Settings) (as bs : List AccountsAction)
    (s t : AccountsService), Machine.run (step settings) empty as = some s →
    Machine.run (step settings) s bs = some t → ∀ r ∈ s.transactions, r.status.Terminal →
    ∀ r' ∈ t.transactions, r'.id = r.id → r'.status = r.status := by
  intro claim
  have evaluated : (Machine.run (step .fromEnv) empty (timedOutPost ++ takenOver)).any (fun s =>
      (Machine.run (step .fromEnv) s [.handler 0 .go]).any (fun t =>
        s.transactions.any (fun r => r.status = .posted && t.transactions.any (fun r' =>
          r'.id = r.id && r'.status = .pending)))) = true := by
    decide +kernel
  obtain ⟨s, before, evaluated⟩ := (Option.any_eq_true _ _).mp evaluated
  obtain ⟨t, after, evaluated⟩ := (Option.any_eq_true _ _).mp evaluated
  obtain ⟨r, hr, evaluated⟩ := List.any_eq_true.mp evaluated
  obtain ⟨posted, evaluated⟩ := Bool.and_eq_true_iff.mp evaluated
  obtain ⟨r', hr', evaluated⟩ := List.any_eq_true.mp evaluated
  obtain ⟨same, pending⟩ := Bool.and_eq_true_iff.mp evaluated
  have posted : r.status = .posted := of_decide_eq_true posted
  have pending : r'.status = .pending := of_decide_eq_true pending
  have kept := claim .fromEnv _ _ s t before after r hr (by rw [posted]; trivial) r' hr'
    (of_decide_eq_true same)
  rw [posted, pending] at kept
  cases kept

/-- Every ledger call in progress was made at most `timeout` ago. -/
def CallsWithin (timeout : Nat) (s : AccountsService) : Prop :=
  (∀ h ∈ s.handlers, ∀ sentAt ∈ h.point.sentAt, s.now ≤ sentAt + timeout) ∧
    ∀ w ∈ s.workers, ∀ sentAt ∈ w.stage.sentAt, s.now ≤ sentAt + timeout

instance (timeout : Nat) (s : AccountsService) : Decidable (s.CallsWithin timeout) :=
  inferInstanceAs (Decidable (_ ∧ _))

/-- Two stored intents, claimed by one worker in one batch. -/
def claimedBatch : List AccountsAction :=
  .openAccount (customer ⟨7⟩) :: storedIntent 0 "a" ⟨101⟩ ++ storedIntent 1 "b" ⟨102⟩ ++
    [.tick 3000, .startWorker, .startWorker, .worker 0 .go, .worker 0 (.claimed [⟨101⟩, ⟨102⟩])]

/-- The posts of the batch, of 400 and 200 seconds, under the lease of 600; then
a second worker polls. -/
def slowBatch : List AccountsAction :=
  claimedBatch ++ [.worker 0 .go, .tick 400000, .worker 0 (.reply (.ok ())), .worker 0 .go,
    .worker 0 .go, .tick 200001, .worker 1 .go, .worker 1 (.claimed [⟨102⟩])]

theorem single_writer_batch : ∃ s, Machine.run (step .fromEnv) empty
      (claimedBatch ++ [.worker 0 .go, .tick 60000, .worker 1 .go]) = some s ∧
    ∀ a b tx tx', s.Holds a tx → s.Holds b tx' → tx.id = tx'.id → a = b := by
  have evaluated : (Machine.run (step .fromEnv) empty
      (claimedBatch ++ [.worker 0 .go, .tick 60000, .worker 1 .go])).isSome = true := by
    decide +kernel
  obtain ⟨s, run⟩ := Option.isSome_iff_exists.mp evaluated
  exact ⟨s, run, single_writer .fromEnv _ s (by decide +kernel) run⟩

/-- Both workers hold the second row of the batch, and no call took 401 seconds. -/
theorem two_writers : ¬ ∀ (settings : Settings) (timeout : Nat) (as : List AccountsAction)
    (s : AccountsService), timeout < settings.leaseMs →
    Machine.run (step settings) empty as = some s →
    Machine.Along (step settings) (fun s _ => s.CallsWithin timeout) empty as →
    s.CallsWithin timeout →
    ∀ a b tx tx', s.Holds a tx → s.Holds b tx' → tx.id = tx'.id → a = b := by
  intro claim
  have evaluated : (Machine.run (step .fromEnv) empty slowBatch).any (fun s =>
      s.CallsWithin 400000 ∧ (s.workers[0]?).any (fun w => (s.workers[1]?).any (fun v =>
        w.batch.any (fun tx => v.batch.any (fun tx' => tx.id = tx'.id))))) = true := by
    decide +kernel
  obtain ⟨s, run, evaluated⟩ := (Option.any_eq_true _ _).mp evaluated
  obtain ⟨within, shared⟩ := of_decide_eq_true evaluated
  obtain ⟨w, first, shared⟩ := (Option.any_eq_true _ _).mp shared
  obtain ⟨v, second, shared⟩ := (Option.any_eq_true _ _).mp shared
  obtain ⟨tx, held, shared⟩ := List.any_eq_true.mp shared
  obtain ⟨tx', held', same⟩ := List.any_eq_true.mp shared
  have one := claim .fromEnv 400000 slowBatch s (by decide) run (by decide +kernel) within
    (.worker 0) (.worker 1) tx tx' ⟨w, first, held⟩ ⟨v, second, held'⟩ (of_decide_eq_true same)
  cases one

end AccountsService

end RailsCore
