import RailsCore.AtMostOnce

/-!
# Failed rows and the ledger

A row is marked `failed` by a worker whose last attempt was answered with an
error, and by the reconciler when it is old. Neither knows what the ledger did:
the answer may be a timeout, and the reconciler never asks. Where nothing done
for the row can still reach the ledger, `failed` is the truth and stays so. A
ledger call that raises has left nothing behind here: it is assumed that a
`COMMIT` that is answered with an error has had no effect.
-/

namespace RailsCore
open TransactionRepository

/-- The call has ended with an error. -/
def Call.hasRaised (c : Call) : Bool :=
  match c.point with
  | .raised _ => true
  | _ => false

theorem Call.ended_of_raised {c : Call} (raised : c.hasRaised = true) : c.ended = true := by
  obtain ⟨p, point, inside, ws⟩ := c
  cases point <;> first
    | rfl
    | cases raised

namespace AccountsService

/-- Nobody has claimed the row. -/
def Unheld (s : AccountsService) (id : Uuid) : Prop :=
  (∀ h ∈ s.handlers, ∀ tx ∈ h.point.held, tx.id ≠ id) ∧ ∀ w ∈ s.workers, ∀ tx ∈ w.batch, tx.id ≠ id

instance (s : AccountsService) (id : Uuid) : Decidable (s.Unheld id) :=
  inferInstanceAs (Decidable (_ ∧ _))

/-- The service without the worker that takes the step. -/
def apartFrom (s : AccountsService) : AccountsAction → AccountsService
  | .worker i _ => { s with workers := s.workers.eraseIdx i }
  | _ => s

/-- The rows that the step marks `failed`. -/
def failing (settings : Settings) (s : AccountsService) : AccountsAction → List Transaction
  | .reconcileFail => s.transactions.filter (IsOverAge s.now settings.maxPendingAgeSecs)
  | a =>
    match s.settling settings a with
    | some (_, tx, .failed) => [tx]
    | _ => []

variable {settings : Settings} {s t : AccountsService} {a : AccountsAction}

theorem unheld_iff {id : Uuid} :
    s.Unheld id ↔ ∀ actor tx, s.Holds actor tx → tx.id ≠ id := by
  constructor
  · rintro ⟨handlers, workers⟩ actor tx holds
    cases actor with
    | handler i =>
      obtain ⟨h, at_, held⟩ := holds
      exact handlers h (List.mem_of_getElem? at_) tx held
    | worker i =>
      obtain ⟨w, at_, held⟩ := holds
      exact workers w (List.mem_of_getElem? at_) tx held
  · intro all
    constructor
    · intro h hh tx held
      obtain ⟨i, at_⟩ := List.mem_iff_getElem?.mp hh
      exact all (.handler i) tx ⟨h, at_, held⟩
    · intro w hw tx held
      obtain ⟨i, at_⟩ := List.mem_iff_getElem?.mp hw
      exact all (.worker i) tx ⟨w, at_, held⟩

/-- Only a worker marks a row `failed` at the end of a claim, and it is not
among those apart from itself. -/
theorem settling_failed {actor : Actor} {tx : Transaction}
    (at_ : s.settling settings a = some (actor, tx, .failed)) :
    tx ∈ s.failing settings a ∧ ∀ {id}, (s.apartFrom a).Unheld id →
      ∀ actor' tx', s.Holds actor' tx' → actor' ≠ actor → tx'.id ≠ id := by
  cases a with
  | tick ms | openAccount account | setAccountStatus id status | request q | startWorker
  | reconcileRequeue | reconcileFail => cases at_
  | handler i input =>
    cases input with
    | created id | balance answer | reply answer | fail e => cases at_
    | go =>
      obtain ⟨h, found, here⟩ := Option.bind_eq_some_iff.mp at_
      obtain ⟨q, point⟩ := h
      cases point <;> simp at here
      rename_i ctx row result
      obtain ⟨-, -, failed⟩ := here
      cases result <;> cases failed
  | worker i input =>
    have mine : actor = .worker i := by
      cases input with
      | claimed ids | reply answer | writeLost | crash => cases at_
      | go =>
        obtain ⟨w, found, here⟩ := Option.bind_eq_some_iff.mp at_
        obtain ⟨stage, batch⟩ := w
        cases batch with
        | nil => cases stage <;> simp at here
        | cons row rest =>
          cases stage with
          | idle | claiming | awaiting => simp at here
          | working =>
            cases resolved : TransactionRetry.resolveEnvironment s.accounts row <;>
              simp [resolved] at here
          | settle result =>
            obtain ⟨worker, -⟩ : Actor.worker i = actor ∧ _ := by simpa using here
            exact worker.symm
    refine ⟨by simp [failing, at_], fun {id} unheld actor' tx' holds other => ?_⟩
    rw [mine] at other
    obtain ⟨handlers, workers⟩ := unheld
    cases actor' with
    | handler j =>
      obtain ⟨h, at_, held⟩ := holds
      exact handlers h (List.mem_of_getElem? at_) tx' held
    | worker j =>
      obtain ⟨w, at_, held⟩ := holds
      refine workers w (List.mem_eraseIdx_iff_getElem?.mpr ⟨j, ?_, at_⟩) tx' held
      exact fun same => other (congrArg Actor.worker same)

/-- A `failed` row that nobody holds stays `failed`, and nobody comes to hold it. -/
theorem Sound.failed_stays (sound : s.Sound) (step : s.step settings a = some t)
    {r : Transaction} (hr : r ∈ s.transactions) (failed : r.status = .failed)
    (unheld : s.Unheld r.id) : r ∈ t.transactions ∧ t.Unheld r.id := by
  have free := unheld_iff.mp unheld
  have spared : ∀ {p : Transaction → Bool} {f : Transaction → Transaction},
      t.transactions = Table.updateWhere p f s.transactions → p r = false → r ∈ t.transactions := by
    intro p f rows miss
    rw [rows]
    exact Table.mem_updateWhere.mpr ⟨r, hr, by simp [miss]⟩
  have kept : (∀ actor tx, t.Holds actor tx → s.Holds actor tx) → t.Unheld r.id :=
    fun holds => unheld_iff.mpr (fun actor tx h => free actor tx (holds actor tx h))
  cases sound.effect step with
  | quiet rows holds => exact ⟨rows ▸ hr, kept holds⟩
  | insert row _ _ _ rows holds => exact ⟨rows ▸ List.mem_append_left _ hr, kept holds⟩
  | claim actor p f only stamps rows holds =>
    have missed : p r = false := by
      by_contra hit
      rw [only r (by simpa using hit)] at failed
      cases failed
    refine ⟨spared rows missed, unheld_iff.mpr (fun actor' tx h => ?_)⟩
    rcases holds actor' tx h with old | ⟨-, r', hr', picked, intent, -⟩
    · exact free actor' tx old
    · intro same
      obtain rfl := sound.ids.eq hr' hr ((Transaction.id_of_intent intent).symm.trans same)
      exact absurd (missed.symm.trans picked) (by decide)
  | requeue f at_ stamps rows holds =>
    exact ⟨spared rows (by simp [IsStalePosting, failed]), kept holds⟩
  | settle actor tx status f held at_ stamps rows holds =>
    exact ⟨spared rows (by simpa using (free actor tx held).symm), kept holds⟩
  | expire f at_ stamps rows holds =>
    exact ⟨spared rows (by simp [IsOverAge, failed]), kept holds⟩

/-- A row that is newly `failed` is one that the step marks so. -/
theorem Sound.newly_failed (sound : s.Sound) (step : s.step settings a = some t)
    {r' : Transaction} (hr' : r' ∈ t.transactions) (failed : r'.status = .failed) :
    r' ∈ s.transactions ∨ ∃ r ∈ s.failing settings a, r.id = r'.id ∧ r.key = r'.key ∧
      ((s.apartFrom a).Unheld r.id → t.Unheld r.id) ∧ t.sent = s.sent := by
  have updated : ∀ {p : Transaction → Bool} {f : Transaction → Transaction}
      {status : TransactionStatus}, Stamps s.now f status → status ≠ .failed →
      t.transactions = Table.updateWhere p f s.transactions → r' ∈ s.transactions := by
    intro p f status stamps other rows
    rw [rows] at hr'
    obtain ⟨r, hr, rfl⟩ := Table.mem_updateWhere.mp hr'
    by_cases hit : p r = true
    · rw [if_pos hit, stamps.status] at failed
      exact absurd failed other
    · rw [if_neg hit]
      exact hr
  cases sound.effect step with
  | quiet rows holds => exact .inl (rows ▸ hr')
  | insert row _ _ pending rows holds =>
    rw [rows] at hr'
    rcases List.mem_append.mp hr' with old | new
    · exact .inl old
    · rw [List.mem_singleton.mp new, pending] at failed
      cases failed
  | claim actor p f only stamps rows holds => exact .inl (updated stamps (by decide) rows)
  | requeue f at_ stamps rows holds => exact .inl (updated stamps (by decide) rows)
  | settle actor tx status f held at_ stamps rows holds released =>
    by_cases marks : status = .failed
    · subst marks
      obtain ⟨listed, others⟩ := settling_failed at_
      rw [rows] at hr'
      obtain ⟨r, hr, rfl⟩ := Table.mem_updateWhere.mp hr'
      by_cases hit : r.id = tx.id
      · obtain ⟨r₀, hr₀, same⟩ := sound.holds_known held
        obtain rfl := sound.ids.eq hr hr₀ (hit.trans (Transaction.id_of_intent same).symm)
        rw [if_pos (by simpa using hit)]
        refine .inr ⟨tx, listed, ?_, ?_, fun unheld => ?_, ?_⟩
        · rw [Transaction.id_of_intent (stamps.intent r), hit]
        · rw [Transaction.key_of_intent (stamps.intent r), Transaction.key_of_intent same]
        · refine unheld_iff.mpr (fun actor' tx' h => ?_)
          by_cases mine : actor' = actor
          · exact released tx' (mine ▸ h)
          · exact others unheld actor' tx' (holds actor' tx' h) mine
        · rcases sound.sends step with silent | ⟨-, none_, -⟩
          · exact silent
          · rw [none_] at at_
            cases at_
      · rw [if_neg (by simpa using hit)]
        exact .inl hr
    · exact .inl (updated stamps marks rows)
  | expire f at_ stamps rows holds =>
    subst at_
    rw [rows] at hr'
    obtain ⟨r, hr, rfl⟩ := Table.mem_updateWhere.mp hr'
    by_cases hit : IsOverAge s.now settings.maxPendingAgeSecs r = true
    · rw [if_pos hit]
      refine .inr ⟨r, List.mem_filter.mpr ⟨hr, hit⟩, ?_, ?_, fun unheld => ?_, ?_⟩
      · exact (Transaction.id_of_intent (stamps.intent r)).symm
      · exact (Transaction.key_of_intent (stamps.intent r)).symm
      · exact unheld_iff.mpr (fun actor tx h => unheld_iff.mp unheld actor tx (holds actor tx h))
      · rcases sound.sends step with silent | ⟨-, -, other⟩
        · exact silent
        · exact absurd rfl other
    · rw [if_neg hit]
      exact .inl hr

end AccountsService

namespace System

/-- Nothing done for the key can still reach the ledger: no message for it is on
its way, and every call for it has raised. -/
structure OutcomeKnown (s : System) (key : IdempotencyKey) : Prop where
  messages : ∀ c ∈ s.inFlight, ∀ m ∈ s.accounts.sent[c]?, m.key ≠ key
  calls : ∀ call ∈ s.ledger.calls, call.poster.key = key → call.hasRaised = true

instance (s : System) (key : IdempotencyKey) : Decidable (s.OutcomeKnown key) :=
  decidable_of_iff ((∀ c ∈ s.inFlight, ∀ m ∈ s.accounts.sent[c]?, m.key ≠ key) ∧
      ∀ call ∈ s.ledger.calls, call.poster.key = key → call.hasRaised = true)
    ⟨fun h => ⟨h.1, h.2⟩, fun h => ⟨h.1, h.2⟩⟩

/-- A row is marked `failed` only while nobody else has claimed it and nothing
done for it can still reach the ledger. -/
def FailsKnowing (settings : Settings) (s : System) : SystemAction → Prop
  | .accounts a => ∀ tx ∈ s.accounts.failing settings a,
    (s.accounts.apartFrom a).Unheld tx.id ∧ s.OutcomeKnown tx.key
  | _ => True

instance (settings : Settings) (s : System) (a : SystemAction) :
    Decidable (s.FailsKnowing settings a) :=
  match a with
  | .accounts a => inferInstanceAs (Decidable (∀ tx ∈ s.accounts.failing settings a, _ ∧ _))
  | .deliver _ | .lose _ | .duplicate _ | .statement _ | .fail _ _ => isTrue trivial

/-- Failed rows are out of reach. -/
def Closed (s : System) : Prop := ∀ r ∈ s.accounts.transactions, r.status = .failed →
  s.accounts.Unheld r.id ∧ s.OutcomeKnown r.key

variable {settings : Settings} {s t : System} {a : SystemAction}

/-- A step of the accounts service sends nothing for a row that nobody holds. -/
theorem Sound.outcome_accounts (sound : s.Sound) {a : AccountsAction} {accounts : AccountsService}
    (step : s.accounts.step settings a = some accounts) (checks : List FundsCheck)
    {key : IdempotencyKey} (known : s.OutcomeKnown key)
    (silent : accounts.sent = s.accounts.sent ∨
      ∀ actor tx, s.accounts.Holds actor tx → tx.key ≠ key) :
    OutcomeKnown ⟨accounts, s.ledger, s.inFlight ++ List.range' s.accounts.sent.length
      (accounts.sent.length - s.accounts.sent.length), s.origin, checks⟩ key := by
  refine ⟨fun c hc m hm => ?_, known.calls⟩
  have unsent : accounts.sent = s.accounts.sent → m.key ≠ key := by
    intro same
    simp only [same, Nat.sub_self, List.range'_zero, List.append_nil] at hc hm
    exact known.messages c hc m hm
  rcases sound.accounts.sends step with same | ⟨⟨actor, tx, m', holds, keyed, sent⟩, -⟩
  · exact unsent same
  rcases silent with same | free
  · exact unsent same
  simp only [sent, List.length_append, List.length_singleton, Nat.add_sub_cancel_left] at hc hm
  rcases List.mem_append.mp hc with old | new
  · rw [List.getElem?_append_left (sound.inFlight c old)] at hm
    exact known.messages c old m hm
  · obtain rfl : c = s.accounts.sent.length := by simpa using new
    obtain rfl : m' = m := by simpa using hm
    rw [keyed]
    exact free actor tx holds

theorem Closed.step_accounts (closed : s.Closed) (sound : s.Sound) {a : AccountsAction}
    {accounts : AccountsService} (step : s.accounts.step settings a = some accounts)
    (knowing : s.FailsKnowing settings (.accounts a)) (checks : List FundsCheck) :
    Closed ⟨accounts, s.ledger, s.inFlight ++ List.range' s.accounts.sent.length
      (accounts.sent.length - s.accounts.sent.length), s.origin, checks⟩ := by
  intro r' hr' failed
  rcases sound.accounts.newly_failed step hr' failed with
    old | ⟨r, listed, id, key, unheld, silent⟩
  · obtain ⟨unheld, known⟩ := closed r' old failed
    refine ⟨(sound.accounts.failed_stays step old failed unheld).2,
      sound.outcome_accounts step checks known (.inr (fun actor tx holds same => ?_))⟩
    obtain ⟨r, hr, intent⟩ := sound.accounts.holds_known holds
    obtain rfl := sound.accounts.keys.eq hr old ((Transaction.key_of_intent intent).trans same)
    exact AccountsService.unheld_iff.mp unheld actor tx holds (Transaction.id_of_intent intent).symm
  · obtain ⟨apart, known⟩ := knowing r listed
    rw [← id, ← key]
    exact ⟨unheld apart, sound.outcome_accounts step checks known (.inl silent)⟩

/-- Deliveries and ledger statements add no call for a key that has none left to come. -/
theorem OutcomeKnown.step {key : IdempotencyKey} (known : s.OutcomeKnown key)
    (away : ∀ b, a ≠ .accounts b) (h : s.step settings a = some t) : t.OutcomeKnown key := by
  cases moved_step h with
  | accounts => exact absurd rfl (away _)
  | refused =>
    exact ⟨fun c hc => known.messages c (List.mem_of_mem_erase hc), known.calls⟩
  | lost => exact ⟨fun c hc => known.messages c (List.mem_of_mem_erase hc), known.calls⟩
  | duplicated flying =>
    refine ⟨fun c hc => ?_, known.calls⟩
    rcases List.mem_cons.mp hc with rfl | old
    · exact known.messages c flying
    · exact known.messages c old
  | arrived sent flying poster cash =>
    refine ⟨fun c hc => known.messages c (List.mem_of_mem_erase hc), fun call hcall same => ?_⟩
    rcases List.mem_append.mp hcall with old | new
    · exact known.calls call old same
    · rw [List.mem_singleton.mp new] at same
      exact absurd (poster.key.symm.trans same) (known.messages _ flying _ sent)
  | ledger of step =>
    refine ⟨known.messages, fun d hd same => ?_⟩
    rcases LedgerService.calls_step (SystemAction.ofLedger_running of) step d hd with
      old | ⟨c, hc, unfinished, poster⟩
    · exact known.calls d old same
    · have raised := known.calls c hc (poster ▸ same)
      exact absurd (unfinished.symm.trans (Call.ended_of_raised raised)) (by decide)

theorem Closed.step (closed : s.Closed) (sound : s.Sound) (knowing : s.FailsKnowing settings a)
    (h : s.step settings a = some t) : t.Closed ∧ ∀ r ∈ s.accounts.transactions,
      r.status = .failed → r ∈ t.accounts.transactions := by
  by_cases away : ∀ b, a ≠ .accounts b
  · have same : t.accounts = s.accounts := by
      cases moved_step h with
      | accounts => exact absurd rfl (away _)
      | refused | lost | duplicated | arrived | ledger => rfl
    rw [Closed, same]
    refine ⟨fun r hr failed => ?_, fun r hr _ => hr⟩
    obtain ⟨unheld, known⟩ := closed r hr failed
    exact ⟨unheld, known.step away h⟩
  · obtain ⟨b, rfl⟩ : ∃ b, a = .accounts b := by simpa using away
    cases moved_step h with
    | accounts answered step =>
      refine ⟨closed.step_accounts sound step knowing _, fun r hr failed => ?_⟩
      exact (sound.accounts.failed_stays step hr failed (closed r hr failed).1).1
    | ledger of => cases of

/-- In a run that marks rows `failed` only when nothing done for them can still
reach the ledger, the ledger has no transaction for a `failed` row, then or ever after. -/
theorem failed_never_posted (settings : Settings) (as bs : List SystemAction) (s t : System)
    (knowing : Machine.Along (step settings) (FailsKnowing settings) empty (as ++ bs))
    (before : Machine.run (step settings) empty as = some s)
    (after : Machine.run (step settings) s bs = some t)
    (r : Transaction) (hr : r ∈ s.accounts.transactions) (failed : r.status = .failed) :
    r ∈ t.accounts.transactions ∧ ∀ x ∈ t.ledger.db.transactions, x.key ≠ r.key := by
  obtain ⟨first, second⟩ := Machine.along_append before knowing
  have closed_empty : empty.Closed := fun r hr => absurd hr List.not_mem_nil
  have inv := Machine.invariant_along (I := fun s => s.Sound ∧ s.Closed)
    (fun s a t inv knowing moved => ⟨inv.1.step moved, (inv.2.step inv.1 knowing moved).1⟩)
    ⟨sound_empty, closed_empty⟩ first before
  have later := Machine.invariant_along
    (I := fun s => (s.Sound ∧ s.Closed) ∧ r ∈ s.accounts.transactions)
    (fun s a t inv knowing moved => by
      obtain ⟨closed, kept⟩ := inv.1.2.step inv.1.1 knowing moved
      exact ⟨⟨inv.1.1.step moved, closed⟩, kept r inv.2 failed⟩)
    ⟨inv, hr⟩ second after
  obtain ⟨⟨sound, closed⟩, stays⟩ := later
  refine ⟨stays, fun x hx same => ?_⟩
  obtain ⟨i, call, l, at_, returned, owner, -⟩ := sound.ledger.posted x hx
  have raised := (closed r stays failed).2.calls call (List.mem_of_getElem? at_) (owner.trans same)
  rw [Call.hasRaised, returned] at raised
  cases raised

/-- A retry worker sends the post of a stored intent. -/
def retried : List SystemAction :=
  onAccounts (.openAccount (AccountsService.customer ⟨7⟩) ::
    AccountsService.storedIntent 0 "a" ⟨101⟩ ++ [.tick 3000, .startWorker, .worker 0 .go,
      .worker 0 (.claimed [⟨101⟩]), .worker 0 .go])

/-- The message is lost, and an hour later the reconciler gives the row up. -/
def lostAndExpired : List SystemAction :=
  retried ++ .lose 0 ::
    onAccounts [.worker 0 (.reply (.error (.internal "ledger gRPC post timeout expired"))),
      .worker 0 .go, .tick 3600000, .reconcileRequeue, .reconcileFail]

/-- The ledger posts, the worker stops before it hears so, and an hour later one
sweep of the reconciler requeues the row and gives it up. -/
def postedAndExpired : List SystemAction :=
  retried ++ .deliver 0 :: onLedger 0 12 ++
    onAccounts [.worker 0 .crash, .tick 3600000, .reconcileRequeue, .reconcileFail]

theorem failed_never_posted_lost : ∃ s t r,
    Machine.run (step .fromEnv) empty lostAndExpired = some s ∧
    Machine.run (step .fromEnv) s (onAccounts [.request (AccountsService.depositOf 50 "a"),
      .handler 1 .go, .handler 1 (.created ⟨102⟩), .handler 1 .go]) = some t ∧
    r ∈ s.accounts.transactions ∧ r.status = .failed ∧
    r ∈ t.accounts.transactions ∧ ∀ x ∈ t.ledger.db.transactions, x.key ≠ r.key := by
  have evaluated : (Machine.run (step .fromEnv) empty lostAndExpired).any (fun s =>
      (Machine.run (step .fromEnv) s (onAccounts [.request (AccountsService.depositOf 50 "a"),
        .handler 1 .go, .handler 1 (.created ⟨102⟩), .handler 1 .go])).isSome &&
      s.accounts.transactions.any (fun r => r.status = .failed)) = true := by decide +kernel
  obtain ⟨s, before, evaluated⟩ := (Option.any_eq_true _ _).mp evaluated
  obtain ⟨later, evaluated⟩ := Bool.and_eq_true_iff.mp evaluated
  obtain ⟨t, after⟩ := Option.isSome_iff_exists.mp later
  obtain ⟨r, hr, failed⟩ := List.any_eq_true.mp evaluated
  have failed : r.status = .failed := of_decide_eq_true failed
  exact ⟨s, t, r, before, after, hr, failed,
    failed_never_posted .fromEnv _ _ s t (by decide +kernel) before after r hr failed⟩

/-- The row is `failed` and the ledger has posted it. -/
theorem failed_but_posted : ¬ ∀ (settings : Settings) (as bs : List SystemAction) (s t : System),
    Machine.run (step settings) empty as = some s → Machine.run (step settings) s bs = some t →
    ∀ r ∈ s.accounts.transactions, r.status = .failed →
    ∀ x ∈ t.ledger.db.transactions, x.key = r.key → x.status ≠ .posted := by
  intro claim
  have evaluated : (Machine.run (step .fromEnv) empty postedAndExpired).any (fun s =>
      s.accounts.transactions.any (fun r => r.status = .failed &&
        s.ledger.db.transactions.any (fun x => x.key = r.key && x.status = .posted))) = true := by
    decide +kernel
  obtain ⟨s, run, evaluated⟩ := (Option.any_eq_true _ _).mp evaluated
  obtain ⟨r, hr, evaluated⟩ := List.any_eq_true.mp evaluated
  obtain ⟨failed, evaluated⟩ := Bool.and_eq_true_iff.mp evaluated
  obtain ⟨x, hx, evaluated⟩ := List.any_eq_true.mp evaluated
  obtain ⟨same, posted⟩ := Bool.and_eq_true_iff.mp evaluated
  exact claim .fromEnv postedAndExpired [] s s run rfl r hr (of_decide_eq_true failed) x hx
    (of_decide_eq_true same) (of_decide_eq_true posted)

end System

end RailsCore
