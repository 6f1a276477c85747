import RailsCore.AccountsMoves

/-!
# Rows and holders across a step

The effect of one step of the accounts service on the rows and on who holds
them. The status writes that end a claim carry no guard on the current status;
`settling` says which row an action writes in this way and what it writes.
-/

namespace RailsCore
open TransactionRepository

/-- The status that ends a claim of a request. -/
def Handler.settledStatus (result : Except AppError Unit) : TransactionStatus :=
  match result with
  | .ok () => .posted
  | .error _ => .pending

/-- The status that ends a claim of a retry worker. -/
def Worker.settledStatus (settings : Settings) (tx : Transaction) (result : Except AppError Unit) :
    TransactionStatus :=
  match result with
  | .ok () => .posted
  | .error _ => if settings.retryMaxAttempts ≤ tx.retryCount then .failed else .pending

theorem Handler.settled_stamps (now : Nat) (tx : Transaction) (result : Except AppError Unit)
    (rows : List Transaction) :
    ∃ f, Stamps now f (Handler.settledStatus result) ∧
      Handler.settled now tx result rows = Table.updateWhere (fun r => r.id = tx.id) f rows := by
  cases result with
  | ok => exact ⟨_, stamps_withStatus now .posted none, rfl⟩
  | error e => exact ⟨_, stamps_withStatus now .pending (some e.display), rfl⟩

theorem Worker.settled_stamps (settings : Settings) (now : Nat) (tx : Transaction)
    (result : Except AppError Unit) (rows : List Transaction) :
    ∃ f, Stamps now f (Worker.settledStatus settings tx result) ∧
      Worker.settled settings now tx result rows =
        Table.updateWhere (fun r => r.id = tx.id) f rows := by
  cases result with
  | ok => exact ⟨_, stamps_withStatus now .posted none, rfl⟩
  | error e =>
    by_cases exhausted : settings.retryMaxAttempts ≤ tx.retryCount
    · simp only [Worker.settled, Worker.settledStatus, exhausted, if_true]
      exact ⟨_, stamps_withTerminalFailure now e.display, rfl⟩
    · simp only [Worker.settled, Worker.settledStatus, exhausted, if_false]
      exact ⟨_, stamps_withRetry now e.display _, rfl⟩

namespace AccountsService

/-- The row whose final status the action writes, by whom, and the status. -/
def settling (settings : Settings) (s : AccountsService) :
    AccountsAction → Option (Actor × Transaction × TransactionStatus)
  | .handler i .go => do
    match (← s.handlers[i]?).point with
    | .settle _ tx result => some (.handler i, tx, Handler.settledStatus result)
    | _ => none
  | .worker i .go => do
    match ← s.workers[i]? with
    | ⟨.settle result, tx :: _⟩ => some (.worker i, tx, Worker.settledStatus settings tx result)
    | ⟨.working, tx :: _⟩ =>
      match TransactionRetry.resolveEnvironment s.accounts tx with
      | .ok _ => none
      | .error _ => some (.worker i, tx, .pending)
    | _ => none
  | _ => none

/-- The action moves stale rows from `posting` back to `pending`. -/
def requeues (s : AccountsService) : AccountsAction → Bool
  | .reconcileRequeue => true
  | .worker i .go => (s.workers[i]?).any (fun w => w.stage = .idle)
  | _ => false

/-- What a step does to the rows and to their holders. -/
inductive Effect (settings : Settings) (s : AccountsService) (a : AccountsAction)
    (t : AccountsService) : Prop where
  | quiet (rows : t.transactions = s.transactions)
      (holds : ∀ actor tx, t.Holds actor tx → s.Holds actor tx)
  | insert (row : Transaction)
      (freshKey : Table.find Transaction.key row.key s.transactions = none)
      (freshId : Table.find Transaction.id row.id s.transactions = none)
      (pending : row.status = .pending) (rows : t.transactions = s.transactions ++ [row])
      (holds : ∀ actor tx, t.Holds actor tx → s.Holds actor tx) (unclaimed : row.retryCount = 0)
  | claim (actor : Actor) (p : Transaction → Bool) (f : Transaction → Transaction)
      (only : ∀ r, p r = true → r.status = .pending) (stamps : Stamps s.now f .posting)
      (rows : t.transactions = Table.updateWhere p f s.transactions)
      (holds : ∀ actor' tx, t.Holds actor' tx → s.Holds actor' tx ∨ actor' = actor ∧
        ∃ r ∈ s.transactions, p r = true ∧ tx.intent = r.intent ∧ tx.updatedAt = s.now)
  | requeue (f : Transaction → Transaction) (at_ : s.requeues a = true)
      (stamps : Stamps s.now f .pending)
      (rows : t.transactions =
        Table.updateWhere (IsStalePosting s.now settings.stalePostingSecs) f s.transactions)
      (holds : ∀ actor tx, t.Holds actor tx → s.Holds actor tx)
  | settle (actor : Actor) (tx : Transaction) (status : TransactionStatus)
      (f : Transaction → Transaction) (held : s.Holds actor tx)
      (at_ : s.settling settings a = some (actor, tx, status)) (stamps : Stamps s.now f status)
      (rows : t.transactions = Table.updateWhere (fun r => r.id = tx.id) f s.transactions)
      (holds : ∀ actor tx, t.Holds actor tx → s.Holds actor tx)
      (released : ∀ tx', t.Holds actor tx' → tx'.id ≠ tx.id)
  | expire (f : Transaction → Transaction) (at_ : a = .reconcileFail)
      (stamps : Stamps s.now f .failed)
      (rows : t.transactions =
        Table.updateWhere (IsOverAge s.now settings.maxPendingAgeSecs) f s.transactions)
      (holds : ∀ actor tx, t.Holds actor tx → s.Holds actor tx)

theorem holds_afterHandler {s : AccountsService} {i : Nat} {h h' : Handler}
    {rows : List Transaction} {message : Option PostTransactionRequest}
    (at_ : s.handlers[i]? = some h) {actor : Actor} {tx : Transaction}
    (holds : (s.afterHandler i h' rows message).Holds actor tx) :
    s.Holds actor tx ∧ actor ≠ .handler i ∨ actor = .handler i ∧ h'.point.held = some tx := by
  cases actor with
  | worker w => exact .inl ⟨holds, by simp⟩
  | handler j =>
    obtain ⟨g, hg, held⟩ := holds
    rcases Machine.replaced_cases at_ hg with ⟨rfl, rfl⟩ | ⟨other, hg⟩
    · exact .inr ⟨rfl, held⟩
    · exact .inl ⟨⟨g, hg, held⟩, fun eq => other (Actor.handler.inj eq)⟩

theorem holds_afterWorker {s : AccountsService} {i : Nat} {w w' : Worker}
    {rows : List Transaction} {message : Option PostTransactionRequest}
    (at_ : s.workers[i]? = some w) {actor : Actor} {tx : Transaction}
    (holds : (s.afterWorker i w' rows message).Holds actor tx) :
    s.Holds actor tx ∧ actor ≠ .worker i ∨ actor = .worker i ∧ tx ∈ w'.batch := by
  cases actor with
  | handler j => exact .inl ⟨holds, by simp⟩
  | worker j =>
    obtain ⟨v, hv, held⟩ := holds
    rcases Machine.replaced_cases at_ hv with ⟨rfl, rfl⟩ | ⟨other, hv⟩
    · exact .inr ⟨rfl, held⟩
    · exact .inl ⟨⟨v, hv, held⟩, fun eq => other (Actor.worker.inj eq)⟩

theorem effect_handler {settings : Settings} {s : AccountsService} {i : Nat} {h : Handler}
    {input : HandlerInput} {rows : List Transaction} {point : HandlerPoint}
    {message : Option PostTransactionRequest} (at_ : s.handlers[i]? = some h)
    (next : h.next s.now s.sent.length s.accounts s.transactions input =
      some (rows, point, message)) :
    Effect settings s (.handler i input) (s.afterHandler i { h with point } rows message) := by
  have keep : ∀ {rows' : List Transaction} {point' : HandlerPoint}
      {message' : Option PostTransactionRequest},
      (point'.held = none ∨ point'.held = h.point.held) → ∀ actor tx,
      (s.afterHandler i { h with point := point' } rows' message').Holds actor tx →
        s.Holds actor tx := by
    intro rows' point' message' held actor tx holds
    rcases holds_afterHandler at_ holds with ⟨old, -⟩ | ⟨rfl, new⟩
    · exact old
    · rcases held with none | same
      · rw [none] at new
        cases new
      · exact ⟨h, at_, same ▸ new⟩
  cases Handler.next_move next with
  | quiet held => exact .quiet rfl (keep (.inl held))
  | reply point => exact .quiet rfl (keep (.inr (by rw [point]; rfl)))
  | insert point freshKey freshId =>
    exact .insert (AccountService.newIntent s.now _ h.request _) freshKey freshId rfl rfl
      (keep (.inl rfl)) rfl
  | claim point found pending =>
    rename_i ctx tx row
    refine .claim (.handler i) (fun r => r.id = tx.id && r.status = .pending)
      (claimedForPost s.now) (fun r hr => ?_) (stamps_claimedForPost s.now) rfl ?_
    · simpa using (Bool.and_eq_true_iff.mp hr).2
    · intro actor tx' holds
      rcases holds_afterHandler at_ holds with ⟨old, -⟩ | ⟨rfl, new⟩
      · exact .inl old
      · obtain rfl := Option.some.inj new
        obtain ⟨mem, same⟩ := Table.find_some found
        exact .inr ⟨rfl, row, mem, by simp [same, pending], rfl, rfl⟩
  | post point => exact .quiet rfl (keep (.inr (by rw [point]; rfl)))
  | settle point =>
    rename_i ctx tx result
    have held : s.Holds (.handler i) tx := ⟨h, at_, by rw [point]; rfl⟩
    have released : ∀ {rows' : List Transaction} {result' : Except AppError Transaction} tx',
        ¬ (s.afterHandler i { h with point := .done result' } rows' none).Holds (.handler i) tx' := by
      intro rows' result' tx' holds
      rcases holds_afterHandler at_ holds with ⟨-, other⟩ | ⟨-, new⟩
      · exact other rfl
      · cases new
    obtain ⟨f, stamps, rows⟩ := Handler.settled_stamps s.now tx result s.transactions
    refine .settle (.handler i) tx _ f held ?_ stamps rows (keep (.inl rfl))
      (fun tx' holds => absurd holds (released tx'))
    simp [settling, at_, point]

theorem effect_worker {settings : Settings} {s : AccountsService} {i : Nat} {w w' : Worker}
    {input : WorkerInput} {rows : List Transaction} {message : Option PostTransactionRequest}
    (at_ : s.workers[i]? = some w) (once : (w.batch.map Transaction.id).Nodup)
    (next : w.next settings s.now s.sent.length s.accounts s.transactions input =
      some (rows, w', message)) :
    Effect settings s (.worker i input) (s.afterWorker i w' rows message) := by
  have keep : ∀ {rows' : List Transaction} {v : Worker}
      {message' : Option PostTransactionRequest}, v.batch <:+ w.batch → ∀ actor tx,
      (s.afterWorker i v rows' message').Holds actor tx → s.Holds actor tx := by
    intro rows' v message' suffix actor tx holds
    rcases holds_afterWorker at_ holds with ⟨old, -⟩ | ⟨rfl, new⟩
    · exact old
    · exact ⟨w, at_, suffix.subset new⟩
  -- the row at the head is in no other place of the batch
  have released : ∀ {rows' : List Transaction} {tx : Transaction} {rest : List Transaction},
      w.batch = tx :: rest → ∀ tx', (s.afterWorker i (Worker.on rest) rows' none).Holds (.worker i)
        tx' → tx'.id ≠ tx.id := by
    intro rows' tx rest batch tx' holds same
    rcases holds_afterWorker at_ holds with ⟨-, other⟩ | ⟨-, new⟩
    · exact other rfl
    · rw [batch, List.map_cons, List.nodup_cons] at once
      exact once.1 (same ▸ List.mem_map_of_mem new)
  cases Worker.next_move next with
  | quiet calm suffix => exact .quiet rfl (keep suffix)
  | reply stage =>
    subst stage
    exact .quiet rfl (keep (List.suffix_refl _))
  | reclaim idle =>
    refine .requeue _ ?_ (stamps_requeued s.now _) rfl (keep List.nil_suffix)
    simp [requeues, at_, idle]
  | claim stage claimed =>
    rename_i ids batch
    obtain ⟨rfl, nodup, few, all⟩ := claim_batch claimed
    refine .claim (.worker i) (fun r => IsCandidate s.now 2 r && r.id ∈ ids)
      (claimedForRetry s.now) (fun r hr => ?_) (stamps_claimedForRetry s.now) rfl ?_
    · have candidate := (Bool.and_eq_true_iff.mp hr).1
      simp only [IsCandidate, Bool.and_eq_true, decide_eq_true_eq] at candidate
      exact candidate.1.1
    · intro actor tx holds
      rcases holds_afterWorker at_ holds with ⟨old, -⟩ | ⟨rfl, new⟩
      · exact .inl old
      · obtain ⟨r, hr, picked, rfl⟩ := all tx new
        exact .inr ⟨rfl, r, hr, picked, rfl, rfl⟩
  | post stage resolved =>
    subst stage
    exact .quiet rfl (keep (List.suffix_refl _))
  | release stage unresolved =>
    rename_i tx rest e
    subst stage
    refine .settle (.worker i) tx .pending _ ⟨_, at_, List.mem_cons_self⟩ ?_
      (stamps_withStatus s.now .pending _) rfl (keep (List.suffix_cons tx rest)) (released rfl)
    simp [settling, at_, unresolved]
  | settle stage =>
    rename_i tx rest result
    subst stage
    obtain ⟨f, stamps, rows⟩ := Worker.settled_stamps settings s.now tx result s.transactions
    refine .settle (.worker i) tx _ f ⟨_, at_, List.mem_cons_self⟩ ?_ stamps rows
      (keep (List.suffix_cons tx rest)) (released rfl)
    simp [settling, at_]

/-- Every step has one of the effects, when no worker has a row twice in its batch. -/
theorem effect_step {settings : Settings} {s t : AccountsService} {a : AccountsAction}
    (once : ∀ w ∈ s.workers, (w.batch.map Transaction.id).Nodup)
    (step : s.step settings a = some t) : Effect settings s a t := by
  cases a with
  | tick ms =>
    cases step
    exact .quiet rfl (fun _ _ holds => holds)
  | openAccount account =>
    rw [AccountsService.step] at step
    split_ifs at step
    cases step
    exact .quiet rfl (fun _ _ holds => holds)
  | setAccountStatus id status =>
    cases step
    exact .quiet rfl (fun _ _ holds => holds)
  | request q =>
    cases step
    refine .quiet rfl (fun actor tx holds => ?_)
    cases actor with
    | worker w => exact holds
    | handler i =>
      obtain ⟨h, hh, held⟩ := holds
      simp only [List.getElem?_append] at hh
      split_ifs at hh
      · exact ⟨h, hh, held⟩
      · obtain rfl := List.mem_singleton.mp (List.mem_of_getElem? hh)
        cases held
  | startWorker =>
    cases step
    refine .quiet rfl (fun actor tx holds => ?_)
    cases actor with
    | handler i => exact holds
    | worker i =>
      obtain ⟨w, hw, held⟩ := holds
      simp only [List.getElem?_append] at hw
      split_ifs at hw
      · exact ⟨w, hw, held⟩
      · obtain rfl := List.mem_singleton.mp (List.mem_of_getElem? hw)
        simp [Worker.idle] at held
  | handler i input =>
    obtain ⟨h, at_, rest⟩ := Option.bind_eq_some_iff.mp step
    obtain ⟨⟨rows, point, message⟩, next, done⟩ := Option.bind_eq_some_iff.mp rest
    cases done
    exact effect_handler at_ next
  | worker i input =>
    obtain ⟨w, at_, rest⟩ := Option.bind_eq_some_iff.mp step
    obtain ⟨⟨rows, w', message⟩, next, done⟩ := Option.bind_eq_some_iff.mp rest
    cases done
    exact effect_worker at_ (once w (List.mem_of_getElem? at_)) next
  | reconcileRequeue =>
    cases step
    exact .requeue _ rfl (stamps_requeued s.now _) rfl (fun _ _ holds => holds)
  | reconcileFail =>
    cases step
    exact .expire _ rfl (stamps_expired s.now) rfl (fun _ _ holds => holds)

/-- A request after a step is one from before, a new one, or has made a move. -/
theorem handlers_step {settings : Settings} {s t : AccountsService} {a : AccountsAction}
    (step : s.step settings a = some t) : ∀ h' ∈ t.handlers, h' ∈ s.handlers ∨ h'.point = .start ∨
      ∃ i h input rows point message, a = .handler i input ∧ s.handlers[i]? = some h ∧
        h' = { h with point } ∧ t.transactions = rows ∧
        HandlerMove s.now s.sent.length s.transactions h input rows point message := by
  intro h' hh'
  cases a with
  | tick ms | setAccountStatus id status | startWorker | reconcileRequeue | reconcileFail =>
    cases step
    exact .inl hh'
  | openAccount account =>
    rw [AccountsService.step] at step
    split_ifs at step
    cases step
    exact .inl hh'
  | request q =>
    cases step
    rcases List.mem_append.mp hh' with old | new
    · exact .inl old
    · exact .inr (.inl (List.mem_singleton.mp new ▸ rfl))
  | worker i input =>
    obtain ⟨w, at_, rest⟩ := Option.bind_eq_some_iff.mp step
    obtain ⟨⟨rows, w', message⟩, next, done⟩ := Option.bind_eq_some_iff.mp rest
    cases done
    exact .inl hh'
  | handler i input =>
    obtain ⟨h, at_, rest⟩ := Option.bind_eq_some_iff.mp step
    obtain ⟨⟨rows, point, message⟩, next, done⟩ := Option.bind_eq_some_iff.mp rest
    cases done
    rcases List.mem_or_eq_of_mem_set hh' with old | rfl
    · exact .inl old
    · exact .inr (.inr ⟨i, h, input, rows, point, message, rfl, at_, rfl, rfl,
        Handler.next_move next⟩)

theorem workers_step {settings : Settings} {s t : AccountsService} {a : AccountsAction}
    (step : s.step settings a = some t) : ∀ w' ∈ t.workers, w' ∈ s.workers ∨ w' = Worker.idle ∨
      ∃ i w input rows message, a = .worker i input ∧ s.workers[i]? = some w ∧
        t.transactions = rows ∧
        WorkerMove settings s.now s.sent.length s.accounts s.transactions w input rows w'
          message := by
  intro w' hw'
  cases a with
  | tick ms | setAccountStatus id status | request q | reconcileRequeue | reconcileFail =>
    cases step
    exact .inl hw'
  | openAccount account =>
    rw [AccountsService.step] at step
    split_ifs at step
    cases step
    exact .inl hw'
  | startWorker =>
    cases step
    rcases List.mem_append.mp hw' with old | new
    · exact .inl old
    · exact .inr (.inl (List.mem_singleton.mp new))
  | handler i input =>
    obtain ⟨h, at_, rest⟩ := Option.bind_eq_some_iff.mp step
    obtain ⟨⟨rows, point, message⟩, next, done⟩ := Option.bind_eq_some_iff.mp rest
    cases done
    exact .inl hw'
  | worker i input =>
    obtain ⟨w, at_, rest⟩ := Option.bind_eq_some_iff.mp step
    obtain ⟨⟨rows, v, message⟩, next, done⟩ := Option.bind_eq_some_iff.mp rest
    cases done
    rcases List.mem_or_eq_of_mem_set hw' with old | rfl
    · exact .inl old
    · exact .inr (.inr ⟨i, w, input, rows, message, rfl, at_, rfl, Worker.next_move next⟩)

end AccountsService

end RailsCore
