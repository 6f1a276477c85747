import RailsCore.System

/-!
# At-most-once posting

What ties the rows, the messages on their way and the ledger together in every
run: each ledger call was made for a message, each message for a row, and
whoever has been told of a success has a posted transaction to show for it.
From it, no loss, repetition or delay makes the ledger post a key twice.
-/

namespace RailsCore
open TransactionRepository

/-- The row whose post the request knows to have succeeded. -/
def HandlerPoint.confirmed : HandlerPoint → Option Transaction
  | .settle _ tx (.ok ()) => some tx
  | _ => none

def Worker.confirmed : Worker → Option Transaction
  | ⟨.settle (.ok ()), tx :: _⟩ => some tx
  | _ => none

theorem HandlerPoint.shown_done {result : Except AppError Transaction} {tx : Transaction}
    (shown : tx ∈ (HandlerPoint.done result).shown) : result = .ok tx := by
  cases result with
  | error e => cases shown
  | ok row => exact congrArg _ (Option.some.inj shown)

theorem HandlerPoint.confirmed_of_held {point : HandlerPoint} (held : point.held = none) :
    point.confirmed = none := by
  cases point <;> first
    | rfl
    | cases held

theorem Worker.confirmed_calm {w : Worker} (calm : w.stage = .idle ∨ w.stage = .working) :
    w.confirmed = none := by
  obtain ⟨stage, batch⟩ := w
  rcases calm with rfl | rfl <;> rfl

/-- A row is marked `posted` by an actor that knows of the success. -/
theorem AccountsService.settling_posted {settings : Settings} {s : AccountsService}
    {a : AccountsAction} {actor : Actor} {tx : Transaction}
    (at_ : s.settling settings a = some (actor, tx, .posted)) :
    (∃ h ∈ s.handlers, h.point.confirmed = some tx) ∨ ∃ w ∈ s.workers, w.confirmed = some tx := by
  cases a with
  | tick ms | openAccount account | setAccountStatus id status | request q | startWorker
  | reconcileRequeue | reconcileFail => cases at_
  | handler i input =>
    cases input with
    | created id | balance answer | reply answer | fail e => cases at_
    | go =>
      obtain ⟨h, found, here⟩ := Option.bind_eq_some_iff.mp at_
      obtain ⟨q, point⟩ := h
      cases point <;> simp at here
      rename_i ctx row result
      obtain ⟨-, rfl, posted⟩ := here
      cases result with
      | error e => cases posted
      | ok => exact .inl ⟨_, List.mem_of_getElem? found, rfl⟩
  | worker i input =>
    cases input with
    | claimed ids | reply answer | writeLost | crash => cases at_
    | go =>
      obtain ⟨w, found, here⟩ := Option.bind_eq_some_iff.mp at_
      obtain ⟨stage, batch⟩ := w
      cases batch with
      | nil => cases stage <;> simp at here
      | cons row rest =>
        cases stage with
        | idle | claiming | awaiting => simp at here
        | working =>
          cases resolved : TransactionRetry.resolveEnvironment s.accounts row <;>
            simp [resolved] at here
        | settle result =>
          obtain ⟨-, rfl, posted⟩ : Actor.worker i = actor ∧ row = tx ∧
              Worker.settledStatus settings row result = .posted := by simpa using here
          cases result with
          | error e =>
            rw [Worker.settledStatus] at posted
            split_ifs at posted
          | ok => exact .inr ⟨_, List.mem_of_getElem? found, rfl⟩

namespace Ledger

theorem Sound.once {db : Ledger} (sound : db.Sound) (key : IdempotencyKey) :
    (db.transactions.filter (fun t => t.key = key)).length ≤ 1 := by
  have single := List.nodup_iff_count_le_one.mp sound.keys key
  rw [List.count, List.countP_map, List.countP_eq_length_filter] at single
  simpa [Function.comp_def, beq_eq_decide] using single

theorem Sound.entries_paired {db : Ledger} (sound : db.Sound) (key : IdempotencyKey) :
    (db.entriesOf key).length = 0 ∨ (db.entriesOf key).length = 2 := by
  cases row : db.transaction key with
  | none => exact .inl (by rw [sound.entriesOf_missing row]; rfl)
  | some x =>
    obtain ⟨mem, same⟩ := Table.find_some row
    obtain ⟨p, l, owner, recorded⟩ := sound.recorded x mem
    have entries := recorded.entries
    rw [owner.trans same] at entries
    exact .inr (by rw [entries]; rfl)

end Ledger

namespace System

/-- The ledger has a transaction for the key. -/
def Has (s : System) (key : IdempotencyKey) : Prop := ∃ t ∈ s.ledger.db.transactions, t.key = key

/-- What no run from empty tables breaks. -/
structure Sound (s : System) : Prop where
  accounts : s.accounts.Sound
  ledger : s.ledger.Sound
  origin : s.origin.length = s.ledger.calls.length
  posters : ∀ made ∈ s.origin.zip (s.ledger.calls.map Call.poster),
    ∃ m, s.accounts.sent[made.1]? = some m ∧ PosterOf m made.2
  inFlight : ∀ c ∈ s.inFlight, c < s.accounts.sent.length
  handlers : ∀ h ∈ s.accounts.handlers, ∀ tx ∈ h.point.confirmed, s.Has tx.key
  workers : ∀ w ∈ s.accounts.workers, ∀ tx ∈ w.confirmed, s.Has tx.key
  posted : ∀ r ∈ s.accounts.transactions, r.status = .posted → s.Has r.key
  shown : ∀ h ∈ s.accounts.handlers, ∀ tx ∈ h.point.shown, tx.status = .posted → s.Has tx.key

theorem sound_empty : empty.Sound := by
  constructor <;> first
    | exact AccountsService.sound_empty
    | exact LedgerService.sound_empty
    | simp [empty, AccountsService.empty, LedgerService.empty]

variable {settings : Settings} {s t : System}

/-- A message whose call has returned is posted. -/
theorem Sound.has_posted (sound : s.Sound) {c : Nat} (posted : s.Posted c) :
    ∃ m, s.accounts.sent[c]? = some m ∧ s.Has m.key := by
  obtain ⟨⟨c', call⟩, made, rfl, returned⟩ := posted
  obtain ⟨m, sent, poster⟩ := sound.posters (c', call.poster) (by
    rw [List.zip_map_right]
    exact List.mem_map_of_mem (f := Prod.map id Call.poster) made)
  refine ⟨m, sent, ?_⟩
  obtain ⟨i, at_⟩ := List.mem_iff_getElem?.mp (List.of_mem_zip made).2
  obtain ⟨x, hx⟩ := Option.ne_none_iff_exists'.mp
    ((sound.ledger.calls i call at_).row returned)
  obtain ⟨mem, key⟩ := Table.find_some hx
  exact ⟨x, mem, key.trans poster.key⟩

/-- The accounts service takes a step; the ledger does nothing. -/
theorem Sound.step_accounts (sound : s.Sound) {a : AccountsAction} {accounts : AccountsService}
    (answered : s.Answered settings a) (step : s.accounts.step settings a = some accounts)
    (checks : List FundsCheck) :
    Sound ⟨accounts, s.ledger, s.inFlight ++ List.range' s.accounts.sent.length
      (accounts.sent.length - s.accounts.sent.length), s.origin, checks⟩ := by
  have grows := sound.accounts.grows step
  have later := sound.accounts.step step
  have rows : ∀ r ∈ accounts.transactions, r.status = .posted → s.Has r.key := by
    intro r' hr' posted
    have spared : ∀ {p : Transaction → Bool} {f : Transaction → Transaction}
        {status : TransactionStatus}, Stamps s.accounts.now f status → status ≠ .posted →
        accounts.transactions = Table.updateWhere p f s.accounts.transactions → s.Has r'.key := by
      intro p f status stamps other updated
      rw [updated] at hr'
      obtain ⟨r, hr, rfl⟩ := Table.mem_updateWhere.mp hr'
      by_cases hit : p r = true
      · rw [if_pos hit, stamps.status] at posted
        exact absurd posted other
      · rw [if_neg hit] at posted ⊢
        exact sound.posted r hr posted
    cases sound.accounts.effect step with
    | quiet same => exact sound.posted r' (same ▸ hr') posted
    | insert row freshKey freshId pending inserted =>
      rw [inserted] at hr'
      rcases List.mem_append.mp hr' with old | new
      · exact sound.posted r' old posted
      · rw [List.mem_singleton.mp new, pending] at posted
        cases posted
    | claim actor p f only stamps updated => exact spared stamps (by decide) updated
    | requeue f at_ stamps updated => exact spared stamps (by decide) updated
    | expire f at_ stamps updated => exact spared stamps (by decide) updated
    | settle actor tx status f held at_ stamps updated =>
      by_cases confirmed : status = .posted
      · subst confirmed
        have hasRow : s.Has tx.key := by
          rcases AccountsService.settling_posted at_ with ⟨h, hh, here⟩ | ⟨w, hw, here⟩
          · exact sound.handlers h hh tx here
          · exact sound.workers w hw tx here
        rw [updated] at hr'
        obtain ⟨r, hr, rfl⟩ := Table.mem_updateWhere.mp hr'
        by_cases hit : r.id = tx.id
        · obtain ⟨r₀, hr₀, same⟩ := sound.accounts.holds_known held
          obtain rfl := sound.accounts.ids.eq hr hr₀ (hit.trans (Transaction.id_of_intent same).symm)
          rw [if_pos (by simpa using hit), Transaction.key_of_intent (stamps.intent r),
            Transaction.key_of_intent same]
          exact hasRow
        · rw [if_neg (by simpa using hit)] at posted ⊢
          exact sound.posted r hr posted
      · exact spared stamps confirmed updated
  refine ⟨later, sound.ledger, sound.origin, ?_, ?_, ?_, ?_, rows, ?_⟩
  · intro made hmade
    obtain ⟨m, sent, poster⟩ := sound.posters made hmade
    obtain ⟨more, grown⟩ := grows.sent
    refine ⟨m, ?_, poster⟩
    rw [← grown, List.getElem?_append_left (List.getElem?_eq_some_iff.mp sent).1]
    exact sent
  · intro c hc
    have := grows.sent.length_le
    rcases List.mem_append.mp hc with old | new
    · have := sound.inFlight c old
      show c < accounts.sent.length
      omega
    · obtain ⟨j, hj, rfl⟩ := List.mem_range'.mp new
      show _ < accounts.sent.length
      omega
  · intro h' hh' tx confirmed
    rcases AccountsService.handlers_step step h' hh' with
      old | start | ⟨i, h, input, rows', point, message, rfl, at_, rfl, -, move⟩
    · exact sound.handlers h' old tx confirmed
    · rw [start] at confirmed
      cases confirmed
    · cases move with
      | quiet held =>
        rw [HandlerPoint.confirmed_of_held held] at confirmed
        cases confirmed
      | insert | claim | post | settle => cases confirmed
      | reply waiting =>
        rename_i ctx row call sentAt answer
        rcases answer with e | ⟨⟩
        · cases confirmed
        · cases confirmed
          have awaited : h.point.awaited = some (call, tx) := by rw [waiting]; rfl
          obtain ⟨m, sent, has⟩ := sound.has_posted (answered h at_ (call, tx) awaited)
          obtain ⟨m', sent', key⟩ := sound.accounts.awaitedByHandler h (List.mem_of_getElem? at_) call
            tx awaited
          obtain rfl := Option.some.inj (sent.symm.trans sent')
          exact key ▸ has
  · intro w' hw' tx confirmed
    rcases AccountsService.workers_step step w' hw' with
      old | rfl | ⟨i, w, input, rows', message, rfl, at_, -, move⟩
    · exact sound.workers w' old tx confirmed
    · cases confirmed
    · cases move with
      | quiet calm =>
        rw [Worker.confirmed_calm calm] at confirmed
        cases confirmed
      | claim | release | settle =>
        rw [Worker.confirmed_calm (Worker.stage_on _)] at confirmed
        cases confirmed
      | reclaim | post => cases confirmed
      | reply waiting =>
        rename_i row rest call sentAt answer
        rcases answer with e | ⟨⟩
        · cases confirmed
        · cases confirmed
          have awaited : w.awaited = some (call, tx) := by rw [waiting]; rfl
          obtain ⟨m, sent, has⟩ := sound.has_posted (answered w at_ (call, tx) awaited)
          obtain ⟨m', sent', key⟩ := sound.accounts.awaitedByWorker w (List.mem_of_getElem? at_) call
            tx awaited
          obtain rfl := Option.some.inj (sent.symm.trans sent')
          exact key ▸ has
  · intro h' hh' tx shown posted
    rcases AccountsService.handlers_step step h' hh' with
      old | start | ⟨i, h, input, rows', point, message, rfl, at_, rfl, same, move⟩
    · exact sound.shown h' old tx shown posted
    · rw [start] at shown
      cases shown
    · cases move with
      | quiet held known =>
        rcases known tx shown with before | ⟨r, hr, key, status⟩
        · exact sound.shown h (List.mem_of_getElem? at_) tx before posted
        · exact key ▸ sound.posted r hr (status.trans posted)
      | reply | claim | post => cases shown
      | insert =>
        obtain rfl := Option.some.inj shown
        cases posted
      | settle =>
        obtain ⟨r, hr, key, status⟩ := findById_ok (HandlerPoint.shown_done shown)
        exact key ▸ rows r (same ▸ hr) (status.trans posted)

/-- A step of the ledger alone. -/
theorem Sound.step_ledger (sound : s.Sound) {b : LedgerAction} {ledger : LedgerService}
    (running : ∀ call, b ≠ .arrive call) (step : s.ledger.step b = some ledger) :
    Sound { s with ledger } := by
  have posters := LedgerService.posters_step running step
  have grown : ∀ {key}, s.Has key → Has { s with ledger } key := by
    rintro key ⟨x, hx, same⟩
    exact ⟨x, (sound.ledger.keeps_rows step).subset hx, same⟩
  refine ⟨sound.accounts, sound.ledger.step step, ?_, ?_, sound.inFlight, ?_, ?_, ?_, ?_⟩
  · have lengths := congrArg List.length posters
    simp only [List.length_map] at lengths
    exact sound.origin.trans lengths.symm
  · rw [posters]
    exact sound.posters
  · exact fun h hh tx confirmed => grown (sound.handlers h hh tx confirmed)
  · exact fun w hw tx confirmed => grown (sound.workers w hw tx confirmed)
  · exact fun r hr posted => grown (sound.posted r hr posted)
  · exact fun h hh tx shown posted => grown (sound.shown h hh tx shown posted)

/-- The step lemma of the two services together. -/
theorem Sound.step (sound : s.Sound) {a : SystemAction} (h : s.step settings a = some t) :
    t.Sound := by
  cases moved_step h with
  | accounts answered step => exact sound.step_accounts answered step _
  | refused =>
    exact { sound with inFlight := fun c hc => sound.inFlight c (List.mem_of_mem_erase hc) }
  | lost =>
    exact { sound with inFlight := fun c hc => sound.inFlight c (List.mem_of_mem_erase hc) }
  | duplicated flying =>
    refine { sound with inFlight := fun c hc => ?_ }
    rcases List.mem_cons.mp hc with rfl | old
    · exact sound.inFlight c flying
    · exact sound.inFlight c old
  | arrived sent flying poster cash =>
    rename_i c m p
    refine ⟨sound.accounts, sound.ledger.arrive cash, ?_, ?_, ?_, sound.handlers, sound.workers,
      sound.posted, sound.shown⟩
    · simp [sound.origin]
    · intro made hmade
      rw [List.map_append, List.zip_append (by simp [sound.origin])] at hmade
      rcases List.mem_append.mp hmade with old | new
      · exact sound.posters made old
      · obtain rfl : made = (c, p) := by simpa [Call.start] using new
        exact ⟨m, sent, poster⟩
    · exact fun c hc => sound.inFlight c (List.mem_of_mem_erase hc)
  | ledger of step => exact sound.step_ledger (SystemAction.ofLedger_running of) step

theorem sound_run {as : List SystemAction} {s : System}
    (run : Machine.run (step settings) empty as = some s) : s.Sound :=
  Machine.invariant_run (fun _ _ _ sound moved => sound.step moved) sound_empty run

/-- In every run from empty tables the ledger has at most one transaction and
none or two entries for a key, and a row is `posted` only where the ledger has a
posted transaction for its key. -/
theorem at_most_once (settings : Settings) (as : List SystemAction) (s : System)
    (run : Machine.run (step settings) empty as = some s) :
    (∀ key, (s.ledger.db.transactions.filter (fun x => x.key = key)).length ≤ 1 ∧
      ((s.ledger.db.entriesOf key).length = 0 ∨ (s.ledger.db.entriesOf key).length = 2)) ∧
    ∀ r ∈ s.accounts.transactions, r.status = .posted →
      ∃ x ∈ s.ledger.db.transactions, x.key = r.key ∧ x.status = .posted := by
  have sound := sound_run run
  have tables := sound.ledger.tables
  refine ⟨fun key => ⟨tables.once key, tables.entries_paired key⟩, fun r hr posted => ?_⟩
  obtain ⟨x, hx, same⟩ := sound.posted r hr posted
  exact ⟨x, hx, same, tables.posted hx⟩

/-- A deposit is claimed and posted; its message arrives twice and both calls
look for the key before either has committed. The request gives up, and after
the lease a retry worker posts the row again. -/
def postedThrice : List SystemAction :=
  onAccounts [.openAccount (AccountsService.customer ⟨7⟩), .request (AccountsService.depositOf 50 "a"),
    .handler 0 .go, .handler 0 (.created ⟨101⟩), .handler 0 .go, .handler 0 .go] ++
  [.duplicate 0, .deliver 0, .deliver 0] ++ onLedger 0 3 ++ onLedger 1 1 ++ onLedger 0 9 ++
  onLedger 1 1 ++
  onAccounts [.handler 0 (.fail (.internal "connection closed")), .tick 600001, .startWorker,
    .worker 0 .go, .worker 0 (.claimed [⟨101⟩]), .worker 0 .go] ++
  .deliver 1 :: onLedger 2 1 ++ onAccounts [.worker 0 (.reply (.ok ())), .worker 0 .go]

theorem at_most_once_thrice : ∃ s, Machine.run (step .fromEnv) empty postedThrice = some s ∧
    s.ledger.calls.length = 3 ∧ s.accounts.transactions.any (fun r => r.status = .posted) = true ∧
    (∀ key, (s.ledger.db.transactions.filter (fun x => x.key = key)).length ≤ 1 ∧
      ((s.ledger.db.entriesOf key).length = 0 ∨ (s.ledger.db.entriesOf key).length = 2)) ∧
    ∀ r ∈ s.accounts.transactions, r.status = .posted →
      ∃ x ∈ s.ledger.db.transactions, x.key = r.key ∧ x.status = .posted := by
  have evaluated : (Machine.run (step .fromEnv) empty postedThrice).any (fun s =>
      s.ledger.calls.length = 3 && s.accounts.transactions.any (fun r => r.status = .posted)) =
      true := by decide +kernel
  obtain ⟨s, run, evaluated⟩ := (Option.any_eq_true _ _).mp evaluated
  obtain ⟨calls, posted⟩ := Bool.and_eq_true_iff.mp evaluated
  exact ⟨s, run, of_decide_eq_true calls, posted, at_most_once .fromEnv postedThrice s run⟩

end System

end RailsCore
