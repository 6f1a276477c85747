import RailsCore.LedgerRuns

/-!
# Posts that fail

One call on its own that raises at some statement, because the statement
raises or because the database fails there. The tables are as before if the
call posts a new row: it is one transaction. The completion of a row that is
already there opens no transaction, and what it has written stays. It is assumed
of the database that a statement or a `COMMIT` that is answered with an error
has had no effect.
-/

namespace RailsCore

/-- In the completion of an existing row, the statements before its first write. -/
def LedgerPoster.statementsBeforeWrite (p : LedgerPoster) (db : Ledger) : Nat :=
  if db.account p.sourceId = none then 2
  else if db.account p.destinationId = none then 3
  else 4

/-- Rows that are never deleted, counted. -/
def Ledger.size (db : Ledger) : Nat := db.accounts.length + db.entries.length

theorem Ledger.size_applyAll (db : Ledger) (ws : List Write) :
    (db.applyAll ws).size = db.size + (ofWrites ws).size := by
  rw [size, size, size, accounts_applyAll, entries_applyAll, List.length_append, List.length_append]
  omega

namespace Point

/-- Inside the posting of a row the next point is inside it too, or is its end. -/
theorem inside_statement {p : LedgerPoster} {point next : Point} {view : Ledger}
    {ws : List Write} (inside : point.remaining ≠ none)
    (run : p.statement point view = (.ok next, ws)) :
    next.remaining ≠ none ∨ next = .returned := by
  cases point with
  | findExisting | createTransaction | checkEntries | returned | raised e =>
    exact absurd rfl inside
  | commit l =>
    obtain ⟨rfl, -⟩ : .returned = next ∧ [] = ws := by simpa [LedgerPoster.statement] using run
    exact .inr rfl
  | insertSourceEntry source destination =>
    obtain ⟨-, -, rfl, -⟩ := LedgerPoster.insertSourceEntry_ok run
    exact .inl (by simp [Point.remaining])
  | resolveSource | resolveDestination source | saveSourceBalance l found
  | saveDestinationBalance l found =>
    obtain ⟨u, us, rest, -, done, -⟩ := PosterM.bind_eq_ok run
    obtain ⟨rfl, -⟩ := by simpa [PosterM.bind_run] using done
    exact .inl (by simp [Point.remaining])
  | insertDestinationEntry l | findSourceBalance l | findDestinationBalance l | markAsPosted l =>
    obtain ⟨rfl, -⟩ := by
      simpa [LedgerPoster.statement, LedgerPoster.markAsPosted, PosterM.bind_run] using run
    exact .inl (by simp [Point.remaining])

/-- A call is not raised by a statement that succeeds. -/
theorem not_raised_statement {p : LedgerPoster} {point : Point} {view : Ledger} {ws : List Write}
    {e : PostingError} (running : ∀ e, point ≠ .raised e) :
    p.statement point view ≠ (.ok (.raised e), ws) := by
  intro run
  by_cases inside : point.remaining ≠ none
  · rcases inside_statement inside run with more | finished
    · exact more rfl
    · cases finished
  · cases point with
    | findExisting =>
      cases row : view.transaction p.key with
      | none => simp [LedgerPoster.statement, PosterM.bind_run, row] at run
      | some existing =>
        simp only [LedgerPoster.statement, PosterM.bind_run, PosterM.select_run, row,
          PosterM.pure_run, Prod.mk.injEq, Except.ok.injEq] at run
        split_ifs at run <;> cases run.1
    | createTransaction =>
      obtain ⟨u, us, rest, -, done, -⟩ := PosterM.bind_eq_ok run
      simp at done
    | checkEntries =>
      obtain ⟨entries, us, rest, -, done, -⟩ := PosterM.bind_eq_ok run
      split_ifs at done <;> simp at done
    | returned => simp [LedgerPoster.statement] at run
    | raised e => exact running e rfl
    | _ => simp [Point.remaining] at inside

end Point

/-- Where the completion of an existing row stands that has written nothing. -/
inductive Unwritten (db : Ledger) (p : LedgerPoster) : Nat → Point → Prop where
  | checkEntries : Unwritten db p 1 .checkEntries
  | resolveSource : Unwritten db p 2 .resolveSource
  | resolveDestination {source} (found : db.account p.sourceId = some source) :
      Unwritten db p 3 (.resolveDestination source)
  | insertSourceEntry {source destination} (found : db.account p.sourceId = some source)
      (found' : db.account p.destinationId = some destination) :
      Unwritten db p 4 (.insertSourceEntry source destination)

theorem Unwritten.le {db : Ledger} {p : LedgerPoster} {k : Nat} {point : Point}
    (h : Unwritten db p k point) : k ≤ p.statementsBeforeWrite db := by
  rw [LedgerPoster.statementsBeforeWrite]
  cases h with
  | checkEntries | resolveSource => split_ifs <;> omega
  | resolveDestination found =>
    rw [if_neg (by simp [found])]
    split_ifs <;> omega
  | insertSourceEntry found found' => simp [found, found']

/-- A call on its own over the tables `db`, after `k` of its statements. -/
inductive Attempt (db : Ledger) (p : LedgerPoster) (k : Nat) : LedgerService → Prop where
  | looking (first : k = 0) : Attempt db p k ⟨db, [Call.start p]⟩
  | posting {c} (fresh : db.transaction p.key = none) (begins : LedgerService.begins c = true) :
      Attempt db p k ⟨db, [c]⟩
  | completing {point} (row : db.transaction p.key ≠ none) (unwritten : Unwritten db p k point) :
      Attempt db p k ⟨db, [⟨p, point, false, []⟩]⟩
  | written {db' point} (row : db.transaction p.key ≠ none)
      (late : p.statementsBeforeWrite db < k) (grown : db.size < db'.size)
      (inside : point.remaining ≠ none) : Attempt db p k ⟨db', [⟨p, point, false, []⟩]⟩
  | ended {s c} (one : s.calls = [c]) (finished : c.ended = true) : Attempt db p k s

namespace Attempt
open LedgerService LedgerPoster

variable {db : Ledger} {p : LedgerPoster} {k : Nat} {s t : LedgerService}

/-- One statement of a completion that has written nothing. -/
theorem completed {point next : Point} {ws : List Write} (row : db.transaction p.key ≠ none)
    (unwritten : Unwritten db p k point) (run : p.statement point db = (.ok next, ws)) :
    Attempt db p (k + 1) ⟨db.applyAll ws, [⟨p, next, false, []⟩]⟩ := by
  cases unwritten with
  | checkEntries =>
    obtain ⟨entries, us, rest, selected, done, rfl⟩ := PosterM.bind_eq_ok run
    obtain ⟨-, rfl⟩ : db.entriesOf p.key = entries ∧ [] = us := by simpa using selected
    split_ifs at done
    · simp at done
    · obtain ⟨rfl, rfl⟩ : .resolveSource = next ∧ [] = rest := by simpa using done
      exact .completing row .resolveSource
  | resolveSource =>
    cases found : db.account p.sourceId with
    | some source =>
      obtain ⟨rfl, rfl⟩ : .resolveDestination source = next ∧ [] = ws := by
        simpa [statement, PosterM.bind_run, resolve_found found] using run
      exact .completing row (.resolveDestination found)
    | none =>
      obtain ⟨source, us, rest, resolved, done, rfl⟩ := PosterM.bind_eq_ok run
      obtain ⟨rfl, rfl⟩ : .resolveDestination source = next ∧ [] = rest := by simpa using done
      obtain ⟨rfl, rfl⟩ := resolve_missing found resolved
      refine .written row ?_ ?_ (by simp [Point.remaining])
      · simp [statementsBeforeWrite, found]
      · simp [Ledger.size, Ledger.apply]
  | resolveDestination source_ =>
    rename_i source
    cases found : db.account p.destinationId with
    | some destination =>
      obtain ⟨rfl, rfl⟩ : .insertSourceEntry source destination = next ∧ [] = ws := by
        simpa [statement, PosterM.bind_run, resolve_found found] using run
      exact .completing row (.insertSourceEntry source_ found)
    | none =>
      obtain ⟨destination, us, rest, resolved, done, rfl⟩ := PosterM.bind_eq_ok run
      obtain ⟨rfl, rfl⟩ : .insertSourceEntry source destination = next ∧ [] = rest := by
        simpa using done
      obtain ⟨rfl, rfl⟩ := resolve_missing found resolved
      refine .written row ?_ ?_ (by simp [Point.remaining])
      · simp [statementsBeforeWrite, source_, found]
      · simp [Ledger.size, Ledger.apply]
  | insertSourceEntry source_ destination_ =>
    rename_i source destination
    obtain ⟨-, -, rfl, rfl⟩ := insertSourceEntry_ok run
    refine .written row ?_ ?_ (by simp [Point.remaining])
    · simp [statementsBeforeWrite, source_, destination_]
    · simp [Ledger.size, Ledger.apply]

theorem one (attempt : Attempt db p k s) : ∃ c, s.calls = [c] := by
  cases attempt with
  | looking | posting | completing | written => exact ⟨_, rfl⟩
  | ended one => exact ⟨_, one⟩

/-- A write in an open transaction is not committed. -/
theorem wrote {c : Call} {next : Point} {ws : List Write} (attempt : Attempt db p k s)
    (at_ : s.calls[0]? = some c) (begins : LedgerService.begins c = true)
    (running : c.ended = false) : Attempt db p (k + 1) ⟨s.db, s.calls.set 0
      { c with point := next, inTransaction := true, writes := ws }⟩ := by
  cases attempt with
  | looking =>
    obtain rfl := Option.some.inj at_
    simp [Call.start, LedgerService.begins] at begins
  | posting fresh => exact .posting fresh (by simp [LedgerService.begins])
  | completing row unwritten =>
    obtain rfl := Option.some.inj at_
    cases unwritten <;> simp [LedgerService.begins] at begins
  | written row late grown inside =>
    rename_i point
    obtain rfl := Option.some.inj at_
    obtain rfl : point = .createTransaction := by simpa [LedgerService.begins] using begins
    exact absurd rfl inside
  | ended one finished =>
    rw [one] at at_
    obtain rfl := Option.some.inj at_
    exact absurd (finished.symm.trans running) (by decide)

/-- A statement outside a transaction. -/
theorem autocommitted {c : Call} {next : Point} {ws : List Write} (attempt : Attempt db p k s)
    (at_ : s.calls[0]? = some c) (outside : LedgerService.begins c = false)
    (running : c.ended = false)
    (run : c.poster.statement c.point (c.view s.db) = (.ok next, ws)) :
    Attempt db p (k + 1) ⟨s.db.applyAll ws, s.calls.set 0 { c with point := next }⟩ := by
  cases attempt with
  | looking first =>
    obtain rfl := Option.some.inj at_
    cases row : db.transaction p.key with
    | none =>
      obtain ⟨rfl, rfl⟩ : .createTransaction = next ∧ [] = ws := by
        simpa [LedgerPoster.statement, PosterM.bind_run, Call.start, Call.view, row] using run
      exact .posting row rfl
    | some existing =>
      obtain ⟨rfl, rfl⟩ : (if existing.status = .posted then .returned else .checkEntries) = next ∧
          [] = ws := by
        simpa [LedgerPoster.statement, PosterM.bind_run, Call.start, Call.view, row] using run
      split_ifs
      · exact .ended rfl rfl
      · subst first
        exact .completing (by simp [row]) .checkEntries
  | posting fresh begins =>
    obtain rfl := Option.some.inj at_
    exact absurd (outside.symm.trans begins) (by decide)
  | completing row unwritten =>
    obtain rfl := Option.some.inj at_
    exact completed row unwritten run
  | written row late grown inside =>
    obtain rfl := Option.some.inj at_
    rename_i db' point
    rcases Point.inside_statement inside run with more | rfl
    · refine .written row (by omega) ?_ more
      have size := db'.size_applyAll ws
      exact Nat.lt_of_lt_of_le grown (by rw [size]; omega)
    · exact .ended rfl rfl
  | ended one finished =>
    rw [one] at at_
    obtain rfl := Option.some.inj at_
    exact absurd (finished.symm.trans running) (by decide)

/-- The step lemma. -/
theorem statement (attempt : Attempt db p k s) (h : s.step (.statement 0) = some t) :
    Attempt db p (k + 1) t := by
  obtain ⟨first, one⟩ := attempt.one
  cases moved_step h with
  | ended of at_ running raised =>
    rename_i i c e
    obtain rfl : 0 = i := by simpa using of
    refine .ended (c := { c with point := .raised e, inTransaction := false, writes := [] }) ?_ rfl
    rw [finish, one]
    rfl
  | committed at_ ready =>
    rename_i c l
    refine .ended (c := { c with point := .returned, inTransaction := false, writes := [] }) ?_ rfl
    rw [finish, one]
    rfl
  | wrote at_ running before run free inside => exact attempt.wrote at_ inside running
  | autocommitted at_ running before run free outside =>
    exact attempt.autocommitted at_ outside running run

/-- The run lemma. -/
theorem statements {n : Nat} (attempt : Attempt db p k s)
    (h : Machine.run step s (List.replicate n (.statement 0)) = some t) :
    Attempt db p (k + n) t := by
  induction n generalizing k s with
  | zero =>
    obtain rfl := Option.some.inj h
    exact attempt
  | succ n ih =>
    obtain ⟨m, now, later⟩ := Machine.run_cons h
    have rest := ih (attempt.statement now) later
    rwa [Nat.add_right_comm] at rest

/-- What is still under way has left the tables as they were or added to them. -/
theorem unchanged_iff {c : Call} (attempt : Attempt db p k s) (at_ : s.calls[0]? = some c)
    (running : c.ended = false) :
    s.db = db ↔ db.transaction p.key = none ∨ k ≤ p.statementsBeforeWrite db := by
  cases attempt with
  | looking first => simp [first]
  | posting fresh => simp [fresh]
  | completing row unwritten => simp [unwritten.le]
  | written row late grown inside =>
    constructor
    · intro same
      have sizes : _ = db.size := congrArg Ledger.size same
      exact absurd (sizes ▸ grown) (Nat.lt_irrefl _)
    · rintro (fresh | early)
      · exact absurd fresh row
      · exact absurd late (by omega)
  | ended one finished =>
    rw [one] at at_
    obtain rfl := Option.some.inj at_
    exact absurd (finished.symm.trans running) (by decide)

end Attempt

namespace LedgerService
open LedgerPoster

/-- The service before the first statement of a call on its own. -/
def alone (db : Ledger) (p : LedgerPoster) : LedgerService := ⟨db, [Call.start p]⟩

/-- A call that raises, by itself or because the database fails, after `k` of
its statements leaves the tables as they were just where it posts a new row, or
has come to no write of the completion of an existing one. Arguments that
`validate_inputs!` refuses never reach the tables. -/
theorem failed_post_unchanged_iff (db : Ledger) (call : PostCall) :
    (∀ e, validateInputs call.arguments = .error e → (call.run db).1 = db) ∧
    ∀ p, validateInputs call.arguments = .ok p → ∀ (k : Nat) (s t : LedgerService)
      (last : LedgerAction) (e : PostingError),
      Machine.run step (alone db p) (List.replicate k (.statement 0)) = some s →
      last = .statement 0 ∨ last = .fail 0 e → s.step last = some t →
      (∀ c ∈ t.calls, c.point = .raised e) →
      (t.db = db ↔ db.transaction p.key = none ∨ k ≤ p.statementsBeforeWrite db) := by
  constructor
  · intro e refused
    simp [PostCall.run, newCall, refused]
  · intro p valid k s t last e ran only moved raised
    have attempt : Attempt db p k s := by
      simpa using (Attempt.looking rfl : Attempt db p 0 (alone db p)).statements ran
    obtain ⟨c, one⟩ := attempt.one
    have at_ : s.calls[0]? = some c := by rw [one]; rfl
    have stays : s.db = t.db ∧ c.ended = false := by
      cases moved_step moved with
      | refused | arrived => simp at only
      | ended of at' running raises =>
        rename_i i d e'
        obtain rfl : i = 0 := by
          rcases only with rfl | rfl
          · simpa [eq_comm] using of
          · exact (by simpa [eq_comm] using of : i = 0 ∧ e' = e).1
        obtain rfl := Option.some.inj (at_.symm.trans at')
        exact ⟨rfl, running⟩
      | committed at' ready =>
        obtain rfl : _ = 0 := by simpa using only
        have finished := raised _ (by rw [finish, one]; exact List.mem_singleton.mpr rfl)
        cases finished
      | wrote at' running before run free side | autocommitted at' running before run free side =>
        rename_i d next ws
        obtain rfl : _ = 0 := by simpa using only
        obtain rfl : next = .raised e := raised _ (by rw [one]; exact List.mem_singleton.mpr rfl)
        refine absurd run (Point.not_raised_statement fun e same => ?_)
        rw [Call.ended, same] at running
        cases running
    rw [← stays.1]
    exact attempt.unchanged_iff at_ stays.2

/-- A deposit whose row is there, not posted and without entries. -/
def pendingPost : PostCall :=
  .post ⟨⟨1⟩, "sandbox", systemCashControl, "ann", 10, "USD", ⟨2⟩, "key", false⟩

theorem pendingPost_amount : 0 < (10 : Int) := by decide

theorem pendingPost_currency : isCurrencyCode "USD" = true := by decide

def pendingPoster : LedgerPoster :=
  ⟨⟨1⟩, .sandbox, systemCashControl, "ann", 10, "USD", ⟨2⟩, "key", false, pendingPost_amount,
    pendingPost_currency⟩

def pendingLedger : Ledger := ⟨[pendingPoster.newTransaction], [], [], []⟩

/-- It fails at the insert of the first account, its first write. -/
theorem failed_post_unchanged_iff_first : ∃ s t,
    Machine.run step (alone pendingLedger pendingPoster) (List.replicate 2 (.statement 0)) = some s ∧
    s.step (.fail 0 ⟨"connection lost"⟩) = some t ∧
    (t.db = pendingLedger ↔ pendingLedger.transaction pendingPoster.key = none ∨
      2 ≤ pendingPoster.statementsBeforeWrite pendingLedger) := by
  have evaluated : ((Machine.run step (alone pendingLedger pendingPoster)
      (List.replicate 2 (.statement 0))).bind (fun s => (s.step (.fail 0 ⟨"connection lost"⟩)).map
        (fun t => (s, t)))).any (fun st =>
      st.2.calls.all (fun c => c.point = .raised ⟨"connection lost"⟩)) = true := by decide +kernel
  obtain ⟨⟨s, t⟩, found, raised⟩ := (Option.any_eq_true _ _).mp evaluated
  obtain ⟨s, run, found⟩ := Option.bind_eq_some_iff.mp found
  obtain ⟨t, moved, same⟩ := Option.map_eq_some_iff.mp found
  cases same
  exact ⟨s, t, run, moved, (failed_post_unchanged_iff pendingLedger pendingPost).2 pendingPoster
    (by decide) 2 s t (.fail 0 ⟨"connection lost"⟩) ⟨"connection lost"⟩ run (.inr rfl) moved
    (by simpa using raised)⟩

/-- It fails between its two entries: the first stays, and no retry can complete the row. -/
theorem failed_post_leaves_entry : ¬ ∀ (db : Ledger) (call : PostCall) (p : LedgerPoster),
    validateInputs call.arguments = .ok p → ∀ (k : Nat) (s t : LedgerService)
      (last : LedgerAction) (e : PostingError),
      Machine.run step (alone db p) (List.replicate k (.statement 0)) = some s →
      last = .statement 0 ∨ last = .fail 0 e → s.step last = some t →
      (∀ c ∈ t.calls, c.point = .raised e) → t.db = db := by
  intro claim
  have evaluated : ((Machine.run step (alone pendingLedger pendingPoster)
      (List.replicate 5 (.statement 0))).bind (fun s => (s.step (.fail 0 ⟨"connection lost"⟩)).map
        (fun t => (s, t)))).any (fun st => st.2.db.entries.length = 1 &&
      st.2.calls.all (fun c => c.point = .raised ⟨"connection lost"⟩)) = true := by decide +kernel
  obtain ⟨⟨s, t⟩, found, after⟩ := (Option.any_eq_true _ _).mp evaluated
  obtain ⟨s, run, found⟩ := Option.bind_eq_some_iff.mp found
  obtain ⟨t, moved, same⟩ := Option.map_eq_some_iff.mp found
  cases same
  obtain ⟨entry, raised⟩ := Bool.and_eq_true_iff.mp after
  have unchanged := claim pendingLedger pendingPost pendingPoster (by decide) 5 s t
    (.fail 0 ⟨"connection lost"⟩) ⟨"connection lost"⟩ run (.inr rfl) moved (by simpa using raised)
  rw [unchanged] at entry
  exact absurd entry (by decide)

end LedgerService

end RailsCore
