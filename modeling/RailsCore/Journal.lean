import RailsCore.LedgerRuns

/-!
# Balances and the journal

`AccountBalance.update_balance!` reads a balance, adds the signed amount and
saves the sum. Between the read and the save another session may commit, and
the save then overwrites what it never read. A balance equals its journal in
every run in which that does not happen to it, and a run in which it does is
shown.
-/

namespace RailsCore

/-- The sum of the entries of one type on an account. -/
def sumOf (entryType : EntryType) (id : LedgerAccountId) (entries : List LedgerEntry) : Int :=
  ((entries.filter (fun e => e.ledgerAccountId = id ∧ e.entryType = entryType)).map
    LedgerEntry.amount).sum

/-- Debits minus credits. -/
def journal (id : LedgerAccountId) (entries : List LedgerEntry) : Int :=
  sumOf .debit id entries - sumOf .credit id entries

theorem sumOf_append (entryType : EntryType) (id : LedgerAccountId) (as bs : List LedgerEntry) :
    sumOf entryType id (as ++ bs) = sumOf entryType id as + sumOf entryType id bs := by
  simp only [sumOf, List.filter_append, List.map_append, List.sum_append]

theorem sumOf_cons (entryType : EntryType) (id : LedgerAccountId) (e : LedgerEntry)
    (es : List LedgerEntry) : sumOf entryType id (e :: es) =
      (if e.ledgerAccountId = id ∧ e.entryType = entryType then e.amount else 0) +
        sumOf entryType id es := by
  by_cases here : e.ledgerAccountId = id ∧ e.entryType = entryType <;> simp [sumOf, here]

@[simp] theorem sumOf_nil (entryType : EntryType) (id : LedgerAccountId) :
    sumOf entryType id [] = 0 := rfl

theorem journal_append (id : LedgerAccountId) (as bs : List LedgerEntry) :
    journal id (as ++ bs) = journal id as + journal id bs := by
  simp only [journal, sumOf_append]
  omega

theorem journal_cons (id : LedgerAccountId) (e : LedgerEntry) (es : List LedgerEntry) :
    journal id (e :: es) =
      (if e.ledgerAccountId = id then signedAmount e.entryType e.amount else 0) + journal id es := by
  by_cases same : e.ledgerAccountId = id <;> cases type : e.entryType <;>
    simp [journal, sumOf_cons, same, type, signedAmount] <;> omega

@[simp] theorem journal_nil (id : LedgerAccountId) : journal id [] = 0 := rfl

theorem journal_other {id : LedgerAccountId} (entries : List LedgerEntry)
    (other : ∀ e ∈ entries, e.ledgerAccountId ≠ id) : journal id entries = 0 := by
  induction entries with
  | nil => rfl
  | cons e es ih =>
    rw [journal_cons, if_neg (other e List.mem_cons_self), Int.zero_add]
    exact ih (fun e he => other e (List.mem_cons_of_mem _ he))

/-- The balance of the account is its journal. -/
def Ledger.Reconciled (id : LedgerAccountId) (db : Ledger) : Prop :=
  db.getBalance id = journal id db.entries

theorem Ledger.reconciled_empty (id : LedgerAccountId) : Ledger.empty.Reconciled id := rfl

/-- The entries whose balance has been saved before a point. -/
def LedgerPoster.savedAt (p : LedgerPoster) : Point → List LedgerEntry
  | .findDestinationBalance l | .saveDestinationBalance l _ => [p.sourceEntry l]
  | .markAsPosted l | .commit l => [p.sourceEntry l, p.destinationEntry l]
  | _ => []

/-- The update at this point, if it is one of the account's balance, overwrites
the value it was computed from. -/
def Point.Current (id : LedgerAccountId) (db : Ledger) : Point → Prop
  | .saveSourceBalance l (some value) => l.source.id = id → db.balance id = some value
  | .saveDestinationBalance l (some value) => l.destination.id = id → db.balance id = some value
  | _ => True

instance (id : LedgerAccountId) (db : Ledger) : ∀ point : Point, Decidable (point.Current id db)
  | .saveSourceBalance _ (some _) => inferInstanceAs (Decidable (_ → _))
  | .saveDestinationBalance _ (some _) => inferInstanceAs (Decidable (_ → _))
  | .saveSourceBalance _ none | .saveDestinationBalance _ none | .findExisting
  | .createTransaction | .checkEntries | .resolveSource | .resolveDestination _
  | .insertSourceEntry _ _ | .insertDestinationEntry _ | .findSourceBalance _
  | .findDestinationBalance _ | .markAsPosted _ | .commit _ | .returned | .raised _ =>
    isTrue trivial

/-- The balance that an open transaction has saved for the account is its journal. -/
def Settled (id : LedgerAccountId) (db : Ledger) (p : LedgerPoster) (point : Point)
    (ws : List Write) : Prop :=
  (Ledger.ofWrites ws).balance id =
    if ∃ e ∈ p.savedAt point, e.ledgerAccountId = id then
      some (journal id (db.entries ++ p.savedAt point))
    else none

theorem balance_unsaved {vs : List Write} (unsaved : ∀ b, Write.saveBalance b ∉ vs)
    (ws : List Write) (id : LedgerAccountId) :
    (Ledger.ofWrites (ws ++ vs)).balance id = (Ledger.ofWrites ws).balance id := by
  induction vs using List.reverseRecOn with
  | nil => rw [List.append_nil]
  | append_singleton vs w ih =>
    rw [← List.append_assoc, Ledger.ofWrites_concat, Ledger.balance_apply]
    cases w with
    | saveBalance b => exact absurd (List.mem_append_right _ (List.mem_singleton.mpr rfl)) (unsaved b)
    | _ => exact ih (fun b hb => unsaved b (List.mem_append_left _ hb))

namespace LedgerPoster

theorem resolve_unsaved {id : LedgerAccountId} {accountType : AccountType} {db : Ledger}
    {a : LedgerAccount} {vs : List Write}
    (run : resolveLedgerAccount id accountType db = (.ok a, vs)) :
    ∀ b, Write.saveBalance b ∉ vs := by
  cases found : db.account id with
  | some account =>
    obtain ⟨-, rfl⟩ := Prod.mk.inj ((resolve_found found).symm.trans run)
    simp
  | none =>
    obtain ⟨-, rfl⟩ := resolve_missing found run
    simp

/-- The two statements that save a balance, and all the others. -/
theorem statement_saves {p : LedgerPoster} {point next : Point} {view : Ledger} {vs : List Write}
    (inside : point.remaining ≠ none)
    (run : p.statement point view = (.ok next, vs)) :
    (∃ l found, point = .saveSourceBalance l found ∧ next = .findDestinationBalance l ∧
      vs = [.saveBalance ⟨l.source.id, found.getD 0 + signedAmount l.sourceEntryType p.amount,
        p.currency⟩] ∧ (found = none → view.balance l.source.id = none)) ∨
    (∃ l found, point = .saveDestinationBalance l found ∧ next = .markAsPosted l ∧
      vs = [.saveBalance ⟨l.destination.id,
        found.getD 0 + signedAmount l.destinationEntryType p.amount, p.currency⟩] ∧
      (found = none → view.balance l.destination.id = none)) ∨
    (∀ b, Write.saveBalance b ∉ vs) ∧ (point.remaining ≠ some 0 → p.savedAt next = p.savedAt point) := by
  cases point with
  | saveSourceBalance l found =>
    obtain ⟨u, us, rest, saved, done, rfl⟩ := PosterM.bind_eq_ok run
    obtain ⟨rfl, rfl⟩ : .findDestinationBalance l = next ∧ [] = rest := by simpa using done
    obtain ⟨rfl, absent⟩ := saveBalance_ok saved
    exact .inl ⟨l, found, rfl, rfl, rfl, absent⟩
  | saveDestinationBalance l found =>
    obtain ⟨u, us, rest, saved, done, rfl⟩ := PosterM.bind_eq_ok run
    obtain ⟨rfl, rfl⟩ : .markAsPosted l = next ∧ [] = rest := by simpa using done
    obtain ⟨rfl, absent⟩ := saveBalance_ok saved
    exact .inr (.inl ⟨l, found, rfl, rfl, rfl, absent⟩)
  | findExisting | createTransaction | checkEntries | returned | raised e =>
    exact absurd rfl inside
  | resolveSource =>
    obtain ⟨source, us, rest, resolved, done, rfl⟩ := PosterM.bind_eq_ok run
    obtain ⟨rfl, rfl⟩ : .resolveDestination source = next ∧ [] = rest := by simpa using done
    exact .inr (.inr ⟨by simpa using resolve_unsaved resolved, fun _ => rfl⟩)
  | resolveDestination source =>
    obtain ⟨destination, us, rest, resolved, done, rfl⟩ := PosterM.bind_eq_ok run
    obtain ⟨rfl, rfl⟩ : .insertSourceEntry source destination = next ∧ [] = rest := by
      simpa using done
    exact .inr (.inr ⟨by simpa using resolve_unsaved resolved, fun _ => rfl⟩)
  | insertSourceEntry source destination =>
    obtain ⟨-, -, rfl, rfl⟩ := insertSourceEntry_ok run
    exact .inr (.inr ⟨by simp, fun _ => rfl⟩)
  | insertDestinationEntry l | findSourceBalance l | findDestinationBalance l | markAsPosted l =>
    obtain ⟨rfl, rfl⟩ := by
      simpa [statement, markAsPosted, PosterM.bind_run] using run
    exact .inr (.inr ⟨by simp, fun _ => rfl⟩)
  | commit l =>
    obtain ⟨rfl, rfl⟩ : .returned = next ∧ [] = vs := by simpa [statement] using run
    exact .inr (.inr ⟨by simp, fun open_ => absurd rfl open_⟩)

end LedgerPoster

namespace Settled

variable {id : LedgerAccountId} {db : Ledger} {p : LedgerPoster} {point next : Point}
  {ws vs : List Write}

theorem begin (id : LedgerAccountId) (db : Ledger) (p : LedgerPoster) :
    Settled id db p .resolveSource [.insertTransaction p.newTransaction] := by
  simp [Settled, LedgerPoster.savedAt, Ledger.ofWrites, Ledger.apply, Ledger.balance, Table.find,
    Ledger.empty]

/-- What the transaction sees of the balance is the journal with the saved entries. -/
theorem view (h : Settled id db p point ws) (tables : db.Reconciled id) :
    (db.applyAll ws).getBalance id = journal id (db.entries ++ p.savedAt point) := by
  rw [Ledger.getBalance, Ledger.balance_applyAll, h]
  split_ifs with saved
  · rfl
  · rw [journal_append, journal_other (p.savedAt point) (fun e he same => saved ⟨e, he, same⟩),
      Int.add_zero]
    exact tables

/-- A balance computed from the value it overwrites is the journal with one entry more. -/
theorem save (h : Settled id db p point ws) (tables : db.Reconciled id) (account : LedgerAccount)
    (entryType : EntryType) {found : Option Int}
    (current : account.id = id → (db.applyAll ws).balance id = found)
    (saved : p.savedAt next = p.savedAt point ++ [p.entry account entryType]) :
    Settled id db p next (ws ++ [.saveBalance
      ⟨account.id, found.getD 0 + signedAmount entryType p.amount, p.currency⟩]) := by
  have seen := h.view tables
  rw [Settled, Ledger.ofWrites_concat, Ledger.balance_apply, saved, ← List.append_assoc,
    journal_append, journal_cons, journal_nil, Int.add_zero]
  by_cases same : account.id = id
  · rw [Ledger.getBalance, current same] at seen
    simp [LedgerPoster.entry, same, seen]
  · have differ : ¬ id = account.id := fun eq => same eq.symm
    have before := h
    rw [Settled] at before
    simp [LedgerPoster.entry, same, differ, before]

/-- The step lemma: a statement that overwrites only what it read keeps the balance settled. -/
theorem statement (h : Settled id db p point ws) (tables : db.Reconciled id)
    (inside : point.remaining ≠ none) (open_ : point.remaining ≠ some 0)
    (current : point.Current id (db.applyAll ws))
    (run : p.statement point (db.applyAll ws) = (.ok next, vs)) :
    Settled id db p next (ws ++ vs) := by
  rcases LedgerPoster.statement_saves inside run with
    ⟨l, found, rfl, rfl, rfl, absent⟩ | ⟨l, found, rfl, rfl, rfl, absent⟩ | ⟨unsaved, same⟩
  · refine h.save tables l.source l.sourceEntryType ?_ rfl
    intro here
    cases found with
    | none => exact here ▸ absent rfl
    | some value => exact current here
  · refine h.save tables l.destination l.destinationEntryType ?_ rfl
    intro here
    cases found with
    | none => exact here ▸ absent rfl
    | some value => exact current here
  · rw [Settled, balance_unsaved unsaved, same open_]
    exact h

/-- A commit makes the saved balance the committed one. -/
theorem commit {l : Legs} (h : Settled id db p (.commit l) ws)
    (under : Underway db p (.commit l) ws) (tables : db.Reconciled id) :
    (db.applyAll ws).Reconciled id := by
  rw [Ledger.Reconciled, h.view tables, Ledger.entries_applyAll, under.entries]
  rfl

/-- Another transaction commits: it saved no balance that is saved here. -/
theorem frame (h : Settled id db p point ws) {q : LedgerPoster} {l : Legs} {us : List Write}
    (other : Underway db q (.commit l) us) (settled : Settled id db q (.commit l) us)
    (apart : ∀ lock ∈ us.filterMap Write.lock, lock ∉ ws.filterMap Write.lock) :
    Settled id (db.applyAll us) p point ws := by
  have here := h
  rw [Settled] at here ⊢
  rw [here]
  split_ifs with saved
  · rw [if_pos saved] at here
    have held : Lock.balance id ∈ ws.filterMap Write.lock := balance_locked (by rw [here]; simp)
    have untouched : journal id (q.entriesAt (.commit l)) = 0 := by
      refine journal_other _ (fun e he same => ?_)
      have there := settled
      rw [Settled, if_pos ⟨e, he, same⟩] at there
      exact apart _ (balance_locked (by rw [there]; simp)) held
    rw [Ledger.entries_applyAll, other.entries]
    simp only [journal_append, untouched, Int.add_zero]
  · rfl

end Settled

namespace LedgerService

/-- The action does not overwrite the account's balance with a sum computed from
a value that has changed since it was read. -/
def SavesWhatItRead (id : LedgerAccountId) (s : LedgerService) : LedgerAction → Prop
  | .statement i => ∀ c ∈ s.calls[i]?, c.point.Current id (c.view s.db)
  | _ => True

instance (id : LedgerAccountId) (s : LedgerService) (a : LedgerAction) :
    Decidable (s.SavesWhatItRead id a) :=
  match a with
  | .statement i =>
    inferInstanceAs (Decidable (∀ c ∈ s.calls[i]?, c.point.Current id (c.view s.db)))
  | .arrive _ | .fail _ _ => isTrue trivial

/-- The invariant of runs without a stale save of the account's balance. -/
structure Reconciled (id : LedgerAccountId) (s : LedgerService) : Prop where
  sound : s.Sound
  tables : s.db.Reconciled id
  settled : ∀ (i : Nat) (c : Call), s.calls[i]? = some c → c.inTransaction = true →
    Settled id s.db c.poster c.point c.writes

variable {id : LedgerAccountId}

theorem reconciled_empty (id : LedgerAccountId) : empty.Reconciled id where
  sound := sound_empty
  tables := Ledger.reconciled_empty id
  settled := by simp [empty]

theorem Reconciled.arrive {s : LedgerService} (reconciled : s.Reconciled id) {p : LedgerPoster}
    (cash : p.DepositsFromCash) :
    Reconciled id { s with calls := s.calls ++ [Call.start p] } := by
  refine ⟨reconciled.sound.arrive cash, reconciled.tables, fun j d hd inside => ?_⟩
  simp only [List.getElem?_append] at hd
  split_ifs at hd
  · exact reconciled.settled j d hd inside
  · obtain rfl := List.mem_singleton.mp (List.mem_of_getElem? hd)
    simp [Call.start] at inside

theorem Reconciled.step {s t : LedgerService} {a : LedgerAction} (reconciled : s.Reconciled id)
    (current : s.SavesWhatItRead id a) (h : s.step a = some t) : t.Reconciled id := by
  have sound := reconciled.sound.step h
  have kept : ∀ {i : Nat} {c c' : Call}, s.calls[i]? = some c →
      (c'.inTransaction = true → Settled id s.db c'.poster c'.point c'.writes) →
      ∀ (j : Nat) (d : Call), (s.calls.set i c')[j]? = some d → d.inTransaction = true →
        Settled id s.db d.poster d.point d.writes := by
    intro i c c' at_ settled j d hd inside
    rcases Machine.replaced_cases at_ hd with ⟨rfl, rfl⟩ | ⟨-, hd⟩
    · exact settled inside
    · exact reconciled.settled j d hd inside
  cases moved_step h with
  | refused invalid => exact reconciled
  | arrived valid => exact reconciled.arrive (LedgerPoster.validateInputs_depositsFromCash valid)
  | ended of at_ running => exact ⟨sound, reconciled.tables, kept at_ (by simp)⟩
  | committed at_ ready =>
    rename_i i c l
    obtain ⟨p, point, ws, rfl, under⟩ := (reconciled.sound.calls i c at_).inside
      (by simp [ready, Point.remaining])
    obtain rfl : point = .commit l := ready
    have settled := reconciled.settled i _ at_ rfl
    refine ⟨sound, settled.commit under reconciled.tables, ?_⟩
    intro j d hd inside
    rcases Machine.replaced_cases at_ hd with ⟨rfl, rfl⟩ | ⟨other, hd⟩
    · simp at inside
    · exact (reconciled.settled j d hd inside).frame under settled
        (reconciled.sound.locks i j _ d at_ hd other.symm)
  | wrote at_ running before run free inside =>
    rename_i i c next ws
    refine ⟨sound, reconciled.tables, kept at_ (fun _ => ?_)⟩
    rcases (reconciled.sound.calls i c at_).wrote_cases running before inside run with
      ⟨p, rfl, cash, fresh, rfl, rfl⟩ | ⟨p, point, us, rfl, under, open_⟩
    · exact Settled.begin id s.db p
    · exact (reconciled.settled i _ at_ rfl).statement reconciled.tables under.inside open_
        (current _ at_) run
  | autocommitted at_ running before run free outside =>
    obtain ⟨nothing, call⟩ := (reconciled.sound.calls _ _ at_).autocommitted
      reconciled.sound.tables running outside run
    subst nothing
    rename_i i c next
    have closed : c.inTransaction = false := (Bool.or_eq_false_iff.mp outside).1
    refine ⟨sound, reconciled.tables, kept at_ (fun inside => ?_)⟩
    exact absurd (closed.symm.trans inside) (by decide)

theorem reconciled_run {as : List LedgerAction} {s : LedgerService}
    (current : Machine.Along step (SavesWhatItRead id) empty as)
    (h : Machine.run step empty as = some s) : s.Reconciled id :=
  Machine.invariant_along (fun _ _ _ reconciled current moved => reconciled.step current moved)
    (reconciled_empty id) current h

/-- In every run in which no update of an account's balance overwrites a value
that has changed since it was read, the committed balance of that account is
the debits minus the credits. -/
theorem balance_eq_journal (id : LedgerAccountId) (as : List LedgerAction) (s : LedgerService)
    (current : Machine.Along step (SavesWhatItRead id) empty as)
    (h : Machine.run step empty as = some s) :
    s.db.getBalance id = sumOf .debit id s.db.entries - sumOf .credit id s.db.entries :=
  (reconciled_run current h).tables

def depositTo (customer : String) (amount : Int) : PostCall :=
  .post ⟨⟨1⟩, "sandbox", systemCashControl, customer, amount, "USD", ⟨2⟩, customer, false⟩

def statements (i n : Nat) : List LedgerAction := List.replicate n (.statement i)

/-- Three deposits to three customers, the first of them committed, the other
two reading the cash balance before either has saved it. -/
def lostUpdate : List LedgerAction :=
  .arrive (depositTo "ann" 10) :: statements 0 12 ++
    .arrive (depositTo "bob" 5) :: .arrive (depositTo "cat" 7) :: statements 1 7 ++
    statements 2 7 ++ statements 1 5 ++ statements 2 5

def oneAfterAnother : List LedgerAction :=
  .arrive (depositTo "ann" 10) :: statements 0 12 ++ .arrive (depositTo "bob" 5) :: statements 1 12

def cashId : LedgerAccountId := ⟨⟨1⟩, .sandbox, systemCashControl, "USD"⟩

theorem balance_eq_journal_serial : ∃ s, Machine.run step empty oneAfterAnother = some s ∧
    s.db.entries.length = 4 ∧ s.db.getBalance cashId =
      sumOf .debit cashId s.db.entries - sumOf .credit cashId s.db.entries := by
  have evaluated : (Machine.run step empty oneAfterAnother).any
      (fun s => s.db.entries.length = 4) = true := by decide +kernel
  obtain ⟨s, run, count⟩ := (Option.any_eq_true _ _).mp evaluated
  exact ⟨s, run, of_decide_eq_true count,
    balance_eq_journal cashId oneAfterAnother s (by decide +kernel) run⟩

/-- The cash account ends at 17 where its journal is 22. -/
theorem lost_update : ¬ ∀ (as : List LedgerAction) (s : LedgerService),
    Machine.run step empty as = some s → (∀ c ∈ s.calls, c.inTransaction = false) →
    ∀ id, s.db.getBalance id =
      sumOf .debit id s.db.entries - sumOf .credit id s.db.entries := by
  intro claim
  have evaluated : (Machine.run step empty lostUpdate).any (fun s =>
      (∀ c ∈ s.calls, c.inTransaction = false) ∧ s.db.getBalance cashId = 17 ∧
        sumOf .debit cashId s.db.entries - sumOf .credit cashId s.db.entries = 22) = true := by
    decide +kernel
  obtain ⟨s, run, found⟩ := (Option.any_eq_true _ _).mp evaluated
  obtain ⟨closed, balance, entries⟩ := of_decide_eq_true found
  have agree := claim lostUpdate s run closed cashId
  rw [balance, entries] at agree
  exact absurd agree (by decide)

end LedgerService

end RailsCore
