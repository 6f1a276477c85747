import RailsCore.DoubleEntry
import RailsCore.Journal
import RailsCore.LedgerGrpc

/-!
# Posts one after another

A ledger that serves one message at a time. Nothing commits between the read
and the save of a balance, so every balance stays its journal, and a post
between customers and the cash account adds one debit and one credit and
touches no other account.
-/

namespace RailsCore

/-- The server's `post_transaction`, with nothing else served meanwhile. -/
def served (settings : Settings) (m : PostTransactionRequest) (db : Ledger) :
    Ledger × Except PostingError Unit :=
  match postTransaction settings m with
  | .error e => (db, .error e)
  | .ok call => call.run db

/-- What the client makes of the response. -/
def LedgerGrpc.postTransaction (settings : Settings) (m : PostTransactionRequest) (db : Ledger) :
    Ledger × Except AppError Unit :=
  match served settings m db with
  | (db, .error e) => (db, .error (.businessLogic ("ledger post failed: " ++ e.message)))
  | (db, .ok ()) => (db, .ok ())

namespace LedgerPoster

/-- A statement that is about to save a balance has just read it. -/
theorem statement_current {p : LedgerPoster} {point next : Point} {view : Ledger}
    {vs : List Write} (inside : point.remaining ≠ none)
    (run : p.statement point view = (.ok next, vs)) (id : LedgerAccountId) :
    next.Current id (view.applyAll vs) := by
  cases point with
  | findExisting | createTransaction | checkEntries | returned | raised e =>
    exact absurd rfl inside
  | findSourceBalance l =>
    obtain ⟨rfl, rfl⟩ : .saveSourceBalance l (view.balance l.source.id) = next ∧ [] = vs := by
      simpa [statement, PosterM.bind_run] using run
    cases found : view.balance l.source.id with
    | none => trivial
    | some value => exact fun here => here ▸ found
  | findDestinationBalance l =>
    obtain ⟨rfl, rfl⟩ :
        .saveDestinationBalance l (view.balance l.destination.id) = next ∧ [] = vs := by
      simpa [statement, PosterM.bind_run] using run
    cases found : view.balance l.destination.id with
    | none => trivial
    | some value => exact fun here => here ▸ found
  | insertSourceEntry source destination =>
    obtain ⟨-, -, rfl, -⟩ := insertSourceEntry_ok run
    trivial
  | resolveSource | resolveDestination source | saveSourceBalance l found
  | saveDestinationBalance l found =>
    obtain ⟨u, us, rest, -, done, rfl⟩ := PosterM.bind_eq_ok run
    obtain ⟨rfl, -⟩ := by simpa [PosterM.bind_run] using done
    trivial
  | insertDestinationEntry l | markAsPosted l | commit l =>
    obtain ⟨rfl, -⟩ := by simpa [statement, markAsPosted, PosterM.bind_run] using run
    trivial

end LedgerPoster

/-- The tables of a ledger that has served one message at a time. -/
structure Ledger.Serial (db : Ledger) : Prop where
  sound : db.Sound
  reconciled : ∀ id, db.Reconciled id

theorem Ledger.serial_empty : Ledger.empty.Serial := ⟨sound_empty, reconciled_empty⟩

/-- A call on its own settles every balance it saves. -/
theorem Underway.serial {db : Ledger} {p : LedgerPoster} {ws : List Write} {u : Unit}
    (serial : db.Serial) (cash : p.DepositsFromCash) (fresh : db.transaction p.key = none)
    (run : p.call db = (.ok u, ws)) :
    ∃ l, Underway db p (.commit l) ws ∧ ∀ id, Settled id db p (.commit l) ws := by
  have keeps : ∀ point ws next vs, Underway db p point ws →
      (point.remaining ≠ none → ∀ id, Settled id db p point ws ∧
        point.Current id (db.applyAll ws)) →
      p.statement point (db.applyAll ws) = (.ok next, vs) →
      next.remaining ≠ none → ∀ id, Settled id db p next (ws ++ vs) ∧
        next.Current id (db.applyAll (ws ++ vs)) := by
    intro point ws next vs under holds now inside id
    obtain ⟨settled, current⟩ := holds under.inside id
    have open_ : point.remaining ≠ some 0 := by
      intro last
      cases point <;> cases last
      obtain ⟨rfl, -⟩ : .returned = next ∧ [] = vs := by simpa [LedgerPoster.statement] using now
      exact inside rfl
    refine ⟨settled.statement (serial.reconciled id) under.inside open_ current now, ?_⟩
    rw [Ledger.applyAll_append]
    exact LedgerPoster.statement_current under.inside now id
  obtain ⟨l, under, holds⟩ := Underway.call keeps
    (fun _ id => ⟨Settled.begin id db p, trivial⟩) cash fresh run
  exact ⟨l, under, fun id => (holds under.inside id).1⟩

/-- The ledger `next` is `db` after a post of `m`: a debit of the source, a
credit of the destination, and no other account touched. -/
structure Ledger.Posts (m : PostTransactionRequest) (db next : Ledger) : Prop where
  row : ∃ t : LedgerTransaction, t.key = m.key ∧ next.transactions = db.transactions ++ [t]
  entries : next.entries = db.entries ++
    [⟨m.movement.source, m.key, .debit, m.amount, stripUpcase m.currency⟩,
      ⟨m.movement.destination, m.key, .credit, m.amount, stripUpcase m.currency⟩]
  account : ∀ id, id ≠ m.movement.source → id ≠ m.movement.destination →
    next.account id = db.account id
  balance : ∀ id, id ≠ m.movement.source → id ≠ m.movement.destination →
    next.balance id = db.balance id
  distinct : m.movement.source ≠ m.movement.destination

theorem Underway.posts {db : Ledger} {p : LedgerPoster} {m : PostTransactionRequest} {l : Legs}
    {ws : List Write} (under : Underway db p (.commit l) ws) (sound : db.Sound)
    (settled : ∀ id, Settled id db p (.commit l) ws) (of : PosterOf m p)
    (between : LedgerPoster.BetweenCustomers m.sourceExternalAccountId
      m.destinationExternalAccountId) : db.Posts m (db.applyAll ws) := by
  have recorded := under.recorded sound
  have typed := (under.sound_commit sound).typed
  have source : l.source.id = m.movement.source := recorded.source.1.trans of.source
  have destination : l.destination.id = m.movement.destination :=
    recorded.destination.1.trans of.destination
  have legs : l = ⟨l.source, l.destination, .debit, .credit⟩ := by
    refine recorded.legs.trans (LedgerPoster.legs_customers (typed _ recorded.source.2)
      (typed _ recorded.destination.2) ?_)
    rw [source, destination]
    exact between
  have entries : p.entriesAt (.commit l) =
      [⟨m.movement.source, m.key, .debit, m.amount, stripUpcase m.currency⟩,
        ⟨m.movement.destination, m.key, .credit, m.amount, stripUpcase m.currency⟩] := by
    rw [legs]
    simp only [LedgerPoster.entriesAt, LedgerPoster.sourceEntry, LedgerPoster.destinationEntry,
      LedgerPoster.entry, source, destination, of.key, of.amount, of.currency]
    rfl
  refine ⟨⟨p.postedTransaction, of.key, under.visible⟩, ?_, ?_, ?_, ?_⟩
  · rw [Ledger.entries_applyAll, under.entries, entries]
  · intro id apartSource apartDestination
    rw [Ledger.account_applyAll]
    cases written : (Ledger.ofWrites ws).account id with
    | none => rw [Option.or_none]
    | some a =>
      obtain ⟨ha, rfl⟩ := Table.find_some written
      rcases (under.newAccounts a ha).2 with rfl | rfl
      · exact absurd of.source apartSource
      · exact absurd of.destination apartDestination
  · intro id apartSource apartDestination
    have unsaved := settled id
    rw [Settled, if_neg] at unsaved
    · rw [Ledger.balance_applyAll, unsaved, Option.none_or]
    · rintro ⟨e, he, here⟩
      obtain rfl | rfl : e = p.sourceEntry l ∨ e = p.destinationEntry l := by
        simpa [LedgerPoster.savedAt] using he
      · exact apartSource (here.symm.trans source)
      · exact apartDestination (here.symm.trans destination)
  · rw [← source, ← destination]
    intro same
    exact absurd (of.notDeposit.symm.trans (recorded.noSelfTransfer same)) (by decide)

/-- A message with a new key is refused and changes nothing, or it is posted. -/
theorem served_fresh (settings : Settings) {m : PostTransactionRequest} {db : Ledger}
    (serial : db.Serial) (fresh : db.transaction m.key = none)
    (between : LedgerPoster.BetweenCustomers m.sourceExternalAccountId
      m.destinationExternalAccountId) :
    (∃ e, served settings m db = (db, .error e)) ∨
      ∃ next, served settings m db = (next, .ok ()) ∧ next.Serial ∧ db.Posts m next := by
  rw [served]
  cases sent : postTransaction settings m with
  | error e => exact .inl ⟨e, rfl⟩
  | ok call =>
    simp only [PostCall.run, LedgerPoster.newCall]
    cases valid : validateInputs call.arguments with
    | error e => exact .inl ⟨e, rfl⟩
    | ok p =>
      have of := posterOf sent valid
      have cash := LedgerPoster.validateInputs_depositsFromCash valid
      have new : db.transaction p.key = none := of.key ▸ fresh
      rcases LedgerPoster.call_outcome serial.sound cash with
        ⟨row, -⟩ | ⟨-, ⟨e, raised⟩ | ⟨ws, l, committed, -⟩⟩
      · exact absurd new row
      · exact .inl ⟨e, by simp [raised]⟩
      · obtain ⟨l, under, settled⟩ := Underway.serial serial cash new committed
        refine .inr ⟨db.applyAll ws, by simp [committed],
          ⟨under.sound_commit serial.sound, fun id => ?_⟩, ?_⟩
        · exact (settled id).commit under (serial.reconciled id)
        · exact under.posts serial.sound settled of between

/-- The client learns which of the two it was. -/
theorem postTransaction_fresh (settings : Settings) {m : PostTransactionRequest} {db : Ledger}
    (serial : db.Serial) (fresh : db.transaction m.key = none)
    (between : LedgerPoster.BetweenCustomers m.sourceExternalAccountId
      m.destinationExternalAccountId) :
    (∃ e, LedgerGrpc.postTransaction settings m db = (db, .error e)) ∨
      ∃ next, LedgerGrpc.postTransaction settings m db = (next, .ok ()) ∧ next.Serial ∧
        db.Posts m next := by
  rcases served_fresh settings serial fresh between with ⟨e, answer⟩ | ⟨next, answer, serial', posts⟩
  · exact .inl ⟨.businessLogic ("ledger post failed: " ++ e.message),
      by rw [LedgerGrpc.postTransaction, answer]⟩
  · exact .inr ⟨next, by rw [LedgerGrpc.postTransaction, answer], serial', posts⟩

end RailsCore
