import RailsCore.LedgerRuns
import RailsCore.SerialPosts

/-!
# A post that nothing disturbs

The sessions of a ledger can all be ended without touching its tables. When no
other call holds a lock, a call whose arguments the checks accept, and whose
two balances stay within their columns, runs through all its statements and
returns: none of them waits and none of them raises.
-/

namespace RailsCore

/-- What the columns must allow for the post not to raise. -/
structure LedgerPoster.Room (p : LedgerPoster) (db : Ledger) : Prop where
  amount : InBigint p.amount
  source : InBigint (db.getBalance p.sourceId + p.amount)
  destination : InBigint (db.getBalance p.destinationId - p.amount)

/-- What the statements of a post check about its arguments. -/
structure LedgerPoster.Complete (p : LedgerPoster) : Prop where
  key : isBlank p.idempotencyKey = false
  source : isBlank p.sourceExternalAccountId = false
  destination : isBlank p.destinationExternalAccountId = false
  apart : p.sourceId ≠ p.destinationId
  between : LedgerPoster.BetweenCustomers p.sourceExternalAccountId
    p.destinationExternalAccountId

namespace Point

/-- What a call on its own still sees of the balances that it has not saved. -/
def Unsaved (p : LedgerPoster) (db view : Ledger) : Point → Prop
  | .saveSourceBalance _ found =>
    found = db.balance p.sourceId ∧ ∀ id, view.balance id = db.balance id
  | .findDestinationBalance _ => view.balance p.destinationId = db.balance p.destinationId
  | .saveDestinationBalance _ found =>
    found = db.balance p.destinationId ∧ view.balance p.destinationId = db.balance p.destinationId
  | .markAsPosted _ | .commit _ => True
  | _ => ∀ id, view.balance id = db.balance id

end Point

namespace LedgerPoster

variable {p : LedgerPoster} {db : Ledger}

/-- A named account is found or created, and no balance changes. -/
theorem resolve_succeeds {id : LedgerAccountId} (named : isBlank id.externalAccountId = false)
    (accountType : AccountType) (db : Ledger) :
    ∃ a vs, resolveLedgerAccount id accountType db = (.ok a, vs) ∧
      ∀ other, (db.applyAll vs).balance other = db.balance other := by
  cases found : db.account id with
  | some a => exact ⟨a, [], resolve_found found, fun _ => rfl⟩
  | none =>
    refine ⟨⟨id, accountType⟩, [.insertAccount ⟨id, accountType⟩], ?_, fun _ => rfl⟩
    rw [resolveLedgerAccount, PosterM.bind_read (PosterM.select_run _ _)]
    simp [found, named, PosterM.bind_run]

/-- A balance that was read before and fits is saved. -/
theorem saveBalance_succeeds {account : LedgerAccount} {entryType : EntryType}
    (fits : InBigint ((db.balance account.id).getD 0 + signedAmount entryType p.amount)) :
    p.saveBalance account entryType (db.balance account.id) db =
      (.ok (), [.saveBalance ⟨account.id, (db.balance account.id).getD 0 +
        signedAmount entryType p.amount, p.currency⟩]) := by
  rw [saveBalance, if_neg (not_not_intro fits), PosterM.bind_read (PosterM.select_run _ _)]
  cases db.balance account.id <;> simp

end LedgerPoster

namespace Underway

variable {db : Ledger} {p : LedgerPoster} {point : Point} {ws : List Write} {l : Legs}

/-- The accounts that a call has resolved have the types of their names. -/
theorem typed (h : Underway db p point ws) (sound : db.Sound) {a : LedgerAccount}
    (resolved : a ∈ (db.applyAll ws).accounts) : a.Typed := by
  rw [Ledger.accounts_applyAll] at resolved
  rcases List.mem_append.mp resolved with old | new
  · exact sound.typed a old
  · exact h.newAccount_typed new

/-- The legs of a post debit its source and credit its destination. -/
theorem debits_source (h : Underway db p point ws) (sound : db.Sound) (complete : p.Complete)
    (known : point.legs = some l) :
    l = ⟨l.source, l.destination, .debit, .credit⟩ ∧ l.source.id = p.sourceId ∧
      l.destination.id = p.destinationId := by
  have source : point.source = some l.source := by
    cases point <;> simp_all [Point.source, Point.legs]
  have destination : point.destination = some l.destination := by
    cases point <;> simp_all [Point.destination, Point.legs]
  obtain ⟨own, stored⟩ := h.source l.source source
  obtain ⟨own', stored'⟩ := h.destination l.destination destination
  refine ⟨(h.legs l known).1.trans (LedgerPoster.legs_customers (h.typed sound stored)
    (h.typed sound stored') ?_), own, own'⟩
  rw [own, own']
  exact complete.between

/-- The step lemma: no statement before the commit raises. -/
theorem succeeds (h : Underway db p point ws) (sound : db.Sound) (complete : p.Complete)
    (room : p.Room db) (unsaved : point.Unsaved p db (db.applyAll ws))
    (open_ : point.remaining ≠ some 0) :
    ∃ next vs, p.statement point (db.applyAll ws) = (.ok next, vs) ∧
      next.Unsaved p db (db.applyAll (ws ++ vs)) := by
  rw [show (∃ next vs, p.statement point (db.applyAll ws) = (.ok next, vs) ∧
      next.Unsaved p db (db.applyAll (ws ++ vs))) ↔ ∃ next vs,
      p.statement point (db.applyAll ws) = (.ok next, vs) ∧
      next.Unsaved p db ((db.applyAll ws).applyAll vs) by simp only [Ledger.applyAll_append]]
  generalize seen : db.applyAll ws = view at unsaved ⊢
  cases point with
  | findExisting | createTransaction | checkEntries | returned | raised e =>
    exact absurd rfl h.inside
  | commit l => exact absurd rfl open_
  | resolveSource =>
    obtain ⟨a, vs, resolved, same⟩ := LedgerPoster.resolve_succeeds
      (show isBlank p.sourceId.externalAccountId = false from complete.source)
      p.determineSourceAccountType view
    refine ⟨.resolveDestination a, vs, ?_, fun id => (same id).trans (unsaved id)⟩
    simp [LedgerPoster.statement, PosterM.bind_run, resolved]
  | resolveDestination source =>
    obtain ⟨a, vs, resolved, same⟩ := LedgerPoster.resolve_succeeds
      (show isBlank p.destinationId.externalAccountId = false from complete.destination)
      p.determineDestinationAccountType view
    refine ⟨.insertSourceEntry source a, vs, ?_, fun id => (same id).trans (unsaved id)⟩
    simp [LedgerPoster.statement, PosterM.bind_run, resolved]
  | insertSourceEntry source destination =>
    refine ⟨.insertDestinationEntry (LedgerPoster.legs source destination),
      [.insertEntry (p.sourceEntry (LedgerPoster.legs source destination))], ?_, unsaved⟩
    have differ : ¬ (source.id = destination.id ∧ ¬ p.isDeposit) := by
      rw [(h.source source rfl).1, (h.destination destination rfl).1]
      exact fun both => complete.apart both.1
    have valid : p.validateAccountTypes source destination = pure () := if_neg differ
    have fits : p.validateAmountColumn = pure () := if_pos room.amount
    rw [LedgerPoster.statement, valid, pure_bind, fits, pure_bind]
    rfl
  | insertDestinationEntry l =>
    exact ⟨.findSourceBalance l, [.insertEntry (p.destinationEntry l)],
      by simp [LedgerPoster.statement, PosterM.bind_run], unsaved⟩
  | findSourceBalance l =>
    obtain ⟨-, own, -⟩ := h.debits_source sound complete rfl
    refine ⟨.saveSourceBalance l (view.balance l.source.id), [],
      by simp [LedgerPoster.statement, PosterM.bind_run], ?_, unsaved⟩
    rw [own, unsaved]
  | saveSourceBalance l found =>
    obtain ⟨debits, own, own'⟩ := h.debits_source sound complete rfl
    obtain ⟨rfl, same⟩ := unsaved
    have read : db.balance p.sourceId = view.balance l.source.id := by rw [own, same]
    have fits : InBigint ((view.balance l.source.id).getD 0 +
        signedAmount l.sourceEntryType p.amount) := by
      rw [debits, ← read]
      exact room.source
    refine ⟨.findDestinationBalance l, [.saveBalance ⟨l.source.id,
      (view.balance l.source.id).getD 0 + signedAmount l.sourceEntryType p.amount,
      p.currency⟩], ?_, ?_⟩
    · rw [LedgerPoster.statement, read]
      simp [PosterM.bind_run, LedgerPoster.saveBalance_succeeds fits]
    · rw [Point.Unsaved, Ledger.applyAll_cons, Ledger.applyAll_nil, Ledger.balance_saveBalance,
        own, if_neg complete.apart.symm, same]
  | findDestinationBalance l =>
    obtain ⟨-, -, own⟩ := h.debits_source sound complete rfl
    refine ⟨.saveDestinationBalance l (view.balance l.destination.id), [],
      by simp [LedgerPoster.statement, PosterM.bind_run], ?_, unsaved⟩
    rw [own]
    exact unsaved
  | saveDestinationBalance l found =>
    obtain ⟨credits, -, own⟩ := h.debits_source sound complete rfl
    obtain ⟨rfl, same⟩ := unsaved
    have read : db.balance p.destinationId = view.balance l.destination.id := by rw [own, same]
    have fits : InBigint ((view.balance l.destination.id).getD 0 +
        signedAmount l.destinationEntryType p.amount) := by
      rw [credits, ← read]
      exact room.destination
    refine ⟨.markAsPosted l, [.saveBalance ⟨l.destination.id,
      (view.balance l.destination.id).getD 0 + signedAmount l.destinationEntryType p.amount,
      p.currency⟩], ?_, trivial⟩
    rw [LedgerPoster.statement, read]
    simp [PosterM.bind_run, LedgerPoster.saveBalance_succeeds fits]
  | markAsPosted l =>
    exact ⟨.commit l, [.markPosted p.key],
      by simp [LedgerPoster.statement, LedgerPoster.markAsPosted, PosterM.bind_run], trivial⟩

end Underway

namespace LedgerService

/-- No call is in the course of its statements. -/
def Quiet (s : LedgerService) : Prop := ∀ c ∈ s.calls, c.ended = true

/-- A call that has ended holds no lock. -/
theorem Sound.writes_ended {s : LedgerService} (sound : s.Sound) {c : Call} (hc : c ∈ s.calls)
    (ended : c.ended = true) : c.writes = [] := by
  obtain ⟨i, at_⟩ := List.mem_iff_getElem?.mp hc
  cases sound.calls i c at_ with
  | looking | missing | returned | raised => rfl
  | underway h =>
    rename_i p point ws
    cases point with
    | returned | raised e => exact absurd rfl h.inside
    | _ => cases ended

/-- All sessions can be ended; no table changes. -/
theorem drained {s : LedgerService} (e : PostingError) (n : Nat) (inside : n ≤ s.calls.length) :
    ∃ (is : List Nat) (t : LedgerService),
      Machine.run step s (is.map fun i => .fail i e) = some t ∧ t.db = s.db ∧
      t.calls.length = s.calls.length ∧ ∀ i < n, ∀ c, t.calls[i]? = some c → c.ended = true := by
  induction n with
  | zero => exact ⟨[], s, rfl, rfl, rfl, by omega⟩
  | succ n ih =>
    obtain ⟨is, t, run, db, length, ended⟩ := ih (by omega)
    have within : n < t.calls.length := by omega
    have at_ : t.calls[n]? = some t.calls[n] := List.getElem?_eq_getElem within
    cases finished : t.calls[n].ended with
    | true =>
      refine ⟨is, t, run, db, length, fun i hi c hc => ?_⟩
      by_cases last : i = n
      · subst last
        obtain rfl := Option.some.inj (at_.symm.trans hc)
        exact finished
      · exact ended i (by omega) c hc
    | false =>
      have failed : t.step (.fail n e) = some (t.finish t.db n t.calls[n] (.raised e)) := by
        simp [step, at_, finished]
      refine ⟨is ++ [n], t.finish t.db n t.calls[n] (.raised e), ?_, db, ?_, ?_⟩
      · rw [List.map_append, Machine.run_append run, List.map_cons, Machine.run, failed]
        rfl
      · rw [finish, List.length_set, length]
      · intro i hi c hc
        rcases Machine.replaced_cases at_ hc with ⟨rfl, rfl⟩ | ⟨other, old⟩
        · rfl
        · exact ended i (by omega) c old

/-- One more call beside calls that hold no lock. -/
def beside (db : Ledger) (others : List Call) (c : Call) : LedgerService := ⟨db, others ++ [c]⟩

variable {db : Ledger} {others : List Call} {p : LedgerPoster}

theorem unblocked (free : ∀ d ∈ others, d.writes = []) (c : Call) (ws : List Write) :
    (beside db others c).blocked others.length ws = false := by
  have rest : (others ++ [c]).eraseIdx others.length = others := by
    rw [List.eraseIdx_append_of_length_le (Nat.le_refl _)]
    simp
  rw [blocked, List.any_eq_false]
  intro lock needed
  rw [Bool.not_eq_true, List.any_eq_false, beside, rest]
  intro d hd
  rw [Call.locks, free d hd]
  simp

theorem advance_execute {s : LedgerService} {i : Nat} {c : Call} (running : c.ended = false)
    (before : ∀ l, c.point ≠ .commit l) : s.advance i c = s.execute i c := by
  obtain ⟨p, point, inside, ws⟩ := c
  cases point with
  | returned | raised e => cases running
  | commit l => exact absurd rfl (before l)
  | _ => rfl

theorem set_beside (c c' : Call) : (others ++ [c]).set others.length c' = others ++ [c'] := by
  simp

theorem getElem_beside (c : Call) : (beside db others c).calls[others.length]? = some c := by
  simp [beside]

/-- A statement inside the transaction that does not raise, with nobody else to wait for. -/
theorem step_inside (free : ∀ d ∈ others, d.writes = []) {point next : Point}
    {ws vs : List Write} (inside : point.remaining ≠ none) (open_ : point.remaining ≠ some 0)
    (now : p.statement point (db.applyAll ws) = (.ok next, vs)) :
    step (beside db others ⟨p, point, true, ws⟩) (.statement others.length) =
      some (beside db others ⟨p, next, true, ws ++ vs⟩) := by
  have running : Call.ended ⟨p, point, true, ws⟩ = false := by
    cases point with
    | returned | raised e => exact absurd rfl inside
    | _ => rfl
  have before : ∀ l, (⟨p, point, true, ws⟩ : Call).point ≠ .commit l := by
    rintro l rfl
    exact open_ rfl
  rw [step, getElem_beside, Option.bind_some, advance_execute running before, execute]
  simp only [Call.view, beside, now, begins, Bool.true_or, if_true, set_beside]
  rw [if_neg (by rw [← beside, unblocked free]; exact Bool.false_ne_true)]

theorem step_commit {l : Legs} {ws : List Write} :
    step (beside db others ⟨p, .commit l, true, ws⟩) (.statement others.length) =
      some (beside (db.applyAll ws) others ⟨p, .returned, false, []⟩) := by
  rw [step, getElem_beside, Option.bind_some, advance, finish, beside, set_beside]
  rfl

/-- The run lemma: the rest of the transaction, up to its commit. -/
theorem run_inside (free : ∀ d ∈ others, d.writes = []) (sound : db.Sound)
    (complete : p.Complete) (room : p.Room db) (n : Nat) {point : Point} {ws : List Write}
    (under : Underway db p point ws) (unsaved : point.Unsaved p db (db.applyAll ws))
    (left : point.remaining = some n) :
    ∃ l vs, Underway db p (.commit l) vs ∧
      Machine.run step (beside db others ⟨p, point, true, ws⟩)
        (List.replicate (n + 1) (.statement others.length)) =
        some (beside (db.applyAll vs) others ⟨p, .returned, false, []⟩) := by
  induction n generalizing point ws with
  | zero =>
    cases point <;> cases left
    rename_i l
    refine ⟨l, ws, under, ?_⟩
    rw [List.replicate_one, Machine.run, step_commit]
    rfl
  | succ n ih =>
    have open_ : point.remaining ≠ some 0 := by
      rw [left]
      simp
    obtain ⟨next, vs, now, unsaved'⟩ := under.succeeds sound complete room unsaved open_
    obtain ⟨under', counted⟩ := under.statement open_ now
    have left' : next.remaining = some n := by
      rw [left] at counted
      obtain ⟨k, found, same⟩ := Option.map_eq_some_iff.mp counted.symm
      rw [found, Nat.succ.inj same]
    obtain ⟨l, us, committed, run⟩ := ih under' unsaved' left'
    refine ⟨l, us, committed, ?_⟩
    rw [List.replicate_succ, Machine.run, step_inside free under.inside open_ now]
    exact run

/-- A call beside calls that hold no lock returns, and has posted what was not
posted before. -/
theorem posts_alone (free : ∀ d ∈ others, d.writes = []) (sound : db.Sound)
    (cash : p.DepositsFromCash) (complete : p.Complete)
    (room : db.transaction p.key = none → p.Room db) :
    ∃ n now, Machine.run step (beside db others (Call.start p))
        (List.replicate n (.statement others.length)) =
        some (beside now others ⟨p, .returned, false, []⟩) ∧
      (db.transaction p.key = none → ∃ l, Recorded now p l) := by
  cases row : db.transaction p.key with
  | some x =>
    have posted : x.status = .posted := sound.posted (Table.find_some row).1
    have looked : p.statement .findExisting db = (.ok .returned, []) := by
      simp [LedgerPoster.statement, PosterM.bind_run, row, posted]
    refine ⟨1, db, ?_, fun none_ => by cases none_⟩
    simp [Machine.run, step, beside, Call.start, advance, execute, Call.view, looked, begins,
      blocked]
  | none =>
    have looked : p.statement .findExisting db = (.ok .createTransaction, []) := by
      simp [LedgerPoster.statement, PosterM.bind_run, row]
    have created : p.statement .createTransaction db =
        (.ok .resolveSource, [.insertTransaction p.newTransaction]) := by
      simp [LedgerPoster.statement, LedgerPoster.createLedgerTransaction, complete.key, row,
        PosterM.bind_run]
    have first : step (beside db others (Call.start p)) (.statement others.length) =
        some (beside db others ⟨p, .createTransaction, false, []⟩) := by
      simp [step, beside, Call.start, advance, execute, Call.view, looked, begins, blocked]
    have second : step (beside db others ⟨p, .createTransaction, false, []⟩)
        (.statement others.length) =
        some (beside db others
          ⟨p, .resolveSource, true, [.insertTransaction p.newTransaction]⟩) := by
      rw [step, getElem_beside, Option.bind_some, advance_execute rfl (by simp), execute]
      simp only [Call.view, beside, Ledger.applyAll_nil, created, begins, set_beside]
      rw [if_neg (by rw [← beside, unblocked free]; exact Bool.false_ne_true)]
      simp
    obtain ⟨l, vs, committed, run⟩ := run_inside free sound complete (room row) 9
      (Underway.begin cash row) (fun _ => rfl) rfl
    refine ⟨12, db.applyAll vs, ?_, fun _ => ⟨l, committed.recorded sound⟩⟩
    rw [List.replicate_succ, Machine.run, first]
    simp only
    rw [List.replicate_succ, Machine.run, second]
    exact run

end LedgerService

end RailsCore
