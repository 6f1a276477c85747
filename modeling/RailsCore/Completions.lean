import RailsCore.FailedPosts

/-!
# Completing a row

Any number of calls with the key of a row that is pending and without entries.
The completion of the row opens no transaction, so two calls that have both
looked for entries both write theirs. As long as a call that is about to write
its first entry finds none there, and no call stops between its first entry and
the mark on the row, one call writes all there is, and the others return the
row after it or raise.
-/

namespace RailsCore

/-- `mark_as_posted!` of a row. -/
def LedgerTransaction.markedPosted (t : LedgerTransaction) : LedgerTransaction :=
  { t with status := .posted, failureReason := none }

theorem LedgerTransaction.markedPosted_ne {t : LedgerTransaction} (pending : t.status = .pending) :
    t.markedPosted ≠ t := by
  intro same
  have posted : LedgerStatus.posted = t.status := congrArg LedgerTransaction.status same
  rw [pending] at posted
  cases posted

namespace LedgerPoster

/-- What the entry of this side changes in the balance of each account. -/
def sourceChange (p : LedgerPoster) (l : Legs) (id : LedgerAccountId) : Int :=
  if id = l.source.id then signedAmount l.sourceEntryType p.amount else 0

def destinationChange (p : LedgerPoster) (l : Legs) (id : LedgerAccountId) : Int :=
  if id = l.destination.id then signedAmount l.destinationEntryType p.amount else 0

/-- The legs are those of the accounts that the call names. -/
structure Own (p : LedgerPoster) (l : Legs) : Prop where
  legs : l = LedgerPoster.legs l.source l.destination
  source : l.source.id = p.sourceId
  destination : l.destination.id = p.destinationId
  noSelfTransfer : l.source.id = l.destination.id → p.isDeposit = true

theorem resolve_id {id : LedgerAccountId} {accountType : AccountType} {db : Ledger}
    {account : LedgerAccount} {ws : List Write}
    (run : resolveLedgerAccount id accountType db = (.ok account, ws)) :
    account.id = id ∧ (ws = [] ∨ ws = [.insertAccount account]) := by
  cases found : db.account id with
  | some stored =>
    rw [resolve_found found] at run
    obtain ⟨rfl, rfl⟩ : stored = account ∧ [] = ws := by simpa using run
    exact ⟨(Table.find_some found).2, .inl rfl⟩
  | none =>
    obtain ⟨rfl, rfl⟩ := resolve_missing found run
    exact ⟨rfl, .inr rfl⟩

end LedgerPoster

/-- The tables after the tables `db`: the row of the key, its entries, and the
change of each balance. -/
structure Stands (db : Ledger) (key : IdempotencyKey) (row : LedgerTransaction)
    (entries : List LedgerEntry) (change : LedgerAccountId → Int) (now : Ledger) : Prop where
  row : now.transaction key = some row
  entries : now.entriesOf key = entries
  balances : ∀ id, now.getBalance id = db.getBalance id + change id

namespace Stands

variable {db now : Ledger} {key : IdempotencyKey} {row : LedgerTransaction}
  {entries : List LedgerEntry} {change : LedgerAccountId → Int}

theorem insertAccount (stands : Stands db key row entries change now) (a : LedgerAccount) :
    Stands db key row entries change (now.apply (.insertAccount a)) where
  row := stands.row
  entries := stands.entries
  balances := stands.balances

theorem insertEntry (stands : Stands db key row entries change now) {e : LedgerEntry}
    (own : e.transactionId = key) :
    Stands db key row (entries ++ [e]) change (now.apply (.insertEntry e)) where
  row := stands.row
  entries := by
    rw [Ledger.entriesOf, Ledger.apply, List.filter_append, ← stands.entries, Ledger.entriesOf]
    simp [own]
  balances := stands.balances

theorem saveBalance (stands : Stands db key row entries change now) (id : LedgerAccountId)
    (amount : Int) (currency : String) :
    Stands db key row entries (fun other => change other + if other = id then amount else 0)
      (now.apply (.saveBalance ⟨id, (now.balance id).getD 0 + amount, currency⟩)) where
  row := stands.row
  entries := stands.entries
  balances := by
    intro other
    have before := stands.balances other
    rw [Ledger.getBalance] at before ⊢
    rw [Ledger.balance_saveBalance]
    by_cases same : other = id
    · subst same
      simp only [if_true, Option.getD_some]
      omega
    · simp only [same, if_false]
      omega

theorem markPosted (stands : Stands db key row entries change now) :
    Stands db key row.markedPosted entries change (now.apply (.markPosted key)) where
  row := by
    have found := Table.find_updateWhere (f := LedgerTransaction.markedPosted)
      (fun t => (rfl : t.markedPosted.key = t.key)) key now.transactions
    exact found.trans (Option.map_eq_some_iff.mpr ⟨row, stands.row, rfl⟩)
  entries := stands.entries
  balances := stands.balances

end Stands

namespace Point

/-- The call has written an entry and not yet marked the row. -/
def halfway : Point → Bool
  | .insertDestinationEntry _ | .findSourceBalance _ | .saveSourceBalance _ _
  | .findDestinationBalance _ | .saveDestinationBalance _ _ | .markAsPosted _ => true
  | _ => false

/-- A first entry is written where there is none, and a balance that fits its column. -/
def clear (p : LedgerPoster) (db : Ledger) : Point → Bool
  | .insertSourceEntry source destination =>
    (source.id = destination.id && !p.isDeposit) || db.entriesOf p.key = []
  | .saveSourceBalance l found => InBigint (found.getD 0 + signedAmount l.sourceEntryType p.amount)
  | .saveDestinationBalance l found =>
    InBigint (found.getD 0 + signedAmount l.destinationEntryType p.amount)
  | _ => true

/-- The call is not in the course of its writes. -/
inductive Aside (p : LedgerPoster) : Point → Prop where
  | findExisting : Aside p .findExisting
  | checkEntries : Aside p .checkEntries
  | resolveSource : Aside p .resolveSource
  | resolveDestination {source} (own : source.id = p.sourceId) :
      Aside p (.resolveDestination source)
  | insertSourceEntry {source destination} (own : source.id = p.sourceId)
      (own' : destination.id = p.destinationId) : Aside p (.insertSourceEntry source destination)
  | raised {e} : Aside p (.raised e)

theorem Aside.early {p : LedgerPoster} {point : Point} (aside : Aside p point) :
    point.halfway = false := by
  cases aside <;> rfl

/-- The call goes on beside the tables, returns a posted row, or begins to write. -/
theorem Aside.statement {p : LedgerPoster} {point next : Point} {now : Ledger} {ws : List Write}
    {row : LedgerTransaction} (aside : Aside p point) (stored : now.transaction p.key = some row)
    (run : p.statement point now = (.ok next, ws)) :
    (Aside p next ∧ (ws = [] ∨ ∃ a, ws = [.insertAccount a])) ∨
    (row.status = .posted ∧ next = .returned ∧ ws = []) ∨
    ∃ source destination, point = .insertSourceEntry source destination ∧
      p.Own (LedgerPoster.legs source destination) ∧
      next = .insertDestinationEntry (LedgerPoster.legs source destination) ∧
      ws = [.insertEntry (p.sourceEntry (LedgerPoster.legs source destination))] := by
  cases aside with
  | findExisting =>
    obtain ⟨rfl, rfl⟩ : (if row.status = .posted then .returned else .checkEntries) = next ∧
        [] = ws := by
      simpa [LedgerPoster.statement, PosterM.bind_run, stored] using run
    split_ifs with posted
    · exact .inr (.inl ⟨posted, rfl, rfl⟩)
    · exact .inl ⟨.checkEntries, .inl rfl⟩
  | checkEntries =>
    obtain ⟨entries, us, rest, selected, done, rfl⟩ := PosterM.bind_eq_ok run
    obtain ⟨-, rfl⟩ : now.entriesOf p.key = entries ∧ [] = us := by simpa using selected
    split_ifs at done
    · simp at done
    · obtain ⟨rfl, rfl⟩ : .resolveSource = next ∧ [] = rest := by simpa using done
      exact .inl ⟨.resolveSource, .inl rfl⟩
  | resolveSource =>
    obtain ⟨source, us, rest, resolved, done, rfl⟩ := PosterM.bind_eq_ok run
    obtain ⟨rfl, rfl⟩ : .resolveDestination source = next ∧ [] = rest := by simpa using done
    obtain ⟨own, written⟩ := LedgerPoster.resolve_id resolved
    rw [List.append_nil]
    exact .inl ⟨.resolveDestination own, written.imp_right fun created => ⟨source, created⟩⟩
  | resolveDestination own =>
    rename_i source
    obtain ⟨destination, us, rest, resolved, done, rfl⟩ := PosterM.bind_eq_ok run
    obtain ⟨rfl, rfl⟩ : .insertSourceEntry source destination = next ∧ [] = rest := by
      simpa using done
    obtain ⟨own', written⟩ := LedgerPoster.resolve_id resolved
    rw [List.append_nil]
    exact .inl ⟨.insertSourceEntry own own', written.imp_right fun created =>
      ⟨destination, created⟩⟩
  | insertSourceEntry own own' =>
    rename_i source destination
    obtain ⟨self, -, rfl, rfl⟩ := LedgerPoster.insertSourceEntry_ok run
    refine .inr (.inr ⟨source, destination, rfl, ⟨rfl, own, own', fun same => ?_⟩, rfl, rfl⟩)
    by_contra deposit
    exact self ⟨same, deposit⟩
  | raised =>
    rename_i e
    obtain ⟨rfl, rfl⟩ : .raised e = next ∧ [] = ws := by simpa [LedgerPoster.statement] using run
    exact .inl ⟨.raised, .inl rfl⟩

end Point

section Completing

variable {db now : Ledger} {row : LedgerTransaction} {p : LedgerPoster}

/-- The tables after the completion of the row by a call: its two entries, the
change of each entry in its balance, and the mark on the row. -/
structure Completed (db : Ledger) (row : LedgerTransaction) (p : LedgerPoster) (l : Legs)
    (now : Ledger) : Prop where
  own : p.Own l
  key : p.key = row.key
  stands : Stands db row.key row.markedPosted [p.sourceEntry l, p.destinationEntry l]
    (fun id => p.sourceChange l id + p.destinationChange l id) now

/-- The tables while the call at this point completes the row. -/
inductive Halfway (db : Ledger) (row : LedgerTransaction) (p : LedgerPoster) (now : Ledger) :
    Point → Prop where
  | insertDestinationEntry {l} (own : p.Own l)
      (stands : Stands db row.key row [p.sourceEntry l] (fun _ => 0) now) :
      Halfway db row p now (.insertDestinationEntry l)
  | findSourceBalance {l} (own : p.Own l)
      (stands : Stands db row.key row [p.sourceEntry l, p.destinationEntry l] (fun _ => 0) now) :
      Halfway db row p now (.findSourceBalance l)
  | saveSourceBalance {l} (own : p.Own l)
      (stands : Stands db row.key row [p.sourceEntry l, p.destinationEntry l] (fun _ => 0) now) :
      Halfway db row p now (.saveSourceBalance l (now.balance l.source.id))
  | findDestinationBalance {l} (own : p.Own l)
      (stands : Stands db row.key row [p.sourceEntry l, p.destinationEntry l]
        (p.sourceChange l) now) : Halfway db row p now (.findDestinationBalance l)
  | saveDestinationBalance {l} (own : p.Own l)
      (stands : Stands db row.key row [p.sourceEntry l, p.destinationEntry l]
        (p.sourceChange l) now) :
      Halfway db row p now (.saveDestinationBalance l (now.balance l.destination.id))
  | markAsPosted {l} (own : p.Own l)
      (stands : Stands db row.key row [p.sourceEntry l, p.destinationEntry l]
        (fun id => p.sourceChange l id + p.destinationChange l id) now) :
      Halfway db row p now (.markAsPosted l)

namespace Halfway

variable {point next : Point} {ws : List Write}

theorem halfway (h : Halfway db row p now point) : point.halfway = true := by
  cases h <;> rfl

/-- Accounts that other calls create are of no account here. -/
theorem insertAccount (h : Halfway db row p now point) (a : LedgerAccount) :
    Halfway db row p (now.apply (.insertAccount a)) point := by
  cases h with
  | insertDestinationEntry own stands => exact .insertDestinationEntry own (stands.insertAccount a)
  | findSourceBalance own stands => exact .findSourceBalance own (stands.insertAccount a)
  | saveSourceBalance own stands => exact .saveSourceBalance own (stands.insertAccount a)
  | findDestinationBalance own stands => exact .findDestinationBalance own (stands.insertAccount a)
  | saveDestinationBalance own stands => exact .saveDestinationBalance own (stands.insertAccount a)
  | markAsPosted own stands => exact .markAsPosted own (stands.insertAccount a)

theorem entries (h : Halfway db row p now point) : now.entriesOf row.key ≠ [] := by
  cases h with
  | insertDestinationEntry own stands | findSourceBalance own stands
  | saveSourceBalance own stands | findDestinationBalance own stands
  | saveDestinationBalance own stands | markAsPosted own stands =>
    rw [stands.entries]
    exact List.cons_ne_nil _ _

theorem stored (h : Halfway db row p now point) : now.transaction row.key = some row := by
  cases h with
  | insertDestinationEntry own stands | findSourceBalance own stands
  | saveSourceBalance own stands | findDestinationBalance own stands
  | saveDestinationBalance own stands | markAsPosted own stands => exact stands.row

/-- The next statement of the call: the completion goes on, or is done. -/
theorem statement (h : Halfway db row p now point) (key : p.key = row.key)
    (run : p.statement point now = (.ok next, ws)) :
    Halfway db row p (now.applyAll ws) next ∨
      ∃ l, next = .commit l ∧ Completed db row p l (now.applyAll ws) := by
  cases h with
  | insertDestinationEntry own stands =>
    rename_i l
    obtain ⟨rfl, rfl⟩ : .findSourceBalance l = next ∧
        [.insertEntry (p.destinationEntry l)] = ws := by
      simpa [LedgerPoster.statement, PosterM.bind_run] using run
    exact .inl (.findSourceBalance own (stands.insertEntry key))
  | findSourceBalance own stands =>
    rename_i l
    obtain ⟨rfl, rfl⟩ : .saveSourceBalance l (now.balance l.source.id) = next ∧ [] = ws := by
      simpa [LedgerPoster.statement, PosterM.bind_run] using run
    exact .inl (.saveSourceBalance own stands)
  | saveSourceBalance own stands =>
    rename_i l
    obtain ⟨u, us, rest, saved, done, rfl⟩ := PosterM.bind_eq_ok run
    obtain ⟨rfl, rfl⟩ : .findDestinationBalance l = next ∧ [] = rest := by simpa using done
    obtain ⟨rfl, -⟩ := LedgerPoster.saveBalance_ok saved
    have after := stands.saveBalance l.source.id (signedAmount l.sourceEntryType p.amount)
      p.currency
    simp only [Int.zero_add] at after
    exact .inl (.findDestinationBalance own after)
  | findDestinationBalance own stands =>
    rename_i l
    obtain ⟨rfl, rfl⟩ : .saveDestinationBalance l (now.balance l.destination.id) = next ∧
        [] = ws := by
      simpa [LedgerPoster.statement, PosterM.bind_run] using run
    exact .inl (.saveDestinationBalance own stands)
  | saveDestinationBalance own stands =>
    rename_i l
    obtain ⟨u, us, rest, saved, done, rfl⟩ := PosterM.bind_eq_ok run
    obtain ⟨rfl, rfl⟩ : .markAsPosted l = next ∧ [] = rest := by simpa using done
    obtain ⟨rfl, -⟩ := LedgerPoster.saveBalance_ok saved
    exact .inl (.markAsPosted own (stands.saveBalance l.destination.id
      (signedAmount l.destinationEntryType p.amount) p.currency))
  | markAsPosted own stands =>
    rename_i l
    obtain ⟨rfl, rfl⟩ : .commit l = next ∧ [.markPosted p.key] = ws := by
      simpa [LedgerPoster.statement, LedgerPoster.markAsPosted, PosterM.bind_run] using run
    refine .inr ⟨l, rfl, own, key, ?_⟩
    rw [key]
    exact stands.markPosted

/-- A balance that fits its column is saved: no other call has created its row. -/
theorem not_raised (h : Halfway db row p now point) (clear : point.clear p now = true)
    {e : PostingError} : p.statement point now ≠ (.error e, ws) := by
  have saves : ∀ {account : LedgerAccount} {entryType : EntryType} {found : Option Int},
      InBigint (found.getD 0 + signedAmount entryType p.amount) → now.balance account.id = found →
      p.saveBalance account entryType found now = (.ok (), [.saveBalance ⟨account.id,
        found.getD 0 + signedAmount entryType p.amount, p.currency⟩]) := by
    intro account entryType found fits read
    rw [LedgerPoster.saveBalance, if_neg (not_not_intro fits),
      PosterM.bind_read (PosterM.select_run _ _)]
    cases found with
    | none => simp [read]
    | some value => simp
  cases h with
  | insertDestinationEntry | findSourceBalance | findDestinationBalance | markAsPosted =>
    simp [LedgerPoster.statement, LedgerPoster.markAsPosted, PosterM.bind_run]
  | saveSourceBalance own stands =>
    have saved := saves (of_decide_eq_true clear) rfl
    simp [LedgerPoster.statement, PosterM.bind_run, saved]
  | saveDestinationBalance own stands =>
    have saved := saves (of_decide_eq_true clear) rfl
    simp [LedgerPoster.statement, PosterM.bind_run, saved]

end Halfway

/-- A call with the key of the row, outside any transaction and at such a point. -/
structure CallAt (row : LedgerTransaction) (At : LedgerPoster → Point → Prop) (c : Call) :
    Prop where
  key : c.poster.key = row.key
  outside : c.inTransaction = false
  writes : c.writes = []
  point : At c.poster c.point

/-- The call stands after the completion of the row. -/
inductive Point.Done : Point → Prop where
  | commit {l} : Point.Done (.commit l)
  | returned : Point.Done .returned

namespace CallAt

variable {At At' : LedgerPoster → Point → Prop} {c : Call}

theorem view (call : CallAt row At c) : c.view now = now := by
  rw [Call.view, call.writes, Ledger.applyAll_nil]

theorem imp (call : CallAt row At c) (weaken : At c.poster c.point → At' c.poster c.point) :
    CallAt row At' c :=
  ⟨call.key, call.outside, call.writes, weaken call.point⟩

theorem move (call : CallAt row At c) {next : Point} (at_ : At' c.poster next) :
    CallAt row At' { c with point := next } :=
  ⟨call.key, call.outside, call.writes, at_⟩

theorem aside (call : CallAt row Point.Aside c) :
    CallAt row (fun p point => Point.Aside p point ∨ point.Done) c :=
  call.imp .inl

end CallAt

/-- How far the completion of the row has come. -/
inductive Progress (db : Ledger) (row : LedgerTransaction) (s : LedgerService) : Prop where
  | untouched (stands : Stands db row.key row [] (fun _ => 0) s.db)
      (calls : ∀ c ∈ s.calls, CallAt row Point.Aside c)
  | underway {i c} (at_ : s.calls[i]? = some c)
      (halfway : CallAt row (fun p => Halfway db row p s.db) c)
      (others : ∀ (j : Nat) (d : Call), s.calls[j]? = some d → j ≠ i → CallAt row Point.Aside d)
  | completed {p l} (by_ : p ∈ s.calls.map Call.poster) (done : Completed db row p l s.db)
      (calls : ∀ c ∈ s.calls, CallAt row (fun p point => Point.Aside p point ∨ point.Done) c)

end Completing

theorem Call.running_of_halfway {c : Call} (inside : c.point.halfway = true) : c.ended = false := by
  rw [Call.ended]
  cases at_ : c.point <;> simp [at_, Point.halfway] at inside ⊢

namespace LedgerAction

/-- A call that arrives has this key. -/
def isFor (key : IdempotencyKey) : LedgerAction → Bool
  | .arrive call => match validateInputs call.arguments with
    | .ok p => p.key = key
    | .error _ => true
  | _ => true

end LedgerAction

namespace LedgerService

/-- A call writes its first entry where there is none, and does not stop before
the mark on the row. -/
def CompletesAlone (s : LedgerService) : LedgerAction → Prop
  | .arrive _ => True
  | .statement i => ∀ c ∈ s.calls[i]?, c.point.clear c.poster s.db = true
  | .fail i _ => ∀ c ∈ s.calls[i]?, c.point.halfway = false

instance (s : LedgerService) (a : LedgerAction) : Decidable (CompletesAlone s a) :=
  match a with
  | .arrive _ => isTrue trivial
  | .statement i =>
    inferInstanceAs (Decidable (∀ c ∈ s.calls[i]?, c.point.clear c.poster s.db = true))
  | .fail i _ => inferInstanceAs (Decidable (∀ c ∈ s.calls[i]?, c.point.halfway = false))

end LedgerService

namespace Progress
open LedgerService

variable {db : Ledger} {row : LedgerTransaction} {s t : LedgerService} {i : Nat} {c c' : Call}
  {ws : List Write}

/-- Either the row stands as it was and no call is behind the completion, or the
completion is done and no call is in the course of it. -/
theorem open_or_completed (progress : Progress db row s) :
    (s.db.transaction row.key = some row ∧ ∀ c ∈ s.calls,
      CallAt row (fun p point => Point.Aside p point ∨ Halfway db row p s.db point) c) ∨
    (∃ p ∈ s.calls.map Call.poster, ∃ l, Completed db row p l s.db) ∧ ∀ c ∈ s.calls,
      CallAt row (fun p point => Point.Aside p point ∨ point.Done) c := by
  cases progress with
  | untouched stands calls => exact .inl ⟨stands.row, fun c mem => (calls c mem).imp .inl⟩
  | underway at_ halfway others =>
    rename_i i c
    refine .inl ⟨halfway.point.stored, fun d mem => ?_⟩
    obtain ⟨j, there⟩ := List.mem_iff_getElem?.mp mem
    by_cases same : j = i
    · subst same
      obtain rfl := Option.some.inj (there.symm.trans at_)
      exact halfway.imp .inr
    · exact (others j d there same).imp .inl
  | completed by_ done calls => exact .inr ⟨⟨_, by_, _, done⟩, calls⟩

theorem shape (progress : Progress db row s) (mem : c ∈ s.calls) : CallAt row
    (fun p point => Point.Aside p point ∨ Halfway db row p s.db point ∨ point.Done) c := by
  rcases progress.open_or_completed with ⟨-, calls⟩ | ⟨-, calls⟩
  · exact (calls c mem).imp fun at_ => at_.imp_right .inl
  · exact (calls c mem).imp fun at_ => at_.imp_right .inr

/-- The row of the key, marked or not. -/
theorem stored (progress : Progress db row s) : ∃ r, s.db.transaction row.key = some r := by
  rcases progress.open_or_completed with ⟨stored, -⟩ | ⟨⟨p, -, l, done⟩, -⟩
  · exact ⟨row, stored⟩
  · exact ⟨row.markedPosted, done.stands.row⟩

/-- A call stands behind the completion only once it is done. -/
theorem completed_of_done (progress : Progress db row s) (mem : c ∈ s.calls) (done : c.point.Done) :
    ∃ p ∈ s.calls.map Call.poster, ∃ l, Completed db row p l s.db := by
  rcases progress.open_or_completed with ⟨-, calls⟩ | ⟨completed, -⟩
  · have point := (calls c mem).point
    generalize c.point = point at done point
    cases done with
    | commit | returned => rcases point with aside | halfway <;> [cases aside; cases halfway]
  · exact completed

/-- A call that is not in the course of its writes goes on beside the others. -/
theorem beside (progress : Progress db row s) (ws : List Write) (at_ : s.calls[i]? = some c)
    (early : c.point.halfway = false) (same : c'.poster = c.poster)
    (quiet : ws = [] ∨ ∃ a, ws = [.insertAccount a])
    (call : CallAt row (fun p point => Point.Aside p point ∨ point.Done) c')
    (aside : s.db.transaction row.key = some row → Point.Aside c'.poster c'.point) :
    Progress db row ⟨s.db.applyAll ws, s.calls.set i c'⟩ := by
  have here : s.db.applyAll ws = s.db ∨ ∃ a, s.db.applyAll ws = s.db.apply (.insertAccount a) := by
    rcases quiet with rfl | ⟨a, rfl⟩
    · exact .inl rfl
    · exact .inr ⟨a, rfl⟩
  cases progress with
  | untouched stands calls =>
    refine .untouched ?_ ?_
    · rcases here with stays | ⟨a, grown⟩
      · rwa [stays]
      · rw [grown]
        exact stands.insertAccount a
    · intro d mem
      rcases List.mem_or_eq_of_mem_set mem with old | rfl
      · exact calls d old
      · exact call.imp fun _ => aside stands.row
  | underway at' halfway apart =>
    rename_i k e
    have other : k ≠ i := by
      rintro rfl
      obtain rfl := Option.some.inj (at_.symm.trans at')
      exact absurd (halfway.point.halfway.symm.trans early) (by decide)
    refine .underway (i := k) (c := e) ?_ (halfway.imp fun inside => ?_) ?_
    · simpa [List.getElem?_set_ne other.symm] using at'
    · rcases here with stays | ⟨a, grown⟩
      · rwa [stays]
      · rw [grown]
        exact inside.insertAccount a
    · intro j d there differ
      rcases Machine.replaced_cases at_ there with ⟨-, rfl⟩ | ⟨-, old⟩
      · exact call.imp fun _ => aside halfway.point.stored
      · exact apart j d old differ
  | completed by_ done calls =>
    refine .completed (by rwa [posters_set at_ same]) ⟨done.own, done.key, ?_⟩ ?_
    · rcases here with stays | ⟨a, grown⟩
      · rw [stays]
        exact done.stands
      · rw [grown]
        exact done.stands.insertAccount a
    · intro d mem
      rcases List.mem_or_eq_of_mem_set mem with old | rfl
      · exact calls d old
      · exact call

/-- A call begins to write, where nobody has. -/
theorem opened (progress : Progress db row s) (at_ : s.calls[i]? = some c) {l : Legs}
    (call : CallAt row Point.Aside c) (own : c.poster.Own l)
    (first : s.db.entriesOf row.key = []) :
    Progress db row ⟨s.db.apply (.insertEntry (c.poster.sourceEntry l)),
      s.calls.set i { c with point := .insertDestinationEntry l }⟩ := by
  have bound := (List.getElem?_eq_some_iff.mp at_).1
  cases progress with
  | untouched stands calls =>
    refine .underway (i := i) (c := { c with point := .insertDestinationEntry l }) (by simp [bound])
      (call.move ?_) ?_
    · exact .insertDestinationEntry own (stands.insertEntry call.key)
    · intro j d there differ
      rw [List.getElem?_set_ne differ.symm] at there
      exact calls d (List.mem_of_getElem? there)
  | underway at' halfway others => exact absurd first halfway.point.entries
  | completed by_ done calls =>
    rw [done.stands.entries] at first
    cases first

/-- No other call writes beside the one that does. -/
theorem others_aside (progress : Progress db row s) (pending : row.status = .pending)
    (at_ : s.calls[i]? = some c) (halfway : CallAt row (fun p => Halfway db row p s.db) c)
    {j : Nat} {d : Call} (there : s.calls[j]? = some d) (differ : j ≠ i) :
    CallAt row Point.Aside d := by
  cases progress with
  | untouched stands calls => exact calls d (List.mem_of_getElem? there)
  | underway at' halfway' others =>
    rename_i k e
    by_cases same : i = k
    · subst same
      exact others j d there differ
    · have aside := (others i c at_ same).point
      have inside := halfway.point.halfway
      generalize c.point = point at aside inside
      cases aside <;> cases inside
  | completed by_ done calls =>
    have marked := halfway.point.stored
    rw [done.stands.row] at marked
    exact absurd (Option.some.inj marked) (LedgerTransaction.markedPosted_ne pending)

/-- The call in the course of its writes goes on, and is done with its mark on the row. -/
theorem further (progress : Progress db row s) (pending : row.status = .pending)
    (at_ : s.calls[i]? = some c) {next : Point}
    (halfway : CallAt row (fun p => Halfway db row p s.db) c)
    (run : c.poster.statement c.point s.db = (.ok next, ws)) :
    Progress db row ⟨s.db.applyAll ws, s.calls.set i { c with point := next }⟩ := by
  have bound := (List.getElem?_eq_some_iff.mp at_).1
  have others : ∀ (j : Nat) (d : Call), (s.calls.set i { c with point := next })[j]? = some d →
      j ≠ i → CallAt row Point.Aside d := by
    intro j d there differ
    rw [List.getElem?_set_ne differ.symm] at there
    exact progress.others_aside pending at_ halfway there differ
  rcases halfway.point.statement halfway.key run with more | ⟨l, rfl, done⟩
  · exact .underway (i := i) (c := { c with point := next }) (by simp [bound])
      (halfway.move more) others
  · refine .completed (p := c.poster) ?_ done ?_
    · exact List.mem_map.mpr ⟨_, List.mem_of_getElem? (List.getElem?_set_self bound), rfl⟩
    · intro d mem
      obtain ⟨j, there⟩ := List.mem_iff_getElem?.mp mem
      rcases Machine.replaced_cases at_ there with ⟨-, rfl⟩ | ⟨differ, -⟩
      · exact halfway.move (.inr .commit)
      · exact (others j d there differ).aside

theorem arrived (progress : Progress db row s) {p : LedgerPoster} (own : p.key = row.key) :
    Progress db row { s with calls := s.calls ++ [Call.start p] } := by
  have start : CallAt row Point.Aside (Call.start p) := ⟨own, rfl, rfl, .findExisting⟩
  cases progress with
  | untouched stands calls =>
    refine .untouched stands fun d mem => ?_
    rcases List.mem_append.mp mem with old | new
    · exact calls d old
    · exact List.mem_singleton.mp new ▸ start
  | underway at_ halfway others =>
    rename_i i c
    refine .underway (i := i) (c := c) ?_ halfway fun j d there differ => ?_
    · rw [List.getElem?_append_left (List.getElem?_eq_some_iff.mp at_).1]
      exact at_
    · rw [List.getElem?_append] at there
      split_ifs at there
      · exact others j d there differ
      · exact List.mem_singleton.mp (List.mem_of_getElem? there) ▸ start
  | completed by_ done calls =>
    refine .completed ?_ done fun d mem => ?_
    · rw [List.map_append]
      exact List.mem_append_left _ by_
    · rcases List.mem_append.mp mem with old | new
      · exact calls d old
      · exact List.mem_singleton.mp new ▸ start.aside

/-- The step lemma. -/
theorem step {a : LedgerAction} (progress : Progress db row s) (pending : row.status = .pending)
    (own : a.isFor row.key = true) (alone : CompletesAlone s a) (h : s.step a = some t) :
    Progress db row t := by
  cases moved_step h with
  | refused invalid => exact progress
  | arrived valid =>
    rw [LedgerAction.isFor, valid] at own
    exact progress.arrived (of_decide_eq_true own)
  | ended of at_ running raised =>
    rename_i i c e
    have call := progress.shape (List.mem_of_getElem? at_)
    have early : c.point.halfway = false := by
      rcases of with rfl | rfl
      · obtain ⟨ws, run⟩ := raised rfl
        rw [call.view] at run
        rcases call.point with aside | halfway | done
        · exact aside.early
        · exact absurd run (halfway.not_raised (alone c at_))
        · generalize c.point = point at done
          cases done <;> rfl
      · exact alone c at_
    exact progress.beside [] at_ early rfl (.inl rfl)
      ⟨call.key, rfl, rfl, .inl .raised⟩ (fun _ => .raised)
  | committed at_ ready =>
    rename_i i c l
    have mem := List.mem_of_getElem? at_
    have call := progress.shape mem
    have marked : s.db.transaction row.key ≠ some row := by
      obtain ⟨p, -, l, done⟩ := progress.completed_of_done mem (ready ▸ .commit)
      rw [done.stands.row]
      exact fun same => LedgerTransaction.markedPosted_ne pending (Option.some.inj same)
    rw [call.view]
    exact progress.beside [] at_ (by rw [ready]; rfl) rfl (.inl rfl)
      ⟨call.key, rfl, rfl, .inr .returned⟩ (fun unmarked => absurd unmarked marked)
  | wrote at_ running before run free inside =>
    rename_i i c next ws
    have call := progress.shape (List.mem_of_getElem? at_)
    have creates : c.point = .createTransaction := by
      simpa [begins, call.outside] using inside
    have point := call.point
    rw [creates] at point
    rcases point with aside | halfway | done
    · cases aside
    · cases halfway
    · cases done
  | autocommitted at_ running before run free outside =>
    rename_i i c next ws
    have call := progress.shape (List.mem_of_getElem? at_)
    rw [call.view] at run
    rcases call.point with aside | halfway | done
    · obtain ⟨r, stored⟩ := progress.stored
      rw [← call.key] at stored
      rcases aside.statement stored run with ⟨aside', quiet⟩ | ⟨posted, rfl, rfl⟩ |
        ⟨source, destination, at', own', rfl, rfl⟩
      · exact progress.beside _ at_ aside.early rfl quiet (call.move (.inl aside')) fun _ => aside'
      · refine progress.beside [] at_ aside.early rfl (.inl rfl) (call.move (.inr .returned))
          fun unmarked => ?_
        rw [← call.key, stored] at unmarked
        rw [Option.some.inj unmarked, pending] at posted
        cases posted
      · have clear := alone c at_
        rw [at', Point.clear, Bool.or_eq_true, Bool.and_eq_true] at clear
        rcases clear with ⟨self, transfer⟩ | first
        · have deposit := own'.noSelfTransfer (of_decide_eq_true self)
          rw [deposit] at transfer
          cases transfer
        · rw [call.key] at first
          exact progress.opened at_ (call.imp fun _ => aside) own' (of_decide_eq_true first)
    · exact progress.further pending at_ (call.imp fun _ => halfway) run
    · generalize hp : c.point = point at done
      cases done with
      | commit => exact absurd hp (before _)
      | returned => simp [Call.ended, hp] at running

end Progress

namespace LedgerService

/-- A row is pending and without entries, and calls with its key are interleaved
statement by statement. While a call writes its first entry only where there is
none, and no call stops between its first entry and the mark on the row: when a
call has returned, the row has been completed by one call, and it is the row of
every call that returns; and when all calls have ended, either it is so or the
row, its entries and the balances are as they were. -/
theorem completed_once (db : Ledger) (row : LedgerTransaction)
    (stored : db.transaction row.key = some row) (pending : row.status = .pending)
    (unposted : db.entriesOf row.key = []) (as : List LedgerAction) (s : LedgerService)
    (own : ∀ a ∈ as, a.isFor row.key = true)
    (alone : Machine.Along step CompletesAlone ⟨db, []⟩ as)
    (run : Machine.run step ⟨db, []⟩ as = some s) :
    (∀ c ∈ s.calls, c.point = .returned → (∃ p ∈ s.calls.map Call.poster, ∃ l,
      Completed db row p l s.db) ∧ s.db.transaction c.poster.key = some row.markedPosted) ∧
    ((∀ c ∈ s.calls, c.ended = true) → (∃ p ∈ s.calls.map Call.poster, ∃ l,
      Completed db row p l s.db) ∨ Stands db row.key row [] (fun _ => 0) s.db ∧
        ∀ c ∈ s.calls, c.point ≠ .returned) := by
  have start : Progress db row ⟨db, []⟩ :=
    .untouched ⟨stored, unposted, fun id => (Int.add_zero _).symm⟩ (fun c mem => by cases mem)
  have progress : Progress db row s := Machine.invariant_along
    (fun s a t progress (both : a.isFor row.key = true ∧ CompletesAlone s a) moved =>
      progress.step pending both.1 both.2 moved)
    start (Machine.along_and (Machine.along_of_mem own _) alone) run
  constructor
  · intro c mem returned
    obtain ⟨p, by_, l, done⟩ := progress.completed_of_done mem (returned ▸ .returned)
    refine ⟨⟨p, by_, l, done⟩, ?_⟩
    rw [(progress.shape mem).key]
    exact done.stands.row
  · intro ended
    cases progress with
    | untouched stands calls =>
      refine .inr ⟨stands, fun c mem returned => ?_⟩
      have aside := (calls c mem).point
      rw [returned] at aside
      cases aside
    | underway at_ halfway others =>
      rename_i i c
      have finished := ended c (List.mem_of_getElem? at_)
      rw [Call.running_of_halfway halfway.point.halfway] at finished
      cases finished
    | completed by_ done calls => exact .inl ⟨_, by_, _, done⟩

/-- The statements of a call from its first entry on. -/
def itsWrites (i : Nat) : List LedgerAction := List.replicate 8 (.statement i)

/-- Two calls, of which the second looks for the row after the first has returned. -/
def oneAfterTheOther : List LedgerAction :=
  [.arrive pendingPost, .arrive pendingPost] ++ List.replicate 4 (.statement 0) ++ itsWrites 0 ++
    [.statement 1]

theorem completed_once_two : ∃ s, Machine.run step ⟨pendingLedger, []⟩ oneAfterTheOther = some s ∧
    (∃ c ∈ s.calls, c.point = .returned) ∧
    ∀ c ∈ s.calls, c.point = .returned → (∃ p ∈ s.calls.map Call.poster, ∃ l,
      Completed pendingLedger pendingPoster.newTransaction p l s.db) ∧
      s.db.transaction c.poster.key = some pendingPoster.newTransaction.markedPosted := by
  have evaluated : (Machine.run step ⟨pendingLedger, []⟩ oneAfterTheOther).any (fun s =>
      s.calls.any (fun c => c.point = .returned)) = true := by decide +kernel
  obtain ⟨s, run, returned⟩ := (Option.any_eq_true _ _).mp evaluated
  refine ⟨s, run, by simpa using returned, ?_⟩
  exact (completed_once pendingLedger pendingPoster.newTransaction (by decide) rfl (by decide)
    oneAfterTheOther s (by decide +kernel) (by decide +kernel) run).1

/-- Both calls have looked for entries before the first writes its own. -/
def bothComplete : List LedgerAction :=
  [.arrive pendingPost, .arrive pendingPost] ++ List.replicate 4 (.statement 0) ++
    List.replicate 4 (.statement 1) ++ itsWrites 0 ++ itsWrites 1

/-- Both calls return, and the row has four entries. -/
theorem completed_twice : ¬ ∀ (db : Ledger) (row : LedgerTransaction),
    db.transaction row.key = some row → row.status = .pending → db.entriesOf row.key = [] →
    ∀ (as : List LedgerAction) (s : LedgerService), (∀ a ∈ as, a.isFor row.key = true) →
      Machine.run step ⟨db, []⟩ as = some s → (∀ c ∈ s.calls, c.ended = true) →
      (∃ c ∈ s.calls, c.point = .returned) → (s.db.entriesOf row.key).length = 2 := by
  intro claim
  have evaluated : (Machine.run step ⟨pendingLedger, []⟩ bothComplete).any (fun s =>
      s.calls.all (fun c => c.ended) && s.calls.any (fun c => c.point = .returned) &&
        (s.db.entriesOf pendingPoster.newTransaction.key).length = 4) = true := by decide +kernel
  obtain ⟨s, run, after⟩ := (Option.any_eq_true _ _).mp evaluated
  obtain ⟨calls, four⟩ := Bool.and_eq_true_iff.mp after
  obtain ⟨ended, returned⟩ := Bool.and_eq_true_iff.mp calls
  have two := claim pendingLedger pendingPoster.newTransaction (by decide) rfl (by decide)
    bothComplete s (by decide +kernel) run (by simpa using ended) (by simpa using returned)
  rw [of_decide_eq_true four] at two
  exact absurd two (by decide)

end LedgerService

end RailsCore
