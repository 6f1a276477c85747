import RailsCore.LedgerCalls

/-!
# What a post records

A ledger is sound when every transaction is the posted record of one poster,
with the two entries and the two accounts of its legs. A call under way owns
rows that nobody else can write, and when it commits the ledger stays sound.
Nothing is said here about balances, which other sessions can overwrite.
-/

namespace RailsCore

/-- The types that posts give to accounts, by external id. -/
def LedgerAccount.Typed (a : LedgerAccount) : Prop :=
  if startsWithSystem a.id.externalAccountId then
    a.accountType = .asset ∨
      a.accountType = .income ∧ a.id.externalAccountId = "SYSTEM_FEE_INCOME"
  else a.accountType = .liability

namespace Point

/-- The accounts and entry types known at a point. -/
def legs : Point → Option Legs
  | .insertDestinationEntry l | .findSourceBalance l | .saveSourceBalance l _
  | .findDestinationBalance l | .saveDestinationBalance l _ | .markAsPosted l | .commit l => some l
  | _ => none

def source : Point → Option LedgerAccount
  | .resolveDestination source | .insertSourceEntry source _ => some source
  | point => point.legs.map Legs.source

def destination : Point → Option LedgerAccount
  | .insertSourceEntry _ destination => some destination
  | point => point.legs.map Legs.destination

/-- How many statements are left until the commit, for the points inside the
transaction of a new row. -/
def remaining : Point → Option Nat
  | .resolveSource => some 9
  | .resolveDestination _ => some 8
  | .insertSourceEntry _ _ => some 7
  | .insertDestinationEntry _ => some 6
  | .findSourceBalance _ => some 5
  | .saveSourceBalance _ _ => some 4
  | .findDestinationBalance _ => some 3
  | .saveDestinationBalance _ _ => some 2
  | .markAsPosted _ => some 1
  | .commit _ => some 0
  | _ => none

end Point

namespace LedgerPoster

/-- `post_deposit` is the only way to set `is_deposit`. -/
def DepositsFromCash (p : LedgerPoster) : Prop :=
  p.isDeposit = true → p.sourceExternalAccountId = systemCashControl

def postedTransaction (p : LedgerPoster) : LedgerTransaction :=
  { p.newTransaction with status := .posted, failureReason := none }

@[simp] theorem key_newTransaction (p : LedgerPoster) : p.newTransaction.key = p.key := rfl

@[simp] theorem key_postedTransaction (p : LedgerPoster) : p.postedTransaction.key = p.key := rfl

/-- The transaction row as the open transaction sees it at a point. -/
def rowAt (p : LedgerPoster) : Point → LedgerTransaction
  | .commit _ => p.postedTransaction
  | _ => p.newTransaction

/-- The entries written before a point. -/
def entriesAt (p : LedgerPoster) : Point → List LedgerEntry
  | .insertDestinationEntry l => [p.sourceEntry l]
  | .findSourceBalance l | .saveSourceBalance l _ | .findDestinationBalance l
  | .saveDestinationBalance l _ | .markAsPosted l | .commit l =>
    [p.sourceEntry l, p.destinationEntry l]
  | _ => []

theorem key_rowAt (p : LedgerPoster) (point : Point) : (p.rowAt point).key = p.key := by
  cases point <;> rfl

theorem transactionId_entriesAt (p : LedgerPoster) (point : Point) :
    ∀ e ∈ p.entriesAt point, e.transactionId = p.key := by
  intro e he
  cases point <;> simp [entriesAt, sourceEntry, destinationEntry, entry] at he <;>
    first
    | exact he ▸ rfl
    | rcases he with rfl | rfl <;> rfl

theorem validateInputs_depositsFromCash {call : PostCall} {p : LedgerPoster}
    (h : validateInputs call.arguments = .ok p) : p.DepositsFromCash := by
  intro deposit
  obtain ⟨_, _, _, source, _, _, _, _, isDeposit⟩ := validateInputs_ok h
  rw [source]
  rw [isDeposit] at deposit
  cases call with
  | post args => simp [PostCall.arguments, PostArguments.post] at deposit
  | postDeposit args => rfl

/-- The rows that `resolve` creates where there is none. -/
def newSource (p : LedgerPoster) : LedgerAccount := ⟨p.sourceId, p.determineSourceAccountType⟩

def newDestination (p : LedgerPoster) : LedgerAccount :=
  ⟨p.destinationId, p.determineDestinationAccountType⟩

theorem newSource_typed {p : LedgerPoster} (cash : p.DepositsFromCash) : p.newSource.Typed := by
  rw [newSource]
  by_cases deposit : p.isDeposit = true
  · have system : startsWithSystem p.sourceExternalAccountId = true := by
      rw [cash deposit]
      decide
    simp [LedgerAccount.Typed, sourceId, accountId, determineSourceAccountType, system]
  · by_cases system : startsWithSystem p.sourceExternalAccountId = true <;>
      simp [LedgerAccount.Typed, sourceId, accountId, determineSourceAccountType, deposit, system]

theorem newDestination_typed (p : LedgerPoster) : p.newDestination.Typed := by
  rw [newDestination]
  by_cases system : startsWithSystem p.destinationExternalAccountId = true
  · simp only [LedgerAccount.Typed, destinationId, accountId, determineDestinationAccountType,
      system, if_true]
    split_ifs with known fee
    · exact .inl rfl
    · exact .inr ⟨rfl, fee⟩
    · exact .inl rfl
  · simp [LedgerAccount.Typed, destinationId, accountId, determineDestinationAccountType, system]

theorem newSource_eq_newDestination {p : LedgerPoster} (cash : p.DepositsFromCash)
    (deposit : p.isDeposit = true) (same : p.sourceId = p.destinationId) :
    p.newSource = p.newDestination := by
  have destination : p.destinationExternalAccountId = systemCashControl := by
    rw [← cash deposit]
    exact (congrArg LedgerAccountId.externalAccountId same).symm
  have types : p.determineSourceAccountType = p.determineDestinationAccountType := by
    have system : startsWithSystem systemCashControl = true := by decide
    simp [determineSourceAccountType, determineDestinationAccountType, deposit, destination, system]
  rw [newSource, newDestination, same, types]

/-- A balance that is saved is the one that was read plus the signed amount. -/
theorem saveBalance_ok {p : LedgerPoster} {account : LedgerAccount} {entryType : EntryType}
    {found : Option Int} {db : Ledger} {u : Unit} {ws : List Write}
    (h : p.saveBalance account entryType found db = (.ok u, ws)) :
    ws = [.saveBalance ⟨account.id, found.getD 0 + signedAmount entryType p.amount, p.currency⟩] ∧
      (found = none → db.balance account.id = none) := by
  rw [saveBalance] at h
  split_ifs at h with range
  swap
  · exact absurd (Prod.mk.inj h).1 (by simp)
  rw [PosterM.bind_read (PosterM.select_run _ _)] at h
  cases found with
  | some value =>
    refine ⟨?_, by simp⟩
    simpa using (Prod.mk.inj h).2.symm
  | none =>
    cases seen : db.balance account.id with
    | some value => simp [seen] at h
    | none => simpa [seen] using h.symm

end LedgerPoster

/-- The posted row of `p` with its two entries, written for the accounts of `l`. -/
structure Recorded (db : Ledger) (p : LedgerPoster) (l : Legs) : Prop where
  row : p.postedTransaction ∈ db.transactions
  entries : db.entriesOf p.key = [p.sourceEntry l, p.destinationEntry l]
  legs : l = LedgerPoster.legs l.source l.destination
  source : l.source.id = p.sourceId ∧ l.source ∈ db.accounts
  destination : l.destination.id = p.destinationId ∧ l.destination ∈ db.accounts
  noSelfTransfer : l.source.id = l.destination.id → p.isDeposit = true

namespace Ledger

/-- The committed tables of a ledger that only whole posts have written. -/
structure Sound (db : Ledger) : Prop where
  keys : Table.Unique LedgerTransaction.key db.transactions
  accounts : Table.Unique LedgerAccount.id db.accounts
  typed : ∀ a ∈ db.accounts, a.Typed
  owned : ∀ e ∈ db.entries, ∃ t ∈ db.transactions, t.key = e.transactionId
  recorded : ∀ t ∈ db.transactions, ∃ p l, p.key = t.key ∧ Recorded db p l

theorem sound_empty : Sound empty where
  keys := Table.unique_nil _
  accounts := Table.unique_nil _
  typed := by simp [empty]
  owned := by simp [empty]
  recorded := by simp [empty]

theorem Sound.posted {db : Ledger} (sound : db.Sound) {t : LedgerTransaction}
    (ht : t ∈ db.transactions) : t.status = .posted := by
  obtain ⟨p, l, same, recorded⟩ := sound.recorded t ht
  rw [sound.keys.eq ht recorded.row (by simpa using same.symm)]
  rfl

theorem Sound.entriesOf_missing {db : Ledger} (sound : db.Sound) {key : IdempotencyKey}
    (missing : db.transaction key = none) : db.entriesOf key = [] := by
  rw [entriesOf, List.filter_eq_nil_iff]
  intro e he belongs
  obtain ⟨t, ht, owner⟩ := sound.owned e he
  exact Table.find_none_iff.mp missing t ht (owner.trans (by simpa using belongs))

/-- An account without a row has no entries. -/
theorem Sound.entry_account {db : Ledger} (sound : db.Sound) {e : LedgerEntry}
    (he : e ∈ db.entries) : db.account e.ledgerAccountId ≠ none := by
  obtain ⟨t, ht, owner⟩ := sound.owned e he
  obtain ⟨p, l, same, recorded⟩ := sound.recorded t ht
  have listed : e ∈ db.entriesOf p.key := List.mem_filter.mpr ⟨he, by simp [same, owner]⟩
  rw [recorded.entries] at listed
  have known : ∀ a ∈ db.accounts, db.account a.id ≠ none := by
    intro a ha missing
    exact Table.find_none_iff.mp missing a ha rfl
  rcases List.mem_cons.mp listed with rfl | second
  · exact known _ recorded.source.2
  · rw [List.mem_singleton.mp second]
    exact known _ recorded.destination.2

theorem entriesOf_append (db : Ledger) (ws : List Write) (key : IdempotencyKey) :
    (db.applyAll ws).entriesOf key = db.entriesOf key ++ (ofWrites ws).entriesOf key := by
  rw [entriesOf, entries_applyAll, List.filter_append]
  rfl

end Ledger

/-- Tables written inside a transaction are locked by it. -/
theorem account_locked {ws : List Write} {a : LedgerAccount}
    (ha : a ∈ (Ledger.ofWrites ws).accounts) : Lock.account a.id ∈ ws.filterMap Write.lock := by
  induction ws using List.reverseRecOn with
  | nil => simp [Ledger.ofWrites, Ledger.empty] at ha
  | append_singleton ws w ih =>
    rw [Ledger.ofWrites_concat] at ha
    rw [List.filterMap_append, List.mem_append]
    cases w with
    | insertAccount b =>
      rcases List.mem_append.mp ha with old | new
      · exact .inl (ih old)
      · obtain rfl := List.mem_singleton.mp new
        exact .inr (by simp [Write.lock])
    | _ => exact .inl (ih ha)

theorem balance_locked {ws : List Write} {id : LedgerAccountId}
    (saved : (Ledger.ofWrites ws).balance id ≠ none) :
    Lock.balance id ∈ ws.filterMap Write.lock := by
  induction ws using List.reverseRecOn with
  | nil => exact absurd rfl saved
  | append_singleton ws w ih =>
    rw [Ledger.ofWrites_concat, Ledger.balance_apply] at saved
    rw [List.filterMap_append, List.mem_append]
    cases w with
    | saveBalance b =>
      by_cases same : id = b.ledgerAccountId
      · exact .inr (by simp [Write.lock, same])
      · exact .inl (ih (by simpa [same] using saved))
    | _ => exact .inl (ih saved)

/-- What a call has done when it stands at a point inside the transaction of a
new row, having written `ws` over the committed tables `db`. -/
structure Underway (db : Ledger) (p : LedgerPoster) (point : Point) (ws : List Write) : Prop where
  inside : point.remaining ≠ none
  cash : p.DepositsFromCash
  fresh : db.transaction p.key = none
  marks : ∀ key, Write.markPosted key ∈ ws → key = p.key
  held : Lock.transaction p.key ∈ ws.filterMap Write.lock
  row : (Ledger.ofWrites ws).transactions = [p.rowAt point]
  entries : (Ledger.ofWrites ws).entries = p.entriesAt point
  newAccounts : ∀ a ∈ (Ledger.ofWrites ws).accounts,
    db.account a.id = none ∧ (a = p.newSource ∨ a = p.newDestination)
  unique : Table.Unique LedgerAccount.id (Ledger.ofWrites ws).accounts
  source : ∀ a ∈ point.source, a.id = p.sourceId ∧ a ∈ (db.applyAll ws).accounts
  destination : ∀ a ∈ point.destination, a.id = p.destinationId ∧ a ∈ (db.applyAll ws).accounts
  legs : ∀ l ∈ point.legs, l = LedgerPoster.legs l.source l.destination ∧
    (l.source.id = l.destination.id → p.isDeposit = true)

namespace Underway

variable {db : Ledger} {p : LedgerPoster} {point next : Point} {ws : List Write} {l : Legs}

theorem visible (h : Underway db p point ws) :
    (db.applyAll ws).transactions = db.transactions ++ [p.rowAt point] := by
  rw [Ledger.transactions_applyAll, h.row]
  intro key marked
  rw [h.marks key marked]
  exact h.fresh

/-- The first statement of the transaction, on a committed view. -/
theorem begin (cash : p.DepositsFromCash) (fresh : db.transaction p.key = none) :
    Underway db p .resolveSource [.insertTransaction p.newTransaction] where
  inside := by simp [Point.remaining]
  cash := cash
  fresh := fresh
  marks := by simp
  held := by simp [Write.lock]
  row := rfl
  entries := rfl
  newAccounts := by simp [Ledger.ofWrites, Ledger.apply, Ledger.empty]
  unique := Table.unique_nil _
  source := by simp [Point.source, Point.legs]
  destination := by simp [Point.destination, Point.legs]
  legs := by simp [Point.legs]

/-- Nothing is written on the way to the next point. -/
theorem goto (h : Underway db p point ws) (inside : next.remaining ≠ none)
    (row : p.rowAt next = p.rowAt point) (entries : p.entriesAt next = p.entriesAt point)
    (source : ∀ a ∈ next.source, a.id = p.sourceId ∧ a ∈ (db.applyAll ws).accounts)
    (destination : ∀ a ∈ next.destination,
      a.id = p.destinationId ∧ a ∈ (db.applyAll ws).accounts)
    (legs : next.legs = point.legs) : Underway db p next ws where
  inside := inside
  cash := h.cash
  fresh := h.fresh
  marks := h.marks
  held := h.held
  row := by rw [row, h.row]
  entries := by rw [entries, h.entries]
  newAccounts := h.newAccounts
  unique := h.unique
  source := source
  destination := destination
  legs := legs ▸ h.legs

/-- A balance is saved: the other tables stay. -/
theorem save (h : Underway db p point ws) (b : AccountBalance) :
    Underway db p point (ws ++ [.saveBalance b]) where
  inside := h.inside
  cash := h.cash
  fresh := h.fresh
  marks := by simpa using h.marks
  held := by simpa using Or.inl h.held
  row := by rw [Ledger.ofWrites_concat]; exact h.row
  entries := by rw [Ledger.ofWrites_concat]; exact h.entries
  newAccounts := by rw [Ledger.ofWrites_concat]; exact h.newAccounts
  unique := by rw [Ledger.ofWrites_concat]; exact h.unique
  source := by rw [Ledger.applyAll_concat]; exact h.source
  destination := by rw [Ledger.applyAll_concat]; exact h.destination
  legs := h.legs

theorem insertAccount (h : Underway db p point ws) {a : LedgerAccount}
    (missing : (db.applyAll ws).account a.id = none)
    (created : a = p.newSource ∨ a = p.newDestination) :
    Underway db p point (ws ++ [.insertAccount a]) := by
  rw [Ledger.account_applyAll, Option.or_eq_none_iff] at missing
  obtain ⟨fresh, unwritten⟩ := missing
  have accounts : (Ledger.ofWrites (ws ++ [.insertAccount a])).accounts =
      (Ledger.ofWrites ws).accounts ++ [a] := by
    rw [Ledger.ofWrites_concat]
    rfl
  have seen : ∀ b ∈ (db.applyAll ws).accounts,
      b ∈ (db.applyAll (ws ++ [.insertAccount a])).accounts := by
    intro b hb
    rw [Ledger.applyAll_concat]
    exact List.mem_append_left _ hb
  refine ⟨h.inside, h.cash, h.fresh, by simpa using h.marks, by simpa using Or.inl h.held, ?_, ?_,
    ?_, ?_, fun b hb => (h.source b hb).imp_right (seen b),
    fun b hb => (h.destination b hb).imp_right (seen b), h.legs⟩
  · rw [Ledger.ofWrites_concat]
    exact h.row
  · rw [Ledger.ofWrites_concat]
    exact h.entries
  · intro b hb
    rw [accounts] at hb
    rcases List.mem_append.mp hb with old | new
    · exact h.newAccounts b old
    · obtain rfl := List.mem_singleton.mp new
      exact ⟨fresh, created⟩
  · rw [accounts]
    exact h.unique.insert (fun b hb => Table.find_none_iff.mp unwritten b hb)

/-- `LedgerAccount.resolve` inside the transaction. -/
theorem resolve (h : Underway db p point ws) {id : LedgerAccountId} {accountType : AccountType}
    (created : ⟨id, accountType⟩ = p.newSource ∨ ⟨id, accountType⟩ = p.newDestination)
    {a : LedgerAccount} {vs : List Write}
    (run : LedgerPoster.resolveLedgerAccount id accountType (db.applyAll ws) = (.ok a, vs)) :
    Underway db p point (ws ++ vs) ∧ a.id = id ∧ a ∈ (db.applyAll (ws ++ vs)).accounts := by
  cases found : (db.applyAll ws).account id with
  | some b =>
    obtain ⟨one, rfl⟩ := Prod.mk.inj ((LedgerPoster.resolve_found found).symm.trans run)
    cases one
    rw [List.append_nil]
    exact ⟨h, (Table.find_some found).2, (Table.find_some found).1⟩
  | none =>
    obtain ⟨rfl, rfl⟩ := LedgerPoster.resolve_missing found run
    refine ⟨h.insertAccount found created, rfl, ?_⟩
    rw [Ledger.applyAll_concat]
    exact List.mem_append_right _ (List.mem_singleton.mpr rfl)

/-- The point moves on with another row or other entries written. -/
theorem insertEntry (h : Underway db p point ws) {e : LedgerEntry}
    (inside : next.remaining ≠ none) (row : p.rowAt next = p.rowAt point)
    (entries : p.entriesAt next = p.entriesAt point ++ [e])
    (source : next.source = point.source) (destination : next.destination = point.destination)
    (legs : ∀ l ∈ next.legs, l = LedgerPoster.legs l.source l.destination ∧
      (l.source.id = l.destination.id → p.isDeposit = true)) :
    Underway db p next (ws ++ [.insertEntry e]) where
  inside := inside
  cash := h.cash
  fresh := h.fresh
  marks := by simpa using h.marks
  held := by simpa using Or.inl h.held
  row := by
    rw [Ledger.ofWrites_concat, row]
    exact h.row
  entries := by
    rw [Ledger.ofWrites_concat, entries]
    exact congrArg (· ++ [e]) h.entries
  newAccounts := by
    rw [Ledger.ofWrites_concat]
    exact h.newAccounts
  unique := by
    rw [Ledger.ofWrites_concat]
    exact h.unique
  source := by
    rw [Ledger.applyAll_concat, source]
    exact h.source
  destination := by
    rw [Ledger.applyAll_concat, destination]
    exact h.destination
  legs := legs

theorem markPosted {l : Legs} (h : Underway db p (.markAsPosted l) ws) :
    Underway db p (.commit l) (ws ++ [.markPosted p.key]) where
  inside := by simp [Point.remaining]
  cash := h.cash
  fresh := h.fresh
  marks := by
    intro key marked
    rcases List.mem_append.mp marked with old | new
    · exact h.marks key old
    · simpa using new
  held := by simpa using Or.inl h.held
  row := by
    rw [Ledger.ofWrites_concat]
    simp [Ledger.apply, h.row, Table.updateWhere, LedgerPoster.rowAt, LedgerPoster.postedTransaction]
  entries := by
    rw [Ledger.ofWrites_concat]
    exact h.entries
  newAccounts := by
    rw [Ledger.ofWrites_concat]
    exact h.newAccounts
  unique := by
    rw [Ledger.ofWrites_concat]
    exact h.unique
  source := by
    rw [Ledger.applyAll_concat]
    exact h.source
  destination := by
    rw [Ledger.applyAll_concat]
    exact h.destination
  legs := h.legs

/-- The step lemma: every statement before the commit keeps what is under way. -/
theorem statement (h : Underway db p point ws) {vs : List Write}
    (open_ : point.remaining ≠ some 0)
    (run : p.statement point (db.applyAll ws) = (.ok next, vs)) :
    Underway db p next (ws ++ vs) ∧ point.remaining = next.remaining.map (· + 1) := by
  cases point with
  | findExisting | createTransaction | checkEntries | returned | raised e =>
    exact absurd rfl h.inside
  | commit l => exact absurd rfl open_
  | resolveSource =>
    obtain ⟨source, us, rest, resolved, done, rfl⟩ := PosterM.bind_eq_ok run
    obtain ⟨rfl, rfl⟩ : .resolveDestination source = next ∧ [] = rest := by simpa using done
    obtain ⟨kept, sourceId, seen⟩ := h.resolve (.inl rfl) resolved
    rw [List.append_nil]
    refine ⟨kept.goto (by simp [Point.remaining]) rfl rfl ?_ ?_ rfl, rfl⟩
    · rintro a ⟨⟩
      exact ⟨sourceId, seen⟩
    · rintro a ⟨⟩
  | resolveDestination source =>
    obtain ⟨destination, us, rest, resolved, done, rfl⟩ := PosterM.bind_eq_ok run
    obtain ⟨rfl, rfl⟩ : .insertSourceEntry source destination = next ∧ [] = rest := by
      simpa using done
    obtain ⟨kept, destinationId, seen⟩ := h.resolve (.inr rfl) resolved
    rw [List.append_nil]
    refine ⟨kept.goto (by simp [Point.remaining]) rfl rfl kept.source ?_ rfl, rfl⟩
    rintro a ⟨⟩
    exact ⟨destinationId, seen⟩
  | insertSourceEntry source destination =>
    obtain ⟨self, -, rfl, rfl⟩ := LedgerPoster.insertSourceEntry_ok run
    refine ⟨h.insertEntry (by simp [Point.remaining]) rfl rfl rfl rfl ?_, rfl⟩
    rintro l ⟨⟩
    refine ⟨rfl, fun same => ?_⟩
    by_contra notDeposit
    exact self ⟨same, notDeposit⟩
  | insertDestinationEntry l =>
    obtain ⟨rfl, rfl⟩ : .findSourceBalance l = next ∧ [.insertEntry (p.destinationEntry l)] = vs := by
      simpa [LedgerPoster.statement, PosterM.bind_run] using run
    exact ⟨h.insertEntry (by simp [Point.remaining]) rfl rfl rfl rfl h.legs, rfl⟩
  | findSourceBalance l =>
    obtain ⟨rfl, rfl⟩ : .saveSourceBalance l ((db.applyAll ws).balance l.source.id) = next ∧
        [] = vs := by
      simpa [LedgerPoster.statement, PosterM.bind_run] using run
    rw [List.append_nil]
    exact ⟨h.goto (by simp [Point.remaining]) rfl rfl h.source h.destination rfl, rfl⟩
  | saveSourceBalance l found =>
    obtain ⟨u, us, rest, saved, done, rfl⟩ := PosterM.bind_eq_ok run
    obtain ⟨rfl, rfl⟩ : .findDestinationBalance l = next ∧ [] = rest := by simpa using done
    obtain ⟨rfl, -⟩ := LedgerPoster.saveBalance_ok saved
    exact ⟨(h.save _).goto (by simp [Point.remaining]) rfl rfl (h.save _).source
      (h.save _).destination rfl, rfl⟩
  | findDestinationBalance l =>
    obtain ⟨rfl, rfl⟩ :
        .saveDestinationBalance l ((db.applyAll ws).balance l.destination.id) = next ∧ [] = vs := by
      simpa [LedgerPoster.statement, PosterM.bind_run] using run
    rw [List.append_nil]
    exact ⟨h.goto (by simp [Point.remaining]) rfl rfl h.source h.destination rfl, rfl⟩
  | saveDestinationBalance l found =>
    obtain ⟨u, us, rest, saved, done, rfl⟩ := PosterM.bind_eq_ok run
    obtain ⟨rfl, rfl⟩ : .markAsPosted l = next ∧ [] = rest := by simpa using done
    obtain ⟨rfl, -⟩ := LedgerPoster.saveBalance_ok saved
    exact ⟨(h.save _).goto (by simp [Point.remaining]) rfl rfl (h.save _).source
      (h.save _).destination rfl, rfl⟩
  | markAsPosted l =>
    obtain ⟨rfl, rfl⟩ : .commit l = next ∧ [.markPosted p.key] = vs := by
      simpa [LedgerPoster.statement, LedgerPoster.markAsPosted, PosterM.bind_run] using run
    exact ⟨h.markPosted, rfl⟩

theorem newAccount_typed (h : Underway db p point ws) {a : LedgerAccount}
    (ha : a ∈ (Ledger.ofWrites ws).accounts) : a.Typed := by
  rcases (h.newAccounts a ha).2 with rfl | rfl
  · exact LedgerPoster.newSource_typed h.cash
  · exact p.newDestination_typed

theorem recorded (h : Underway db p (.commit l) ws) (sound : db.Sound) :
    Recorded (db.applyAll ws) p l where
  row := by simp [h.visible, LedgerPoster.rowAt]
  entries := by
    rw [Ledger.entriesOf_append, sound.entriesOf_missing h.fresh, Ledger.entriesOf, h.entries]
    simp [LedgerPoster.entriesAt, LedgerPoster.sourceEntry, LedgerPoster.destinationEntry,
      LedgerPoster.entry]
  legs := (h.legs l rfl).1
  source := h.source l.source rfl
  destination := h.destination l.destination rfl
  noSelfTransfer := (h.legs l rfl).2

/-- The posted rows of others do not notice a commit. -/
theorem keeps (h : Underway db p point ws) {q : LedgerPoster} {m : Legs}
    (recorded : Recorded db q m) : Recorded (db.applyAll ws) q m where
  row := by
    rw [h.visible]
    exact List.mem_append_left _ recorded.row
  entries := by
    have others : (Ledger.ofWrites ws).entriesOf q.key = [] := by
      rw [Ledger.entriesOf, h.entries, List.filter_eq_nil_iff]
      intro e he belongs
      refine Table.find_none_iff.mp h.fresh _ recorded.row ?_
      exact (by simpa using belongs : e.transactionId = q.key).symm.trans
        (p.transactionId_entriesAt point e he)
    rw [Ledger.entriesOf_append, others, List.append_nil]
    exact recorded.entries
  legs := recorded.legs
  source := by
    rw [Ledger.accounts_applyAll]
    exact recorded.source.imp_right (List.mem_append_left _)
  destination := by
    rw [Ledger.accounts_applyAll]
    exact recorded.destination.imp_right (List.mem_append_left _)
  noSelfTransfer := recorded.noSelfTransfer

/-- A commit leaves a sound ledger sound. -/
theorem sound_commit (h : Underway db p (.commit l) ws) (sound : db.Sound) :
    (db.applyAll ws).Sound where
  keys := by
    rw [h.visible]
    exact sound.keys.insert (Table.find_none_iff.mp h.fresh)
  accounts := by
    rw [Ledger.accounts_applyAll, Table.Unique, List.map_append, List.nodup_append]
    refine ⟨sound.accounts, h.unique, ?_⟩
    intro i hi j hj same
    obtain ⟨a, ha, rfl⟩ := List.mem_map.mp hi
    obtain ⟨b, hb, rfl⟩ := List.mem_map.mp hj
    exact Table.find_none_iff.mp (h.newAccounts b hb).1 a ha same
  typed := by
    intro a ha
    rw [Ledger.accounts_applyAll] at ha
    rcases List.mem_append.mp ha with old | new
    · exact sound.typed a old
    · exact h.newAccount_typed new
  owned := by
    intro e he
    rw [Ledger.entries_applyAll, h.entries] at he
    rw [h.visible]
    rcases List.mem_append.mp he with old | new
    · obtain ⟨t, ht, owner⟩ := sound.owned e old
      exact ⟨t, List.mem_append_left _ ht, owner⟩
    · exact ⟨_, List.mem_append_right _ (List.mem_singleton.mpr rfl),
        (p.transactionId_entriesAt _ e new).symm⟩
  recorded := by
    intro t ht
    rw [h.visible] at ht
    rcases List.mem_append.mp ht with old | new
    · obtain ⟨q, m, same, recorded⟩ := sound.recorded t old
      exact ⟨q, m, same, h.keeps recorded⟩
    · obtain rfl := List.mem_singleton.mp new
      exact ⟨p, l, rfl, h.recorded sound⟩

/-- Another transaction commits: what is under way here stays so. -/
theorem frame (h : Underway db p point ws) {q : LedgerPoster} {at_ : Point} {us : List Write}
    (other : Underway db q at_ us)
    (apart : ∀ lock ∈ us.filterMap Write.lock, lock ∉ ws.filterMap Write.lock) :
    Underway (db.applyAll us) p point ws := by
  have grown : ∀ a ∈ (db.applyAll ws).accounts, a ∈ ((db.applyAll us).applyAll ws).accounts := by
    intro a ha
    rw [Ledger.accounts_applyAll] at ha
    rw [Ledger.accounts_applyAll, Ledger.accounts_applyAll, List.append_assoc]
    rcases List.mem_append.mp ha with old | new
    · exact List.mem_append_left _ old
    · exact List.mem_append_right _ (List.mem_append_right _ new)
  refine ⟨h.inside, h.cash, ?_, h.marks, h.held, h.row, h.entries, ?_, h.unique,
    fun a ha => (h.source a ha).imp_right (grown a),
    fun a ha => (h.destination a ha).imp_right (grown a), h.legs⟩
  · refine Table.find_none_iff.mpr (fun t ht same => ?_)
    rw [other.visible] at ht
    rcases List.mem_append.mp ht with old | new
    · exact Table.find_none_iff.mp h.fresh t old same
    · obtain rfl := List.mem_singleton.mp new
      rw [q.key_rowAt] at same
      exact apart _ other.held (same ▸ h.held)
  · intro a ha
    refine ⟨?_, (h.newAccounts a ha).2⟩
    rw [Ledger.account_applyAll, (h.newAccounts a ha).1, Option.none_or]
    refine Table.find_none_iff.mpr (fun b hb same => ?_)
    exact apart _ (account_locked hb) (same ▸ account_locked ha)

/-- The accounts of a post are the committed rows, or the new ones where there were none. -/
theorem resolved (h : Underway db p (.commit l) ws) (sound : db.Sound) :
    l.source = (db.account p.sourceId).getD p.newSource ∧
      l.destination = (db.account p.destinationId).getD p.newDestination := by
  have sourceAt := h.source l.source rfl
  have destinationAt := h.destination l.destination rfl
  -- a post to its own source account is a deposit to the cash account
  have agree : p.sourceId = p.destinationId → p.newSource = p.newDestination := by
    intro same
    refine LedgerPoster.newSource_eq_newDestination h.cash ?_ same
    exact (h.legs l rfl).2 (by rw [sourceAt.1, destinationAt.1, same])
  have look : ∀ a ∈ (db.applyAll ws).accounts,
      db.account a.id = some a ∨ db.account a.id = none ∧ (a = p.newSource ∨ a = p.newDestination) := by
    intro a ha
    rw [Ledger.accounts_applyAll] at ha
    rcases List.mem_append.mp ha with old | new
    · exact .inl (sound.accounts.find old)
    · exact .inr (h.newAccounts a new)
  constructor
  · rw [← sourceAt.1]
    rcases look _ sourceAt.2 with found | ⟨missing, new | new⟩
    · rw [found, Option.getD_some]
    · rw [missing, Option.getD_none, new]
    · rw [missing, Option.getD_none, new, agree]
      rw [← sourceAt.1, new]
      rfl
  · rw [← destinationAt.1]
    rcases look _ destinationAt.2 with found | ⟨missing, new | new⟩
    · rw [found, Option.getD_some]
    · rw [missing, Option.getD_none, new, agree]
      rw [← destinationAt.1, new]
      rfl
    · rw [missing, Option.getD_none, new]

/-- The run lemma: what every statement keeps holds when the statements of a call
have run to the commit on their own. -/
theorem resume {I : Point → List Write → Prop}
    (keeps : ∀ point ws next vs, Underway db p point ws → I point ws →
      p.statement point (db.applyAll ws) = (.ok next, vs) → I next (ws ++ vs))
    (n : Nat) (h : Underway db p point ws) (holds : I point ws) {k : Nat}
    (remaining : point.remaining = some k) (fuel : k ≤ n) {u : Unit} {vs : List Write}
    (run : p.resume n point (db.applyAll ws) = (.ok u, vs)) :
    ∃ l, Underway db p (.commit l) (ws ++ vs) ∧ I (.commit l) (ws ++ vs) := by
  induction n generalizing point ws vs k with
  | zero =>
    obtain rfl : [] = vs := by simpa [LedgerPoster.resume] using run
    cases point <;> cases remaining <;> simp at fuel
    rename_i l
    rw [List.append_nil]
    exact ⟨l, h, holds⟩
  | succ n ih =>
    by_cases last : point.remaining = some 0
    · cases point <;> cases last
      rename_i l
      rw [LedgerPoster.resume_commit] at run
      obtain rfl : [] = vs := by simpa using run
      rw [List.append_nil]
      exact ⟨l, h, holds⟩
    · obtain ⟨next, us, rest, now, later, rfl⟩ := PosterM.bind_eq_ok run
      obtain ⟨kept, counted⟩ := h.statement last now
      have holds' := keeps point ws next us h holds now
      rw [remaining] at counted
      obtain ⟨j, hj, rfl⟩ := Option.map_eq_some_iff.mp counted.symm
      rw [← Ledger.applyAll_append] at later
      rw [← List.append_assoc]
      exact ih kept holds' hj (by omega) later

/-- A call on its own that posts a new row has committed it. -/
theorem call {I : Point → List Write → Prop}
    (keeps : ∀ point ws next vs, Underway db p point ws → I point ws →
      p.statement point (db.applyAll ws) = (.ok next, vs) → I next (ws ++ vs))
    (first : I .resolveSource [.insertTransaction p.newTransaction])
    (cash : p.DepositsFromCash) (fresh : db.transaction p.key = none) {u : Unit}
    (run : p.call db = (.ok u, ws)) :
    ∃ l, Underway db p (.commit l) ws ∧ I (.commit l) ws := by
  rw [LedgerPoster.call_eq_resume, if_pos fresh, PosterM.transaction] at run
  rw [LedgerPoster.resume_findExisting p 10 db] at run
  simp only [fresh] at run
  split at run
  · simp at run
  rename_i u' ws' inner
  obtain ⟨rfl, rfl⟩ : u' = u ∧ ws' = ws := by simpa using run
  rw [LedgerPoster.resume_succ p 9] at inner
  obtain ⟨next, us, rest, now, later, rfl⟩ := PosterM.bind_eq_ok inner
  obtain ⟨u, vs, rest, created, done, rfl⟩ := PosterM.bind_eq_ok now
  obtain ⟨rfl, rfl⟩ : .resolveSource = next ∧ [] = rest := by simpa using done
  obtain ⟨-, rfl⟩ := LedgerPoster.create_ok created
  exact (begin cash fresh).resume keeps 9 first rfl (by omega) later

end Underway

end RailsCore
