import RailsCore.LedgerSound

/-!
# Double entry

One call after another, each on its own: what such a history leaves behind,
and when the two entries of the next post are a debit and a credit. The entry
types come from the detected operation and the types of the two accounts, so
a post balances for some pairs of accounts and not for others.
-/

namespace RailsCore

namespace LedgerPoster

/-- How a call on its own can end over sound tables: it finds its row, it raises
and leaves nothing, or it commits a new row. -/
theorem call_outcome {db : Ledger} {p : LedgerPoster} (sound : db.Sound)
    (cash : p.DepositsFromCash) :
    (db.transaction p.key ≠ none ∧ p.call db = (.ok (), [])) ∨
      db.transaction p.key = none ∧ ((∃ e, p.call db = (.error e, [])) ∨
        ∃ ws l, p.call db = (.ok (), ws) ∧ Underway db p (.commit l) ws) := by
  cases row : db.transaction p.key with
  | some t =>
    have posted : t.status = .posted := sound.posted (Table.find_some row).1
    refine .inl ⟨by simp, ?_⟩
    rw [call, PosterM.bind_read (PosterM.select_run _ _)]
    simp [row, existingResult, posted]
  | none =>
    refine .inr ⟨rfl, ?_⟩
    rcases outcome : p.call db with ⟨e | u, ws⟩
    · refine .inl ⟨e, ?_⟩
      rw [call_eq_resume, if_pos row, PosterM.transaction] at outcome
      split at outcome
      · rw [(Prod.mk.inj outcome).2]
      · simp at outcome
    · obtain ⟨l, under, -⟩ := Underway.call (I := fun _ _ => True)
        (fun _ _ _ _ _ _ _ => trivial) trivial cash row outcome
      exact .inr ⟨ws, l, rfl, under⟩

end LedgerPoster

theorem sound_postCall {db : Ledger} (sound : db.Sound) (call : PostCall) :
    (call.run db).1.Sound := by
  rw [PostCall.run, LedgerPoster.newCall]
  cases valid : validateInputs call.arguments with
  | error e => exact sound
  | ok p =>
    have cash := LedgerPoster.validateInputs_depositsFromCash valid
    rcases LedgerPoster.call_outcome sound cash with
      ⟨-, found⟩ | ⟨-, ⟨e, raised⟩ | ⟨ws, l, posted, under⟩⟩
    · simpa [found] using sound
    · simpa [raised] using sound
    · simpa [posted] using under.sound_commit sound

theorem sound_ledgerAfter (history : List PostCall) : (ledgerAfter history).Sound := by
  induction history using List.reverseRecOn with
  | nil => exact Ledger.sound_empty
  | append_singleton history call ih =>
    rw [ledgerAfter, List.foldl_append]
    exact sound_postCall ih call

namespace LedgerPoster

/-- The account that a post of `p` will use for its source. -/
def sourceAccount (p : LedgerPoster) (db : Ledger) : LedgerAccount :=
  (db.account p.sourceId).getD p.newSource

def destinationAccount (p : LedgerPoster) (db : Ledger) : LedgerAccount :=
  (db.account p.destinationId).getD p.newDestination

/-- Exactly one side is the cash account just where the normal balances of the
two sides differ. -/
def Balances (p : LedgerPoster) (db : Ledger) : Prop :=
  ((p.sourceExternalAccountId = systemCashControl) ≠
      (p.destinationExternalAccountId = systemCashControl)) ↔
    normalBalance (p.sourceAccount db).accountType ≠
      normalBalance (p.destinationAccount db).accountType

theorem legs_opposed_iff (source destination : LedgerAccount) :
    (legs source destination).sourceEntryType ≠ (legs source destination).destinationEntryType ↔
      (((source.id.externalAccountId = systemCashControl) ≠
        (destination.id.externalAccountId = systemCashControl)) ↔
      normalBalance source.accountType ≠ normalBalance destination.accountType) := by
  by_cases hs : source.id.externalAccountId = systemCashControl <;>
    by_cases hd : destination.id.externalAccountId = systemCashControl <;>
    cases hst : source.accountType <;> cases hdt : destination.accountType <;>
    simp [legs, detectOperation, accountChangeFor, entryTypeFor, normalBalance, hs, hd, hst, hdt]

/-- Neither external id is a `SYSTEM_` account other than the cash account. -/
def BetweenCustomers (source destination : String) : Prop :=
  (source = systemCashControl ∨ startsWithSystem source = false) ∧
  (destination = systemCashControl ∨ startsWithSystem destination = false) ∧
  ¬ (source = systemCashControl ∧ destination = systemCashControl)

theorem cash_asset {a : LedgerAccount} (typed : a.Typed)
    (cash : a.id.externalAccountId = systemCashControl) : a.accountType = .asset := by
  have system : startsWithSystem systemCashControl = true := by decide
  rw [LedgerAccount.Typed, cash, if_pos system] at typed
  rcases typed with asset | ⟨-, fee⟩
  · exact asset
  · exact absurd fee (by decide)

theorem customer_liability {a : LedgerAccount} (typed : a.Typed)
    (customer : startsWithSystem a.id.externalAccountId = false) : a.accountType = .liability := by
  simpa [LedgerAccount.Typed, customer] using typed

theorem startsWithSystem_toString (u : Uuid) : startsWithSystem u.toString = false := by
  have head := u.toString_head
  cases letters : u.toString.toList with
  | nil => rw [letters] at head; cases head
  | cons c cs =>
    rw [letters] at head
    obtain rfl : c = u.digit 0 := Option.some.inj head
    have other : ('S' == u.digit 0) = false :=
      beq_eq_false_iff_ne.mpr (Ne.symm (Uuid.hexDigit_ne_upper _))
    rw [startsWithSystem, letters]
    exact congrArg (· && _) other

theorem customer_ne_cash {s : String} (customer : startsWithSystem s = false) :
    s ≠ systemCashControl := by
  rintro rfl
  exact absurd customer (by decide)

/-- A deposit, a withdrawal and a transfer are between customers. -/
theorem betweenCustomers (source destination : Uuid) :
    BetweenCustomers systemCashControl destination.toString ∧
      BetweenCustomers source.toString systemCashControl ∧
      BetweenCustomers source.toString destination.toString := by
  have customer := startsWithSystem_toString
  have notCash := Uuid.toString_ne_cash
  refine ⟨⟨.inl rfl, .inr (customer _), ?_⟩, ⟨.inr (customer _), .inl rfl, ?_⟩,
    ⟨.inr (customer _), .inr (customer _), ?_⟩⟩
  · exact fun both => notCash destination both.2
  · exact fun both => notCash source both.1
  · exact fun both => notCash source both.1

/-- Deposits, withdrawals and transfers debit the source and credit the destination. -/
theorem legs_customers {source destination : LedgerAccount} (typedSource : source.Typed)
    (typedDestination : destination.Typed)
    (between : BetweenCustomers source.id.externalAccountId destination.id.externalAccountId) :
    legs source destination = ⟨source, destination, .debit, .credit⟩ := by
  obtain ⟨cashS | customerS, cashD | customerD, apart⟩ := between
  · exact absurd ⟨cashS, cashD⟩ apart
  · have notCash := customer_ne_cash customerD
    simp [legs, detectOperation, accountChangeFor, entryTypeFor, normalBalance, cashS, notCash,
      cash_asset typedSource cashS, customer_liability typedDestination customerD]
  · have notCash := customer_ne_cash customerS
    simp [legs, detectOperation, accountChangeFor, entryTypeFor, normalBalance, cashD, notCash,
      cash_asset typedDestination cashD, customer_liability typedSource customerS]
  · have notCashS := customer_ne_cash customerS
    have notCashD := customer_ne_cash customerD
    simp [legs, detectOperation, accountChangeFor, entryTypeFor, normalBalance, notCashS, notCashD,
      customer_liability typedSource customerS, customer_liability typedDestination customerD]

end LedgerPoster

/-- After any history, a post of a new row writes two entries of one amount and
one currency, and they are a debit and a credit just where `Balances` says so. -/
theorem double_entry_balances_iff (history : List PostCall) (call : PostCall) (p : LedgerPoster)
    (valid : validateInputs call.arguments = .ok p)
    (fresh : (ledgerAfter history).transaction p.key = none)
    (posted : (call.run (ledgerAfter history)).2 = .ok ()) :
    ∃ first second, (call.run (ledgerAfter history)).1.entriesOf p.key = [first, second] ∧
      first.amount = second.amount ∧ first.currency = second.currency ∧
      (first.entryType ≠ second.entryType ↔ p.Balances (ledgerAfter history)) := by
  have sound := sound_ledgerAfter history
  have cash := LedgerPoster.validateInputs_depositsFromCash valid
  simp only [PostCall.run, LedgerPoster.newCall, valid] at posted ⊢
  rcases LedgerPoster.call_outcome sound cash with
    ⟨row, -⟩ | ⟨-, ⟨e, raised⟩ | ⟨ws, l, committed, under⟩⟩
  · exact absurd fresh row
  · simp [raised] at posted
  · have recorded := under.recorded sound
    obtain ⟨source, destination⟩ := under.resolved sound
    rw [committed]
    refine ⟨_, _, recorded.entries, rfl, rfl, ?_⟩
    have opposed := LedgerPoster.legs_opposed_iff l.source l.destination
    rw [← recorded.legs, recorded.source.1, recorded.destination.1, source, destination] at opposed
    exact opposed

/-- A post from the cash account to the bank clearing account. -/
def clearingPost : PostCall :=
  .post ⟨⟨1⟩, "sandbox", systemCashControl, "SYSTEM_BANK_CLEARING", 3, "USD", ⟨2⟩, "key", false⟩

def clearingPoster : LedgerPoster :=
  ⟨⟨1⟩, .sandbox, systemCashControl, "SYSTEM_BANK_CLEARING", 3, "USD", ⟨2⟩, "key", false,
    by decide, by decide⟩

theorem double_entry_balances_iff_clearing :
    ∃ first second, (clearingPost.run (ledgerAfter [])).1.entriesOf clearingPoster.key =
        [first, second] ∧
      first.amount = second.amount ∧ first.currency = second.currency ∧
      (first.entryType ≠ second.entryType ↔ clearingPoster.Balances (ledgerAfter [])) :=
  double_entry_balances_iff [] clearingPost clearingPoster (by decide) (by decide) (by decide)

/-- Both accounts are assets and a deposit increases both: two debits. -/
theorem double_entry_unbalanced :
    ¬ ∀ (history : List PostCall) (call : PostCall) (p : LedgerPoster),
      validateInputs call.arguments = .ok p →
      (ledgerAfter history).transaction p.key = none →
      (call.run (ledgerAfter history)).2 = .ok () →
      ∃ first second, (call.run (ledgerAfter history)).1.entriesOf p.key = [first, second] ∧
        first.amount = second.amount ∧ first.currency = second.currency ∧
        (first.entryType = .debit ∧ second.entryType = .credit ∨
          first.entryType = .credit ∧ second.entryType = .debit) := by
  intro claim
  obtain ⟨first, second, entries, -, -, opposed⟩ :=
    claim [] clearingPost clearingPoster (by decide) (by decide) (by decide)
  have debits : ((clearingPost.run (ledgerAfter [])).1.entriesOf clearingPoster.key).map
      LedgerEntry.entryType = [.debit, .debit] := by decide
  rw [entries] at debits
  obtain ⟨debitFirst, debitSecond⟩ : first.entryType = .debit ∧ second.entryType = .debit := by
    simpa using debits
  rcases opposed with ⟨-, credit⟩ | ⟨credit, -⟩
  · exact absurd (debitSecond.symm.trans credit) (by decide)
  · exact absurd (debitFirst.symm.trans credit) (by decide)

end RailsCore
