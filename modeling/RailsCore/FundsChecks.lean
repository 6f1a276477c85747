import RailsCore.Confirmations

/-!
# Funds checks and overdrafts

A withdrawal or a transfer reads the balance before it stores its intent, and
the ledger never asks again. The check therefore covers the post only where
the debits since then leave enough, and where there was a check: a request
that finds a row with its key skips it, and posts its own amount.
-/

namespace RailsCore

/-- The call is about to commit a debit of the account. -/
def Call.CommitsDebit (id : LedgerAccountId) (c : Call) : Prop :=
  match c.point with
  | .commit l => l.source.id = id
  | _ => False

instance (id : LedgerAccountId) (c : Call) : Decidable (c.CommitsDebit id) := by
  rw [Call.CommitsDebit]
  split <;> infer_instance

/-- The check was made for this post, and what has been debited since leaves the
amount of the balance it saw. -/
def FundsCheck.Covers (check : FundsCheck) (db : Ledger) (p : LedgerPoster) : Prop :=
  check.key = p.key ∧ check.amount = p.amount ∧
    p.amount + (sumOf .debit check.account db.entries - check.debits) ≤ check.display

instance (check : FundsCheck) (db : Ledger) (p : LedgerPoster) : Decidable (check.Covers db p) :=
  inferInstanceAs (Decidable (_ ∧ _ ∧ _))

/-- The ledger reports the balance also of an account that it does not have. -/
theorem getAccountBalance_eq {db : Ledger} {id : LedgerAccountId} (sound : db.Sound)
    (reconciled : db.Reconciled id) : getAccountBalance db id = db.getBalance id := by
  rw [getAccountBalance]
  cases row : db.account id with
  | some account => exact congrArg db.getBalance (Table.find_some row).2
  | none =>
    have none_ : journal id db.entries = 0 := by
      refine journal_other _ (fun e he here => ?_)
      exact sound.entry_account he (here ▸ row)
    exact (reconciled.trans none_).symm

namespace System

variable (account : LedgerAccountId)

/-- No save of the account's balance overwrites a value that has changed since it was read. -/
def SavesWhatItRead (s : System) (a : SystemAction) : Prop :=
  ∀ b ∈ a.ofLedger, s.ledger.SavesWhatItRead account b

instance (s : System) (a : SystemAction) : Decidable (s.SavesWhatItRead account a) :=
  inferInstanceAs (Decidable (∀ b ∈ a.ofLedger, _))

/-- A debit of the account is committed only under a funds check of the account that covers it. -/
def DebitsCovered (s : System) : SystemAction → Prop
  | .statement i => ∀ c ∈ s.ledger.calls[i]?, c.CommitsDebit account →
    ∃ check ∈ s.checks, check.account = account ∧ check.Covers s.ledger.db c.poster
  | _ => True

instance (s : System) (a : SystemAction) : Decidable (s.DebitsCovered account a) :=
  match a with
  | .statement i => inferInstanceAs (Decidable (∀ c ∈ s.ledger.calls[i]?, _ → _))
  | .accounts _ | .deliver _ | .lose _ | .duplicate _ | .fail _ _ => isTrue trivial

/-- The invariant: what a check saw is still there up to the debits since then,
and the debits are covered by the credits. -/
structure Solvent (s : System) : Prop where
  sound : s.Sound
  reconciled : s.ledger.Reconciled account
  checks : ∀ check ∈ s.checks, check.account = account →
    check.display ≤ sumOf .credit account s.ledger.db.entries - check.debits
  covered : sumOf .debit account s.ledger.db.entries ≤ sumOf .credit account s.ledger.db.entries

theorem solvent_empty : Solvent account empty where
  sound := sound_empty
  reconciled := LedgerService.reconciled_empty account
  checks := fun _ listed => absurd listed List.not_mem_nil
  covered := Int.le_refl _

variable {account} {settings : Settings} {s t : System} {a : SystemAction}

/-- What a passed check saw is the journal of its account. -/
theorem Solvent.passed (solvent : Solvent account s) {a : AccountsAction}
    (answered : s.Answered settings a) {check : FundsCheck}
    (passed : check ∈ s.passed settings a) (here : check.account = account) :
    check.display = sumOf .credit account s.ledger.db.entries - check.debits := by
  cases a with
  | handler i input =>
    cases input with
    | balance answer =>
      rcases answer with e | balance
      · cases passed
      obtain ⟨h, at_, rest⟩ := Option.bind_eq_some_iff.mp passed
      have told := answered h at_
      cases point : h.point with
      | checkFunds ctx =>
        simp only [point] at told rest
        split_ifs at rest with enough
        obtain rfl := Option.some.inj rest
        have read := getAccountBalance_eq solvent.sound.ledger.tables solvent.reconciled.tables
        have tables : s.ledger.db.getBalance account = sumOf .debit account s.ledger.db.entries -
          sumOf .credit account s.ledger.db.entries := solvent.reconciled.tables
        simp only at here ⊢
        rw [here] at told ⊢
        omega
      | _ => simp [point] at rest
    | go | created id | reply answer | fail e => cases passed
  | _ => cases passed

/-- The step lemma: a commit that is covered leaves the credits no smaller than the debits. -/
theorem Solvent.step (solvent : Solvent account s) (current : s.SavesWhatItRead account a)
    (covers : s.DebitsCovered account a) (h : s.step settings a = some t) : Solvent account t := by
  have sound := solvent.sound.step h
  have checks := solvent.checks
  have covered := solvent.covered
  cases moved_step h with
  | accounts answered step =>
    refine ⟨sound, solvent.reconciled, fun check listed here => ?_, covered⟩
    rcases List.mem_append.mp listed with old | new
    · exact checks check old here
    · exact Int.le_of_eq (solvent.passed answered (by simpa using new) here)
  | refused | lost | duplicated => exact ⟨sound, solvent.reconciled, checks, covered⟩
  | arrived sent flying poster cash =>
    exact ⟨sound, solvent.reconciled.arrive cash, checks, covered⟩
  | ledger of step =>
    rename_i b ledger
    have reconciled := solvent.reconciled.step (current b of) step
    rcases solvent.sound.ledger.entries_step step with
      same | ⟨i, c, l, rfl, at_, ready, recorded, entries⟩
    · refine ⟨sound, reconciled, ?_, ?_⟩ <;> simp only [same]
      · exact checks
      · exact covered
    -- one debit of the source and one credit of the destination are new
    obtain rfl : a = .statement i := by
      cases a <;> cases of
      rfl
    have legs := solvent.sound.debits_source at_ reconciled.sound.tables.typed recorded
    have positive := c.poster.amountPositive
    have debits : sumOf .debit account ledger.db.entries = sumOf .debit account s.ledger.db.entries +
        if l.source.id = account then c.poster.amount else 0 := by
      rw [entries, legs, sumOf_append]
      simp [sumOf_cons, LedgerPoster.sourceEntry, LedgerPoster.destinationEntry, LedgerPoster.entry]
    have credits : sumOf .credit account ledger.db.entries =
        sumOf .credit account s.ledger.db.entries +
          if l.destination.id = account then c.poster.amount else 0 := by
      rw [entries, legs, sumOf_append]
      simp [sumOf_cons, LedgerPoster.sourceEntry, LedgerPoster.destinationEntry, LedgerPoster.entry]
    have grown : sumOf .credit account s.ledger.db.entries ≤ sumOf .credit account ledger.db.entries := by
      rw [credits]
      split_ifs <;> omega
    refine ⟨sound, reconciled, fun check listed here => ?_, ?_⟩
    · have seen := checks check listed here
      show check.display ≤ sumOf .credit account ledger.db.entries - check.debits
      omega
    · show sumOf .debit account ledger.db.entries ≤ sumOf .credit account ledger.db.entries
      rw [debits]
      split_ifs with source
      · obtain ⟨check, listed, here, -, amount, enough⟩ := covers c at_ (by
          rw [Call.CommitsDebit, ready]
          exact source)
        have seen := checks check listed here
        rw [here] at enough
        omega
      · omega

/-- In a run that commits every debit of an account under a funds check that
covers it, and saves no balance of the account over a value that has changed
since it was read, the displayed balance of the account is never negative. -/
theorem no_overdraft (settings : Settings) (account : LedgerAccountId) (as : List SystemAction)
    (s : System) (current : Machine.Along (step settings) (SavesWhatItRead account) empty as)
    (covers : Machine.Along (step settings) (DebitsCovered account) empty as)
    (run : Machine.run (step settings) empty as = some s) :
    0 ≤ displayedBalance s.ledger.db account := by
  have both : Machine.Along (step settings)
      (fun s a => s.SavesWhatItRead account a ∧ s.DebitsCovered account a) empty as :=
    Machine.along_and current covers
  have solvent := Machine.invariant_along (I := Solvent account)
    (fun s a t solvent cond moved => solvent.step cond.1 cond.2 moved) (solvent_empty account) both run
  have balance : s.ledger.db.getBalance account = sumOf .debit account s.ledger.db.entries -
    sumOf .credit account s.ledger.db.entries := solvent.reconciled.tables
  have covered := solvent.covered
  rw [displayedBalance]
  omega

/-- A posted deposit of 100. -/
def funded : List SystemAction :=
  onAccounts [.openAccount (AccountsService.customer ⟨7⟩),
    .request (AccountsService.depositOf 100 "a"), .handler 0 .go, .handler 0 (.created ⟨101⟩),
    .handler 0 .go, .handler 0 .go] ++
  .deliver 0 :: onLedger 0 12 ++ onAccounts [.handler 0 (.reply (.ok ())), .handler 0 .go]

/-- Request `i` asks for a withdrawal of 80 and passes the funds check. -/
def checkedWithdrawal (i : Nat) (key : String) : List SystemAction :=
  onAccounts [.request { AccountsService.depositOf 80 key with kind := .withdraw }, .handler i .go,
    .handler i .go, .handler i (.balance (.ok (-100)))]

/-- The checked request stores its intent, claims it and posts it. -/
def postedWithdrawal (i : Nat) (id : Uuid) : List SystemAction :=
  onAccounts [.handler i (.created id), .handler i .go, .handler i .go] ++ .deliver i :: onLedger i 12

def customerAccount : LedgerAccountId := ⟨⟨1⟩, .sandbox, Uuid.toString ⟨7⟩, "USD"⟩

theorem no_overdraft_withdrawal : ∃ s, Machine.run (step .fromEnv) empty
      (funded ++ checkedWithdrawal 1 "b" ++ postedWithdrawal 1 ⟨102⟩) = some s ∧
    displayedBalance s.ledger.db customerAccount = 20 ∧
    0 ≤ displayedBalance s.ledger.db customerAccount := by
  have evaluated : (Machine.run (step .fromEnv) empty
      (funded ++ checkedWithdrawal 1 "b" ++ postedWithdrawal 1 ⟨102⟩)).any (fun s =>
      displayedBalance s.ledger.db customerAccount = 20) = true := by decide +kernel
  obtain ⟨s, run, left⟩ := (Option.any_eq_true _ _).mp evaluated
  exact ⟨s, run, of_decide_eq_true left, no_overdraft .fromEnv customerAccount _ s
    (by decide +kernel) (by decide +kernel) run⟩

/-- Two withdrawals of 80 pass the check on a balance of 100 before either is posted. -/
theorem overdrawn : ¬ ∀ (settings : Settings) (account : LedgerAccountId) (as : List SystemAction)
    (s : System), account.externalAccountId ≠ systemCashControl →
    Machine.run (step settings) empty as = some s → 0 ≤ displayedBalance s.ledger.db account := by
  intro claim
  have evaluated : (Machine.run (step .fromEnv) empty (funded ++ checkedWithdrawal 1 "b" ++
      checkedWithdrawal 2 "c" ++ postedWithdrawal 1 ⟨102⟩ ++ postedWithdrawal 2 ⟨103⟩)).any (fun s =>
      displayedBalance s.ledger.db customerAccount = -60) = true := by decide +kernel
  obtain ⟨s, run, short⟩ := (Option.any_eq_true _ _).mp evaluated
  have covered := claim .fromEnv customerAccount _ s (Uuid.toString_ne_cash _) run
  rw [of_decide_eq_true short] at covered
  exact absurd covered (by decide)

end System

end RailsCore
