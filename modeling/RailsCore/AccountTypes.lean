import RailsCore.DoubleEntry

/-!
# Account types

The type of a ledger account is fixed by the call that creates its row: a post
that has it as source, a post that has it as destination, or
`create_control_accounts`. These classify every account id alike but one, so a
stored type depends on which of them came first for that one only.
-/

namespace RailsCore

namespace LedgerAccount
open PosterM

/-- The messages of the failed validations of a new row, in the order of the
model's `validates` lines. -/
def errors (environment externalAccountId currency : String) : List String :=
  (if isBlank environment then ["Environment can't be blank"] else []) ++
  (if environmentOfString environment = none then ["Environment is not included in the list"]
    else []) ++
  (if isBlank externalAccountId then ["External account can't be blank"] else []) ++
  (if isBlank currency then ["Currency can't be blank"] else [])

/-- `ActiveRecord::RecordInvalid`. -/
def recordInvalid (errors : List String) : String :=
  "Validation failed: " ++ ", ".intercalate errors

/-- `LedgerAccount.resolve` on plain arguments. No row has another environment
than the two, so there `find_by` finds nothing and `create!` refuses. -/
def resolve (organizationId : Uuid) (environment externalAccountId currency : String)
    (accountType : AccountType) : PosterM LedgerAccount :=
  let errors := errors environment externalAccountId currency
  match environmentOfString environment with
  | none => raise (recordInvalid errors)
  | some stored => do
    let id : LedgerAccountId := ⟨organizationId, stored, externalAccountId, currency⟩
    match ← select (fun db => db.account id) with
    | some account => pure account
    | none =>
      if errors ≠ [] then raise (recordInvalid errors)
      else
        write (.insertAccount ⟨id, accountType⟩)
        pure ⟨id, accountType⟩

/-- The hash that `create_control_accounts` returns. -/
structure ControlAccounts where
  cashControl : LedgerAccount
  bankClearing : LedgerAccount
  feeIncome : LedgerAccount
deriving DecidableEq, Repr

def createControlAccounts (organizationId : Uuid) (environment currency : String) :
    PosterM ControlAccounts := do
  let cashControl ← resolve organizationId environment systemCashControl currency .asset
  let bankClearing ← resolve organizationId environment "SYSTEM_BANK_CLEARING" currency .asset
  let feeIncome ← resolve organizationId environment "SYSTEM_FEE_INCOME" currency .income
  pure ⟨cashControl, bankClearing, feeIncome⟩

/-- The poster resolves with arguments that have passed `validate_inputs!`. -/
theorem resolve_eq_resolveLedgerAccount {organizationId : Uuid}
    {environment externalAccountId currency : String} {stored : Environment}
    (accountType : AccountType) (parsed : environmentOfString environment = some stored)
    (present : isBlank currency = false) :
    resolve organizationId environment externalAccountId currency accountType =
      LedgerPoster.resolveLedgerAccount ⟨organizationId, stored, externalAccountId, currency⟩
        accountType := by
  have named : isBlank environment = false := by
    rw [environmentOfString] at parsed
    split_ifs at parsed with sandbox production
    · rw [sandbox]
      decide
    · rw [production]
      decide
  have failed : errors environment externalAccountId currency =
      if isBlank externalAccountId then ["External account can't be blank"] else [] := by
    simp [errors, named, parsed, present]
  have message : recordInvalid ["External account can't be blank"] =
      "Validation failed: External account can't be blank" := by decide
  simp only [resolve, parsed, failed, LedgerPoster.resolveLedgerAccount]
  refine congrArg (_ >>= ·) (funext fun found => ?_)
  cases found with
  | some account => rfl
  | none => by_cases blank : isBlank externalAccountId = true <;> simp [blank, message]

end LedgerAccount

/-- A call that can create ledger accounts. -/
inductive LedgerCall where
  | post (call : PostCall)
  | createControlAccounts (organizationId : Uuid) (environment currency : String)
deriving DecidableEq, Repr

namespace LedgerCall

/-- The tables after a call on its own. -/
def run (db : Ledger) : LedgerCall → Ledger
  | .post call => (call.run db).1
  | .createControlAccounts organizationId environment currency =>
    db.applyAll (LedgerAccount.createControlAccounts organizationId environment currency db).2

/-- The account that the call has as its source. -/
def source : LedgerCall → Option LedgerAccountId
  | .post call => match validateInputs call.arguments with
    | .ok p => some p.sourceId
    | .error _ => none
  | .createControlAccounts _ _ _ => none

/-- The ledger after calls one after another. -/
def runAll (db : Ledger) (history : List LedgerCall) : Ledger := history.foldl run db

/-- The first call after which the account has a row. -/
def creator (id : LedgerAccountId) : Ledger → List LedgerCall → Option LedgerCall
  | _, [] => none
  | db, call :: history =>
    if ((call.run db).account id).isSome then some call else creator id (call.run db) history

/-- The account was a source when its row was created. -/
def CreatedAsSource (history : List LedgerCall) (id : LedgerAccountId) : Prop :=
  ∃ call ∈ creator id Ledger.empty history, call.source = some id

end LedgerCall

namespace Ledger

theorem Sound.insertAccount {db : Ledger} (sound : db.Sound) {a : LedgerAccount}
    (missing : db.account a.id = none) (typed : a.Typed) : (db.apply (.insertAccount a)).Sound where
  keys := sound.keys
  accounts := sound.accounts.insert (Table.find_none_iff.mp missing)
  typed := by
    intro b hb
    rcases List.mem_append.mp hb with old | new
    · exact sound.typed b old
    · exact List.mem_singleton.mp new ▸ typed
  owned := sound.owned
  recorded := by
    intro t ht
    obtain ⟨p, l, same, recorded⟩ := sound.recorded t ht
    exact ⟨p, l, same, recorded.row, recorded.entries, recorded.legs,
      recorded.source.imp_right (List.mem_append_left _),
      recorded.destination.imp_right (List.mem_append_left _), recorded.noSelfTransfer⟩

theorem Sound.account_typed {db : Ledger} (sound : db.Sound) {id : LedgerAccountId}
    {a : LedgerAccount} (stored : db.account id = some a) : a.id = id ∧ a.Typed :=
  ⟨(Table.find_some stored).2, sound.typed a (Table.find_some stored).1⟩

end Ledger

namespace LedgerAccount
open PosterM

/-- The piece keeps the tables sound and adds no account but such as `P` allows. -/
def Adds (P : LedgerAccount → Prop) {α : Type} (m : PosterM α) : Prop :=
  ∀ db : Ledger, db.Sound → (db.applyAll (m db).2).Sound ∧
    ∀ id a, (db.applyAll (m db).2).account id = some a → db.account id = some a ∨ P a

theorem Adds.pure {P : LedgerAccount → Prop} {α : Type} (a : α) : Adds P (pure a : PosterM α) :=
  fun _ sound => ⟨sound, fun _ _ stored => .inl stored⟩

theorem Adds.bind {P : LedgerAccount → Prop} {α β : Type} {m : PosterM α} {f : α → PosterM β}
    (first : Adds P m) (rest : ∀ a, Adds P (f a)) : Adds P (m >>= f) := by
  intro db sound
  obtain ⟨sound', added⟩ := first db sound
  rw [bind_run]
  rcases outcome : m db with ⟨e | a, ws⟩
  · rw [outcome] at sound' added
    exact ⟨sound', added⟩
  · rw [outcome] at sound' added
    obtain ⟨sound'', added'⟩ := rest a _ sound'
    rw [Ledger.applyAll_append]
    refine ⟨sound'', fun id b stored => ?_⟩
    rcases added' id b stored with before | new
    · exact added id b before
    · exact .inr new

theorem Adds.resolve {P : LedgerAccount → Prop} {organizationId : Uuid}
    {environment externalAccountId currency : String} {accountType : AccountType}
    (typed : ∀ stored, (⟨⟨organizationId, stored, externalAccountId, currency⟩, accountType⟩ :
      LedgerAccount).Typed)
    (allowed : ∀ stored, P ⟨⟨organizationId, stored, externalAccountId, currency⟩, accountType⟩) :
    Adds P (resolve organizationId environment externalAccountId currency accountType) := by
  intro db sound
  have unchanged : db.Sound ∧ ∀ id a, db.account id = some a → db.account id = some a ∨ P a :=
    ⟨sound, fun _ _ stored => .inl stored⟩
  cases parsed : environmentOfString environment with
  | none =>
    simp only [LedgerAccount.resolve, parsed]
    exact unchanged
  | some stored =>
    by_cases present : isBlank currency = true
    · have failed : errors environment externalAccountId currency ≠ [] := by
        simp [errors, present]
      simp only [LedgerAccount.resolve, parsed, bind_read (select_run _ db), if_pos failed]
      cases db.account ⟨organizationId, stored, externalAccountId, currency⟩ <;> exact unchanged
    · rw [resolve_eq_resolveLedgerAccount accountType parsed (by simpa using present),
        LedgerPoster.resolveLedgerAccount, bind_read (select_run _ db)]
      cases found : db.account ⟨organizationId, stored, externalAccountId, currency⟩ with
      | some account => exact unchanged
      | none =>
        by_cases named : isBlank externalAccountId = true
        · simp only [if_pos named]
          exact unchanged
        · simp only [if_neg named, bind_run, write_run, pure_run, List.append_nil]
          refine ⟨sound.insertAccount found (typed stored), fun id a held => ?_⟩
          rw [Ledger.account_applyAll] at held
          rcases Option.or_eq_some_iff.mp held with before | ⟨-, new⟩
          · exact .inl before
          · obtain rfl := List.mem_singleton.mp (Table.find_some new).1
            exact .inr (allowed stored)

/-- The fee account is an income account here. -/
def IncomeIfFee (a : LedgerAccount) : Prop :=
  a.id.externalAccountId = "SYSTEM_FEE_INCOME" → a.accountType = .income

theorem Adds.createControlAccounts (organizationId : Uuid) (environment currency : String) :
    Adds IncomeIfFee (createControlAccounts organizationId environment currency) := by
  have asset : ∀ externalAccountId stored, startsWithSystem externalAccountId = true →
      (⟨⟨organizationId, stored, externalAccountId, currency⟩, .asset⟩ : LedgerAccount).Typed :=
    fun _ _ system => by simp [Typed, system]
  have income : ∀ stored, (⟨⟨organizationId, stored, "SYSTEM_FEE_INCOME", currency⟩, .income⟩ :
      LedgerAccount).Typed := by
    intro stored
    have system : startsWithSystem "SYSTEM_FEE_INCOME" = true := by decide
    simp [Typed, system]
  have notFeeCash : systemCashControl ≠ "SYSTEM_FEE_INCOME" := by decide
  have notFeeClearing : "SYSTEM_BANK_CLEARING" ≠ "SYSTEM_FEE_INCOME" := by decide
  refine Adds.bind (.resolve (fun stored => asset _ stored (by decide)) ?_) (fun cashControl => ?_)
  · exact fun _ fee => absurd fee notFeeCash
  refine Adds.bind (.resolve (fun stored => asset _ stored (by decide)) ?_) (fun bankClearing => ?_)
  · exact fun _ fee => absurd fee notFeeClearing
  refine Adds.bind (.resolve income (fun _ _ => rfl)) (fun feeIncome => .pure _)

end LedgerAccount

/-- A post that commits has created its source with the type of a source, or
else its destination with the type of a destination. -/
theorem Underway.account_created {db : Ledger} {p : LedgerPoster} {l : Legs} {ws : List Write}
    {id : LedgerAccountId} {a : LedgerAccount} (under : Underway db p (.commit l) ws)
    (sound : db.Sound) (missing : db.account id = none)
    (stored : (db.applyAll ws).account id = some a) :
    p.sourceId = id ∧ a = p.newSource ∨ p.sourceId ≠ id ∧ a = p.newDestination := by
  have unique := (under.sound_commit sound).accounts
  obtain ⟨source, destination⟩ := under.resolved sound
  have held := unique.find (under.source l.source rfl).2
  by_cases isSource : p.sourceId = id
  · refine .inl ⟨isSource, ?_⟩
    rw [(under.source l.source rfl).1, isSource] at held
    rw [isSource, missing, Option.getD_none] at source
    exact (Option.some.inj (stored.symm.trans held)).trans source
  · refine .inr ⟨isSource, ?_⟩
    rw [Ledger.account_applyAll, missing, Option.none_or] at stored
    obtain ⟨ha, here⟩ := Table.find_some stored
    rcases (under.newAccounts a ha).2 with rfl | rfl
    · exact absurd here isSource
    · rfl

namespace LedgerCall

/-- The step lemma: a call keeps the tables sound and every stored account, and
a fee account that it creates is an asset where it is the call's source. -/
theorem run_accounts {db : Ledger} (sound : db.Sound) (call : LedgerCall) :
    (call.run db).Sound ∧
      (∀ id a, db.account id = some a → (call.run db).account id = some a) ∧
      ∀ id a, db.account id = none → (call.run db).account id = some a →
        id.externalAccountId = "SYSTEM_FEE_INCOME" →
        a.accountType = if call.source = some id then .asset else .income := by
  have kept : ∀ ws id a, db.account id = some a → (db.applyAll ws).account id = some a := by
    intro ws id a stored
    rw [Ledger.account_applyAll, stored, Option.some_or]
  cases call with
  | createControlAccounts organizationId environment currency =>
    obtain ⟨sound', added⟩ :=
      LedgerAccount.Adds.createControlAccounts organizationId environment currency db sound
    refine ⟨sound', kept _, fun id a missing stored fee => ?_⟩
    rcases added id a stored with before | income
    · rw [missing] at before
      cases before
    · exact income ((Table.find_some stored).2 ▸ fee)
  | post call =>
    refine ⟨sound_postCall sound call, ?_⟩
    rw [run, PostCall.run, LedgerPoster.newCall, source]
    cases valid : validateInputs call.arguments with
    | error e =>
      refine ⟨fun _ _ stored => stored, fun id a missing stored => ?_⟩
      rw [missing] at stored
      cases stored
    | ok p =>
      refine ⟨kept _, fun id a missing stored fee => ?_⟩
      have cash := LedgerPoster.validateInputs_depositsFromCash valid
      rcases LedgerPoster.call_outcome sound cash with
        ⟨-, found⟩ | ⟨-, ⟨e, raised⟩ | ⟨ws, l, posted, under⟩⟩
      · simp [found, missing] at stored
      · simp [raised, missing] at stored
      simp only [posted] at stored
      rcases under.account_created sound missing stored with ⟨rfl, rfl⟩ | ⟨other, rfl⟩
      · have system : startsWithSystem p.sourceExternalAccountId = true := by
          rw [show p.sourceExternalAccountId = _ from fee]
          decide
        simp [LedgerPoster.newSource, LedgerPoster.determineSourceAccountType, system]
      · have here : p.destinationId = id := (Table.find_some stored).2
        have destination : p.destinationExternalAccountId = "SYSTEM_FEE_INCOME" := by
          rw [← fee, ← here]
          rfl
        have system : startsWithSystem "SYSTEM_FEE_INCOME" = true := by decide
        have notCash : "SYSTEM_FEE_INCOME" ≠ systemCashControl := by decide
        simp [LedgerPoster.newDestination, LedgerPoster.determineDestinationAccountType,
          destination, system, notCash, other]

variable {id : LedgerAccountId} {a : LedgerAccount}

theorem runAll_accounts {db : Ledger} (sound : db.Sound) (history : List LedgerCall) :
    (runAll db history).Sound ∧ ∀ id a, db.account id = some a →
      (runAll db history).account id = some a := by
  induction history generalizing db with
  | nil => exact ⟨sound, fun _ _ stored => stored⟩
  | cons call history ih =>
    obtain ⟨sound', kept, -⟩ := run_accounts sound call
    obtain ⟨sound'', kept'⟩ := ih sound'
    exact ⟨sound'', fun id a stored => kept' id a (kept id a stored)⟩

/-- A stored account is the one that its creator stored. -/
theorem creator_found {db : Ledger} (sound : db.Sound) (missing : db.account id = none)
    {history : List LedgerCall} (stored : (runAll db history).account id = some a) :
    ∃ call ∈ creator id db history, ∃ before : Ledger, before.Sound ∧
      before.account id = none ∧ (call.run before).account id = some a := by
  induction history generalizing db with
  | nil =>
    rw [show (runAll db []).account id = none from missing] at stored
    cases stored
  | cons call history ih =>
    obtain ⟨sound', -, -⟩ := run_accounts sound call
    rw [creator]
    cases now : (call.run db).account id with
    | none => exact ih sound' now stored
    | some b =>
      have later := (runAll_accounts sound' history).2 id b now
      exact ⟨call, rfl, db, sound, missing, now.trans (later.symm.trans stored)⟩

/-- The types that histories give: the fee account has one of two, by the role
it had when it was created, and every other id has one. -/
theorem stored_type {history : List LedgerCall}
    (stored : (runAll Ledger.empty history).account id = some a) :
    (id.externalAccountId = "SYSTEM_FEE_INCOME" →
      (a.accountType = .asset ∧ CreatedAsSource history id ∨
        a.accountType = .income ∧ ¬ CreatedAsSource history id)) ∧
    (id.externalAccountId ≠ "SYSTEM_FEE_INCOME" → a.accountType =
      if startsWithSystem id.externalAccountId then .asset else .liability) := by
  constructor
  · intro fee
    obtain ⟨call, created, before, sound, missing, now⟩ :=
      creator_found Ledger.sound_empty rfl stored
    have role : CreatedAsSource history id ↔ call.source = some id := by
      constructor
      · rintro ⟨other, created', source⟩
        rwa [Option.mem_unique created created']
      · exact fun source => ⟨call, created, source⟩
    rw [role, (run_accounts sound call).2.2 id a missing now fee]
    by_cases source : call.source = some id
    · exact .inl ⟨if_pos source, source⟩
    · exact .inr ⟨if_neg source, source⟩
  · intro other
    obtain ⟨here, typed⟩ := (runAll_accounts Ledger.sound_empty history).1.account_typed stored
    rw [LedgerAccount.Typed, here] at typed
    split_ifs at typed ⊢ with system
    · exact typed.resolve_right (fun fee => other fee.2)
    · exact typed

/-- Two histories that both leave an account have given it one type, and with it
one entry type to every later change, if and only if it is not the fee account
or had the same role at its creation in both. -/
theorem account_type_agrees_iff (first second : List LedgerCall) (id : LedgerAccountId)
    (a b : LedgerAccount) (inFirst : (runAll Ledger.empty first).account id = some a)
    (inSecond : (runAll Ledger.empty second).account id = some b) :
    (a.accountType = b.accountType ∧
        ∀ change, entryTypeFor a.accountType change = entryTypeFor b.accountType change) ↔
      (id.externalAccountId = "SYSTEM_FEE_INCOME" →
        (CreatedAsSource first id ↔ CreatedAsSource second id)) := by
  obtain ⟨feeFirst, othersFirst⟩ := stored_type inFirst
  obtain ⟨feeSecond, othersSecond⟩ := stored_type inSecond
  by_cases fee : id.externalAccountId = "SYSTEM_FEE_INCOME"
  · rcases feeFirst fee with ⟨typeA, roleA⟩ | ⟨typeA, roleA⟩ <;>
      rcases feeSecond fee with ⟨typeB, roleB⟩ | ⟨typeB, roleB⟩ <;>
      simp [fee, typeA, typeB, roleA, roleB]
  · simp [fee, othersFirst fee, othersSecond fee]

/-- A post of 7 from the fee account to a customer. -/
def refundFee : LedgerCall :=
  .post (.post ⟨⟨1⟩, "sandbox", "SYSTEM_FEE_INCOME", "ann", 7, "USD", ⟨2⟩, "key", false⟩)

def controlAccounts : LedgerCall := .createControlAccounts ⟨1⟩ "sandbox" "USD"

def feeIncome : LedgerAccountId := ⟨⟨1⟩, .sandbox, "SYSTEM_FEE_INCOME", "USD"⟩

theorem account_type_agrees_iff_fee : ∃ a b : LedgerAccount,
    (a.accountType = b.accountType ∧
        ∀ change, entryTypeFor a.accountType change = entryTypeFor b.accountType change) ↔
      (feeIncome.externalAccountId = "SYSTEM_FEE_INCOME" →
        (CreatedAsSource [controlAccounts, refundFee] feeIncome ↔
          CreatedAsSource [refundFee, controlAccounts] feeIncome)) :=
  ⟨⟨feeIncome, .income⟩, ⟨feeIncome, .asset⟩,
    account_type_agrees_iff [controlAccounts, refundFee] [refundFee, controlAccounts] feeIncome
      _ _ (by decide +kernel) (by decide +kernel)⟩

/-- The same two calls in either order leave an income account or an asset. -/
theorem fee_account_type_differs : ¬ ∀ (first second : List LedgerCall) (id : LedgerAccountId)
    (a b : LedgerAccount), (runAll Ledger.empty first).account id = some a →
    (runAll Ledger.empty second).account id = some b → a.accountType = b.accountType := by
  intro claim
  have same := claim [controlAccounts, refundFee] [refundFee, controlAccounts] feeIncome
    ⟨feeIncome, .income⟩ ⟨feeIncome, .asset⟩ (by decide +kernel) (by decide +kernel)
  cases same

end LedgerCall

end RailsCore
