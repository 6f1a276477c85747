import RailsCore.TrialBalance

/-!
# The list of ledger transactions

`TransactionsController#index` and `#show`. A page takes one query for the
transactions, one for their entries and one for the account of each entry, and
calls commit in between. The pages show no torn post all the same: rows,
entries and accounts are only ever appended, and a posted transaction keeps
its two entries.
-/

namespace RailsCore

/-- Rows are appended and none is changed. -/
structure Ledger.Extends (db next : Ledger) : Prop where
  transactions : db.transactions <+: next.transactions
  accounts : db.accounts <+: next.accounts
  entries : db.entries <+: next.entries

namespace Ledger

theorem Extends.refl (db : Ledger) : db.Extends db :=
  ⟨List.prefix_refl _, List.prefix_refl _, List.prefix_refl _⟩

theorem Extends.trans {db next last : Ledger} (first : db.Extends next) (rest : next.Extends last) :
    db.Extends last :=
  ⟨first.transactions.trans rest.transactions, first.accounts.trans rest.accounts,
    first.entries.trans rest.entries⟩

theorem Extends.account {db next : Ledger} (grown : db.Extends next) {id : LedgerAccountId}
    {a : LedgerAccount} (found : db.account id = some a) : next.account id = some a := by
  obtain ⟨more, same⟩ := grown.accounts
  rw [Ledger.account, Table.find] at found ⊢
  rw [← same, List.find?_append, found, Option.some_or]

/-- A posted transaction keeps the entries it has. -/
theorem Extends.entriesOf {db next : Ledger} (grown : db.Extends next) (sound : db.Sound)
    (later : next.Sound) {x : LedgerTransaction} (listed : x ∈ db.transactions) :
    next.entriesOf x.key = db.entriesOf x.key := by
  obtain ⟨p, l, owner, recorded⟩ := sound.recorded x listed
  obtain ⟨q, m, owner', recorded'⟩ := later.recorded x (grown.transactions.subset listed)
  have before := recorded.entries
  have after := recorded'.entries
  rw [owner] at before
  rw [owner'] at after
  have head : db.entriesOf x.key <+: next.entriesOf x.key := grown.entries.filter _
  exact (head.eq_of_length (by rw [before, after]; rfl)).symm

end Ledger

namespace LedgerService

/-- The step lemma: a step appends rows or leaves the tables as they are. -/
theorem Sound.extends_step {s t : LedgerService} {a : LedgerAction} (sound : s.Sound)
    (h : s.step a = some t) : s.db.Extends t.db := by
  cases moved_step h with
  | refused | arrived | ended | wrote => exact .refl _
  | committed at_ ready =>
    obtain ⟨p, point, ws, rfl, under⟩ := (sound.calls _ _ at_).inside
      (by simp [ready, Point.remaining])
    exact ⟨⟨_, under.visible.symm⟩, ⟨_, (Ledger.accounts_applyAll _ ws).symm⟩,
      ⟨_, (Ledger.entries_applyAll _ ws).symm⟩⟩
  | autocommitted at_ running before run free outside =>
    obtain ⟨rfl, -⟩ := (sound.calls _ _ at_).autocommitted sound.tables running outside run
    exact .refl _

theorem extends_run {s t : LedgerService} {as : List LedgerAction} (sound : s.Sound)
    (run : Machine.run step s as = some t) : t.Sound ∧ s.db.Extends t.db :=
  Machine.invariant_run (I := fun t => t.Sound ∧ s.db.Extends t.db)
    (fun _ _ _ kept moved => ⟨kept.1.step moved, kept.2.trans (kept.1.extends_step moved)⟩)
    ⟨sound, .refl _⟩ run

/-- Whatever calls arrive and however their statements interleave, a posted
transaction stays as it is, keeps its entries and gets no more of them, and
the account that an entry names keeps its type. -/
theorem posted_is_final (as bs : List LedgerAction) (s t : LedgerService)
    (first : Machine.run step empty as = some s) (rest : Machine.run step s bs = some t) :
    (∀ x ∈ s.db.transactions, x.status = .posted ∧ t.db.transaction x.key = some x ∧
      t.db.entriesOf x.key = s.db.entriesOf x.key) ∧
    ∀ e ∈ s.db.entries, ∃ a, s.db.account e.ledgerAccountId = some a ∧
      t.db.account e.ledgerAccountId = some a := by
  have sound := sound_run first
  obtain ⟨later, grown⟩ := extends_run sound rest
  constructor
  · intro x listed
    refine ⟨sound.tables.posted listed, ?_, grown.entriesOf sound.tables later.tables listed⟩
    exact later.tables.keys.find (grown.transactions.subset listed)
  · intro e listed
    obtain ⟨a, found⟩ := Option.ne_none_iff_exists'.mp (sound.tables.entry_account listed)
    exact ⟨a, found, grown.account found⟩

/-- The deposits to two customers after the deposit to a first one. -/
theorem posted_is_final_deposits : ∃ s t, Machine.run step empty oneAfterAnother = some s ∧
    Machine.run step s (.arrive (depositTo "cat" 7) :: statements 2 12) = some t ∧
    s.db.transactions.length = 2 ∧ t.db.transactions.length = 3 ∧
    (∀ x ∈ s.db.transactions, x.status = .posted ∧ t.db.transaction x.key = some x ∧
      t.db.entriesOf x.key = s.db.entriesOf x.key) ∧
    ∀ e ∈ s.db.entries, ∃ a, s.db.account e.ledgerAccountId = some a ∧
      t.db.account e.ledgerAccountId = some a := by
  have evaluated : (Machine.run step empty oneAfterAnother).any (fun s =>
      (Machine.run step s (.arrive (depositTo "cat" 7) :: statements 2 12)).any (fun t =>
        s.db.transactions.length = 2 && t.db.transactions.length = 3)) = true := by decide +kernel
  obtain ⟨s, first, evaluated⟩ := (Option.any_eq_true _ _).mp evaluated
  obtain ⟨t, rest, counts⟩ := (Option.any_eq_true _ _).mp evaluated
  obtain ⟨two, three⟩ := Bool.and_eq_true_iff.mp counts
  exact ⟨s, t, first, rest, of_decide_eq_true two, of_decide_eq_true three,
    posted_is_final _ _ s t first rest⟩

end LedgerService

namespace TransactionsController

/-- An entry as a page shows it; `externalAccountId` is null where its account is gone. -/
structure EntryBody where
  ledgerAccountId : LedgerAccountId
  externalAccountId : Option String
  entryType : EntryType
  amount : Int
  currency : String
deriving DecidableEq, Repr

/-- The status the list is filtered by; any other parameter is ignored. -/
def statusFilter : Option String → Option LedgerStatus
  | some "pending" => some .pending
  | some "posted" => some .posted
  | some "failed" => some .failed
  | _ => none

/-- The rows of the first query, before they are ordered. -/
def select (db : Ledger) (organizationId : Uuid) (environment : Environment)
    (status : Option String) : List LedgerTransaction :=
  db.transactions.filter (fun t => t.organizationId = organizationId ∧
    t.environment = environment ∧ ∀ wanted ∈ statusFilter status, t.status = wanted)

def entryBody (accounts : Ledger) (e : LedgerEntry) : EntryBody where
  ledgerAccountId := e.ledgerAccountId
  externalAccountId := (accounts.account e.ledgerAccountId).map (fun a => a.id.externalAccountId)
  entryType := e.entryType
  amount := e.amount
  currency := e.currency

variable {settings : Settings} {s t : System}

theorem extends_run {as : List SystemAction} (sound : s.Sound)
    (run : Machine.run (System.step settings) s as = some t) :
    t.Sound ∧ s.ledger.db.Extends t.ledger.db := by
  refine Machine.invariant_run (I := fun t => t.Sound ∧ s.ledger.db.Extends t.ledger.db)
    (fun u a v kept moved => ⟨kept.1.step moved, kept.2.trans ?_⟩) ⟨sound, .refl _⟩ run
  cases System.moved_step moved with
  | accounts | refused | arrived | lost | duplicated => exact .refl _
  | ledger of step => exact kept.1.ledger.extends_step step

end TransactionsController

end RailsCore
