import Mathlib.Data.List.Sort
import RailsCore.LedgerPoster
import RailsCore.Slices

/-!
# The list of ledger entries

`EntriesController#index` over the rows with their generated ids. The filter
by account takes one ledger account with the external id, in whatever order
the rows are met, although there is one for each currency.
-/

namespace RailsCore

structure LedgerAccountRow where
  id : Uuid
  organizationId : Uuid
  environment : Environment
  externalAccountId : String
  accountType : AccountType
  currency : String
deriving DecidableEq, Repr

/-- The columns of the unique index of `ledger_accounts`. -/
def LedgerAccountRow.index (a : LedgerAccountRow) : LedgerAccountId :=
  ⟨a.organizationId, a.environment, a.externalAccountId, a.currency⟩

/-- A `ledger_transactions` row as far as the list shows it. -/
structure LedgerTransactionRow where
  id : Uuid
  externalTransactionId : Uuid
deriving DecidableEq, Repr

structure LedgerEntryRow where
  id : Uuid
  organizationId : Uuid
  environment : Environment
  ledgerAccountId : Uuid
  transactionId : Uuid
  entryType : EntryType
  amount : Int
  currency : String
  createdAt : Nat
deriving DecidableEq, Repr

/-- The rows of a ledger database. An entry carries the organization and the
environment of its account, since the poster writes all three. -/
structure LedgerRows where
  accounts : List LedgerAccountRow
  transactions : List LedgerTransactionRow
  entries : List LedgerEntryRow
  accountIds : Table.Unique LedgerAccountRow.id accounts
  accountIndex : Table.Unique LedgerAccountRow.index accounts
  entryIds : Table.Unique LedgerEntryRow.id entries
  owned : ∀ e ∈ entries, ∃ a ∈ accounts, a.id = e.ledgerAccountId ∧
    a.organizationId = e.organizationId ∧ a.environment = e.environment
  countable : entries.length < 2 ^ 63

namespace EntriesController

variable (rows : LedgerRows) (organizationId : Uuid) (environment : Environment)

/-- The parameters of the request, `page` and `per_page` after `to_i`. -/
structure IndexParams where
  page : Int
  perPage : Int
  accountId : Option String
deriving DecidableEq, Repr

structure EntryBody where
  id : Uuid
  ledgerAccountId : Uuid
  externalAccountId : Option String
  transactionId : Uuid
  externalTransactionId : Option Uuid
  entryType : EntryType
  amount : Int
  currency : String
  createdAt : Nat
deriving DecidableEq, Repr

structure IndexBody where
  data : List EntryBody
  page : Nat
  perPage : Nat
  totalCount : Nat
  totalPages : Nat
deriving DecidableEq, Repr

/-- `order(created_at: :desc, id: :desc)`. -/
def NewestFirst (a b : LedgerEntryRow) : Prop :=
  b.createdAt < a.createdAt ∨ a.createdAt = b.createdAt ∧ b.id.bits.toNat ≤ a.id.bits.toNat

instance : DecidableRel NewestFirst := fun _ _ => inferInstanceAs (Decidable (_ ∨ _ ∧ _))

/-- `LedgerAccount.find_by`: the first row it meets. -/
def findBy (accountId : String) : Option LedgerAccountRow :=
  rows.accounts.find? (fun a => a.organizationId = organizationId ∧ a.environment = environment ∧
    a.externalAccountId = accountId)

/-- The entries of the organization and the environment. -/
def ofEnvironment : List LedgerEntryRow :=
  rows.entries.filter (fun e => e.organizationId = organizationId ∧ e.environment = environment)

/-- The query before it is ordered and cut into pages. -/
def baseQuery (accountId : Option String) : List LedgerEntryRow :=
  let all := ofEnvironment rows organizationId environment
  match accountId with
  | none => all
  | some accountId =>
    if isBlank accountId then all
    else
      match findBy rows organizationId environment accountId with
      | some account => all.filter (fun e => e.ledgerAccountId = account.id)
      | none => all

def entryBody (e : LedgerEntryRow) : EntryBody where
  id := e.id
  ledgerAccountId := e.ledgerAccountId
  externalAccountId := (Table.find LedgerAccountRow.id e.ledgerAccountId rows.accounts).map
    LedgerAccountRow.externalAccountId
  transactionId := e.transactionId
  externalTransactionId := (Table.find LedgerTransactionRow.id e.transactionId
    rows.transactions).map LedgerTransactionRow.externalTransactionId
  entryType := e.entryType
  amount := e.amount
  currency := e.currency
  createdAt := e.createdAt

/-- `index`. The database refuses an offset that is no bigint. -/
def index (params : IndexParams) : Except String IndexBody :=
  let page := (max params.page 1).toNat
  let perPage := (max (min params.perPage 100) 1).toNat
  let offset := (page - 1) * perPage
  let query := baseQuery rows organizationId environment params.accountId
  let totalCount := query.length
  let totalPages := (totalCount + (perPage - 1)) / perPage
  if 2 ^ 63 ≤ offset then .error "bigint out of range"
  else
    let entries := ((query.insertionSort NewestFirst).drop offset).take perPage
    .ok ⟨entries.map (entryBody rows), page, perPage, totalCount, totalPages⟩

/-- The rows that some page shows. -/
def Shown (perPage : Int) (accountId : Option String) (body : EntryBody) : Prop :=
  ∃ page answer, index rows organizationId environment ⟨page, perPage, accountId⟩ = .ok answer ∧
    body ∈ answer.data

/-- An entry of the organization and the environment on an account with the external id. -/
def OnAccount (accountId : String) (e : LedgerEntryRow) : Prop :=
  e ∈ rows.entries ∧ e.organizationId = organizationId ∧ e.environment = environment ∧
    ∃ a ∈ rows.accounts, a.id = e.ledgerAccountId ∧ a.externalAccountId = accountId

theorem baseQuery_sublist (accountId : Option String) :
    (baseQuery rows organizationId environment accountId).Sublist rows.entries := by
  have all : (ofEnvironment rows organizationId environment).Sublist rows.entries :=
    List.filter_sublist
  cases accountId with
  | none => exact all
  | some accountId =>
    simp only [baseQuery]
    split
    · exact all
    · split
      · exact List.filter_sublist.trans all
      · exact all

variable {rows organizationId environment}

/-- All pages together show the whole query. -/
theorem shown_iff {perPage : Int} {accountId : Option String} {body : EntryBody} :
    Shown rows organizationId environment perPage accountId body ↔
      ∃ e ∈ baseQuery rows organizationId environment accountId, body = entryBody rows e := by
  have few := Nat.lt_of_le_of_lt
    (baseQuery_sublist rows organizationId environment accountId).length_le rows.countable
  constructor
  · rintro ⟨page, answer, served, listed⟩
    rw [index] at served
    split at served
    · cases served
    · cases served
      obtain ⟨e, shown, rfl⟩ := List.mem_map.mp listed
      have selected := List.mem_of_mem_drop (List.mem_of_mem_take shown)
      exact ⟨e, (List.mem_insertionSort _).mp selected, rfl⟩
  · rintro ⟨e, selected, rfl⟩
    have pos : 0 < (max (min perPage 100) 1).toNat := by omega
    obtain ⟨p, within, shown⟩ :=
      (Slices.mem_slices pos).mp ((List.mem_insertionSort NewestFirst).mpr selected)
    rw [List.length_insertionSort] at within
    have number : (max ((p : Int) + 1) 1).toNat - 1 = p := by omega
    have served : ∃ answer, index rows organizationId environment ⟨p + 1, perPage, accountId⟩ =
        .ok answer ∧ answer.data = (Slices.slice (max (min perPage 100) 1).toNat p
          ((baseQuery rows organizationId environment accountId).insertionSort NewestFirst)).map
            (entryBody rows) := by
      simp only [index, number]
      rw [if_neg (by omega)]
      exact ⟨_, rfl, rfl⟩
    obtain ⟨answer, ok, data⟩ := served
    exact ⟨p + 1, answer, ok, data ▸ List.mem_map_of_mem shown⟩

/-- An id belongs to one account, so an entry on some account with the external
id is on an account that the filter could have met. -/
theorem OnAccount.known {accountId : String} {e : LedgerEntryRow}
    (on : OnAccount rows organizationId environment accountId e) :
    ∃ a ∈ rows.accounts, a.id = e.ledgerAccountId ∧ a.organizationId = organizationId ∧
      a.environment = environment ∧ a.externalAccountId = accountId := by
  obtain ⟨listed, rfl, rfl, a, ha, here, external⟩ := on
  obtain ⟨b, hb, here', organization, inEnvironment⟩ := rows.owned e listed
  obtain rfl := rows.accountIds.eq ha hb (here.trans here'.symm)
  exact ⟨a, ha, here, organization, inEnvironment, external⟩

theorem entryBody_inj {e d : LedgerEntryRow} (he : e ∈ rows.entries) (hd : d ∈ rows.entries)
    (same : entryBody rows e = entryBody rows d) : e = d :=
  rows.entryIds.eq he hd (congrArg EntryBody.id same)

/-- The pages of a filtered list show the entries on the accounts with the
external id if and only if the one account that is looked up has them all, and
where there is no account there is no entry to show. -/
theorem filtered_entries_iff (rows : LedgerRows) (organizationId : Uuid) (environment : Environment)
    (perPage : Int) (accountId : String) (present : isBlank accountId = false) :
    (∀ body, Shown rows organizationId environment perPage (some accountId) body ↔
        ∃ e, OnAccount rows organizationId environment accountId e ∧ body = entryBody rows e) ↔
      (∃ account, findBy rows organizationId environment accountId = some account ∧
          ∀ e, OnAccount rows organizationId environment accountId e →
            e.ledgerAccountId = account.id) ∨
        findBy rows organizationId environment accountId = none ∧
          ofEnvironment rows organizationId environment = [] := by
  simp only [shown_iff]
  cases found : findBy rows organizationId environment accountId with
  | none =>
    have query : baseQuery rows organizationId environment (some accountId) =
        ofEnvironment rows organizationId environment := by simp [baseQuery, present, found]
    have nothing : ∀ e, ¬ OnAccount rows organizationId environment accountId e := by
      intro e on
      obtain ⟨a, ha, -, organization, inEnvironment, external⟩ := on.known
      have missed := List.find?_eq_none.mp found a ha
      simp [organization, inEnvironment, external] at missed
    rw [query]
    constructor
    · intro exact_
      refine .inr ⟨rfl, List.eq_nil_iff_forall_not_mem.mpr fun e listed => ?_⟩
      obtain ⟨d, on, -⟩ := (exact_ (entryBody rows e)).mp ⟨e, listed, rfl⟩
      exact nothing d on
    · rintro (⟨account, other, -⟩ | ⟨-, empty⟩) body
      · cases other
      · simp [empty, nothing]
  | some account =>
    have listed := List.mem_of_find?_eq_some found
    obtain ⟨organization, inEnvironment, external⟩ : account.organizationId = organizationId ∧
        account.environment = environment ∧ account.externalAccountId = accountId := by
      simpa using List.find?_some found
    have query : ∀ e, e ∈ baseQuery rows organizationId environment (some accountId) ↔
        OnAccount rows organizationId environment accountId e ∧
          e.ledgerAccountId = account.id := by
      intro e
      simp only [baseQuery, present, found, ofEnvironment, List.mem_filter, decide_eq_true_eq,
        Bool.false_eq_true, if_false]
      constructor
      · rintro ⟨⟨he, here, there⟩, on⟩
        exact ⟨⟨he, here, there, account, listed, on.symm, external⟩, on⟩
      · rintro ⟨⟨he, here, there, -⟩, on⟩
        exact ⟨⟨he, here, there⟩, on⟩
    simp only [query]
    constructor
    · intro exact_
      refine .inl ⟨account, rfl, fun e on => ?_⟩
      obtain ⟨d, ⟨onD, here⟩, same⟩ := (exact_ (entryBody rows e)).mpr ⟨e, on, rfl⟩
      rw [entryBody_inj on.1 onD.1 same]
      exact here
    · rintro (⟨_, met, all⟩ | ⟨other, -⟩) body
      · cases met
        constructor
        · rintro ⟨e, ⟨on, -⟩, rfl⟩
          exact ⟨e, on, rfl⟩
        · rintro ⟨e, on, rfl⟩
          exact ⟨e, ⟨on, all e on⟩, rfl⟩
      · cases other

/-- A customer with an account in each of two currencies. -/
def annAccounts : List LedgerAccountRow :=
  [⟨⟨1⟩, ⟨9⟩, .sandbox, "ann", .liability, "USD"⟩, ⟨⟨2⟩, ⟨9⟩, .sandbox, "ann", .liability, "EUR"⟩]

def annEntries : List LedgerEntryRow :=
  [⟨⟨5⟩, ⟨9⟩, .sandbox, ⟨1⟩, ⟨3⟩, .credit, 50, "USD", 0⟩,
    ⟨⟨6⟩, ⟨9⟩, .sandbox, ⟨2⟩, ⟨4⟩, .credit, 40, "EUR", 1⟩]

theorem annAccounts_unique : Table.Unique LedgerAccountRow.id annAccounts ∧
    Table.Unique LedgerAccountRow.index annAccounts := by decide

theorem annEntries_owned : Table.Unique LedgerEntryRow.id annEntries ∧ ∀ e ∈ annEntries,
    ∃ a ∈ annAccounts, a.id = e.ledgerAccountId ∧ a.organizationId = e.organizationId ∧
      a.environment = e.environment := by decide

theorem annEntries_countable : annEntries.length < 2 ^ 63 := by decide

def twoCurrencies : LedgerRows :=
  ⟨annAccounts, [⟨⟨3⟩, ⟨7⟩⟩, ⟨⟨4⟩, ⟨8⟩⟩], annEntries, annAccounts_unique.1, annAccounts_unique.2,
    annEntries_owned.1, annEntries_owned.2, annEntries_countable⟩

theorem filtered_entries_iff_ann :
    (∀ body, Shown twoCurrencies ⟨9⟩ .sandbox 1 (some "ann") body ↔
        ∃ e, OnAccount twoCurrencies ⟨9⟩ .sandbox "ann" e ∧ body = entryBody twoCurrencies e) ↔
      (∃ account, findBy twoCurrencies ⟨9⟩ .sandbox "ann" = some account ∧
          ∀ e, OnAccount twoCurrencies ⟨9⟩ .sandbox "ann" e → e.ledgerAccountId = account.id) ∨
        findBy twoCurrencies ⟨9⟩ .sandbox "ann" = none ∧
          ofEnvironment twoCurrencies ⟨9⟩ .sandbox = [] :=
  filtered_entries_iff twoCurrencies ⟨9⟩ .sandbox 1 "ann" (by decide)

/-- The list leaves out the entry in the second currency. -/
theorem filter_not_exact : ¬ ∀ (rows : LedgerRows) (organizationId : Uuid)
    (environment : Environment) (perPage : Int) (accountId : String), isBlank accountId = false →
    ∀ body, Shown rows organizationId environment perPage (some accountId) body ↔
      ∃ e, OnAccount rows organizationId environment accountId e ∧ body = entryBody rows e := by
  intro claim
  have euros : OnAccount twoCurrencies ⟨9⟩ .sandbox "ann"
      ⟨⟨6⟩, ⟨9⟩, .sandbox, ⟨2⟩, ⟨4⟩, .credit, 40, "EUR", 1⟩ := by
    refine ⟨?_, rfl, rfl, ⟨⟨2⟩, ⟨9⟩, .sandbox, "ann", .liability, "EUR"⟩, ?_, rfl, rfl⟩ <;> decide
  have shown := (claim twoCurrencies ⟨9⟩ .sandbox 1 "ann" (by decide) _).mpr ⟨_, euros, rfl⟩
  obtain ⟨e, selected, same⟩ := shown_iff.mp shown
  have query : baseQuery twoCurrencies ⟨9⟩ .sandbox (some "ann") =
      [⟨⟨5⟩, ⟨9⟩, .sandbox, ⟨1⟩, ⟨3⟩, .credit, 50, "USD", 0⟩] := by decide
  rw [query] at selected
  obtain rfl := List.mem_singleton.mp selected
  exact absurd (congrArg EntryBody.id same) (by decide)

/-- An id without an account. -/
example : (index twoCurrencies ⟨9⟩ .sandbox ⟨1, 100, some "bob"⟩).toOption.map
    IndexBody.totalCount = some 2 := by decide

end EntriesController

end RailsCore
