import RailsCore.AccountAdministration
import RailsCore.Slices
import RailsCore.TransactionLists

/-!
# Paginated queries, and the lists of accounts

What the paginated queries of both services do with an ordered result: a count,
a limit, and an offset computed in 32 bits. The number of pages is the exact
quotient, cut off where it is cast to 32 bits. The handlers let through the
pages from 1 on, and 1 to 100 rows a page.
-/

namespace RailsCore

open TransactionRepository (pageOffset)

universe u v
variable {α : Type u} {β : Type v}

/-- `COUNT(*)`, then `LIMIT per_page OFFSET (page - 1) * per_page`. -/
def paginated (ordered : List α) (page perPage : UInt32) : List α × PaginationMeta :=
  let totalCount := ordered.length
  let totalPages := min ((totalCount + (perPage.toNat - 1)) / perPage.toNat) (2 ^ 32 - 1)
  ((ordered.drop (pageOffset page perPage)).take perPage.toNat,
    { page, perPage, totalCount, totalPages })

/-- A row of `accounts` with all its columns. -/
structure ListedAccount extends AccountRow where
  holderId : Option Uuid
  adminUserId : Option Uuid
  userRole : Option String
  createdAt : Nat
  updatedAt : Nat
deriving DecidableEq, Repr

def Environment.display : Environment → String
  | .sandbox => "sandbox"
  | .production => "production"

structure AccountResponse where
  id : Uuid
  accountNumber : String
  accountType : Account.AccountType
  organizationId : Option Uuid
  environment : String
  holderId : Option Uuid
  userId : Option Uuid
  adminUserId : Option Uuid
  userRole : Option String
  currency : String
  status : AccountStatus
  createdAt : Nat
  updatedAt : Nat
  balance : Int
deriving DecidableEq, Repr

namespace AccountResponse

def fromAccount (account : ListedAccount) : AccountResponse where
  id := account.id
  accountNumber := account.accountNumber
  accountType := account.accountType
  organizationId := account.organizationId
  environment := (account.environment.map Environment.display).getD ""
  holderId := account.holderId
  userId := account.userId
  adminUserId := account.adminUserId
  userRole := account.userRole
  currency := account.currency.getD "USD"
  status := account.status.getD .active
  createdAt := account.createdAt
  updatedAt := account.updatedAt
  balance := 0

end AccountResponse

namespace AccountRepository

/-- `ORDER BY created_at DESC, id DESC`. -/
def NewestFirst (a b : ListedAccount) : Prop :=
  b.createdAt < a.createdAt ∨ a.createdAt = b.createdAt ∧ b.id.bits.toNat ≤ a.id.bits.toNat

instance : DecidableRel NewestFirst := fun _ _ => inferInstanceAs (Decidable (_ ∨ _ ∧ _))

/-- The accounts of an environment that a column selects, newest first. -/
def selected (column : ListedAccount → Option Uuid) (id : Uuid) (environment : Environment)
    (rows : List ListedAccount) : List ListedAccount :=
  (rows.filter (fun r => column r = some id ∧ r.environment = some environment)).insertionSort
    NewestFirst

/-- The query that three finders share. -/
def findPaginated (column : ListedAccount → Option Uuid) (rows : List ListedAccount) (id : Uuid)
    (environment : Environment) (page perPage : UInt32) : List AccountResponse × PaginationMeta :=
  let (accounts, pagination) := paginated (selected column id environment rows) page perPage
  (accounts.map AccountResponse.fromAccount, pagination)

def findByUserIdPaginated := findPaginated (fun r => r.userId)

def findByOrganizationIdPaginated := findPaginated (fun r => r.organizationId)

def findByAdminUserIdPaginated := findPaginated (fun r => r.adminUserId)

end AccountRepository

/-- The page and the page size that a handler takes from its query. -/
def pageOfQuery (page : Option UInt32) : UInt32 := max (page.getD 1) 1

def perPageOfQuery (default : UInt32) (perPage : Option UInt32) : UInt32 :=
  min (max (perPage.getD default) 1) 100

structure ListAccountsQuery where
  userId : Option Uuid
  organizationId : Option Uuid
  adminUserId : Option Uuid
  page : Option UInt32
  perPage : Option UInt32
deriving DecidableEq, Repr

namespace Handlers
open AccountRepository

def listAccounts (rows : List ListedAccount) (environment : Environment) (query : ListAccountsQuery) :
    Except AppError (List AccountResponse × PaginationMeta) :=
  let page := pageOfQuery query.page
  let perPage := perPageOfQuery 10 query.perPage
  match query.userId, query.organizationId, query.adminUserId with
  | some userId, _, _ => .ok (findByUserIdPaginated rows userId environment page perPage)
  | none, some organizationId, _ =>
    .ok (AccountRepository.findByOrganizationIdPaginated rows organizationId environment page perPage)
  | none, none, some adminUserId =>
    .ok (findByAdminUserIdPaginated rows adminUserId environment page perPage)
  | none, none, none => .error (.validation
    "One of user_id, organization_id, or admin_user_id query parameter is required")

end Handlers

theorem toNat_max (a b : UInt32) : (max a b).toNat = max a.toNat b.toNat :=
  toNat_larger UInt32.le_iff_toNat_le a b

theorem toNat_min (a b : UInt32) : (min a b).toNat = min a.toNat b.toNat :=
  toNat_smaller UInt32.le_iff_toNat_le a b

theorem toNat_pageOfQuery (page : Option UInt32) : 1 ≤ (pageOfQuery page).toNat := by
  rw [pageOfQuery, toNat_max]
  exact Nat.le_max_right _ _

theorem toNat_perPageOfQuery (default : UInt32) (perPage : Option UInt32) :
    1 ≤ (perPageOfQuery default perPage).toNat ∧ (perPageOfQuery default perPage).toNat ≤ 100 := by
  have one : (1 : UInt32).toNat = 1 := rfl
  have hundred : (100 : UInt32).toNat = 100 := rfl
  rw [perPageOfQuery, toNat_min, toNat_max]
  omega

/-- The offset is exact unless it leaves 32 bits. -/
theorem pageOffset_eq {page perPage : UInt32} (first : 1 ≤ page.toNat) :
    pageOffset page perPage = (page.toNat - 1) * perPage.toNat % 2 ^ 32 := by
  have one : (page - 1).toNat = page.toNat - 1 :=
    UInt32.toNat_sub_of_le page 1 (UInt32.le_iff_toNat_le.mpr first)
  rw [pageOffset, UInt32.toNat_mul, one]

/-- One page is the slice of its number, found without an overflow; it is empty behind the
last page. -/
structure ExactPage (fetch : UInt32 → UInt32 → List α) (ordered : List α) (page perPage : UInt32) :
    Prop where
  offset : pageOffset page perPage = (page.toNat - 1) * perPage.toNat
  rows : fetch page perPage = Slices.slice perPage.toNat (page.toNat - 1) ordered
  later : Slices.count perPage.toNat ordered.length < page.toNat → fetch page perPage = []

theorem ExactPage.small {fetch : UInt32 → UInt32 → List α} {ordered : List α}
    {page perPage : UInt32} (exact : ExactPage fetch ordered page perPage) (first : 1 ≤ page.toNat) :
    (page.toNat - 1) * perPage.toNat < 2 ^ 32 := by
  rw [← exact.offset, pageOffset_eq first]
  exact Nat.mod_lt _ (by decide)

/-- Rows mapped one by one are paged like the rows. -/
theorem ExactPage.map {fetch : UInt32 → UInt32 → List α} {ordered : List α} {page perPage : UInt32}
    (exact : ExactPage fetch ordered page perPage) (f : α → β) :
    ExactPage (fun page perPage => (fetch page perPage).map f) (ordered.map f) page perPage := by
  refine ⟨exact.offset, ?_, fun later => ?_⟩
  · rw [exact.rows, Slices.slice, Slices.slice, List.map_take, List.map_drop]
  · rw [List.length_map] at later
    rw [exact.later later, List.map_nil]

/-- The pages of a query are the slices of its ordered result as long as the offset
stays in 32 bits. When it does up to the last page they are the whole result, and
otherwise a row is on two of them. -/
structure Paginates (fetch : UInt32 → UInt32 → List α) (ordered : List α) : Prop where
  exact : ∀ page perPage : UInt32, 1 ≤ page.toNat → 1 ≤ perPage.toNat → perPage.toNat ≤ 100 →
    (ExactPage fetch ordered page perPage ↔ (page.toNat - 1) * perPage.toNat < 2 ^ 32)
  whole : ∀ perPage : UInt32, 1 ≤ perPage.toNat → perPage.toNat ≤ 100 →
    Slices.count perPage.toNat ordered.length < 2 ^ 32 →
    (Slices.count perPage.toNat ordered.length - 1) * perPage.toNat < 2 ^ 32 →
    ((List.range (Slices.count perPage.toNat ordered.length)).map
      (fun k => fetch (UInt32.ofNat (k + 1)) perPage)).flatten = ordered
  twice : ∀ perPage : UInt32, 1 ≤ perPage.toNat → perPage.toNat ≤ 100 →
    Slices.count perPage.toNat ordered.length < 2 ^ 32 →
    2 ^ 32 ≤ (Slices.count perPage.toNat ordered.length - 1) * perPage.toNat →
    ∃ j k, j < k ∧ k < Slices.count perPage.toNat ordered.length ∧
      ∃ row ∈ fetch (UInt32.ofNat (j + 1)) perPage, row ∈ fetch (UInt32.ofNat (k + 1)) perPage

/-- A last page whose offset wraps shows a row of the page where its offset lands. -/
theorem paginated_twice (ordered : List α) {perPage : UInt32} (size : 1 ≤ perPage.toNat)
    (few : Slices.count perPage.toNat ordered.length < 2 ^ 32)
    (large : 2 ^ 32 ≤ (Slices.count perPage.toNat ordered.length - 1) * perPage.toNat) :
    ∃ j k, j < k ∧ k < Slices.count perPage.toNat ordered.length ∧
      ∃ row ∈ (paginated ordered (UInt32.ofNat (j + 1)) perPage).1,
        row ∈ (paginated ordered (UInt32.ofNat (k + 1)) perPage).1 := by
  obtain ⟨k, last⟩ : ∃ k, Slices.count perPage.toNat ordered.length = k + 1 := by
    cases pages : Slices.count perPage.toNat ordered.length with
    | zero => simp [pages] at large
    | succ k => exact ⟨k, rfl⟩
  rw [last, Nat.add_sub_cancel] at large
  rw [last] at few ⊢
  have start : k * perPage.toNat < ordered.length := by
    have := Nat.div_mul_le_self (ordered.length + (perPage.toNat - 1)) perPage.toNat
    rw [show (ordered.length + (perPage.toNat - 1)) / perPage.toNat = k + 1 from last,
      Nat.succ_mul] at this
    omega
  have number : ∀ i ≤ k, (UInt32.ofNat (i + 1)).toNat = i + 1 := by
    intro i le
    rw [UInt32.toNat_ofNat']
    omega
  have offset : ∀ i ≤ k, pageOffset (UInt32.ofNat (i + 1)) perPage =
      i * perPage.toNat % 2 ^ 32 := by
    intro i le
    rw [pageOffset_eq (by rw [number i le]; omega), number i le, Nat.add_sub_cancel]
  -- `o` is where the offset of the last page lands, `j` the page of that position
  let o := k * perPage.toNat % 2 ^ 32
  have wrapped : o < 2 ^ 32 := Nat.mod_lt _ (by decide)
  let j := o / perPage.toNat
  have below : j * perPage.toNat ≤ o := Nat.div_mul_le_self o perPage.toNat
  have above : o < j * perPage.toNat + perPage.toNat := Nat.lt_div_mul_add size
  have before : j < k := by
    by_contra not
    have := Nat.mul_le_mul_right perPage.toNat (Nat.le_of_not_lt not)
    omega
  obtain ⟨row, there⟩ : ∃ row, ordered[o]? = some row := ⟨_, List.getElem?_eq_getElem (by omega)⟩
  refine ⟨j, k, before, Nat.lt_succ_self k, row, Slices.mem_window.mpr ⟨o, ?_, ?_, there⟩,
    Slices.mem_window.mpr ⟨o, ?_, ?_, there⟩⟩
  · rw [offset j (Nat.le_of_lt before), Nat.mod_eq_of_lt (by omega)]
    exact below
  · rw [offset j (Nat.le_of_lt before), Nat.mod_eq_of_lt (by omega)]
    exact above
  · exact Nat.le_of_eq (offset k (Nat.le_refl k))
  · rw [offset k (Nat.le_refl k)]
    omega

theorem paginates_paginated (ordered : List α) :
    Paginates (fun page perPage => (paginated ordered page perPage).1) ordered := by
  have exact : ∀ page perPage : UInt32, 1 ≤ page.toNat → 1 ≤ perPage.toNat →
      (page.toNat - 1) * perPage.toNat < 2 ^ 32 →
      ExactPage (fun page perPage => (paginated ordered page perPage).1) ordered page perPage := by
    intro page perPage first size small
    have offset : pageOffset page perPage = (page.toNat - 1) * perPage.toNat := by
      rw [pageOffset_eq first, Nat.mod_eq_of_lt small]
    have rows : (paginated ordered page perPage).1 =
        Slices.slice perPage.toNat (page.toNat - 1) ordered := by
      rw [paginated, Slices.slice, offset]
    refine ⟨offset, rows, fun later => rows.trans (Slices.slice_eq_nil ?_ size)⟩
    omega
  refine ⟨fun page perPage first size _ =>
    ⟨fun page_ => page_.small first, exact page perPage first size⟩, ?_,
    fun perPage size _ few large => paginated_twice ordered size few large⟩
  intro perPage size _ few small
  have each : ∀ k ∈ List.range (Slices.count perPage.toNat ordered.length),
      (paginated ordered (UInt32.ofNat (k + 1)) perPage).1 = Slices.slice perPage.toNat k ordered := by
    intro k listed
    have last := List.mem_range.mp listed
    have number : (UInt32.ofNat (k + 1)).toNat = k + 1 := by
      rw [UInt32.toNat_ofNat']
      omega
    have before : k * perPage.toNat < 2 ^ 32 :=
      Nat.lt_of_le_of_lt (Nat.mul_le_mul_right _ (by omega)) small
    have page := (exact (UInt32.ofNat (k + 1)) perPage (by omega) size
      (by rw [number]; exact before)).rows
    rw [number] at page
    exact page
  rw [List.map_congr_left each, Slices.flatten_all size]

theorem Paginates.map {fetch : UInt32 → UInt32 → List α} {ordered : List α}
    (paginates : Paginates fetch ordered) (f : α → β) :
    Paginates (fun page perPage => (fetch page perPage).map f) (ordered.map f) := by
  constructor
  · intro page perPage first size most
    exact ⟨fun page_ => page_.small first,
      fun small => ((paginates.exact page perPage first size most).mpr small).map f⟩
  · intro perPage size most few small
    rw [List.length_map] at few small ⊢
    conv_rhs => rw [← paginates.whole perPage size most few small]
    rw [List.map_flatten, List.map_map]
    rfl
  · intro perPage size most few large
    rw [List.length_map] at few large ⊢
    obtain ⟨j, k, before, last, row, shown, again⟩ := paginates.twice perPage size most few large
    exact ⟨j, k, before, last, f row, List.mem_map_of_mem shown, List.mem_map_of_mem again⟩

end RailsCore
