import RailsCore.AuditStore
import RailsCore.BalanceAfter

/-!
# Pages of the list endpoints

The queries behind the lists of transactions, accounts and audit events have
one shape. Their pages partition the result as long as the offset fits in 32
bits; behind that, a page number brings back rows of an earlier page.
-/

namespace RailsCore

open Audit (AuditColumns AuditListFilters listAuditEvents rowToAuditEvent)
open TransactionRepository (ofOrganization)

/-- The rows of a page of audit events. -/
def auditPage (filters : AuditListFilters) (rows : List AuditColumns) (page perPage : UInt32) :
    List Audit.AuditEventRow :=
  (listAuditEvents rows { filters with page, perPage }).1

theorem paginates_findPaginated (column : ListedAccount → Option Uuid) (rows : List ListedAccount)
    (id : Uuid) (environment : Environment) :
    Paginates (fun page perPage =>
        (AccountRepository.findPaginated column rows id environment page perPage).1)
      ((AccountRepository.selected column id environment rows).map AccountResponse.fromAccount) :=
  (paginates_paginated _).map AccountResponse.fromAccount

/-- The pages of every list are exactly the slices of its ordered result where
`(page - 1) * per_page` stays below 2 ^ 32, and only there. -/
theorem pages_partition (transactions : List Transaction) (accounts : List ListedAccount)
    (events : List AuditColumns) (organizationId userId adminUserId : Uuid)
    (environment : Environment) (filters : AuditListFilters) :
    Paginates (fun page perPage => (TransactionRepository.findByOrganizationIdPaginated
        organizationId environment page perPage transactions).1)
      (ofOrganization organizationId environment transactions) ∧
    Paginates (fun page perPage =>
        (AccountRepository.findByUserIdPaginated accounts userId environment page perPage).1)
      ((AccountRepository.selected (fun r => r.userId) userId environment accounts).map
        AccountResponse.fromAccount) ∧
    Paginates (fun page perPage => (AccountRepository.findByOrganizationIdPaginated accounts
        organizationId environment page perPage).1)
      ((AccountRepository.selected (fun r => r.organizationId) organizationId environment
        accounts).map AccountResponse.fromAccount) ∧
    Paginates (fun page perPage => (AccountRepository.findByAdminUserIdPaginated accounts
        adminUserId environment page perPage).1)
      ((AccountRepository.selected (fun r => r.adminUserId) adminUserId environment accounts).map
        AccountResponse.fromAccount) ∧
    Paginates (auditPage filters events) ((Audit.selected filters events).map rowToAuditEvent) := by
  refine ⟨?_, ?_, ?_, ?_, ?_⟩
  · exact paginates_paginated (ofOrganization organizationId environment transactions)
  · exact paginates_findPaginated _ accounts userId environment
  · exact paginates_findPaginated _ accounts organizationId environment
  · exact paginates_findPaginated _ accounts adminUserId environment
  · exact (paginates_paginated (Audit.selected filters events)).map rowToAuditEvent

/-- Page 2 ^ 31 + 1 of two rows, two a page, is the first page again. -/
theorem offset_wraps :
    ¬ ∀ organizationId environment (rows : List Transaction) (page perPage : UInt32),
      1 ≤ page.toNat → 1 ≤ perPage.toNat → perPage.toNat ≤ 100 →
        ExactPage (fun page perPage => (TransactionRepository.findByOrganizationIdPaginated
            organizationId environment page perPage rows).1)
          (ofOrganization organizationId environment rows) page perPage := by
  intro claim
  have first := (claim ⟨1⟩ .sandbox Handlers.twoDeposits 2147483649 2 (by decide) (by decide) (by decide)).later
    (by decide +kernel)
  have again : (TransactionRepository.findByOrganizationIdPaginated ⟨1⟩ .sandbox 2147483649 2
      Handlers.twoDeposits).1 ≠ [] := by
    decide +kernel
  exact again first

end RailsCore
