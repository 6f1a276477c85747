import RailsCore.Machine
import RailsCore.Table
import RailsCore.Model
import RailsCore.Ledger
import RailsCore.LedgerPoster
import RailsCore.LedgerCalls
import RailsCore.LedgerSound
import RailsCore.DoubleEntry
import RailsCore.AccountTypes
import RailsCore.LedgerRuns
import RailsCore.Journal
import RailsCore.TransactionRepository
import RailsCore.AccountService
import RailsCore.TransactionRetry
import RailsCore.AccountsService
import RailsCore.AccountsMoves
import RailsCore.AccountsEffects
import RailsCore.AccountsSound
import RailsCore.Leases
import RailsCore.RetryBounds
import RailsCore.PostMessages
import RailsCore.LedgerGrpc
import RailsCore.System
import RailsCore.AtMostOnce
import RailsCore.Confirmations
import RailsCore.FailedRows
import RailsCore.FundsChecks
import RailsCore.AccountHistory
import RailsCore.TrialBalance
import RailsCore.LedgerTransactions
import RailsCore.AccountAdministration
import RailsCore.AccountRules
import RailsCore.FailedPosts
import RailsCore.Completions
import RailsCore.PostableIntents
import RailsCore.SoloPosts
import RailsCore.Recovery
import RailsCore.TransactionLists
import RailsCore.MoneyResponses
import RailsCore.BalanceAfter
import RailsCore.UsersService
import RailsCore.AuthContexts
import RailsCore.ApiKeyScopes
import RailsCore.ApiKeys
import RailsCore.ApiKeysSound
import RailsCore.AuditEvents
import RailsCore.AuditEmission
import RailsCore.AuditAcceptance
import RailsCore.ReadCommitted
import RailsCore.SessionsService
import RailsCore.SessionsMoves
import RailsCore.SessionsSound
import RailsCore.Evictions
import RailsCore.SingleUse
import RailsCore.TokenMoves
import RailsCore.ResetTokens
import RailsCore.PasswordChanges
import RailsCore.Slices
import RailsCore.AccountLists
import RailsCore.AuditStore
import RailsCore.PagedLists
import RailsCore.AuditRoutes
import RailsCore.AuditListing
import RailsCore.AuditRoundTrip
import RailsCore.LedgerEntries
import RailsCore.IdempotentCreates
import RailsCore.FixedWindow
import RailsCore.RateLimiter
import RailsCore.Digits
import RailsCore.IpAddr
import RailsCore.ClientKeys
import RailsCore.RequestPipelines
import RailsCore.Writers
import RailsCore.Registrations
import RailsCore.RegistrationsSound
import RailsCore.UniqueEmails
import RailsCore.AccountOpenings
import RailsCore.AccountOpeningsSound
import RailsCore.Numerals
import RailsCore.Amounts
import RailsCore.CheckedBalances
import RailsCore.RetryDelays
import RailsCore.GuardedLoops
import RailsCore.EnvFiles
import RailsCore.NeonLifecycle
import RailsCore.Binary64
import RailsCore.DollarAmounts
import RailsCore.PageCounts
import RailsCore.RowNumbers
import RailsCore.EmailMigrations
import RailsCore.Emails
