import EarnProxy.Accrual
import EarnProxy.ApiKeys
import EarnProxy.Canonical
import EarnProxy.Checker
import EarnProxy.DeadVerdict
import EarnProxy.StrongCheck
import EarnProxy.Checks
import EarnProxy.Coverage
import EarnProxy.Duplicates
import EarnProxy.EarnappDialogue
import EarnProxy.Earnings
import EarnProxy.Edits
import EarnProxy.Intervals
import EarnProxy.Invariants
import EarnProxy.IpAddress
import EarnProxy.Library.Grouping
import EarnProxy.Library.History
import EarnProxy.Library.Table
import EarnProxy.Library.Transaction
import EarnProxy.Observations
import EarnProxy.Operations
import EarnProxy.Payouts
import EarnProxy.Probation
import EarnProxy.Proxies
import EarnProxy.Rates
import EarnProxy.Reservations
import EarnProxy.Rounding
import EarnProxy.Projection
import EarnProxy.Schema
import EarnProxy.System
import EarnProxy.Text
import EarnProxy.Uptime
import EarnProxy.Users
import EarnProxy.Wallets
import EarnProxy.Pauses
import EarnProxy.Qualification
import EarnProxy.AdminRequests
import EarnProxy.DeadArchive
import EarnProxy.Distribution
import EarnProxy.Library.Fencing
import EarnProxy.ProbeClaims
import EarnProxy.ProbeProtocol
import EarnProxy.Relay.CheckJobs
import EarnProxy.Swap.Address
import EarnProxy.Swap.Dashboard
import EarnProxy.Swap.Fence
import EarnProxy.Swap.Lineage
import EarnProxy.Swap.ProbeTrust
import EarnProxy.Swap.Relisting
import EarnProxy.Swap.RuntimeGate
import EarnProxy.Swap.SyncLease
import EarnProxy.Swap.Triggers
import EarnProxy.Swap.WorkerSecrets
import EarnProxy.Verifier
import EarnProxy.VerifierProtocol
import EarnProxy.PayoutVerification
import EarnProxy.WalletLock
import EarnProxy.WebSocket
import EarnProxy.ProviderSlots
import EarnProxy.Relay.Ports
import EarnProxy.NetworkSafety
import EarnProxy.Swap.Normalize
import EarnProxy.Relay.StartCheck
import EarnProxy.Relay.Verdicts
import EarnProxy.UrlLine
import EarnProxy.CsvImport
import EarnProxy.BulkImport
import EarnProxy.RawLine
import EarnProxy.ProxyParser
import EarnProxy.Quoting
import EarnProxy.HealthClaims
import EarnProxy.Swap.Observations
import EarnProxy.Swap.Snapshots
import EarnProxy.Swap.Requeue
import EarnProxy.Swap.Migration
import EarnProxy.RateLimits
import EarnProxy.StoredTimes
import EarnProxy.Swap.AskedOnce
import EarnProxy.Sessions
import EarnProxy.Settlement
import EarnProxy.ProbeBreaker
import EarnProxy.Scheduler
