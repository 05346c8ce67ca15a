import Packmon.Admin.AuditIntegrity
import Packmon.Admin.AuditLog
import Packmon.Admin.AuditMarks
import Packmon.Admin.Lockout
import Packmon.Admin.LockoutAudit
import Packmon.Admin.Login
import Packmon.Admin.LoginAttempts
import Packmon.Admin.Rotation
import Packmon.Admin.Sessions
import Packmon.Api.Check
import Packmon.Api.Idempotency
import Packmon.Chocolatey.Redirections
import Packmon.Chocolatey.Script
import Packmon.Docker.Ref
import Packmon.Domain.Packages
import Packmon.Feed.Common
import Packmon.Feed.Coverage
import Packmon.Feed.Egress
import Packmon.Feed.Ghsa
import Packmon.Feed.Manager
import Packmon.Feed.ManagerReconfiguration
import Packmon.Feed.ManagerShutdown
import Packmon.Feed.ManagerSyncs
import Packmon.Feed.Osv
import Packmon.Feed.OsvEntries
import Packmon.Feed.OsvVersions
import Packmon.Feed.Ratelimit
import Packmon.Feed.Socket
import Packmon.Library.Base64
import Packmon.Library.Chunking
import Packmon.Library.Comparators
import Packmon.Library.CrashLogic
import Packmon.Library.EscapedQuotes
import Packmon.Library.FairRuns
import Packmon.Library.GoJson
import Packmon.Library.GoMap
import Packmon.Library.GoPath
import Packmon.Library.GoStructs
import Packmon.Library.GoText
import Packmon.Library.Interleaving
import Packmon.Library.JoinedTexts
import Packmon.Library.Json
import Packmon.Library.JsonBytes
import Packmon.Library.JsonStrings
import Packmon.Library.Jsonb
import Packmon.Library.KeyedMerge
import Packmon.Library.Keyset
import Packmon.Library.Leases
import Packmon.Library.NetIP
import Packmon.Library.SortedSets
import Packmon.Library.Tables
import Packmon.Library.TextFields
import Packmon.Library.TokenBucket
import Packmon.Library.Worklist
import Packmon.Local.BatchLookup
import Packmon.Local.Lookup
import Packmon.Local.NameNormalisation
import Packmon.Logsafe.QuotedValues
import Packmon.Middleware.ClientIP
import Packmon.Middleware.RateLimit
import Packmon.Migrations.ConcurrentIndex
import Packmon.Migrations.CrashSafety
import Packmon.Migrations.IndexRetry
import Packmon.Migrations.Migrator
import Packmon.Migrations.SplitStatements
import Packmon.Parser.Lockfiles
import Packmon.Parser.Npm
import Packmon.Parser.NpmVia
import Packmon.Parser.PnpmKeys
import Packmon.Queue.Claims
import Packmon.Queue.InMemory
import Packmon.Queue.Position
import Packmon.Scan.Collector
import Packmon.Store.AliasSeverity
import Packmon.Store.CanonicalNames
import Packmon.Store.Constraints
import Packmon.Store.Coverage
import Packmon.Store.Lookup
import Packmon.Store.Malicious
import Packmon.Store.NameRepair
import Packmon.Store.RangeConstraint
import Packmon.Store.Vulnerabilities
import Packmon.Store.Withdrawal
import Packmon.Sync.AdvisoryPage
import Packmon.Sync.Client
import Packmon.Sync.Cursor
import Packmon.Sync.CursorFormats
import Packmon.Sync.CursorRoundTrip
import Packmon.Sync.Database
import Packmon.Sync.DeltaPaging
import Packmon.Sync.Export
import Packmon.Sync.LocalIDs
import Packmon.Sync.Page
import Packmon.Sync.Position
import Packmon.Sync.Queries
import Packmon.Sync.RowPaging
import Packmon.Sync.Server
import Packmon.Sync.Session
import Packmon.Sync.Window
import Packmon.Sync.WireSize
import Packmon.Version.Compare
import Packmon.Version.DigitRuns
import Packmon.Version.FixAdvice
import Packmon.Version.Intervals
import Packmon.Version.Maven
import Packmon.Version.Pep440
import Packmon.Version.RangeShape
import Packmon.Version.Ranges
import Packmon.Version.Semver
import Packmon.Version.Walk
