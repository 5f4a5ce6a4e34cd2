import Barycenter.Foundation.OrderedMap
import Barycenter.Foundation.DelimitedText
import Barycenter.Foundation.Outcome
import Barycenter.Dp.Operation
import Barycenter.Foundation.JsonText
import Barycenter.Dp.AgentState
import Barycenter.Dp.AgentLedger
import Barycenter.Dp.AgentInvariants
import Barycenter.Dp.Agent
import Barycenter.Foundation.Interaction
import Barycenter.Dp.Apply
import Barycenter.Dp.Driver
import Barycenter.Dp.AgentSpecs
import Barycenter.Dp.AgentFrames
import Barycenter.Foundation.History
import Barycenter.Dp.CoordinateSafety
import Barycenter.Dp.AgentKeys
import Barycenter.Dp.AgentRecords
import Barycenter.Dp.VerdictFinality
import Barycenter.Dp.StaleCleanup
import Barycenter.Foundation.OptimisticStore
import Barycenter.Dp.AgentStore
import Barycenter.Dp.DriverRules
import Barycenter.Dp.DriverRuns
import Barycenter.Dp.Fencing
import Barycenter.Foundation.Pool
import Barycenter.Dp.GuardReady
import Barycenter.Dp.GuardPasses
import Barycenter.Dp.Issued
import Barycenter.Dp.GuardUnreachable
import Barycenter.Control.Membership
import Barycenter.Control.BackendStatus
import Barycenter.Store.Tables
import Barycenter.Store.Patch
import Barycenter.Store.Readback
import Barycenter.Store.Family
import Barycenter.Store.Restore
import Barycenter.Store.RowFits
import Barycenter.Store.ListenerFits
import Barycenter.Store.RouteFits
import Barycenter.Store.RollbackRestores
import Barycenter.Foundation.Transaction
import Barycenter.Store.ConfigStore
import Barycenter.Store.ConfigRuns
import Barycenter.Store.ConfigEffects
import Barycenter.Store.LinearHistory
import Barycenter.Store.PlanFidelity
import Barycenter.Store.SealedCommits
import Barycenter.Foundation.Interleaving
import Barycenter.Dp.MembershipFreshness
import Barycenter.Dp.ReconcileTruth
import Barycenter.Foundation.NginxLexer
import Barycenter.Conf.Ast
import Barycenter.Conf.SerializeTokens
import Barycenter.Foundation.Components
import Barycenter.Route.HostPattern
import Barycenter.Foundation.StableSort
import Barycenter.Route.Compile
import Barycenter.Route.CompileOrder
import Barycenter.Route.StrictPriority
import Barycenter.Foundation.Acquisition
import Barycenter.Validate.Ip
import Barycenter.Validate.Sockets
import Barycenter.Validate.BindTransition
import Barycenter.Validate.BindSequence
import Barycenter.Dp.Retention
import Barycenter.Control.GenerationSweep
import Barycenter.Control.MembershipOnly
import Barycenter.Control.MembershipRace
import Barycenter.Control.Engine
import Barycenter.Control.PlanTables
import Barycenter.Control.ApplyPaths
import Barycenter.Control.ApplyCalls
import Barycenter.Control.AutomaticCarry
import Barycenter.Control.Election
import Barycenter.Control.ElectionTruth
import Barycenter.Control.AcmePublish
import Barycenter.Control.PublishOnce
import Barycenter.Control.AcmeRunner
import Barycenter.Control.AcmeOwnership
import Barycenter.Control.AcmeWaiting
import Barycenter.Control.RetainedHistory
import Barycenter.Control.RollbackState
import Barycenter.Conf.Draft
import Barycenter.Foundation.Sha256
import Barycenter.Model.Derived
import Barycenter.Validate.Strings
import Barycenter.Validate.Model
import Barycenter.Model.Decode
import Barycenter.Conf.Names
import Barycenter.Conf.HttpParts
import Barycenter.Conf.HttpServers
import Barycenter.Conf.Render
import Barycenter.Api.EventHub
import Barycenter.Api.StreamRuns
import Barycenter.Global.SharedStream
import Barycenter.Global.LateViewer
import Barycenter.Dp.FileStore
import Barycenter.Dp.FileForks
import Barycenter.Accounts.Authority
import Barycenter.Accounts.RoleChange
import Barycenter.Accounts.RoleChangeOrder
import Barycenter.Accounts.Users
import Barycenter.Accounts.Tables
import Barycenter.Accounts.AdminFactor
import Barycenter.Accounts.RowLocks
import Barycenter.Accounts.LastAdmin
import Barycenter.Foundation.Json
import Barycenter.Dp.Remote
import Barycenter.Control.RemoteOperations
import Barycenter.Secrets.Retention
import Barycenter.Secrets.Sweeps
import Barycenter.Secrets.InUse
import Barycenter.Secrets.SweepRuns
import Barycenter.Foundation.Keeper
import Barycenter.Store.References
import Barycenter.Store.Shown
import Barycenter.Store.RowsKept
import Barycenter.Store.ResourceKeeper
import Barycenter.Store.Manifest
import Barycenter.Store.ImportInverts
import Barycenter.Api.ChangesetEdits
import Barycenter.Api.IfMatch
import Barycenter.Dp.LedgerKeys
import Barycenter.Dp.SlotOwnership
import Barycenter.Dp.LedgerBounds
import Barycenter.Dp.KekRotation
import Barycenter.Dp.JournalChanges
import Barycenter.Dp.ReloadPrograms
import Barycenter.Dp.ReloadBudget
import Barycenter.Cli.EditedRevisions
import Barycenter.Cli.EditCalls
import Barycenter.Cli.EditRuns
import Barycenter.Foundation.SerialLog
import Barycenter.Store.SqliteStore
import Barycenter.Store.SqliteRuns
import Barycenter.Control.SlotFairness
import Barycenter.Control.HealthRecords
import Barycenter.Control.HealthRuns
import Barycenter.Control.OwnPeers
import Barycenter.Control.MembershipWire
import Barycenter.Control.MembershipReadback
import Barycenter.Control.MembershipPushes
import Barycenter.Dp.Publication
import Barycenter.Dp.GenerationDigest
import Barycenter.Accounts.Lockout
import Barycenter.Accounts.LockoutRuns
import Barycenter.Dp.MembershipDelivery
import Barycenter.Validate.BindForms
import Barycenter.Store.SessionImpact
import Barycenter.Acme.Der
import Barycenter.Validate.AddressRanges
import Barycenter.Accounts.Tokens
import Barycenter.Accounts.TokenAuthority
import Barycenter.Conf.StrictAgreement
import Barycenter.Acme.Nonces
import Barycenter.Dp.FactsCache
import Barycenter.Web.RouteGroup
import Barycenter.Api.ClientAddress
import Barycenter.Api.EventFrames
import Barycenter.Accounts.IdpRoles
import Barycenter.Api.AuthLimits
import Barycenter.Accounts.LinkTransactions
import Barycenter.Accounts.OneTimeLinks
import Barycenter.Accounts.FactorTransactions
import Barycenter.Foundation.SqlTokens
import Barycenter.Store.Placeholders
import Barycenter.Accounts.CodesOnce
import Barycenter.Web.Relations
import Barycenter.Dp.VouchedPlanes
import Barycenter.Store.PatchFrame
import Barycenter.Validate.SourceRules
