import PulseGraph.Library.Table
import PulseGraph.Library.Run
import PulseGraph.Library.Json
import PulseGraph.Contracts
import PulseGraph.Config
import PulseGraph.Db.Schema
import PulseGraph.Engine.IncidentMachine
import PulseGraph.Engine.Dedupe
import PulseGraph.Engine.CriticalBypass
import PulseGraph.Engine.AdaptiveEwma
import PulseGraph.Outbox.Routing
import PulseGraph.Engine.DbAdapter
import PulseGraph.Library.Checked
import PulseGraph.Library.HashChain
import PulseGraph.Library.JsonLoads
import PulseGraph.Graph.ObserveIncident
import PulseGraph.Graph.StormGrouping
import PulseGraph.Engine.ProcessEvent
import PulseGraph.Engine.TimerWorker
import PulseGraph.Inbound.Reconcile
import PulseGraph.Engine.SilenceSweeper
import PulseGraph.Engine.Effects
import PulseGraph.Engine.System
import PulseGraph.Engine.ResolvedEvent
import PulseGraph.Engine.Lifecycle
import PulseGraph.Engine.Identity
import PulseGraph.Graph.StormInvariant
import PulseGraph.Engine.Storms
import PulseGraph.Outbox.FailurePolicy
import PulseGraph.Outbox.ChannelHealth
import PulseGraph.Outbox.Recovery
import PulseGraph.Outbox.PagerDuty
import PulseGraph.Outbox.Worker
import PulseGraph.Outbox.WorkerEffects
import PulseGraph.Engine.Queue
import PulseGraph.Outbox.Deployment
import PulseGraph.Outbox.Attempts
import PulseGraph.Outbox.Lease
import PulseGraph.Outbox.StormCard
import PulseGraph.Outbox.Pages
import PulseGraph.Outbox.Paging
import PulseGraph.Outbox.Terminal
import PulseGraph.Outbox.Supersession
import PulseGraph.Outbox.Slack
import PulseGraph.Outbox.Handles
import PulseGraph.Outbox.OneCard
import PulseGraph.Outbox.Failover
import PulseGraph.Outbox.Rerouting
import PulseGraph.Db.IsoText
import PulseGraph.Db.VerifyChain
import PulseGraph.Db.StoredLedger
import PulseGraph.Engine.StaleTriggers
import PulseGraph.Engine.TimerCoherence
import PulseGraph.Engine.Fingerprint
import PulseGraph.Ingest.Auth
import PulseGraph.Ingest.ScopeIsolation
import PulseGraph.Outbox.Coherence
import PulseGraph.Engine.Decisions
import PulseGraph.Engine.SilenceClock
import PulseGraph.Inbound.Provenance
import PulseGraph.Engine.FlapRate
import PulseGraph.Outbox.OpenChannel
import PulseGraph.Engine.Grades
import PulseGraph.Outbox.Digests
import PulseGraph.Outbox.StandIns
import PulseGraph.Engine.Cascades
import PulseGraph.Library.Follow
import PulseGraph.Stream.SseBroker
import PulseGraph.Engine.Ledger
import PulseGraph.Stream.Updates
import PulseGraph.Engine.Notices
import PulseGraph.Inbound.Replays
import PulseGraph.Graph.RootCause
import PulseGraph.Graph.RootCauseWorker
import PulseGraph.Outbox.Coalescing
import PulseGraph.Engine.Urgency
import PulseGraph.SelfCheck.Signals
import PulseGraph.SelfCheck.Monitors
import PulseGraph.GitHub.Payload
import PulseGraph.GitHub.Store
import PulseGraph.GitHub.Lifecycle
import PulseGraph.GitHub.Webhooks
import PulseGraph.GitHub.Selection
import PulseGraph.GitHub.Removals
import PulseGraph.Engine.EwmaLaws
import PulseGraph.Engine.Correlation
import PulseGraph.Engine.Deadlines
import PulseGraph.Engine.TimeLine
import PulseGraph.Graph.EdgeDecay
import PulseGraph.Graph.LiftAge
import PulseGraph.Library.FileTree
import PulseGraph.Library.Pages
import PulseGraph.Outbox.FailureHandling
import PulseGraph.Outbox.LeaseHygiene
import PulseGraph.Stream.Pagination
import PulseGraph.GitHub.Diagnosis
import PulseGraph.GitHub.PatchPreview
import PulseGraph.Engine.SilenceThreshold
import PulseGraph.Engine.ExactDuplicates
import PulseGraph.SelfCheck.Heartbeat
import PulseGraph.GitHub.PathAgreement
import PulseGraph.GitHub.PinnedSources
import PulseGraph.GitHub.SnapshotFiles
import PulseGraph.GitHub.TreeWalk
import PulseGraph.GitHub.Grounding
import PulseGraph.GitHub.AnalysisStore
import PulseGraph.GitHub.WorkspaceExact
import PulseGraph.GitHub.ReviewedDiff
import PulseGraph.Library.Components
import PulseGraph.Engine.StormComponents
import PulseGraph.Library.FormText
import PulseGraph.Library.JsonValues
import PulseGraph.Inbound.Signatures
import PulseGraph.Inbound.Callbacks
import PulseGraph.Library.EventStream
import PulseGraph.Stream.Wire
import PulseGraph.Stream.Reconnects
import PulseGraph.Outbox.Draining
import PulseGraph.Ingest.Normalizers
import PulseGraph.Ingest.Handlers
import PulseGraph.Ingest.Tokens
import PulseGraph.Library.Resume
import PulseGraph.Library.Ddl
import PulseGraph.Db.Migrations
