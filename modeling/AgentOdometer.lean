import AgentOdometer.Action.Batch
import AgentOdometer.Action.CrashSafe
import AgentOdometer.Action.Executor
import AgentOdometer.Action.Journal
import AgentOdometer.Action.Operations
import AgentOdometer.Action.Outcomes
import AgentOdometer.Action.Steps
import AgentOdometer.Attention.AlertRuns
import AgentOdometer.Attention.Consume
import AgentOdometer.Attention.Replays
import AgentOdometer.Attention.Service
import AgentOdometer.Attention.Signals
import AgentOdometer.Base.Ascii
import AgentOdometer.Base.Checked
import AgentOdometer.Base.Float64
import AgentOdometer.Base.Json
import AgentOdometer.Base.Machine
import AgentOdometer.Base.StableHash
import AgentOdometer.Base.Text
import AgentOdometer.Base.Time
import AgentOdometer.Calendar.Days
import AgentOdometer.Calendar.Exact
import AgentOdometer.Calendar.Partition
import AgentOdometer.Config.Discovery
import AgentOdometer.Config.DiscoveryMerge
import AgentOdometer.Config.Normalize
import AgentOdometer.Config.SettingsSave
import AgentOdometer.Correlation.Correlate
import AgentOdometer.Correlation.Prefilter
import AgentOdometer.Experiments.FrozenRates
import AgentOdometer.History.AnnotationUpdates
import AgentOdometer.History.ArchiveCalls
import AgentOdometer.History.CoverageProof
import AgentOdometer.History.Exclusion
import AgentOdometer.History.ExclusionJournal
import AgentOdometer.History.JournalAgreement
import AgentOdometer.History.Lifecycle
import AgentOdometer.History.Organization
import AgentOdometer.History.PurgeEffects
import AgentOdometer.History.PurgedTranscripts
import AgentOdometer.Instructions.Discover
import AgentOdometer.Instructions.File
import AgentOdometer.Instructions.Hierarchy
import AgentOdometer.Instructions.Overlap
import AgentOdometer.Instructions.Tree
import AgentOdometer.Ledger.Calls
import AgentOdometer.Ledger.Content
import AgentOdometer.Ledger.Contents
import AgentOdometer.Ledger.Convergence
import AgentOdometer.Ledger.DirtyFlag
import AgentOdometer.Ledger.Facts
import AgentOdometer.Ledger.Identity
import AgentOdometer.Ledger.Observe
import AgentOdometer.Ledger.RangeAgreement
import AgentOdometer.Ledger.RangeEquivalence
import AgentOdometer.Ledger.RangeQuery
import AgentOdometer.Ledger.Reconcile
import AgentOdometer.Ledger.RollupMaintenance
import AgentOdometer.Ledger.RowIdentity
import AgentOdometer.Ledger.Store
import AgentOdometer.Ledger.Totality
import AgentOdometer.Ledger.Windows
import AgentOdometer.Lib.AliasChain
import AgentOdometer.Lib.Along
import AgentOdometer.Lib.CivilDate
import AgentOdometer.Lib.ClosestMatching
import AgentOdometer.Lib.CsvText
import AgentOdometer.Lib.EntryFold
import AgentOdometer.Lib.FirstByKey
import AgentOdometer.Lib.GroupBy
import AgentOdometer.Lib.GroupedFold
import AgentOdometer.Lib.KeyedFold
import AgentOdometer.Lib.Keys
import AgentOdometer.Lib.Lines
import AgentOdometer.Lib.OptionFold
import AgentOdometer.Lib.OrderedMap
import AgentOdometer.Lib.OrderedSet
import AgentOdometer.Lib.PathGroups
import AgentOdometer.Lib.Program
import AgentOdometer.Lib.Replacing
import AgentOdometer.Lib.RootCover
import AgentOdometer.Lib.RuleMerge
import AgentOdometer.Lib.Runs
import AgentOdometer.Lib.SortedList
import AgentOdometer.Lib.Table
import AgentOdometer.Lib.TerminatedWords
import AgentOdometer.Lib.Transition
import AgentOdometer.Lib.Versioned
import AgentOdometer.Mcp.Answers
import AgentOdometer.Mcp.Framing
import AgentOdometer.Mcp.PoliteClient
import AgentOdometer.Mcp.Session
import AgentOdometer.Mcp.SessionEffects
import AgentOdometer.Mcp.SessionInvariant
import AgentOdometer.Model.Counters
import AgentOdometer.Model.ExactRuns
import AgentOdometer.Model.Provider
import AgentOdometer.Model.RangeScan
import AgentOdometer.Model.RangeTotals
import AgentOdometer.Model.RateLimitRuns
import AgentOdometer.Model.Session
import AgentOdometer.Model.SourceSet
import AgentOdometer.Model.TokenOrder
import AgentOdometer.Parser.Claude
import AgentOdometer.Parser.Codex
import AgentOdometer.Parser.CodexBuckets
import AgentOdometer.Parser.CodexFastPath
import AgentOdometer.Parser.CodexGrowth
import AgentOdometer.Parser.CodexHistory
import AgentOdometer.Parser.CodexTurns
import AgentOdometer.Parser.CodexUsage
import AgentOdometer.Parser.Figures
import AgentOdometer.Parser.Gemini
import AgentOdometer.Parser.Growth
import AgentOdometer.Parser.Json
import AgentOdometer.Parser.PromptRuns
import AgentOdometer.Parser.PromptTurns
import AgentOdometer.Parser.Prompted
import AgentOdometer.Parser.PromptedGrowth
import AgentOdometer.Parser.Spans
import AgentOdometer.Parser.TurnList
import AgentOdometer.Parser.Usage
import AgentOdometer.Parser.UsageOnce
import AgentOdometer.Parser.UsageRuns
import AgentOdometer.Pricing.Agreement
import AgentOdometer.Pricing.Buckets
import AgentOdometer.Pricing.Converted
import AgentOdometer.Pricing.Coverage
import AgentOdometer.Pricing.Dated
import AgentOdometer.Pricing.Linear
import AgentOdometer.Pricing.RateCard
import AgentOdometer.Pricing.Refresh
import AgentOdometer.Pricing.Resolution
import AgentOdometer.Pricing.Tokens
import AgentOdometer.Pricing.TurnPrices
import AgentOdometer.Pricing.Upgrade
import AgentOdometer.Pricing.UpgradeEdits
import AgentOdometer.Pricing.UpgradeTables
import AgentOdometer.Pricing.UpgradeValidity
import AgentOdometer.Pricing.Validation
import AgentOdometer.Projection.DisplayForest
import AgentOdometer.Projection.DisplayWalk
import AgentOdometer.Projection.SessionOrder
import AgentOdometer.Projects.Overrides
import AgentOdometer.Quota.Alerts
import AgentOdometer.Quota.Ambient
import AgentOdometer.Quota.CollapsedHistory
import AgentOdometer.Quota.CollapsedSeries
import AgentOdometer.Quota.Config
import AgentOdometer.Quota.Consent
import AgentOdometer.Quota.ConsentInvariant
import AgentOdometer.Quota.ConsentRespected
import AgentOdometer.Quota.ConsentRuntime
import AgentOdometer.Quota.ConsentSystem
import AgentOdometer.Quota.IndexBookkeeping
import AgentOdometer.Quota.IndexEquivalence
import AgentOdometer.Quota.IndexInvariant
import AgentOdometer.Quota.LiveAccounts
import AgentOdometer.Quota.LiveAlerts
import AgentOdometer.Quota.LiveReading
import AgentOdometer.Quota.NotificationLog
import AgentOdometer.Quota.PointsIndex
import AgentOdometer.Quota.Receipt
import AgentOdometer.Quota.Snapshot
import AgentOdometer.RangeData.Cache
import AgentOdometer.RangeData.DeltaRefresh
import AgentOdometer.RangeData.SessionsStore
import AgentOdometer.Report.Categories
import AgentOdometer.Report.Decode
import AgentOdometer.Report.Leaves
import AgentOdometer.Report.Lossless
import AgentOdometer.Report.Money
import AgentOdometer.Report.Output
import AgentOdometer.Report.Paths
import AgentOdometer.Report.PricingCoverage
import AgentOdometer.Report.Projects
import AgentOdometer.Report.Sessions
import AgentOdometer.Report.Statusline
import AgentOdometer.Report.Windowed
import AgentOdometer.Store.DurableWriters
import AgentOdometer.Telemetry.Metrics
import AgentOdometer.ToolImpact.Compare
import AgentOdometer.ToolImpact.Matching
import AgentOdometer.Transcript.Anchors
import AgentOdometer.Transcript.Page
import AgentOdometer.Transcript.PageContents
import AgentOdometer.Transcript.Paging
import AgentOdometer.Transcript.RecordIds
import AgentOdometer.Transcript.ScanInvariant
import AgentOdometer.TranscriptExport.Entries
import AgentOdometer.TranscriptExport.Links
import AgentOdometer.TranscriptExport.Noninterference
import AgentOdometer.TranscriptExport.Preview
import AgentOdometer.TranscriptExport.Redact
import AgentOdometer.TranscriptExport.SharedExcerpt
import AgentOdometer.Workflow.Lifecycle
import AgentOdometer.Workflow.LifecycleRuns
