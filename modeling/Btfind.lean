import Btfind.Library.Transition
import Btfind.Library.KeyedTable
import Btfind.Types
import Btfind.Metadata.HashJob
import Btfind.Library.Newcomers
import Btfind.Metadata.PendingPeers
import Btfind.Metadata.Scheduler
import Btfind.Metadata.SchedulerInvariant
import Btfind.Metadata.SchedulerRuns
import Btfind.Library.Transaction
import Btfind.Library.EffectLog
import Btfind.Store.Schema
import Btfind.Store.Search
import Btfind.Library.Chunks
import Btfind.Store.Discover
import Btfind.Store.Catalog
import Btfind.Store.HashJobs
import Btfind.Store.RuntimeBatch
import Btfind.Store.CatalogRuns
import Btfind.Persistence.StatsTask
import Btfind.Persistence.StatsTaskRuns
import Btfind.Persistence.DiscoveryReceiptRuns
import Btfind.Metadata.TorrentInfo
import Btfind.Metadata.Round
import Btfind.Metadata.System
import Btfind.Metadata.RoundSteps
import Btfind.Metadata.WorkerDeath
import Btfind.Metadata.ReadyQueue
import Btfind.Metadata.RetryScan
import Btfind.Metadata.PeerReports
import Btfind.Metadata.RetryTimes
import Btfind.Metadata.SystemSteps
import Btfind.Store.CompletedTorrents
import Btfind.Metadata.Integrity
import Btfind.Metadata.SystemInvariant
import Btfind.Store.JobRows
import Btfind.Metadata.TerminalJobs
import Btfind.Metadata.PeerAttempts
import Btfind.Metadata.PendingWork
import Btfind.Metadata.StorableMetadata
import Btfind.Dht.RoutingRuns
import Btfind.Bencode.Codec
import Btfind.Dht.KrpcRoundTrip
import Btfind.Wire.Codec
import Btfind.Wire.ScannerLimits
import Btfind.Metadata.Fetch
import Btfind.Metadata.FetchRuns
import Btfind.Metadata.Greeting
import Btfind.Metadata.Reassembly
import Btfind.Library.Quarantine
import Btfind.Dht.Crawler
import Btfind.Dht.Transactions
import Btfind.Dht.Lookups
import Btfind.Dht.Amplification
import Btfind.Dht.TrustBoundary
import Btfind.Dht.FailureCharges
import Btfind.Dht.Moves
import Btfind.Dht.PublicPeers
import Btfind.Metadata.AbsentHash
import Btfind.Dht.ZeroHash
import Btfind.Dht.Sampling
import Btfind.Library.DistinctQueue
import Btfind.Dht.Effects
import Btfind.Dht.DiscoveryQueue
import Btfind.Dht.PoppedHash
import Btfind.Library.Recency
import Btfind.Dht.PeerCache
import Btfind.Dht.Tokens
import Btfind.Dht.Validation
import Btfind.Observability.CrawlerMetrics
import Btfind.Observability.CounterRuns
import Btfind.Metadata.RoundLog
import Btfind.Metadata.Verdict
import Btfind.Metadata.AttemptCounts
import Btfind.Library.Paging
import Btfind.Library.Batches
import Btfind.Store.SearchRebuild
import Btfind.Metadata.SearchIndex
import Btfind.Library.Calls
import Btfind.Observability.Journal
import Btfind.Observability.Checkpoint
import Btfind.Observability.Export
import Btfind.Observability.CounterSteps
import Btfind.Observability.ExportRules
import Btfind.Observability.LogBatches
import Btfind.Observability.MetricsRuns
import Btfind.Observability.ReadBatches
import Btfind.Observability.Rereading
import Btfind.Observability.LogRuns
import Btfind.Dht.Closest
import Btfind.Dht.CompactForms
import Btfind.Metadata.FilePaths
import Btfind.Metadata.TorrentSizes
import Btfind.Bencode.Written
import Btfind.Wire.ScannerSoundness
import Btfind.Wire.ExtendedHandshake
import Btfind.Metadata.RequestWindow
import Btfind.Library.Runs
import Btfind.Store.SearchText
import Btfind.Store.SearchQuery
import Btfind.Library.Like
import Btfind.Store.FileFilter
import Btfind.Library.Retention
import Btfind.Store.PeerRetention
import Btfind.Wire.ScannerPrefix
import Btfind.Library.Logged
import Btfind.Wire.ScannerCalls
import Btfind.Library.OffsetPages
import Btfind.Store.TorrentSearch
import Btfind.Library.Positional
import Btfind.Web.HashText
import Btfind.Library.Percent
import Btfind.Web.Magnet
import Btfind.Web.Service
import Btfind.Web.Search
import Btfind.Web.Torrents
import Btfind.Observability.WebMetrics
import Btfind.Library.GroupedTable
import Btfind.Observability.WebMetricsRuns
import Btfind.Web.Dashboard
import Btfind.Web.DashboardRuns
import Btfind.Web.FilePanel
import Btfind.Web.FilePanelRuns
import Btfind.Library.Markup
import Btfind.Web.Cards
import Btfind.Persistence.Statistics
import Btfind.Library.Volume
import Btfind.Observability.CheckpointFile
import Btfind.Observability.CheckpointRuns
