import Greenfield.Analytics.Exposure
import Greenfield.Analytics.Overfitting
import Greenfield.Backtesting.Funding
import Greenfield.Backtesting.StitchedEquity
import Greenfield.Data.ArchiveDownload
import Greenfield.Data.ArchiveRotation
import Greenfield.Data.BinanceReplay
import Greenfield.Data.BybitCollector
import Greenfield.Data.BybitMessages
import Greenfield.Data.BybitNormalizer
import Greenfield.Data.BybitQueue
import Greenfield.Data.BybitReplay
import Greenfield.Data.BybitRows
import Greenfield.Data.BybitStreams
import Greenfield.Data.CoinbaseReplay
import Greenfield.Data.CollectorKeeps
import Greenfield.Data.CompactionReads
import Greenfield.Data.CompactionRuns
import Greenfield.Data.CompactionStages
import Greenfield.Data.DownloadResumes
import Greenfield.Data.GoldMerge
import Greenfield.Data.KlineValidation
import Greenfield.Data.Klines
import Greenfield.Data.LakeResumes
import Greenfield.Data.LakeStores
import Greenfield.Data.MergeAdmission
import Greenfield.Data.MicroCollector
import Greenfield.Data.MicroCompaction
import Greenfield.Data.NormalizedEvent
import Greenfield.Data.OrderedMerge
import Greenfield.Data.PriceLevels
import Greenfield.Data.RawCompactor
import Greenfield.Data.RawEvent
import Greenfield.Data.RawMerge
import Greenfield.Data.RawReader
import Greenfield.Data.RecentManifests
import Greenfield.Data.RotationKeeps
import Greenfield.Data.TradeArchive
import Greenfield.Data.VenueReplay
import Greenfield.Demo.Cooldown
import Greenfield.Demo.Coordinator
import Greenfield.Demo.Daily
import Greenfield.Demo.Executor
import Greenfield.Demo.Gateway
import Greenfield.Demo.Keeping
import Greenfield.Demo.Lifecycle
import Greenfield.Demo.Probe
import Greenfield.Demo.ProbeRuns
import Greenfield.Demo.RealizedPnl
import Greenfield.Demo.Reconciler
import Greenfield.Demo.Risk
import Greenfield.Demo.RoundTrip
import Greenfield.Demo.SentOnce
import Greenfield.Demo.Sizing
import Greenfield.Demo.State
import Greenfield.Demo.StrandedEntry
import Greenfield.Demo.StrandedExit
import Greenfield.Demo.Tidy
import Greenfield.Demo.World
import Greenfield.Execution.Calibration
import Greenfield.Execution.QuoteJoin
import Greenfield.Execution.SessionRecorder
import Greenfield.Features.ArchiveAgreement
import Greenfield.Features.ArchiveFlow
import Greenfield.Features.ArchiveStitch
import Greenfield.Features.Auction
import Greenfield.Features.BookLiquidity
import Greenfield.Features.BookRows
import Greenfield.Features.Causality
import Greenfield.Features.Divergence
import Greenfield.Features.FlowBuckets
import Greenfield.Features.FootprintRuns
import Greenfield.Features.L2Imbalance
import Greenfield.Features.LiquidityTotals
import Greenfield.Features.Lockstep
import Greenfield.Features.OptionSurface
import Greenfield.Features.PointInTime
import Greenfield.Features.SilverBook
import Greenfield.Features.SnapshotReset
import Greenfield.Features.TradeFlow
import Greenfield.Features.TradeStreams
import Greenfield.Features.ValueArea
import Greenfield.Lib.AsOf
import Greenfield.Lib.Batches
import Greenfield.Lib.Buckets
import Greenfield.Lib.Codec
import Greenfield.Lib.Combinations
import Greenfield.Lib.CostBasis
import Greenfield.Lib.Depth
import Greenfield.Lib.Effect
import Greenfield.Lib.Files
import Greenfield.Lib.Greedy
import Greenfield.Lib.Interference
import Greenfield.Lib.Interleave
import Greenfield.Lib.Interpolate
import Greenfield.Lib.Intervals
import Greenfield.Lib.Json
import Greenfield.Lib.JsonCut
import Greenfield.Lib.JsonText
import Greenfield.Lib.Neighbours
import Greenfield.Lib.Parts
import Greenfield.Lib.Ranks
import Greenfield.Lib.Resume
import Greenfield.Lib.Run
import Greenfield.Lib.Segments
import Greenfield.Lib.Table
import Greenfield.Lib.Tiling
import Greenfield.Ml.Labels
import Greenfield.Ml.PurgedKFold
import Greenfield.Ml.SetupDataset
import Greenfield.Ml.TournamentSplits
import Greenfield.Paper.Accounting
import Greenfield.Paper.Delivery
import Greenfield.Paper.Position
import Greenfield.Paper.Store
import Greenfield.Paper.Transitions
import Greenfield.Py.Basic
import Greenfield.Py.IsoOrder
import Greenfield.Py.Json
import Greenfield.Py.Time
import Greenfield.Regimes.Analogs
import Greenfield.Regimes.Stabilization
import Greenfield.Research.ConfirmationIndependence
import Greenfield.Research.Cycle
import Greenfield.Research.DegradedReviews
import Greenfield.Research.FoldReturns
import Greenfield.Research.Holdout
import Greenfield.Research.Ledger
import Greenfield.Research.Locking
import Greenfield.Research.Promotion
import Greenfield.Research.Queue
import Greenfield.Research.RegistryFile
import Greenfield.Research.SelectiveGate
import Greenfield.Research.WalkForward
import Greenfield.Risk.Approval
import Greenfield.Risk.Engine
import Greenfield.Risk.FailedCalls
import Greenfield.Risk.Limits
import Greenfield.Risk.Portfolio
import Greenfield.Risk.Restart
import Greenfield.Risk.Rooms
import Greenfield.Risk.StateStore
import Greenfield.Shadow.Agreement
import Greenfield.Shadow.Audit
import Greenfield.Shadow.Caps
import Greenfield.Shadow.Decision
import Greenfield.Shadow.ExactlyOnce
import Greenfield.Shadow.FailedAppend
import Greenfield.Shadow.Hold
import Greenfield.Shadow.InStep
import Greenfield.Shadow.Journal
import Greenfield.Shadow.Lease
import Greenfield.Shadow.Loop
import Greenfield.Shadow.Meta
import Greenfield.Shadow.MetaOrder
import Greenfield.Shadow.Payload
import Greenfield.Shadow.Producer
import Greenfield.Shadow.Queue
import Greenfield.Shadow.QueueText
import Greenfield.Shadow.Runtime
import Greenfield.Shadow.Service
import Greenfield.Shadow.Stored
import Greenfield.Shadow.Torn
import Greenfield.Shadow.WorkStore
import Greenfield.Strategies.HoldForBars
import Greenfield.Strategies.SlotAgreement
