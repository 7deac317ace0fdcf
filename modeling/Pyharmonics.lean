import Pyharmonics.AggregateOrder
import Pyharmonics.Analysis
import Pyharmonics.AnalysisContract
import Pyharmonics.AnalyzeRoute
import Pyharmonics.BacktestEngine
import Pyharmonics.BacktestHarness
import Pyharmonics.BacktestMetrics
import Pyharmonics.BacktestMirror
import Pyharmonics.BenchAggregator
import Pyharmonics.BenchConfidence
import Pyharmonics.BenchFdr
import Pyharmonics.BenchPaths
import Pyharmonics.BenchRanges
import Pyharmonics.BenchRecord
import Pyharmonics.BenchRunner
import Pyharmonics.BenchSplit
import Pyharmonics.BenchStages
import Pyharmonics.BenchStops
import Pyharmonics.BinanceStdlib
import Pyharmonics.Calibration
import Pyharmonics.CalibrationBins
import Pyharmonics.CalibrationError
import Pyharmonics.Checker
import Pyharmonics.CheckerAgent
import Pyharmonics.CheckerRefinement
import Pyharmonics.CheckerReturns
import Pyharmonics.Confluence
import Pyharmonics.DefaultBalance
import Pyharmonics.DetectPatterns
import Pyharmonics.DisciplineFilters
import Pyharmonics.DriverFiles
import Pyharmonics.DriverPlaces
import Pyharmonics.DriverRuns
import Pyharmonics.DurableFacts
import Pyharmonics.EpisodicMemory
import Pyharmonics.Errors
import Pyharmonics.EventPolling
import Pyharmonics.EventStore
import Pyharmonics.EventStream
import Pyharmonics.Extraction
import Pyharmonics.FirstTrade
import Pyharmonics.ForwardSimulation
import Pyharmonics.ForwardWindows
import Pyharmonics.Frame
import Pyharmonics.FrozenWindows
import Pyharmonics.FuturesSymbols
import Pyharmonics.Grading
import Pyharmonics.GreedyScan
import Pyharmonics.HarnessFills
import Pyharmonics.HarnessLookahead
import Pyharmonics.HarnessMetrics
import Pyharmonics.HarnessRegimes
import Pyharmonics.History
import Pyharmonics.HistoryRaces
import Pyharmonics.JsonText
import Pyharmonics.JsonValues
import Pyharmonics.KlineCache
import Pyharmonics.KlineInvalidation
import Pyharmonics.Library.Braces
import Pyharmonics.Library.Calendar
import Pyharmonics.Library.Calls
import Pyharmonics.Library.Causal
import Pyharmonics.Library.Chunks
import Pyharmonics.Library.Decimals
import Pyharmonics.Library.Descent
import Pyharmonics.Library.Dict
import Pyharmonics.Library.Divergence
import Pyharmonics.Library.Drawdown
import Pyharmonics.Library.Firsts
import Pyharmonics.Library.Fronts
import Pyharmonics.Library.Groups
import Pyharmonics.Library.Intervals
import Pyharmonics.Library.LineLogs
import Pyharmonics.Library.Machines
import Pyharmonics.Library.Noninterference
import Pyharmonics.Library.Patterns
import Pyharmonics.Library.Programs
import Pyharmonics.Library.Ranks
import Pyharmonics.Library.Recency
import Pyharmonics.Library.Rounding
import Pyharmonics.Library.Rows
import Pyharmonics.Library.Runs
import Pyharmonics.Library.ScoreInterval
import Pyharmonics.Library.Series
import Pyharmonics.Library.Slices
import Pyharmonics.Library.Sorting
import Pyharmonics.Library.Tails
import Pyharmonics.Library.TextLines
import Pyharmonics.Library.Waterfall
import Pyharmonics.Library.YamlScalars
import Pyharmonics.Library.YamlText
import Pyharmonics.LiveTuning
import Pyharmonics.LoopDriver
import Pyharmonics.LoopWorker
import Pyharmonics.MacroBias
import Pyharmonics.MacroLabel
import Pyharmonics.MakerAgent
import Pyharmonics.MakerBatch
import Pyharmonics.MakerChecker
import Pyharmonics.MakerIsolation
import Pyharmonics.MakerLimits
import Pyharmonics.MarketPages
import Pyharmonics.MemoryCache
import Pyharmonics.MetricOrder
import Pyharmonics.Mirror
import Pyharmonics.Mutation
import Pyharmonics.MutationFrame
import Pyharmonics.OneRsi
import Pyharmonics.Pareto
import Pyharmonics.PatternTimes
import Pyharmonics.Plateau
import Pyharmonics.PlattDescent
import Pyharmonics.PositionHistory
import Pyharmonics.PositionLedger
import Pyharmonics.PositionManager
import Pyharmonics.PositionMirror
import Pyharmonics.PositionPlan
import Pyharmonics.PositionRuns
import Pyharmonics.PositionSizing
import Pyharmonics.ProfitFactors
import Pyharmonics.PromptProvider
import Pyharmonics.PublishedStop
import Pyharmonics.QuarterRuns
import Pyharmonics.Quarters
import Pyharmonics.QuotaLedger
import Pyharmonics.QuotaRaces
import Pyharmonics.QuotaSettled
import Pyharmonics.RecordReplay
import Pyharmonics.RegimeAggregate
import Pyharmonics.Relaxation
import Pyharmonics.ReviewLog
import Pyharmonics.RiskCeiling
import Pyharmonics.RsiAccounting
import Pyharmonics.RsiBacktest
import Pyharmonics.RsiIntervals
import Pyharmonics.RsiRisk
import Pyharmonics.RsiTrend
import Pyharmonics.Scheduler
import Pyharmonics.ScratchPromotion
import Pyharmonics.SignalContracts
import Pyharmonics.SignalEngine
import Pyharmonics.SignalEngineSpec
import Pyharmonics.SignalGeometry
import Pyharmonics.SignalRanking
import Pyharmonics.SignalReturns
import Pyharmonics.Signals
import Pyharmonics.TechnicalConversion
import Pyharmonics.TechnicalResult
import Pyharmonics.TrapEvidence
import Pyharmonics.Tuning
import Pyharmonics.TuningContracts
import Pyharmonics.TuningFile
import Pyharmonics.TuningScope
import Pyharmonics.TuningTables
import Pyharmonics.Validation
import Pyharmonics.VibeCancel
import Pyharmonics.VibeContext
import Pyharmonics.VibeIsolation
import Pyharmonics.VibeListing
import Pyharmonics.VibeOrchestrator
import Pyharmonics.VibeReducer
import Pyharmonics.VibeSessionRaces
import Pyharmonics.VibeSessions
import Pyharmonics.VibeSettlement
import Pyharmonics.WalkForward
import Pyharmonics.Watchlist
import Pyharmonics.WatchlistBackends
import Pyharmonics.WatchlistInvariants
import Pyharmonics.WatchlistMirror
import Pyharmonics.WatchlistParity
import Pyharmonics.WatchlistRaces
import Pyharmonics.WatchlistReorder
import Pyharmonics.WatchlistSheet
import Pyharmonics.WeightMutation
import Pyharmonics.WhatIf
