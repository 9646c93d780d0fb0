import Luchida.Runs
import Luchida.OrderedMap
import Luchida.Window
import Luchida.TimeFrame
import Luchida.Candle
import Luchida.IndicatorLedger
import Luchida.LedgerRefinement
import Luchida.Domain
import Luchida.TimeFrameBook
import Luchida.BarHistory
import Luchida.BarOncePerBucket
import Luchida.BarForward
import Luchida.GmoRest
import Luchida.GmoBrokerAdapter
import Luchida.OrderReporting
import Luchida.SyncPositions
import Luchida.PositionRepository
import Luchida.EntryExecution
import Luchida.Allocation
import Luchida.SmaCrossRule
import Luchida.TradingSession
import Luchida.EntrySystem
import Luchida.EntryView
import Luchida.EntryOnce
import Luchida.EntryPerBar
import Luchida.ExitGuards
import Luchida.ExitSystem
import Luchida.ExitView
import Luchida.ExitOnce
import Luchida.EmergencyClose
import Luchida.Spacing
import Luchida.RestThrottle
import Luchida.EntryQueue
import Luchida.SnapshotGate
import Luchida.SyncSafety
import Luchida.Throws
import Luchida.BacktestAdapter
import Luchida.RunningBalance
import Luchida.BacktestEngine
import Luchida.ExecutionSimulators
import Luchida.OhlcEngine
import Luchida.TickEngine
import Luchida.TimescaleDataProvider
import Luchida.TradeConservation
import Luchida.EngineConservation
import Luchida.OhlcLookAhead
import Luchida.OrderSpacing
import Luchida.BookReadiness
import Luchida.MarketKernel
import Luchida.HigherTimeFrames
import Luchida.TickLookAhead
import Luchida.CandleAggregation
import Luchida.BreakerHistory
import Luchida.ExitDispatch
import Luchida.ExitCompensation
import Luchida.ResetRuns
import Luchida.TrailingTakeProfit
import Luchida.SignChanges
import Luchida.CrossHistory
import Luchida.ReconciledCross
import Luchida.EmergencyCloseAll
import Luchida.OpenPositionPages
import Luchida.DecimalRounding
import Luchida.LotPolicy
import Luchida.EntryDecisionObserver
import Luchida.SeriesExtrema
import Luchida.ResultCalculator
import Luchida.CandleCache
import Luchida.ReconcileReport
import Luchida.Newest
import Luchida.GmoCandleHistoryAdapter
import Luchida.EngineRounds
import Luchida.Reversal
import Luchida.Excursions
import Luchida.EngineProgress
import Luchida.RuleFactory
import Luchida.BacktestRunner
import Luchida.BatchSurvival
import Luchida.LotShares
import Luchida.RatioDecimals
import Luchida.AdoptedPosition
import Luchida.Xorshift
import Luchida.SeededRandom
import Luchida.GmoBalanceAdapter
import Luchida.BoundaryScheduler
import Luchida.GmoWebSocketClient
import Luchida.LiveFeed
import Luchida.OrderFills
import Luchida.EngineBars
import Luchida.EngineLockstep
import Luchida.SyncConvergence
import Luchida.RuleParity
import Luchida.Transactions
import Luchida.ResultStorage
import Luchida.ExitRecords
import Luchida.ExitProvenance
import Luchida.PositionSizing
import Luchida.EntryBudget
