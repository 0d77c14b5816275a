import Sentinel.Agent.BookDrift
import Sentinel.Agent.Caution
import Sentinel.Agent.HumanPaths
import Sentinel.Agent.LadderRuns
import Sentinel.Agent.Learning
import Sentinel.Agent.Patterns
import Sentinel.Agent.ProposalQueue
import Sentinel.Agent.ProposalSteps
import Sentinel.Agent.Restart
import Sentinel.Agent.RollingLoss
import Sentinel.Agent.StopSafety
import Sentinel.Agent.Trading
import Sentinel.Agent.Transparency
import Sentinel.Api.AccountRuns
import Sentinel.Api.ConfigWrites
import Sentinel.Api.Tracking
import Sentinel.Brain.ShadowWindows
import Sentinel.Brokers.ActivationGate
import Sentinel.Brokers.BridgeCloses
import Sentinel.Brokers.CloseLots
import Sentinel.Brokers.MetaTraderBars
import Sentinel.Brokers.PaperBook
import Sentinel.Brokers.RolloverFaults
import Sentinel.Brokers.SymbolTable
import Sentinel.Core.AuditCrash
import Sentinel.Core.AuditFaults
import Sentinel.Core.AuditReports
import Sentinel.Core.AuditTamper
import Sentinel.Core.Changeovers
import Sentinel.Core.ConfigDiff
import Sentinel.Core.Ids
import Sentinel.Core.JalaliDates
import Sentinel.Data.ChartFeed
import Sentinel.Data.Snapshot
import Sentinel.Data.Ticks
import Sentinel.Execution.AtMostOnce
import Sentinel.Execution.EmergencyRisk
import Sentinel.Execution.FillRecord
import Sentinel.Execution.OrderHistory
import Sentinel.Execution.Quarantine
import Sentinel.Execution.Unprotected
import Sentinel.Licensing.DayTerms
import Sentinel.Licensing.ExpiredList
import Sentinel.Licensing.SeatServer
import Sentinel.News.LookAhead
import Sentinel.News.Releases
import Sentinel.News.Revisions
import Sentinel.News.ScheduleWindows
import Sentinel.Ops.ChatCommands
import Sentinel.Ops.EquityLedger
import Sentinel.Ops.Flatten
import Sentinel.Research.Authority
import Sentinel.Research.CombinatorialPaths
import Sentinel.Research.EntryCaps
import Sentinel.Research.Labeling
import Sentinel.Research.MetaHoldout
import Sentinel.Research.TrialCharge
import Sentinel.Research.VerdictBinding
import Sentinel.Risk.Clusters
import Sentinel.Risk.CurrencyLimit
import Sentinel.Risk.Granularity
import Sentinel.Risk.ProtectMarket
import Sentinel.Strategy.EndOfDay
import Sentinel.Strategy.Ensemble
import Sentinel.Strategy.IndicatorCache
import Sentinel.Strategy.LaterRows
import Sentinel.Strategy.Supertrend
