import FactoryAgent.Lib.Machine
import FactoryAgent.Session.Emission
import FactoryAgent.Session.Absorption
import FactoryAgent.Session.AppendOnly
import FactoryAgent.Session.Exclusivity
import FactoryAgent.Session.Reaping
import FactoryAgent.Lib.Increasing
import FactoryAgent.Session.Stream
import FactoryAgent.Session.Resumption
import FactoryAgent.Credentials.Isolation
import FactoryAgent.Credentials.Agreement
import FactoryAgent.Metering.Conservation
import FactoryAgent.Cache.NonInterference
import FactoryAgent.Cache.HotCold
import FactoryAgent.DataApi.Walk
import FactoryAgent.Metering.RollupRuns
import FactoryAgent.Session.Discipline
import FactoryAgent.Scope.Narrowing
import FactoryAgent.Scope.Enforcement
import FactoryAgent.Scope.DrillRuns
import FactoryAgent.Scope.Review
import FactoryAgent.Metering.CompletionRuns
import FactoryAgent.Cache.Store
import FactoryAgent.Cache.WindowCut
import FactoryAgent.Cache.Reconciliation
import FactoryAgent.Cache.SelfConsistency
import FactoryAgent.Cache.Aggregation
import FactoryAgent.Persistence.Pages
import FactoryAgent.Persistence.MeteringStore
import FactoryAgent.DataApi.Completeness
import FactoryAgent.Execution.CallBudget
import FactoryAgent.Execution.Bindings
import FactoryAgent.Execution.SqlGate
import FactoryAgent.Execution.AnalysisJoins
import FactoryAgent.Card.OrderExport
import FactoryAgent.Card.GroupedTable
import FactoryAgent.Card.ChartTotal
import FactoryAgent.Statistics.AuditTrail
import FactoryAgent.Statistics.Breakdowns
import FactoryAgent.Statistics.RollupReads
import FactoryAgent.Statistics.ByTenant
import FactoryAgent.Windows.DeclaredErrors
import FactoryAgent.Windows.CalendarDates
import FactoryAgent.Persistence.ConversationRecency
import FactoryAgent.Trace.Report
import FactoryAgent.Session.Narration
import FactoryAgent.Statistics.SeriesAgreement
import FactoryAgent.Credentials.OwnerSnapshots
import FactoryAgent.Trace.Occupancy
import FactoryAgent.Llm.Health
import FactoryAgent.Credentials.ScopeKeys
import FactoryAgent.Observability.LogRedaction
import FactoryAgent.Observability.DebugBounds
import FactoryAgent.Cache.PayrollGroups
import FactoryAgent.DataApi.DirectorySharing
import FactoryAgent.Cache.Prefetch
import FactoryAgent.DataApi.DirectoryCache
import FactoryAgent.Intent.Extraction
import FactoryAgent.Export.SheetTitles
import FactoryAgent.Export.ReadCache
import FactoryAgent.Session.Thinking
import FactoryAgent.Export.Workbook
import FactoryAgent.Statistics.Tokens
import FactoryAgent.Statistics.Exports
import FactoryAgent.Statistics.Partitions
import FactoryAgent.Execution.RecipeGraph
import FactoryAgent.Execution.Dag
import FactoryAgent.Session.Cuts
import FactoryAgent.Session.Context
import FactoryAgent.Session.Continuity
import FactoryAgent.Cache.Lines
import FactoryAgent.Cache.ServingRuns
import FactoryAgent.DataApi.AnalysisBatches
