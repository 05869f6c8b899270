import Fre.Foundation.Machine
import Fre.Core.Event
import Fre.Core.RegistryInvariant
import Fre.Sharding.AssignCells
import Fre.Sharding.CellSets
import Fre.Sharding.BucketContention
import Fre.Sharding.TenantRouter
import Fre.Sharding.Acquisitions
import Fre.Sharding.SlotContention
import Fre.Service.FleetRouter
import Fre.Service.Connection
import Fre.Service.DecisionSerializer
import Fre.Service.Fleet
import Fre.Service.Redirects
import Fre.State.ConcurrentFlush
import Fre.State.SingleFlusher
import Fre.State.Restart
import Fre.State.StoreEquivalence
import Fre.State.DuckDbConnection
import Fre.State.ArchivedTotals
import Fre.State.ArchivedRows
import Fre.State.ColdStatement
import Fre.State.ArchiveFailures
import Fre.State.ConcurrentArchive
import Fre.State.WriteBackQueries
import Fre.State.LateWrites
import Fre.Evaluator.AllowDenyEvaluator
import Fre.Evaluator.Contention
import Fre.Evaluator.Flapping
import Fre.Evaluator.LockedCounting
import Fre.Evaluator.PluginLoader
import Fre.Evaluator.HistoricalCounts
import Fre.Policy.Leaves
import Fre.Policy.Written
import Fre.Policy.NumericTags
import Fre.Policy.OneInstant
import Fre.Stage.RuleAddition
import Fre.Stage.PolicyVerdict
import Fre.Stage.RuleOrder
import Fre.Stage.Redeclaration
import Fre.Stage.EmitRetries
import Fre.Stage.BackOff
import Fre.Stage.EventAge
import Fre.Stage.Composition
import Fre.Stage.InferenceThreads
import Fre.Pipeline.AddedInference
import Fre.Pipeline.SyncDelivery
import Fre.Pipeline.EvaluatorFailures
import Fre.Pipeline.Restarts
import Fre.Pipeline.TenantOrder
import Fre.Pipeline.ConcurrencyCap
import Fre.Pipeline.Dispatch
import Fre.Pipeline.DrainWait
import Fre.Pipeline.PolicyVisibility
import Fre.Pipeline.ActiveDecisions
import Fre.Pipeline.Logging
