import CodeIntel.Api.ConnectionsPatch
import CodeIntel.Artifact.PathSafety
import CodeIntel.Artifact.RowInvariants
import CodeIntel.Cleanup.Graphs
import CodeIntel.Cleanup.Shards
import CodeIntel.Core.JobTasks
import CodeIntel.Core.ScipWrite
import CodeIntel.Core.SharedSchedule
import CodeIntel.Core.StrandedJob
import CodeIntel.Graph.AstGraph
import CodeIntel.Graphstore.AcceptedInserts
import CodeIntel.Indexer.GraphPasses
import CodeIntel.Indexer.ManifestRoots
import CodeIntel.Indexer.PlanAgreement
import CodeIntel.Indexer.RenderedGraph
import CodeIntel.Indexer.ScipOutputs
import CodeIntel.LlmGateway.RequestRuns
import CodeIntel.Planner.TypeScriptRoots
import CodeIntel.Repos.Resync
import CodeIntel.Scheduler.ActiveJobs
import CodeIntel.Scip.SettledStatus
import CodeIntel.Scip.UntouchedProjects
import CodeIntel.Search.Confinement
import CodeIntel.Subjobs.DispatchLock
import CodeIntel.Subjobs.DispatchProgress
import CodeIntel.Subjobs.FailurePropagation
