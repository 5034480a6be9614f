import Centroid.Lib.Rounding
import Centroid.Lib.Binary64
import Centroid.Lib.FloatOps
import Centroid.Lib.FloatBounds
import Centroid.Lib.WeightedMean
import Centroid.Lib.StableSort
import Centroid.Lib.Dict
import Centroid.Lib.Value
import Centroid.Lib.Files
import Centroid.Lib.Window
import Centroid.Lib.Statistics
import Centroid.Lib.RunningMean
import Centroid.Lib.Smoothing
import Centroid.Lib.ValuePath
import Centroid.Lib.PosixPath
import Centroid.Lib.FileTree
import Centroid.Lib.Json
import Centroid.Lib.Chase
import Centroid.Config.AgentConfig
import Centroid.Config.ConfigLoader
import Centroid.Config.MergedPaths
import Centroid.Config.ParsedSettings
import Centroid.Config.ChildSettings
import Centroid.Config.ExtendsChain
import Centroid.Config.CircularInheritance
import Centroid.Runtime.SecretPatterns
import Centroid.Runtime.ConfiguredSafety
import Centroid.Runtime.ProviderProposals
import Centroid.Runtime.ArgumentSecrets
import Centroid.Runtime.SafetyPolicy
import Centroid.Runtime.SafetyDecisions
import Centroid.Lib.Dataflow
import Centroid.Coherence.GraphLoader
import Centroid.Coherence.Propagation
import Centroid.Coherence.KahnOrder
import Centroid.Coherence.EdgeApplications
import Centroid.Coherence.ForwardValue
import Centroid.Coherence.AppliedOnce
import Centroid.Coherence.Composition
import Centroid.Coherence.DoOperator
import Centroid.Coherence.CoherenceIndex
import Centroid.Coherence.CoherenceGraph
import Centroid.Coherence.Simulate
import Centroid.Coherence.IndexBounds
import Centroid.Coherence.Monotone
import Centroid.Lib.FloatMean
import Centroid.Coherence.ReportOrder
import Centroid.Coherence.CallSiteClamp
import Centroid.Simulation.TwinBuffer
import Centroid.Simulation.Intervention
import Centroid.Simulation.PathLaws
import Centroid.Simulation.Divergence
import Centroid.Simulation.SafetyPreflight
import Centroid.Simulation.PreflightSampling
import Centroid.Simulation.PreflightCoherence
import Centroid.SelfModel.Telemetry
import Centroid.SelfModel.Model
import Centroid.SelfModel.Registration
import Centroid.SelfModel.ZScores
import Centroid.SelfModel.AnomalyWindows
import Centroid.SelfModel.AnomalyCount
import Centroid.Planner.Calibration
import Centroid.Planner.Forecast
import Centroid.Planner.PlanTree
import Centroid.Planner.FeedbackLoop
import Centroid.Lib.LoadLoop
import Centroid.Planner.StateLoading
import Centroid.Daemon.Cycle
import Centroid.Daemon.Scheduler
import Centroid.Daemon.StopRequests
import Centroid.Lib.Faulty
import Centroid.Daemon.CycleSteps
import Centroid.Daemon.FaultIsolation
import Centroid.Planner.FeedbackRuns
import Centroid.Planner.ResolutionTiming
import Centroid.Daemon.ForecastTiming
import Centroid.Planner.AllOrNothing
import Centroid.Planner.Reopening
import Centroid.Planner.Restarts
import Centroid.Planner.PlanLifecycle
import Centroid.Planner.FailedWrites
import Centroid.Planner.CalibrationHistory
import Centroid.Planner.RecordBounds
import Centroid.Planner.MeanDrift
import Centroid.Planner.Predictions
import Centroid.Planner.ActiveConfidence
import Centroid.Planner.LinkedConfidence
import Centroid.Planner.FilledObservations
import Centroid.Daemon.FailedSelfModel
import Centroid.Lib.JsonText
import Centroid.Lib.TextLines
import Centroid.Memory.Event
import Centroid.Memory.TfidfIndex
import Centroid.Memory.Retrieval
import Centroid.Memory.MemoryPyramid
import Centroid.Memory.Store
import Centroid.Memory.RankedItems
import Centroid.Memory.AlikeEntries
import Centroid.Memory.Rebuild
import Centroid.Memory.TailLimit
import Centroid.Memory.MetadataInterference
import Centroid.Memory.MetadataSeen
import Centroid.Runtime.ConfiguredMemory
import Centroid.Runtime.MemoryRedaction
import Centroid.Memory.Compaction
import Centroid.Memory.EmbeddingCache
import Centroid.Memory.RankedSearch
import Centroid.Memory.StaleIdf
import Centroid.Coherence.SnapshotTick
import Centroid.Lib.FloatArith
import Centroid.Runtime.ConfiguredPriority
import Centroid.Runtime.AcceptedConfigs
import Centroid.Coherence.GraphDocuments
import Centroid.Coherence.LoaderPromise
import Centroid.Lib.LeastSquares
import Centroid.Simulation.DivergenceRuns
import Centroid.Config.ConfigChains
import Centroid.Config.SharedObjects
import Centroid.Config.ConfigDocuments
import Centroid.Runtime.ConfigDecisions
import Centroid.Runtime.PriorityMonotone
import Centroid.Runtime.RedactedFields
import Centroid.Lib.Jaccard
import Centroid.Identity.Model
import Centroid.Providers.RawValues
import Centroid.Providers.ResponseNormalization
import Centroid.Providers.NormalizationFaults
import Centroid.Lib.Redaction
import Centroid.Lib.RewriteScan
import Centroid.Lib.RewriteTwice
import Centroid.Lib.RewriteOrigins
import Centroid.Providers.ErrorSanitization
import Centroid.Providers.BearerScan
import Centroid.Providers.AssignmentScan
import Centroid.Providers.HiddenSecrets
import Centroid.Fusion.ConceptGraph
import Centroid.Fusion.BridgeDetector
import Centroid.Fusion.FilteredConcepts
import Centroid.Fusion.BridgeCandidates
import Centroid.Lib.SparseVectors
import Centroid.Memory.WeightedTerms
import Centroid.Sensory.LatentProjector
import Centroid.Lib.JoinedNames
import Centroid.Sensory.SensoryEncoder
import Centroid.Evaluation.Harness
import Centroid.SelfModel.TrendSlope
import Centroid.Evaluation.SuiteVerdict
import Centroid.Lib.FixedText
import Centroid.Sensory.TelemetryEncoder
import Centroid.Sensory.CodeEncoder
import Centroid.Sensory.SensoryPipeline
import Centroid.SelfModel.TickFaults
import Centroid.Daemon.CentroidDaemon
import Centroid.Daemon.Backlog
import Centroid.Daemon.Sessions
import Centroid.Daemon.SnapshotFlow
import Centroid.Daemon.ContinuousRun
import Centroid.Coherence.HotReload
import Centroid.Providers.ProviderConfig
import Centroid.Providers.LiveCalls
import Centroid.Runtime.Scenarios
import Centroid.Runtime.ScenarioRuns
import Centroid.Runtime.ScenarioResults
import Centroid.Runtime.PlainRouting
import Centroid.Fusion.Synthesis
import Centroid.Fusion.SynthesisRuns
