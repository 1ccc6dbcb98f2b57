import BoulderFrame.Analysis.Association
import BoulderFrame.Analysis.Evidence
import BoulderFrame.Analysis.HeldBoxes
import BoulderFrame.Analysis.Measurement
import BoulderFrame.Analysis.SamplingGrid
import BoulderFrame.Analysis.ShotAnalysis
import BoulderFrame.Backend.ConfirmedSource
import BoulderFrame.Backend.Evaluation
import BoulderFrame.Backend.EvaluationManifest
import BoulderFrame.Backend.EvaluationScope
import BoulderFrame.Backend.JobRequests
import BoulderFrame.Backend.ManifestText
import BoulderFrame.Backend.MigrateRuns
import BoulderFrame.Backend.SourceUpload
import BoulderFrame.Debug.Canonical
import BoulderFrame.Debug.Kept
import BoulderFrame.Debug.Sanitize
import BoulderFrame.Debug.Telemetry
import BoulderFrame.Detector.Yolo
import BoulderFrame.Domain.State
import BoulderFrame.Evaluation.AcceptedFiles
import BoulderFrame.Evaluation.Annotations
import BoulderFrame.Evaluation.CarriedTrace
import BoulderFrame.Evaluation.DebugBundle
import BoulderFrame.Evaluation.LoadedFrame
import BoulderFrame.Evaluation.Metrics
import BoulderFrame.Evaluation.Overlap
import BoulderFrame.Evaluation.PublishedBundle
import BoulderFrame.Evaluation.PublishedReport
import BoulderFrame.Evaluation.Reports
import BoulderFrame.Evaluation.Summary
import BoulderFrame.Framing.AxisOptimum
import BoulderFrame.Framing.LookaheadAxes
import BoulderFrame.Framing.LookaheadOptimum
import BoulderFrame.Framing.LookaheadSafety
import BoulderFrame.Framing.LookaheadTotal
import BoulderFrame.Framing.MotionFlags
import BoulderFrame.Framing.Renderable
import BoulderFrame.Framing.SeedWidening
import BoulderFrame.Framing.Settling
import BoulderFrame.Frontend.EvaluationResponse
import BoulderFrame.Library.Decode
import BoulderFrame.Library.Image
import BoulderFrame.Library.Json
import BoulderFrame.Library.JsonFile
import BoulderFrame.Library.KeyedTable
import BoulderFrame.Library.Routine
import BoulderFrame.Library.Runs
import BoulderFrame.Library.ThreadPool
import BoulderFrame.Library.Value
import BoulderFrame.Library.WatchedStore
import BoulderFrame.Media.Metadata
import BoulderFrame.Media.PixelCrop
import BoulderFrame.Media.ProbeTotality
import BoulderFrame.Media.Process
import BoulderFrame.Media.ProcessRuns
import BoulderFrame.Media.Progress
import BoulderFrame.Media.RenderWorld
import BoulderFrame.Media.RenderedOutput
import BoulderFrame.Media.Renderer
import BoulderFrame.Pipeline.AcceptedManifest
import BoulderFrame.Pipeline.AnalysisReport
import BoulderFrame.Pipeline.AnalysisTrace
import BoulderFrame.Pipeline.AttemptDirectory
import BoulderFrame.Pipeline.AvailableReview
import BoulderFrame.Pipeline.ClockChecks
import BoulderFrame.Pipeline.CropPath
import BoulderFrame.Pipeline.DebugFiles
import BoulderFrame.Pipeline.FailedReview
import BoulderFrame.Pipeline.PreparedInputs
import BoulderFrame.Pipeline.PublishDebug
import BoulderFrame.Pipeline.RenderCache
import BoulderFrame.Pipeline.ReportCounts
import BoulderFrame.Pipeline.ReportMotion
import BoulderFrame.Pipeline.ResumedAttempts
import BoulderFrame.Pipeline.ReviewFrame
import BoulderFrame.Pipeline.ReviewManifest
import BoulderFrame.Pipeline.Scratch
import BoulderFrame.Pipeline.ScratchWorld
import BoulderFrame.Pipeline.TelemetryRoom
import BoulderFrame.Pipeline.WarningIntervals
import BoulderFrame.Queue.Adapter
import BoulderFrame.Queue.Delivery
import BoulderFrame.Queue.Transport
import BoulderFrame.Repository.InMemory
import BoulderFrame.Repository.Output
import BoulderFrame.Repository.Ownership
import BoulderFrame.Repository.Reference
import BoulderFrame.Repository.Review
import BoulderFrame.Worker.Attempts
import BoulderFrame.Worker.Outcome
import BoulderFrame.Worker.StoredOutput
import BoulderFrame.Worker.World
