import JobGraph.Main
import JobGraph.Rehearsal.Script
import JobGraph.Rehearsal.Solo
import JobGraph.Proofs.Containers
import JobGraph.Proofs.StateMaps
import JobGraph.Proofs.Run.History
import JobGraph.Proofs.DependencyOrder
import JobGraph.Proofs.Run.Course
import JobGraph.Proofs.Run.Stages
import JobGraph.Proofs.Run.Records
import JobGraph.Proofs.Run.Dependencies
import JobGraph.Proofs.Run.DependencySafety
import JobGraph.Proofs.Run.Forecast
import JobGraph.Proofs.Run.Attempts
import JobGraph.Proofs.Run.ScheduleIndependence
import JobGraph.Proofs.Run.Ledger
import JobGraph.Proofs.Run.Checkpoints
import JobGraph.Proofs.Run.Permits
import JobGraph.Proofs.Run.Concurrency
import JobGraph.Proofs.Run.Work
import JobGraph.Proofs.Run.Progress
import JobGraph.Proofs.Run.Resume
import JobGraph.Proofs.Run.Moves
import JobGraph.Proofs.Run.Lifecycle
import JobGraph.Proofs.Run.Stopping
import JobGraph.Proofs.Run.Observers
import JobGraph.Proofs.Run.Delivery
import JobGraph.Proofs.Run.Conclusion
import JobGraph.Proofs.Run.LastCheckpoint
import JobGraph.Proofs.Run.Merges
import JobGraph.Proofs.Run.Visibility
import JobGraph.Proofs.Run.ClosedCheckpoints
import JobGraph.Proofs.Run.Termination
import JobGraph.Proofs.Number.Rounding
import JobGraph.Proofs.Number.ShortestDecimal
import JobGraph.Proofs.Json.Numerals
import JobGraph.Proofs.Json.Strings
import JobGraph.Proofs.Json.ReadBack
import JobGraph.Proofs.Worker.Frames
import JobGraph.Proofs.Calendar.Timestamps
import JobGraph.Proofs.Checkpoint.Codec
import JobGraph.Proofs.Run.ResumableCheckpoints
import JobGraph.Proofs.Worker.StoredValues
import JobGraph.Proofs.Json.OneLine
import JobGraph.Proofs.Worker.Readings
import JobGraph.Proofs.Worker.Streams
import JobGraph.Proofs.Worker.Deeds
import JobGraph.Proofs.Worker.Reports
import JobGraph.Proofs.Worker.FrameStreams
import JobGraph.Proofs.Worker.AbortRace
import JobGraph.Proofs.Checkpoint.AtomicWrites
import JobGraph.Proofs.Checkpoint.Digests
import JobGraph.Proofs.Checkpoint.Neighbours
import JobGraph.Proofs.Checkpoint.StandIn
import JobGraph.Proofs.Job.Times
import JobGraph.Proofs.CommandLine.Limits
import JobGraph.Proofs.Run.Watches
import JobGraph.Proofs.Graph.Cycles
import JobGraph.Proofs.Graph.Acceptance
import JobGraph.Proofs.Graph.ReverseEdges
import JobGraph.Proofs.Graph.Walks
import JobGraph.Proofs.Graph.Selections
import JobGraph.Proofs.Checkpoint.RestartPlans
import JobGraph.Proofs.Run.Verdicts
import JobGraph.Proofs.Run.Diary
import JobGraph.Proofs.Run.Retries
import JobGraph.Proofs.Run.Ranges
import JobGraph.Proofs.Worker.HookSequence
import JobGraph.Proofs.Worker.TaskStores
import JobGraph.Proofs.Worker.LineShares
import JobGraph.Proofs.Run.GateAccounts
import JobGraph.Proofs.Run.StatePartition
import JobGraph.Proofs.Number.Seconds
import JobGraph.Proofs.Job.Requirements
import JobGraph.Proofs.Worker.Construction
import JobGraph.Proofs.Json.Parts
import JobGraph.Proofs.Checkpoint.Authenticity
