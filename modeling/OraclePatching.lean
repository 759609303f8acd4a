import OraclePatching.Lib.Decimal
import OraclePatching.Lib.Frontier
import OraclePatching.Lib.Json
import OraclePatching.Lib.Shell
import OraclePatching.Lib.Trace
import OraclePatching.Lib.Directory
import OraclePatching.Lib.Separated
import OraclePatching.Lib.Names
import OraclePatching.Lib.Processes
import OraclePatching.Lib.Path
import OraclePatching.Common
import OraclePatching.Controller.Accepted
import OraclePatching.Controller.Control
import OraclePatching.Controller.Custody
import OraclePatching.Controller.Effects
import OraclePatching.Controller.Evidence
import OraclePatching.Controller.Records
import OraclePatching.Controller.Replay
import OraclePatching.Controller.Reservation
import OraclePatching.Controller.Rollback
import OraclePatching.Controller.Runs
import OraclePatching.Controller.Seal
import OraclePatching.Controller.Stages
import OraclePatching.Controller.Writes
import OraclePatching.Queue.Jobs
import OraclePatching.Queue.Runs
import OraclePatching.Agent.Bindings
import OraclePatching.Agent.Runs
import OraclePatching.Agent.Journal
import OraclePatching.Agent.Completions
import OraclePatching.Pipeline.Runner
import OraclePatching.Web.Principals
import OraclePatching.Web.Requests
import OraclePatching.Correctness.AttemptHistory
import OraclePatching.Correctness.CustodyRoundTrip
import OraclePatching.Correctness.DispatchOrder
import OraclePatching.Correctness.DrainRoundTrip
import OraclePatching.Correctness.FailureStop
import OraclePatching.Correctness.Interruption
import OraclePatching.Correctness.SeparationOfDuties
import OraclePatching.Correctness.SerialOrder
import OraclePatching.Correctness.QueueOrder
import OraclePatching.Correctness.RetryEligibility
import OraclePatching.Correctness.SingleWorker
import OraclePatching.Correctness.AgentIdempotency
import OraclePatching.Correctness.QueueFencing
import OraclePatching.Correctness.ActorAttribution
import OraclePatching.Lib.Cut
import OraclePatching.Lib.Jq
import OraclePatching.Lib.Words
import OraclePatching.Readiness.Gates
import OraclePatching.Correctness.GateEncoding
import OraclePatching.DataGuard.Observation
import OraclePatching.DataGuard.Evaluate
import OraclePatching.DataGuard.Order
import OraclePatching.Correctness.LagGate
import OraclePatching.Correctness.StandbyPartition
import OraclePatching.Correctness.StandbyOrder
import OraclePatching.DataGuard.Parser
import OraclePatching.Correctness.LagParser
import OraclePatching.Recovery.Requests
import OraclePatching.Recovery.Execution
import OraclePatching.Recovery.Runs
import OraclePatching.Correctness.RecoveryInterruption
import OraclePatching.Jobs.Engine
import OraclePatching.Correctness.JobSuccess
import OraclePatching.Correctness.RetryPublication
import OraclePatching.Correctness.LeaseLaw
import OraclePatching.Correctness.EvidenceClosedWorld
import OraclePatching.Correctness.JobRefusal
import OraclePatching.Correctness.OratabRoundTrip
import OraclePatching.Correctness.MediaExtraction
import OraclePatching.Correctness.OpatchReplacement
import OraclePatching.Correctness.JobIdentity
import OraclePatching.Artifact.Inspection
import OraclePatching.Correctness.JsonRoundTrip
import OraclePatching.Correctness.ArtifactIdentity
import OraclePatching.Lib.Observed
import OraclePatching.Recovery.Services
import OraclePatching.Recovery.Sites
import OraclePatching.Correctness.RecoveryHonesty
import OraclePatching.Controller.TaskLock
import OraclePatching.Controller.Locked
import OraclePatching.Correctness.TaskLockExclusion
import OraclePatching.Compatibility.Reconcile
import OraclePatching.Correctness.CompatibilitySoundness
import OraclePatching.Readiness.Snapshots
import OraclePatching.Correctness.SnapshotReconciliation
import OraclePatching.Lib.Regex
import OraclePatching.Hints.Readme
import OraclePatching.Correctness.RequirementExtraction
import OraclePatching.Lib.Interleave
import OraclePatching.Controller.Interleaving
import OraclePatching.Correctness.ReservationExclusion
import OraclePatching.Lib.ShellWords
import OraclePatching.Web.Remote
import OraclePatching.Correctness.RemoteArgv
