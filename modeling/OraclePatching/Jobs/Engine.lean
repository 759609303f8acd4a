import OraclePatching.Controller.Control
import OraclePatching.Lib.Directory

/-!
# `Jobs.Engine` — the job engine of `lib/opu/jobs.sh`

A job is a directory: the sealed plan, the state file and one file for each task. `start` changes the state and then
creates the task files one after the other, each of them empty until its record is written; `complete` decides whether
the job has succeeded by scanning the files that are there. Every command is the list of its durable writes, in the
order of the source; a process that is killed has carried out a prefix of them, and so has a `start` that a file
system refuses a write (`set -e`).
-/

namespace OraclePatching.Jobs

/-! ## Records -/

inductive Topology where
  | gridRolling
  | databaseRolling
  deriving DecidableEq, Repr

/-- `plan.json` without its digest. -/
structure PlanBody where
  topology : Topology
  database : Option String
  gridHome : Option String
  patchId : String
  patchDirectory : String
  nodes : List String
  requester : String

structure Plan extends PlanBody where
  planSha256 : Digest

inductive JobState where
  | draft
  | prechecking
  | awaitingApproval
  | scheduled
  | running
  | paused
  | succeeded
  deriving DecidableEq, Repr

def JobState.text : JobState → String
  | .draft => "draft"
  | .prechecking => "prechecking"
  | .awaitingApproval => "awaiting_approval"
  | .scheduled => "scheduled"
  | .running => "running"
  | .paused => "paused"
  | .succeeded => "succeeded"

structure Task where
  taskId : String
  jobId : String
  stage : String
  node : String
  status : TaskStatus
  claimedBy : Option String
  claimedAtEpoch : Option Int
  leaseExpiresEpoch : Option Int
  reconciledAtEpoch : Option Int
  evidenceSha256 : Option String
  completedAtEpoch : Option Int

/-- `tasks/ID.json`: empty, or a record. -/
structure TaskFile where
  taskId : String
  record : Option Task

/-- A job directory. -/
structure Job where
  jobId : String
  plan : Plan
  state : JobState
  tasks : Directory TaskFile.taskId

/-- What one invocation meets. `lockFree` tells whether the lock of the job comes free in time. -/
structure World where
  now : Int
  lockFree : Bool

variable (hash : PlanBody → Digest)

/-! ## Creating a job -/

/-- `[[:space:]]` in the C locale. -/
def isSpace (c : Char) : Bool := c == ' ' || c == '\t' || c == '\n' || c == '\x0b' || c == '\x0c' || c == '\r'

/-- A line of the node file without its comment and its blanks. -/
def nodeOfLine (line : String) : String :=
  String.ofList ((line.toList.takeWhile (· != '#')).filter fun c => !isSpace c)

/-- `^[A-Za-z0-9][A-Za-z0-9.-]{0,252}$`. -/
def nodeShape (node : String) : Bool :=
  match node.toList with
  | [] => false
  | c :: cs => c.isAlphanum && cs.all (fun c => c.isAlphanum || c == '.' || c == '-') && cs.length ≤ 252

/-- `opu_job_read_nodes`, with the nodes read so far. -/
def readNodes (nodes : List String) : List String → Ctl (List String)
  | [] => do
      ensure (nodes ≠ []) 64 "node file has no usable nodes"
      .ok nodes
  | line :: lines =>
      if nodeOfLine line = "" then readNodes nodes lines
      else do
        ensure (nodeShape (nodeOfLine line) = true) 64 ("invalid node name: " ++ nodeOfLine line)
        readNodes (if nodeOfLine line ∈ nodes then nodes else nodes ++ [nodeOfLine line]) lines

/-- `^(grid-rolling|database-rolling)$`. -/
def topologyOf (text : String) : Option Topology :=
  if text = "grid-rolling" then some .gridRolling
  else if text = "database-rolling" then some .databaseRolling
  else none

/-- `^[0-9]{1,20}$`. -/
def validPatchId (text : String) : Bool :=
  text.toList.all Char.isDigit && decide (1 ≤ text.toList.length ∧ text.toList.length ≤ 20)

/-- `opu_job_create`: the directory of a new job. -/
def create (jobId requester topology database gridHome patchId patchDir : String) (nodeFile : List String) :
    Ctl Job := do
  opuValidateIdentifier jobId "job ID"
  opuValidateIdentifier requester "requester"
  let kind ← need (topologyOf topology) 64 ("unsupported topology: " ++ topology)
  ensure (validPatchId patchId = true) 64 "patch ID must be numeric"
  opuValidateAbsolutePath patchDir "patch directory"
  match kind with
  | .databaseRolling => do
      opuValidateIdentifier database "database"
      opuValidateAbsolutePath gridHome "Grid home"
      let nodes ← readNodes [] nodeFile
      let body : PlanBody := ⟨kind, some database, some gridHome, patchId, patchDir, nodes, requester⟩
      .ok ⟨jobId, ⟨body, hash body⟩, .draft, Directory.empty⟩
  | .gridRolling => do
      let nodes ← readNodes [] nodeFile
      let body : PlanBody := ⟨kind, none, none, patchId, patchDir, nodes, requester⟩
      .ok ⟨jobId, ⟨body, hash body⟩, .draft, Directory.empty⟩

/-! ## The planned tasks -/

/-- A task file as `start` writes it. -/
def newTask (jobId taskId stage node : String) : Task :=
  ⟨taskId, jobId, stage, node, .pending, none, none, none, none, none, none⟩

/-- `apply` and `validate` of every node, numbered after `index`. -/
def nodeTasks (jobId : String) : Nat → List String → List Task
  | _, [] => []
  | index, node :: nodes =>
      newTask jobId (taskIdOf (index + 1) "apply" node) "apply" node ::
        newTask jobId (taskIdOf (index + 2) "validate" node) "validate" node ::
          nodeTasks jobId (index + 2) nodes

/-- `printf '%03d-datapatch-cluster'` and `printf '%03d-validate-database'`. -/
def clusterTasks (jobId : String) (index : Nat) : List Task :=
  [newTask jobId (taskIdOf (index + 1) "datapatch" "cluster") "datapatch" "cluster",
    newTask jobId (taskIdOf (index + 2) "validate" "database") "validate-database" "cluster"]

/-- The tasks `start` creates, in its order. -/
def plannedTasks (jobId : String) (plan : PlanBody) : List Task :=
  nodeTasks jobId 0 plan.nodes ++
    match plan.topology with
    | .databaseRolling => clusterTasks jobId (2 * plan.nodes.length)
    | .gridRolling => []

/-! ## Writes -/

/-- One durable write. `state` is `opu_job_transition`, which reads the plan and the state again before its rename;
    `side` is a file that no command decides on: events, evidence, the name of the approver, temporary files. -/
inductive Write where
  | side
  | state (expected next : JobState)
  | file (f : TaskFile)

def Plan.intact (plan : Plan) : Prop := plan.planSha256 = hash plan.toPlanBody

instance (plan : Plan) : Decidable (plan.intact hash) := inferInstanceAs (Decidable (_ = _))

/-- The effect of a write; a transition may be refused. -/
def exec (job : Job) : Write → Option Job
  | .side => some job
  | .state expected next =>
      if job.plan.intact hash ∧ job.state = expected then some { job with state := next } else none
  | .file f => some { job with tasks := job.tasks.put f }

def transition (expected next : JobState) : List Write := [.state expected next, .side]

/-! ## Commands -/

/-- `opu_job_read_state`. -/
def readState (job : Job) : Ctl JobState := do
  ensure (job.plan.intact hash) 74 ("job plan integrity verification failed: " ++ job.jobId)
  .ok job.state

def lock (w : World) (job : Job) : Ctl Unit :=
  ensure (w.lockFree = true) 75 ("timed out waiting for job lock: " ++ job.jobId)

def submit : Ctl (List Write) := .ok (transition .draft .prechecking)

def ready (evidence : String) : Ctl (List Write) := do
  ensure (sha256Shape evidence = true) 64 "evidence digest must be a SHA-256 hex value"
  .ok (.side :: transition .prechecking .awaitingApproval)

def approve (w : World) (job : Job) (actor : String) : Ctl (List Write) := do
  opuValidateIdentifier actor "approver"
  lock w job
  ensure (actor ≠ job.plan.requester) 77 "requester cannot approve their own job"
  .ok (.side :: transition .awaitingApproval .scheduled)

/-- The two steps of `printf … >"$task_file"`. -/
def createTask (t : Task) : List Write := [.file ⟨t.taskId, none⟩, .file ⟨t.taskId, some t⟩]

def start (w : World) (job : Job) : Ctl (List Write) := do
  lock w job
  .ok (transition .scheduled .running ++ (plannedTasks job.jobId job.plan.toPlanBody).flatMap createTask ++ [.side])

/-- A record that carries the status; an empty file carries none. -/
def TaskFile.is (f : TaskFile) (status : TaskStatus) : Bool := f.record.any fun t => t.status == status

/-- `tasks/*.json` in byte order. -/
def globFiles (job : Job) : List TaskFile :=
  job.tasks.files.insertionSort fun a b => a.taskId ++ ".json" ≤ b.taskId ++ ".json"

def claim (w : World) (job : Job) (actor lease : String) : Ctl (List Write) := do
  opuValidateIdentifier actor "actor"
  ensure (leaseAllowed lease) 64 "lease seconds must be between 30 and 3600"
  lock w job
  let state ← readState hash job
  ensure (state = .running) 65 "job is not running"
  let seconds ← need (arithmeticValue lease) 1 ""
  ensure ((job.tasks.files.any fun f => f.is .running) = false) 65
    "a rolling task is already running; wait for its evidence or reconcile its lease"
  ensure ((job.tasks.files.any fun f => f.is .unknown) = false) 65
    "job has an unknown task; reconcile or recover before claiming"
  let f ← need ((globFiles job).find? fun f => f.is .pending) 66 ""
  let t ← need f.record 66 ""
  .ok [.side,
    .file ⟨f.taskId, some
      { t with
        status := .running
        claimedBy := some actor
        claimedAtEpoch := some w.now
        leaseExpiresEpoch := some (w.now + seconds) }⟩,
    .side]

/-- A running task whose lease is over. -/
def TaskFile.expired (f : TaskFile) (now : Int) : Bool :=
  f.is .running && f.record.any fun t => decide (t.leaseExpiresEpoch.getD 0 ≤ now)

def reconcile (w : World) (job : Job) : Ctl (List Write) := do
  lock w job
  let state ← readState hash job
  ensure (state = .running) 65 "job is not running"
  let f ← need ((globFiles job).find? fun f => f.expired w.now) 66 ""
  let t ← need f.record 66 ""
  .ok ([.side, .file ⟨f.taskId, some { t with status := .unknown, reconciledAtEpoch := some w.now }⟩] ++
    transition .running .paused ++ [.side])

/-- What `complete` does after it has recorded a success, by a scan of the task files. -/
def afterSuccess (files : List TaskFile) : List Write :=
  if files.any fun f => f.is .unknown then transition .running .paused
  else if files.any fun f => f.is .pending then []
  else if files.any fun f => f.record.any fun t => t.status != .succeeded then transition .running .paused
  else transition .running .succeeded

def complete (w : World) (job : Job) (taskId actor : String) (status : TaskStatus) (evidence : String) :
    Ctl (List Write) := do
  opuValidateIdentifier taskId "task ID"
  ensure (status = .succeeded ∨ status = .failed) 64 "task status must be succeeded or failed"
  ensure (sha256Shape evidence = true) 64 "evidence digest must be a SHA-256 hex value"
  lock w job
  let state ← readState hash job
  ensure (state = .running) 65 "job is not running"
  let f ← need (job.tasks.get? taskId) 66 "task does not exist"
  ensure ((f.record.bind (·.claimedBy)).getD "" = actor) 77 ("task is not claimed by actor " ++ actor)
  -- an empty file prints no expiry, and the comparison fails
  let t ← need f.record 75 "task lease expired; reconcile before retrying"
  ensure (w.now < t.leaseExpiresEpoch.getD 0) 75 "task lease expired; reconcile before retrying"
  ensure (t.status = .running) 65 "task is not running"
  let done : TaskFile :=
    ⟨taskId, some
      { t with status := status, evidenceSha256 := some evidence, completedAtEpoch := some w.now }⟩
  .ok ([.side, .file done] ++
    if status = .failed then transition .running .paused
    else .side :: afterSuccess (job.tasks.put done).files)

/-! ## Runs -/

inductive Command where
  | submit
  | ready (evidence : String)
  | approve (actor : String)
  | start
  | claim (actor lease : String)
  | reconcile
  | complete (taskId actor : String) (status : TaskStatus) (evidence : String)

/-- One process; `killedAfter k` has carried out `k` writes. -/
structure Invocation where
  command : Command
  world : World
  killedAfter : Option Nat

def script (job : Job) (i : Invocation) : Ctl (List Write) :=
  match i.command with
  | .submit => submit
  | .ready evidence => ready evidence
  | .approve actor => approve i.world job actor
  | .start => start i.world job
  | .claim actor lease => claim hash i.world job actor lease
  | .reconcile => reconcile hash i.world job
  | .complete taskId actor status evidence => complete hash i.world job taskId actor status evidence

/-- The writes the process gets to. -/
def Invocation.reached (i : Invocation) (ws : List Write) : List Write :=
  match i.killedAfter with
  | none => ws
  | some k => ws.take k

/-- The job an invocation leaves. -/
def after (job : Job) (i : Invocation) : Job :=
  match script hash job i with
  | .error _ => job
  | .ok ws => (Trace.perform (exec hash) job (i.reached ws)).1

/-- The job is one that `create` has made. -/
def Created (job : Job) : Prop :=
  ∃ jobId requester topology database gridHome patchId patchDir nodeFile,
    create hash jobId requester topology database gridHome patchId patchDir nodeFile = .ok job

/-- Runs that begin in some jobs, with allowed invocations. -/
def Reached (first : Job → Prop) (allowed : Job → Invocation → Prop) : List Invocation → Job → Prop :=
  Trace.Run (fun job i => some (after hash job i)) first allowed

end OraclePatching.Jobs
