import Mathlib.Data.List.Infix
import OraclePatching.Lib.Directory
import OraclePatching.Controller.Control

/-!
# `Queue.Jobs` — the pull-agent work queue of `webapp/agent_queue.py`

A job is one file of the queue directory, and every operation works on these files under the queue lock. What it does
between taking the lock and giving it back is a critical section: a function from the queue to the queue it leaves
and to what it returns or raises. `claim`, `extendLease` and `requireReconciliation` are one section each;
`defer_pending`, `complete` and `reconcile` give the lock back to ask the native controller, so they are two
sections (`openCall`, `closeCall`) with `verifyCall` between them.

Readings of the clock, the verdict of the enrolment check and the token a claim draws are arguments.
-/

namespace OraclePatching

/-- `[A-Za-z0-9][A-Za-z0-9._:-]{0,127}`. -/
def queueIdentifier (value : String) : Bool :=
  match value.toList with
  | [] => false
  | c :: cs => c.isAlphanum && cs.all identifierChar && decide (cs.length ≤ 127)

namespace Queue

/-! ## Jobs -/

inductive JobStatus where
  | queued
  | claimed
  | running
  | completed
  | reconciliationRequired
  deriving DecidableEq, Repr

/-- `{"claimed", "running", "reconciliation_required"}`. -/
def JobStatus.active : JobStatus → Bool
  | .claimed | .running | .reconciliationRequired => true
  | _ => false

/-- `{"claimed", "running"}`. -/
def JobStatus.leased : JobStatus → Bool
  | .claimed | .running => true
  | _ => false

/-- `.result`: the fields an agent supplied, and the status and sealed task that were put over them. -/
structure JobResult where
  supplied : List (String × Json)
  verified : Option (String × Task)

/-- `.result.status`. -/
def JobResult.status (r : JobResult) : Json :=
  match r.verified with
  | some (status, _) => .str status
  | none => (r.supplied.lookup "status").getD .null

/-- A job file. The payload, of which `publish_task` reads the attempt, travels along unread. -/
structure Job where
  jobId : String
  planId : String
  taskId : String
  node : String
  adapter : String
  attempt : Nat
  status : JobStatus
  claimGeneration : Nat
  claimedBy : Option String
  leaseExpiresEpoch : Option Int
  claimTokenSha256 : Option Digest
  createdAtEpoch : Int
  updatedAtEpoch : Int
  reason : Option String
  result : Option JobResult
  reconciledBy : Option String

abbrev Jobs := Directory Job.jobId

/-- The queue directory: `jobs/` and `history/ID/attempt-N.json`. -/
structure QueueDir where
  jobs : Jobs
  history : Directory fun job : Job => (job.jobId, job.attempt)

def QueueDir.put (q : QueueDir) (job : Job) : QueueDir := { q with jobs := q.jobs.put job }

/-! ## Names -/

def identifier (value label : String) : Ctl Unit :=
  ensure (queueIdentifier value = true) 400 ("invalid " ++ label)

/-- `[A-Za-z0-9][A-Za-z0-9._:-]{0,249}` without two dots in a row. -/
def jobIdShape (jobId : String) : Bool :=
  match jobId.toList with
  | [] => false
  | c :: cs => c.isAlphanum && cs.all identifierChar && decide (cs.length ≤ 249) &&
      !decide (['.', '.'] <:+: jobId.toList)

def jobPath (jobId : String) : Ctl Unit :=
  ensure (jobIdShape jobId = true) 400 ("invalid job_id: '" ++ jobId ++ "'")

def readJob (q : QueueDir) (jobId : String) : Ctl Job :=
  need (q.jobs.get? jobId) 404 "job is missing or symbolic link"

/-- The keys of `EXECUTOR_PATHS`. -/
def executorAdapters : List Adapter :=
  [.databaseSingleInstanceOpatch, .databaseSingleInstanceOpatchRollback, .databaseRollingOpatch,
    .databaseRacOpatchRollback, .gridRollingOpatch, .gridRollingOpatchRollback, .gridRollingOpatchauto,
    .gridRollingOpatchautoRollback, .databaseOjvmOpatch, .databaseOjvmOpatchRollback, .databaseOutOfPlaceSwitch,
    .databaseOutOfPlaceSwitchback]

/-- Argument checks in front of a critical section. -/
def checked {α : Type} (check : Ctl Unit) (q : QueueDir) (critical : QueueDir × Ctl α) : QueueDir × Ctl α :=
  match check with
  | .error e => (q, .error e)
  | .ok () => critical

/-! ## Publication -/

def jobIdOf (planId taskId : String) : String := planId ++ "__" ++ taskId

/-- What `publish_task` finds: the job as it is, no job yet, or a completed earlier attempt. -/
inductive Publication where
  | kept (old : Job)
  | fresh
  | retry (old : Job)

def publication (q : QueueDir) (planId taskId node adapter : String) (attempt : Nat) : Ctl Publication :=
  match q.jobs.get? (jobIdOf planId taskId) with
  | none => .ok .fresh
  | some old => do
      ensure (old.node = node ∧ old.adapter = adapter ∧ old.planId = planId ∧ old.taskId = taskId) 409
        "existing job cannot be rebound"
      if old.attempt = attempt then .ok (.kept old)
      else do
        ensure (old.status = .completed ∧ attempt = old.attempt + 1) 409
          "reconcile previous attempt before publishing a retry"
        ensure ((q.history.get? (old.jobId, old.attempt)).isNone = true) 409 "queue attempt history already exists"
        .ok (.retry old)

/-- The job file of a new attempt. -/
def publishedJob (planId taskId node adapter : String) (attempt generation : Nat) (now : Int) : Job :=
  { jobId := jobIdOf planId taskId, planId := planId, taskId := taskId, node := node, adapter := adapter,
    attempt := attempt, status := .queued, claimGeneration := generation, claimedBy := none,
    leaseExpiresEpoch := none, claimTokenSha256 := none, createdAtEpoch := now, updatedAtEpoch := now,
    reason := none, result := none, reconciledBy := none }

def publishChecks (planId taskId node adapter : String) (attempt : Int) : Ctl Unit := do
  identifier planId "plan_id"
  identifier taskId "task_id"
  identifier node "node"
  ensure (adapter ∈ executorAdapters.map Adapter.text) 400 ("unsupported executor adapter: " ++ adapter)
  ensure (0 ≤ attempt) 400 "invalid task retry generation"
  jobPath (jobIdOf planId taskId)

def archive (q : QueueDir) (old : Job) : QueueDir := { q with history := q.history.put old }

/-- `publish_task`; `attempt` is the integer `retry_count` of the payload's task, 0 where it is absent. -/
def publishTask (q : QueueDir) (planId taskId node adapter : String) (attempt : Int) (now : Int) :
    QueueDir × Ctl Job :=
  checked (publishChecks planId taskId node adapter attempt) q <|
    match publication q planId taskId node adapter attempt.toNat with
    | .error e => (q, .error e)
    | .ok (.kept old) => (q, .ok old)
    | .ok .fresh =>
        let job := publishedJob planId taskId node adapter attempt.toNat 0 now
        (q.put job, .ok job)
    | .ok (.retry old) =>
        let job := publishedJob planId taskId node adapter attempt.toNat old.claimGeneration now
        ((archive q old).put job, .ok job)

/-! ## Expiry and claims -/

def Job.lapsed (now : Int) (job : Job) : Bool :=
  job.status.leased && decide (job.leaseExpiresEpoch.getD 0 ≤ now)

/-- `_expire`. -/
def Job.expire (now : Int) (job : Job) : Job :=
  if job.lapsed now then
    { job with status := .reconciliationRequired, updatedAtEpoch := now,
               reason := some "agent lease expired; reconcile the sealed task outcome" }
  else job

/-- `_expire` on the jobs a sweep gets to. -/
def Job.sweep (reached : String → Bool) (now : Int) (job : Job) : Job :=
  if reached job.jobId then job.expire now else job

@[simp] theorem Job.expire_jobId (now : Int) (job : Job) : (job.expire now).jobId = job.jobId := by
  unfold expire; split <;> rfl

theorem Job.sweep_jobId (reached : String → Bool) (now : Int) (job : Job) :
    (job.sweep reached now).jobId = job.jobId := by
  unfold sweep; split <;> simp

def sweepJobs (jobs : Jobs) (reached : String → Bool) (now : Int) : Jobs :=
  jobs.modify (Job.sweep reached now) (Job.sweep_jobId reached now)

/-- `sorted(glob("*.json"))`. -/
def sortedJobs (jobs : Jobs) : List Job :=
  jobs.files.insertionSort fun a b => a.jobId ++ ".json" ≤ b.jobId ++ ".json"

theorem mem_sortedJobs {jobs : Jobs} {job : Job} : job ∈ sortedJobs jobs ↔ job ∈ jobs :=
  (List.perm_insertionSort _ _).mem_iff

/-- `(result or {}).get("status") in {"success", "succeeded"}`; a list or an object cannot be looked up in a set. -/
def outcomeSuccess (job : Job) : Ctl Bool :=
  match (job.result.map (·.status)).getD .null with
  | .str status => .ok (status == "success" || status == "succeeded")
  | .arr _ | .obj _ => refuse 500 "unhashable type"
  | _ => .ok false

/-- Whether a peer with a smaller task ID has not completed with success. -/
def outstanding (job : Job) : List Job → Ctl Bool
  | [] => .ok false
  | peer :: peers =>
      if peer.taskId < job.taskId then
        if peer.status = .completed then do
          let success ← outcomeSuccess peer
          if success then outstanding job peers else .ok true
        else .ok true
      else outstanding job peers

/-- The other jobs of a job's plan. -/
def peersOf (all : List Job) (job : Job) : List Job :=
  all.filter fun other => other.planId == job.planId && other.jobId != job.jobId

/-- The loop of `claim`: the first job of the node that may go ahead. -/
def firstClaimable (node : String) (all : List Job) : List Job → Ctl (Option Job)
  | [] => .ok none
  | job :: jobs =>
      if job.node ≠ node ∨ job.status ≠ .queued then firstClaimable node all jobs
      else if (peersOf all job).any (·.status.active) then firstClaimable node all jobs
      else do
        let blocked ← outstanding job (peersOf all job)
        if blocked then firstClaimable node all jobs else .ok (some job)

section
variable (sha256 : String → Digest)

def claimedJob (job : Job) (agent token : String) (lease now : Int) : Job :=
  { job with status := .claimed, claimedBy := some agent, leaseExpiresEpoch := some (now + lease),
             updatedAtEpoch := now, claimGeneration := job.claimGeneration + 1,
             claimTokenSha256 := some (sha256 token) }

def claimChecks (node agent : String) (lease : Int) (enrolled : Bool) : Ctl Unit := do
  identifier node "node"
  identifier agent "agent_id"
  ensure (30 ≤ lease ∧ lease ≤ 3600) 400 "lease_seconds must be between 30 and 3600"
  ensure (enrolled = true) 403 "agent enrollment verification failed"

/-- `claim`, with the claimed job; `token` is what `secrets.token_urlsafe` draws. -/
def claim (q : QueueDir) (node agent : String) (lease : Int) (enrolled : Bool) (token : String) (now : Int) :
    QueueDir × Ctl (Option Job) :=
  checked (claimChecks node agent lease enrolled) q <|
    let swept : QueueDir := { q with jobs := sweepJobs q.jobs (fun _ => true) now }
    let jobs := sortedJobs swept.jobs
    if jobs.any fun job => job.node == node && job.status.active then (swept, .ok none)
    else
      match firstClaimable node jobs jobs with
      | .error e => (swept, .error e)
      | .ok none => (swept, .ok none)
      | .ok (some job) =>
          let claimed := claimedJob sha256 job agent token lease now
          (swept.put claimed, .ok (some claimed))

/-! ## Owners -/

/-- What an agent presents; a token that is not a text is `none`. -/
structure Credentials where
  agent : String
  claimToken : Option String
  enrolled : Bool

/-- The first two checks of `_owned`. -/
def holdsClaim (cred : Credentials) (job : Job) : Ctl Unit := do
  ensure (cred.enrolled = true) 403 "agent enrollment verification failed"
  ensure (job.claimedBy = some cred.agent ∧ cred.claimToken.isSome = true ∧
      job.claimTokenSha256 = cred.claimToken.map sha256) 409
    "job claim does not belong to this worker generation"

/-- `_job_path`, `_read_job` and `_owned`: the queue after a possible expiry, and the job. -/
def owned (q : QueueDir) (jobId : String) (cred : Credentials) (now : Int) : QueueDir × Ctl Job :=
  match (do jobPath jobId; let job ← readJob q jobId; holdsClaim sha256 cred job; .ok job) with
  | .error e => (q, .error e)
  | .ok job =>
      if job.lapsed now then
        (q.put (job.expire now), refuse 409 "job lease is not active; reconcile before continuing")
      else if job.status.leased then (q, .ok job)
      else (q, refuse 409 "job lease is not active; reconcile before continuing")

/-- A section that writes the job an agent holds. -/
def ownedUpdate (q : QueueDir) (jobId : String) (cred : Credentials) (now : Int) (update : Job → Job) :
    QueueDir × Ctl Job :=
  match owned sha256 q jobId cred now with
  | (q', .error e) => (q', .error e)
  | (q', .ok job) => (q'.put (update job), .ok (update job))

def extendedJob (seconds now : Int) (job : Job) : Job :=
  { job with status := .running, leaseExpiresEpoch := some (now + seconds), updatedAtEpoch := now }

/-- `extend_lease`; it reads the clock twice. -/
def extendLease (q : QueueDir) (jobId : String) (cred : Credentials) (seconds now now' : Int) :
    QueueDir × Ctl Job :=
  checked (ensure (30 ≤ seconds ∧ seconds ≤ 3600) 400 "seconds must be between 30 and 3600") q <|
    ownedUpdate sha256 q jobId cred now (extendedJob seconds now')

def deferredJob (reason : String) (now : Int) (job : Job) : Job :=
  { job with claimTokenSha256 := none, status := .queued, claimedBy := none, leaseExpiresEpoch := none,
             updatedAtEpoch := now, reason := some reason }

def unreconciledJob (reason : String) (now : Int) (job : Job) : Job :=
  { job with claimTokenSha256 := none, status := .reconciliationRequired, leaseExpiresEpoch := none,
             updatedAtEpoch := now, reason := some reason }

/-- `require_reconciliation`. -/
def requireReconciliation (q : QueueDir) (jobId : String) (cred : Credentials) (reason : String) (now now' : Int) :
    QueueDir × Ctl Job :=
  ownedUpdate sha256 q jobId cred now (unreconciledJob reason now')

end

/-! ## The native task -/

/-- `native_task`: the task that the plan controller verifies, if it is this attempt of this job. -/
def nativeTask (cfg : Config) (plans : Store) (job : Job) : Ctl Task :=
  match taskStatus cfg plans job.planId job.taskId with
  | .error _ => refuse 409 "sealed task state is unavailable; reconcile before execution"
  | .ok t => do
      ensure (t.planId = job.planId ∧ t.taskId = job.taskId ∧ t.adapter.text = job.adapter ∧
          t.retryCount = job.attempt) 409 "sealed task does not match this queue attempt"
      .ok t

/-! ## Calls of two sections -/

/-- The operations that ask the native controller between their two sections. -/
inductive Operation where
  | defer (cred : Credentials) (reason : String)
  | complete (cred : Credentials) (result : List (String × Json))
  | reconcile (actor : String)

/-- A call after its first section: the job it read there, and the native task once it is verified. -/
structure Call where
  operation : Operation
  jobId : String
  read : Job
  proof : Option Task

def completedJob (result : List (String × Json)) (proof : Option Task) (now : Int) (job : Job) : Job :=
  { job with status := .completed, updatedAtEpoch := now, leaseExpiresEpoch := none,
             result := some ⟨result,
               proof.map fun t => (if t.status = .succeeded then "success" else "failed", t)⟩ }

def reconciledJob (actor : String) (proof : Task) (now : Int) (job : Job) : Job :=
  { job with status := .completed, leaseExpiresEpoch := none, updatedAtEpoch := now, reconciledBy := some actor,
             result := some ⟨[], some (proof.status.text, proof)⟩ }

section
variable (sha256 : String → Digest)

/-- The first section. -/
def openCall (q : QueueDir) (operation : Operation) (jobId : String) (now : Int) : QueueDir × Ctl Job :=
  match operation with
  | .defer cred _ | .complete cred _ => owned sha256 q jobId cred now
  | .reconcile actor =>
      match (do identifier actor "actor"; jobPath jobId; readJob q jobId) with
      | .error e => (q, .error e)
      | .ok job =>
          let q' := if job.lapsed now then q.put (job.expire now) else q
          if (job.expire now).status = .reconciliationRequired then (q', .ok (job.expire now))
          else (q', refuse 409 "job does not require reconciliation")

/-- `status in {"succeeded", "failed"}`. -/
def terminal (status : TaskStatus) : Prop := status = .succeeded ∨ status = .failed

instance (status : TaskStatus) : Decidable (terminal status) := inferInstanceAs (Decidable (_ ∨ _))

/-- What a call asks of the native task. -/
def verifyCall (cfg : Config) (plans : Store) (call : Call) : Ctl Task := do
  let t ← nativeTask cfg plans call.read
  match call.operation with
  | .defer .. => ensure (t.status = .pending) 409 "only a verified pending task can be deferred"
  | .complete .. => ensure (terminal t.status) 409 "sealed task has no verified terminal outcome"
  | .reconcile _ =>
      ensure (terminal t.status) 409 "sealed task has no verified terminal outcome for this attempt"
  .ok t

/-- The second section, with both readings of the clock. -/
def closeCall (q : QueueDir) (call : Call) (now now' : Int) : QueueDir × Ctl Job :=
  match call.operation, call.proof with
  | .defer cred reason, _ => ownedUpdate sha256 q call.jobId cred now (deferredJob reason now')
  | .complete cred result, proof => ownedUpdate sha256 q call.jobId cred now (completedJob result proof now')
  | .reconcile actor, some proof =>
      match readJob q call.jobId with
      | .error e => (q, .error e)
      | .ok job =>
          if job.status ≠ .reconciliationRequired ∨ job.claimGeneration ≠ call.read.claimGeneration ∨
              job.attempt ≠ call.read.attempt then
            (q, refuse 409 "queue attempt changed while verifying reconciliation")
          else (q.put (reconciledJob actor proof now job), .ok (reconciledJob actor proof now job))
  | .reconcile _, none => (q, refuse 409 "sealed task state is unavailable; reconcile before execution")

end

end Queue

end OraclePatching
