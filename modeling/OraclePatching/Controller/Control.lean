import OraclePatching.Controller.Writes

/-!
# `Controller.Control` — approve, authorize, dispatch, claim, renew, complete, reconcile, retry-task, task-status

Each command reads its plan, refuses with the source's code and message or returns the list of durable writes it
goes on to carry out. Guards stand in the order of the source. The task lock serialises the commands of a plan, so
what a command reads of its own plan does not change under it; the lock itself is the subject of `TaskLock`.
-/

namespace OraclePatching

variable (cfg : Config) (w : World)

/-! ## Maintenance window and leases -/

/-- `require_open_window` at a reading of the clock, with the end of the window. -/
def requireOpenWindow (plan : Plan) (now : Int) : Ctl Int := do
  let opens ← need (cfg.epoch plan.windowStart) 74 ""
  let closes ← need (cfg.epoch plan.windowEnd) 74 ""
  ensure (opens ≤ now ∧ now < closes) 65 "maintenance window is not open"
  .ok closes

/-- `^[0-9]{1,4}$`, read as `[ … -ge … ]` reads it. -/
def leaseSeconds (lease : String) : Option Nat :=
  if lease.toList ≠ [] ∧ lease.toList.length ≤ 4 ∧ lease.toList.all Char.isDigit = true then
    some (Decimal.value lease.toList 0)
  else none

/-- The same digits as `$((…))` reads them: a leading zero makes them octal. -/
def arithmeticValue (lease : String) : Option Nat :=
  match lease.toList with
  | '0' :: ds => if ds.all (fun c => c.isDigit && decide (c < '8')) = true then some (Nat.ofDigitChars 8 ds 0) else none
  | ds => some (Decimal.value ds 0)

/-- The lease bounds of `claim` and `renew`. -/
def leaseAllowed (lease : String) : Prop := (leaseSeconds lease).any fun n => 30 ≤ n && n ≤ 3600

instance (lease : String) : Decidable (leaseAllowed lease) := inferInstanceAs (Decidable (_ = true))

/-- `bounded_lease_expiry`: it reads the clock at `n` and `n + 1`. -/
def boundedLeaseExpiry (plan : Plan) (lease : String) (n : Nat) : Ctl Int := do
  let closes ← requireOpenWindow cfg plan (w.clock n)
  let now := w.clock (n + 1)
  let seconds ← need (arithmeticValue lease) 1 ""
  let expiry := min (now + seconds) closes
  ensure (30 ≤ expiry - now) 65 "less than 30 seconds remain in the maintenance window"
  .ok expiry

/-! ## Approval and authorization -/

/-- `.source_apply.actors // []`. -/
def PlanBody.sourceActors (b : PlanBody) : List String := (b.sourceApply.map (·.actors)).getD []

def approve (s : Store) (id actor ticket : String) : Ctl Script := do
  opuValidateIdentifier id "plan ID"
  opuValidateIdentifier actor "approver"
  opuValidateIdentifier ticket "approval ticket"
  let d ← verifyPlan cfg s id
  ensure (d.state = .awaitingApproval) 65 "plan is not awaiting approval"
  w.readinessCurrent d.plan
  ensure (actor ≠ d.plan.requester) 77 "requester cannot approve their own plan"
  ensure (d.plan.adapter.isRollback = true → actor ∉ d.plan.sourceActors) 77
    "rollback approver must differ from every source apply worker"
  ensure ((cfg.epoch d.plan.windowEnd).any (fun closes => w.clock 0 < closes) = true) 65
    "maintenance window has expired"
  ensure (d.approval.isNone = true) 65 "sealed approval already exists"
  .ok
    { writes := .approval
          { planId := id, planSha256 := d.plan.planSha256, requester := d.plan.requester, actor := actor,
            ticket := ticket, approvedAt := w.nowUtc } ::
        transition .awaitingApproval .approved actor ("approval_ticket=" ++ ticket),
      exitCode := 0 }

def authorize (s : Store) (id actor : String) : Ctl Script := do
  opuValidateIdentifier id "plan ID"
  opuValidateIdentifier actor "operator"
  w.productionCertified
  let d ← verifyPlan cfg s id
  ensure (d.state = .approved) 65 "plan is not approved"
  w.readinessCurrent d.plan
  let approval ← verifySealedRecord cfg id "approval.json" "approval" d.approval
  ensure (approval.planId = id ∧ approval.planSha256 = d.plan.planSha256 ∧
      approval.requester = d.plan.requester) 74 "sealed approval does not bind this plan"
  ensure (actor ≠ d.plan.requester ∧ actor ≠ approval.actor) 77
    "operator must differ from requester and approver"
  ensure (d.plan.adapter.isRollback = true → actor ∉ d.plan.sourceActors) 77
    "rollback operator must differ from every source apply worker"
  let _ ← requireOpenWindow cfg d.plan (w.clock 0)
  ensure (d.authorization.isNone = true) 65 "sealed authorization already exists"
  .ok
    { writes := .authorization
          { planId := id, planSha256 := d.plan.planSha256, actor := actor, authorizedAt := w.nowUtc,
            approvalSha256 := cfg.hashFile (.approval approval),
            approvalRecordSha256 := cfg.hashString (.approval approval) } ::
        transition .approved .executionAuthorized actor "window_open_and_approval_verified",
      exitCode := 0 }

/-! ## Dispatch -/

def registryOpen (n : Nat) : Bool := Accepted (openRegistry cfg w n)

/-- The task directory of a dispatch, as it will be listed. -/
def dispatchedTasks (plan : Plan) (z : Authorization) : List Task :=
  globOrder (materialise cfg plan (cfg.hashFile (.authorization z)) (cfg.hashString (.authorization z)))

/-- The writes of `dispatch`: the manifest, then the reservation transaction with its receipt, then the rename of
    the task directory, which releases the reservation again when it fails. -/
def dispatchScript (id : String) (d : PlanDir) (actor : String) (ts : List Task) : Script :=
  let manifest := writeTaskManifest id d.plan.planSha256 ts
  let receipt : Receipt := ⟨id, d.plan.planSha256, shortHosts d.plan.nodes, cfg.hashFile (.taskManifest manifest)⟩
  if registryOpen cfg w 0 then
    if w.renameFails then
      { writes := [.manifest manifest, .reserve, .receipt receipt] ++
          (if registryOpen cfg w 1 then [.release] else []),
        exitCode := 74 }
    else
      { writes := [.manifest manifest, .reserve, .receipt receipt, .tasks ts] ++
          transition .executionAuthorized .running actor "typed_tasks_materialized" ++
          [.event ⟨"tasks_materialized", .running, actor,
            "count=" ++ toString ts.length ++ " adapter=" ++ d.plan.adapter.text⟩],
        exitCode := 0 }
  else { writes := [.manifest manifest], exitCode := 75 }

def dispatch (s : Store) (id actor : String) : Ctl Script := do
  opuValidateIdentifier id "plan ID"
  opuValidateIdentifier actor "operator"
  w.productionCertified
  let d ← verifyPlan cfg s id
  ensure (d.state = .executionAuthorized) 65 "plan is not execution authorized"
  let _ ← requireOpenWindow cfg d.plan (w.clock 0)
  w.readinessCurrent d.plan
  w.dataguardOrder d.plan
  let approval ← verifySealedRecord cfg id "approval.json" "approval" d.approval
  let authorization ← verifySealedRecord cfg id "authorization.json" "authorization" d.authorization
  ensure (actor = authorization.actor) 77 "only the authorizing operator may dispatch this plan"
  ensure (authorization.planId = id ∧ authorization.planSha256 = d.plan.planSha256 ∧
      authorization.approvalSha256 = cfg.hashFile (.approval approval) ∧
      authorization.approvalRecordSha256 = cfg.hashString (.approval approval)) 74
    "sealed authorization does not bind this plan and approval"
  ensure (d.tasks.isNone = true) 65 "plan tasks already exist; reconcile instead of redispatching"
  .ok (dispatchScript cfg w id d actor (dispatchedTasks cfg d.plan authorization))

/-! ## Claim and renew -/

/-- The first pending task, each file verified on the way. -/
def nextIn (id : String) (planSha : Digest) : List Task → Ctl Task
  | [] => refuse 66 ""
  | t :: ts => do
      verifyTask cfg (taskPath cfg id t.taskId) planSha t
      if t.status = .pending then .ok t else nextIn id planSha ts

def next (s : Store) (id : String) : Ctl Task := do
  let d ← verifyPlan cfg s id
  ensure (d.state = .running) 65 "plan is not running"
  nextIn cfg id d.plan.planSha256 (d.tasks.getD [])

/-- `claim`'s turn over one task file. -/
def claimable (id : String) (d : PlanDir) (t : Task) : Ctl Unit := do
  verifyTask cfg (taskPath cfg id t.taskId) d.plan.planSha256 t
  ensure (t.status ≠ .running) 65 "a rolling task is already running"
  ensure (t.status ≠ .unknown) 65 "plan has an unknown task; reconcile or recover before claiming"

/-- The claimed task file. -/
def claimedTask (t : Task) (actor : String) (now expiry : Int) : Task :=
  { t with status := .running, claimedBy := some actor, claimedAtEpoch := some now,
           leaseExpiresEpoch := some expiry }

/-- The task file with a renewed lease. -/
def renewedTask (t : Task) (now expiry : Int) : Task :=
  { t with leaseExpiresEpoch := some expiry, leaseRenewedAtEpoch := some now }

def claim (s : Store) (id taskId actor lease : String) : Ctl Script := do
  opuValidateIdentifier id "plan ID"
  opuValidateIdentifier taskId "task ID"
  opuValidateIdentifier actor "actor"
  ensure (leaseAllowed lease) 64 "lease seconds must be between 30 and 3600"
  let d ← verifyPlan cfg s id
  ensure (d.state = .running) 65 "plan is not running"
  let _ ← requireOpenWindow cfg d.plan (w.clock 0)
  forEach (claimable cfg id d) (d.tasks.getD [])
  verifyTaskManifest cfg id d
  verifyReservation cfg w 0 s id
  let first ← next cfg s id
  ensure (first.taskId = taskId) 65 "only the next sealed task can be claimed"
  let t ← verifyTaskFile cfg id d taskId
  let expiry ← boundedLeaseExpiry cfg w d.plan lease 2
  .ok
    { writes :=
        [.task (claimedTask t actor (w.clock 1) expiry),
          .event ⟨"task_claimed", .running, actor,
            "task_id=" ++ taskId ++ " lease_expires_epoch=" ++ toString expiry⟩],
      exitCode := 0 }

def renew (s : Store) (id taskId actor lease : String) : Ctl Script := do
  opuValidateIdentifier id "plan ID"
  opuValidateIdentifier taskId "task ID"
  opuValidateIdentifier actor "actor"
  ensure (leaseAllowed lease) 64 "lease seconds must be between 30 and 3600"
  let d ← verifyPlan cfg s id
  ensure (d.state = .running) 65 "plan is not running"
  let _ ← requireOpenWindow cfg d.plan (w.clock 0)
  verifyReservation cfg w 0 s id
  let t ← verifyTaskFile cfg id d taskId
  ensure (t.claimedBy = some actor) 77 "task is not claimed by this actor"
  ensure (w.clock 1 < t.leaseExpiresEpoch.getD 0) 75 "task lease already expired; reconcile first"
  ensure (t.status = .running) 65 "task is not running"
  let expiry ← boundedLeaseExpiry cfg w d.plan lease 2
  .ok
    { writes :=
        [.task (renewedTask t (w.clock 1) expiry),
          .event ⟨"task_lease_renewed", .running, actor,
            "task_id=" ++ taskId ++ " lease_expires_epoch=" ++ toString expiry⟩],
      exitCode := 0 }

/-! ## Complete -/

/-- `succeeded|failed`. -/
def completionStatus (status : String) : Option TaskStatus :=
  if status = "succeeded" then some .succeeded else if status = "failed" then some .failed else none

/-- `^[0-9]{2,4}$` between 30 and 3600. -/
def graceSeconds (grace : String) : Option Nat :=
  if 2 ≤ grace.toList.length then (leaseSeconds grace).filter fun n => 30 ≤ n && n ≤ 3600 else none

/-- Everything `complete` does once the result is sealed; `d` is the plan directory at that point. -/
def afterCompletion (id : String) (d : PlanDir) (taskId actor : String) (status : TaskStatus) (late : Bool) :
    Script :=
  let recorded := Write.event ⟨"task_completed", .running, actor, "task_id=" ++ taskId⟩
  let ts := d.tasks.getD []
  if status = .failed then ⟨transition .running .paused actor ("task_failed=" ++ taskId), 0⟩
  else if late then
    ⟨transition .running .paused actor ("task_completed_after_lease=" ++ taskId) ++
      [.event ⟨"late_evidence_recorded", .paused, actor, "task_id=" ++ taskId⟩], 0⟩
  else if Accepted (verifyTaskManifest cfg id d) = false then
    ⟨recorded :: transition .running .paused actor "task_integrity_blocks_success", 74⟩
  else if ts.any (fun t => t.status = .unknown) then
    ⟨recorded :: transition .running .paused actor "unknown_task_blocks_success", 0⟩
  else if ts.any (fun t => t.status = .pending) then ⟨[recorded], 0⟩
  else if ts.any (fun t => t.status ≠ .succeeded) then
    ⟨recorded :: transition .running .paused actor "incomplete_tasks_block_success", 0⟩
  else if Accepted (verifyAllCustody cfg id d) = false then
    ⟨recorded :: transition .running .paused actor "task_custody_blocks_success", 74⟩
  else if registryOpen cfg w 1 then
    ⟨recorded :: transition .running .succeeded actor "all_tasks_succeeded" ++ [.release], 0⟩
  else ⟨recorded :: transition .running .succeeded actor "all_tasks_succeeded", 75⟩

/-- The completed task file, before and after its result is sealed. -/
def completedTask (t : Task) (status : TaskStatus) (evidenceFile : String) (e : ExecutionEvidence) (c : Custodied)
    (now : Int) (late : Bool) : Task :=
  { t with status := status, evidenceSha256 := some e.sha256, completedAtEpoch := some now,
           completedAfterLease := some late, evidencePath := some c.evidencePath,
           evidenceSourcePath := some evidenceFile, evidenceRecordSha256 := some e.recordSha256,
           evidenceCustody := some c.custody }

def complete (s : Store) (id taskId actor status evidenceFile evidenceSha256 : String) : Ctl Script := do
  opuValidateIdentifier id "plan ID"
  opuValidateIdentifier taskId "task ID"
  opuValidateIdentifier actor "actor"
  let result ← need (completionStatus status) 64 "status must be succeeded or failed"
  ensure (evidenceSha256 = "" ∨ evidenceFile = "") 64 "use either --evidence or --evidence-sha256, not both"
  let grace ← need (graceSeconds w.completionGrace) 64 "completion grace seconds must be between 30 and 3600"
  let d ← verifyPlan cfg s id
  ensure (d.state = .running) 65 "plan is not running"
  let t ← verifyTaskFile cfg id d taskId
  verifyReservation cfg w 0 s id
  -- every adapter of a plan is a managed one
  ensure (evidenceFile ≠ "") 65 "managed execution requires structured --evidence"
  let e ← verifyExecutionEvidence cfg w id taskId actor status evidenceFile d.plan t
  let expiry := t.leaseExpiresEpoch.getD 0
  let now := w.clock 0
  ensure (t.claimedBy = some actor) 77 "task is not claimed by this actor"
  ensure (t.status = .running) 65 "task is not running"
  ensure (expiry ≤ now → now - expiry ≤ grace) 75 "task lease expired; reconcile first"
  let late := decide (expiry ≤ now)
  let c ← custodyExecutionEvidence cfg w id taskId evidenceFile e t.retryCount d
  let done := completedTask t result evidenceFile e c now late
  let after := afterCompletion cfg w id ((d.putCustody c.leaf c.dir).putTask (sealTaskResult cfg done)) taskId
    actor result late
  .ok
    { writes := [.custody c.leaf c.dir, .task done, .task (sealTaskResult cfg done)] ++ after.writes,
      exitCode := after.exitCode }

/-! ## Reconcile -/

/-- The first running task whose lease has expired, each file verified on the way. -/
def expiredIn (id : String) (planSha : Digest) (now : Int) : List Task → Ctl Task
  | [] => refuse 66 ""
  | t :: ts => do
      verifyTask cfg (taskPath cfg id t.taskId) planSha t
      if t.status = .running ∧ t.leaseExpiresEpoch.getD 0 ≤ now then .ok t else expiredIn id planSha now ts

/-- The task file of an attempt that outlived its lease, before its result is sealed. -/
def expiredTask (t : Task) (now : Int) : Task := { t with status := .unknown, reconciledAtEpoch := some now }

/-- The completion audit event that `reconcile` asks for. -/
def isCompletionEvent (e : Event) : Bool :=
  e.event == "state_changed" && e.state == .succeeded && e.detail == "all_tasks_succeeded"

def reconcile (s : Store) (id actor : String) : Ctl Script := do
  opuValidateIdentifier id "plan ID"
  opuValidateIdentifier actor "actor"
  let d ← verifyPlan cfg s id
  if d.state = .succeeded then do
    verifyTaskManifest cfg id d
    verifyAllCustody cfg id d
    ensure (d.events.any isCompletionEvent = true) 74 "plan has no verified completion audit event"
    let reconciled := Write.event
      ⟨"successful_plan_reconciled", .succeeded, actor, "custody_verified_before_reservation_release"⟩
    .ok (if registryOpen cfg w 0 then ⟨[reconciled, .release], 0⟩ else ⟨[reconciled], 75⟩)
  else do
    ensure (d.state = .running) 65 "plan is not running"
    let now := w.clock 0
    let t ← expiredIn cfg id d.plan.planSha256 now (d.tasks.getD [])
    .ok
      { writes := [.task (expiredTask t now), .task (sealTaskResult cfg (expiredTask t now))] ++
          transition .running .paused actor ("lease_expired_task=" ++ t.taskId) ++
          [.event ⟨"task_outcome_unknown", .paused, actor, "task_id=" ++ t.taskId⟩],
        exitCode := 0 }

/-! ## Retry -/

/-- The detail of the last pause, or nothing. -/
def lastPausedDetail (events : List Event) : String :=
  (((events.filter fun e => e.event == "state_changed" && e.state == .paused).getLast?).map (·.detail)).getD ""

/-- The stages that may be repeated with a known binary state. -/
def repeatableStages : List String :=
  ["validate", "datapatch", "final_validate", "rollback_binary_validate", "rollback_datapatch",
    "rollback_final_validate", "rac_node_validate", "cluster_datapatch", "cluster_final_validate",
    "rac_rollback_node_validate", "cluster_rollback_datapatch", "cluster_rollback_final_validate",
    "grid_node_validate", "grid_cluster_final_validate", "grid_rollback_node_validate",
    "grid_rollback_cluster_final_validate", "opatchauto_node_validate", "opatchauto_cluster_final_validate",
    "opatchauto_rollback_node_validate", "opatchauto_rollback_cluster_final_validate", "ojvm_datapatch",
    "ojvm_final_validate", "ojvm_rollback_datapatch", "ojvm_rollback_final_validate", "oop_validate",
    "oop_datapatch", "oop_final_validate", "oop_switchback_validate", "oop_switchback_datapatch",
    "oop_switchback_final_validate"]

/-- The outcome a retry may start from. -/
def retrySafe (j : Json) : Bool :=
  Json.isStr (j.at' ["postcondition", "status"]) "failed" && !Json.isNum (j.at' ["exit_code"]) 0 &&
    (Json.isStr (j.at' ["outcome_class"]) "no_mutation" ||
      (Json.isStr (j.at' ["outcome_class"]) "binary_state_known" && isOneOf (j.at' ["stage"]) repeatableStages))

/-- `ln file archive || cmp -s file archive`: an archive that exists has to be this file. -/
def attemptArchive (taskId : String) (t : Task) : Option Task → Ctl (List Write)
  | none => .ok [.attempt taskId t.retryCount t]
  | some archived => do
      ensure (archived = t) 74 "failed task attempt archive differs or cannot be preserved"
      .ok []

/-- The re-opened task file, before its new attempt is sealed. -/
def reopenedTask (t : Task) : Task :=
  { t with previousAttemptResultSha256 := t.taskResultSha256, claimedBy := none, claimedAtEpoch := none,
           leaseExpiresEpoch := none, evidenceSha256 := none, evidencePath := none, evidenceSourcePath := none,
           evidenceRecordSha256 := none, evidenceCustody := none, completedAtEpoch := none,
           completedAfterLease := none, reconciledAtEpoch := none, taskResultSha256 := none,
           status := .pending, retryCount := t.retryCount + 1 }

def retryTask (s : Store) (id taskId actor : String) : Ctl Script := do
  opuValidateIdentifier id "plan ID"
  opuValidateIdentifier taskId "task ID"
  opuValidateIdentifier actor "actor"
  let d ← verifyPlan cfg s id
  ensure (d.state = .paused) 65 "plan is not paused"
  let _ ← requireOpenWindow cfg d.plan (w.clock 0)
  ensure (lastPausedDetail d.events = "task_failed=" ++ taskId) 65
    ("plan was not paused by a failure of task " ++ taskId)
  let t ← verifyTaskFile cfg id d taskId
  ensure (t.status = .failed) 65 "task is not in a failed state"
  let evidence ← verifySourceTaskCustody cfg id d t .failed
  ensure (retrySafe evidence = true) 65
    "task outcome is not safe for retry; reconcile and recover before further mutation"
  verifyTaskManifest cfg id d
  verifyReservation cfg w 0 s id
  let archive ← attemptArchive taskId t (d.attempts taskId t.retryCount)
  .ok
    { writes := archive ++ [.task (reopenedTask t), .task (sealTaskAttempt cfg (reopenedTask t))] ++
        transition .paused .running actor ("task_retried=" ++ taskId),
      exitCode := 0 }

/-! ## Status -/

/-- `task_status`: the task file, its custody verified when it reports an outcome. -/
def taskStatus (s : Store) (id taskId : String) : Ctl Task := do
  opuValidateIdentifier id "plan-id"
  opuValidateIdentifier taskId "task-id"
  let d ← verifyPlan cfg s id
  let t ← verifyTaskFile cfg id d taskId
  if t.status = .succeeded ∨ t.status = .failed then do
    let _ ← verifySourceTaskCustody cfg id d t t.status
    .ok t
  else .ok t

end OraclePatching
