import OraclePatching.Controller.Control

/-!
# `Controller.Rollback` — `create` and `create-rollback`

`create` derives an apply plan from supplied documents; what it checks about them is `World.inputs`, except for the
node names, which the task IDs are built from. `create-rollback` derives a rollback plan from a succeeded apply plan
of the same store. Three adapters share one shape, `createDistributedRollback`: every task of the source is
checked and sealed into a lineage. The standalone adapters look at the final task alone.
-/

namespace OraclePatching

variable (cfg : Config) (w : World)

/-! ## Create -/

/-- What `create` and `create-rollback` check about their times. -/
def maintenanceWindow (windowStart windowEnd : String) : Ctl Int := do
  let opens ← need (validIsoUtc cfg windowStart) 64 "maintenance window must use UTC ISO-8601 timestamps"
  let closes ← need (validIsoUtc cfg windowEnd) 64 "maintenance window must use UTC ISO-8601 timestamps"
  ensure (opens < closes) 64 "maintenance window end must be after start"
  .ok opens

/-- The checks of `verify_inputs` on `.expected_nodes`. -/
def verifyNodes (expectedNodes : List String) : Ctl Unit := do
  ensure (expectedNodes ≠ []) 65 "topology reconciliation is not consistent"
  opuValidateIdentifier (firstNode expectedNodes) "coordinator node"
  forEach (fun node => opuValidateIdentifier node "target node") (nodeLines expectedNodes)
  ensure expectedNodes.Nodup 65 "reconciliation target nodes must be unique"
  ensure ((nodeLines expectedNodes).map shortHost).Nodup 65
    "reconciliation nodes collide after local short-host normalization"

/-- The directory of a new plan. -/
def newPlan (body : PlanBody) (event detail : String) : PlanDir :=
  { plan := ⟨body, cfg.hashString (.plan body)⟩, state := .awaitingApproval,
    events := [⟨event, .awaitingApproval, body.requester,
      detail ++ "plan_sha256=" ++ (cfg.hashString (.plan body)).hex⟩],
    approval := none, authorization := none, manifest := none, receipt := none, tasks := none,
    evidence := fun _ => none, attempts := fun _ _ => none }

def create (s : Store) (id requester windowStart windowEnd : String) : Ctl Script := do
  opuValidateIdentifier id "plan ID"
  opuValidateIdentifier requester "requester"
  let opens ← maintenanceWindow cfg windowStart windowEnd
  let inputs ← w.inputs
  ensure (inputs.adapter.isRollback = false) 65 "readiness, artifact, and procedure target do not agree"
  verifyNodes inputs.expectedNodes
  ensure (opens ≤ inputs.readinessValidUntil) 65
    "maintenance window starts after the sealed readiness evidence expires"
  opuValidateAbsolutePath cfg.stateDir "plan state directory"
  ensure ((s.plans.lookup id).isNone = true) 65 ("plan already exists: " ++ id)
  let target := if inputs.adapter.isDistributed then
      { inputs.target with coordinatorNode := firstNode inputs.expectedNodes }
    else inputs.target
  let body : PlanBody :=
    { planId := id, requester := requester, windowStart := windowStart, windowEnd := windowEnd,
      adapter := inputs.adapter, target := target, patchId := inputs.patchId, nodes := inputs.expectedNodes,
      artifactSha256 := inputs.artifactSha256, sourceDocuments := inputs.sourceDocuments,
      recovery := inputs.recovery, sourceApply := none }
  .ok ⟨[.plan (newPlan cfg body "plan_created" "")], 0⟩

/-- A rollback plan: everything but these fields is the source plan's. -/
def rollbackBody (source : Plan) (id requester windowStart windowEnd : String) (adapter : Adapter)
    (nodes : List String) (apply : SourceApply) : PlanBody :=
  { source.toPlanBody with
    planId := id, requester := requester, windowStart := windowStart, windowEnd := windowEnd,
    adapter := adapter, nodes := nodes, sourceApply := some apply }

/-! ## Rollback of RAC and Grid plans -/

/-- What tells the three builders apart. -/
structure RollbackFamily where
  adapter : Adapter
  rollbackAdapter : Adapter
  label : String
  nodeStages : List String
  clusterStages : List String
  finalStage : String
  expectedOutcome : String → Option String
  targets : Plan → Json → Bool

def racTargets (plan : Plan) (j : Json) : Bool :=
  Json.isStr (j.at' ["target", "database_unique_name"]) plan.target.databaseUniqueName &&
    Json.isStr (j.at' ["target", "oracle_home"]) plan.target.oracleHome &&
    Json.isStr (j.at' ["target", "grid_home"]) plan.target.gridHome &&
    Json.isStr (j.at' ["target", "owner"]) plan.target.owner &&
    Json.isStr (j.at' ["target", "topology"]) "rac" &&
    Json.isStr (j.at' ["target", "coordinator_node"]) plan.target.coordinatorNode

def gridTargets (plan : Plan) (j : Json) : Bool :=
  Json.isStr (j.at' ["target", "grid_home"]) plan.target.gridHome &&
    Json.isStr (j.at' ["target", "owner"]) plan.target.owner &&
    Json.isStr (j.at' ["target", "coordinator_node"]) plan.target.coordinatorNode

/-- `create_rac_rollback_plan`. -/
def racRollback : RollbackFamily where
  adapter := .databaseRollingOpatch
  rollbackAdapter := .databaseRacOpatchRollback
  label := "source RAC apply"
  nodeStages := ["rac_precheck", "rac_drain", "rac_stop", "rac_opatch_apply", "rac_start", "rac_node_validate"]
  clusterStages := ["cluster_datapatch", "cluster_final_validate"]
  finalStage := "cluster_final_validate"
  expectedOutcome stage :=
    if stage = "rac_precheck" then some "no_mutation"
    else if stage = "rac_drain" then some "service_state_known"
    else if stage = "rac_stop" then some "database_down"
    else if stage ∈ ["rac_opatch_apply", "rac_start", "rac_node_validate", "cluster_datapatch",
      "cluster_final_validate"] then some "binary_state_known"
    else none
  targets := racTargets

/-- `create_grid_rollback_plan`. -/
def gridRollback : RollbackFamily where
  adapter := .gridRollingOpatch
  rollbackAdapter := .gridRollingOpatchRollback
  label := "source Grid apply"
  nodeStages := ["grid_precheck", "grid_rootcrs_prepatch", "grid_opatch_apply", "grid_rootadd_rdbms",
    "grid_rootcrs_postpatch", "grid_node_validate"]
  clusterStages := ["grid_cluster_final_validate"]
  finalStage := "grid_cluster_final_validate"
  expectedOutcome stage :=
    if stage = "grid_precheck" then some "no_mutation"
    else if stage = "grid_rootcrs_prepatch" then some "grid_quiesced_known"
    else if stage = "grid_rootcrs_postpatch" then some "grid_stack_restored"
    else if stage ∈ ["grid_opatch_apply", "grid_rootadd_rdbms", "grid_node_validate",
      "grid_cluster_final_validate"] then some "binary_state_known"
    else none
  targets := gridTargets

/-- `create_grid_opatchauto_rollback_plan`. -/
def gridOpatchautoRollback : RollbackFamily where
  adapter := .gridRollingOpatchauto
  rollbackAdapter := .gridRollingOpatchautoRollback
  label := "source Grid OPatchAuto apply"
  nodeStages := ["opatchauto_precheck", "opatchauto_apply", "opatchauto_resume_check",
    "opatchauto_node_validate"]
  clusterStages := ["opatchauto_cluster_final_validate"]
  finalStage := "opatchauto_cluster_final_validate"
  expectedOutcome stage :=
    if stage = "opatchauto_precheck" then some "no_mutation"
    else if stage ∈ ["opatchauto_apply", "opatchauto_resume_check", "opatchauto_node_validate",
      "opatchauto_cluster_final_validate"] then some "binary_state_known"
    else none
  targets := gridTargets

/-- The source task's evidence, as the builders ask for it. -/
def sourceEligible (family : RollbackFamily) (plan : Plan) (t : Task) (actor outcome : String) (j : Json) : Bool :=
  Json.isStr (j.at' ["schema_version"]) "1.0" &&
    Json.isStr (j.at' ["collector", "name"]) family.adapter.collector &&
    Json.isStr (j.at' ["collector", "version"]) "1" &&
    Json.isStr (j.at' ["intent"]) "patch_apply" &&
    Json.isStr (j.at' ["plan_id"]) plan.planId &&
    Json.isStr (j.at' ["task_id"]) t.taskId &&
    Json.isStr (j.at' ["plan_sha256"]) plan.planSha256.hex &&
    Json.isStr (j.at' ["actor"]) actor &&
    Json.isStr (j.at' ["stage"]) t.stage &&
    Json.isStr (j.at' ["status"]) "succeeded" &&
    Json.isStr (j.at' ["postcondition", "status"]) "passed" &&
    Json.isNum (j.at' ["exit_code"]) 0 &&
    Json.isStr (j.at' ["outcome_class"]) outcome &&
    Json.isStr (j.at' ["target", "node"]) t.node &&
    family.targets plan j &&
    Json.isStr (j.at' ["patch", "patch_id"]) plan.patchId &&
    Json.isStr (j.at' ["patch", "artifact_sha256"]) plan.artifactSha256 &&
    Json.isStr (j.at' ["recovery", "manifest_sha256"]) ((plan.recovery.map (·.manifestSha256)).getD "null") &&
    Json.isStr (j.at' ["recovery", "record_sha256"]) ((plan.recovery.map (·.recordSha256)).getD "null")

/-- One source task: its custody, its adapter, its claimant, its stage and its evidence. -/
def lineageEntry (family : RollbackFamily) (sourceId : String) (source : PlanDir) (t : Task) :
    Ctl LineageEntry := do
  let evidence ← verifySourceTaskCustody cfg sourceId source t .succeeded
  ensure (t.adapter = family.adapter) 65 ("source apply task uses another adapter: " ++ t.taskId)
  let actor := t.claimedBy.getD ""
  opuValidateIdentifier actor "source-apply-actor"
  let outcome ← need (family.expectedOutcome t.stage) 65
    (family.label ++ " contains an unsupported stage: " ++ t.stage)
  ensure (sourceEligible family source.plan t actor outcome evidence = true) 65
    (family.label ++ " evidence is not eligible for rollback: " ++ t.taskId)
  .ok
    { taskId := t.taskId, stage := t.stage, node := t.node, actor := actor,
      taskResultSha256 := t.taskResultSha256, evidenceSha256 := t.evidenceSha256,
      evidenceRecordSha256 := t.evidenceRecordSha256,
      custodyManifestSha256 := t.evidenceCustody.map (·.manifestSha256),
      custodyRecordSha256 := t.evidenceCustody.map (·.recordSha256) }

/-- Collect the lineage, in the order of the task files. -/
def lineageOf (family : RollbackFamily) (sourceId : String) (source : PlanDir) :
    List Task → Ctl (List LineageEntry)
  | [] => .ok []
  | t :: ts => do
      let entry ← lineageEntry cfg family sourceId source t
      let rest ← lineageOf family sourceId source ts
      .ok (entry :: rest)

/-- Exactly one entry of the lineage has this stage and node. -/
def onceIn (lineage : List LineageEntry) (stage node : String) : Prop :=
  (lineage.filter fun entry => entry.node = node ∧ entry.stage = stage).length = 1

instance (lineage : List LineageEntry) (stage node : String) : Decidable (onceIn lineage stage node) :=
  inferInstanceAs (Decidable (_ = _))

def createDistributedRollback (family : RollbackFamily) (s : Store)
    (id requester sourceId windowStart windowEnd : String) (source : PlanDir) : Ctl Script := do
  ensure (1 < source.plan.nodes.length ∧ source.plan.nodes.Nodup ∧ source.plan.recovery.isSome = true) 65
    "source plan is not a rollback-capable apply plan"
  w.rollbackSources source.plan
  let lineage ← lineageOf cfg family sourceId source (source.tasks.getD [])
  ensure (lineage.length = source.plan.nodes.length * family.nodeStages.length + family.clusterStages.length) 65
    (family.label ++ " does not contain the exact expected task count")
  ensure (∀ node ∈ nodeLines source.plan.nodes, ∀ stage ∈ family.nodeStages, onceIn lineage stage node) 65
    (family.label ++ " must have one task of each stage for each node")
  ensure (∀ stage ∈ family.clusterStages, onceIn lineage stage source.plan.target.coordinatorNode) 65
    (family.label ++ " must have one task of each cluster stage on the coordinator")
  let final ← need (lineage.reverse.find? fun entry => entry.stage = family.finalStage) 65 ""
  let finalSha256 ← need final.evidenceSha256 65 ""
  let finalRecordSha256 ← need final.evidenceRecordSha256 65 ""
  ensure ((s.plans.lookup id).isNone = true) 65 ("plan already exists: " ++ id)
  let body := rollbackBody source.plan id requester windowStart windowEnd family.rollbackAdapter
    source.plan.nodes.reverse
    { planId := sourceId, planSha256 := source.plan.planSha256, actors := uniqueTexts (lineage.map (·.actor)),
      sealedEvidence := .distributed (cfg.hashString (.lineage lineage)) finalSha256 finalRecordSha256 }
  .ok ⟨[.plan (newPlan cfg body "rollback_plan_created"
    ("source_plan_id=" ++ sourceId ++ " adapter=" ++ family.rollbackAdapter.text ++ " "))], 0⟩

/-! ## Rollback of standalone plans -/

/-- The final stage and the rollback adapter of a standalone source adapter. -/
def standaloneRollback : Adapter → Option (String × Adapter)
  | .databaseSingleInstanceOpatch => some ("final_validate", .databaseSingleInstanceOpatchRollback)
  | .databaseOjvmOpatch => some ("ojvm_final_validate", .databaseOjvmOpatchRollback)
  | .databaseOutOfPlaceSwitch => some ("oop_final_validate", .databaseOutOfPlaceSwitchback)
  | _ => none

/-- The file system with the custodied evidence of a source task in it. -/
def withCustodied (source : PlanDir) (t : Task) : World :=
  { w with entry := fun path =>
      if t.evidencePath = some path then
        (((source.evidence (custodyLeaf t.taskId t.retryCount)).bind fun dir => dir "evidence.json").map
          Entry.regular)
      else w.entry path }

/-- The tasks of the source that carry its final evidence. -/
def finalTasks (finalStage : String) (source : PlanDir) : List Task :=
  (source.tasks.getD []).filter fun t => t.stage = finalStage ∧ t.status = .succeeded

def createStandaloneRollback (s : Store) (id requester sourceId windowStart windowEnd : String)
    (source : PlanDir) : Ctl Script := do
  let (finalStage, rollbackAdapter) ← need (standaloneRollback source.plan.adapter) 65
    "source plan is not a rollback-capable apply plan"
  ensure (source.plan.nodes.length = 1) 65
    "source plan is not a rollback-capable standalone database apply plan"
  w.rollbackSources source.plan
  verifyTasks cfg sourceId source
  let final ← need (match finalTasks finalStage source with
    | [t] => some t
    | _ => none) 65 ("source apply plan must have exactly one succeeded " ++ finalStage ++ " task")
  let actor := final.claimedBy.getD ""
  opuValidateIdentifier actor "source-apply-actor"
  let evidenceFile := final.evidencePath.getD ""
  let e ← verifyExecutionEvidence cfg (withCustodied w source final) sourceId final.taskId actor "succeeded"
    evidenceFile source.plan final
  ensure (some e.sha256 = final.evidenceSha256 ∧ some e.recordSha256 = final.evidenceRecordSha256) 74
    "source apply final evidence no longer matches its completed task"
  ensure (Json.isStr (e.document.at' ["intent"]) "patch_apply" = true ∧
      Json.isStr (e.document.at' ["outcome_class"]) "binary_state_known" = true) 65
    "source apply final evidence lacks a known binary outcome"
  ensure ((s.plans.lookup id).isNone = true) 65 ("plan already exists: " ++ id)
  let body := rollbackBody source.plan id requester windowStart windowEnd rollbackAdapter source.plan.nodes
    { planId := sourceId, planSha256 := source.plan.planSha256, actors := [actor],
      sealedEvidence := .standalone e.sha256 e.recordSha256 }
  .ok ⟨[.plan (newPlan cfg body "rollback_plan_created" ("source_plan_id=" ++ sourceId ++ " "))], 0⟩

def createRollback (s : Store) (id requester sourceId windowStart windowEnd : String) : Ctl Script := do
  opuValidateIdentifier id "plan ID"
  opuValidateIdentifier requester "requester"
  opuValidateIdentifier sourceId "source plan ID"
  ensure (id ≠ sourceId) 64 "rollback plan ID must differ from its source apply plan"
  let _ ← maintenanceWindow cfg windowStart windowEnd
  opuValidateAbsolutePath cfg.stateDir "plan state directory"
  let source ← verifyPlan cfg s sourceId
  ensure (source.state = .succeeded) 65 "rollback requires a succeeded source apply plan"
  match source.plan.adapter with
  | .databaseRollingOpatch =>
      createDistributedRollback cfg w racRollback s id requester sourceId windowStart windowEnd source
  | .gridRollingOpatch =>
      createDistributedRollback cfg w gridRollback s id requester sourceId windowStart windowEnd source
  | .gridRollingOpatchauto =>
      createDistributedRollback cfg w gridOpatchautoRollback s id requester sourceId windowStart windowEnd source
  | _ => createStandaloneRollback cfg w s id requester sourceId windowStart windowEnd source

end OraclePatching
