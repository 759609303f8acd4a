import OraclePatching.Controller.Seal
import OraclePatching.Lib.Decimal

/-!
# `Controller.Stages` — the tasks `dispatch` materialises

`dispatchStages` is the long conditional of `dispatch`: which stages an adapter runs, on which node, in which
order. `materialise` numbers them and writes the task files; `globOrder` is the order `tasks/*.json` expands to.
-/

namespace OraclePatching

/-! ## Names -/

/-- A stage name with its underscores turned into dashes. -/
def dashed (stage : String) : String :=
  String.ofList (stage.toList.map fun c => if c = '_' then '-' else c)

/-- `printf '%03d-%s-%s'`. -/
def taskIdOf (index : Nat) (stage node : String) : String :=
  String.ofList (Decimal.padded 3 index) ++ "-" ++ dashed stage ++ "-" ++ node

/-! ## The stages of each adapter -/

/-- What `while read` sees of `jq -r '.nodes[]'`. -/
def nodeLines (nodes : List String) : List String := nodes.flatMap Shell.lines

/-- `$(jq -r '.nodes[0]')`. -/
def firstNode (nodes : List String) : String := Shell.cmdSubst (nodes.headD "null")

/-- All stages of one node before the next node. -/
def perNode (nodes stages : List String) : List (String × String) :=
  nodes.flatMap fun node => stages.map fun stage => (stage, node)

def dispatchStages (adapter : Adapter) (nodes : List String) (coordinatorNode : String) :
    List (String × String) :=
  match adapter with
  | .databaseSingleInstanceOpatchRollback =>
      perNode [firstNode nodes] ["rollback_precheck", "rollback_binary", "rollback_binary_validate"] ++
        [("rollback_datapatch", "local"), ("rollback_final_validate", "local")]
  | .databaseRacOpatchRollback =>
      perNode (nodeLines nodes)
          ["rac_rollback_precheck", "rac_rollback_drain", "rac_rollback_stop", "rac_opatch_rollback",
            "rac_rollback_start", "rac_rollback_node_validate"] ++
        [("rac_rollback_datapatch", coordinatorNode),
          ("rac_rollback_final_validate", coordinatorNode)]
  | .databaseRollingOpatch =>
      perNode (nodeLines nodes)
          ["rac_precheck", "rac_drain", "rac_stop", "rac_opatch_apply", "rac_start", "rac_node_validate"] ++
        [("cluster_datapatch", coordinatorNode),
          ("cluster_final_validate", coordinatorNode)]
  | .gridRollingOpatchRollback =>
      perNode (nodeLines nodes)
          ["grid_rollback_precheck", "grid_rootcrs_prepatch", "grid_opatch_rollback",
            "grid_rootcrs_postpatch", "grid_rollback_node_validate"] ++
        [("grid_rollback_cluster_final_validate", coordinatorNode)]
  | .gridRollingOpatch =>
      perNode (nodeLines nodes)
          ["grid_precheck", "grid_rootcrs_prepatch", "grid_opatch_apply", "grid_rootadd_rdbms",
            "grid_rootcrs_postpatch", "grid_node_validate"] ++
        [("grid_cluster_final_validate", coordinatorNode)]
  | .gridRollingOpatchauto =>
      perNode (nodeLines nodes)
          ["opatchauto_precheck", "opatchauto_apply", "opatchauto_resume_check", "opatchauto_node_validate"] ++
        [("opatchauto_cluster_final_validate", coordinatorNode)]
  | .gridRollingOpatchautoRollback =>
      perNode (nodeLines nodes)
          ["opatchauto_rollback_precheck", "opatchauto_rollback", "opatchauto_rollback_node_validate"] ++
        [("opatchauto_rollback_cluster_final_validate", coordinatorNode)]
  | .databaseOjvmOpatch =>
      perNode [firstNode nodes] ["ojvm_precheck", "ojvm_stop_all", "ojvm_binary_apply", "ojvm_start_upgrade"] ++
        [("ojvm_datapatch_upgrade", "local"), ("ojvm_restart_normal", firstNode nodes),
          ("ojvm_final_validate", "local")]
  | .databaseOjvmOpatchRollback =>
      perNode [firstNode nodes]
          ["ojvm_rollback_precheck", "ojvm_rollback_stop_all", "ojvm_rollback_binary",
            "ojvm_rollback_start_upgrade"] ++
        [("ojvm_rollback_datapatch", "local"), ("ojvm_rollback_restart_normal", firstNode nodes),
          ("ojvm_rollback_final_validate", "local")]
  | .databaseOutOfPlaceSwitch =>
      perNode [firstNode nodes]
          ["oop_precheck", "oop_clone_home", "oop_patch_clone", "oop_validate_clone", "oop_switch_home"] ++
        [("oop_datapatch", "local"), ("oop_final_validate", "local")]
  | .databaseOutOfPlaceSwitchback =>
      perNode [firstNode nodes] ["oop_switchback_precheck", "oop_switch_back"] ++
        [("oop_switchback_datapatch", "local"), ("oop_switchback_final_validate", "local")]
  | .databaseSingleInstanceOpatch =>
      perNode (nodeLines nodes) ["precheck", "apply", "validate"] ++
        [("datapatch", "local"), ("final_validate", "local")]

/-- The stages of a plan. -/
def PlanBody.stages (b : PlanBody) : List (String × String) :=
  dispatchStages b.adapter b.nodes b.target.coordinatorNode

/-! ## Task files -/

section
variable (cfg : Config)

/-- `write_task`: the definition is sealed, then the first attempt. -/
def writeTask (taskId : String) (plan : Plan) (stage node : String)
    (authorizationSha256 authorizationRecordSha256 : Digest) : Task :=
  let definition : TaskDefinition :=
    { schemaVersion := "1.0", taskId := taskId, planId := plan.planId, planSha256 := plan.planSha256,
      stage := stage, node := node, adapter := plan.adapter, authorizationSha256 := authorizationSha256,
      authorizationRecordSha256 := authorizationRecordSha256 }
  sealTaskAttempt cfg
    { toTaskDefinition := definition, status := .pending,
      taskDefinitionSha256 := cfg.hashString (.definition definition), attemptDefinitionSha256 := none,
      retryCount := 0, previousAttemptResultSha256 := none, claimedBy := none, claimedAtEpoch := none,
      leaseExpiresEpoch := none, leaseRenewedAtEpoch := none, evidenceSha256 := none, evidencePath := none,
      evidenceSourcePath := none, evidenceRecordSha256 := none, evidenceCustody := none,
      completedAtEpoch := none, completedAfterLease := none, reconciledAtEpoch := none,
      taskResultSha256 := none }

/-- Number the stages from 1 and write their task files, in the order of the stages. -/
def materialiseFrom (plan : Plan) (authorizationSha256 authorizationRecordSha256 : Digest) :
    Nat → List (String × String) → List Task
  | _, [] => []
  | index, (stage, node) :: rest =>
      writeTask cfg (taskIdOf index stage node) plan stage node authorizationSha256 authorizationRecordSha256 ::
        materialiseFrom plan authorizationSha256 authorizationRecordSha256 (index + 1) rest

def materialise (plan : Plan) (authorizationSha256 authorizationRecordSha256 : Digest) : List Task :=
  materialiseFrom cfg plan authorizationSha256 authorizationRecordSha256 1 plan.stages

end

/-- `tasks/*.json` expands in byte order of the file names. -/
def globOrder (ts : List Task) : List Task :=
  ts.insertionSort fun a b => a.taskId ++ ".json" ≤ b.taskId ++ ".json"

theorem mem_globOrder {t : Task} {ts : List Task} : t ∈ globOrder ts ↔ t ∈ ts :=
  (List.perm_insertionSort _ ts).mem_iff

/-! ## The number in a task ID -/

/-- The characters of a task ID before its first dash. -/
def taskNumber (taskId : String) : List Char := taskId.toList.takeWhile (· != '-')

theorem taskIdOf_toList (index : Nat) (stage node : String) :
    (taskIdOf index stage node).toList =
      Decimal.padded 3 index ++ '-' :: ((dashed stage).toList ++ '-' :: node.toList) := by
  simp [taskIdOf, String.toList_append]

theorem taskNumber_taskIdOf (index : Nat) (stage node : String) :
    taskNumber (taskIdOf index stage node) = Decimal.padded 3 index := by
  rw [taskNumber, taskIdOf_toList]
  exact Decimal.takeWhile_label rfl _

section
variable {cfg : Config} {plan : Plan} {authorizationSha256 authorizationRecordSha256 : Digest}

/-- The tasks of a dispatch carry the numbers from `index` on. -/
theorem materialiseFrom_numbers (index : Nat) (stages : List (String × String)) :
    (materialiseFrom cfg plan authorizationSha256 authorizationRecordSha256 index stages).map
        (fun t => taskNumber t.taskId) =
      (List.range' index stages.length).map (Decimal.padded 3) := by
  induction stages generalizing index with
  | nil => rfl
  | cons p rest ih =>
      obtain ⟨stage, node⟩ := p
      rw [materialiseFrom, List.map_cons, ih, List.length_cons, List.range'_succ, List.map_cons]
      rw [show (writeTask cfg (taskIdOf index stage node) plan stage node authorizationSha256
        authorizationRecordSha256).taskId = taskIdOf index stage node from rfl, taskNumber_taskIdOf]

/-- **Tasks of one dispatch have distinct numbers**, however many there are. -/
theorem materialise_numbers_nodup :
    ((materialise cfg plan authorizationSha256 authorizationRecordSha256).map
      fun t => taskNumber t.taskId).Nodup := by
  rw [materialise, materialiseFrom_numbers]
  exact List.Nodup.map (fun _ _ h => Decimal.padded_injective h) List.nodup_range'

theorem globOrder_numbers_nodup {ts : List Task} (h : (ts.map fun t => taskNumber t.taskId).Nodup) :
    ((globOrder ts).map fun t => taskNumber t.taskId).Nodup :=
  (((List.perm_insertionSort _ ts).map _).nodup_iff).mpr h

/-- Distinct numbers make distinct IDs. -/
theorem nodup_of_numbers {ts : List Task} (h : (ts.map fun t => taskNumber t.taskId).Nodup) :
    (ts.map (·.taskId)).Nodup := by
  have : (ts.map (·.taskId)).map taskNumber = ts.map fun t => taskNumber t.taskId := by
    rw [List.map_map]; rfl
  rw [← this] at h
  exact h.of_map

/-- Every task file a dispatch writes is one of its stages, under its number. -/
theorem mem_materialiseFrom {index : Nat} {stages : List (String × String)} {t : Task}
    (h : t ∈ materialiseFrom cfg plan authorizationSha256 authorizationRecordSha256 index stages) :
    ∃ j stage node, t = writeTask cfg (taskIdOf j stage node) plan stage node authorizationSha256
        authorizationRecordSha256 ∧ (stage, node) ∈ stages ∧ index ≤ j ∧ j < index + stages.length := by
  induction stages generalizing index with
  | nil => exact absurd h (by simp [materialiseFrom])
  | cons p rest ih =>
      obtain ⟨stage, node⟩ := p
      rcases List.mem_cons.mp h with rfl | h
      · exact ⟨index, stage, node, rfl, List.mem_cons_self, Nat.le_refl _, by simp⟩
      · obtain ⟨j, stage', node', rfl, hmem, h1, h2⟩ := ih h
        refine ⟨j, stage', node', rfl, List.mem_cons_of_mem _ hmem, by omega, ?_⟩
        rw [List.length_cons]
        omega

theorem writeTask_sealed (taskId stage node : String) :
    Sealed cfg plan.planSha256
      (writeTask cfg taskId plan stage node authorizationSha256 authorizationRecordSha256) :=
  sealTaskAttempt_sealed rfl rfl (Nat.zero_le _) rfl

end

end OraclePatching
