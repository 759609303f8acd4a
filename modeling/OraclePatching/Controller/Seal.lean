import Mathlib.Data.List.Dedup
import Mathlib.Data.List.Sort
import OraclePatching.Controller.Records
import OraclePatching.Lib.Frontier

/-!
# `Controller.Seal` — the digests of plans, tasks and manifests, and the checks that read them

`seal_task_attempt` and `seal_task_result` write a digest into a task file; `verify_plan`, `verify_task` and
`verify_task_manifest` recompute digests. `Sealed` is what a verified task satisfies.
-/

namespace OraclePatching

/-- jq's `unique` on texts: sorted, each text once. -/
def uniqueTexts (texts : List String) : List String := texts.dedup.insertionSort (· ≤ ·)

@[simp] theorem mem_uniqueTexts {text : String} {texts : List String} : text ∈ uniqueTexts texts ↔ text ∈ texts := by
  rw [uniqueTexts, (List.perm_insertionSort _ _).mem_iff, List.mem_dedup]

variable (cfg : Config)

/-! ## Sealing -/

def sealTaskAttempt (t : Task) : Task :=
  { t with attemptDefinitionSha256 := some (cfg.hashString (.attempt t.attemptDefinition)) }

def sealTaskResult (t : Task) : Task :=
  { t with taskResultSha256 := some (cfg.hashString (.result t.result)) }

/-! ## Plans and stored records -/

/-- A plan directory, opened as `verify_plan` opens it. -/
def verifyPlan (s : Store) (id : String) : Ctl PlanDir :=
  match s.plans.lookup id with
  | none => refuse 66 ("plan does not exist or is symbolic link: " ++ id)
  | some d => do
      ensure (d.plan.planSha256 = cfg.hashString (.plan d.plan.toPlanBody)) 74
        ("plan integrity verification failed: " ++ id)
      .ok d

/-- `verify_sealed_record` on a file of the plan directory. -/
def verifySealedRecord {α : Type} (id leaf label : String) (stored : Option α) : Ctl α := do
  let path := Shell.join (planDirPath cfg id) leaf
  opuValidateAbsolutePath path label
  match stored with
  | some record => .ok record
  | none => refuse 66 (label ++ " is missing or symbolic link: " ++ path)

/-! ## Tasks -/

/-- The statuses a result seal goes with. -/
def TaskStatus.isResult : TaskStatus → Bool
  | .succeeded | .failed | .unknown => true
  | _ => false

def verifyTask (path : String) (planSha : Digest) (t : Task) : Ctl Unit := do
  ensure (t.taskDefinitionSha256 = cfg.hashString (.definition t.toTaskDefinition) ∧ t.planSha256 = planSha) 74
    ("task definition integrity verification failed: " ++ path)
  ensure (t.retryCount ≤ 1000000) 74 ("task state or generation is invalid: " ++ path)
  ensure (0 < t.retryCount ∨ t.attemptDefinitionSha256.isSome = true →
      t.attemptDefinitionSha256 = some (cfg.hashString (.attempt t.attemptDefinition))) 74
    ("task attempt definition changed: " ++ path)
  ensure (t.status.isResult = true → t.taskResultSha256 = some (cfg.hashString (.result t.result))) 74
    ("task result integrity verification failed: " ++ path)

/-- What `verify_task` asks of a task. -/
structure Sealed (planSha : Digest) (t : Task) : Prop where
  definition : t.taskDefinitionSha256 = cfg.hashString (.definition t.toTaskDefinition)
  plan : t.planSha256 = planSha
  generation : t.retryCount ≤ 1000000
  attempt : 0 < t.retryCount ∨ t.attemptDefinitionSha256.isSome = true →
    t.attemptDefinitionSha256 = some (cfg.hashString (.attempt t.attemptDefinition))
  result : t.status.isResult = true → t.taskResultSha256 = some (cfg.hashString (.result t.result))

/-- The task file `tasks/ID.json`. -/
def PlanDir.task? (d : PlanDir) (taskId : String) : Option Task :=
  Frontier.lookup (·.taskId) taskId (d.tasks.getD [])

/-- `verify_task` on `tasks/ID.json`, with the task it read. -/
def verifyTaskFile (id : String) (d : PlanDir) (taskId : String) : Ctl Task :=
  match d.task? taskId with
  | none => refuse 66 ("task is missing or symbolic link: " ++ taskPath cfg id taskId)
  | some t => do
      verifyTask cfg (taskPath cfg id taskId) d.plan.planSha256 t
      .ok t

/-- `verify_task` on every file of the task directory, in glob order. -/
def verifyTasks (id : String) (d : PlanDir) : Ctl Unit :=
  forEach (fun t => verifyTask cfg (taskPath cfg id t.taskId) d.plan.planSha256 t) (d.tasks.getD [])

/-! ## The task manifest -/

/-- `map({task_id,task_definition_sha256}) | sort_by(.task_id)`. -/
def manifestEntries (ts : List Task) : List (String × Digest) :=
  (ts.map fun t => (t.taskId, t.taskDefinitionSha256)).insertionSort fun a b => a.1 ≤ b.1

def writeTaskManifest (id : String) (planSha : Digest) (ts : List Task) : TaskManifest :=
  ⟨id, planSha, manifestEntries ts⟩

def verifyTaskManifest (id : String) (d : PlanDir) : Ctl Unit := do
  let manifest ← verifySealedRecord cfg id "task-manifest.json" "task-manifest" d.manifest
  ensure (manifest.planId = id ∧ manifest.planSha256 = d.plan.planSha256 ∧
      manifest.tasks ≠ [] ∧ (manifest.tasks.map Prod.fst).Nodup) 74 "task manifest does not bind this plan"
  ensure (manifestEntries (d.tasks.getD []) = manifest.tasks) 74
    "plan task set is missing, malformed, or differs from its sealed manifest"
  verifyTasks cfg id d

/-! ## What the checks establish -/

section
variable {cfg}

/-- A verified plan is in the store, under its own digest. -/
theorem verifyPlan_ok {s : Store} {id : String} {d : PlanDir} :
    verifyPlan cfg s id = .ok d ↔
      s.plans.lookup id = some d ∧ d.plan.planSha256 = cfg.hashString (.plan d.plan.toPlanBody) := by
  unfold verifyPlan
  cases h : s.plans.lookup id with
  | none => simp
  | some d' =>
      simp only [ensure_bind_ok, Except.ok.injEq, Option.some.injEq]
      constructor
      · rintro ⟨h1, rfl⟩; exact ⟨rfl, h1⟩
      · rintro ⟨rfl, h1⟩; exact ⟨h1, rfl⟩

/-- A verified record was stored, at a valid path. -/
theorem verifySealedRecord_ok {α : Type} {id leaf label : String} {stored : Option α} {a : α} :
    verifySealedRecord cfg id leaf label stored = .ok a ↔
      opuValidateAbsolutePath (Shell.join (planDirPath cfg id) leaf) label = .ok () ∧ stored = some a := by
  unfold verifySealedRecord
  rw [check_bind_ok]
  cases stored <;> simp

theorem verifyTask_ok {path : String} {planSha : Digest} {t : Task} :
    verifyTask cfg path planSha t = .ok () ↔ Sealed cfg planSha t := by
  unfold verifyTask
  rw [ensure_bind_ok, ensure_bind_ok, ensure_bind_ok, ensure_ok]
  constructor
  · rintro ⟨⟨h1, h2⟩, h3, h4, h5⟩; exact ⟨h1, h2, h3, h4, h5⟩
  · rintro ⟨h1, h2, h3, h4, h5⟩; exact ⟨⟨h1, h2⟩, h3, h4, h5⟩

theorem verifyTaskFile_ok {id taskId : String} {d : PlanDir} {t : Task} :
    verifyTaskFile cfg id d taskId = .ok t ↔ d.task? taskId = some t ∧ Sealed cfg d.plan.planSha256 t := by
  unfold verifyTaskFile
  cases h : d.task? taskId with
  | none => simp
  | some t' =>
      simp only [check_bind_ok, verifyTask_ok, Except.ok.injEq, Option.some.injEq]
      constructor
      · rintro ⟨h1, rfl⟩; exact ⟨rfl, h1⟩
      · rintro ⟨rfl, h1⟩; exact ⟨h1, rfl⟩

theorem verifyTasks_ok {id : String} {d : PlanDir} :
    verifyTasks cfg id d = .ok () ↔ ∀ t ∈ d.tasks.getD [], Sealed cfg d.plan.planSha256 t := by
  rw [verifyTasks, forEach_ok]
  exact forall_congr' fun t => forall_congr' fun _ => verifyTask_ok

theorem sealTaskAttempt_sealed {planSha : Digest} {t : Task}
    (hdef : t.taskDefinitionSha256 = cfg.hashString (.definition t.toTaskDefinition))
    (hplan : t.planSha256 = planSha) (hgen : t.retryCount ≤ 1000000) (hst : t.status.isResult = false) :
    Sealed cfg planSha (sealTaskAttempt cfg t) :=
  ⟨hdef, hplan, hgen, fun _ => rfl, fun h => absurd (h.symm.trans hst) (by simp)⟩

theorem sealTaskResult_sealed {planSha : Digest} {t : Task}
    (hdef : t.taskDefinitionSha256 = cfg.hashString (.definition t.toTaskDefinition))
    (hplan : t.planSha256 = planSha) (hgen : t.retryCount ≤ 1000000)
    (hatt : 0 < t.retryCount ∨ t.attemptDefinitionSha256.isSome = true →
      t.attemptDefinitionSha256 = some (cfg.hashString (.attempt t.attemptDefinition))) :
    Sealed cfg planSha (sealTaskResult cfg t) :=
  ⟨hdef, hplan, hgen, hatt, fun _ => rfl⟩

end

end OraclePatching
