import Mathlib.Data.List.AList
import OraclePatching.Common
import OraclePatching.Lib.Json

/-!
# `Controller.Records` — the documents `opu-patch-plan` reads and writes

One record per JSON document, with the document's own field names. `Store` is the plan state directory: the
target registry and one `PlanDir` per `plans/ID`.

The documents that workers hand in are `Json`; what the controller itself writes is typed. A sealed record's
`record_sha256` is not a field of its own: only the controller writes these files, so the field is always
`hashString` of the rest and is written out where a check reads it.
-/

namespace OraclePatching

/-! ## Digests -/

def hexDigit (c : Char) : Bool := c.isDigit || ('a' ≤ c && c ≤ 'f')

/-- `^[a-f0-9]{64}$`, of the characters that the anchors leave. -/
def sha256Chars (cs : List Char) : Bool := cs.length == 64 && cs.all hexDigit

def sha256Shape (s : String) : Bool := sha256Chars s.characters

/-- The shape is one of the characters. -/
theorem sha256Shape_eq (s : String) : sha256Shape s = sha256Chars s.toList :=
  congrArg sha256Chars (String.characters_eq s)

/-- A SHA-256 digest. -/
structure Digest where
  value : Nat
  bound : value < Nat.pow 16 64
  deriving DecidableEq

/-- The digest as `sha256sum` prints it: 64 hexadecimal digits. -/
def Digest.hex (d : Digest) : String :=
  String.ofList (List.replicate (64 - (Nat.toDigits 16 d.value).length) '0' ++ Nat.toDigits 16 d.value)

theorem hexDigit_of_mem {n : Nat} {c : Char} (h : c ∈ Nat.toDigits 16 n) : hexDigit c = true := by
  have hdigit : ∀ k < 16, hexDigit (Nat.digitChar k) = true := by decide
  induction n using Nat.strongRecOn with
  | _ n ih =>
      rw [Nat.toDigits_eq_if (by decide)] at h
      split at h
      · rename_i hn
        rw [List.mem_singleton.mp h]
        exact hdigit n hn
      · rename_i hn
        rcases List.mem_append.mp h with h | h
        · exact ih (n / 16) (Nat.div_lt_self (by omega) (by decide)) h
        · rw [List.mem_singleton.mp h]
          exact hdigit _ (Nat.mod_lt n (by decide))

theorem mem_hex {d : Digest} {c : Char} (h : c ∈ d.hex.toList) : hexDigit c = true := by
  unfold Digest.hex at h
  rw [String.toList_ofList] at h
  rcases List.mem_append.mp h with h | h
  · rw [List.eq_of_mem_replicate h]
    decide
  · exact hexDigit_of_mem h

theorem sha256Shape_hex (d : Digest) : sha256Shape d.hex = true := by
  have hlen : (Nat.toDigits 16 d.value).length ≤ 64 :=
    (Nat.length_toDigits_le_iff (by decide) (by decide)).mpr d.bound
  rw [sha256Shape_eq]
  unfold sha256Chars
  rw [Bool.and_eq_true, beq_iff_eq, List.all_eq_true]
  refine ⟨?_, fun c hc => mem_hex hc⟩
  unfold Digest.hex
  rw [String.toList_ofList, List.length_append, List.length_replicate]
  omega

/-- The shell takes nothing off a digest. -/
theorem cmdSubst_hex (d : Digest) : Shell.cmdSubst d.hex = d.hex :=
  Shell.cmdSubst_of_line (fun hmem => absurd (mem_hex hmem) (by decide)) fun hmem => absurd (mem_hex hmem) (by decide)

/-! ## Plans -/

/-- `.procedure.adapter`, as `create` and `create-rollback` admit them. -/
inductive Adapter where
  | databaseSingleInstanceOpatch
  | databaseSingleInstanceOpatchRollback
  | databaseRollingOpatch
  | databaseRacOpatchRollback
  | gridRollingOpatch
  | gridRollingOpatchRollback
  | gridRollingOpatchauto
  | gridRollingOpatchautoRollback
  | databaseOjvmOpatch
  | databaseOjvmOpatchRollback
  | databaseOutOfPlaceSwitch
  | databaseOutOfPlaceSwitchback
  deriving DecidableEq, Repr

/-- The adapter's name in plan and task files. -/
def Adapter.text : Adapter → String
  | .databaseSingleInstanceOpatch => "database_single_instance_opatch"
  | .databaseSingleInstanceOpatchRollback => "database_single_instance_opatch_rollback"
  | .databaseRollingOpatch => "database_rolling_opatch"
  | .databaseRacOpatchRollback => "database_rac_opatch_rollback"
  | .gridRollingOpatch => "grid_rolling_opatch"
  | .gridRollingOpatchRollback => "grid_rolling_opatch_rollback"
  | .gridRollingOpatchauto => "grid_rolling_opatchauto"
  | .gridRollingOpatchautoRollback => "grid_rolling_opatchauto_rollback"
  | .databaseOjvmOpatch => "database_ojvm_opatch"
  | .databaseOjvmOpatchRollback => "database_ojvm_opatch_rollback"
  | .databaseOutOfPlaceSwitch => "database_out_of_place_switch"
  | .databaseOutOfPlaceSwitchback => "database_out_of_place_switchback"

/-- The adapters of `patch_rollback` plans. -/
def Adapter.isRollback : Adapter → Bool
  | .databaseSingleInstanceOpatchRollback | .databaseRacOpatchRollback | .gridRollingOpatchRollback
  | .gridRollingOpatchautoRollback | .databaseOjvmOpatchRollback | .databaseOutOfPlaceSwitchback => true
  | _ => false

/-- The RAC and Grid adapters, whose evidence carries an artifact manifest. -/
def Adapter.isDistributed : Adapter → Bool
  | .databaseRollingOpatch | .databaseRacOpatchRollback | .gridRollingOpatch | .gridRollingOpatchRollback
  | .gridRollingOpatchauto | .gridRollingOpatchautoRollback => true
  | _ => false

/-- `.intent`. -/
def Adapter.intent (a : Adapter) : String := if a.isRollback then "patch_rollback" else "patch_apply"

/-- The executor whose evidence `verify_execution_evidence` expects. -/
def Adapter.collector : Adapter → String
  | .databaseSingleInstanceOpatch => "oracle.database.single_instance.executor"
  | .databaseSingleInstanceOpatchRollback => "oracle.database.single_instance.rollback.executor"
  | .databaseRollingOpatch => "oracle.database.rac.node.executor"
  | .databaseRacOpatchRollback => "oracle.database.rac.node.rollback.executor"
  | .gridRollingOpatch => "oracle.grid.node.executor"
  | .gridRollingOpatchRollback => "oracle.grid.node.rollback.executor"
  | .gridRollingOpatchauto => "oracle.grid.opatchauto.executor"
  | .gridRollingOpatchautoRollback => "oracle.grid.opatchauto.rollback.executor"
  | .databaseOjvmOpatch => "oracle.database.ojvm.executor"
  | .databaseOjvmOpatchRollback => "oracle.database.ojvm.rollback.executor"
  | .databaseOutOfPlaceSwitch => "oracle.database.out_of_place.executor"
  | .databaseOutOfPlaceSwitchback => "oracle.database.out_of_place.switchback.executor"

/-- The first line of `plans/ID/state`. -/
inductive PlanState where
  | awaitingApproval
  | approved
  | executionAuthorized
  | running
  | paused
  | succeeded
  deriving DecidableEq, Repr

/-- `.target`. Text fields of a plan are what `$(jq -r …)` prints of them; a field the plan's family does not have
    is the text `null`. -/
structure Target where
  databaseUniqueName : String
  oracleHome : String
  owner : String
  gridHome : String
  coordinatorNode : String
  deriving DecidableEq

/-- The digests of `.source_documents`. -/
structure SourceDocuments where
  readiness : String
  reconciliation : String
  artifactManifest : String
  procedureValidation : String
  compatibility : String
  policy : String
  deriving DecidableEq

/-- The digests of a sealed recovery manifest. -/
structure Recovery where
  manifestSha256 : String
  recordSha256 : String
  deriving DecidableEq

/-- What a rollback plan seals of its source: the final evidence of a standalone apply, or the lineage of a
    RAC or Grid apply. -/
inductive SourceEvidence where
  | standalone (finalEvidenceSha256 finalEvidenceRecordSha256 : Digest)
  | distributed (lineageSha256 clusterFinalEvidenceSha256 clusterFinalEvidenceRecordSha256 : Digest)
  deriving DecidableEq

/-- `.source_apply`; `planId` stands for `.plan_path`, the path of that plan's `plan.json`. -/
structure SourceApply where
  planId : String
  planSha256 : Digest
  actors : List String
  sealedEvidence : SourceEvidence
  deriving DecidableEq

/-- `plan.json` without its own digest. `nodes` are the strings of the array; a waived recovery has no digests. -/
structure PlanBody where
  planId : String
  requester : String
  windowStart : String
  windowEnd : String
  adapter : Adapter
  target : Target
  patchId : String
  nodes : List String
  artifactSha256 : String
  sourceDocuments : SourceDocuments
  recovery : Option Recovery
  sourceApply : Option SourceApply
  deriving DecidableEq

structure Plan extends PlanBody where
  planSha256 : Digest
  deriving DecidableEq

/-! ## Tasks -/

inductive TaskStatus where
  | pending
  | running
  | succeeded
  | failed
  | unknown
  deriving DecidableEq, Repr

/-- The status as it stands in the file. -/
def TaskStatus.text : TaskStatus → String
  | .pending => "pending"
  | .running => "running"
  | .succeeded => "succeeded"
  | .failed => "failed"
  | .unknown => "unknown"

/-- The sealed part of a task (`task_definition`). -/
structure TaskDefinition where
  schemaVersion : String
  taskId : String
  planId : String
  planSha256 : Digest
  stage : String
  node : String
  adapter : Adapter
  authorizationSha256 : Digest
  authorizationRecordSha256 : Digest
  deriving DecidableEq

/-- The sealed part of one attempt (`task_attempt_definition`). -/
structure AttemptDefinition where
  taskDefinitionSha256 : Digest
  retryCount : Nat
  previousAttemptResultSha256 : Option Digest
  deriving DecidableEq

structure EvidenceCustody where
  manifestPath : String
  manifestSha256 : Digest
  recordSha256 : Digest
  deriving DecidableEq

/-- A task file. An absent `retry_count` is 0, as every reader takes it. -/
structure Task extends TaskDefinition where
  status : TaskStatus
  taskDefinitionSha256 : Digest
  attemptDefinitionSha256 : Option Digest
  retryCount : Nat
  previousAttemptResultSha256 : Option Digest
  claimedBy : Option String
  claimedAtEpoch : Option Int
  leaseExpiresEpoch : Option Int
  leaseRenewedAtEpoch : Option Int
  evidenceSha256 : Option Digest
  evidencePath : Option String
  evidenceSourcePath : Option String
  evidenceRecordSha256 : Option Digest
  evidenceCustody : Option EvidenceCustody
  completedAtEpoch : Option Int
  completedAfterLease : Option Bool
  reconciledAtEpoch : Option Int
  taskResultSha256 : Option Digest
  deriving DecidableEq

def Task.attemptDefinition (t : Task) : AttemptDefinition :=
  ⟨t.taskDefinitionSha256, t.retryCount, t.previousAttemptResultSha256⟩

/-- `task_result`: the file without its result seal. -/
def Task.result (t : Task) : Task := { t with taskResultSha256 := none }

/-! ## The other files of a plan directory -/

structure Approval where
  planId : String
  planSha256 : Digest
  requester : String
  actor : String
  ticket : String
  approvedAt : String
  deriving DecidableEq

structure Authorization where
  planId : String
  planSha256 : Digest
  actor : String
  authorizedAt : String
  approvalSha256 : Digest
  approvalRecordSha256 : Digest
  deriving DecidableEq

structure TaskManifest where
  planId : String
  planSha256 : Digest
  tasks : List (String × Digest)
  deriving DecidableEq

/-- `target-reservation.json`. -/
structure Receipt where
  planId : String
  planSha256 : Digest
  nodes : List String
  taskManifestSha256 : Digest
  deriving DecidableEq

/-- One line of `events.jsonl`, without its time. -/
structure Event where
  event : String
  state : PlanState
  actor : String
  detail : String
  deriving DecidableEq

/-- An entry of `.files` in a custody manifest. -/
structure CustodyFile where
  role : String
  sourcePath : String
  custodyPath : String
  sha256 : String
  deriving DecidableEq

structure CustodyManifest where
  planId : String
  taskId : String
  collectedAt : String
  evidenceSourcePath : String
  evidenceCustodyPath : String
  evidenceSha256 : Digest
  evidenceRecordSha256 : Digest
  files : List CustodyFile
  deriving DecidableEq

/-- One task of a RAC or Grid source lineage. -/
structure LineageEntry where
  taskId : String
  stage : String
  node : String
  actor : String
  taskResultSha256 : Option Digest
  evidenceSha256 : Option Digest
  evidenceRecordSha256 : Option Digest
  custodyManifestSha256 : Option Digest
  custodyRecordSha256 : Option Digest
  deriving DecidableEq

/-- A file's content: bytes somebody supplied, with jq's reading of them, or a document this tool wrote. -/
inductive Content where
  | supplied (bytes : String) (reading : Option Json)
  | custodyFiles (files : List CustodyFile)
  | custodyManifest (m : CustodyManifest)
  | approval (a : Approval)
  | authorization (z : Authorization)
  | taskManifest (m : TaskManifest)

/-- jq's reading of an evidence file. -/
def Content.json? : Content → Option Json
  | .supplied _ reading => reading
  | _ => none

/-- The documents whose canonical form (`jq -cS`) is hashed. -/
inductive Canonical where
  | plan (b : PlanBody)
  | definition (d : TaskDefinition)
  | attempt (a : AttemptDefinition)
  | result (t : Task)
  | approval (a : Approval)
  | authorization (z : Authorization)
  | custodyManifest (m : CustodyManifest)
  | lineage (entries : List LineageEntry)
  | json (j : Json)

/-- One directory of `plans/ID/evidence`. -/
abbrev CustodyDir := String → Option Content

/-- `plans/ID`. `tasks` is the directory in the order a glob lists it; it does not exist before dispatch. -/
structure PlanDir where
  plan : Plan
  state : PlanState
  events : List Event
  approval : Option Approval
  authorization : Option Authorization
  manifest : Option TaskManifest
  receipt : Option Receipt
  tasks : Option (List Task)
  evidence : String → Option CustodyDir
  attempts : String → Nat → Option Task

structure Reservation where
  planId : String
  planSha256 : Digest
  deriving DecidableEq

/-- The plan state directory: `target-reservations.json` and `plans/`. -/
structure Store where
  registry : String → Option Reservation
  plans : AList (fun _ : String => PlanDir)

/-! ## Configuration and environment -/

/-- What stays the same for all commands: the state directory and the external programs whose answer depends
    on their input alone (SHA-256, `date -d`, and `jq -r` on a value that is not a string). -/
structure Config where
  stateDir : String
  hashString : Canonical → Digest
  hashFile : Content → Digest
  epoch : String → Option Int
  jqText : Json → String

/-- An entry of a file system outside the plan state directory. -/
inductive Entry where
  | regular (c : Content)
  | link (target : Option Content)
  | other

/-- The result of `verify_inputs` and the plan fields `create` derives from the supplied documents. -/
structure Inputs where
  adapter : Adapter
  expectedNodes : List String
  target : Target
  patchId : String
  artifactSha256 : String
  sourceDocuments : SourceDocuments
  recovery : Option Recovery
  readinessValidUntil : Int

/-- What one command finds outside the plan state directory. `clock n` is its `n`-th reading of the clock,
    `registryFree n` tells whether its `n`-th registry transaction gets the registry lock, and `cpOption` whether
    `cp` succeeds on a source that reads as an option. The last five fields are the verdicts of checks that read
    documents outside the plan store, and plan fields that nothing else reads. -/
structure World where
  clock : Nat → Int
  registryFree : Nat → Bool
  nowUtc : String
  entry : String → Option Entry
  realDir : String → Option String
  listing : String → List (String × Bool)
  cpOption : String → Bool
  renameFails : Bool
  completionGrace : String
  productionCertified : Ctl Unit
  readinessCurrent : Plan → Ctl Unit
  dataguardOrder : Plan → Ctl Unit
  inputs : Ctl Inputs
  rollbackSources : Plan → Ctl Unit

/-- The content a program reads through a path, links followed. -/
def World.read (w : World) (path : String) : Option Content :=
  match w.entry path with
  | some (.regular c) => some c
  | some (.link target) => target
  | _ => none

/-- `require_file`: a regular file that is not a symbolic link, at an absolute path. -/
def requireFile (w : World) (path label : String) : Ctl Content := do
  opuValidateAbsolutePath path label
  match w.entry path with
  | some (.regular c) => .ok c
  | _ => refuse 66 (label ++ " is missing or symbolic link: " ++ path)

/-- A required file is a regular one at a valid path. -/
theorem requireFile_ok {w : World} {path label : String} {c : Content}
    (h : requireFile w path label = .ok c) :
    opuValidateAbsolutePath path label = .ok () ∧ w.entry path = some (.regular c) := by
  unfold requireFile at h
  rw [check_bind_ok] at h
  obtain ⟨hpath, h⟩ := h
  refine ⟨hpath, ?_⟩
  split at h
  · rename_i heq; rw [heq]; injection h with h; rw [h]
  · exact absurd h refuse_ne_ok

/-! ## Paths -/

def planDirPath (cfg : Config) (id : String) : String := Shell.join (Shell.join cfg.stateDir "plans") id

def evidencePath (cfg : Config) (id leaf : String) : String :=
  Shell.join (Shell.join (planDirPath cfg id) "evidence") leaf

def taskPath (cfg : Config) (id taskId : String) : String :=
  Shell.join (Shell.join (planDirPath cfg id) "tasks") (taskId ++ ".json")

end OraclePatching
