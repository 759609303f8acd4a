import OraclePatching.Controller.Seal
import OraclePatching.Lib.Json

/-!
# `Controller.Evidence` — `verify_execution_evidence`

The document a worker hands in with `complete --evidence` is checked against the plan, the task, the claimant, the
attempt, the adapter's target, its own digest, the clock of its run, the logs and, for the RAC and Grid adapters,
the exact content of its directory. Each group of checks is one definition, in the order of the source.
-/

namespace OraclePatching

variable (cfg : Config) (w : World)

/-! ## Reading texts -/

/-- `$(jq -r '.field')` of a value: an error prints nothing. -/
def Config.text : Option Json → String
  | none => ""
  | some .null => "null"
  | some (.str s) => Shell.cmdSubst s
  | some v => Shell.cmdSubst (cfg.jqText v)

/-- `$(jq -r '.field // empty')`. -/
def Config.textOrEmpty (v : Option Json) : String :=
  match v with
  | some j => if j.truthy then cfg.text v else ""
  | none => ""

/-- `test("^[a-f0-9]{64}$")`. -/
def testSha256 : Option Json → Bool
  | some (.str s) => sha256Chars (Json.anchored s)
  | _ => false

/-- `type == "string" and startswith("/")`. -/
def startsWithSlash : Option Json → Bool
  | some (.str s) => s.characters.head? == some '/'
  | _ => false

def isString (v : Option Json) : Bool := (Json.text? v).isSome

/-- A text that is one of a list of constants. -/
def isOneOf (v : Option Json) (texts : List String) : Bool := texts.any (Json.isStr v)

/-! ## Binding to plan, task and attempt -/

def evidenceIdentity (id taskId actor status : String) (plan : Plan) (task : Task) (j : Json) : Bool :=
  Json.isStr (j.at' ["schema_version"]) "1.0" &&
    Json.isStr (j.at' ["collector", "name"]) task.adapter.collector &&
    Json.isStr (j.at' ["collector", "version"]) "1" &&
    Json.isStr (j.at' ["intent"]) task.adapter.intent &&
    Json.isStr (j.at' ["plan_id"]) id &&
    Json.isStr (j.at' ["task_id"]) taskId &&
    Json.isStr (j.at' ["plan_sha256"]) plan.planSha256.hex &&
    Json.isStr (j.at' ["actor"]) actor &&
    Json.isStr (j.at' ["stage"]) task.stage &&
    Json.isStr (j.at' ["status"]) status

/-- `(.retry_count // 0) == $generation`. -/
def evidenceGeneration (generation : Nat) (j : Json) : Bool :=
  Json.isNum (some (Json.orElse (j.at' ["retry_count"]) (.num 0))) generation

def evidenceContent (plan : Plan) (j : Json) : Bool :=
  Json.isStr (j.at' ["patch", "patch_id"]) plan.patchId &&
    Json.isStr (j.at' ["patch", "artifact_sha256"]) plan.artifactSha256 &&
    Json.isStr (some (Json.orElse (j.at' ["recovery", "manifest_sha256"]) (.str "")))
      ((plan.recovery.map (·.manifestSha256)).getD "") &&
    Json.isStr (some (Json.orElse (j.at' ["recovery", "record_sha256"]) (.str "")))
      ((plan.recovery.map (·.recordSha256)).getD "") &&
    testSha256 (j.at' ["record_sha256"]) &&
    isString (j.at' ["postcondition", "status"]) &&
    isString (j.at' ["started_at"]) &&
    isString (j.at' ["finished_at"]) &&
    Json.isNumber (j.at' ["exit_code"]) &&
    startsWithSlash (j.at' ["logs", "stdout", "path"]) &&
    testSha256 (j.at' ["logs", "stdout", "sha256"]) &&
    startsWithSlash (j.at' ["logs", "stderr", "path"]) &&
    testSha256 (j.at' ["logs", "stderr", "sha256"])

/-! ## Target, topology and source -/

/-- The object of source document digests that RAC and Grid evidence repeats. -/
def SourceDocuments.texts (d : SourceDocuments) : List (String × String) :=
  [("readiness", d.readiness), ("reconciliation", d.reconciliation), ("artifact_manifest", d.artifactManifest),
    ("procedure_validation", d.procedureValidation), ("compatibility", d.compatibility), ("policy", d.policy)]

def standaloneTarget (plan : Plan) (j : Json) : Bool :=
  Json.isStr (j.at' ["target", "database_unique_name"]) plan.target.databaseUniqueName &&
    Json.isStr (j.at' ["target", "oracle_home"]) plan.target.oracleHome &&
    Json.isStr (j.at' ["target", "owner"]) plan.target.owner &&
    isOneOf (j.at' ["outcome_class"])
      ["no_mutation", "binary_state_known", "binary_state_unknown", "database_down", "recovery_required"]

def racTarget (plan : Plan) (task : Task) (j : Json) : Bool :=
  Json.isStr (j.at' ["target", "database_unique_name"]) plan.target.databaseUniqueName &&
    Json.isStr (j.at' ["target", "oracle_home"]) plan.target.oracleHome &&
    Json.isStr (j.at' ["target", "grid_home"]) plan.target.gridHome &&
    Json.isStr (j.at' ["target", "owner"]) plan.target.owner &&
    Json.isStr (j.at' ["target", "topology"]) "rac" &&
    Json.isStr (j.at' ["target", "coordinator_node"]) plan.target.coordinatorNode &&
    Json.isStr (j.at' ["target", "node"]) task.node &&
    Json.isTexts (j.at' ["source_documents"]) plan.sourceDocuments.texts &&
    isOneOf (j.at' ["outcome_class"])
      ["no_mutation", "service_state_known", "binary_state_known", "binary_state_unknown", "database_down",
        "recovery_required"]

def gridTarget (plan : Plan) (task : Task) (j : Json) : Bool :=
  Json.isStr (j.at' ["target", "grid_home"]) plan.target.gridHome &&
    Json.isStr (j.at' ["target", "owner"]) plan.target.owner &&
    Json.isStr (j.at' ["target", "coordinator_node"]) plan.target.coordinatorNode &&
    Json.isStr (j.at' ["target", "node"]) task.node &&
    Json.isTexts (j.at' ["source_documents"]) plan.sourceDocuments.texts &&
    isString (j.at' ["cluster", "active_version"]) &&
    isString (j.at' ["cluster", "upgrade_state"]) &&
    isString (j.at' ["cluster", "active_patch_level"]) &&
    isString (j.at' ["cluster", "release_patch_level"]) &&
    isOneOf (j.at' ["outcome_class"])
      ["no_mutation", "grid_quiesced_known", "binary_state_known", "binary_state_unknown", "grid_state_unknown",
        "grid_stack_restored", "recovery_required"]

/-- The target checks of the adapter's family. -/
def evidenceTarget (plan : Plan) (task : Task) (j : Json) : Ctl Unit :=
  match task.adapter with
  | .databaseSingleInstanceOpatch | .databaseSingleInstanceOpatchRollback | .databaseOjvmOpatch
  | .databaseOjvmOpatchRollback | .databaseOutOfPlaceSwitch | .databaseOutOfPlaceSwitchback =>
      ensure (standaloneTarget plan j = true) 65 "standalone execution evidence targets another database home"
  | .databaseRollingOpatch | .databaseRacOpatchRollback =>
      ensure (racTarget plan task j = true) 65
        "RAC execution evidence is not bound to the sealed topology and source documents"
  | .gridRollingOpatch | .gridRollingOpatchRollback | .gridRollingOpatchauto
  | .gridRollingOpatchautoRollback =>
      ensure (gridTarget plan task j = true) 65
        "Grid execution evidence is not bound to the sealed topology and source documents"

/-- A digest of `.source_apply` as `jq -r` prints it. -/
def sourceText (plan : Plan) (digest : SourceApply → Option Digest) : String :=
  ((plan.sourceApply.bind digest).map (·.hex)).getD "null"

def standaloneSource (plan : Plan) (j : Json) : Bool :=
  Json.isStr (j.at' ["source_apply", "plan_sha256"]) (sourceText plan fun s => some s.planSha256) &&
    Json.isStr (j.at' ["source_apply", "final_evidence_sha256"])
      (sourceText plan fun s => match s.sealedEvidence with
        | .standalone evidence _ => some evidence
        | .distributed .. => none) &&
    Json.isStr (j.at' ["source_apply", "final_evidence_record_sha256"])
      (sourceText plan fun s => match s.sealedEvidence with
        | .standalone _ record => some record
        | .distributed .. => none)

def distributedSource (plan : Plan) (j : Json) : Bool :=
  Json.isStr (j.at' ["source_apply", "plan_sha256"]) (sourceText plan fun s => some s.planSha256) &&
    Json.isStr (j.at' ["source_apply", "lineage_sha256"])
      (sourceText plan fun s => match s.sealedEvidence with
        | .distributed lineage _ _ => some lineage
        | .standalone .. => none) &&
    Json.isStr (j.at' ["source_apply", "cluster_final_evidence_sha256"])
      (sourceText plan fun s => match s.sealedEvidence with
        | .distributed _ evidence _ => some evidence
        | .standalone .. => none) &&
    Json.isStr (j.at' ["source_apply", "cluster_final_evidence_record_sha256"])
      (sourceText plan fun s => match s.sealedEvidence with
        | .distributed _ _ record => some record
        | .standalone .. => none)

/-- Rollback evidence repeats what the plan seals of its source. -/
def evidenceSource (plan : Plan) (task : Task) (j : Json) : Ctl Unit :=
  match task.adapter with
  | .databaseSingleInstanceOpatchRollback | .databaseOjvmOpatchRollback | .databaseOutOfPlaceSwitchback =>
      ensure (standaloneSource plan j = true) 65 "rollback evidence is not bound to the sealed source apply result"
  | .databaseRacOpatchRollback | .gridRollingOpatchRollback | .gridRollingOpatchautoRollback =>
      ensure (distributedSource plan j = true) 65
        "distributed rollback evidence is not bound to the sealed source apply lineage"
  | _ => .ok ()

/-- The digest of a document without its `record_sha256`, compared with that field. -/
def evidenceRecord (j : Json) : Ctl Digest :=
  match j.del "record_sha256" with
  | none => refuse 74 "execution evidence record integrity verification failed"
  | some body => do
      ensure (cfg.text (j.at' ["record_sha256"]) = (cfg.hashString (.json body)).hex) 74
        "execution evidence record integrity verification failed"
      .ok (cfg.hashString (.json body))

/-! ## The artifact manifest of RAC and Grid evidence -/

/-- An entry with the keys `path` and `sha256` and no other, both texts. -/
def artifactEntry : Json → Option (String × String)
  | .obj fields =>
      match fields.lookup "path", fields.lookup "sha256" with
      | some (.str path), some (.str sha256) => if fields.length = 2 then some (path, sha256) else none
      | _, _ => none
  | _ => none

/-- `.artifacts`, when every entry has that form. -/
def artifactEntries (j : Json) : Option (List (String × String)) :=
  (Json.items? (j.at' ["artifacts"])).bind fun items => items.mapM artifactEntry

/-- `split("/")[-1]`. -/
def lastSegment (path : String) : String := String.ofList ((Shell.segments path).getLastD [])

/-- The leaves of the two logs and the artifacts. -/
def manifestLeaves (j : Json) (artifacts : List (String × String)) : List String :=
  ([(Json.text? (j.at' ["logs", "stdout", "path"])).getD "",
      (Json.text? (j.at' ["logs", "stderr", "path"])).getD ""] ++
    artifacts.map Prod.fst).map lastSegment

/-- Sorted by path, no path or leaf twice, and no leaf the evidence file's own. -/
def artifactManifest (evidenceLeaf : String) (j : Json) (artifacts : List (String × String)) : Bool :=
  !artifacts.isEmpty &&
    decide ((artifacts.map Prod.fst).Pairwise (· ≤ ·)) &&
    decide ((artifacts.map Prod.fst).Nodup) &&
    artifacts.all (fun a => startsWithSlash (some (.str a.1)) && testSha256 (some (.str a.2))) &&
    decide ((manifestLeaves j artifacts).Nodup) &&
    !(manifestLeaves j artifacts).contains evidenceLeaf

/-- One artifact: a regular file of the evidence directory with the sealed digest. -/
def sealedArtifact (evidenceDir : String) (artifact : String × String) : Ctl Unit := do
  let path := Shell.cmdSubst artifact.1
  let content ← requireFile w path "execution-stage-artifact"
  ensure ((w.realDir (Shell.dirname path)).isSome = true) 66
    ("execution stage artifact directory cannot be resolved: " ++ path)
  ensure (w.realDir (Shell.dirname path) = some evidenceDir) 65
    ("execution stage artifact is outside the sealed evidence directory: " ++ path)
  ensure ((cfg.hashFile content).hex = Shell.cmdSubst artifact.2) 74
    ("execution stage artifact digest changed: " ++ path)

/-- The resolved evidence directory and the artifacts of RAC or Grid evidence. -/
def sealedArtifacts (evidenceFile : String) (j : Json) : Ctl (String × List (String × String)) :=
  match artifactEntries j with
  | none => refuse 65 ("distributed execution evidence artifact manifest is malformed, unsorted, duplicated, " ++
      "or overlaps another evidence file")
  | some artifacts => do
      ensure (artifactManifest (Shell.basename evidenceFile) j artifacts = true) 65
        ("distributed execution evidence artifact manifest is malformed, unsorted, duplicated, " ++
          "or overlaps another evidence file")
      match w.realDir (Shell.dirname evidenceFile) with
      | none => refuse 66 "execution evidence directory cannot be resolved"
      | some evidenceDir => do
          forEach (sealedArtifact cfg w evidenceDir) artifacts
          .ok (evidenceDir, artifacts)

/-! ## Times, outcome and logs -/

/-- `^[0-9]{4}-[0-9]{2}-[0-9]{2}T[0-9]{2}:[0-9]{2}:[0-9]{2}Z$`. -/
def isoUtcShape (s : String) : Bool :=
  let form := "dddd-dd-ddTdd:dd:ddZ".characters
  s.characters.length == form.length &&
    (s.characters.zip form).all fun p => if p.2 == 'd' then p.1.isDigit else p.1 == p.2

/-- `valid_iso_utc`, with the time it stands for. -/
def validIsoUtc (s : String) : Option Int := if isoUtcShape s then cfg.epoch s else none

def evidenceTimes (j : Json) : Ctl Unit :=
  match validIsoUtc cfg (cfg.text (j.at' ["started_at"])), validIsoUtc cfg (cfg.text (j.at' ["finished_at"])) with
  | some started, some finished =>
      ensure (started ≤ finished) 65 "execution evidence timestamps are invalid"
  | _, _ => refuse 65 "execution evidence timestamps are invalid"

/-- The outcome class a successful stage has to report. -/
def expectedOutcome (stage : String) : String :=
  if stage ∈ ["precheck", "rollback_precheck", "rac_precheck", "rac_rollback_precheck", "grid_precheck",
      "grid_rollback_precheck", "opatchauto_precheck", "opatchauto_rollback_precheck", "ojvm_precheck",
      "ojvm_rollback_precheck", "oop_precheck", "oop_switchback_precheck"] then "no_mutation"
  else if stage ∈ ["rac_drain", "rac_rollback_drain"] then "service_state_known"
  else if stage ∈ ["rac_stop", "rac_rollback_stop", "ojvm_stop_all", "ojvm_rollback_stop_all"] then
    "database_down"
  else if stage = "grid_rootcrs_prepatch" then "grid_quiesced_known"
  else if stage = "grid_rootcrs_postpatch" then "grid_stack_restored"
  else "binary_state_known"

/-- `[ code -eq 0 ]`: other than a 64-bit integer is an error. -/
def exitZero : Option Json → Bool
  | some (.num q) => q == 0
  | _ => false

/-- `[ code -ne 0 ]`. -/
def exitNonzero : Option Json → Bool
  | some (.num q) => q.den == 1 && q != 0 && decide (-9223372036854775808 ≤ q.num ∧ q.num < 9223372036854775808)
  | _ => false

def evidenceOutcome (status : String) (task : Task) (j : Json) : Ctl Unit :=
  if status = "succeeded" then do
    ensure (cfg.text (j.at' ["postcondition", "status"]) = "passed" ∧ exitZero (j.at' ["exit_code"]) = true) 65
      "successful task evidence requires a passed postcondition and zero exit code"
    ensure (cfg.text (j.at' ["outcome_class"]) = expectedOutcome task.stage) 65
      ("successful " ++ task.stage ++ " evidence reports an invalid outcome class")
  else
    ensure (cfg.text (j.at' ["postcondition", "status"]) ∈ ["failed", "blocked", "unknown"] ∧
        exitNonzero (j.at' ["exit_code"]) = true) 65
      ("failed task evidence requires a failed, blocked, or unknown postcondition and nonzero exit code")

def evidenceLog (j : Json) (name : String) : Ctl Unit := do
  let content ← requireFile w (cfg.text (j.at' ["logs", name, "path"])) ("execution-" ++ name ++ "-log")
  ensure ((cfg.hashFile content).hex = cfg.text (j.at' ["logs", name, "sha256"])) 74
    ("execution " ++ name ++ " log digest changed")

/-! ## The evidence directory of RAC and Grid evidence -/

/-- `opu_safe_field`: no line holds a control character. -/
def opuSafeField (s : String) : Bool :=
  s.toList.all fun c => c == '\n' || !(c.toNat < 32 || c.toNat == 127)

def logInDirectory (evidenceDir : String) (j : Json) (name : String) : Ctl Unit := do
  let path := cfg.text (j.at' ["logs", name, "path"])
  ensure ((w.realDir (Shell.dirname path)).isSome = true) 66
    ("execution log directory cannot be resolved: " ++ path)
  ensure (w.realDir (Shell.dirname path) = some evidenceDir) 65
    ("execution log is outside the sealed evidence directory: " ++ path)

/-- The directory holds the evidence, the logs and the artifacts, and nothing else. -/
def exactDirectory (evidenceDir evidenceLeaf : String) (j : Json) (artifacts : List (String × String)) :
    Ctl Unit := do
  ensure ((w.listing evidenceDir).all (fun entry => entry.2) = true) 65
    "sealed evidence directory contains a non-regular entry"
  let others := ((w.listing evidenceDir).map fun entry => Shell.cmdSubst entry.1).filter (· != evidenceLeaf)
  forEach (fun leaf => do
    ensure (opuSafeField leaf = true) 65
      "sealed evidence directory contains a filename with control characters"
    ensure (leaf ∈ manifestLeaves j artifacts) 65
      ("sealed evidence directory contains an unmanifested file: " ++ Shell.join evidenceDir leaf)) others
  ensure (others.length = artifacts.length + 2) 65
    "sealed evidence directory does not exactly match its artifact manifest"

/-! ## The whole check -/

/-- What `verify_execution_evidence` leaves in its result variables, with the document it read. -/
structure ExecutionEvidence where
  content : Content
  document : Json
  sha256 : Digest
  recordSha256 : Digest

/-- The part of the check that only RAC and Grid evidence goes through before its times are read. -/
def distributedBefore (evidenceFile : String) (task : Task) (j : Json) :
    Ctl (Option (String × List (String × String))) :=
  if task.adapter.isDistributed then do
    let sealedDir ← sealedArtifacts cfg w evidenceFile j
    .ok (some sealedDir)
  else .ok none

/-- The part that only RAC and Grid evidence goes through at the end. -/
def distributedAfter (evidenceFile : String) (j : Json) :
    Option (String × List (String × String)) → Ctl Unit
  | none => .ok ()
  | some (evidenceDir, artifacts) => do
      forEach (logInDirectory cfg w evidenceDir j) ["stdout", "stderr"]
      exactDirectory w evidenceDir (Shell.basename evidenceFile) j artifacts

/-- jq's reading of a document; what jq cannot read fails the first filter. -/
def evidenceDocument (c : Content) : Ctl Json :=
  match c.json? with
  | some j => .ok j
  | none => refuse 65 "execution evidence identity is malformed or not bound to this task"

def verifyExecutionEvidence (id taskId actor status evidenceFile : String) (plan : Plan) (task : Task) :
    Ctl ExecutionEvidence := do
  let content ← requireFile w evidenceFile "execution-evidence"
  let j ← evidenceDocument content
  ensure (evidenceIdentity id taskId actor status plan task j = true) 65
    "execution evidence identity is malformed or not bound to this task"
  ensure (evidenceGeneration task.retryCount j = true) 65
    "execution evidence belongs to a different task attempt"
  ensure (evidenceContent plan j = true) 65 "execution evidence content is malformed"
  evidenceTarget plan task j
  evidenceSource plan task j
  let recordSha256 ← evidenceRecord cfg j
  let sealedDir ← distributedBefore cfg w evidenceFile task j
  evidenceTimes cfg j
  evidenceOutcome cfg status task j
  forEach (evidenceLog cfg w j) ["stdout", "stderr"]
  distributedAfter cfg w evidenceFile j sealedDir
  .ok ⟨content, j, cfg.hashFile content, recordSha256⟩

/-! ## What accepted evidence is bound to -/

/-- The facts about accepted evidence that the rest of the development uses. -/
structure Accredited (id taskId actor status evidenceFile : String) (plan : Plan) (task : Task)
    (e : ExecutionEvidence) : Prop where
  file : requireFile w evidenceFile "execution-evidence" = .ok e.content
  reading : e.content.json? = some e.document
  identity : evidenceIdentity id taskId actor status plan task e.document = true
  generation : evidenceGeneration task.retryCount e.document = true
  content : evidenceContent plan e.document = true
  record : evidenceRecord cfg e.document = .ok e.recordSha256
  logs : ∀ name ∈ ["stdout", "stderr"], evidenceLog cfg w e.document name = .ok ()
  artifacts : task.adapter.isDistributed = true →
    ∃ sealedDir, sealedArtifacts cfg w evidenceFile e.document = .ok sealedDir
  sha256 : e.sha256 = cfg.hashFile e.content

section
variable {cfg w}

theorem evidenceDocument_ok {c : Content} {j : Json} : evidenceDocument c = .ok j ↔ c.json? = some j := by
  unfold evidenceDocument
  cases c.json? <;> simp

theorem verifyExecutionEvidence_ok {id taskId actor status evidenceFile : String} {plan : Plan} {task : Task}
    {e : ExecutionEvidence}
    (h : verifyExecutionEvidence cfg w id taskId actor status evidenceFile plan task = .ok e) :
    Accredited cfg w id taskId actor status evidenceFile plan task e := by
  rw [verifyExecutionEvidence, bind_ok] at h
  obtain ⟨content, hfile, h⟩ := h
  rw [bind_ok] at h
  obtain ⟨j, hj, h⟩ := h
  rw [ensure_bind_ok, ensure_bind_ok, ensure_bind_ok, check_bind_ok, check_bind_ok, bind_ok] at h
  obtain ⟨hid, hgen, hcontent, _, _, record, hrecord, h⟩ := h
  rw [bind_ok] at h
  obtain ⟨sealedDir, hdir, h⟩ := h
  rw [check_bind_ok, check_bind_ok, check_bind_ok, check_bind_ok, Except.ok.injEq] at h
  obtain ⟨_, _, hlogs, _, rfl⟩ := h
  refine ⟨hfile, evidenceDocument_ok.mp hj, hid, hgen, hcontent, hrecord, forEach_ok.mp hlogs, ?_, rfl⟩
  intro hdist
  rw [distributedBefore, if_pos hdist, bind_ok] at hdir
  obtain ⟨dir, hdir, _⟩ := hdir
  exact ⟨dir, hdir⟩

/-- Accepted evidence names the task, the attempt and the claimant, and no other. -/
theorem evidenceIdentity_unique {id taskId actor status : String} {plan : Plan} {task : Task}
    {id' taskId' actor' status' : String} {plan' : Plan} {task' : Task} {j : Json}
    (h : evidenceIdentity id taskId actor status plan task j = true)
    (h' : evidenceIdentity id' taskId' actor' status' plan' task' j = true) :
    id = id' ∧ taskId = taskId' ∧ actor = actor' := by
  simp only [evidenceIdentity, Bool.and_eq_true] at h h'
  obtain ⟨⟨⟨⟨⟨⟨⟨⟨⟨_, _⟩, _⟩, _⟩, h1⟩, h2⟩, _⟩, h3⟩, _⟩, _⟩ := h
  obtain ⟨⟨⟨⟨⟨⟨⟨⟨⟨_, _⟩, _⟩, _⟩, h1'⟩, h2'⟩, _⟩, h3'⟩, _⟩, _⟩ := h'
  exact ⟨Json.isStr_unique h1 h1', Json.isStr_unique h2 h2', Json.isStr_unique h3 h3'⟩

theorem evidenceGeneration_unique {m n : Nat} {j : Json} (hm : evidenceGeneration m j = true)
    (hn : evidenceGeneration n j = true) : m = n := by
  have := Json.isNum_unique hm hn
  exact_mod_cast this

end

end OraclePatching
