import OraclePatching.Controller.Evidence

/-!
# `Controller.Custody` — the controller's copy of an attempt's evidence

`custody_execution_evidence` copies the evidence, its logs and its artifacts into one directory, in which it also
keeps `files.tmp.json` and `custody.tmp.json` while it works, and seals the list of copies in `custody.json`.
`verify_source_task_custody` reads such a directory back. The directory under construction is a `CustodyDir`;
every `cp`, redirection, `mv` and `rm` of the source is one update of it.
-/

namespace OraclePatching

/-! ## Directories -/

def CustodyDir.empty : CustodyDir := fun _ => none

def CustodyDir.put (dir : CustodyDir) (leaf : String) (c : Content) : CustodyDir :=
  fun l => if l = leaf then some c else dir l

def CustodyDir.remove (dir : CustodyDir) (leaf : String) : CustodyDir :=
  fun l => if l = leaf then none else dir l

/-- `[ -e "$custody_tmp/$leaf" ]`; the names that denote a directory exist. -/
def CustodyDir.exists (dir : CustodyDir) (leaf : String) : Bool :=
  leaf ∈ ["", ".", "..", "/"] || (dir leaf).isSome

/-- The directory name of an attempt's custody: the task ID, with the generation of a retry. -/
def custodyLeaf (taskId : String) (retry : Nat) : String :=
  if retry = 0 then taskId else taskId ++ "-retry" ++ toString retry

variable (cfg : Config) (w : World)

/-! ## Writing -/

/-- `jq '. + [entry]' files.tmp.json >files.tmp.json.next && mv files.tmp.json.next files.tmp.json`. -/
def appendFile (dir : CustodyDir) (entry : CustodyFile) : CustodyDir :=
  match dir "files.tmp.json" with
  | some (.custodyFiles files) =>
      ((dir.put "files.tmp.json.next" (.custodyFiles (files ++ [entry]))).put "files.tmp.json"
        (.custodyFiles (files ++ [entry]))).remove "files.tmp.json.next"
  | _ => dir

/-- The names `custody_execution_evidence` refuses for a copy. -/
def reservedLeaves : List String := ["evidence.json", "custody.json", "files.tmp.json"]

/-- Copy one source under its leaf: the collision tests, `cp` and the digest test. -/
def custodyCopy (dir : CustodyDir) (sourcePath expectedSha collision digestChanged : String) :
    Ctl (CustodyDir × String) := do
  let leaf := Shell.basename sourcePath
  ensure (leaf ∉ reservedLeaves) 65 collision
  ensure (dir.exists leaf = false) 65 ("duplicate controller custody filename: " ++ leaf)
  if sourcePath.toList.head? = some '-' ∧ sourcePath ≠ "-" then do
    -- `cp` takes the source for an option and copies nothing; the digest of the missing copy prints nothing
    ensure (w.cpOption sourcePath = true) 74 ""
    ensure (expectedSha = "") 74 digestChanged
    .ok (dir, leaf)
  else
    match w.read sourcePath with
    | none => refuse 74 ""
    | some c => do
        ensure ((cfg.hashFile c).hex = expectedSha) 74 digestChanged
        .ok (dir.put leaf c, leaf)

def custodyLog (custodyDir : String) (j : Json) (dir : CustodyDir) (role : String) : Ctl CustodyDir := do
  let sourcePath := cfg.text (j.at' ["logs", role, "path"])
  let sha := cfg.text (j.at' ["logs", role, "sha256"])
  let (copied, leaf) ← custodyCopy cfg w dir sourcePath sha
    ("execution " ++ role ++ " log name collides with controller custody metadata")
    ("controller-custodied " ++ role ++ " log digest changed during import")
  .ok (appendFile copied ⟨role, sourcePath, Shell.join custodyDir leaf, sha⟩)

def custodyArtifact (custodyDir : String) (dir : CustodyDir) (entry : Json) : Ctl CustodyDir := do
  let sourcePath := cfg.text (entry.at' ["path"])
  let sha := cfg.text (entry.at' ["sha256"])
  let (copied, leaf) ← custodyCopy cfg w dir sourcePath sha
    "execution artifact name collides with controller custody metadata"
    ("controller-custodied artifact digest changed during import: " ++ sourcePath)
  .ok (appendFile copied ⟨"artifact", sourcePath, Shell.join custodyDir leaf, sha⟩)

/-- A loop whose body may refuse. -/
def foldCtl {α β : Type} (step : β → α → Ctl β) : β → List α → Ctl β
  | b, [] => .ok b
  | b, a :: as => do
      let b' ← step b a
      foldCtl step b' as

/-- The entries of `.artifacts[]`, when `(.artifacts // []) | length > 0`. -/
def evidenceArtifacts (j : Json) : List Json :=
  let artifacts := Json.orElse (j.at' ["artifacts"]) (.arr [])
  if artifacts.nonEmpty then artifacts.iter else []

/-- `custody.json`, with `custody.tmp.json` written and both temporary files removed. -/
def sealCustody (dir : CustodyDir) (m : CustodyManifest) : CustodyDir :=
  (((dir.put "custody.tmp.json" (.custodyManifest m)).put "custody.json" (.custodyManifest m)).remove
    "files.tmp.json").remove "custody.tmp.json"

/-- The list that `files.tmp.json` holds. -/
def CustodyDir.files (dir : CustodyDir) : List CustodyFile :=
  match dir "files.tmp.json" with
  | some (.custodyFiles files) => files
  | _ => []

/-- The result of `custody_execution_evidence`: the directory's name, its content and the result variables. -/
structure Custodied where
  leaf : String
  dir : CustodyDir
  evidencePath : String
  custody : EvidenceCustody

def custodyExecutionEvidence (id taskId evidenceFile : String) (e : ExecutionEvidence) (retry : Nat)
    (d : PlanDir) : Ctl Custodied := do
  let leaf := custodyLeaf taskId retry
  let custodyDir := evidencePath cfg id leaf
  ensure ((d.evidence leaf).isNone = true) 65
    ("controller evidence custody already exists for task: " ++ taskId)
  let start := (CustodyDir.empty.put "evidence.json" e.content).put "files.tmp.json" (.custodyFiles [])
  let logs ← foldCtl (custodyLog cfg w custodyDir e.document) start ["stdout", "stderr"]
  let dir ← foldCtl (custodyArtifact cfg w custodyDir) logs (evidenceArtifacts e.document)
  let manifest : CustodyManifest :=
    { planId := id, taskId := taskId, collectedAt := w.nowUtc, evidenceSourcePath := evidenceFile,
      evidenceCustodyPath := Shell.join custodyDir "evidence.json", evidenceSha256 := e.sha256,
      evidenceRecordSha256 := e.recordSha256, files := dir.files }
  .ok
    { leaf := leaf, dir := sealCustody dir manifest,
      evidencePath := Shell.join custodyDir "evidence.json",
      custody := ⟨Shell.join custodyDir "custody.json", cfg.hashFile (.custodyManifest manifest),
        cfg.hashString (.custodyManifest manifest)⟩ }

/-! ## Reading back -/

/-- `require_file` on a file of a custody directory. -/
def requireCustodied (custodyDir leaf label : String) (dir : CustodyDir) : Ctl Content := do
  opuValidateAbsolutePath (Shell.join custodyDir leaf) label
  match dir leaf with
  | some c => .ok c
  | none => refuse 66 (label ++ " is missing or symbolic link: " ++ Shell.join custodyDir leaf)

/-- One entry of `.files` against its copy. -/
def verifyCustodiedFile (recordedDirectory custodyDir : String) (dir : CustodyDir) (entry : CustodyFile) :
    Ctl Unit := do
  opuValidateAbsolutePath entry.custodyPath "custodied-file-path"
  ensure (Shell.dirname entry.custodyPath = recordedDirectory) 65
    ("source custodied file escapes its task directory: " ++ entry.custodyPath)
  let c ← requireCustodied custodyDir (Shell.basename entry.custodyPath) "source-custodied-file" dir
  ensure ((cfg.hashFile c).hex = entry.sha256) 74
    ("source custodied file changed: " ++ Shell.join custodyDir (Shell.basename entry.custodyPath))

/-- The evidence names the task, its claimant, its status and its generation. -/
def evidenceBindsTask (t : Task) (j : Json) : Bool :=
  Json.isStr (j.at' ["plan_id"]) t.planId &&
    Json.isStr (j.at' ["task_id"]) t.taskId &&
    Json.isStr (j.at' ["plan_sha256"]) t.planSha256.hex &&
    Json.isStr (j.at' ["stage"]) t.stage &&
    (match t.claimedBy with
      | some actor => Json.isStr (j.at' ["actor"]) actor
      | none => (match j.at' ["actor"] with
          | some .null => true
          | _ => false)) &&
    Json.isStr (j.at' ["status"]) t.status.text &&
    Json.isNum (some (Json.orElse (j.at' ["retry_count"]) (.num 0))) t.retryCount

/-- The manifest at `custody.json`, if a manifest is there. -/
def Content.manifest? : Content → Option CustodyManifest
  | .custodyManifest m => some m
  | _ => none

/-- `verify_source_task_custody`, with the custodied evidence; the stage and node arguments of the source are
    always empty. -/
def verifySourceTaskCustody (id : String) (d : PlanDir) (t : Task) (expectedStatus : TaskStatus) : Ctl Json := do
  verifyTask cfg (taskPath cfg id t.taskId) d.plan.planSha256 t
  ensure (t.status = expectedStatus ∧ t.taskResultSha256.isSome = true) 65
    ("source task is not sealed with expected status: " ++ taskPath cfg id t.taskId)
  let recordedManifest := (t.evidenceCustody.map (·.manifestPath)).getD ""
  let recordedEvidence := t.evidencePath.getD ""
  opuValidateAbsolutePath recordedManifest "custody-manifest-path"
  opuValidateAbsolutePath recordedEvidence "custody-evidence-path"
  ensure (Shell.dirname recordedManifest = Shell.dirname recordedEvidence ∧
      Shell.basename recordedManifest = "custody.json" ∧ Shell.basename recordedEvidence = "evidence.json") 74
    "custody metadata paths do not share the expected directory"
  let leaf := custodyLeaf t.taskId t.retryCount
  let custodyDir := evidencePath cfg id leaf
  let dir ← need (d.evidence leaf) 74 "controller custody directory is missing or symbolic link"
  let manifestFile ← requireCustodied custodyDir "custody.json" "source-controller-custody-manifest" dir
  ensure (some (cfg.hashFile manifestFile) = t.evidenceCustody.map (·.manifestSha256)) 74
    ("source task custody manifest changed: " ++ Shell.join custodyDir "custody.json")
  let m ← need manifestFile.manifest? 74
    ("source task custody record integrity failed: " ++ Shell.join custodyDir "custody.json")
  ensure (some (cfg.hashString (.custodyManifest m)) = t.evidenceCustody.map (·.recordSha256)) 74
    ("source task custody record integrity failed: " ++ Shell.join custodyDir "custody.json")
  let evidence ← requireCustodied custodyDir "evidence.json" "source-controller-custodied-evidence" dir
  ensure (m.planId = t.planId ∧ m.taskId = t.taskId ∧ m.evidenceCustodyPath = recordedEvidence ∧
      some m.evidenceSha256 = t.evidenceSha256 ∧ some m.evidenceRecordSha256 = t.evidenceRecordSha256) 74
    "source task custody manifest does not bind its task evidence"
  ensure (some (cfg.hashFile evidence) = t.evidenceSha256) 74
    ("source task evidence changed: " ++ Shell.join custodyDir "evidence.json")
  let j ← need evidence.json? 74
    ("source task evidence record integrity failed: " ++ Shell.join custodyDir "evidence.json")
  let body ← need (j.del "record_sha256") 74
    ("source task evidence record integrity failed: " ++ Shell.join custodyDir "evidence.json")
  ensure (some (cfg.hashString (.json body)) = t.evidenceRecordSha256 ∧
      cfg.textOrEmpty (j.at' ["record_sha256"]) = (cfg.hashString (.json body)).hex) 74
    ("source task evidence record integrity failed: " ++ Shell.join custodyDir "evidence.json")
  ensure (evidenceBindsTask t j = true) 74 "custodied evidence does not bind this task attempt"
  forEach (verifyCustodiedFile cfg (Shell.dirname recordedEvidence) custodyDir dir) m.files
  .ok j

/-- `verify_source_task_custody` on every task file, each expected to have succeeded. -/
def verifyAllCustody (id : String) (d : PlanDir) : Ctl Unit :=
  forEach (fun t => do
    let _ ← verifySourceTaskCustody cfg id d t .succeeded
    .ok ()) (d.tasks.getD [])

end OraclePatching
