import OraclePatching.Controller.Runs

/-!
# `Controller.Replay` — replaying a list of invocations, and a small installation to replay on

`after` is a function, so a list of invocations determines the store it leads to. `replay` is that store, and a
replayed list is a run (`replay_reached`, `replay_recorded`). The second half fixes one installation, with a
checksum in the place of SHA-256, one database on one node and workers who hand in well-formed evidence; runs on it
show what the controller does, step by step.
-/

namespace OraclePatching

/-! ## Replaying -/

section
variable (cfg : Config)

/-- The store after a list of invocations. -/
def replay (is : List Invocation) : Store := is.foldl (after cfg) Store.empty

/-- The store and the record of deeds after a list of invocations. -/
def replayHistory (is : List Invocation) : History := is.foldl (History.after cfg) ⟨Store.empty, []⟩

variable {cfg} {is : List Invocation}

/-- **A replayed list is a run.** -/
theorem replay_reached {allowed : Store → Invocation → Prop}
    (h : ∀ pre i, pre ++ [i] <+: is → allowed (replay cfg pre) i) : Reached cfg allowed is (replay cfg is) :=
  Trace.Run.of_foldl rfl h

theorem replay_whole (h : ∀ i ∈ is, i.killedAfter = none) : Reached cfg whole is (replay cfg is) :=
  replay_reached fun pre i hpre => h i (hpre.subset (List.mem_append_right pre List.mem_cons_self))

theorem replay_recorded (h : ∀ i ∈ is, i.killedAfter = none) : Recorded cfg is (replayHistory cfg is) :=
  Trace.Run.of_foldl rfl fun pre i hpre => h i (hpre.subset (List.mem_append_right pre List.mem_cons_self))

end

/-! ## Digests of the installation -/

/-- A checksum of the bytes of some texts. -/
def checksum (texts : List String) : Digest where
  value := (texts.flatMap fun text => 10 :: text.toByteArray.data.toList).foldl
    (fun n byte => (n * 257 + byte.toNat) % 10000000000) 0 % 10000000000
  bound := Nat.lt_trans (Nat.mod_lt _ (by decide)) (by decide)

def Digest.text (digest : Digest) : String := toString digest.value

def digestText (digest : Option Digest) : String := (digest.map (·.text)).getD ""

/-- The texts that tell the documents of the installation apart. -/
def Canonical.texts : Canonical → List String
  | .plan b => ["plan", b.planId, b.requester, b.windowStart, b.windowEnd, b.adapter.text] ++ b.nodes ++
      ((b.sourceApply.map fun a => a.planId :: a.planSha256.text :: a.actors).getD [])
  | .definition t => ["definition", t.taskId, t.planSha256.text, t.stage, t.node]
  | .attempt a => ["attempt", a.taskDefinitionSha256.text, toString a.retryCount,
      digestText a.previousAttemptResultSha256]
  | .result t => ["result", t.taskDefinitionSha256.text, t.status.text, toString t.retryCount, t.claimedBy.getD "",
      digestText t.evidenceSha256]
  | .approval a => ["approval", a.planSha256.text, a.actor, a.ticket]
  | .authorization z => ["authorization", z.planSha256.text, z.actor, z.approvalSha256.text]
  | .custodyManifest m => ["custody", m.planId, m.taskId, m.evidenceSha256.text] ++
      m.files.flatMap fun f => [f.role, f.custodyPath, f.sha256]
  | .lineage entries => "lineage" :: entries.flatMap fun e => [e.taskId, e.actor, digestText e.evidenceSha256]
  | .json j => "json" :: (["plan_id", "task_id", "actor", "stage", "status", "outcome_class"].map fun key =>
      (Json.text? (j.at' [key])).getD "")

def Content.texts : Content → List String
  | .supplied bytes _ => [bytes]
  | .custodyFiles files => "files" :: files.flatMap fun f => [f.role, f.custodyPath, f.sha256]
  | .custodyManifest m => "file" :: (Canonical.custodyManifest m).texts
  | .approval a => "file" :: (Canonical.approval a).texts
  | .authorization z => "file" :: (Canonical.authorization z).texts
  | .taskManifest m => "tasks" :: m.planSha256.text :: m.tasks.flatMap fun t => [t.1, t.2.text]

/-! ## The installation -/

/-- The two ends of the maintenance window, in seconds since 1970. -/
def labEpoch (text : String) : Option Int :=
  if text = "2026-01-10T00:00:00Z" then some 1768003200
  else if text = "2026-01-10T06:00:00Z" then some 1768024800
  else none

def lab : Config where
  stateDir := "/opu"
  hashString c := checksum c.texts
  hashFile c := checksum c.texts
  epoch := labEpoch
  jqText _ := ""

def labInputs : Inputs where
  adapter := .databaseSingleInstanceOpatch
  expectedNodes := ["n1"]
  target := ⟨"ORCL", "/u01/home", "oracle", "null", "null"⟩
  patchId := "36912597"
  artifactSha256 := "artifact"
  sourceDocuments := ⟨"readiness", "reconciliation", "artifact", "procedure", "compatibility", "policy"⟩
  recovery := none
  readinessValidUntil := 1768024800

/-- The environment of a command one hour into the window, with the files at hand. -/
def labWorld (files : List (String × Content)) : World where
  clock _ := 1768006800
  registryFree _ := true
  nowUtc := "2026-01-10T01:00:00Z"
  entry path := (files.lookup path).map .regular
  realDir path := some path
  listing _ := []
  cpOption _ := false
  renameFails := false
  completionGrace := "900"
  productionCertified := .ok ()
  readinessCurrent _ := .ok ()
  dataguardOrder _ := .ok ()
  inputs := .ok labInputs
  rollbackSources _ := .ok ()

/-! ## Evidence -/

/-- Well-formed evidence of an attempt, without its digest. -/
def labReport (plan : Plan) (taskId stage actor : String) (status : TaskStatus) (generation : Nat) :
    List (String × Json) :=
  let log (name : String) : String × Json :=
    (name, .obj [("path", .str ("/e/" ++ name)), ("sha256", .str (checksum [""]).hex)])
  [("schema_version", .str "1.0"),
    ("collector", .obj [("name", .str plan.adapter.collector), ("version", .str "1")]),
    ("intent", .str plan.adapter.intent), ("plan_id", .str plan.planId), ("task_id", .str taskId),
    ("plan_sha256", .str plan.planSha256.hex), ("actor", .str actor), ("stage", .str stage),
    ("status", .str status.text), ("retry_count", .num generation),
    ("patch", .obj [("patch_id", .str plan.patchId), ("artifact_sha256", .str plan.artifactSha256)]),
    ("postcondition", .obj [("status", .str (if status = .succeeded then "passed" else "failed"))]),
    ("started_at", .str "2026-01-10T00:00:00Z"), ("finished_at", .str "2026-01-10T00:00:00Z"),
    ("exit_code", .num (if status = .succeeded then 0 else 1)),
    ("logs", .obj [log "stdout", log "stderr"]),
    ("target", .obj [("database_unique_name", .str plan.target.databaseUniqueName),
      ("oracle_home", .str plan.target.oracleHome), ("owner", .str plan.target.owner)]),
    ("outcome_class", .str (if status = .succeeded then expectedOutcome stage else "no_mutation"))]

def labEvidence (plan : Plan) (taskId stage actor : String) (status : TaskStatus) (generation : Nat) : Content :=
  let body := labReport plan taskId stage actor status generation
  .supplied (taskId ++ " " ++ actor ++ " " ++ status.text ++ " " ++ toString generation)
    (some (.obj (body ++ [("record_sha256", .str (lab.hashString (.json (.obj body))).hex)])))

/-- What the worker leaves on the node. -/
def labFiles (evidence : Content) : List (String × Content) :=
  [("/e/doc", evidence), ("/e/stdout", .supplied "" none),
    ("/e/stderr", .supplied "" none)]

/-! ## Commands -/

def labInvocation (id : String) (command : Command) : Invocation := ⟨id, command, labWorld [], none⟩

/-- The five stages of the plan on its node. -/
def labTask (index : Nat) : String × String :=
  (["precheck", "apply", "validate", "datapatch", "final_validate"].map fun stage =>
    (taskIdOf index stage (if index ≤ 3 then "n1" else "local"), stage)).getD (index - 1) ("", "")

/-- `p1` as `create` makes it. -/
def labPlan : Plan :=
  let body : PlanBody :=
    { planId := "p1", requester := "ann", windowStart := "2026-01-10T00:00:00Z",
      windowEnd := "2026-01-10T06:00:00Z", adapter := labInputs.adapter, target := labInputs.target,
      patchId := labInputs.patchId, nodes := labInputs.expectedNodes, artifactSha256 := labInputs.artifactSha256,
      sourceDocuments := labInputs.sourceDocuments, recovery := labInputs.recovery, sourceApply := none }
  ⟨body, lab.hashString (.plan body)⟩

/-- `p1`, created by ann, approved by bob, authorized and dispatched by cy. -/
def labDispatched : List Invocation :=
  [labInvocation "p1" (.create "ann" "2026-01-10T00:00:00Z" "2026-01-10T06:00:00Z"),
    labInvocation "p1" (.approve "bob" "CHG-1"),
    labInvocation "p1" (.authorize "cy"),
    labInvocation "p1" (.dispatch "cy")]

def labClaim (index : Nat) (actor : String) : Invocation :=
  labInvocation "p1" (.claim (labTask index).1 actor "600")

def labComplete (index : Nat) (actor : String) (status : TaskStatus) (generation : Nat) : Invocation :=
  { id := "p1",
    command := .complete (labTask index).1 actor status.text "/e/doc" "",
    world := labWorld (labFiles
      (labEvidence labPlan (labTask index).1 (labTask index).2 actor status generation)),
    killedAfter := none }

/-- `p1` with its first task failed. -/
def labFailed : List Invocation := labDispatched ++ [labClaim 1 "dee", labComplete 1 "dee" .failed 0]

def labRetry (index : Nat) : Invocation := labInvocation "p1" (.retryTask (labTask index).1 "cy")

end OraclePatching
