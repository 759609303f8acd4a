import OraclePatching.Common
import OraclePatching.Lib.Effect
import OraclePatching.Lib.Subtree

/-!
# `Opatch.Upgrade` — the replacement of OPatch by `opu-opatch-upgrade`

`approve`, `quiesce`, `apply` and `rollback` as commands on the files and the request record. Every durable change is a
step of its own, so that a kill between two of them is a state on the trail; how each external command ends is given by
a world. A failing exit carries, beside its message, whether the restoring `mv` before it succeeded: the script hides
that behind `|| true`.

A path is where its names lead: symbolic links in the directories on the way to a tree are not modelled. `rollback`
looks at its backup with `test -L`, which here is part of the test for a directory.
-/

open Effect Subtree

namespace OraclePatching.Opatch

/-! ## Records -/

inductive RequestState where
  | awaitingApproval
  | approved
  | quiesced
  | applied
  | rolledBack
  | completed
  | blocked
  deriving DecidableEq, Repr

structure Target where
  oracleHome : String
  owner : String
  currentOpatchVersion : String
  deriving DecidableEq

structure Artifact where
  zipPath : String
  zipSha256 : String
  stageDir : String
  stageSha256 : String
  stagedOpatchVersion : String
  deriving DecidableEq

structure Approval where
  actor : String
  ticket : String
  approvedAt : String
  deriving DecidableEq

structure Quiesce where
  actor : String
  quiescedAt : String
  oracleSid : String
  listener : Option String
  databaseLogSha256 : String
  listenerLogSha256 : String
  deriving DecidableEq

structure Apply where
  actor : String
  appliedAt : String
  backupPath : String
  backupSha256 : String
  newOpatchSha256 : String
  deriving DecidableEq

structure Rollback where
  actor : String
  rolledBackAt : String
  deriving DecidableEq

/-- `request.json` without its digest. -/
structure Request where
  requestId : String
  requester : String
  state : RequestState
  createdAt : String
  target : Target
  artifact : Artifact
  backupRoot : String
  requiredOpatchVersion : String
  approval : Option Approval
  quiesce : Option Quiesce
  apply : Option Apply
  rollback : Option Rollback
  deriving DecidableEq

/-- `request.json` as it stands on disk: a document with or without `record_sha256`, or the first part of one. -/
inductive RequestFile where
  | torn
  | document (request : Request) (recordSha256 : Option String)
  deriving DecidableEq

/-- `^[a-f0-9]{64}$`. -/
def isSha (text : String) : Bool :=
  text.toList.length == 64 && text.toList.all fun c => c.isDigit || ('a'.toNat ≤ c.toNat && c.toNat ≤ 'f'.toNat)

/-- `^[0-9]+(\.[0-9]+){2,4}$`. -/
def isVersion (text : String) : Bool :=
  let parts := text.toList.splitOn '.'
  decide (3 ≤ parts.length ∧ parts.length ≤ 5) && parts.all fun part => !part.isEmpty && part.all Char.isDigit

/-! ## Files -/

/-- A file, a directory or a symbolic link. -/
inductive Node where
  | directory (mode : Nat)
  | file (data : String) (mode : Nat)
  | link (target : String)
  deriving DecidableEq, Repr

def Node.isDir : Node → Bool
  | .directory _ => true
  | _ => false

/-- The names of an absolute path, the last one first. -/
def locate (path : String) : Location :=
  (((path.toList.splitOn '/').map String.ofList).filter fun name => decide (name ≠ "")).reverse

/-- What the commands see: the files and the record of the request. -/
structure Store where
  files : Files Node
  record : Option RequestFile

/-- `$home/OPatch`. -/
def Request.opatch (r : Request) : Location := "OPatch" :: locate r.target.oracleHome

/-- `$stage/OPatch`. -/
def Request.staged (r : Request) : Location := "OPatch" :: locate r.artifact.stageDir

/-- `before`. -/
def Request.before (r : Request) (id : String) : String := r.backupRoot ++ "/" ++ id ++ "-OPatch-before"

/-! ## Commands -/

/-- A failing exit: the line it prints, and whether every restoring `mv` before it succeeded. -/
structure Failure where
  message : String
  restored : Bool

/-- A state on the trail: the store, and whether a record is being replaced, from the rename of `request.json.tmp` to
    the last byte of the sealed text. -/
structure Moment where
  store : Store
  sealing : Bool

abbrev Cmd := EStateM Failure (Trail Moment)

def die (message : String) (restored : Bool := true) : Cmd Unit := throw ⟨message, restored⟩

def require (c : Prop) [Decidable c] (message : String) : Cmd Unit := if c then pure () else die message

/-- A durable change of the files. -/
def changeFiles (f : Files Node → Files Node) : Cmd Unit :=
  visit fun m => ⟨{ m.store with files := f m.store.files }, m.sealing⟩

/-- A durable change of the record. -/
def writeRecord (sealing : Bool) (file : RequestFile) : Cmd Unit :=
  visit fun m => ⟨{ m.store with record := some file }, sealing⟩

def store : Cmd Store := fun t => .ok t.now.store t

/-- How an external command on the files ends: it does its work, or it stops and leaves something else. -/
inductive Attempt (δ : Type) where
  | works
  | stops (leaves : δ)

/-- `mv src dst`, with its success. A `mv` that stops on the way from one file system to another leaves something of
    both trees. -/
def mv (attempt : Attempt (Files Node × Files Node)) (src dst : Location) : Cmd Bool := do
  let files := (← store).files
  match attempt with
  | .works =>
      match move Node.isDir files src dst with
      | some files' => do
          changeFiles fun _ => files'
          pure true
      | none => pure false
  | .stops leaves => do
      changeFiles fun fs => put (put fs src leaves.1) (landing Node.isDir fs src.head? dst) leaves.2
      pure false

/-- `cp -a src dst`, with its success. -/
def cp (attempt : Attempt (Files Node)) (src dst : Location) : Cmd Bool := do
  let files := (← store).files
  match attempt with
  | .works =>
      match copy Node.isDir files src dst with
      | some files' => do
          changeFiles fun _ => files'
          pure true
      | none => pure false
  | .stops part => do
      changeFiles fun fs => put fs (landing Node.isDir fs src.head? dst) part
      pure false

/-- `rm -rf path`; the script ends when it fails. -/
def rm (attempt : Attempt (Files Node)) (path : Location) : Cmd Unit := do
  match attempt with
  | .works => changeFiles fun fs => put fs path nothing
  | .stops part => do
      changeFiles fun fs => put fs path part
      die ""

/-- `mkdir -p path`. -/
def mkdirs (path : Location) : Cmd Unit :=
  changeFiles fun fs q => if q <:+ path ∧ (fs q).isNone then some (.directory 0o700) else fs q

/-! ## Records on disk -/

/-- `sha256sum` of the canonical text of a record, and `tree_sha` of a tree. -/
structure Tools where
  digest : Request → String
  treeDigest : Files Node → String

section
variable (tools : Tools)

/-- `verify_request`. -/
def verifyRequest : RequestFile → Ctl Request
  | .torn => refuse 65 "request record is malformed"
  | .document r sha => do
      ensure (isSha r.artifact.zipSha256 = true ∧ isSha r.artifact.stageSha256 = true ∧
        isVersion r.requiredOpatchVersion = true) 65 "request record is malformed"
      let expected ← need sha 65 "request record is missing its integrity hash"
      ensure (tools.digest r = expected) 65 "request record integrity check failed"
      .ok r

/-- A check of another module of the scripts. -/
def check {α : Type} (outcome : Ctl α) : Cmd α :=
  match outcome with
  | .ok a => pure a
  | .error refusal => throw ⟨refusal.message, true⟩

/-- `load_request`. -/
def loadRequest (id : String) : Cmd Request := do
  require (Accepted (opuValidateIdentifier id "request-id") = true) "invalid request-id"
  match (← store).record with
  | none => throw ⟨"request does not exist: " ++ id, true⟩
  | some file => check (verifyRequest tools file)

/-- Which parts of a record update succeed: `jq … >FILE.tmp`, its rename, the three commands of `seal` that can fail
    with the record still to be written, the removal of the temporary file, and `cat`. -/
structure Update where
  text : Bool
  rename : Bool
  canonical : Bool
  hash : Bool
  write : Bool
  unlink : Bool
  print : Bool

/-- `seal`: `jq … >FILE` truncates the record before it writes it. -/
def sealRecord (u : Update) : Cmd Unit := do
  match (← store).record with
  | some (.document r _) => do
      require (u.canonical = true) ""
      require (u.hash = true) ""
      writeRecord true .torn
      require (u.write = true) ""
      writeRecord false (.document r (some (tools.digest r)))
      require (u.unlink = true) ""
  | _ => die ""

/-- `jq … >FILE.tmp && mv FILE.tmp FILE; seal FILE; cat FILE`: a `jq` that fails only skips the rename. -/
def updateRecord (u : Update) (next : Request) : Cmd Unit := do
  if u.text = true then do
    require (u.rename = true) ""
    writeRecord true (.document next none)
  sealRecord tools u
  require (u.print = true) ""

/-! ## approve and quiesce -/

/-- What every command is called with. -/
structure Call where
  root : Bool
  id : String
  actor : String
  now : String

/-- `require_root`, `load_request` and the check of the actor. -/
def enter (call : Call) : Cmd Request := do
  require (call.root = true) "this operation must run as root"
  let r ← loadRequest tools call.id
  require (Accepted (opuValidateIdentifier call.actor "actor") = true) "invalid actor"
  pure r

def approve (call : Call) (ticket : String) (u : Update) : Cmd Unit := do
  let r ← enter tools call
  require (Accepted (opuValidateIdentifier ticket "approval-ticket") = true) "invalid approval-ticket"
  require (r.state = .awaitingApproval) "request is not awaiting approval"
  require (call.actor ≠ r.requester) "requester cannot approve its own OPatch upgrade"
  updateRecord tools u { r with state := .approved, approval := some ⟨call.actor, ticket, call.now⟩ }

/-- What `quiesce` meets: the instances of the home's owner, its listeners, whether they go down, what is still running
    afterwards, and the digests of the two logs. -/
structure QuiesceWorld where
  sids : List String
  listeners : List String
  shutdown : Bool
  stop : Bool
  active : List String
  databaseLogSha256 : String
  listenerLogSha256 : String
  update : Update

def quiesce (call : Call) (w : QuiesceWorld) : Cmd Unit := do
  let r ← enter tools call
  require (r.state = .approved) "request must be approved before services can be quiesced"
  require (w.sids.length = 1) "expected exactly one database PMON"
  require (w.listeners.length ≤ 1)
    "multiple listeners from the Oracle home require an explicit maintenance procedure"
  require (w.shutdown = true) "database shutdown failed; listener was not stopped"
  require (w.listeners = [] ∨ w.stop = true) "listener stop failed after database shutdown"
  require (w.active = []) "Oracle-home services remain active after quiesce"
  updateRecord tools w.update { r with
    state := .quiesced
    quiesce := some ⟨call.actor, call.now, w.sids.headD "", w.listeners.head?, w.databaseLogSha256,
      w.listenerLogSha256⟩ }

/-! ## apply and rollback -/

/-- What `apply` meets: the digest and the versions that `analyze` finds, the processes of the home, whether the backup
    root can be prepared, and how the commands on the trees end. -/
structure ApplyWorld where
  zipSha256 : String
  staged : String
  current : String
  processes : List String
  prepare : Bool
  preserve : Attempt (Files Node × Files Node)
  copy : Attempt (Files Node)
  version : String
  discard : Attempt (Files Node)
  restore : Attempt (Files Node × Files Node)
  treeSha : Bool
  update : Update

/-- The status of `analyze` is `passed`. -/
def analysisPassed (r : Request) (files : Files Node) (w : ApplyWorld) : Prop :=
  w.zipSha256 = r.artifact.zipSha256 ∧ tools.treeDigest (tree files r.staged) = r.artifact.stageSha256 ∧
    w.staged = r.requiredOpatchVersion ∧ isVersion w.current = true

instance (r : Request) (files : Files Node) (w : ApplyWorld) : Decidable (analysisPassed tools r files w) := by
  unfold analysisPassed
  infer_instance

/-- The replacement itself: the original tree is moved away, the staged one copied and tried. -/
def replace (r : Request) (before : Location) (w : ApplyWorld) : Cmd Unit := do
  let preserved ← mv w.preserve r.opatch before
  require (preserved = true) "could not preserve current OPatch directory"
  let copied ← cp w.copy r.staged r.opatch
  if copied = false then do
    let restored ← mv w.restore before r.opatch
    die "OPatch replacement failed and original was restored" restored
  else if w.version ≠ r.requiredOpatchVersion then do
    rm w.discard r.opatch
    let restored ← mv w.restore before r.opatch
    die ("replacement verification failed (got '" ++ w.version ++ "'); original was restored") restored
  else pure ()

def apply (call : Call) (w : ApplyWorld) : Cmd Unit := do
  let r ← enter tools call
  require (r.state = .approved ∨ r.state = .quiesced) "request is not approved for application"
  require (analysisPassed tools r (← store).files w) "OPatch upgrade analysis failed; no change made"
  require (w.processes = []) "Oracle processes are still running from this home"
  mkdirs (locate r.backupRoot)
  require (w.prepare = true) ""
  let before := locate (r.before call.id)
  require (((← store).files before).isNone = true) "backup already exists"
  replace r before w
  require (w.treeSha = true) ""
  let files := (← store).files
  updateRecord tools w.update { r with
    state := .applied
    apply := some ⟨call.actor, call.now, r.before call.id, tools.treeDigest (tree files before),
      tools.treeDigest (tree files r.opatch)⟩ }

/-- What `rollback` meets. -/
structure RollbackWorld where
  processes : List String
  preserve : Attempt (Files Node × Files Node)
  restore : Attempt (Files Node × Files Node)
  undo : Attempt (Files Node × Files Node)
  update : Update

/-- The two moves of `rollback`. -/
def switchBack (r : Request) (backup replaced : Location) (w : RollbackWorld) : Cmd Unit := do
  let preserved ← mv w.preserve r.opatch replaced
  require (preserved = true) "could not preserve replacement OPatch"
  let back ← mv w.restore backup r.opatch
  if back = false then do
    let restored ← mv w.undo replaced r.opatch
    die "rollback failed; replacement was restored" restored
  else pure ()

def rollback (call : Call) (w : RollbackWorld) : Cmd Unit := do
  let r ← enter tools call
  require (r.state = .applied) "only an applied request can be rolled back"
  let path := (r.apply.map Apply.backupPath).getD "null"
  require ((((← store).files (locate path)).map Node.isDir).getD false = true) "saved OPatch backup is missing"
  require (w.processes = []) "Oracle processes are still running from this home"
  switchBack r (locate path) (locate (path ++ ".replaced")) w
  updateRecord tools w.update { r with state := .rolledBack, rollback := some ⟨call.actor, call.now⟩ }

end

end OraclePatching.Opatch
