import OraclePatching.Lib.Names
import OraclePatching.Controller.Records

/-!
# `Recovery.Requests` — the request records of `opu-database-recovery-prepare` and the checks on them

A recovery preparation is one file, `request.json`, beside the immutable `request-input.json` it was created with.
Both carry their own digest: `seal_file` writes it and `verify_record` recomputes it on every load. A file whose
rewriting was cut short is `torn`; a record that was replaced and not sealed again has no digest. Neither loads.
-/

namespace OraclePatching.Recovery

/-! ## Records -/

inductive RequestState where
  | awaitingApproval
  | approved
  | authorized
  | running
  | completed
  | blocked
  | failedServicesRestored
  | validationFailed
  | recoveryRequired
  deriving DecidableEq, Repr

/-- The states no command leads out of. -/
def RequestState.isTerminal : RequestState → Bool
  | .awaitingApproval | .approved | .authorized | .running => false
  | .completed | .blocked | .failedServicesRestored | .validationFailed | .recoveryRequired => true

/-- `CURRENT_PHASE`; `interrupted` is the phase a reconciled failure is recorded under. -/
inductive Phase where
  | initializing
  | validatingRman
  | quiesce
  | archive
  | mount
  | backup
  | restoreServices
  | sealingEvidence
  | validatingRecovery
  | completed
  | interrupted
  deriving DecidableEq, Repr

structure BoundFile where
  path : String
  sha256 : Digest
  deriving DecidableEq

structure Target where
  databaseUniqueName : String
  oracleHome : String
  owner : String
  oracleSid : String
  deriving DecidableEq

structure Backup where
  parent : String
  root : String
  deriving DecidableEq

structure MaintenanceWindow where
  opens : String
  closes : String
  deriving DecidableEq

/-- What a request asks for; `request-input.json` holds nothing else. -/
structure RequestInput where
  requestId : String
  requester : String
  createdAt : String
  sourceSnapshot : BoundFile
  policy : BoundFile
  target : Target
  backup : Backup
  maintenanceWindow : MaintenanceWindow
  deriving DecidableEq

structure SourceRequest where
  path : String
  sha256 : Digest
  recordSha256 : Digest

structure Approval where
  actor : String
  ticket : String
  approvedAt : String

structure Authorization where
  actor : String
  authorizedAt : String

/-- `.execution`, with the times of its phases left out. -/
structure Execution where
  actor : String
  startedAt : String
  phase : Phase
  requiredBytes : Nat
  availableBytes : Nat
  listener : Option String

structure Failure where
  phase : Phase
  exitCode : Option Nat
  servicesRestored : Bool
  recordedAt : String

structure Reconciliation where
  actor : String
  reconciledAt : String
  classification : RequestState

/-- What a request keeps for good. -/
structure RequestBase extends RequestInput where
  sourceRequest : SourceRequest

/-- What it keeps from its authorization on. -/
structure Core extends RequestBase where
  approval : Option Approval
  authorization : Option Authorization

/-- `request.json` without its digest. -/
structure Record extends Core where
  state : RequestState
  execution : Option Execution
  failure : Option Failure
  reconciliation : Option Reconciliation

/-- `request.json` as it stands on disk: a JSON document with or without `record_sha256`, or the first part of one. -/
inductive RequestFile where
  | torn
  | document (record : Record) (recordSha256 : Option Digest)

/-- `request-input.json`. -/
structure SourceFile where
  input : RequestInput
  recordSha256 : Option Digest

/-! ## The state directory -/

/-- `LOCK_DIR/owner`. -/
structure Owner where
  requestId : String
  pid : Nat
  deriving DecidableEq

/-- The requests, and the lock directories under `locks/`, each with its owner file when that is written. -/
structure Store where
  requests : String → Option RequestFile
  sources : String → Option SourceFile
  locks : String → Option (Option Owner)

def Store.empty : Store := ⟨fun _ => none, fun _ => none, fun _ => none⟩

/-! ## The machine -/

/-- A topology snapshot: what the command reads of it. -/
structure Database where
  dbUniqueName : String
  oracleHome : String
  runtimeStatus : String
  databaseRole : String
  openMode : String
  instanceState : String
  inst : String

structure Home where
  path : String
  owner : String

structure Snapshot where
  sha256 : Digest
  topologyContract : Bool
  standalone : Bool
  collectedAt : String
  databases : List Database
  oracleHomes : List Home

structure Policy where
  sha256 : Digest
  contract : Bool
  maximumSnapshotAgeSeconds : Option Nat
  listenerRegistrationTimeoutSeconds : Option Nat

/-- The programs the command calls: `sha256sum`, `jq` and `date`. -/
structure Tools where
  stateRoot : String
  sha256sum : String → String
  recordDigest : Record → Digest
  inputDigest : RequestInput → Digest
  sourceFileDigest : SourceFile → Digest
  epoch : String → Option Int

/-- What the files outside the state directory look like to one invocation. -/
structure Machine where
  now : Int
  nowUtc : String
  snapshots : String → Option Snapshot
  policies : String → Option Policy
  canonicalDir : String → Option String
  isLink : String → Bool
  ownerOf : String → String
  primaryGroup : String → String
  present : String → Bool

variable (tools : Tools)

/-! ## Sealing and loading -/

/-- `seal_file` on `request.json`, when it is done. -/
def sealFile (r : Record) : RequestFile := .document r (some (tools.recordDigest r))

def sealSource (input : RequestInput) : SourceFile := ⟨input, some (tools.inputDigest input)⟩

def sourcePath (id : String) : String := tools.stateRoot ++ "/" ++ id ++ "/request-input.json"

/-- `valid_id`. -/
def validId (value : String) : Bool := Accepted (opuValidateIdentifier value "")

/-- `verify_record`, with the record it read. -/
def verifyRecord : RequestFile → Ctl Record
  | .torn => refuse 65 "request record contract is invalid"
  | .document r digest => do
      let expected ← need digest 65 "request record is missing a valid integrity digest"
      ensure (tools.recordDigest r = expected) 65 "request record integrity verification failed"
      .ok r

/-- `verify_source_request`. -/
def verifySourceRequest (s : Store) (id : String) (r : RequestBase) : Ctl Unit := do
  ensure (r.sourceRequest.path = sourcePath tools id) 65 "immutable source-request path is invalid"
  let file ← need (s.sources id) 65 "immutable source request is missing"
  ensure (tools.sourceFileDigest file = r.sourceRequest.sha256) 65 "immutable source-request file digest changed"
  ensure (tools.inputDigest file.input = r.sourceRequest.recordSha256) 65
    "immutable source-request record digest changed"
  ensure (file.input.requestId = r.requestId ∧ file.input.requester = r.requester ∧
      file.input.sourceSnapshot = r.sourceSnapshot ∧ file.input.policy = r.policy ∧
      file.input.target = r.target ∧ file.input.backup = r.backup ∧
      file.input.maintenanceWindow = r.maintenanceWindow) 65
    "mutable request no longer matches the immutable source request"

def loadRequest (s : Store) (id : String) : Ctl Record := do
  ensure (validId id = true) 65 "invalid request-id"
  let file ← need (s.requests id) 65 ("request does not exist: " ++ id)
  let r ← verifyRecord tools file
  verifySourceRequest tools s id r.toRequestBase
  .ok r

/-! ## The bound inputs -/

/-- The characters `safe_path` admits. -/
def pathChar (c : Char) : Bool := c.isAlphanum || "._/+:-".toList.contains c

def safePath (m : Machine) (path label : String) : Ctl Unit := do
  ensure (Accepted (opuValidateAbsolutePath path label) = true) 65 (label ++ " is not a normalized absolute path")
  ensure (path.toList.all pathChar = true) 65 (label ++ " contains unsupported characters")
  ensure (m.isLink path = false) 65 (label ++ " cannot be a symbolic link")

def verifyOpenWindow (m : Machine) (r : Record) : Ctl Unit := do
  let opens ← need (tools.epoch r.maintenanceWindow.opens) 65 "request window start is invalid"
  let closes ← need (tools.epoch r.maintenanceWindow.closes) 65 "request window end is invalid"
  ensure (opens ≤ m.now ∧ m.now ≤ closes) 65 "maintenance window is not open"

def verifyBoundInputs (m : Machine) (r : Record) : Ctl Unit := do
  safePath m r.sourceSnapshot.path "snapshot"
  safePath m r.policy.path "policy"
  let snapshot ← need (m.snapshots r.sourceSnapshot.path) 65 "bound snapshot or policy is missing"
  let policy ← need (m.policies r.policy.path) 65 "bound snapshot or policy is missing"
  ensure (snapshot.sha256 = r.sourceSnapshot.sha256) 65 "bound snapshot digest changed"
  ensure (policy.sha256 = r.policy.sha256) 65 "bound policy digest changed"
  ensure (snapshot.topologyContract = true) 65 "bound topology snapshot is invalid"
  let maxAge ← need policy.maximumSnapshotAgeSeconds 65 "policy snapshot maximum age is invalid"
  ensure (60 ≤ maxAge ∧ maxAge ≤ 86400) 65 "policy snapshot maximum age is invalid"
  let collected ← need (tools.epoch snapshot.collectedAt) 65 "snapshot collection timestamp is invalid"
  ensure (collected ≤ m.now) 65 "snapshot collection timestamp is in the future"
  ensure (m.now - collected ≤ maxAge) 65 "bound topology snapshot is stale"
  let _ ← need (tools.epoch r.maintenanceWindow.closes) 65 "request window end is invalid"
  let opens ← need (tools.epoch r.maintenanceWindow.opens) 65 "request window start is invalid"
  ensure (opens ≤ collected + maxAge) 65 "maintenance window starts after snapshot authority expires"
  let parent ← need (m.canonicalDir r.backup.parent) 65 "backup parent cannot be resolved"
  ensure (parent = r.backup.parent) 65 "backup parent canonical identity changed"

def resolveSnapshotTarget (m : Machine) (r : Record) : Ctl Unit := do
  let snapshot ← need (m.snapshots r.sourceSnapshot.path) 2 ""
  match snapshot.databases.filter (·.dbUniqueName == r.target.databaseUniqueName) with
  | [database] => do
      ensure (database.oracleHome = r.target.oracleHome) 65 "snapshot database home does not match the sealed request"
      match snapshot.oracleHomes.filter (·.path == database.oracleHome) with
      | [home] => do
          ensure (home.owner = r.target.owner) 65 "snapshot Oracle-home owner does not match the sealed request"
          ensure (database.runtimeStatus = "complete") 65 "snapshot database runtime is not complete"
      | _ => refuse 65 "snapshot Oracle-home identity is ambiguous"
  | _ => refuse 65 "snapshot no longer contains exactly one requested database"

/-- `configure_listener_timeout`: 120 seconds unless the policy says otherwise. -/
def configureListenerTimeout (m : Machine) (r : Record) : Ctl Nat := do
  let policy ← need (m.policies r.policy.path) 2 ""
  let timeout := policy.listenerRegistrationTimeoutSeconds.getD 120
  ensure (10 ≤ timeout ∧ timeout ≤ 600) 65
    "database.listener_registration_timeout_seconds must be between 10 and 600"
  .ok timeout

/-- The name of the lock of a database and its home. -/
def lockKey (target : Target) : String := tools.sha256sum (target.oracleHome ++ "|" ++ target.databaseUniqueName)

end OraclePatching.Recovery
