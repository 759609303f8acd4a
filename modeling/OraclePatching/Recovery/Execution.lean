import OraclePatching.Lib.Trace
import OraclePatching.Recovery.Requests

/-!
# `Recovery.Execution` — create, approve, authorize, execute and reconcile as scripts of durable steps

An accepted command is the list of its file writes, lock operations and service actions in the order of the source.
`update_request` is six of them: the new record replaces the old one without a digest, and `seal_file` then truncates
and rewrites it. `execute` holds the lock of its database home from before the `running` record until after the
terminal one; a command that fails on the way goes through `execute_exit_trap`.
-/

namespace OraclePatching.Recovery

/-! ## Steps -/

/-- What a command does outside the state directory. -/
inductive Act where
  | preflight
  | makeBackupRoot
  | writeRmanCommands
  | checkSyntax
  | stopListener
  | shutdown
  | archiveHome
  | archiveInventory
  | startupMount
  | checkMount
  | rmanBackup
  | openDatabase
  | startListener
  | registerServices
  | verifyListenerServices
  | probeLiveDatabase
  | sealManifest
  | writeChecksums
  | validateRecovery
  | unlinkIncomplete
  | failureOpen
  | failureStartup
  | failureListenerStart
  | failureRegister
  deriving DecidableEq, Repr

/-- One step of a command. `temporary` writes or removes a file that no command reads. -/
inductive Write where
  | temporary
  | request (id : String) (file : RequestFile)
  | source (id : String) (file : SourceFile)
  | mkdirLock (key : String)
  | owner (key : String) (o : Owner)
  | unlinkOwner (key : String)
  | rmdirLock (key : String)
  | act (a : Act)

def Store.setLock (s : Store) (key : String) (lock : Option (Option Owner)) : Store :=
  { s with locks := setName s.locks key lock }

/-- The effect of a step; only `mkdir` of the lock can be refused. -/
def exec (s : Store) : Write → Option Store
  | .temporary | .act _ => some s
  | .request id file => some { s with requests := setName s.requests id (some file) }
  | .source id file => some { s with sources := setName s.sources id (some file) }
  | .mkdirLock key => if (s.locks key).isNone then some (s.setLock key (some none)) else none
  | .owner key o => some (s.setLock key (some (some o)))
  | .unlinkOwner key => some (if (s.locks key).isSome then s.setLock key (some none) else s)
  | .rmdirLock key => some (if s.locks key = some none then s.setLock key none else s)

/-! ## What an invocation meets -/

structure Preflight where
  listener : Option String
  requiredBytes : Nat
  availableBytes : Nat

/-- What `restore_services_after_failure` meets. -/
structure Restoration where
  opens : Bool
  healthy : Bool
  listenerUp : Bool
  listenerStarts : Bool
  listenerStays : Bool
  registers : Bool
  servicesReturn : Bool

/-- `preflight` is the outcome of the checks on the live database between the lock and the `running` record, `fails`
    the actions that end with an error, `exitCode` the code they end with. -/
structure World where
  machine : Machine
  pid : Nat
  alive : Nat → Bool
  preflight : Record → Ctl Preflight
  fails : Act → Bool
  exitCode : Nat
  restoration : Restoration

variable (tools : Tools) (w : World)

/-! ## Updating a record -/

/-- `update_request`, to the record `r`. -/
def updateRequest (id : String) (r : Record) : List Write :=
  [ -- request.json.tmp, and the rename over request.json
    .temporary, .request id (.document r none),
    -- seal_file: the canonical text, the truncated file, the sealed record, the temporary file removed
    .temporary, .request id .torn, .request id (sealFile tools r), .temporary ]

/-! ## Create, approve, authorize -/

def verifyWindowShape (opens closes : String) : Ctl Unit := do
  let start ← need (tools.epoch opens) 65 "window-start must be UTC in YYYY-MM-DDTHH:MM:SSZ format"
  let stop ← need (tools.epoch closes) 65 "window-end must be UTC in YYYY-MM-DDTHH:MM:SSZ format"
  ensure (start < stop) 65 "maintenance window end must be after start"
  ensure (stop - start ≤ 86400) 65 "maintenance window cannot exceed 24 hours"

/-- The database, its home's owner and its instance, as `create` reads them off the snapshot. -/
def createTarget (snapshot : Snapshot) (database : String) : Ctl Target := do
  ensure ((snapshot.databases.filter (·.dbUniqueName == database)).length = 1) 65
    "snapshot must contain exactly one requested database"
  let db ← need (snapshot.databases.find? (·.dbUniqueName == database)) 65
    "snapshot must contain exactly one requested database"
  safePath w.machine db.oracleHome "oracle-home"
  let owner :=
    match snapshot.oracleHomes.filter (·.path == db.oracleHome) with
    | [home] => home.owner
    | _ => ""
  ensure (validId owner = true) 65 "snapshot Oracle-home owner is missing or ambiguous"
  ensure (validId db.inst = true) 65 "snapshot running SID is invalid"
  ensure (db.runtimeStatus = "complete" ∧ db.databaseRole = "PRIMARY" ∧ db.openMode = "READ WRITE" ∧
      db.instanceState = "OPEN") 65 "database is not a complete PRIMARY READ WRITE standalone target"
  ensure ((w.machine.canonicalDir db.oracleHome).isSome = true ∧ w.machine.isLink db.oracleHome = false) 65
    "Oracle home is missing or symbolic link"
  ensure (w.machine.ownerOf db.oracleHome = owner) 65 "live Oracle-home owner differs from snapshot"
  .ok ⟨database, db.oracleHome, owner, db.inst⟩

/-- `create`; of its writes only the two sealed files it leaves are listed. -/
def create (s : Store) (id requester snapshotPath policyPath database backupParent opens closes : String) :
    Ctl (List Write) := do
  ensure (validId id = true) 65 "invalid request-id"
  ensure (validId requester = true) 65 "invalid requester"
  ensure (validId database = true) 65 "invalid database"
  safePath w.machine snapshotPath "snapshot"
  safePath w.machine policyPath "policy"
  safePath w.machine backupParent "backup-parent"
  let snapshot ← need (w.machine.snapshots snapshotPath) 65 "snapshot, policy, or backup parent is missing"
  let policy ← need (w.machine.policies policyPath) 65 "snapshot, policy, or backup parent is missing"
  let parent ← need (w.machine.canonicalDir backupParent) 65 "snapshot, policy, or backup parent is missing"
  safePath w.machine parent "backup-parent-canonical"
  verifyWindowShape tools opens closes
  ensure (snapshot.topologyContract = true ∧ snapshot.standalone = true) 65
    "snapshot is not a standalone-database topology"
  ensure (policy.contract = true) 65 "policy contract is invalid"
  let target ← createTarget w snapshot database
  -- `${backup_parent_canonical%/}/$request_id`
  let root := (if parent.endsWith "/" then (parent.dropEnd 1).copy else parent) ++ "/" ++ id
  safePath w.machine root "backup-root"
  ensure (w.machine.present root = false) 65 "derived backup root already exists"
  ensure ((s.requests id).isNone = true) 65 ("request already exists: " ++ id)
  let input : RequestInput :=
    ⟨id, requester, w.machine.nowUtc, ⟨snapshotPath, snapshot.sha256⟩, ⟨policyPath, policy.sha256⟩, target,
      ⟨parent, root⟩, ⟨opens, closes⟩⟩
  let source := sealSource tools input
  let base : RequestBase :=
    ⟨input, ⟨sourcePath tools id, tools.sourceFileDigest source, tools.inputDigest input⟩⟩
  .ok [.source id source,
    .request id (sealFile tools ⟨⟨base, none, none⟩, .awaitingApproval, none, none, none⟩)]

/-- The `approved` record. -/
def approvedRecord (r : Record) (actor ticket : String) : Record :=
  { r with state := .approved, approval := some ⟨actor, ticket, w.machine.nowUtc⟩ }

def approve (s : Store) (id actor ticket : String) : Ctl (List Write) := do
  let r ← loadRequest tools s id
  ensure (validId actor = true) 65 "invalid actor"
  ensure (validId ticket = true) 65 "invalid approval-ticket"
  ensure (r.state = .awaitingApproval) 65 "request is not awaiting approval"
  ensure (actor ≠ r.requester) 65 "requester cannot approve its own recovery preparation"
  verifyBoundInputs tools w.machine r
  resolveSnapshotTarget w.machine r
  .ok (updateRequest tools id (approvedRecord w r actor ticket))

/-- `jq -r` prints a missing actor as `null`. -/
def approver (r : Record) : String := (r.approval.map (·.actor)).getD "null"

def sealedAuthorizer (r : Record) : String := (r.authorization.map (·.actor)).getD "null"

/-- The `authorized` record. -/
def authorizedRecord (r : Record) (actor : String) : Record :=
  { r with state := .authorized, authorization := some ⟨actor, w.machine.nowUtc⟩ }

def authorize (s : Store) (id actor : String) : Ctl (List Write) := do
  let r ← loadRequest tools s id
  ensure (validId actor = true) 65 "invalid actor"
  ensure (r.state = .approved) 65 "request is not approved"
  ensure (actor ≠ approver r ∧ actor ≠ r.requester) 65 "authorizer must differ from requester and approver"
  verifyBoundInputs tools w.machine r
  resolveSnapshotTarget w.machine r
  verifyOpenWindow tools w.machine r
  .ok (updateRequest tools id (authorizedRecord w r actor))

/-! ## Service restoration and the exit trap -/

/-- `restore_services_after_failure`: what it does, and whether it could prove the services healthy. -/
def restoreServicesAfterFailure (listener : Option String) : List Act × Bool :=
  let x := w.restoration
  let database := Act.failureOpen :: if x.opens then [] else [.failureStartup]
  match listener with
  | none => (database, x.healthy)
  | some _ =>
      let start := if x.listenerUp then [] else [Act.failureListenerStart]
      if x.healthy && (x.listenerUp || x.listenerStarts) && x.listenerStays then
        (database ++ start ++ [.failureRegister], x.registers && x.servicesReturn)
      else (database ++ start, false)

/-- How far an execution has come: its record, `CURRENT_PHASE` and `MUTATION_STARTED`. -/
structure Progress where
  record : Record
  phase : Phase
  mutationStarted : Bool

def failureState (phase : Phase) (restored : Bool) : RequestState :=
  if restored then
    match phase with
    | .validatingRecovery => .validationFailed
    | _ => .failedServicesRestored
  else .recoveryRequired

/-- `execute_exit_trap`, before it lets the lock go. -/
def executeExitTrap (id : String) (listener : Option String) (p : Progress) : List Write :=
  if p.mutationStarted then
    let restored := restoreServicesAfterFailure w listener
    let state := failureState p.phase restored.2
    restored.1.map .act ++ updateRequest tools id
      { p.record with
        state := state
        failure := some ⟨p.phase, some w.exitCode, state != .recoveryRequired, w.machine.nowUtc⟩ }
  else
    updateRequest tools id
      { p.record with
        state := .blocked
        failure := some ⟨p.phase, some w.exitCode, true, w.machine.nowUtc⟩ }

/-! ## Execute -/

/-- A line of `execute_request` after the `running` record. -/
inductive Line where
  | phase (phase : Phase)
  | mutation
  | act (a : Act)

/-- Lines that run only with a listener. -/
def withListener (listener : Option String) (a : Act) : List Line :=
  match listener with
  | some _ => [.act a]
  | none => []

/-- The lines of `execute_request` between the `running` and the `completed` record. -/
def executeLines (listener : Option String) : List Line :=
  [.act .makeBackupRoot, .act .writeRmanCommands, .phase .validatingRman, .act .checkSyntax,
    .mutation, .phase .quiesce] ++ withListener listener .stopListener ++ [.act .shutdown,
    .phase .archive, .act .archiveHome, .act .archiveInventory,
    .phase .mount, .act .startupMount, .act .checkMount,
    .phase .backup, .act .rmanBackup,
    .phase .restoreServices, .act .openDatabase] ++ withListener listener .startListener ++ [.act .registerServices] ++
    withListener listener .verifyListenerServices ++ [.act .probeLiveDatabase,
    .phase .sealingEvidence, .act .sealManifest, .act .writeChecksums,
    .phase .validatingRecovery, .act .validateRecovery, .act .unlinkIncomplete]

/-- `set_execution_phase` on the record. -/
def Record.setPhase (r : Record) (phase : Phase) : Record :=
  { r with execution := r.execution.map fun e => { e with phase := phase } }

/-- Carry out lines up to the first that fails: the writes, how far they came, and whether all of them passed. -/
def runLines (id : String) : Progress → List Line → List Write × Progress × Bool
  | p, [] => ([], p, true)
  | p, .mutation :: ls => runLines id { p with mutationStarted := true } ls
  | p, .phase phase :: ls =>
      let r := p.record.setPhase phase
      let rest := runLines id { p with record := r, phase := phase } ls
      (updateRequest tools id r ++ rest.1, rest.2)
  | p, .act a :: ls =>
      if w.fails a then ([.act a], p, false)
      else
        let rest := runLines id p ls
        (.act a :: rest.1, rest.2)

/-- The `running` record. -/
def runningRecord (r : Record) (actor : String) (pre : Preflight) : Record :=
  { r with
    state := .running
    execution := some ⟨actor, w.machine.nowUtc, .initializing, pre.requiredBytes, pre.availableBytes, pre.listener⟩ }

/-- What `execute` does while it holds the lock. -/
def executeHeld (id actor : String) (r : Record) : List Write :=
  match w.preflight r with
  | .error _ => [.act .preflight]
  | .ok pre =>
      let running := runningRecord w r actor pre
      let outcome := runLines tools w id ⟨running, .initializing, false⟩ (executeLines pre.listener)
      let last :=
        if outcome.2.2 then
          updateRequest tools id { (outcome.2.1.record.setPhase .completed) with state := .completed }
        else executeExitTrap tools w id pre.listener outcome.2.1
      .act .preflight :: updateRequest tools id running ++ outcome.1 ++ last

/-- `cleanup_execution_lock`. -/
def cleanupExecutionLock (key : String) : List Write := [.unlinkOwner key, .rmdirLock key]

def execute (s : Store) (id actor : String) : Ctl (List Write) := do
  let r ← loadRequest tools s id
  ensure (validId actor = true) 65 "invalid actor"
  if r.state = .completed then .ok []
  else do
    ensure (r.state = .authorized) 65 "request is not execution-authorized"
    ensure (actor = sealedAuthorizer r) 65 "execution actor differs from the sealed authorizer"
    verifyBoundInputs tools w.machine r
    resolveSnapshotTarget w.machine r
    verifyOpenWindow tools w.machine r
    ensure (validId (w.machine.primaryGroup r.target.owner) = true) 65
      "Oracle owner primary group cannot be determined"
    let key := lockKey tools r.target
    ensure ((s.locks key).isNone = true) 65
      "another recovery or patch operation owns this database home; reconcile the existing operation before proceeding"
    -- `mkdir -p locks`, `mkdir LOCK_DIR`, the owner file
    .ok ([.temporary, .mkdirLock key, .owner key ⟨id, w.pid⟩] ++ executeHeld tools w id actor r ++
      cleanupExecutionLock key)

/-! ## Reconcile -/

/-- The terminal record of a reconciliation. -/
def reconciledRecord (r : Record) (actor : String) (restored : Bool) : Record :=
  let state := if restored then .failedServicesRestored else .recoveryRequired
  { r with
    state := state
    failure := some ⟨.interrupted, none, restored, w.machine.nowUtc⟩
    reconciliation := some ⟨actor, w.machine.nowUtc, state⟩ }

/-- What `reconcile` does before it lets the lock go. -/
def reconcileHeld (id actor : String) (r : Record) : List Write :=
  let restored := restoreServicesAfterFailure w (r.execution.bind (·.listener))
  restored.1.map .act ++ updateRequest tools id (reconciledRecord w r actor restored.2)

def reconcile (s : Store) (id actor : String) : Ctl (List Write) := do
  let r ← loadRequest tools s id
  ensure (validId actor = true) 65 "invalid actor"
  ensure (r.state = .running) 65 "only an interrupted running request can be reconciled"
  ensure (actor = sealedAuthorizer r) 65 "reconciliation actor differs from the sealed authorizer"
  let _ ← configureListenerTimeout w.machine r
  let key := lockKey tools r.target
  -- without an owner file `sed` fails, and with it the pipeline
  let o ← need (s.locks key).join 2 ""
  ensure (w.alive o.pid = false) 2 "in_progress"
  .ok (reconcileHeld tools w id actor r ++ cleanupExecutionLock key)

end OraclePatching.Recovery
