import OraclePatching.Lib.Names
import OraclePatching.Lib.Processes

/-!
# `Pipeline.Runner` — background runs of several controllers over one directory (`webapp/pipeline_runner.py`)

A run belongs to the controller that started it: a record in its memory, a worker thread that shares the record, and
the file `run.json` to which the record is written whenever it changes. Any controller may read the file, keep what
it read as a record of its own (`get_run`), and resolve a run whose outcome is unknown (`reconcile_run`).

`start_run` and `reconcile_run` hold a file lock that the controllers share, so at most one such call is at work; it
proceeds statement by statement, and between two of them workers write, controllers start and controllers die. A
worker takes no file lock. The lock inside a process is left out: it only takes interleavings away.

Not modelled: times, log lines, notifications, and the coordinates of the remote execution in the context.
-/

namespace OraclePatching.Pipeline

/-! ## Records -/

inductive Status where
  | queued
  | running
  | unknown
  | reconciling
  | succeeded
  | failed
  deriving DecidableEq, Repr

/-- `_UNRESOLVED`. -/
def Status.unresolved : Status → Bool
  | .queued | .running | .unknown | .reconciling => true
  | .succeeded | .failed => false

/-- Process ID and `_PROCESS_ID` of a controller. -/
structure Owner where
  pid : Nat
  instanceId : Nat
  deriving DecidableEq

structure Context where
  detachedExecution : Bool
  detachedTerminal : Bool
  deriving DecidableEq

structure Reconciliation where
  actor : String
  note : Option String
  status : Status
  deriving DecidableEq

structure RunRecord where
  runId : String
  kind : String
  key : String
  status : Status
  owner : Owner
  context : Context
  result : Option String
  error : Option String
  reconciliation : Option Reconciliation
  deriving DecidableEq

def newRecord (runId kind key : String) (owner : Owner) : RunRecord :=
  ⟨runId, kind, key, .queued, owner, ⟨false, false⟩, none, none, none⟩

/-- The status of a run whose function has raised. -/
def raisedStatus (context : Context) : Status :=
  if context.detachedExecution && !context.detachedTerminal then .unknown else .failed

/-- What `inspect` finds out. -/
structure Outcome where
  status : Status
  result : Option String
  error : Option String

/-- `str.strip` leaves nothing. -/
def blank (text : String) : Bool :=
  text.toList.all fun c => c.isWhitespace || c.toNat == 0x0b || c.toNat == 0x0c || (0x1c ≤ c.toNat && c.toNat ≤ 0x1f) ||
    c.toNat == 0x85 || c.toNat == 0xa0 || c.toNat == 0x1680 || (0x2000 ≤ c.toNat && c.toNat ≤ 0x200a) ||
    c.toNat == 0x2028 || c.toNat == 0x2029 || c.toNat == 0x202f || c.toNat == 0x205f || c.toNat == 0x3000

/-! ## Controllers -/

/-- Where a worker stands. -/
inductive WorkerStage where
  /-- The thread is to be started. -/
  | starting
  /-- The record says `running`, the file does not yet. -/
  | announcing
  /-- `fn(record)`: the steps of the run. -/
  | working
  /-- The record has its outcome, the file does not yet. -/
  | settled
  /-- The last write is done, or has failed. -/
  | persisted
  deriving DecidableEq

/-- A controller process: `_PROCESS_ID`, `RUNS`, `_ACTIVE_KEYS` and its worker threads. -/
structure Controller where
  instanceId : Nat
  runs : String → Option RunRecord
  activeKeys : String → Option String
  workers : String → Option WorkerStage

def Controller.fresh (instanceId : Nat) : Controller := ⟨instanceId, fun _ => none, fun _ => none, fun _ => none⟩

def Controller.setRun (c : Controller) (r : RunRecord) : Controller := { c with runs := setName c.runs r.runId (some r) }

def Controller.setWorker (c : Controller) (runId : String) (stage : Option WorkerStage) : Controller :=
  { c with workers := setName c.workers runId stage }

/-- `_ACTIVE_KEYS.pop(key)` where the key is the run's. -/
def Controller.popKey (c : Controller) (key runId : String) : Controller :=
  if c.activeKeys key = some runId then { c with activeKeys := setName c.activeKeys key none } else c

/-- Where `start_run` stands. -/
inductive StartStage where
  | check
  | scan (remaining : List String)
  | register

/-- Where `reconcile_run` stands. -/
inductive ReconcileStage where
  | branch (confirm : Bool)
  | inspect
  | apply (outcome : Outcome)
  | pop

/-- The call that holds the file lock. -/
inductive Call where
  | start (pid : Nat) (record : RunRecord) (stage : StartStage)
  | reconcile (pid : Nat) (runId actor : String) (note : Option String) (stage : ReconcileStage)

def Call.pid : Call → Nat
  | .start pid _ _ => pid
  | .reconcile pid _ _ _ _ => pid

/-- The controllers by process ID, the files, the call under the lock. `released` are the runs that `reconcile_run`
    has marked terminal on disk: a record of what happened, which nobody reads. -/
structure State where
  controllers : Processes Controller
  instances : Nat
  disk : String → Option RunRecord
  directories : List String
  call : Option Call
  released : List String

def State.empty : State := ⟨.none, 0, fun _ => none, [], none, []⟩

/-! ## Files -/

/-- `write_json`: carried out; failed with the old file in place; failed after the new file was in place. -/
inductive Write where
  | done
  | lost
  | torn
  deriving DecidableEq

/-- The new file is in place. -/
def Write.reached : Write → Bool
  | .lost => false
  | _ => true

namespace State
variable (s : State)

def setController (pid : Nat) (c : Controller) : State :=
  { s with controllers := s.controllers.update pid (some c) }

/-- `record._persist()`. -/
def persist (r : RunRecord) (write : Write) : State :=
  if write.reached then
    { s with
      disk := setName s.disk r.runId (some r)
      directories := if r.runId ∈ s.directories then s.directories else r.runId :: s.directories }
  else s

/-- The call returns or raises, and the file lock is free. -/
def unlock : State := { s with call := none }

end State

/-- `get_run`: the record in memory, or what is on disk, kept in memory. -/
def getRun (c : Controller) (s : State) (runId : String) : Controller × Option RunRecord :=
  match c.runs runId with
  | some r => (c, some r)
  | none =>
      match s.disk runId with
      | none => (c, none)
      | some d =>
          let loaded :=
            if d.status.unresolved && d.owner.instanceId != c.instanceId then
              { d with status := .unknown,
                       error := some "Controller ownership was lost; reconcile the execution before relaunching" }
            else d
          ({ c with runs := setName c.runs runId (some loaded) }, some loaded)

/-- `_owner_alive`: a controller has the process ID, or an unrelated process has it. -/
def ownerAlive (s : State) (owner : Owner) (taken : Bool) : Bool := (s.controllers owner.pid).isSome || taken

/-- A note that closes interrupted work. -/
def closing (confirm : Bool) (note : Option String) : Bool := confirm && note.any (!blank ·)

def closedOutcome : Outcome := ⟨.failed, none, some "Interrupted work closed after operator verification"⟩

/-! ## Steps -/

/-- What a worker does next. -/
inductive WorkerMove where
  /-- The thread starts and marks its record. -/
  | run
  /-- The thread cannot be started. -/
  | unstarted (write : Write)
  /-- The record is written: announced, logged, or for the last time. -/
  | write (write : Write)
  | setContext (context : Context)
  | finish (result : String)
  | raise (error : String)

inductive Action where
  | boot (pid : Nat)
  | crash (pid : Nat)
  | lookUp (pid : Nat) (runId : String)
  | startRun (pid : Nat) (runId kind key : String)
  | reconcileRun (pid : Nat) (runId actor : String) (confirm : Bool) (note : Option String)
  /-- The call under the lock goes on; `taken`: an unrelated process has the process ID it asks for. -/
  | proceed (write : Write) (taken : Bool)
  | inspected (outcome : Outcome)
  | work (pid : Nat) (runId : String) (move : WorkerMove)

/-- The worker thread of `start_run`, with the record it shares. -/
def workerMove (s : State) (pid : Nat) (c : Controller) (r : RunRecord) (stage : WorkerStage) :
    WorkerMove → Option State
  | .run =>
      if stage = .starting then
        some (s.setController pid ((c.setRun { r with status := .running }).setWorker r.runId (some .announcing)))
      else none
  | .unstarted write =>
      if stage = .starting then
        let failed := { r with status := .failed, error := some "Worker thread could not be started" }
        let c := (c.setRun failed).setWorker r.runId none
        some ((s.persist failed write).setController pid (if write = .done then c.popKey r.key r.runId else c))
      else none
  | .write write =>
      match stage with
      | .announcing =>
          if write = .done then some ((s.persist r write).setController pid (c.setWorker r.runId (some .working)))
          else
            let raised := { r with status := raisedStatus r.context, error := some "OSError" }
            some ((s.persist r write).setController pid ((c.setRun raised).setWorker r.runId (some .settled)))
      | .working => some (s.persist r write)
      | .settled =>
          -- a failed write leaves the unresolved owner in place
          let r' := if write = .done then r else { r with status := .unknown }
          some ((s.persist r write).setController pid ((c.setRun r').setWorker r.runId (some .persisted)))
      | .persisted =>
          let c := c.setWorker r.runId none
          some (s.setController pid (if r.status.unresolved then c else c.popKey r.key r.runId))
      | .starting => none
  | .setContext context =>
      if stage = .working then some (s.setController pid (c.setRun { r with context := context })) else none
  | .finish result =>
      if stage = .working then
        some (s.setController pid
          ((c.setRun { r with status := .succeeded, result := some result }).setWorker r.runId (some .settled)))
      else none
  | .raise error =>
      if stage = .working then
        some (s.setController pid
          ((c.setRun { r with status := raisedStatus r.context, error := some error }).setWorker r.runId (some .settled)))
      else none

/-- The next statement of `start_run` under the lock. -/
def startStep (s : State) (pid : Nat) (c : Controller) (r : RunRecord) (write : Write) : StartStage → State
  | .check =>
      match c.activeKeys r.key with
      | some _ => s.unlock
      | none =>
          { s with call := some (.start pid r (.scan (s.directories.mergeSort fun a b => decide (a ≤ b)))) }
  | .scan (runId :: remaining) =>
      match s.disk runId with
      | none => s.unlock
      | some d =>
          if d.key = r.key ∧ d.status.unresolved = true then s.unlock
          else { s with call := some (.start pid r (.scan remaining)) }
  | .scan [] =>
      if write = .done then { s.persist r write with call := some (.start pid r .register) }
      else (s.persist r write).unlock
  | .register =>
      (s.setController pid
        { c with
          activeKeys := setName c.activeKeys r.key (some r.runId)
          runs := setName c.runs r.runId (some r)
          workers := setName c.workers r.runId (some .starting) }).unlock

/-- The next statement of `reconcile_run` under the lock, with the record of the controller that runs it. -/
def reconcileStep (s : State) (pid : Nat) (c : Controller) (r : RunRecord) (actor : String) (note : Option String)
    (write : Write) (taken : Bool) : ReconcileStage → Option State
  | .branch confirm =>
      if r.context.detachedExecution then some { s with call := some (.reconcile pid r.runId actor note .inspect) }
      else if !closing confirm note || ownerAlive s r.owner taken then some s.unlock
      else some { s with call := some (.reconcile pid r.runId actor note (.apply closedOutcome)) }
  | .inspect => none
  | .apply outcome =>
      let r' := { r with status := outcome.status, result := outcome.result, error := outcome.error,
                         reconciliation := some ⟨actor, note, outcome.status⟩ }
      let s' := (s.persist r' write).setController pid (c.setRun r')
      let s' := if write.reached && !outcome.status.unresolved then { s' with released := r.runId :: s'.released } else s'
      if write = .done then some { s' with call := some (.reconcile pid r.runId actor note .pop) } else some s'.unlock
  | .pop => some (s.setController pid (if r.status.unresolved then c else c.popKey r.key r.runId)).unlock

def step (s : State) : Action → Option State
  | .boot pid =>
      match s.controllers pid with
      | some _ => none
      | none => some { s.setController pid (.fresh s.instances) with instances := s.instances + 1 }
  | .crash pid =>
      (s.controllers pid).map fun _ =>
        { s with
          controllers := s.controllers.update pid none
          call := s.call.filter fun call => call.pid ≠ pid }
  | .lookUp pid runId =>
      (s.controllers pid).map fun c => s.setController pid (getRun c s runId).1
  | .startRun pid runId kind key =>
      match s.controllers pid, s.call with
      | some c, none =>
          -- `uuid4`: the ID is new
          if runId ∈ s.directories then none
          else some { s with call := some (.start pid (newRecord runId kind key ⟨pid, c.instanceId⟩) .check) }
      | _, _ => none
  | .reconcileRun pid runId actor confirm note =>
      match s.controllers pid, s.call with
      | some c, none =>
          if actor = "" then some s
          else
            let kept := s.setController pid (getRun c s runId).1
            match (getRun c s runId).2 with
            | some r =>
                if r.status = .unknown ∨ r.status = .reconciling then
                  some { kept with call := some (.reconcile pid runId actor note (.branch confirm)) }
                else some kept
            | none => some s
      | _, _ => none
  | .proceed write taken =>
      match s.call with
      | some (.start pid r stage) => (s.controllers pid).map fun c => startStep s pid c r write stage
      | some (.reconcile pid runId actor note stage) =>
          match s.controllers pid with
          | some c =>
              match c.runs runId with
              | some r => reconcileStep s pid c r actor note write taken stage
              | none => none
          | none => none
      | none => none
  | .inspected outcome =>
      match s.call with
      | some (.reconcile pid runId actor note .inspect) =>
          if outcome.status = .succeeded ∨ outcome.status = .failed ∨ outcome.status = .unknown then
            some { s with call := some (.reconcile pid runId actor note (.apply outcome)) }
          else some s.unlock
      | _ => none
  | .work pid runId move =>
      match s.controllers pid with
      | some c =>
          match c.runs runId, c.workers runId with
          | some r, some stage => workerMove s pid c r stage move
          | _, _ => none
      | none => none

end OraclePatching.Pipeline
