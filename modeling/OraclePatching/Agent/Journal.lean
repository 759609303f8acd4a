import OraclePatching.Common
import OraclePatching.Lib.Names
import OraclePatching.Lib.Processes

/-!
# `Agent.Journal` — `opu-agent run` and the four records it keeps (`bin/opu-agent`, `lib/opu/journal.sh`)

A request binds its task ID to its idempotency key (a hard link in `task-bindings/`), takes the lock of the key,
looks for a published completion under `results/KEY`, and otherwise claims `runs/TASK`, invokes the operation and
publishes a completion by renaming a directory. Every arrow of that sentence is a file operation that another agent
may slip in front of, and after which the agent may die; `step` has one action for each.

Names matter: the temporary files are `task-bindings/TASK.tmp.PID` and `results/KEY.tmp.PID`, in the directories of
the bindings and the completions themselves, where `.tmp.PID` is also a legal ending of an identifier. So both
directories are modelled by name, the bindings with their inodes.

An input or output error of the file system ends the agent, as a crash does. The lock is `flock`'s: it is free again
when its holder is gone.

`published`, `bound`, `begun`, `invocations`, `answers` and the fields `earlier`, `found` and `invoked` of a process
are a record of what happened; no agent reads them.
-/

namespace OraclePatching.Agent

/-! ## Requests -/

structure Request where
  taskId : String
  idempotencyKey : String
  operation : String
  operationVersion : String
  deriving DecidableEq, Repr

/-- Neither `*[!a-z0-9._-]*` nor `[!a-z]*`. -/
def operationShape (value : String) : Bool :=
  match value.toList with
  | [] => false
  | c :: cs => c.isLower && (c :: cs).all fun d => d.isLower || d.isDigit || d == '.' || d == '_' || d == '-'

def opuValidateOperationName (value : String) : Ctl Unit := do
  ensure (value ≠ "" ∧ value.length ≤ 96) 64 "operation name must contain between 1 and 96 characters"
  ensure (operationShape value = true) 64 "operation name contains unsupported characters"

/-- A decimal number of at most nine digits that is not zero. -/
def validateVersion (version : String) : Ctl Unit := do
  ensure (version ≠ "" ∧ version.toList.all Char.isDigit = true) 64 "operation version must be a positive integer"
  ensure (version.length ≤ 9) 64 "operation version is outside the supported numeric range"
  ensure (version.toList.any (· ≠ '0') = true) 64 "operation version must be a positive integer"

/-- `opu_registry_resolve`: the two registered operations. -/
def opuRegistryResolve (operation version : String) : Ctl Unit :=
  ensure (operation ++ "@" ++ version = "host.discover@1" ∨ operation ++ "@" ++ version = "oracle_homes.discover@1") 64
    ("unsupported operation or version: " ++ operation ++ "@" ++ version)

/-- The checks of `opu_run` before it touches the state directory. -/
def opuRunAdmission (r : Request) : Ctl Unit := do
  opuValidateOperationName r.operation
  opuValidateIdentifier r.taskId "task ID"
  opuValidateIdentifier r.idempotencyKey "idempotency key"
  validateVersion r.operationVersion
  opuRegistryResolve r.operation r.operationVersion

/-- What `request_hash` is the digest of; the shell keeps `\n` as two characters. -/
def fingerprint (r : Request) : String :=
  "task_id=" ++ r.taskId ++ "\\noperation=" ++ r.operation ++ "\\nversion=" ++ r.operationVersion ++
    "\\nidempotency_key=" ++ r.idempotencyKey

/-! ## The state directory -/

/-- A directory under `results/`; its files are written before `complete`. -/
structure ResultDir where
  result : String
  exitCode : Nat
  requestSha256 : String
  resultSha256 : String
  completionSha256 : String
  deriving DecidableEq

/-- `NAME.tmp.PID`. -/
def tempName (name : String) (pid : Nat) : String := name ++ ".tmp." ++ toString pid

section
variable (hash : String → String)

def completionText (resultSha256 requestSha256 : String) (exitCode : Nat) : String :=
  "result_sha256=" ++ resultSha256 ++ "|request_sha256=" ++ requestSha256 ++ "|exit_code=" ++ toString exitCode

/-- The directory that `opu_publish_completion` fills. -/
def completionDir (r : Request) (result : String) (exitCode : Nat) : ResultDir where
  result := result
  exitCode := exitCode
  requestSha256 := hash (fingerprint r)
  resultSha256 := hash result
  completionSha256 := hash (completionText (hash result) (hash (fingerprint r)) exitCode)

def opuVerifyCompletedResult (d : ResultDir) : Ctl Unit := do
  ensure (hash d.result = d.resultSha256) 74 "completed result digest verification failed"
  ensure (hash (completionText d.resultSha256 d.requestSha256 d.exitCode) = d.completionSha256) 74
    "completed result metadata verification failed"

end

/-! ## Agents at work -/

/-- What an agent leaves on its standard output, with its exit code, or the code it refuses with. -/
inductive Outcome where
  | refused (code : Nat)
  | returned (result : String) (exitCode : Nat)
  deriving DecidableEq, Repr

/-- Where an agent stands: the next file operation it will do. -/
inductive Stage where
  | writeTemporary
  | link
  | dropTemporary (linked : Bool)
  | readBinding
  | acquireLock
  | checkCompletion
  | replay
  | makeRun
  | invoke
  | operate
  | clearDirectory (result : String) (exitCode : Nat)
  | makeDirectory (result : String) (exitCode : Nat)
  | fillDirectory (result : String) (exitCode : Nat)
  | renameDirectory (result : String) (exitCode : Nat)
  | report (exitCode : Nat)
  deriving DecidableEq

/-- A published completion. -/
structure Completion where
  request : Request
  result : String
  exitCode : Nat
  deriving DecidableEq

/-- A live agent. `earlier` are the runs that had begun when it arrived, `found` the completion that was published
    under its key then, and `invoked` tells whether it has invoked the operation. -/
structure Process where
  request : Request
  stage : Stage
  earlier : List Request
  found : Option Completion
  invoked : Bool
  deriving DecidableEq

def Process.temporary (p : Process) (pid : Nat) : String := tempName p.request.taskId pid

def Process.directory (p : Process) (pid : Nat) : String := tempName p.request.idempotencyKey pid

/-- An answer, with what is on record of the agent that gave it. -/
structure Answer where
  request : Request
  earlier : List Request
  found : Option Completion
  invoked : Bool
  outcome : Outcome

/-- The state directory, the locks and the live agents. A directory of `results/` that is `none` inside has no
    `complete` yet. -/
structure State where
  links : String → Option Nat
  content : Nat → String
  inodes : Nat
  locks : String → Option Nat
  results : String → Option (Option ResultDir)
  runs : String → Option String
  processes : Processes Process
  published : String → Option Completion
  bound : List (String × String)
  begun : List Request
  invocations : List Request
  answers : List Answer

def State.empty : State where
  links _ := none
  content _ := ""
  inodes := 0
  locks _ := none
  results _ := none
  runs _ := none
  processes := .none
  published _ := none
  bound := []
  begun := []
  invocations := []
  answers := []

/-! ## Steps -/

inductive Action where
  | arrive (pid : Nat) (request : Request)
  | step (pid : Nat)
  | timeOut (pid : Nat)
  | finish (pid : Nat) (result : String) (exitCode : Nat)
  | die (pid : Nat)

namespace State
variable (s : State) (pid : Nat) (p : Process)

/-- The agent goes on. -/
def goto (stage : Stage) : State := { s with processes := s.processes.update pid (some { p with stage := stage }) }

/-- The locks after an agent is gone. -/
def unlocked : String → Option Nat := fun key => if s.locks key = some pid then none else s.locks key

/-- The agent answers and is gone. -/
def answer (outcome : Outcome) : State :=
  { s with processes := s.processes.update pid none, locks := s.unlocked pid,
           answers := s.answers ++ [⟨p.request, p.earlier, p.found, p.invoked, outcome⟩] }

end State

section
variable (hash : String → String)

/-- The next file operation of an agent. -/
def move (s : State) (pid : Nat) (p : Process) : State :=
  let task := p.request.taskId
  let key := p.request.idempotencyKey
  match p.stage with
  | .writeTemporary =>
      -- writing to a name that exists goes to its inode, whatever else is linked to it
      match s.links (p.temporary pid) with
      | some inode => { s with content := fun i => if i = inode then key else s.content i }.goto pid p .link
      | none =>
          { s with links := setName s.links (p.temporary pid) (some s.inodes),
                   content := fun i => if i = s.inodes then key else s.content i,
                   inodes := s.inodes + 1 }.goto pid p .link
  | .link =>
      match s.links (p.temporary pid), s.links task with
      | some inode, none =>
          { s with links := setName s.links task (some inode), bound := (task, key) :: s.bound }.goto pid p
            (.dropTemporary true)
      | _, _ => s.goto pid p (.dropTemporary false)
  | .dropTemporary linked =>
      { s with links := setName s.links (p.temporary pid) none }.goto pid p (if linked then .acquireLock else .readBinding)
  | .readBinding =>
      match s.links task with
      | none => s.answer pid p (.refused 74)
      | some inode => if s.content inode = key then s.goto pid p .acquireLock else s.answer pid p (.refused 65)
  | .acquireLock =>
      match s.locks key with
      | none => { s with locks := setName s.locks key (some pid) }.goto pid p .checkCompletion
      | some _ => s
  | .checkCompletion =>
      match s.results key with
      | some (some _) => s.goto pid p .replay
      | _ => s.goto pid p .makeRun
  | .replay =>
      match s.results key with
      | some (some d) =>
          match opuVerifyCompletedResult hash d with
          | .error e => s.answer pid p (.refused e.code)
          | .ok () =>
              if d.requestSha256 = hash (fingerprint p.request) then s.answer pid p (.returned d.result d.exitCode)
              else s.answer pid p (.refused 65)
      | _ => s.answer pid p (.refused 74)
  | .makeRun =>
      match s.runs task with
      | some _ => s.answer pid p (.refused 76)
      | none =>
          { s with runs := setName s.runs task (some (hash (fingerprint p.request))),
                   begun := s.begun ++ [p.request] }.goto pid p .invoke
  | .invoke =>
      { s with invocations := s.invocations ++ [p.request] }.goto pid { p with invoked := true } .operate
  | .operate => s
  | .clearDirectory result exitCode =>
      { s with results := setName s.results (p.directory pid) none }.goto pid p (.makeDirectory result exitCode)
  | .makeDirectory result exitCode =>
      match s.results (p.directory pid) with
      | some _ => s.answer pid p (.refused 74)
      | none =>
          { s with results := setName s.results (p.directory pid) (some none) }.goto pid p
            (.fillDirectory result exitCode)
  | .fillDirectory result exitCode =>
      let filled := completionDir hash p.request result exitCode
      { s with results := setName s.results (p.directory pid) (some (some filled)) }.goto pid p
        (.renameDirectory result exitCode)
  | .renameDirectory result exitCode =>
      match s.results key with
      -- a directory that is there already swallows the one that is moved
      | some _ => { s with results := setName s.results (p.directory pid) none }.goto pid p (.report exitCode)
      | none =>
          { s with results := setName (setName s.results key (s.results (p.directory pid))) (p.directory pid) none,
                   published := setName s.published key (some ⟨p.request, result, exitCode⟩) }.goto pid p
            (.report exitCode)
  | .report exitCode =>
      match s.results key with
      | some (some d) => s.answer pid p (.returned d.result exitCode)
      | _ => s.answer pid p (.returned "" exitCode)

def step (s : State) : Action → Option State
  | .arrive pid r =>
      match s.processes pid, opuRunAdmission r with
      | some _, _ => none
      | none, .error e =>
          some { s with answers := s.answers ++ [⟨r, s.begun, s.published r.idempotencyKey, false, .refused e.code⟩] }
      | none, .ok () =>
          let agent : Process := ⟨r, .writeTemporary, s.begun, s.published r.idempotencyKey, false⟩
          some { s with processes := s.processes.update pid (some agent) }
  | .step pid => (s.processes pid).map (move hash s pid)
  | .timeOut pid =>
      match s.processes pid with
      | some p => if p.stage = .acquireLock then some (s.answer pid p (.refused 75)) else none
      | none => none
  | .finish pid result exitCode =>
      match s.processes pid with
      | some p => if p.stage = .operate then some (s.goto pid p (.clearDirectory result exitCode)) else none
      | none => none
  | .die pid =>
      (s.processes pid).map fun _ => { s with processes := s.processes.update pid none, locks := s.unlocked pid }

end

end OraclePatching.Agent
