import Mathlib.Logic.Function.Basic
import OraclePatching.Lib.Trace

/-!
# `Controller.TaskLock` — `lock` and `unlock` of `opu-patch-plan`, one file-system step at a time

The lock of a plan is a directory with a file `pid` in it. `lock` makes the directory; when it cannot, it reads the
recorded process, asks whether that is alive, and when it is not, or none is recorded, goes on to the age of the
directory. All of these are single steps of a process, and a process may die between any two. A directory carries the
process that made it, which nobody reads.

`stat` is the one of GNU/Linux. It takes `stat -f %m` for a question about the file system: of a directory that is there
it prints a text before it fails over `%m`, and no arithmetic reads that text. Only where nothing stands at the path
does `stat -c %Y` decide.
-/

namespace OraclePatching.TaskLock

abbrev Pid := Nat

/-- `.task-lock`, with the content of `pid`. -/
structure LockDir where
  creator : Pid
  pid : Option Pid
  deriving DecidableEq

/-- Where a process stands: outside, at a step of `lock`, between its return and `unlock`, or at a step of `unlock`. -/
inductive Point where
  | outside
  | mkdir
  | isDirectory
  | readPid
  | kill (holder : Option Pid)
  | statF (holder : Option Pid)
  | statC (holder : Option Pid)
  | reclaimPid
  | reclaimDirectory
  | writePid
  | inside
  | unlockPid
  | unlockDirectory
  deriving DecidableEq

structure State where
  dir : Option LockDir
  point : Pid → Point
  dead : Pid → Bool

def State.start : State := ⟨none, fun _ => .outside, fun _ => false⟩

/-! ## Steps -/

/-- `kill` is told whether the number it asks about belongs to some other live process by now, `statC` whether the
    directory that it finds is older than a minute. -/
inductive Step where
  | lock
  | mkdir
  | isDirectory
  | readPid
  | kill (reused : Bool)
  | statF
  | statC (old : Bool)
  | reclaimPid
  | reclaimDirectory
  | timeOut
  | writePid
  | unlock
  | unlockPid
  | unlockDirectory
  | die

/-- A step of the process `pid`. -/
structure Action where
  pid : Pid
  step : Step

namespace State

variable (s : State) (p : Pid)

def goto (point : Point) : State := { s with point := Function.update s.point p point }

/-- The process ends where it stands. -/
def exit : State := { s with dead := Function.update s.dead p true }

/-- `rm -f pid`. -/
def rmPid : State := { s with dir := s.dir.map fun d => { d with pid := none } }

/-- `rmdir`; a directory with a file in it stays. -/
def rmdir : State := { s with dir := s.dir.filter fun d => d.pid.isSome }

/-- `printf '%s\n' "$$" >pid`, into the directory that is there. -/
def record : State := { s with dir := s.dir.map fun d => { d with pid := some p } }

/-- `[ -n "$holder" ] && kill -0 "$holder"`. -/
def answers (holder : Option Pid) (reused : Bool) : Bool := holder.any fun h => !s.dead h || reused

/-- What a step does to a process that stands at `point`; `none` where it does not stand there. -/
def next : Point → Step → Option State
  | .outside, .lock => some (s.goto p .mkdir)
  | .mkdir, .mkdir =>
      match s.dir with
      | none => some ({ s with dir := some ⟨p, none⟩ }.goto p .writePid)
      | some _ => some (s.goto p .isDirectory)
  | .mkdir, .timeOut => some (s.goto p .outside)
  | .isDirectory, .isDirectory => some (s.goto p (if s.dir.isSome then .readPid else .mkdir))
  | .readPid, .readPid => some (s.goto p (.kill (s.dir.bind (·.pid))))
  | .kill holder, .kill reused => some (s.goto p (if s.answers holder reused then .mkdir else .statF holder))
  -- `age=$((now - mtime))` over the text of a file system is an error, and `set -e` ends the command
  | .statF holder, .statF => some (if s.dir.isSome then s.exit p else s.goto p (.statC holder))
  -- `echo 0`: what is not there is older than a minute
  | .statC holder, .statC old =>
      some (s.goto p (if s.dir.isNone || old || holder.isNone then .reclaimPid else .mkdir))
  | .reclaimPid, .reclaimPid => some (s.rmPid.goto p .reclaimDirectory)
  | .reclaimDirectory, .reclaimDirectory => some (s.rmdir.goto p .mkdir)
  -- a failed `printf` is passed over
  | .writePid, .writePid => some ((s.record p).goto p .inside)
  | .inside, .unlock => some (s.goto p .unlockPid)
  | .unlockPid, .unlockPid => some (s.rmPid.goto p .unlockDirectory)
  | .unlockDirectory, .unlockDirectory => some (s.rmdir.goto p .outside)
  | _, .die => some (s.exit p)
  | _, _ => none

end State

/-- A step of a live process. -/
def step (s : State) (a : Action) : Option State := if s.dead a.pid then none else s.next a.pid (s.point a.pid) a.step

/-- The states processes reach by allowed steps, in any order. -/
def Reached (allowed : State → Action → Prop) : List Action → State → Prop :=
  Trace.Run step (· = State.start) allowed

end OraclePatching.TaskLock
