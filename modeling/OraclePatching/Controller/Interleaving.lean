import OraclePatching.Lib.Interleave
import OraclePatching.Controller.Runs

/-!
# `Controller.Interleaving` — controllers of several plans at work at the same time

The task lock keeps the commands on one plan apart. Commands on different plans run side by side and share the
target registry, on which a transaction is one step under the registry lock. Here the commands of `Runs` take their
writes one by one, so that a controller may be overtaken, or die, between the registry, the task directory and the
state file.
-/

namespace OraclePatching

/-- What a command goes on to write, if it is accepted. -/
def decided (cfg : Config) (s : Store) (i : Invocation) : Option (List Write) :=
  match script cfg s i with
  | .ok sc => some sc.writes
  | .error _ => none

/-- A command holds the lock of its plan from its first look at the store to its last write. -/
def controllers (cfg : Config) : Interleave.System Store String Invocation Write where
  key := (·.id)
  script := decided cfg
  exec := exec cfg

/-- The store, and for each plan what is left of the command under way. -/
abbrev Controllers := Interleave.State Store String Write

abbrev ControllerAction := Interleave.Action String Invocation

/-- Reached from the empty store by any interleaving. -/
def Interleaved (cfg : Config) : List ControllerAction → Controllers → Prop :=
  Interleave.Reached (controllers cfg) (· = Store.empty)

theorem decided_eq_some {cfg : Config} {s : Store} {i : Invocation} {ws : List Write} :
    decided cfg s i = some ws ↔ ∃ sc, script cfg s i = .ok sc ∧ sc.writes = ws := by
  unfold decided
  cases script cfg s i <;> simp

end OraclePatching
