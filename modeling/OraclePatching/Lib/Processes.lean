import Mathlib.Logic.Function.Basic

/-!
# `Lib.Processes` — a table of processes

Programs that run side by side over one store are a table from process IDs to the processes that live. A step moves
one process, starts one or ends one; each is an `update` of the table. What has to hold of every live process is
then checked of the moved one and, as a frame condition, of the others (`Processes.all_update`).
-/

/-- The live processes by their ID. -/
abbrev Processes (π : Type) := Nat → Option π

namespace Processes

variable {π : Type} {table : Processes π} {pid : Nat} {moved : Option π} {P : Nat → π → Prop}

def none : Processes π := fun _ => Option.none

/-- Replace, start or end one process. -/
def update (table : Processes π) (pid : Nat) (moved : Option π) : Processes π :=
  fun other => if other = pid then moved else table other

@[simp] theorem update_self : table.update pid moved pid = moved := by simp [update]

@[simp] theorem update_ne {other : Nat} (h : other ≠ pid) : table.update pid moved other = table other := by
  simp [update, h]

@[simp] theorem update_get : table.update pid (table pid) = table := by
  funext other
  by_cases h : other = pid <;> simp [update, h]

/-- **Process rule.** What holds of the moved process and still holds of the others holds of all. -/
theorem all_update (hmoved : ∀ p, moved = some p → P pid p) (hframe : ∀ other p, other ≠ pid → table other = some p →
    P other p) : ∀ other p, table.update pid moved other = some p → P other p := by
  intro other p h
  by_cases hpid : other = pid
  · subst hpid; exact hmoved p (by simpa using h)
  · exact hframe other p hpid (by simpa [hpid] using h)

end Processes
