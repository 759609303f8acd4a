import OraclePatching.Controller.Reservation
import OraclePatching.Controller.Custody
import OraclePatching.Controller.Stages
import OraclePatching.Lib.Trace

/-!
# `Controller.Writes` — the durable writes of the controller

A command either is refused or carries out a list of durable writes: renames into the plan directory, appended
event lines, and transactions on the target registry. `Write` names them and `exec` is the effect of one write on
the store. A command that is killed has carried out a prefix of its list.
-/

namespace OraclePatching

/-- One durable write of a command on a plan. `state` is the rename in `transition`, which first reads the state
    again; `attempt` is the hard link to the archived attempt. -/
inductive Write where
  | plan (d : PlanDir)
  | approval (a : Approval)
  | authorization (z : Authorization)
  | manifest (m : TaskManifest)
  | reserve
  | receipt (r : Receipt)
  | tasks (ts : List Task)
  | task (t : Task)
  | custody (leaf : String) (dir : CustodyDir)
  | attempt (taskId : String) (generation : Nat) (t : Task)
  | state (expected next : PlanState)
  | event (e : Event)
  | release

/-- The writes of an accepted command and its exit code. -/
structure Script where
  writes : List Write
  exitCode : Nat

/-- `transition`: the state rename and its event. -/
def transition (expected next : PlanState) (actor detail : String) : List Write :=
  [.state expected next, .event ⟨"state_changed", next, actor, detail⟩]

/-! ## The effect of a write -/

/-- Replace the file `tasks/ID.json`. -/
def PlanDir.putTask (d : PlanDir) (t : Task) : PlanDir :=
  { d with tasks := d.tasks.map (Frontier.replace (·.taskId) t) }

def PlanDir.putCustody (d : PlanDir) (leaf : String) (dir : CustodyDir) : PlanDir :=
  { d with evidence := fun l => if l = leaf then some dir else d.evidence l }

def PlanDir.putAttempt (d : PlanDir) (taskId : String) (generation : Nat) (t : Task) : PlanDir :=
  { d with attempts := fun id n => if id = taskId ∧ n = generation then some t else d.attempts id n }

/-- The effect of a write on the plan directory; registry transactions leave it alone. -/
def PlanDir.write (d : PlanDir) : Write → Option PlanDir
  | .plan _ => none
  | .approval a => some { d with approval := some a }
  | .authorization z => some { d with authorization := some z }
  | .manifest m => some { d with manifest := some m }
  | .reserve => some d
  | .receipt r => some { d with receipt := some r }
  | .tasks ts => some { d with tasks := some ts }
  | .task t => some (d.putTask t)
  | .custody leaf dir => some (d.putCustody leaf dir)
  | .attempt taskId generation t => some (d.putAttempt taskId generation t)
  | .state expected next => if d.state = expected then some { d with state := next } else none
  | .event e => some { d with events := d.events ++ [e] }
  | .release => some d

def Store.put (s : Store) (id : String) (d : PlanDir) : Store := { s with plans := s.plans.insert id d }

/-- The effect of a write of a command on the plan `id`; `none` when it is refused. -/
def exec (cfg : Config) (id : String) (s : Store) : Write → Option Store
  | .plan d => if (s.plans.lookup id).isSome then none else some (s.put id d)
  | .reserve => (reserve cfg s id).toOption.map fun registry => { s with registry := registry }
  | .release => (release cfg s id).toOption.map fun registry => { s with registry := registry }
  | write => (s.plans.lookup id).bind fun d => (d.write write).map fun d' => s.put id d'

/-! ## Frames -/

@[simp] theorem Store.lookup_put_self (s : Store) (id : String) (d : PlanDir) :
    (s.put id d).plans.lookup id = some d := AList.lookup_insert _

@[simp] theorem Store.lookup_put_ne (s : Store) {id other : String} (d : PlanDir) (h : other ≠ id) :
    (s.put id d).plans.lookup other = s.plans.lookup other := AList.lookup_insert_ne h

@[simp] theorem Store.put_registry (s : Store) (id : String) (d : PlanDir) :
    (s.put id d).registry = s.registry := rfl

/-- A write of a command on one plan leaves every other plan alone. -/
theorem exec_lookup_ne {cfg : Config} {id other : String} {s s' : Store} {wr : Write}
    (h : exec cfg id s wr = some s') (hne : other ≠ id) : s'.plans.lookup other = s.plans.lookup other := by
  unfold exec at h
  split at h
  · split at h
    · exact absurd h (by simp)
    · injection h with h
      rw [← h]
      exact Store.lookup_put_ne s _ hne
  · obtain ⟨_, _, rfl⟩ := Option.map_eq_some_iff.mp h
    rfl
  · obtain ⟨_, _, rfl⟩ := Option.map_eq_some_iff.mp h
    rfl
  · obtain ⟨d, _, h⟩ := Option.bind_eq_some_iff.mp h
    obtain ⟨d', _, rfl⟩ := Option.map_eq_some_iff.mp h
    exact Store.lookup_put_ne s d' hne

/-- **What one write does to its own plan**: the plan is created, or its directory changes as `PlanDir.write`
    says. -/
theorem exec_lookup_self {cfg : Config} {id : String} {s s' : Store} {wr : Write}
    (h : exec cfg id s wr = some s') :
    (∃ d, wr = .plan d ∧ s.plans.lookup id = none ∧ s'.plans.lookup id = some d) ∨
      ∃ d d', s.plans.lookup id = some d ∧ d.write wr = some d' ∧ s'.plans.lookup id = some d' := by
  unfold exec at h
  split at h
  · rename_i d
    split at h
    · exact absurd h (by simp)
    · rename_i hnone
      injection h with h
      exact .inl ⟨d, rfl, by simpa using hnone, by rw [← h]; exact Store.lookup_put_self s id d⟩
  · obtain ⟨registry, hr, rfl⟩ := Option.map_eq_some_iff.mp h
    cases hres : reserve cfg s id with
    | error e => rw [hres] at hr; exact absurd hr (by simp [Except.toOption])
    | ok r =>
        obtain ⟨d, hd, _⟩ := reserve_ok hres
        exact .inr ⟨d, d, hd, rfl, hd⟩
  · obtain ⟨registry, hr, rfl⟩ := Option.map_eq_some_iff.mp h
    cases hres : release cfg s id with
    | error e => rw [hres] at hr; exact absurd hr (by simp [Except.toOption])
    | ok r =>
        obtain ⟨d, hd, _⟩ := release_ok hres
        exact .inr ⟨d, d, hd, rfl, hd⟩
  · obtain ⟨d, hd, h⟩ := Option.bind_eq_some_iff.mp h
    obtain ⟨d', hd', rfl⟩ := Option.map_eq_some_iff.mp h
    exact .inr ⟨d, d', hd, hd', Store.lookup_put_self s id d'⟩

/-- The sealed plan of a directory never changes. -/
theorem PlanDir.write_plan {d d' : PlanDir} {wr : Write} (h : d.write wr = some d') : d'.plan = d.plan := by
  cases wr <;> simp only [PlanDir.write, Option.some.injEq] at h
  case plan => exact absurd h (by simp)
  case state expected next =>
    split at h
    · injection h with h; rw [← h]
    · exact absurd h (by simp)
  all_goals rw [← h]
  all_goals rfl

end OraclePatching
