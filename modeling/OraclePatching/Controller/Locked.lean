import OraclePatching.Controller.Effects

/-!
# `Controller.Locked` — the task locks that killed commands leave behind

`Runs` carries out the commands of a plan one after another and says nothing of the lock that keeps them so. A command
takes the lock before it reads the plan; when a signal ends it that bash can trap, `trap unlock EXIT` takes the lock
away, and when it is killed outright the lock stays. On GNU/Linux nobody takes over the lock of a dead process
(`TaskLock.abandoned_lock`), so every later command on the plan is refused. `Locked` is a store with the locks that
were left, and a process is an invocation with the way it is killed.

Where no lock is left, the layer adds nothing (`unlocked_reached`, `reached_locked`); in general its stores are stores of
`Runs` (`locked_reached`).
-/

namespace OraclePatching

/-- All commands but the two that make a plan ask for its lock. -/
def Command.locks : Command → Bool
  | .create .. | .createRollback .. => false
  | _ => true

/-- A process that runs a command. If it is killed, `outright` tells that its exit trap does not run. -/
structure Process where
  invocation : Invocation
  outright : Bool

/-- The store, and the plans whose lock a dead process has left. -/
structure Locked where
  store : Store
  left : String → Bool

namespace Locked

variable (cfg : Config)

/-- A state in which no lock is left. -/
def unlocked (s : Store) : Locked := ⟨s, fun _ => false⟩

section
variable (s : Locked)

/-- `lock` meets the directory of a dead process. -/
def refuses (i : Invocation) : Bool := s.left i.id && i.command.locks

/-- The command behind its lock. An argument that is refused before the lock is asked for counts here as refused by the
    lock. -/
def script (i : Invocation) : Ctl Script := if s.refuses i then .error ⟨1, ""⟩ else OraclePatching.script cfg s.store i

/-- The process is killed outright with the lock of a plan in its hands. -/
def leaves (p : Process) : Bool :=
  p.outright && p.invocation.killedAfter.isSome && p.invocation.command.locks &&
    (s.store.plans.lookup p.invocation.id).isSome

/-- What a process leaves. -/
def after (p : Process) : Locked :=
  if s.refuses p.invocation then s
  else ⟨OraclePatching.after cfg s.store p.invocation, fun id => s.left id || (id == p.invocation.id && s.leaves p)⟩

end

/-- The state is reached from the empty one by allowed processes. -/
def Reached (allowed : Locked → Process → Prop) : List Process → Locked → Prop :=
  Trace.Run (fun s p => some (s.after cfg p)) (· = unlocked Store.empty) allowed

end Locked

/-! ## States without a lock left

A lock that is not there refuses nobody, and a process that does not leave one leaves what `Runs` says. So runs in which
no lock is left are the runs of `Runs`, in both directions. -/

section
variable {cfg : Config} {s : Locked} {t : Store} {i : Invocation} {p : Process}

@[simp] theorem unlocked_store : (Locked.unlocked t).store = t := rfl

theorem script_unlocked : (Locked.unlocked t).script cfg i = script cfg t i := rfl

theorem after_unlocked (h : (Locked.unlocked t).leaves p = false) :
    (Locked.unlocked t).after cfg p = Locked.unlocked (after cfg t p.invocation) := by
  unfold Locked.after
  rw [h]
  show Locked.mk _ _ = Locked.mk _ _
  congr
  funext id
  simp [Locked.unlocked]

/-- **Run.** Where no process leaves its lock, none is left, and the store is reached by the invocations alone. -/
theorem unlocked_reached {allowed : Store → Invocation → Prop} {ps : List Process}
    (h : Locked.Reached cfg (fun s p => s.leaves p = false ∧ allowed s.store p.invocation) ps s) :
    s = Locked.unlocked s.store ∧ Reached cfg allowed (ps.map (·.invocation)) s.store := by
  induction h with
  | nil hstart =>
      obtain rfl := hstart
      exact ⟨rfl, .nil rfl⟩
  | @snoc ps s s' p _ hp hstep ih =>
      obtain ⟨hs, hreached⟩ := ih
      obtain ⟨hleaves, hallowed⟩ := hp
      obtain rfl : s.after cfg p = s' := Option.some.inj hstep
      rw [hs] at hleaves ⊢
      rw [after_unlocked hleaves, List.map_append]
      exact ⟨rfl, .snoc hreached hallowed rfl⟩

/-- A process whose exit trap runs. -/
def Invocation.trapped (i : Invocation) : Process := ⟨i, false⟩

theorem leaves_trapped : s.leaves i.trapped = false := rfl

/-- **Run.** Every run of invocations is one of processes that leave no lock. -/
theorem reached_locked {allowed : Store → Invocation → Prop} {is : List Invocation} (h : Reached cfg allowed is t) :
    Locked.Reached cfg (fun s p => s.leaves p = false ∧ allowed s.store p.invocation) (is.map (·.trapped))
      (Locked.unlocked t) := by
  induction h with
  | nil hstart =>
      obtain rfl := hstart
      exact .nil rfl
  | @snoc is t t' i _ hi hstep ih =>
      obtain rfl : after cfg t i = t' := Option.some.inj hstep
      rw [List.map_append]
      exact .snoc ih ⟨leaves_trapped, hi⟩ (congrArg some (after_unlocked leaves_trapped))

/-! ## Every state -/

theorem after_store : (s.after cfg p).store = s.store ∨ (s.after cfg p).store = after cfg s.store p.invocation := by
  unfold Locked.after
  split
  · exact .inl rfl
  · exact .inr rfl

/-- **Refinement.** The stores of locked runs are reached by invocations, those that got past their lock. -/
theorem locked_reached {allowed : Locked → Process → Prop} {ps : List Process} (h : Locked.Reached cfg allowed ps s) :
    ∃ is, is.Sublist (ps.map (·.invocation)) ∧ Reached cfg (fun _ _ => True) is s.store := by
  induction h with
  | nil hstart =>
      obtain rfl := hstart
      exact ⟨[], List.Sublist.refl _, .nil rfl⟩
  | @snoc ps s s' p _ _ hstep ih =>
      obtain ⟨is, hsub, hreached⟩ := ih
      obtain rfl : s.after cfg p = s' := Option.some.inj hstep
      rw [List.map_append]
      rcases @after_store cfg s p with hstore | hstore
      · rw [hstore]
        exact ⟨is, hsub.trans (List.sublist_append_left _ _), hreached⟩
      · rw [hstore]
        exact ⟨is ++ [p.invocation], hsub.append (List.Sublist.refl _), .snoc hreached trivial rfl⟩

/-! ### A lock that is left

Nothing takes it away and the plan does not go away, so the plan is dead: a command that asks for the lock is refused
by it, and one that makes a plan by the plan that is there. -/

/-- The plan is there, and its lock is left. -/
def Locked.Dead (s : Locked) (id : String) : Prop := s.left id = true ∧ ∃ d, s.store.plans.lookup id = some d

/-- A process that leaves its lock leaves a dead plan. -/
theorem dead_of_leaves (hopen : s.left p.invocation.id = false) (h : s.leaves p = true) :
    (s.after cfg p).Dead p.invocation.id := by
  have hthere : (s.store.plans.lookup p.invocation.id).isSome = true := by
    unfold Locked.leaves at h
    rw [Bool.and_eq_true] at h
    exact h.2
  obtain ⟨d, hd⟩ := Option.isSome_iff_exists.mp hthere
  have hpasses : s.refuses p.invocation = false := by rw [Locked.refuses, hopen, Bool.false_and]
  unfold Locked.after
  rw [hpasses]
  refine ⟨?_, after_lookup_some cfg p.invocation hd⟩
  show (s.left p.invocation.id || (p.invocation.id == p.invocation.id && s.leaves p)) = true
  rw [h, beq_self_eq_true, Bool.and_self, Bool.or_true]

/-- **Step.** A dead plan stays so. -/
theorem dead_step {id : String} (h : s.Dead id) : (s.after cfg p).Dead id := by
  obtain ⟨hleft, d, hd⟩ := h
  unfold Locked.after
  split
  · exact ⟨hleft, d, hd⟩
  · refine ⟨?_, after_lookup_some cfg p.invocation hd⟩
    show (s.left id || (id == p.invocation.id && s.leaves p)) = true
    rw [hleft, Bool.true_or]

/-- **Run.** From a state with a dead plan every run leads to one. -/
theorem dead_reached {s₀ : Locked} {id : String} {ps : List Process} (h₀ : s₀.Dead id)
    (h : Trace.Run (fun s p => some (s.after cfg p)) (· = s₀) (fun _ _ => True) ps s) : s.Dead id := by
  refine Trace.Run.invariant (I := fun _ s => s.Dead id) ?_ ?_ h
  · rintro s rfl
    exact h₀
  · intro _ s p s' _ hs _ hstep
    obtain rfl : s.after cfg p = s' := Option.some.inj hstep
    exact dead_step hs

/-- **Dead.** Every command on a dead plan is refused. -/
theorem dead_refuses (h : s.Dead i.id) (sc : Script) : s.script cfg i ≠ .ok sc := by
  obtain ⟨hleft, d, hd⟩ := h
  intro hsc
  unfold Locked.script at hsc
  split at hsc
  · exact absurd hsc (by simp)
  · rename_i hpasses
    -- the command makes a plan, and there is one
    rw [Locked.refuses, hleft, Bool.true_and] at hpasses
    cases hcmd : i.command with
    | create =>
        rw [script, hcmd] at hsc
        obtain ⟨_, _, hacc⟩ := create_ok hsc
        exact absurd (hd.symm.trans hacc.fresh) (by simp)
    | createRollback =>
        rw [script, hcmd] at hsc
        obtain ⟨_, _, _, hacc⟩ := createRollback_ok hsc
        exact absurd (hd.symm.trans hacc.fresh) (by simp)
    | _ => exact hpasses (by rw [hcmd]; rfl)

end

end OraclePatching
