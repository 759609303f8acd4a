import OraclePatching.Controller.Accepted

/-!
# `Controller.Effects` — what a whole command does to its plan directory

`Ran d ws d'` follows a list of writes on one plan directory: it is carried out, except that a registry transaction
or a state rename may refuse, and then nothing after it happens. `Effect` lists, for every command, the directory an
uninterrupted run leaves. The invariants of the plan are proved by one case analysis on it.
-/

namespace OraclePatching

/-! ## Writes on one directory

A command writes to one plan directory, apart from the registry. `Ran` is what a list of writes leaves of it when
it is carried out, `Cut` when the process may be killed on the way. Each has one equation for each write, so that
what a script does is computed write by write. -/

/-- `d'` is what carrying out `ws` on `d` leaves. -/
inductive Ran : PlanDir → List Write → PlanDir → Prop
  | done {d : PlanDir} : Ran d [] d
  | step {d d₁ d' : PlanDir} {wr : Write} {ws : List Write} : d.write wr = some d₁ → Ran d₁ ws d' →
      Ran d (wr :: ws) d'
  | refused {d : PlanDir} {wr : Write} {ws : List Write} : wr = .reserve ∨ wr = .release ∨ d.write wr = none →
      Ran d (wr :: ws) d

section
variable {d d' : PlanDir} {ws : List Write}

/-- No write leaves the directory as it is. -/
@[simp] theorem ran_nil : Ran d [] d' ↔ d' = d :=
  ⟨fun h => by cases h; rfl, fun h => h ▸ .done⟩

/-- A write that cannot be refused is carried out. -/
theorem ran_cons {wr : Write} {d₁ : PlanDir} (hw : d.write wr = some d₁)
    (hreg : wr ≠ .reserve ∧ wr ≠ .release) : Ran d (wr :: ws) d' ↔ Ran d₁ ws d' := by
  constructor
  · intro h
    cases h with
    | step h1 h2 => rw [hw] at h1; injection h1 with h1; rw [h1]; exact h2
    | refused h1 =>
        rcases h1 with h1 | h1 | h1
        · exact absurd h1 hreg.1
        · exact absurd h1 hreg.2
        · rw [hw] at h1; exact absurd h1 (by simp)
  · exact fun h => .step hw h

@[simp] theorem ran_approval {a : Approval} :
    Ran d (.approval a :: ws) d' ↔ Ran { d with approval := some a } ws d' := ran_cons rfl ⟨nofun, nofun⟩

@[simp] theorem ran_authorization {z : Authorization} :
    Ran d (.authorization z :: ws) d' ↔ Ran { d with authorization := some z } ws d' :=
  ran_cons rfl ⟨nofun, nofun⟩

@[simp] theorem ran_manifest {m : TaskManifest} :
    Ran d (.manifest m :: ws) d' ↔ Ran { d with manifest := some m } ws d' := ran_cons rfl ⟨nofun, nofun⟩

@[simp] theorem ran_receipt {r : Receipt} :
    Ran d (.receipt r :: ws) d' ↔ Ran { d with receipt := some r } ws d' := ran_cons rfl ⟨nofun, nofun⟩

@[simp] theorem ran_tasks {ts : List Task} :
    Ran d (.tasks ts :: ws) d' ↔ Ran { d with tasks := some ts } ws d' := ran_cons rfl ⟨nofun, nofun⟩

@[simp] theorem ran_task {t : Task} : Ran d (.task t :: ws) d' ↔ Ran (d.putTask t) ws d' :=
  ran_cons rfl ⟨nofun, nofun⟩

@[simp] theorem ran_custody {leaf : String} {dir : CustodyDir} :
    Ran d (.custody leaf dir :: ws) d' ↔ Ran (d.putCustody leaf dir) ws d' := ran_cons rfl ⟨nofun, nofun⟩

@[simp] theorem ran_attempt {taskId : String} {n : Nat} {t : Task} :
    Ran d (.attempt taskId n t :: ws) d' ↔ Ran (d.putAttempt taskId n t) ws d' := ran_cons rfl ⟨nofun, nofun⟩

@[simp] theorem ran_event {e : Event} :
    Ran d (.event e :: ws) d' ↔ Ran { d with events := d.events ++ [e] } ws d' := ran_cons rfl ⟨nofun, nofun⟩

/-- A transition from the state the plan is in. -/
theorem ran_state {expected next : PlanState} (h : d.state = expected) :
    Ran d (.state expected next :: ws) d' ↔ Ran { d with state := next } ws d' :=
  ran_cons (by rw [PlanDir.write, if_pos h]) ⟨nofun, nofun⟩

@[simp] theorem ran_release : Ran d (.release :: ws) d' ↔ d' = d ∨ Ran d ws d' := by
  constructor
  · intro h
    cases h with
    | step h1 h2 => injection h1 with h1; exact .inr (h1 ▸ h2)
    | refused _ => exact .inl rfl
  · rintro (rfl | h)
    · exact .refused (.inr (.inl rfl))
    · exact .step rfl h

@[simp] theorem ran_reserve : Ran d (.reserve :: ws) d' ↔ d' = d ∨ Ran d ws d' := by
  constructor
  · intro h
    cases h with
    | step h1 h2 => injection h1 with h1; exact .inr (h1 ▸ h2)
    | refused _ => exact .inl rfl
  · rintro (rfl | h)
    · exact .refused (.inl rfl)
    · exact .step rfl h

end

/-- `d'` is what a process leaves on `d` that is killed somewhere in `ws`, or comes to its end. -/
inductive Cut : PlanDir → List Write → PlanDir → Prop
  | stop {d : PlanDir} {ws : List Write} : Cut d ws d
  | step {d d₁ d' : PlanDir} {wr : Write} {ws : List Write} : d.write wr = some d₁ → Cut d₁ ws d' →
      Cut d (wr :: ws) d'

section
variable {d d' : PlanDir} {ws : List Write}

/-- A process killed after `k` writes leaves one of the directories of `Cut`. -/
theorem Ran.cut {k : Nat} (h : Ran d (ws.take k) d') : Cut d ws d' := by
  induction ws generalizing d k with
  | nil => rw [List.take_nil, ran_nil] at h; exact h ▸ .stop
  | cons wr ws ih =>
      cases k with
      | zero => rw [List.take_zero, ran_nil] at h; exact h ▸ .stop
      | succ k =>
          rw [List.take_succ_cons] at h
          cases h with
          | step hw hr => exact .step hw (ih hr)
          | refused _ => exact .stop

@[simp] theorem cut_nil : Cut d [] d' ↔ d' = d :=
  ⟨fun h => by cases h; rfl, fun h => h ▸ .stop⟩

/-- Cut before the write, or somewhere after it. -/
theorem cut_cons {wr : Write} : Cut d (wr :: ws) d' ↔ d' = d ∨ ∃ d₁, d.write wr = some d₁ ∧ Cut d₁ ws d' := by
  constructor
  · intro h
    cases h with
    | stop => exact .inl rfl
    | step hw h => exact .inr ⟨_, hw, h⟩
  · rintro (rfl | ⟨d₁, hw, h⟩)
    · exact .stop
    · exact .step hw h

@[simp] theorem cut_task {t : Task} : Cut d (.task t :: ws) d' ↔ d' = d ∨ Cut (d.putTask t) ws d' := by
  simp [cut_cons, PlanDir.write]

@[simp] theorem cut_attempt {taskId : String} {n : Nat} {t : Task} :
    Cut d (.attempt taskId n t :: ws) d' ↔ d' = d ∨ Cut (d.putAttempt taskId n t) ws d' := by
  simp [cut_cons, PlanDir.write]

@[simp] theorem cut_custody {leaf : String} {dir : CustodyDir} :
    Cut d (.custody leaf dir :: ws) d' ↔ d' = d ∨ Cut (d.putCustody leaf dir) ws d' := by
  simp [cut_cons, PlanDir.write]

@[simp] theorem cut_tasks {ts : List Task} :
    Cut d (.tasks ts :: ws) d' ↔ d' = d ∨ Cut { d with tasks := some ts } ws d' := by
  simp [cut_cons, PlanDir.write]

@[simp] theorem cut_event {e : Event} :
    Cut d (.event e :: ws) d' ↔ d' = d ∨ Cut { d with events := d.events ++ [e] } ws d' := by
  simp [cut_cons, PlanDir.write]

@[simp] theorem cut_release : Cut d (.release :: ws) d' ↔ Cut d ws d' := by
  rw [cut_cons]
  refine ⟨?_, fun h => .inr ⟨d, rfl, h⟩⟩
  rintro (rfl | ⟨d₁, h1, h2⟩)
  · exact .stop
  · injection h1 with h1
    exact h1 ▸ h2

/-- The writes that leave plan and task files alone. -/
def Write.keepsTasks : Write → Bool
  | .plan _ | .tasks _ | .task _ => false
  | _ => true

/-- A write that keeps the task files. -/
theorem PlanDir.write_tasks {wr : Write} (hk : wr.keepsTasks = true) (h : d.write wr = some d') :
    d'.tasks = d.tasks := by
  cases wr <;> simp only [PlanDir.write, Option.some.injEq] at h
  case plan => exact absurd h (by simp)
  case state expected next =>
    split at h
    · injection h with h; rw [← h]
    · exact absurd h (by simp)
  case tasks => exact absurd hk (by simp [Write.keepsTasks])
  case task => exact absurd hk (by simp [Write.keepsTasks])
  all_goals rw [← h]
  all_goals rfl

/-- A part of a script that leaves the task files alone, wherever it is cut. -/
theorem Cut.tasks (hk : ws.all Write.keepsTasks = true) (h : Cut d ws d') : d'.tasks = d.tasks := by
  induction h with
  | stop => rfl
  | step hw _ ih =>
      rw [List.all_cons, Bool.and_eq_true] at hk
      exact (ih hk.2).trans (PlanDir.write_tasks hk.1 hw)

/-- A script that writes the task directory once. -/
theorem Cut.tasks_or {ts : List Task} (hk : ∀ wr ∈ ws, wr.keepsTasks = true ∨ wr = .tasks ts) (h : Cut d ws d') :
    d'.tasks = d.tasks ∨ d'.tasks = some ts := by
  induction h with
  | stop => exact .inl rfl
  | step hw _ ih =>
      rcases ih fun wr hwr => hk wr (List.mem_cons_of_mem _ hwr) with h1 | h1
      · rcases hk _ List.mem_cons_self with h2 | rfl
        · exact .inl (h1.trans (PlanDir.write_tasks h2 hw))
        · injection hw with hw
          exact .inr (h1.trans (hw ▸ rfl))
      · exact .inr h1

/-- No write replaces the sealed plan. -/
theorem Cut.plan (h : Cut d ws d') : d'.plan = d.plan := by
  induction h with
  | stop => rfl
  | step hw _ ih => exact ih.trans (PlanDir.write_plan hw)

/-- What holds of a state and of every state a script goes on to holds wherever the script is cut. -/
theorem Cut.state {P : PlanState → Prop} (hnext : ∀ expected next, .state expected next ∈ ws → P next)
    (hd : P d.state) (h : Cut d ws d') : P d'.state := by
  induction h with
  | stop => exact hd
  | @step d d₁ d' wr ws hw _ ih =>
      refine ih (fun expected next hmem => hnext expected next (List.mem_cons_of_mem _ hmem)) ?_
      cases wr <;> simp only [PlanDir.write, Option.some.injEq] at hw
      case plan => exact absurd hw (by simp)
      case state expected next =>
        split at hw
        · injection hw with hw
          rw [← hw]
          exact hnext expected next List.mem_cons_self
        · exact absurd hw (by simp)
      all_goals rw [← hw]
      all_goals exact hd

end

/-! ## From the store to the directory

The same for the store: a command leaves other plans alone, and what it leaves of its own is given by `Ran`. -/

section
variable {cfg : Config} {id : String} {s : Store} {ws : List Write}

/-- A script on one plan leaves every other plan alone. -/
theorem perform_lookup_ne {other : String} (hne : other ≠ id) :
    (Trace.perform (exec cfg id) s ws).1.plans.lookup other = s.plans.lookup other :=
  Trace.perform_invariant (I := fun t => t.plans.lookup other = s.plans.lookup other)
    (fun _ _ _ _ hI h => (exec_lookup_ne h hne).trans hI) rfl

/-- A refused write is a registry transaction or one the directory refuses. -/
theorem exec_refused {d : PlanDir} {wr : Write} (hd : s.plans.lookup id = some d)
    (h : exec cfg id s wr = none) : wr = .reserve ∨ wr = .release ∨ d.write wr = none := by
  unfold exec at h
  split at h
  · exact .inr (.inr rfl)
  · exact .inl rfl
  · exact .inr (.inl rfl)
  · rw [hd, Option.bind_some, Option.map_eq_none_iff] at h
    exact .inr (.inr h)

/-- **A script on a plan runs on its directory.** -/
theorem perform_ran (cfg : Config) (ws : List Write) {d : PlanDir} (hd : s.plans.lookup id = some d) :
    ∃ d', (Trace.perform (exec cfg id) s ws).1.plans.lookup id = some d' ∧ Ran d ws d' := by
  induction ws generalizing s d with
  | nil => exact ⟨d, hd, .done⟩
  | cons wr ws ih =>
      cases h : exec cfg id s wr with
      | none =>
          rw [Trace.perform_cons_none ws h]
          exact ⟨d, hd, .refused (exec_refused hd h)⟩
      | some s' =>
          rw [Trace.perform_cons_some ws h]
          rcases exec_lookup_self h with ⟨_, _, hnone, _⟩ | ⟨d₀, d₁, h0, hw, h1⟩
          · rw [hd] at hnone; exact absurd hnone (by simp)
          · rw [hd] at h0
            injection h0 with h0
            subst h0
            obtain ⟨d', hl, hr⟩ := ih h1
            exact ⟨d', hl, .step hw hr⟩

end

section
variable {cfg : Config} {s : Store} {i : Invocation} {sc : Script}

/-- What an accepted command leaves of a plan that exists. -/
theorem after_ran {d : PlanDir} (hsc : script cfg s i = .ok sc) (hd : s.plans.lookup i.id = some d) :
    ∃ d', (after cfg s i).plans.lookup i.id = some d' ∧ Ran d (i.reached sc.writes) d' := by
  unfold after
  rw [hsc]
  exact perform_ran cfg _ hd

/-- An invocation leaves other plans alone. -/
theorem after_lookup_ne {other : String} (hne : other ≠ i.id) :
    (after cfg s i).plans.lookup other = s.plans.lookup other := by
  unfold after
  split
  · rfl
  · exact perform_lookup_ne hne

/-- Plans do not go away. -/
theorem after_lookup_some (cfg : Config) (i : Invocation) {id : String} {d : PlanDir} (hd : s.plans.lookup id = some d) :
    ∃ d', (after cfg s i).plans.lookup id = some d' := by
  by_cases hid : id = i.id
  · subst hid
    cases hsc : script cfg s i with
    | error e => exact ⟨d, by unfold after; rw [hsc]; exact hd⟩
    | ok sc =>
        obtain ⟨d', hl, _⟩ := after_ran hsc hd
        exact ⟨d', hl⟩
  · exact ⟨d, (after_lookup_ne hid).trans hd⟩

/-- The writes an invocation gets to, whether it is killed or not. -/
theorem reached_cut {d d' : PlanDir} {ws : List Write} (h : Ran d (i.reached ws) d') : Cut d ws d' := by
  unfold Invocation.reached at h
  split at h
  · exact Ran.cut (k := ws.length) (by rwa [List.take_length])
  · exact h.cut

end

section
variable {cfg : Config} {s : Store} {i : Invocation} {sc : Script}

/-- An accepted command makes its plan or works on one that verifies. -/
theorem script_plan (h : script cfg s i = .ok sc) :
    (∃ body, CreationAccepted cfg s i sc body) ∨ ∃ d, verifyPlan cfg s i.id = .ok d := by
  cases hcmd : i.command <;> simp only [script, hcmd] at h
  case create => obtain ⟨_, body, hacc⟩ := create_ok h; exact .inl ⟨body, .apply hcmd hacc⟩
  case createRollback => obtain ⟨_, body, _, hacc⟩ := createRollback_ok h; exact .inl ⟨body, .rollback hcmd hacc⟩
  case approve => obtain ⟨d, hacc⟩ := approve_ok h; exact .inr ⟨d, hacc.plan⟩
  case authorize => obtain ⟨d, a, hacc⟩ := authorize_ok h; exact .inr ⟨d, hacc.plan⟩
  case dispatch => obtain ⟨d, a, z, hacc⟩ := dispatch_ok h; exact .inr ⟨d, hacc.plan⟩
  case claim => obtain ⟨d, t, expiry, hacc⟩ := claim_ok h; exact .inr ⟨d, hacc.plan⟩
  case renew => obtain ⟨d, t, expiry, hacc⟩ := renew_ok h; exact .inr ⟨d, hacc.plan⟩
  case complete => obtain ⟨d, t, result, e, c, late, hacc⟩ := complete_ok h; exact .inr ⟨d, hacc.plan⟩
  case reconcile =>
    cases reconcile_ok h with
    | released d plan => exact .inr ⟨d, plan⟩
    | expired d t plan => exact .inr ⟨d, plan⟩
  case retryTask => obtain ⟨d, t, archive, hacc⟩ := retryTask_ok h; exact .inr ⟨d, hacc.plan⟩

/-- **What any command leaves**, killed or not, seen from any plan. -/
theorem after_cases {id : String} {d' : PlanDir} (h : (after cfg s i).plans.lookup id = some d') :
    s.plans.lookup id = some d' ∨
      (id = i.id ∧ ∃ sc body event detail, CreationAccepted cfg s i sc body ∧ d' = newPlan cfg body event detail) ∨
        (id = i.id ∧ ∃ d sc, s.plans.lookup i.id = some d ∧ script cfg s i = .ok sc ∧
          Ran d (i.reached sc.writes) d') := by
  by_cases hid : id = i.id
  swap
  · rw [after_lookup_ne hid] at h
    exact .inl h
  subst hid
  cases hsc : script cfg s i with
  | error e =>
      unfold after at h
      rw [hsc] at h
      exact .inl h
  | ok sc =>
      rcases script_plan hsc with ⟨body, hcreate⟩ | ⟨d, hd⟩
      · obtain ⟨event, detail, hw⟩ := hcreate.writes
        have hnone := hcreate.fresh
        refine .inr (.inl ⟨rfl, sc, body, event, detail, hcreate, ?_⟩)
        unfold after at h
        rw [hsc] at h
        have hex : exec cfg i.id s (.plan (newPlan cfg body event detail)) =
            some (s.put i.id (newPlan cfg body event detail)) := by simp [exec, hnone]
        -- a new plan is one write, so it is there whole or not at all
        have hreached : i.reached sc.writes = [] ∨
            i.reached sc.writes = [.plan (newPlan cfg body event detail)] := by
          rw [hw]
          unfold Invocation.reached
          rcases i.killedAfter with _ | _ | k
          · exact .inr rfl
          · exact .inl rfl
          · exact .inr (by simp)
        rcases hreached with h1 | h1
        · simp only [h1, Trace.perform_nil, hnone] at h
          exact absurd h (by simp)
        · simp only [h1] at h
          rw [Trace.perform_cons_some _ hex, Trace.perform_nil, Store.lookup_put_self] at h
          exact (Option.some.inj h).symm
      · have hlook := (verifyPlan_ok.mp hd).1
        obtain ⟨d'', hl, hr⟩ := after_ran hsc hlook
        rw [hl] at h
        exact .inr (.inr ⟨rfl, d, sc, hlook, rfl, Option.some.inj h ▸ hr⟩)

end

/-! ## The end of a completion

A completion decides after its record what becomes of the plan: it goes on, pauses or succeeds. None of that
touches a task file. -/

/-- `dispatch` writes the task files once. -/
theorem dispatchScript_tasks {cfg : Config} {w : World} {id actor : String} {d : PlanDir} {ts : List Task} :
    ∀ wr ∈ (dispatchScript cfg w id d actor ts).writes, wr.keepsTasks = true ∨ wr = .tasks ts := by
  unfold dispatchScript
  dsimp only
  split_ifs <;> simp [transition, Write.keepsTasks]

/-- After its own record a completion writes no task file. -/
theorem afterCompletion_keepsTasks {cfg : Config} {w : World} {id taskId actor : String} {d : PlanDir}
    {status : TaskStatus} {late : Bool} :
    (afterCompletion cfg w id d taskId actor status late).writes.all Write.keepsTasks = true := by
  unfold afterCompletion
  dsimp only
  split_ifs <;> rfl

/-- What `complete` leaves after the result is sealed, starting from the directory `d`. -/
inductive Concluded (d : PlanDir) (taskId actor : String) (status : TaskStatus) (late : Bool) : PlanDir → Prop
  | failed : status = .failed →
      Concluded d taskId actor status late
        { d with state := .paused,
                 events := d.events ++ [⟨"state_changed", .paused, actor, "task_failed=" ++ taskId⟩] }
  | late : status ≠ .failed → late = true →
      Concluded d taskId actor status late
        { d with state := .paused,
                 events := d.events ++ [⟨"state_changed", .paused, actor, "task_completed_after_lease=" ++ taskId⟩] ++
                   [⟨"late_evidence_recorded", .paused, actor, "task_id=" ++ taskId⟩] }
  | blocked (detail : String) : status ≠ .failed → late = false →
      detail ∈ ["task_integrity_blocks_success", "unknown_task_blocks_success", "incomplete_tasks_block_success",
        "task_custody_blocks_success"] →
      Concluded d taskId actor status late
        { d with state := .paused,
                 events := d.events ++ [⟨"task_completed", .running, actor, "task_id=" ++ taskId⟩] ++
                   [⟨"state_changed", .paused, actor, detail⟩] }
  | continues : status ≠ .failed → late = false →
      Concluded d taskId actor status late
        { d with events := d.events ++ [⟨"task_completed", .running, actor, "task_id=" ++ taskId⟩] }
  | succeeded : status ≠ .failed → late = false → (∀ t ∈ d.tasks.getD [], t.status = .succeeded) →
      Concluded d taskId actor status late
        { d with state := .succeeded,
                 events := d.events ++ [⟨"task_completed", .running, actor, "task_id=" ++ taskId⟩] ++
                   [⟨"state_changed", .succeeded, actor, "all_tasks_succeeded"⟩] }

/-- **What a completion concludes** when it gets to its end. -/
theorem afterCompletion_concluded {cfg : Config} {w : World} {id taskId actor : String} {d d' : PlanDir}
    {status : TaskStatus} {late : Bool} (hst : d.state = .running)
    (h : Ran d (afterCompletion cfg w id d taskId actor status late).writes d') :
    Concluded d taskId actor status late d' := by
  -- after the event every branch but the first two finds the plan still running
  have hrun : ∀ e, ({ d with events := d.events ++ [e] } : PlanDir).state = .running := fun _ => hst
  unfold afterCompletion at h
  by_cases hf : status = .failed
  · rw [if_pos hf] at h
    simp only [transition, ran_state hst, ran_event, ran_nil] at h
    rw [h]
    exact .failed hf
  rw [if_neg hf] at h
  by_cases hl : late = true
  · rw [if_pos hl] at h
    simp only [transition, List.cons_append, List.nil_append, ran_state hst, ran_event, ran_nil] at h
    rw [h]
    exact .late hf hl
  have hl' : late = false := by simpa using hl
  rw [if_neg hl] at h
  split at h
  · simp only [transition, ran_state (hrun _), ran_event, ran_nil] at h
    rw [h]
    exact .blocked _ hf hl' (by simp)
  split at h
  · simp only [transition, ran_state (hrun _), ran_event, ran_nil] at h
    rw [h]
    exact .blocked _ hf hl' (by simp)
  split at h
  · simp only [ran_event, ran_nil] at h
    rw [h]
    exact .continues hf hl'
  split at h
  · simp only [transition, ran_state (hrun _), ran_event, ran_nil] at h
    rw [h]
    exact .blocked _ hf hl' (by simp)
  rename_i hall
  have hall' : ∀ t ∈ d.tasks.getD [], t.status = .succeeded := by simpa using hall
  split at h
  · simp only [transition, ran_state (hrun _), ran_event, ran_nil] at h
    rw [h]
    exact .blocked _ hf hl' (by simp)
  split at h
  · simp only [transition, List.cons_append, List.nil_append, ran_state (hrun _), ran_event, ran_release, ran_nil,
      or_self] at h
    rw [h]
    exact .succeeded hf hl' hall'
  · simp only [transition, ran_state (hrun _), ran_event, ran_nil] at h
    rw [h]
    exact .succeeded hf hl' hall'

/-! ## Whole commands -/

/-- The later of two versions of a task file counts. -/
theorem PlanDir.putTask_putTask (d : PlanDir) {t t' : Task} (h : t.taskId = t'.taskId) :
    (d.putTask t).putTask t' = d.putTask t' := by
  unfold PlanDir.putTask
  rw [Option.map_map]
  congr 2
  funext ts
  exact Frontier.replace_replace ts h

/-- The directory an uninterrupted command leaves. -/
inductive Effect (cfg : Config) (s : Store) (i : Invocation) : PlanDir → Prop
  | created {sc : Script} {body : PlanBody} {event detail : String} : CreationAccepted cfg s i sc body →
      Effect cfg s i (newPlan cfg body event detail)
  | approved {actor ticket : String} {sc : Script} {d : PlanDir} : i.command = .approve actor ticket →
      ApproveAccepted cfg i.world s i.id actor ticket sc d →
      Effect cfg s i
        { d with approval := some ⟨i.id, d.plan.planSha256, d.plan.requester, actor, ticket, i.world.nowUtc⟩,
                 state := .approved,
                 events := d.events ++ [⟨"state_changed", .approved, actor, "approval_ticket=" ++ ticket⟩] }
  | authorized {actor : String} {sc : Script} {d : PlanDir} {a : Approval} : i.command = .authorize actor →
      AuthorizeAccepted cfg i.world s i.id actor sc d a →
      Effect cfg s i
        { d with authorization := some ⟨i.id, d.plan.planSha256, actor, i.world.nowUtc,
                   cfg.hashFile (.approval a), cfg.hashString (.approval a)⟩,
                 state := .executionAuthorized,
                 events := d.events ++
                   [⟨"state_changed", .executionAuthorized, actor, "window_open_and_approval_verified"⟩] }
  | undispatched {actor : String} {sc : Script} {d : PlanDir} {a : Approval} {z : Authorization}
      {m : Option TaskManifest} {r : Option Receipt} : i.command = .dispatch actor →
      DispatchAccepted cfg i.world s i.id actor sc d a z →
      Effect cfg s i { d with manifest := m, receipt := r }
  | dispatched {actor : String} {sc : Script} {d : PlanDir} {a : Approval} {z : Authorization}
      {r : Receipt} {e : Event} : i.command = .dispatch actor →
      DispatchAccepted cfg i.world s i.id actor sc d a z → e.event = "tasks_materialized" →
      Effect cfg s i
        { d with manifest := some (writeTaskManifest i.id d.plan.planSha256 (dispatchedTasks cfg d.plan z)),
                 receipt := some r, tasks := some (dispatchedTasks cfg d.plan z), state := .running,
                 events := d.events ++ [⟨"state_changed", .running, actor, "typed_tasks_materialized"⟩] ++ [e] }
  | claimed {taskId actor lease : String} {sc : Script} {d : PlanDir} {t : Task} {expiry : Int}
      {e : Event} : i.command = .claim taskId actor lease →
      ClaimAccepted cfg i.world s i.id taskId actor lease sc d t expiry → e.event = "task_claimed" →
      Effect cfg s i
        { d.putTask (claimedTask t actor (i.world.clock 1) expiry) with events := d.events ++ [e] }
  | renewed {taskId actor lease : String} {sc : Script} {d : PlanDir} {t : Task} {expiry : Int}
      {e : Event} : i.command = .renew taskId actor lease →
      RenewAccepted cfg i.world s i.id taskId actor lease sc d t expiry → e.event = "task_lease_renewed" →
      Effect cfg s i
        { d.putTask (renewedTask t (i.world.clock 1) expiry) with events := d.events ++ [e] }
  | completed {taskId actor status evidenceFile evidenceSha256 : String} {sc : Script} {d d' : PlanDir} {t : Task}
      {result : TaskStatus} {e : ExecutionEvidence} {c : Custodied} {late : Bool} :
      i.command = .complete taskId actor status evidenceFile evidenceSha256 →
      CompleteAccepted cfg i.world s i.id taskId actor status evidenceFile sc d t result e c late →
      Concluded ((d.putCustody c.leaf c.dir).putTask (sealTaskResult cfg
        (completedTask t result evidenceFile e c (i.world.clock 0) late))) taskId actor result late d' →
      Effect cfg s i d'
  | released {actor : String} {d : PlanDir} {e : Event} : i.command = .reconcile actor →
      s.plans.lookup i.id = some d → d.state = .succeeded → e.event = "successful_plan_reconciled" →
      Effect cfg s i { d with events := d.events ++ [e] }
  | expired {actor : String} {sc : Script} {d : PlanDir} {t : Task} {e : Event} {rest : List Write} :
      i.command = .reconcile actor → script cfg s i = .ok sc →
      sc.writes = .task (expiredTask t (i.world.clock 0)) ::
        .task (sealTaskResult cfg (expiredTask t (i.world.clock 0))) :: rest →
      s.plans.lookup i.id = some d → d.state = .running → t ∈ d.tasks.getD [] →
      Sealed cfg d.plan.planSha256 t → t.status = .running → e.event = "task_outcome_unknown" →
      Effect cfg s i
        { d.putTask (sealTaskResult cfg (expiredTask t (i.world.clock 0))) with
            state := .paused,
            events := d.events ++ [⟨"state_changed", .paused, actor, "lease_expired_task=" ++ t.taskId⟩] ++ [e] }
  | retried {taskId actor : String} {sc : Script} {d : PlanDir} {t : Task} {archive : List Write} :
      i.command = .retryTask taskId actor →
      RetryAccepted cfg i.world s i.id taskId actor sc d t archive →
      Effect cfg s i
        { (d.putAttempt taskId t.retryCount t).putTask (sealTaskAttempt cfg (reopenedTask t)) with
            state := .running,
            events := d.events ++ [⟨"state_changed", .running, actor, "task_retried=" ++ taskId⟩] }

section
variable {cfg : Config} {s : Store} {i : Invocation}

/-- An archived attempt that is written again does not change. -/
theorem PlanDir.putAttempt_self {d : PlanDir} {taskId : String} {n : Nat} {t : Task}
    (h : d.attempts taskId n = some t) : d.putAttempt taskId n t = d := by
  have : (fun id m => if id = taskId ∧ m = n then some t else d.attempts id m) = d.attempts := by
    funext id m
    by_cases hc : id = taskId ∧ m = n
    · rw [if_pos hc, hc.1, hc.2, h]
    · rw [if_neg hc]
  unfold PlanDir.putAttempt
  rw [this]

/-- **The effect of `dispatch`**: manifest, task files and reservation are there, and the plan runs. -/
theorem dispatch_effect {actor : String} {sc : Script} {d d' : PlanDir} {a : Approval} {z : Authorization}
    (hcmd : i.command = .dispatch actor) (h : DispatchAccepted cfg i.world s i.id actor sc d a z)
    (hran : Ran d sc.writes d') : Effect cfg s i d' := by
  rw [h.script, dispatchScript] at hran
  split at hran
  · split at hran
    · -- the rename of the task directory failed
      simp only [List.cons_append, List.nil_append, ran_manifest, ran_reserve] at hran
      rcases hran with rfl | hran
      · exact .undispatched hcmd h
      · simp only [ran_receipt] at hran
        split at hran
        · simp only [ran_release, ran_nil, or_self] at hran
          rw [hran]
          exact .undispatched hcmd h
        · simp only [ran_nil] at hran
          rw [hran]
          exact .undispatched hcmd h
    · simp only [transition, List.cons_append, List.nil_append, ran_manifest, ran_reserve, ran_receipt,
        ran_tasks] at hran
      rcases hran with rfl | hran
      · exact .undispatched hcmd h
      · rw [ran_state (by exact h.state), ran_event, ran_event, ran_nil] at hran
        rw [hran]
        exact .dispatched hcmd h rfl
  · simp only [ran_manifest, ran_nil] at hran
    rw [hran]
    exact .undispatched hcmd h

/-- **What a command leaves** that gets to the end of its writes. -/
theorem ran_effect {sc : Script} {d d' : PlanDir} (hsc : script cfg s i = .ok sc)
    (hd : s.plans.lookup i.id = some d) (hran : Ran d sc.writes d') : Effect cfg s i d' := by
  have hok := hsc
  have hdir : ∀ {e : PlanDir}, verifyPlan cfg s i.id = .ok e → Ran e sc.writes d' := fun he => by
    obtain rfl := Option.some.inj ((verifyPlan_ok.mp he).1.symm.trans hd)
    exact hran
  cases hcmd : i.command <;> simp only [script, hcmd] at hsc
  case create requester windowStart windowEnd =>
    -- a plan that exists is not made again
    obtain ⟨_, _, hacc⟩ := create_ok hsc
    exact absurd (hd.symm.trans hacc.fresh) (by simp)
  case createRollback requester sourceId windowStart windowEnd =>
    obtain ⟨_, _, _, hacc⟩ := createRollback_ok hsc
    exact absurd (hd.symm.trans hacc.fresh) (by simp)
  case approve actor ticket =>
    obtain ⟨d, hacc⟩ := approve_ok hsc
    have hran := hdir hacc.plan
    rw [hacc.script] at hran
    rw [transition, ran_approval, ran_state (by exact hacc.state), ran_event, ran_nil] at hran
    rw [hran]
    exact .approved (d := d) hcmd hacc
  case authorize actor =>
    obtain ⟨d, a, hacc⟩ := authorize_ok hsc
    have hran := hdir hacc.plan
    rw [hacc.script] at hran
    rw [transition, ran_authorization, ran_state (by exact hacc.state), ran_event, ran_nil] at hran
    rw [hran]
    exact .authorized (d := d) hcmd hacc
  case dispatch actor =>
    obtain ⟨d, a, z, hacc⟩ := dispatch_ok hsc
    exact dispatch_effect hcmd hacc (hdir hacc.plan)
  case claim taskId actor lease =>
    obtain ⟨d, t, expiry, hacc⟩ := claim_ok hsc
    have hran := hdir hacc.plan
    simp only [hacc.script, ran_task, ran_event, ran_nil] at hran
    rw [hran]
    exact .claimed (d := d) hcmd hacc rfl
  case renew taskId actor lease =>
    obtain ⟨d, t, expiry, hacc⟩ := renew_ok hsc
    have hran := hdir hacc.plan
    simp only [hacc.script, ran_task, ran_event, ran_nil] at hran
    rw [hran]
    exact .renewed (d := d) hcmd hacc rfl
  case complete taskId actor status evidenceFile evidenceSha256 =>
    -- the result is written twice, without its seal and with it, and the second write is what stays
    obtain ⟨d, t, result, e, c, late, hacc⟩ := complete_ok hsc
    have hran := hdir hacc.plan
    simp only [hacc.script, List.cons_append, List.nil_append, ran_custody, ran_task] at hran
    rw [PlanDir.putTask_putTask _ (by rfl)] at hran
    exact .completed hcmd hacc (afterCompletion_concluded hacc.state hran)
  case reconcile actor =>
    -- either a reservation is released, or the first expired task becomes unknown
    cases reconcile_ok hsc with
    | released d plan state _ _ _ hw _ =>
        have hran := hdir plan
        rw [hw, ran_event] at hran
        have hd := (verifyPlan_ok.mp plan).1
        split at hran
        · simp only [ran_release, ran_nil, or_self] at hran
          rw [hran]
          exact .released hcmd hd state rfl
        · simp only [ran_nil] at hran
          rw [hran]
          exact .released hcmd hd state rfl
    | expired d t plan state member intact running hw =>
        have hran := hdir plan
        rw [hw] at hran
        simp only [transition, List.cons_append, List.nil_append, ran_task] at hran
        rw [ran_state (by exact state), ran_event, ran_event, ran_nil, PlanDir.putTask_putTask _ (by rfl)] at hran
        rw [hran]
        exact .expired hcmd hok (congrArg Script.writes hw) (verifyPlan_ok.mp plan).1 state member intact running rfl
  case retryTask taskId actor =>
    -- the archive is written only when the attempt has none yet; otherwise it says the same already
    obtain ⟨d, t, archive, hacc⟩ := retryTask_ok hsc
    have hran := hdir hacc.plan
    have hbody : Ran (d.putAttempt taskId t.retryCount t)
        ([.task (reopenedTask t), .task (sealTaskAttempt cfg (reopenedTask t))] ++
          transition .paused .running actor ("task_retried=" ++ taskId)) d' := by
      rw [hacc.script] at hran
      rcases hacc.archived with ⟨_, rfl⟩ | ⟨hsome, rfl⟩
      · simpa only [List.cons_append, List.nil_append, ran_attempt] using hran
      · rw [PlanDir.putAttempt_self hsome]
        exact hran
    simp only [transition, List.cons_append, List.nil_append, ran_task] at hbody
    rw [ran_state (by exact hacc.state), ran_event, ran_nil, PlanDir.putTask_putTask _ (by rfl)] at hbody
    rw [hbody]
    exact .retried hcmd hacc

/-- **What an uninterrupted command leaves**, seen from any plan: another plan's directory as it was, its own
    directory as `Effect` says, or, when it was refused, nothing changed at all. -/
theorem whole_effect (hwhole : i.killedAfter = none) {id : String} {d' : PlanDir}
    (h : (after cfg s i).plans.lookup id = some d') :
    (s.plans.lookup id = some d' ∧ (id ≠ i.id ∨ ∀ sc, script cfg s i ≠ .ok sc)) ∨
      (id = i.id ∧ Effect cfg s i d' ∧ ∃ sc, script cfg s i = .ok sc) := by
  by_cases hid : id = i.id
  swap
  · rw [after_lookup_ne hid] at h
    exact .inl ⟨h, .inl hid⟩
  subst hid
  cases hsc : script cfg s i with
  | error e =>
      unfold after at h
      rw [hsc] at h
      exact .inl ⟨h, .inr nofun⟩
  | ok sc =>
      refine .inr ⟨rfl, ?_, sc, rfl⟩
      have hreached : i.reached sc.writes = sc.writes := by rw [Invocation.reached, hwhole]
      rcases script_plan hsc with ⟨body, hcreate⟩ | ⟨d, hd⟩
      · obtain ⟨event, detail, hw⟩ := hcreate.writes
        have hex : exec cfg i.id s (.plan (newPlan cfg body event detail)) =
            some (s.put i.id (newPlan cfg body event detail)) := by simp [exec, hcreate.fresh]
        unfold after at h
        simp only [hsc, hreached] at h
        rw [hw, Trace.perform_cons_some _ hex, Trace.perform_nil, Store.lookup_put_self] at h
        exact Option.some.inj h ▸ .created hcreate
      · have hlook := (verifyPlan_ok.mp hd).1
        obtain ⟨d'', hl, hr⟩ := after_ran hsc hlook
        rw [hl] at h
        rw [hreached] at hr
        exact Option.some.inj h ▸ ran_effect hsc hlook hr

end

end OraclePatching
