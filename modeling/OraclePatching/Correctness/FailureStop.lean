import OraclePatching.Correctness.SerialOrder

/-!
# `Correctness.FailureStop` — a failed task stops the plan, whenever a process is killed

A command killed between two writes leaves a directory that no uninterrupted command leaves, so the invariant here,
`Guarded`, is weaker than `Orderly`: a failed task may sit in a running plan as long as its result is not sealed,
because `claim` verifies every task first. The one cut that breaks it is the one after `complete` has sealed a
failure and before it pauses the plan (`unpaused`).
-/

namespace OraclePatching

/-! ## The invariant

In a running plan no failed task has a sealed result. A failed task that is not sealed yet does not verify, and
nothing is claimed next to it. -/

structure Guarded (cfg : Config) (d : PlanDir) : Prop where
  keys : d.ids.Nodup
  serial : Frontier.Serial (fun t : Task => t.status = .succeeded) (fun t => t.status = .pending) d.files
  openResults : ∀ t ∈ d.files, t.status.isResult = false → t.taskResultSha256 = none
  stopped : d.state = .running → ∀ t ∈ d.files, t.status = .failed → ¬ Sealed cfg d.plan.planSha256 t

section
variable {cfg : Config} {d d' : PlanDir} {t t' : Task}

/-- A failed task whose result was never sealed does not verify. -/
theorem not_sealed (hf : t.status = .failed) (hnone : t.taskResultSha256 = none) {planSha : Digest} :
    ¬ Sealed cfg planSha t := by
  intro h
  have := h.result (by rw [hf]; rfl)
  rw [hnone] at this
  exact absurd this (by simp)

/-- A plan that was not dispatched has no tasks. -/
theorem guarded_of_no_tasks (h : d.tasks = none) : Guarded cfg d := by
  have hfiles : d.files = [] := by rw [PlanDir.files, h]; rfl
  refine ⟨?_, ?_, ?_, ?_⟩ <;> simp [PlanDir.ids, hfiles, Frontier.Serial]

/-- Only task files, plan and state matter. -/
theorem Guarded.congr (h : Guarded cfg d) (htasks : d'.tasks = d.tasks) (hplan : d'.plan = d.plan)
    (hstate : d'.state = .running → d.state = .running ∨ ∀ t ∈ d.files, t.status ≠ .failed) : Guarded cfg d' := by
  have hfiles : d'.files = d.files := by rw [PlanDir.files, htasks]
  refine ⟨by rw [PlanDir.ids, hfiles]; exact h.keys, hfiles ▸ h.serial, hfiles ▸ h.openResults, fun hst u hu hf => ?_⟩
  rw [hfiles] at hu
  rcases hstate hst with h1 | h1
  · exact hplan ▸ h.stopped h1 u hu hf
  · exact absurd hf (h1 u hu)

/-- A task in hand replaced by another result or attempt. -/
theorem Guarded.replaced (h : Guarded cfg d) (ht : t ∈ d.files) (hid : t'.taskId = t.taskId)
    (hp : t.status ≠ .pending) (hs : t.status ≠ .succeeded)
    (hopen : t'.status.isResult = false → t'.taskResultSha256 = none)
    (hnew : d.state = .running → t'.status = .failed → ¬ Sealed cfg d.plan.planSha256 t') :
    Guarded cfg (d.putTask t') := by
  have hmem : ∀ u ∈ (d.putTask t').files, u = t' ∨ u ∈ d.files := fun u hu => by
    rw [putTask_files] at hu
    exact (Frontier.mem_replace hu).imp_right And.left
  refine ⟨putTask_ids.symm ▸ h.keys, ?_, fun u hu hr => ?_, fun hst u hu hf => ?_⟩
  · rw [putTask_files]
    refine h.serial.replace h.keys fun y hy hk => ?_
    obtain rfl := Frontier.eq_of_key h.keys hy ht (hk.trans hid)
    exact ⟨hp, fun hd => absurd hd hs⟩
  · rcases hmem u hu with rfl | hu
    · exact hopen hr
    · exact h.openResults u hu hr
  · rcases hmem u hu with rfl | hu
    · exact hnew hst hf
    · exact h.stopped hst u hu hf

/-- Beside a task in hand there is no failed task. -/
theorem Guarded.beside (h : Guarded cfg d) (ht : t ∈ d.files) (hp : t.status ≠ .pending) (hs : t.status ≠ .succeeded)
    {u : Task} (hu : u ∈ d.files) (hne : u.taskId ≠ t.taskId) : u.status ≠ .failed := by
  rcases h.serial.settled ht hs hp hu fun he => hne (he ▸ rfl) with h1 | h1 <;> rw [h1] <;> simp

/-- What the scan of `claim` leaves in a guarded plan. -/
theorem Guarded.settled (h : Guarded cfg d) (hst : d.state = .running)
    (hscan : ∀ u ∈ d.files, Sealed cfg d.plan.planSha256 u ∧ u.status ≠ .running ∧ u.status ≠ .unknown) {u : Task}
    (hu : u ∈ d.files) : u.status = .succeeded ∨ u.status = .pending := by
  obtain ⟨h1, h2, h3⟩ := hscan u hu
  have h4 : u.status ≠ .failed := fun hf => h.stopped hst u hu hf h1
  cases hs : u.status <;> simp_all

end

/-! ## The condition -/

/-- The next write of a process: the rename of `state` from `running` to `paused`. -/
def nextPauses (ws : List Write) : Bool :=
  match ws with
  | .state .running .paused :: _ => true
  | _ => false

/-- `complete --status failed` is killed just before it pauses the plan. -/
def unpaused (cfg : Config) (s : Store) (i : Invocation) : Prop :=
  ∃ taskId actor evidenceFile evidenceSha256 sc k,
    i.command = .complete taskId actor "failed" evidenceFile evidenceSha256 ∧ script cfg s i = .ok sc ∧
      i.killedAfter = some k ∧ nextPauses (sc.writes.drop k) = true

/-! ## Steps -/

section
variable {cfg : Config} {s : Store} {i : Invocation} {d d' : PlanDir} {w : World}

theorem guarded_dispatch {id actor : String} {sc : Script} {a : Approval} {z : Authorization}
    (hacc : DispatchAccepted cfg w s id actor sc d a z) (hcut : Cut d sc.writes d') : Guarded cfg d' := by
  have hsc : ∀ wr ∈ sc.writes, wr.keepsTasks = true ∨ wr = .tasks (dispatchedTasks cfg d.plan z) := by
    rw [hacc.script]
    exact dispatchScript_tasks
  rcases hcut.tasks_or hsc with h1 | h1
  · exact guarded_of_no_tasks (h1.trans hacc.fresh)
  · have hfiles : d'.files = dispatchedTasks cfg d.plan z := by rw [PlanDir.files, h1]; rfl
    have hpending : ∀ t ∈ d'.files, t.status = .pending ∧ t.taskResultSha256 = none := by
      intro t ht
      rw [hfiles] at ht
      obtain ⟨_, _, _, rfl, _⟩ := mem_materialiseFrom (mem_globOrder.mp ht)
      exact ⟨rfl, rfl⟩
    refine ⟨?_, .of_todo fun t ht => (hpending t ht).1, fun t ht _ => (hpending t ht).2, fun _ t ht hf => ?_⟩
    · rw [PlanDir.ids, hfiles]
      exact nodup_of_numbers (globOrder_numbers_nodup materialise_numbers_nodup)
    · rw [(hpending t ht).1] at hf
      exact absurd hf (by simp)

theorem guarded_claim {id taskId actor lease : String} {sc : Script} {t : Task} {expiry : Int}
    (h : Guarded cfg d) (hacc : ClaimAccepted cfg w s id taskId actor lease sc d t expiry)
    (hcut : Cut d sc.writes d') : Guarded cfg d' := by
  obtain ⟨ht, hid⟩ := task?_mem hacc.task
  obtain ⟨f, hfind, hf⟩ := hacc.first
  obtain rfl : f = t := Frontier.eq_of_key h.keys (List.mem_of_find?_eq_some hfind) ht (hf.trans hid.symm)
  have hpending : f.status = .pending := by simpa using List.find?_some hfind
  have hclaimed : Guarded cfg (d.putTask (claimedTask f actor (w.clock 1) expiry)) := by
    have hmem : ∀ u ∈ (d.putTask (claimedTask f actor (w.clock 1) expiry)).files,
        u = claimedTask f actor (w.clock 1) expiry ∨ u ∈ d.files := fun u hu => by
      rw [putTask_files] at hu
      exact (Frontier.mem_replace hu).imp_right And.left
    refine ⟨putTask_ids.symm ▸ h.keys, ?_, fun u hu hr => ?_, fun hst u hu hfail => ?_⟩
    · rw [putTask_files]
      exact h.serial.start h.keys (fun a _ => by simp) (fun u hu => h.settled hacc.state hacc.sound hu)
        (by rw [hpending]; simp) hfind rfl
    · rcases hmem u hu with rfl | hu
      · exact h.openResults f ht (by rw [hpending]; rfl)
      · exact h.openResults u hu hr
    · rcases hmem u hu with rfl | hu
      · exact absurd hfail (by simp [claimedTask])
      · exact h.stopped hacc.state u hu hfail
  rw [hacc.script, cut_task] at hcut
  rcases hcut with rfl | hcut
  · exact h
  · refine hclaimed.congr (hcut.tasks rfl) hcut.plan fun _ => .inl hacc.state

theorem guarded_renew {id taskId actor lease : String} {sc : Script} {t : Task} {expiry : Int}
    (h : Guarded cfg d) (hacc : RenewAccepted cfg w s id taskId actor lease sc d t expiry)
    (hcut : Cut d sc.writes d') : Guarded cfg d' := by
  obtain ⟨ht, _⟩ := task?_mem hacc.task
  have hopen := h.openResults t ht (by rw [hacc.status]; rfl)
  have hrenewed : Guarded cfg (d.putTask (renewedTask t (w.clock 1) expiry)) :=
    h.replaced ht rfl (by rw [hacc.status]; simp) (by rw [hacc.status]; simp) (fun _ => hopen) fun _ hf => by
      rw [show (renewedTask t (w.clock 1) expiry).status = t.status from rfl, hacc.status] at hf
      exact absurd hf (by simp)
  rw [hacc.script, cut_task] at hcut
  rcases hcut with rfl | hcut
  · exact h
  · exact hrenewed.congr (hcut.tasks rfl) hcut.plan fun _ => .inl hacc.state

theorem guarded_reconcile {id actor : String} {sc : Script} (h : Guarded cfg d) (hd : s.plans.lookup id = some d)
    (hacc : ReconcileAccepted cfg w s id actor sc) (hcut : Cut d sc.writes d') : Guarded cfg d' := by
  have hsame : ∀ {e : PlanDir}, verifyPlan cfg s id = .ok e → e = d := fun he =>
    Option.some.inj ((verifyPlan_ok.mp he).1.symm.trans hd)
  cases hacc with
  | released e plan state _ _ _ hw _ =>
      obtain rfl := hsame plan
      have hd' : d' = e ∨ d' = { e with events := e.events ++
          [⟨"successful_plan_reconciled", .succeeded, actor, "custody_verified_before_reservation_release"⟩] } := by
        rw [hw, cut_event] at hcut
        refine hcut.imp_right fun hcut => ?_
        split at hcut
        · rwa [cut_release, cut_nil] at hcut
        · rwa [cut_nil] at hcut
      rcases hd' with rfl | rfl
      · exact h
      · exact h.congr rfl rfl .inl
  | expired e t plan state ht hsealed hrun hw =>
      -- the expired task becomes unknown, which is no failure, and then the plan pauses
      obtain rfl := hsame plan
      have hreplaced : ∀ t' : Task, t'.taskId = t.taskId → t'.status = .unknown → Guarded cfg (e.putTask t') :=
        fun t' hid hst => h.replaced ht hid (by rw [hrun]; simp) (by rw [hrun]; simp)
          (fun hr => absurd hr (by rw [hst]; simp [TaskStatus.isResult])) fun _ hf => by
            rw [hst] at hf
            exact absurd hf (by simp)
      rw [hw] at hcut
      simp only [List.cons_append, List.nil_append, cut_task] at hcut
      rw [PlanDir.putTask_putTask _ (by rfl)] at hcut
      rcases hcut with rfl | rfl | hcut
      · exact h
      · exact hreplaced _ rfl rfl
      · exact (hreplaced (sealTaskResult cfg (expiredTask t (w.clock 0))) rfl rfl).congr (hcut.tasks rfl) hcut.plan
          fun _ => .inl state

theorem guarded_retry {id taskId actor : String} {sc : Script} {t : Task} {archive : List Write}
    (h : Guarded cfg d) (hacc : RetryAccepted cfg w s id taskId actor sc d t archive)
    (hcut : Cut d sc.writes d') : Guarded cfg d' := by
  obtain ⟨ht, _⟩ := task?_mem hacc.task
  have hpaused : d.state ≠ .running := by rw [hacc.state]; simp
  -- the archive is the only write before the task files
  have hbody : d' = d ∨ ∃ e : PlanDir, e.tasks = d.tasks ∧ e.plan = d.plan ∧ e.state = d.state ∧
      Cut e ([.task (reopenedTask t), .task (sealTaskAttempt cfg (reopenedTask t))] ++
        transition .paused .running actor ("task_retried=" ++ taskId)) d' := by
    rw [hacc.script] at hcut
    rcases hacc.archived with ⟨_, rfl⟩ | ⟨_, rfl⟩
    · rw [List.singleton_append, List.cons_append, cut_attempt] at hcut
      exact hcut.imp_right fun hcut => ⟨d.putAttempt taskId t.retryCount t, rfl, rfl, rfl, hcut⟩
    · exact .inr ⟨d, rfl, rfl, rfl, hcut⟩
  rcases hbody with rfl | ⟨e, htasks, hplan, hstate, hbody⟩
  · exact h
  have he : Guarded cfg e := h.congr htasks hplan fun hst => absurd (hstate ▸ hst) hpaused
  have hte : t ∈ e.files := by rw [PlanDir.files, htasks]; exact ht
  have hreplaced : ∀ t' : Task, t'.taskId = t.taskId → t'.status = .pending → t'.taskResultSha256 = none →
      Guarded cfg (e.putTask t') := fun t' hid hst hnone =>
    he.replaced hte hid (by rw [hacc.failed]; simp) (by rw [hacc.failed]; simp) (fun _ => hnone) fun _ hf => by
      rw [hst] at hf
      exact absurd hf (by simp)
  simp only [List.cons_append, List.nil_append, cut_task] at hbody
  rw [PlanDir.putTask_putTask _ (by rfl)] at hbody
  rcases hbody with rfl | rfl | hbody
  · exact he
  · exact hreplaced _ rfl rfl rfl
  · refine (hreplaced (sealTaskAttempt cfg (reopenedTask t)) rfl rfl rfl).congr (hbody.tasks rfl) hbody.plan
      fun _ => .inr fun u hu => ?_
    rcases mem_putTask hu with rfl | ⟨hu, hne⟩
    · simp [sealTaskAttempt, reopenedTask]
    · exact he.beside hte (by rw [hacc.failed]; simp) (by rw [hacc.failed]; simp) hu hne

/-- The result of a completion written into the task file, sealed or not, in a directory that is not running or
    when the result is not a failure. -/
theorem guarded_completed (t' : Task) {t : Task} (h : Guarded cfg d) (ht : t ∈ d.files) (hrun : t.status = .running)
    (hid : t'.taskId = t.taskId) (hres : t'.status.isResult = true)
    (hnew : d.state = .running → t'.status = .failed → ¬ Sealed cfg d.plan.planSha256 t') :
    Guarded cfg (d.putTask t') :=
  h.replaced ht hid (by rw [hrun]; simp) (by rw [hrun]; simp) (fun hr => absurd (hres.symm.trans hr) (by simp)) hnew

theorem guarded_complete {taskId actor status evidenceFile evidenceSha256 : String} {sc : Script} {t : Task}
    {result : TaskStatus} {e : ExecutionEvidence} {c : Custodied} {late : Bool} (h : Guarded cfg d)
    (hcmd : i.command = .complete taskId actor status evidenceFile evidenceSha256) (hok : script cfg s i = .ok sc)
    (hacc : CompleteAccepted cfg i.world s i.id taskId actor status evidenceFile sc d t result e c late)
    (hcond : ¬ unpaused cfg s i) (hran : Ran d (i.reached sc.writes) d') : Guarded cfg d' := by
  obtain ⟨ht, _⟩ := task?_mem hacc.task
  have hopen := h.openResults t ht (by rw [hacc.running]; rfl)
  have hcustody : Guarded cfg (d.putCustody c.leaf c.dir) := h.congr rfl rfl .inl
  rcases completionStatus_ok hacc.outcome with ⟨_, rfl⟩ | ⟨rfl, rfl⟩
  · -- a success never leaves a failed task, whatever the state becomes
    have hcut := reached_cut hran
    have hdone : ∀ t' : Task, t'.taskId = t.taskId → t'.status = .succeeded →
        Guarded cfg ((d.putCustody c.leaf c.dir).putTask t') := fun t' hid hst =>
      guarded_completed t' hcustody ht hacc.running hid (by rw [hst]; rfl) fun _ hf => by
        rw [hst] at hf
        exact absurd hf (by simp)
    rw [hacc.script] at hcut
    simp only [List.cons_append, List.nil_append, cut_custody, cut_task] at hcut
    rw [PlanDir.putTask_putTask _ (by rfl)] at hcut
    rcases hcut with rfl | rfl | rfl | hcut
    · exact h
    · exact hcustody
    · exact hdone _ rfl rfl
    · refine (hdone (sealTaskResult cfg (completedTask t .succeeded evidenceFile e c (i.world.clock 0) late)) rfl
        rfl).congr (hcut.tasks afterCompletion_keepsTasks) hcut.plan fun _ => .inr fun u hu => ?_
      rcases mem_putTask hu with rfl | ⟨hu, hne⟩
      · simp [sealTaskResult, completedTask]
      · exact hcustody.beside ht (by rw [hacc.running]; simp) (by rw [hacc.running]; simp) hu hne
  · -- a failure is either not sealed yet or the plan has been paused
    have hw := congrArg Script.writes hacc.script
    simp only [afterCompletion, if_true, transition, List.cons_append, List.nil_append] at hw
    have hunsealed : Guarded cfg ((d.putCustody c.leaf c.dir).putTask
        (completedTask t .failed evidenceFile e c (i.world.clock 0) late)) :=
      guarded_completed _ hcustody ht hacc.running rfl rfl fun _ hf => not_sealed hf hopen
    -- once the state file says `paused`, only the event is left to write
    have hpaused : ∀ {ev : Event} {k : Nat}, Ran { (d.putCustody c.leaf c.dir).putTask (sealTaskResult cfg
        (completedTask t .failed evidenceFile e c (i.world.clock 0) late)) with state := .paused }
          ([.event ev].take k) d' → Guarded cfg d' := by
      intro ev k hend
      have hstate : d'.state = .paused := by
        have hend := hend.cut
        rw [cut_event, cut_nil] at hend
        rcases hend with rfl | rfl <;> rfl
      have hbase : Guarded cfg ({ d.putCustody c.leaf c.dir with state := .paused } : PlanDir) :=
        hcustody.congr rfl rfl fun h1 => absurd h1 (by simp)
      refine (guarded_completed (sealTaskResult cfg
        (completedTask t .failed evidenceFile e c (i.world.clock 0) late)) hbase ht hacc.running rfl rfl
          fun h1 => absurd h1 (by simp)).congr (hend.cut.tasks rfl) hend.cut.plan fun h1 => ?_
      rw [hstate] at h1
      exact absurd h1 (by simp)
    have hwhole : ∀ {ev : Event} {k : Nat}, Ran d (.custody c.leaf c.dir ::
        .task (completedTask t .failed evidenceFile e c (i.world.clock 0) late) ::
        .task (sealTaskResult cfg (completedTask t .failed evidenceFile e c (i.world.clock 0) late)) ::
        .state .running .paused :: [.event ev].take k) d' → Guarded cfg d' := by
      intro ev k hran
      rw [ran_custody, ran_task, ran_task, PlanDir.putTask_putTask _ (by rfl), ran_state (by exact hacc.state)] at hran
      exact hpaused hran
    unfold Invocation.reached at hran
    rw [hw] at hran
    rcases hkill : i.killedAfter with _ | _ | _ | _ | _ | k
    all_goals rw [hkill] at hran
    · exact hwhole (k := 1) hran
    · simp only [List.take_zero, ran_nil] at hran
      exact hran ▸ h
    · simp only [List.take_succ_cons, List.take_zero, ran_custody, ran_nil] at hran
      exact hran ▸ hcustody
    · simp only [List.take_succ_cons, List.take_zero, ran_custody, ran_task, ran_nil] at hran
      exact hran ▸ hunsealed
    · refine absurd ⟨taskId, actor, evidenceFile, evidenceSha256, sc, 3, hcmd, hok, hkill, ?_⟩ hcond
      rw [hw]
      rfl
    · exact hwhole (k := k) hran

/-- **Step lemma.** Every command that is not cut in the one bad place leaves a guarded plan guarded. -/
theorem guarded_step (hs : ∀ d, s.plans.lookup i.id = some d → Guarded cfg d) (hcond : ¬ unpaused cfg s i)
    {d d' : PlanDir} {sc : Script} (hd : s.plans.lookup i.id = some d) (hsc : script cfg s i = .ok sc)
    (hran : Ran d (i.reached sc.writes) d') : Guarded cfg d' := by
  have h := hs d hd
  have hsame : ∀ {e : PlanDir}, verifyPlan cfg s i.id = .ok e → e = d := fun he =>
    Option.some.inj ((verifyPlan_ok.mp he).1.symm.trans hd)
  have hcut := reached_cut hran
  cases hcmd : i.command <;> have hok := hsc <;> simp only [script, hcmd] at hsc
  case create =>
    obtain ⟨_, _, hacc⟩ := create_ok hsc
    exact absurd (hd.symm.trans hacc.fresh) (by simp)
  case createRollback =>
    obtain ⟨_, _, _, hacc⟩ := createRollback_ok hsc
    exact absurd (hd.symm.trans hacc.fresh) (by simp)
  case approve actor ticket =>
    -- the plan is not running before or after, so there is nothing to guard
    obtain ⟨e, hacc⟩ := approve_ok hsc
    obtain rfl := hsame hacc.plan
    rw [hacc.script] at hcut
    have hstate : d'.state ≠ .running := hcut.state (P := (· ≠ .running)) (by simp [transition]) (by rw [hacc.state]; simp)
    exact h.congr (hcut.tasks rfl) hcut.plan fun h1 => absurd h1 hstate
  case authorize actor =>
    obtain ⟨e, a, hacc⟩ := authorize_ok hsc
    obtain rfl := hsame hacc.plan
    rw [hacc.script] at hcut
    have hstate : d'.state ≠ .running := hcut.state (P := (· ≠ .running)) (by simp [transition]) (by rw [hacc.state]; simp)
    exact h.congr (hcut.tasks rfl) hcut.plan fun h1 => absurd h1 hstate
  case dispatch actor =>
    obtain ⟨e, a, z, hacc⟩ := dispatch_ok hsc
    obtain rfl := hsame hacc.plan
    exact guarded_dispatch hacc hcut
  case claim taskId actor lease =>
    obtain ⟨e, t, expiry, hacc⟩ := claim_ok hsc
    obtain rfl := hsame hacc.plan
    exact guarded_claim h hacc hcut
  case renew taskId actor lease =>
    obtain ⟨e, t, expiry, hacc⟩ := renew_ok hsc
    obtain rfl := hsame hacc.plan
    exact guarded_renew h hacc hcut
  case complete taskId actor status evidenceFile evidenceSha256 =>
    -- the only command that the condition is about
    obtain ⟨e, t, result, ev, c, late, hacc⟩ := complete_ok hsc
    obtain rfl := hsame hacc.plan
    exact guarded_complete h hcmd hok hacc hcond hran
  case reconcile actor => exact guarded_reconcile h hd (reconcile_ok hsc) hcut
  case retryTask taskId actor =>
    obtain ⟨e, t, archive, hacc⟩ := retryTask_ok hsc
    obtain rfl := hsame hacc.plan
    exact guarded_retry h hacc hcut

/-- **Run lemma.** Every plan of a run without the bad cut is guarded. -/
theorem guarded_reached {as : List Invocation} (h : Reached cfg (fun s i => ¬ unpaused cfg s i) as s) :
    ∀ id d, s.plans.lookup id = some d → Guarded cfg d := by
  refine Trace.Run.invariant (I := fun _ s => ∀ id d, s.plans.lookup id = some d → Guarded cfg d) ?_ ?_ h
  · intro s hs id d hd
    rw [hs] at hd
    exact absurd hd (by simp [Store.empty])
  · intro _ s i s' _ ih hcond hs' id d' hd'
    injection hs' with hs'
    rw [← hs'] at hd'
    rcases after_cases hd' with h1 | ⟨rfl, _, _, _, _, _, rfl⟩ | ⟨rfl, d, sc, hd, hsc, hran⟩
    · exact ih id d' h1
    · exact guarded_of_no_tasks rfl
    · exact guarded_step (ih i.id) hcond hd hsc hran

/-- **The failure stop survives interruptions.** In a run in which no `complete --status failed` is killed between
    the rename that seals the result and the rename that pauses the plan, no claim is granted on a plan that has a
    failed or unknown task. -/
theorem claim_stopped {as : List Invocation} (h : Reached cfg (fun s i => ¬ unpaused cfg s i) as s)
    {taskId actor lease : String} {sc : Script} (hcmd : i.command = .claim taskId actor lease)
    (hsc : script cfg s i = .ok sc) (hd : s.plans.lookup i.id = some d) :
    ∀ t ∈ d.files, t.status ≠ .failed ∧ t.status ≠ .unknown := by
  simp only [script, hcmd] at hsc
  obtain ⟨e, t, expiry, hacc⟩ := claim_ok hsc
  obtain rfl : e = d := Option.some.inj ((verifyPlan_ok.mp hacc.plan).1.symm.trans hd)
  intro u hu
  rcases (guarded_reached h i.id e hd).settled hacc.state hacc.sound hu with h1 | h1 <;> rw [h1] <;> simp

end

/-- A command that is not killed is no such kill. -/
theorem not_unpaused_of_whole {cfg : Config} {s : Store} {i : Invocation} (h : whole s i) : ¬ unpaused cfg s i := by
  rintro ⟨_, _, _, _, _, _, _, _, hkill, _⟩
  rw [show i.killedAfter = none from h] at hkill
  exact absurd hkill (by simp)

/-- A retry is no completion, wherever it is killed. -/
theorem not_unpaused_of_retry {cfg : Config} {s : Store} {i : Invocation} {taskId actor : String}
    (h : i.command = .retryTask taskId actor) : ¬ unpaused cfg s i := by
  rintro ⟨_, _, _, _, _, _, hcommand, -⟩
  rw [h] at hcommand
  exact absurd hcommand (by simp)

/-- The first task of `p1` has failed; its retry is killed when it has linked the archive, and issued again. -/
def labRetried : List Invocation := labFailed ++ [{ labRetry 1 with killedAfter := some 1 }, labRetry 1]

/-- The run in which the first task fails and is retried is one under the condition. -/
theorem labRetried_reached : Reached lab (fun s i => ¬ unpaused lab s i) labRetried (replay lab labRetried) := by
  refine replay_reached fun pre i hpre => ?_
  have hi : i ∈ labFailed ++ [{ labRetry 1 with killedAfter := some 1 }, labRetry 1] :=
    hpre.subset (List.mem_append_right pre List.mem_cons_self)
  rcases List.mem_append.mp hi with hi | hi
  · have hwhole : ∀ i ∈ labFailed, i.killedAfter = none := by decide
    exact not_unpaused_of_whole (hwhole i hi)
  · rw [List.mem_cons, List.mem_singleton] at hi
    rcases hi with rfl | rfl
    · exact not_unpaused_of_retry rfl
    · exact not_unpaused_of_retry rfl

/-- The claim that is granted then finds no failed and no unknown task. -/
theorem claim_stopped_retried : ∃ sc d, script lab (replay lab labRetried) (labClaim 1 "eve") = .ok sc ∧
    (replay lab labRetried).plans.lookup "p1" = some d ∧
      ∀ t ∈ d.files, t.status ≠ .failed ∧ t.status ≠ .unknown := by
  have hrun : (Accepted (script lab (replay lab labRetried) (labClaim 1 "eve")) &&
      ((replay lab labRetried).plans.lookup "p1").isSome) = true := by decide +kernel
  rw [Bool.and_eq_true] at hrun
  obtain ⟨sc, hsc⟩ := accepted_iff.mp hrun.1
  obtain ⟨d, hd⟩ := Option.isSome_iff_exists.mp hrun.2
  exact ⟨sc, d, hsc, hd, claim_stopped labRetried_reached rfl hsc hd⟩

/-- `complete --status failed` on the first task, killed after it sealed the result. -/
def labUnpaused : List Invocation :=
  labDispatched ++ [labClaim 1 "dee", { labComplete 1 "dee" .failed 0 with killedAfter := some 3 }]

/-- The cut that `unpaused` names: the first task has failed and a claim of the second one is granted. -/
theorem claim_granted_after_failure : Reached lab (fun _ _ => True) labUnpaused (replay lab labUnpaused) ∧
    ((replay lab labUnpaused).plans.lookup "p1").map (fun d => d.files.map (·.status)) =
      some [.failed, .pending, .pending, .pending, .pending] ∧
    Accepted (script lab (replay lab labUnpaused) (labClaim 2 "eve")) = true :=
  ⟨replay_reached fun _ _ _ => trivial, by decide +kernel⟩

end OraclePatching
