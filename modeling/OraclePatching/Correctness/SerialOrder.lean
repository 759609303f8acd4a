import OraclePatching.Controller.Effects
import OraclePatching.Controller.Replay

/-!
# `Correctness.SerialOrder` — tasks of a plan are worked off one at a time, in glob order

`Orderly` is the invariant of a plan directory under uninterrupted commands. Its core is `Frontier.Serial`: of two
tasks, the earlier one has succeeded or the later one is pending. `claim` keeps it because its scan leaves only
succeeded and pending tasks in a running plan, once no task of a running plan has failed (`moving`); the other
commands replace a task that is already in hand. A task completed after its lease is a second reason to stop, and
`late` records that the pause it caused is not one that `retry-task` lifts.
-/

namespace OraclePatching

/-! ## The invariant

The tasks of a plan stand in a row: the succeeded ones, then perhaps one that is under way or has stopped the plan,
then the pending ones. -/

/-- The task files, in glob order. -/
abbrev PlanDir.files (d : PlanDir) : List Task := d.tasks.getD []

/-- The task IDs, in glob order. -/
abbrev PlanDir.ids (d : PlanDir) : List String := d.files.map (·.taskId)

structure Orderly (d : PlanDir) : Prop where
  numbers : (d.ids.map taskNumber).Nodup
  listed : d.ids.Pairwise fun a b => a ++ ".json" ≤ b ++ ".json"
  serial : Frontier.Serial (fun t : Task => t.status = .succeeded) (fun t => t.status = .pending) d.files
  moving : d.state = .running → ∀ t ∈ d.files, t.status ≠ .failed ∧ t.status ≠ .unknown
  finished : d.state = .succeeded → ∀ t ∈ d.files, t.status = .succeeded
  late : ∀ t ∈ d.files, t.completedAfterLease = some true →
    t.status = .failed ∨ (t.status = .succeeded ∧ d.state = .paused ∧
      ∀ taskId, lastPausedDetail d.events ≠ "task_failed=" ++ taskId)

section
variable {d : PlanDir} {t : Task}

theorem Orderly.keys (h : Orderly d) : d.ids.Nodup := h.numbers.of_map

@[simp] theorem putTask_files : (d.putTask t).files = Frontier.replace (·.taskId) t d.files := by
  unfold PlanDir.putTask PlanDir.files
  cases d.tasks <;> rfl

@[simp] theorem putTask_ids : (d.putTask t).ids = d.ids := by
  rw [PlanDir.ids, putTask_files, Frontier.map_key_replace]

/-- A task that is found is one of the files. -/
theorem task?_mem {taskId : String} (h : d.task? taskId = some t) : t ∈ d.files ∧ t.taskId = taskId :=
  Frontier.lookup_mem h

/-- The last pause after one more event. -/
theorem lastPausedDetail_append (es : List Event) (e : Event) :
    lastPausedDetail (es ++ [e]) =
      if e.event = "state_changed" ∧ e.state = .paused then e.detail else lastPausedDetail es := by
  unfold lastPausedDetail
  rw [List.filter_append]
  by_cases h : e.event = "state_changed" ∧ e.state = .paused
  · simp [h]
  · have hnil : ([e].filter fun e => e.event == "state_changed" && e.state == .paused) = [] :=
      List.filter_eq_nil_iff.mpr fun x hx => by rw [List.mem_singleton.mp hx]; simpa using h
    rw [hnil, if_neg h, List.append_nil]

/-- A pause after a late completion is not the pause of a failure. -/
theorem late_ne_failed (a b : String) : "task_completed_after_lease=" ++ a ≠ "task_failed=" ++ b := by
  intro h
  have h6 := congrArg (fun s => s.toList.take 6) h
  simp only [String.toList_append] at h6
  exact absurd h6 (by simp)

end

/-! ## Steps

Each kind of write keeps the row. A task is replaced in its place, so only its own status has to be looked at. -/

section
variable {d : PlanDir} {t t' : Task}

/-- A task in hand may be replaced by anything. -/
theorem serial_putTask (h : Orderly d) (ht : t ∈ d.files) (hid : t'.taskId = t.taskId)
    (hp : t.status ≠ .pending) (hs : t.status ≠ .succeeded) :
    Frontier.Serial (fun t : Task => t.status = .succeeded) (fun t => t.status = .pending)
      (d.putTask t').files := by
  rw [putTask_files]
  refine h.serial.replace h.keys fun y hy hk => ?_
  have hyt : y = t := Frontier.eq_of_key h.keys hy ht (hk.trans hid)
  subst hyt
  exact ⟨hp, fun hd => absurd hd hs⟩

/-- The files of the other tasks stay. -/
theorem mem_putTask {u : Task} (hu : u ∈ (d.putTask t').files) :
    u = t' ∨ (u ∈ d.files ∧ u.taskId ≠ t'.taskId) := by
  rw [putTask_files] at hu
  exact Frontier.mem_replace hu

/-- A task that stops nothing. -/
def Clean (t : Task) : Prop :=
  t.status ≠ .failed ∧ t.status ≠ .unknown ∧ t.completedAfterLease ≠ some true

/-- In a running plan every task is clean. -/
theorem Orderly.clean (h : Orderly d) (hst : d.state = .running) {u : Task} (hu : u ∈ d.files) : Clean u := by
  obtain ⟨h1, h2⟩ := h.moving hst u hu
  refine ⟨h1, h2, fun hl => ?_⟩
  rcases h.late u hu hl with h3 | ⟨_, h3, _⟩
  · exact h1 h3
  · rw [hst] at h3
    exact absurd h3 (by simp)

/-- The tasks beside a failed one are clean when the plan was paused by a failure. -/
theorem Orderly.clean_beside (h : Orderly d) (ht : t ∈ d.files) (hf : t.status = .failed) {taskId : String}
    (hpaused : lastPausedDetail d.events = "task_failed=" ++ taskId) {u : Task} (hu : u ∈ d.files)
    (hne : u.taskId ≠ t.taskId) : Clean u := by
  have hset : u.status = .succeeded ∨ u.status = .pending :=
    h.serial.settled ht (by rw [hf]; simp) (by rw [hf]; simp) hu fun he => hne (he ▸ rfl)
  have hnf : u.status ≠ .failed := by rcases hset with h1 | h1 <;> rw [h1] <;> simp
  refine ⟨hnf, by rcases hset with h1 | h1 <;> rw [h1] <;> simp, fun hl => ?_⟩
  rcases h.late u hu hl with h1 | ⟨_, _, h1⟩
  · exact hnf h1
  · exact h1 taskId hpaused

/-- A directory without tasks is orderly. -/
theorem orderly_of_no_tasks (h : d.tasks = none) : Orderly d := by
  have hfiles : d.files = [] := by rw [PlanDir.files, h]; rfl
  refine ⟨?_, ?_, ?_, ?_, ?_, ?_⟩ <;> simp [PlanDir.ids, hfiles, Frontier.Serial]

/-- A change of state and events outside a pause. -/
theorem Orderly.of_unpaused {d' : PlanDir} (h : Orderly d) (htasks : d'.tasks = d.tasks) (hold : d.state ≠ .paused)
    (hstate : d'.state = d.state ∨ (d'.state ≠ .running ∧ d'.state ≠ .succeeded)) : Orderly d' := by
  have hfiles : d'.files = d.files := by rw [PlanDir.files, htasks]
  have hids : d'.ids = d.ids := by rw [PlanDir.ids, hfiles]
  refine ⟨hids ▸ h.numbers, hids ▸ h.listed, hfiles ▸ h.serial, fun hst => ?_, fun hst => ?_, fun u hu hl => ?_⟩
  · rcases hstate with h1 | ⟨h1, _⟩
    · exact hfiles ▸ h.moving (h1 ▸ hst)
    · exact absurd hst h1
  · rcases hstate with h1 | ⟨_, h1⟩
    · exact hfiles ▸ h.finished (h1 ▸ hst)
    · exact absurd hst h1
  · rw [hfiles] at hu
    rcases h.late u hu hl with h1 | ⟨_, h1, _⟩
    · exact .inl h1
    · exact absurd h1 hold

/-- One task file replaced, every other task being clean. -/
theorem Orderly.replaced {d' : PlanDir} (h : Orderly d)
    (hfiles : d'.files = Frontier.replace (·.taskId) t' d.files)
    (hothers : ∀ u ∈ d.files, u.taskId ≠ t'.taskId → Clean u)
    (hserial : Frontier.Serial (fun t : Task => t.status = .succeeded) (fun t => t.status = .pending) d'.files)
    (hmoving : d'.state = .running → t'.status ≠ .failed ∧ t'.status ≠ .unknown)
    (hfinished : d'.state = .succeeded → ∀ u ∈ d'.files, u.status = .succeeded)
    (hlate : t'.completedAfterLease = some true → t'.status = .failed ∨ (t'.status = .succeeded ∧
      d'.state = .paused ∧ ∀ taskId, lastPausedDetail d'.events ≠ "task_failed=" ++ taskId)) : Orderly d' := by
  have hids : d'.ids = d.ids := by rw [PlanDir.ids, hfiles, Frontier.map_key_replace]
  have hmem : ∀ u ∈ d'.files, u = t' ∨ Clean u := by
    intro u hu
    rw [hfiles] at hu
    rcases Frontier.mem_replace hu with h1 | ⟨h1, h2⟩
    · exact .inl h1
    · exact .inr (hothers u h1 h2)
  refine ⟨hids ▸ h.numbers, hids ▸ h.listed, hserial, fun hst u hu => ?_, hfinished, fun u hu hl => ?_⟩
  · rcases hmem u hu with rfl | hc
    · exact hmoving hst
    · exact ⟨hc.1, hc.2.1⟩
  · rcases hmem u hu with rfl | hc
    · exact hlate hl
    · exact absurd hl hc.2.2

end

section
variable {cfg : Config} {s : Store} {i : Invocation}

theorem orderly_dispatched {d : PlanDir} {z : Authorization} {r : Receipt} {m : TaskManifest} {es : List Event} :
    Orderly { d with manifest := some m, receipt := some r, tasks := some (dispatchedTasks cfg d.plan z),
                     state := .running, events := es } := by
  have hpending : ∀ t ∈ dispatchedTasks cfg d.plan z, t.status = .pending ∧ t.completedAfterLease = none := by
    intro t ht
    obtain ⟨_, _, _, rfl, _⟩ := mem_materialiseFrom (mem_globOrder.mp ht)
    exact ⟨rfl, rfl⟩
  refine ⟨?_, ?_, ?_, ?_, ?_, ?_⟩
  · show (((dispatchedTasks cfg d.plan z).map (·.taskId)).map taskNumber).Nodup
    rw [List.map_map]
    exact globOrder_numbers_nodup materialise_numbers_nodup
  · exact List.pairwise_map.mpr (List.pairwise_insertionSort (fun a b : Task => a.taskId ++ ".json" ≤ b.taskId ++ ".json") _)
  · exact Frontier.Serial.of_todo fun t ht => (hpending t ht).1
  · intro _ t ht
    rw [(hpending t ht).1]
    exact ⟨by simp, by simp⟩
  · exact fun h => absurd h (by simp)
  · intro t ht hl
    rw [(hpending t ht).2] at hl
    exact absurd hl (by simp)

/-- The first pending task is running. -/
theorem orderly_claimed {taskId actor lease : String} {sc : Script} {d : PlanDir} {t : Task} {expiry : Int}
    {e : Event} (h : Orderly d) (hacc : ClaimAccepted cfg i.world s i.id taskId actor lease sc d t expiry) :
    Orderly { d.putTask (claimedTask t actor (i.world.clock 1) expiry) with events := d.events ++ [e] } := by
  obtain ⟨ht, hid⟩ := task?_mem hacc.task
  obtain ⟨f, hfind, hf⟩ := hacc.first
  have hft : f = t := Frontier.eq_of_key h.keys (List.mem_of_find?_eq_some hfind) ht (hf.trans hid.symm)
  have hpending : t.status = .pending := by
    have := List.find?_some hfind
    rw [← hft]
    simpa using this
  have hclean := fun u hu => h.clean hacc.state (u := u) hu
  -- the scan of `claim` and `moving` together leave succeeded and pending tasks only
  have hsettled : ∀ u ∈ d.files, u.status = .succeeded ∨ u.status = .pending := by
    intro u hu
    have h1 := (hacc.sound u hu).2
    have h2 := hclean u hu
    cases hs : u.status <;> simp_all [Clean]
  refine h.replaced putTask_files (fun u hu _ => hclean u hu)
    ?_ ?_ ?_ ?_
  · rw [show (PlanDir.files { d.putTask (claimedTask t actor (i.world.clock 1) expiry) with
        events := d.events ++ [e] }) = _ from putTask_files]
    exact h.serial.start h.keys (fun a _ => by simp) hsettled (by rw [hft, hpending]; simp) hfind
      (show t.taskId = f.taskId by rw [hft])
  · exact fun _ => ⟨by simp [claimedTask], by simp [claimedTask]⟩
  · exact fun hst => absurd ((show d.state = .succeeded from hst).symm.trans hacc.state) (by simp)
  · intro hl
    exact absurd hl (hclean t ht).2.2

/-- A task in hand replaced by a task in hand, in a plan that keeps running. -/
theorem orderly_renewed {d : PlanDir} {t : Task} {now expiry : Int} {e : Event} (h : Orderly d)
    (hst : d.state = .running) (ht : t ∈ d.files) (hrun : t.status = .running) :
    Orderly { d.putTask (renewedTask t now expiry) with events := d.events ++ [e] } := by
  have hclean := fun u hu => h.clean hst (u := u) hu
  refine h.replaced putTask_files (fun u hu _ => hclean u hu) ?_ ?_ ?_ ?_
  · exact serial_putTask h ht rfl (by rw [hrun]; simp) (by rw [hrun]; simp)
  · exact fun _ => ⟨(hclean t ht).1, (hclean t ht).2.1⟩
  · exact fun hst' => absurd ((show d.state = .succeeded from hst').symm.trans hst) (by simp)
  · exact fun hl => absurd hl (hclean t ht).2.2

/-- The running task has its result. -/
theorem orderly_completed {d d' : PlanDir} {t t' : Task} {leaf taskId actor : String} {dir : CustodyDir}
    {status : TaskStatus} {late : Bool} (h : Orderly d) (hst : d.state = .running) (ht : t ∈ d.files)
    (hrun : t.status = .running) (hid : t'.taskId = t.taskId) (hstatus : t'.status = status)
    (hlate : t'.completedAfterLease = some late) (hres : status = .succeeded ∨ status = .failed)
    (hc : Concluded ((d.putCustody leaf dir).putTask t') taskId actor status late d') : Orderly d' := by
  have hclean := fun u hu => h.clean hst (u := u) hu
  have hothers : ∀ u ∈ d.files, u.taskId ≠ t'.taskId → Clean u := fun u hu _ => hclean u hu
  have hserial := serial_putTask h ht hid (by rw [hrun]; simp) (by rw [hrun]; simp)
  have hfiles : (d.putTask t').files = Frontier.replace (·.taskId) t' d.files := putTask_files
  have hnotlate : late = false → t'.completedAfterLease ≠ some true := by
    intro hl
    rw [hlate, hl]
    simp
  cases hc with
  | failed hf =>
      exact h.replaced hfiles hothers hserial nofun nofun fun _ => .inl (hstatus.trans hf)
  | late hf hl =>
      refine h.replaced hfiles hothers hserial nofun nofun fun _ =>
        .inr ⟨hstatus.trans (hres.resolve_right hf), rfl, fun other => ?_⟩
      rw [lastPausedDetail_append, if_neg (by simp), lastPausedDetail_append, if_pos ⟨rfl, rfl⟩]
      exact late_ne_failed _ _
  | blocked detail _ hl _ =>
      exact h.replaced hfiles hothers hserial nofun nofun fun h1 => absurd h1 (hnotlate hl)
  | continues hf hl =>
      refine h.replaced hfiles hothers hserial (fun _ => ?_) (fun h1 => ?_) fun h1 => absurd h1 (hnotlate hl)
      · rw [hstatus, hres.resolve_right hf]
        exact ⟨by simp, by simp⟩
      · exact absurd ((show d.state = .succeeded from h1).symm.trans hst) (by simp)
  | succeeded _ hl hall =>
      exact h.replaced hfiles hothers hserial nofun (fun _ => hall) fun h1 => absurd h1 (hnotlate hl)

/-- The running task is of unknown outcome. -/
theorem orderly_expired {d : PlanDir} {t : Task} {now : Int} {es : List Event} (h : Orderly d)
    (hst : d.state = .running) (ht : t ∈ d.files) (hrun : t.status = .running) :
    Orderly { d.putTask (sealTaskResult cfg (expiredTask t now)) with state := .paused, events := es } := by
  have hclean := fun u hu => h.clean hst (u := u) hu
  refine h.replaced putTask_files (fun u hu _ => hclean u hu)
    ?_ nofun nofun ?_
  · exact serial_putTask h ht rfl (by rw [hrun]; simp) (by rw [hrun]; simp)
  · exact fun hl => absurd hl (hclean t ht).2.2

/-- The failed task is pending again, with nothing but pending tasks behind it. -/
theorem orderly_retried {d : PlanDir} {t : Task} {taskId other : String} {n : Nat} {old : Task} {es : List Event}
    (h : Orderly d) (ht : t ∈ d.files) (hf : t.status = .failed)
    (hpaused : lastPausedDetail d.events = "task_failed=" ++ taskId) :
    Orderly { (d.putAttempt other n old).putTask (sealTaskAttempt cfg (reopenedTask t)) with
      state := .running, events := es } := by
  refine h.replaced putTask_files
    (fun u hu hne => h.clean_beside ht hf hpaused hu hne) ?_ ?_ nofun nofun
  · exact serial_putTask (d := d) h ht rfl (by rw [hf]; simp) (by rw [hf]; simp)
  · exact fun _ => ⟨by simp [sealTaskAttempt, reopenedTask], by simp [sealTaskAttempt, reopenedTask]⟩

/-- **Step lemma.** Every uninterrupted command leaves an orderly plan orderly. -/
theorem orderly_step (hs : ∀ d, s.plans.lookup i.id = some d → Orderly d) {d' : PlanDir} (h : Effect cfg s i d') :
    Orderly d' := by
  cases h with
  | created => exact orderly_of_no_tasks rfl
  | @approved _ _ _ d _ hacc =>
      refine (hs d (verifyPlan_ok.mp hacc.plan).1).of_unpaused rfl (by rw [hacc.state]; simp) (.inr ?_)
      exact ⟨by simp, by simp⟩
  | @authorized _ _ d _ _ hacc =>
      refine (hs d (verifyPlan_ok.mp hacc.plan).1).of_unpaused rfl (by rw [hacc.state]; simp) (.inr ?_)
      exact ⟨by simp, by simp⟩
  | @undispatched _ _ d _ _ _ _ _ hacc =>
      exact (hs d (verifyPlan_ok.mp hacc.plan).1).of_unpaused rfl (by rw [hacc.state]; simp) (.inl rfl)
  | dispatched => exact orderly_dispatched
  | @claimed _ _ _ _ d _ _ _ _ hacc =>
      exact orderly_claimed (hs d (verifyPlan_ok.mp hacc.plan).1) hacc
  | @renewed _ _ _ _ d t _ _ _ hacc =>
      exact orderly_renewed (hs d (verifyPlan_ok.mp hacc.plan).1) hacc.state (task?_mem hacc.task).1 hacc.status
  | @completed _ _ _ _ _ _ d _ t _ _ _ _ _ hacc hc =>
      refine orderly_completed (hs d (verifyPlan_ok.mp hacc.plan).1) hacc.state (task?_mem hacc.task).1
        hacc.running ?_ ?_ ?_ ?_ hc
      · rfl
      · rfl
      · rfl
      rcases completionStatus_ok hacc.outcome with ⟨_, h1⟩ | ⟨_, h1⟩
      · exact .inl h1
      · exact .inr h1
  | @released _ d _ _ hd hst =>
      exact (hs d hd).of_unpaused rfl (by rw [hst]; simp) (.inl rfl)
  | @expired _ _ d t _ _ _ _ _ hd hst ht _ hrun =>
      exact orderly_expired (hs d hd) hst ht hrun
  | @retried _ _ _ d t _ _ hacc =>
      exact orderly_retried (hs d (verifyPlan_ok.mp hacc.plan).1) (task?_mem hacc.task).1 hacc.failed hacc.paused

/-- **Run lemma.** Every plan of a reached store is orderly. -/
theorem orderly_reached {as : List Invocation} (h : Reached cfg whole as s) :
    ∀ id d, s.plans.lookup id = some d → Orderly d := by
  refine Trace.Run.invariant (I := fun _ s => ∀ id d, s.plans.lookup id = some d → Orderly d) ?_ ?_ h
  · intro s hs id d hd
    rw [hs] at hd
    exact absurd hd (by simp [Store.empty])
  · intro _ s i s' _ ih hwhole hs' id d hd
    injection hs' with hs'
    rw [← hs'] at hd
    rcases whole_effect hwhole hd with ⟨h1, _⟩ | ⟨rfl, heffect, _⟩
    · exact ih id d h1
    · exact orderly_step (ih i.id) heffect

end

/-! ## Serial order -/

/-- Succeeded tasks, then at most one task in hand, then pending tasks. -/
def RollingShape (ts : List Task) : Prop :=
  ∃ front hand rest, ts = front ++ hand ++ rest ∧ (∀ t ∈ front, t.status = .succeeded) ∧ hand.length ≤ 1 ∧
    (∀ t ∈ hand, t.status = .running ∨ t.status = .failed ∨ t.status = .unknown) ∧
    ∀ t ∈ rest, t.status = .pending

/-- A failed or unknown task, or one completed after its lease. -/
def Stops (t : Task) : Prop :=
  t.status = .failed ∨ t.status = .unknown ∨ t.completedAfterLease = some true

/-- The row in the words of the claim. -/
theorem Orderly.shape {d : PlanDir} (h : Orderly d) : RollingShape d.files := by
  obtain ⟨front, hand, rest, h1, h2, h3, h4, h5⟩ := h.serial.shape
  refine ⟨front, hand, rest, h1, h2, h3, fun t ht => ?_, h5⟩
  obtain ⟨h6, h7⟩ := h4 t ht
  cases hs : t.status <;> simp_all

/-- A task stops the plan if it has failed or is of unknown outcome. -/
theorem stops_iff_not_clean {t : Task} : Stops t ↔ ¬ Clean t := by
  unfold Stops Clean
  tauto

/-- A plan with such a task is not running. -/
theorem Orderly.not_running {d : PlanDir} (h : Orderly d) {t : Task} (ht : t ∈ d.files) (hstop : Stops t) :
    d.state ≠ .running :=
  fun hst => stops_iff_not_clean.mp hstop (h.clean hst ht)

/-- Serial order of a plan directory `d` of the store `s`. `reopened` says how a plan with a stopping task gets to
    run again, `claimed` what an accepted claim finds in front of its task and behind it. -/
structure SerialOrder (cfg : Config) (s : Store) (id : String) (d : PlanDir) : Prop where
  listed : d.ids.Pairwise fun a b => a ++ ".json" ≤ b ++ ".json"
  shape : RollingShape d.files
  stopped : ∀ t ∈ d.files, Stops t → d.state ≠ .running
  reopened : ∀ i d', whole s i → (after cfg s i).plans.lookup id = some d' → d'.state = .running →
    ∀ t ∈ d.files, Stops t → i.id = id ∧ t.status = .failed ∧
      (∃ actor, i.command = .retryTask t.taskId actor) ∧
        ∃ t' ∈ d'.files, t'.taskId = t.taskId ∧ t'.status = .pending ∧ t'.retryCount = t.retryCount + 1
  succeeded : d.state = .succeeded → ∀ t ∈ d.files, t.status = .succeeded
  claimed : ∀ i taskId actor lease sc, i.id = id → i.command = .claim taskId actor lease →
    script cfg s i = .ok sc → ∃ front t rest, d.files = front ++ t :: rest ∧ t.taskId = taskId ∧
      t.status = .pending ∧ (∀ u ∈ front, u.status = .succeeded) ∧ ∀ u ∈ rest, u.status = .pending

section
variable {cfg : Config} {s : Store} {d : PlanDir}

/-- Only a retry of the stopping task itself sets a stopped plan running. -/
theorem Orderly.reopened {i : Invocation} {d' : PlanDir} (h : Orderly d)
    (hd : s.plans.lookup i.id = some d) (heffect : Effect cfg s i d') (hrun : d'.state = .running) {t : Task}
    (ht : t ∈ d.files) (hstop : Stops t) :
    t.status = .failed ∧ (∃ actor, i.command = .retryTask t.taskId actor) ∧
      ∃ t' ∈ d'.files, t'.taskId = t.taskId ∧ t'.status = .pending ∧ t'.retryCount = t.retryCount + 1 := by
  have hnot := h.not_running ht hstop
  have hsame : ∀ {e : PlanDir}, verifyPlan cfg s i.id = .ok e → e = d := fun he =>
    Option.some.inj ((verifyPlan_ok.mp he).1.symm.trans hd)
  cases heffect with
  | created hcreate => exact absurd (hd.symm.trans hcreate.fresh) (by simp)
  | approved => exact absurd hrun (by simp)
  | authorized => exact absurd hrun (by simp)
  | undispatched _ hacc =>
      exact absurd ((show PlanState.running = _ from hrun.symm).trans hacc.state) (by simp)
  | dispatched _ hacc =>
      rw [PlanDir.files, ← hsame hacc.plan, hacc.fresh] at ht
      exact absurd ht (by simp)
  | claimed _ hacc => exact absurd (hsame hacc.plan ▸ hacc.state) hnot
  | renewed _ hacc => exact absurd (hsame hacc.plan ▸ hacc.state) hnot
  | completed _ hacc => exact absurd (hsame hacc.plan ▸ hacc.state) hnot
  | released _ hd' hst =>
      exact absurd ((show PlanState.running = _ from hrun.symm).trans hst) (by simp)
  | expired _ _ _ hd' hst =>
      rw [hd] at hd'
      injection hd' with hd'
      exact absurd (hd' ▸ hst) hnot
  | @retried taskId actor _ e t₁ _ hcmd hacc =>
      obtain rfl := hsame hacc.plan
      obtain ⟨ht₁, hid⟩ := task?_mem hacc.task
      have hkey : t.taskId = t₁.taskId := by
        by_contra hne
        exact stops_iff_not_clean.mp hstop (h.clean_beside ht₁ hacc.failed hacc.paused ht hne)
      obtain rfl := Frontier.eq_of_key h.keys ht ht₁ hkey
      refine ⟨hacc.failed, ⟨actor, hid ▸ hcmd⟩, sealTaskAttempt cfg (reopenedTask t), ?_, rfl, rfl, rfl⟩
      exact (putTask_files (d := e) (t := sealTaskAttempt cfg (reopenedTask t))) ▸
        Frontier.mem_replace_self ht rfl

/-- What an accepted claim finds around its task. -/
theorem Orderly.claimed {w : World} {id taskId actor lease : String} {sc : Script} {t : Task} {expiry : Int}
    (h : Orderly d) (hacc : ClaimAccepted cfg w s id taskId actor lease sc d t expiry) :
    ∃ front t rest, d.files = front ++ t :: rest ∧ t.taskId = taskId ∧ t.status = .pending ∧
      (∀ u ∈ front, u.status = .succeeded) ∧ ∀ u ∈ rest, u.status = .pending := by
  obtain ⟨f, hfind, hf⟩ := hacc.first
  obtain ⟨hp, front, rest, hsplit, hfront⟩ := List.find?_eq_some_iff_append.mp hfind
  have hlist : d.files = front ++ f :: rest := hsplit
  have hpending : f.status = .pending := by simpa using hp
  refine ⟨front, f, rest, hlist, hf, hpending, fun u hu => ?_, fun u hu => ?_⟩
  · have hmem : u ∈ d.files := hlist ▸ List.mem_append_left _ hu
    have h1 := (hacc.sound u hmem).2
    have h2 := h.clean hacc.state hmem
    have h3 : u.status ≠ .pending := by simpa using hfront u hu
    cases hs : u.status <;> simp_all [Clean]
  · have hserial := h.serial
    rw [hlist, Frontier.Serial, List.pairwise_append, List.pairwise_cons] at hserial
    exact (hserial.2.1.1 u hu).resolve_left (by rw [hpending]; simp)

end

/-- **Serial order.** In every state that uninterrupted commands reach, every plan is worked off one task at a
    time, in the order of its task IDs. -/
theorem serial_order {cfg : Config} {as : List Invocation} {s : Store} (h : Reached cfg whole as s) {id : String}
    {d : PlanDir} (hd : s.plans.lookup id = some d) : SerialOrder cfg s id d := by
  have horderly := orderly_reached h id d hd
  refine ⟨horderly.listed, horderly.shape, fun t ht => horderly.not_running ht, ?_, horderly.finished, ?_⟩
  · intro i d' hwhole hd' hrun t ht hstop
    rcases whole_effect hwhole hd' with ⟨h1, _⟩ | ⟨rfl, heffect, _⟩
    · rw [hd] at h1
      injection h1 with h1
      exact absurd (h1 ▸ hrun) (horderly.not_running ht hstop)
    · exact ⟨rfl, horderly.reopened hd heffect hrun ht hstop⟩
  · rintro i taskId actor lease sc rfl hcmd hsc
    simp only [script, hcmd] at hsc
    obtain ⟨d₁, t, expiry, hacc⟩ := claim_ok hsc
    have hsame : d₁ = d := Option.some.inj ((verifyPlan_ok.mp hacc.plan).1.symm.trans hd)
    subst hsame
    exact horderly.claimed hacc

/-- Serial order after the first task of `p1` has failed. -/
theorem serial_order_failed :
    ∃ d, (replay lab labFailed).plans.lookup "p1" = some d ∧ d.state = .paused ∧
      d.files.map (·.status) = [.failed, .pending, .pending, .pending, .pending] ∧
        SerialOrder lab (replay lab labFailed) "p1" d := by
  have h : ((replay lab labFailed).plans.lookup "p1").map
      (fun d => (d.state, d.files.map (·.status))) =
        some (.paused, [.failed, .pending, .pending, .pending, .pending]) := by decide +kernel
  obtain ⟨d, hd, hview⟩ := Option.map_eq_some_iff.mp h
  rw [Prod.mk.injEq] at hview
  exact ⟨d, hd, hview.1, hview.2, serial_order (replay_whole (by decide)) hd⟩

end OraclePatching
