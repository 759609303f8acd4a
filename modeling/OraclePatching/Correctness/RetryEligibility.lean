import OraclePatching.Correctness.AttemptHistory
import OraclePatching.Correctness.CustodyRoundTrip
import OraclePatching.Correctness.Interruption

/-!
# `Correctness.RetryEligibility` — which failed tasks `retry-task` re-opens

`retry-task` names the stages that may be repeated with known binaries in a list of its own, apart from the stages
that `dispatch` writes. `retry_eligibility` compares the two on every plan a run can leave, also a run whose
processes are killed. `Turn` says once what a command that is killed anywhere leaves of a plan; `Accounted` is the
invariant over it that makes the other gates of `retry-task` (task files, manifest, archive, exit code) hold of
themselves once the plan is paused by the failed task and its custody verifies.
-/

namespace OraclePatching

/-! ## Stage names

The list of repeatable stages is kept apart from the stages that `dispatch` writes. Four of the checking stages of
`dispatch` are not on it. -/

/-- The words of a stage name. -/
def stageWords (stage : String) : List String := (stage.toList.splitOn '_').map String.ofList

/-- A validation or datapatch stage, as its name says. -/
def checkStage (stage : String) : Bool :=
  (stageWords stage).any fun word => word == "validate" || word == "datapatch"

/-- The validation and datapatch stages that `dispatch` writes and `retry-task` does not name. -/
def unlistedStages : List String :=
  ["rac_rollback_datapatch", "rac_rollback_final_validate", "ojvm_datapatch_upgrade", "oop_validate_clone"]

/-- Every stage on the list is a checking stage. -/
theorem repeatable_check : ∀ stage ∈ repeatableStages, checkStage stage = true := by decide +kernel

theorem staged_name {nodes stages : List String} {rest : List (String × String)} {p : String × String}
    (h : p ∈ perNode nodes stages ++ rest) : p.1 ∈ stages ++ rest.map Prod.fst := by
  rcases List.mem_append.mp h with h | h
  · obtain ⟨node, _, hp⟩ := List.mem_flatMap.mp h
    obtain ⟨stage, hs, rfl⟩ := List.mem_map.mp hp
    exact List.mem_append_left _ hs
  · exact List.mem_append_right _ (List.mem_map_of_mem h)

/-- **The list against the stages dispatch writes.** Of the validation and datapatch stages of any adapter, the
    list leaves out four. -/
theorem listed_iff {adapter : Adapter} {nodes : List String} {coordinatorNode : String} {p : String × String}
    (h : p ∈ dispatchStages adapter nodes coordinatorNode) (hcheck : checkStage p.1 = true) :
    p.1 ∈ repeatableStages ↔ p.1 ∉ unlistedStages := by
  revert hcheck
  cases adapter <;> (
    have hname := staged_name h
    simp only [List.map_cons, List.map_nil, List.cons_append, List.nil_append] at hname
    generalize p.1 = stage at hname
    revert stage
    decide +kernel)

/-! ## What a command leaves, killed or not

A plan directory after a command, cut anywhere: the tasks are those it had, except for one that has gone on by one
step. All that the invariant needs is in the kinds of turns. -/

/-- `require_file` admits the path of the task manifest. -/
def manifestPathOk (cfg : Config) (id : String) : Prop :=
  opuValidateAbsolutePath (Shell.join (planDirPath cfg id) "task-manifest.json") "task-manifest" = .ok ()

/-- The failed attempt of a task went through `complete`: the names were checked, and its custody holds evidence
    with a nonzero exit code. -/
structure FailureRecorded (cfg : Config) (id : String) (d : PlanDir) (t : Task) : Prop where
  planId : opuValidateIdentifier id "plan ID" = .ok ()
  taskId : opuValidateIdentifier t.taskId "task ID" = .ok ()
  evidence : ∃ dir c j, d.evidence (custodyLeaf t.taskId t.retryCount) = some dir ∧ dir "evidence.json" = some c ∧
    c.json? = some j ∧ exitNonzero (j.at' ["exit_code"]) = true

/-- Every custody directory of `d` is in `d'`. -/
def KeepsEvidence (d d' : PlanDir) : Prop := ∀ leaf dir, d.evidence leaf = some dir → d'.evidence leaf = some dir

/-- One task file replaced by a later state of the same task. -/
structure Replaces (d d' : PlanDir) (t t' : Task) : Prop where
  member : t ∈ d.files
  files : d'.files = Frontier.replace (·.taskId) t' d.files
  definition : t'.toTaskDefinition = t.toTaskDefinition
  digest : t'.taskDefinitionSha256 = t.taskDefinitionSha256
  plan : d'.plan = d.plan
  manifest : d'.manifest = d.manifest
  evidence : KeepsEvidence d d'

inductive Turn (cfg : Config) (id : String) (d d' : PlanDir) : Prop
  /-- Approval, authorization, a dispatch without tasks, the release of a finished plan. -/
  | idle (tasks : d'.tasks = d.tasks) (plan : d'.plan = d.plan) (attempts : d'.attempts = d.attempts)
      (evidence : d'.evidence = d.evidence) (manifest : d'.manifest = d.manifest ∨ d.tasks = none)
      (outside : d.state ≠ .running ∧ d.state ≠ .paused ∧ d'.state ≠ .paused)
  /-- Nothing, a custody directory, or the archive of a failed attempt. -/
  | stored (tasks : d'.tasks = d.tasks) (plan : d'.plan = d.plan) (manifest : d'.manifest = d.manifest)
      (state : d'.state = d.state) (events : d'.events = d.events) (evidence : KeepsEvidence d d')
      (attempts : ∀ taskId n a, d'.attempts taskId n = some a → d.attempts taskId n = some a ∨
        ∃ t ∈ d.files, t.taskId = taskId ∧ t.retryCount = n ∧ t.status = .failed ∧ a = t)
  | dispatched (z : Authorization) (fresh : d.tasks = none)
      (tasks : d'.tasks = some (dispatchedTasks cfg d.plan z)) (plan : d'.plan = d.plan)
      (manifest : d'.manifest = some (writeTaskManifest id d.plan.planSha256 (dispatchedTasks cfg d.plan z)))
      (attempts : d'.attempts = d.attempts) (state : d'.state ≠ .paused)
  /-- A claim or a renewal. -/
  | taken (t t' : Task) (replaces : Replaces d d' t t') (attempts : d'.attempts = d.attempts)
      (free : t.status = .running ∨ (t.status = .pending ∧ manifestPathOk cfg id ∧
        ∀ u ∈ d.files, Sealed cfg d.plan.planSha256 u ∧ u.status ≠ .running))
      (count : t'.retryCount = t.retryCount) (running : t'.status = .running)
      (intact : Sealed cfg d.plan.planSha256 t') (state : d'.state = .running)
  /-- A result, sealed or about to be sealed in a plan that is still running. -/
  | concluded (t t' : Task) (replaces : Replaces d d' t t') (attempts : d'.attempts = d.attempts)
      (running : t.status = .running) (count : t'.retryCount = t.retryCount) (result : t'.status.isResult = true)
      (failed : t'.status = .failed → FailureRecorded cfg id d' t')
      (intact : Sealed cfg d.plan.planSha256 t' ∨ d'.state = .running)
  /-- The next attempt of a failed task. Its seal may not be written yet, and that of a generation beyond the bound
      does not verify. -/
  | reopened (t t' : Task) (replaces : Replaces d d' t t')
      (attempts : ∀ taskId n a, d'.attempts taskId n = some a → d.attempts taskId n = some a ∨
        taskId = t.taskId ∧ n = t.retryCount)
      (state : d.state = .paused) (sealed : ∀ u ∈ d.files, Sealed cfg d.plan.planSha256 u)
      (count : t'.retryCount = t.retryCount + 1) (pending : t'.status = .pending)
      (state' : d'.state = .running ∨
        d'.state = .paused ∧ lastPausedDetail d'.events = "task_failed=" ++ t.taskId)

section
variable {cfg : Config} {s : Store} {i : Invocation} {w : World} {id : String} {d d' : PlanDir} {sc : Script}

/-- A directory keeps its own evidence. -/
theorem KeepsEvidence.refl : KeepsEvidence d d := fun _ _ h => h

/-- A command that is killed before its first write. -/
theorem Turn.none : Turn cfg id d d :=
  .stored rfl rfl rfl rfl rfl .refl fun _ _ _ h => .inl h

theorem cut_manifest {m : TaskManifest} {ws : List Write} :
    Cut d (.manifest m :: ws) d' ↔ d' = d ∨ Cut { d with manifest := some m } ws d' := by
  simp [cut_cons, PlanDir.write]

theorem cut_receipt {r : Receipt} {ws : List Write} :
    Cut d (.receipt r :: ws) d' ↔ d' = d ∨ Cut { d with receipt := some r } ws d' := by
  simp [cut_cons, PlanDir.write]

theorem cut_reserve {ws : List Write} : Cut d (.reserve :: ws) d' ↔ d' = d ∨ Cut d ws d' := by
  simp [cut_cons, PlanDir.write]

/-- The writes to `state`, `events.jsonl` and the target registry. -/
def Write.audits : Write → Bool
  | .state .. | .event _ | .release => true
  | _ => false

/-- Wherever such writes are cut, they leave the documents of the plan alone. -/
theorem Cut.audits {ws : List Write} (hk : ws.all Write.audits = true) (h : Cut d ws d') :
    d'.tasks = d.tasks ∧ d'.plan = d.plan ∧ d'.manifest = d.manifest ∧ d'.attempts = d.attempts ∧
      d'.evidence = d.evidence := by
  induction h with
  | stop => exact ⟨rfl, rfl, rfl, rfl, rfl⟩
  | @step d d₁ d' wr ws hw _ ih =>
      rw [List.all_cons, Bool.and_eq_true] at hk
      have hone : d₁.tasks = d.tasks ∧ d₁.plan = d.plan ∧ d₁.manifest = d.manifest ∧ d₁.attempts = d.attempts ∧
          d₁.evidence = d.evidence := by
        cases wr <;> simp only [PlanDir.write, Option.some.injEq] at hw
        case state expected next =>
          split at hw
          · injection hw with hw
            rw [← hw]
            exact ⟨rfl, rfl, rfl, rfl, rfl⟩
          · exact absurd hw (by simp)
        case event | release =>
          rw [← hw]
          exact ⟨rfl, rfl, rfl, rfl, rfl⟩
        all_goals exact absurd hk.1 (by simp [Write.audits])
      obtain ⟨h1, h2, h3, h4, h5⟩ := ih hk.2
      obtain ⟨g1, g2, g3, g4, g5⟩ := hone
      exact ⟨h1.trans g1, h2.trans g2, h3.trans g3, h4.trans g4, h5.trans g5⟩

/-- The writes of the documents that a plan is signed with. -/
def Write.signs : Write → Bool
  | .approval _ | .authorization _ => true
  | _ => false

/-- An approval or an authorization: its own document, which no task depends on, then the state and an event. -/
theorem turn_signed {first : Write} {expected next : PlanState} {actor detail : String} (hfirst : first.signs = true)
    (houtside : d.state ≠ .running ∧ d.state ≠ .paused) (hnext : next ≠ .paused)
    (hcut : Cut d (first :: transition expected next actor detail) d') : Turn cfg id d d' := by
  rw [cut_cons] at hcut
  rcases hcut with rfl | ⟨e, hwrite, hcut⟩
  · exact .none
  have hsame : e.tasks = d.tasks ∧ e.plan = d.plan ∧ e.manifest = d.manifest ∧ e.attempts = d.attempts ∧
      e.evidence = d.evidence ∧ e.state = d.state := by
    cases first <;> simp only [PlanDir.write, Option.some.injEq] at hwrite
    case approval | authorization =>
      rw [← hwrite]
      exact ⟨rfl, rfl, rfl, rfl, rfl, rfl⟩
    all_goals exact absurd hfirst (by simp [Write.signs])
  obtain ⟨h1, h2, h3, h4, h5, hsigned⟩ := hsame
  obtain ⟨htasks, hplan, hman, hatt, hev⟩ := hcut.audits rfl
  have hstate : d'.state ≠ .paused :=
    hcut.state (P := (· ≠ .paused)) (by simpa [transition] using hnext) (by rw [hsigned]; exact houtside.2)
  exact .idle (htasks.trans h1) (hplan.trans h2) (hatt.trans h4) (hev.trans h5) (.inl (hman.trans h3))
    ⟨houtside.1, houtside.2, hstate⟩

/-- A dispatch makes the tasks, all of them in one write. -/
theorem turn_dispatch {actor : String} {a : Approval} {z : Authorization}
    (hacc : DispatchAccepted cfg w s id actor sc d a z) (hcut : Cut d sc.writes d') : Turn cfg id d d' := by
  have houtside : d.state ≠ .running ∧ d.state ≠ .paused := by rw [hacc.state]; simp
  -- before the task directory is renamed, only the manifest and the receipt have changed
  have hbefore : ∀ m r, d' = { d with manifest := m, receipt := r } → Turn cfg id d d' := by
    rintro m r rfl
    exact .idle rfl rfl rfl rfl (.inr hacc.fresh) ⟨houtside.1, houtside.2, houtside.2⟩
  rw [hacc.script, dispatchScript] at hcut
  split at hcut
  · split at hcut
    · simp only [List.cons_append, List.nil_append, cut_manifest, cut_reserve, cut_receipt] at hcut
      rcases hcut with h | h | h | h
      · exact hbefore d.manifest d.receipt h
      · exact hbefore _ d.receipt h
      · exact hbefore _ d.receipt h
      · split at h
        · rw [cut_release, cut_nil] at h
          exact hbefore _ _ h
        · rw [cut_nil] at h
          exact hbefore _ _ h
    · simp only [List.cons_append, List.nil_append, cut_manifest, cut_reserve, cut_receipt, cut_tasks] at hcut
      rcases hcut with h | h | h | h | h
      · exact hbefore d.manifest d.receipt h
      · exact hbefore _ d.receipt h
      · exact hbefore _ d.receipt h
      · exact hbefore _ _ h
      · obtain ⟨htasks, hplan, hman, hatt, _⟩ := h.audits rfl
        have hstate : d'.state ≠ .paused := h.state (P := (· ≠ .paused)) (by simp [transition]) (by rw [hacc.state]; simp)
        exact .dispatched z hacc.fresh htasks hplan hman hatt hstate
  · rw [cut_manifest, cut_nil] at hcut
    rcases hcut with h | h
    · exact hbefore d.manifest d.receipt h
    · exact hbefore _ d.receipt h

theorem turn_claim {taskId actor lease : String} {t : Task} {expiry : Int} (hkeys : d.ids.Nodup)
    (hacc : ClaimAccepted cfg w s id taskId actor lease sc d t expiry) (hcut : Cut d sc.writes d') :
    Turn cfg id d d' := by
  obtain ⟨ht, hid⟩ := task?_mem hacc.task
  obtain ⟨f, hfind, hf⟩ := hacc.first
  obtain rfl : f = t := Frontier.eq_of_key hkeys (List.mem_of_find?_eq_some hfind) ht (hf.trans hid.symm)
  have hpending : f.status = .pending := by simpa using List.find?_some hfind
  have hpath : manifestPathOk cfg id := by
    have hman := hacc.manifest
    rw [verifyTaskManifest, bind_ok] at hman
    obtain ⟨_, hseal, _⟩ := hman
    exact (verifySealedRecord_ok.mp hseal).1
  rw [hacc.script, cut_task] at hcut
  rcases hcut with rfl | hcut
  · exact .none
  obtain ⟨htasks, hplan, hman, hatt, hev⟩ := hcut.audits rfl
  have hfiles : d'.files = Frontier.replace (·.taskId) (claimedTask f actor (w.clock 1) expiry) d.files := by
    rw [PlanDir.files, htasks]
    exact putTask_files
  have hstate : d'.state = .running := hcut.state (P := (· = .running)) (by simp) (by exact hacc.state)
  exact .taken f (claimedTask f actor (w.clock 1) expiry) ⟨ht, hfiles, rfl, rfl, hplan, hman, fun _ _ h => hev ▸ h⟩ hatt
    (.inr ⟨hpending, hpath, fun u hu => ⟨(hacc.sound u hu).1, (hacc.sound u hu).2.1⟩⟩) rfl rfl
    (claimedTask_sealed hacc.intact) hstate

theorem turn_renew {taskId actor lease : String} {t : Task} {expiry : Int}
    (hacc : RenewAccepted cfg w s id taskId actor lease sc d t expiry) (hcut : Cut d sc.writes d') :
    Turn cfg id d d' := by
  obtain ⟨ht, _⟩ := task?_mem hacc.task
  rw [hacc.script, cut_task] at hcut
  rcases hcut with rfl | hcut
  · exact .none
  obtain ⟨htasks, hplan, hman, hatt, hev⟩ := hcut.audits rfl
  have hfiles : d'.files = Frontier.replace (·.taskId) (renewedTask t (w.clock 1) expiry) d.files := by
    rw [PlanDir.files, htasks]
    exact putTask_files
  have hstate : d'.state = .running := hcut.state (P := (· = .running)) (by simp) (by exact hacc.state)
  exact .taken t (renewedTask t (w.clock 1) expiry) ⟨ht, hfiles, rfl, rfl, hplan, hman, fun _ _ h => hev ▸ h⟩ hatt
    (.inl hacc.status) rfl hacc.status (renewedTask_sealed hacc.intact hacc.status) hstate

/-! ### Results -/

/-- What follows a sealed result are events, a transition and the release. -/
theorem afterCompletion_audits {taskId actor : String} {status : TaskStatus} {late : Bool} :
    (afterCompletion cfg w id d taskId actor status late).writes.all Write.audits = true := by
  unfold afterCompletion
  dsimp only
  split_ifs <;> rfl

/-- Evidence that a failed attempt is completed with reports a nonzero exit code. -/
theorem failure_exit {taskId actor evidenceFile : String} {plan : Plan} {t : Task} {e : ExecutionEvidence}
    (h : verifyExecutionEvidence cfg w id taskId actor "failed" evidenceFile plan t = .ok e) :
    exitNonzero (e.document.at' ["exit_code"]) = true := by
  simp only [verifyExecutionEvidence, bind_ok, ensure_ok, Except.ok.injEq] at h
  obtain ⟨_, _, j, _, _, _, _, _, _, _, _, _, _, _, _, _, _, _, _, _, _, houtcome, _, _, _, _, rfl⟩ := h
  rw [evidenceOutcome, if_neg (by decide), ensure_ok] at houtcome
  exact houtcome.2

/-- A completion puts the running task to its result. -/
theorem turn_complete {taskId actor status evidenceFile : String} {t : Task} {result : TaskStatus}
    {e : ExecutionEvidence} {c : Custodied} {late : Bool}
    (hacc : CompleteAccepted cfg w s id taskId actor status evidenceFile sc d t result e c late)
    (hcut : Cut d sc.writes d') : Turn cfg id d d' := by
  obtain ⟨ht, hid⟩ := task?_mem hacc.task
  have hfresh := custodyExecutionEvidence_fresh hacc.custody
  have hkeeps : KeepsEvidence d (d.putCustody c.leaf c.dir) := (keeps_putCustody hfresh.2).1
  have hresult : result.isResult = true := by
    rcases completionStatus_ok hacc.outcome with ⟨_, rfl⟩ | ⟨_, rfl⟩ <;> rfl
  -- the custody directory is in place before the task file says `failed`
  have hfailed : ∀ {e' : PlanDir} {t' : Task}, e'.evidence = (d.putCustody c.leaf c.dir).evidence →
      t'.taskId = t.taskId → t'.retryCount = t.retryCount → result = .failed → FailureRecorded cfg id e' t' := by
    intro e' t' hev htid hcount hf
    obtain ⟨m, hleaf, _, _, _, _, _, _, _, hfinished⟩ := custodyExecutionEvidence_ok hacc.custody
    have hstatus : status = "failed" := by
      rcases completionStatus_ok hacc.outcome with ⟨_, h⟩ | ⟨h, _⟩
      · exact absurd (hf.symm.trans h) (by simp)
      · exact h
    have hverify := hacc.evidence
    rw [hstatus] at hverify
    refine ⟨hacc.planId, ?_, c.dir, e.content, e.document, ?_, hfinished.evidence,
      (verifyExecutionEvidence_ok hverify).reading, failure_exit hverify⟩
    · rw [htid, hid]
      exact hacc.taskIdShape
    · rw [hev, htid, hcount, hid, ← hleaf]
      exact if_pos rfl
  rw [hacc.script] at hcut
  simp only [List.cons_append, List.nil_append, cut_custody, cut_task] at hcut
  rw [PlanDir.putTask_putTask _ (by rfl)] at hcut
  rcases hcut with rfl | rfl | rfl | hcut
  · exact .none
  · exact .stored rfl rfl rfl rfl rfl hkeeps fun _ _ _ h => .inl h
  · exact .concluded t (completedTask t result evidenceFile e c (w.clock 0) late)
      ⟨ht, putTask_files, rfl, rfl, rfl, rfl, hkeeps⟩ rfl hacc.running rfl hresult (hfailed rfl rfl rfl)
      (.inr hacc.state)
  · obtain ⟨htasks, hplan, hman, hatt, hev⟩ := hcut.audits afterCompletion_audits
    have hfiles : d'.files = Frontier.replace (·.taskId)
        (sealTaskResult cfg (completedTask t result evidenceFile e c (w.clock 0) late)) d.files := by
      rw [PlanDir.files, htasks]
      exact putTask_files
    exact .concluded t (sealTaskResult cfg (completedTask t result evidenceFile e c (w.clock 0) late))
      ⟨ht, hfiles, rfl, rfl, hplan, hman, fun leaf dir h => hev ▸ hkeeps leaf dir h⟩ hatt hacc.running rfl hresult
      (hfailed hev rfl rfl)
      (.inl (sealTaskResult_sealed hacc.intact.definition hacc.intact.plan hacc.intact.generation hacc.intact.attempt))

/-- A reconciliation puts an expired task to unknown. -/
theorem turn_reconcile {actor : String} (hd : s.plans.lookup id = some d)
    (hacc : ReconcileAccepted cfg w s id actor sc) (hcut : Cut d sc.writes d') : Turn cfg id d d' := by
  have hsame : ∀ {e : PlanDir}, verifyPlan cfg s id = .ok e → e = d := fun he =>
    Option.some.inj ((verifyPlan_ok.mp he).1.symm.trans hd)
  cases hacc with
  | released e plan state _ _ _ hw _ =>
      obtain rfl := hsame plan
      have haudits : sc.writes.all Write.audits = true := by
        rw [hw]
        split <;> rfl
      obtain ⟨htasks, hplan, hman, hatt, hev⟩ := hcut.audits haudits
      have hstate : d'.state ≠ .paused := by
        refine hcut.state (P := (· ≠ .paused)) ?_ (by rw [state]; simp)
        rw [hw]
        split <;> simp
      exact .idle htasks hplan hatt hev (.inl hman) ⟨by rw [state]; simp, by rw [state]; simp, hstate⟩
  | expired e t plan state ht hsealed hrun hw =>
      obtain rfl := hsame plan
      rw [hw] at hcut
      simp only [List.cons_append, List.nil_append, cut_task] at hcut
      rw [PlanDir.putTask_putTask _ (by rfl)] at hcut
      have hnofail : ∀ {t' : Task} {P : Prop}, t'.status = .unknown → t'.status = .failed → P := fun h1 h2 =>
        absurd (h1.symm.trans h2) (by simp)
      -- killed before the task is written, between the file and its seal, or later
      rcases hcut with rfl | rfl | hcut
      · exact .none
      · exact .concluded t (expiredTask t (w.clock 0)) ⟨ht, putTask_files, rfl, rfl, rfl, rfl, .refl⟩ rfl hrun rfl rfl
          (hnofail rfl) (.inr state)
      · obtain ⟨htasks, hplan, hman, hatt, hev⟩ := hcut.audits rfl
        have hfiles : d'.files = Frontier.replace (·.taskId)
            (sealTaskResult cfg (expiredTask t (w.clock 0))) e.files := by
          rw [PlanDir.files, htasks]
          exact putTask_files
        exact .concluded t (sealTaskResult cfg (expiredTask t (w.clock 0)))
          ⟨ht, hfiles, rfl, rfl, hplan, hman, fun _ _ h => hev ▸ h⟩ hatt hrun rfl rfl (hnofail rfl)
          (.inl (sealTaskResult_sealed hsealed.definition hsealed.plan hsealed.generation hsealed.attempt))

/-! ### The next attempt -/

/-- The archive is written first, then the task. -/
theorem turn_retry {taskId actor : String} {t : Task} {archive : List Write}
    (hacc : RetryAccepted cfg w s id taskId actor sc d t archive) (hcut : Cut d sc.writes d') : Turn cfg id d d' := by
  obtain ⟨ht, hid⟩ := task?_mem hacc.task
  obtain ⟨_, _, _, _, _, _, hall⟩ := verifyTaskManifest_ok hacc.manifest
  -- the archive is the only write before the task files
  have harchived : ∀ {e : PlanDir}, e = d ∨ e = d.putAttempt taskId t.retryCount t → ∀ id n a,
      e.attempts id n = some a → d.attempts id n = some a ∨ id = taskId ∧ n = t.retryCount ∧ a = t := by
    rintro e (rfl | rfl) other n a ha
    · exact .inl ha
    · simp only [PlanDir.putAttempt] at ha
      split at ha
      · rename_i heq
        exact .inr ⟨heq.1, heq.2, (Option.some.inj ha).symm⟩
      · exact .inl ha
  have hbody : d' = d ∨ ∃ e, (e = d ∨ e = d.putAttempt taskId t.retryCount t) ∧
      Cut e ([.task (reopenedTask t), .task (sealTaskAttempt cfg (reopenedTask t))] ++
        transition .paused .running actor ("task_retried=" ++ taskId)) d' := by
    rw [hacc.script] at hcut
    rcases hacc.archived with ⟨_, rfl⟩ | ⟨_, rfl⟩
    · rw [List.singleton_append, List.cons_append, cut_attempt] at hcut
      exact hcut.imp_right fun hcut => ⟨_, .inr rfl, hcut⟩
    · exact .inr ⟨d, .inl rfl, hcut⟩
  rcases hbody with rfl | ⟨e, he, hbody⟩
  · exact .none
  have hsame : e.tasks = d.tasks ∧ e.plan = d.plan ∧ e.manifest = d.manifest ∧ e.evidence = d.evidence ∧
      e.state = d.state ∧ e.events = d.events := by
    rcases he with rfl | rfl <;> exact ⟨rfl, rfl, rfl, rfl, rfl, rfl⟩
  obtain ⟨htasks, hplan, hman, hev, hst, hevents⟩ := hsame
  have hfiles : ∀ t', (e.putTask t').files = Frontier.replace (·.taskId) t' d.files := fun t' => by
    rw [putTask_files, PlanDir.files, htasks]
  have hevidence : ∀ {e' : PlanDir}, e'.evidence = e.evidence → KeepsEvidence d e' := fun h _ _ hl => by
    rw [h, hev]
    exact hl
  have hattempts : ∀ {e' : PlanDir}, e'.attempts = e.attempts → ∀ other n a, e'.attempts other n = some a →
      d.attempts other n = some a ∨ other = t.taskId ∧ n = t.retryCount := by
    intro e' h other n a ha
    rw [h] at ha
    rcases harchived he other n a ha with h1 | ⟨h1, h2, _⟩
    · exact .inl h1
    · exact .inr ⟨h1.trans hid.symm, h2⟩
  simp only [List.cons_append, List.nil_append, cut_task] at hbody
  rw [PlanDir.putTask_putTask _ (by rfl)] at hbody
  rcases hbody with rfl | rfl | hbody
  · refine .stored htasks hplan hman hst hevents (hevidence rfl) fun other n a ha => ?_
    rcases harchived he other n a ha with h1 | ⟨rfl, rfl, rfl⟩
    · exact .inl h1
    · exact .inr ⟨a, ht, hid, rfl, hacc.failed, rfl⟩
  · refine .reopened t (reopenedTask t) ⟨ht, hfiles _, rfl, rfl, hplan, hman, hevidence rfl⟩ (hattempts rfl) hacc.state
      hall rfl rfl (.inr ⟨hst.trans hacc.state, ?_⟩)
    show lastPausedDetail e.events = _
    rw [hevents, hacc.paused, hid]
  · obtain ⟨htasks', hplan', hman', hatt', hev'⟩ := hbody.audits rfl
    have hfiles' : d'.files = Frontier.replace (·.taskId) (sealTaskAttempt cfg (reopenedTask t)) d.files := by
      rw [PlanDir.files, htasks']
      exact hfiles _
    have hreplaces : Replaces d d' t (sealTaskAttempt cfg (reopenedTask t)) :=
      ⟨ht, hfiles', rfl, rfl, hplan'.trans hplan, hman'.trans hman, hevidence hev'⟩
    have hend : d'.state = .running ∨
        d'.state = .paused ∧ lastPausedDetail d'.events = "task_failed=" ++ t.taskId := by
      rw [transition, cut_cons] at hbody
      rcases hbody with rfl | ⟨e₁, h1, hbody⟩
      · refine .inr ⟨hst.trans hacc.state, ?_⟩
        show lastPausedDetail e.events = _
        rw [hevents, hacc.paused, hid]
      · simp only [PlanDir.write] at h1
        split at h1
        · injection h1 with h1
          subst h1
          exact .inl (hbody.state (P := (· = .running)) (by simp) rfl)
        · exact absurd h1 (by simp)
    exact .reopened t (sealTaskAttempt cfg (reopenedTask t)) hreplaces (hattempts hatt') hacc.state hall rfl rfl hend

/-- **What any command leaves of a plan**, killed or not. -/
theorem turn (hd : s.plans.lookup i.id = some d) (hkeys : d.ids.Nodup) (hsc : script cfg s i = .ok sc)
    (hran : Ran d (i.reached sc.writes) d') : Turn cfg i.id d d' := by
  have hsame : ∀ {e : PlanDir}, verifyPlan cfg s i.id = .ok e → e = d := fun he =>
    Option.some.inj ((verifyPlan_ok.mp he).1.symm.trans hd)
  have hcut := reached_cut hran
  cases hcmd : i.command <;> simp only [script, hcmd] at hsc
  case create =>
    obtain ⟨_, _, hacc⟩ := create_ok hsc
    exact absurd (hd.symm.trans hacc.fresh) (by simp)
  case createRollback =>
    obtain ⟨_, _, _, hacc⟩ := createRollback_ok hsc
    exact absurd (hd.symm.trans hacc.fresh) (by simp)
  case approve actor ticket =>
    obtain ⟨e, hacc⟩ := approve_ok hsc
    obtain rfl := hsame hacc.plan
    rw [hacc.script] at hcut
    exact turn_signed rfl (by rw [hacc.state]; simp) (by simp) hcut
  case authorize actor =>
    obtain ⟨e, a, hacc⟩ := authorize_ok hsc
    obtain rfl := hsame hacc.plan
    rw [hacc.script] at hcut
    exact turn_signed rfl (by rw [hacc.state]; simp) (by simp) hcut
  case dispatch actor =>
    obtain ⟨e, a, z, hacc⟩ := dispatch_ok hsc
    obtain rfl := hsame hacc.plan
    exact turn_dispatch hacc hcut
  case claim taskId actor lease =>
    obtain ⟨e, t, expiry, hacc⟩ := claim_ok hsc
    obtain rfl := hsame hacc.plan
    exact turn_claim hkeys hacc hcut
  case renew taskId actor lease =>
    obtain ⟨e, t, expiry, hacc⟩ := renew_ok hsc
    obtain rfl := hsame hacc.plan
    exact turn_renew hacc hcut
  case complete taskId actor status evidenceFile evidenceSha256 =>
    obtain ⟨e, t, result, ev, c, late, hacc⟩ := complete_ok hsc
    obtain rfl := hsame hacc.plan
    exact turn_complete hacc hcut
  case reconcile actor => exact turn_reconcile hd (reconcile_ok hsc) hcut
  case retryTask taskId actor =>
    obtain ⟨e, t, archive, hacc⟩ := retryTask_ok hsc
    obtain rfl := hsame hacc.plan
    exact turn_retry hacc hcut

end

/-! ## The invariant

What is on record of every plan a run can leave: its failures with their evidence, an archive of earlier attempts
only, and one task under way at most. -/

/-- No task is running, and the plan is running, or paused by a task that is not failed any more. -/
def Halted (d : PlanDir) : Prop :=
  (∀ t ∈ d.files, t.status ≠ .running) ∧
    (d.state = .running ∨ d.state = .paused ∧
      ∃ u ∈ d.files, lastPausedDetail d.events = "task_failed=" ++ u.taskId ∧ u.status ≠ .failed)

/-- What is on record of every plan. A task file that does not verify is found only in a halted plan. -/
structure Accounted (cfg : Config) (id : String) (d : PlanDir) : Prop where
  plan : d.plan.planSha256 = cfg.hashString (.plan d.plan.toPlanBody)
  keys : d.ids.Nodup
  stages : ∀ t ∈ d.files, ∃ node, (t.stage, node) ∈ d.plan.stages
  manifest : d.files ≠ [] → ∃ m, d.manifest = some m ∧ m.planId = id ∧ m.planSha256 = d.plan.planSha256 ∧
    manifestEntries d.files = m.tasks
  unattempted : d.files = [] → ∀ taskId n, d.attempts taskId n = none
  archive : ∀ t ∈ d.files, ∀ n a, d.attempts t.taskId n = some a →
    n < t.retryCount ∨ (n = t.retryCount ∧ t.status = .failed ∧ a = t)
  path : ∀ t ∈ d.files, t.status ≠ .pending → manifestPathOk cfg id
  failures : ∀ t ∈ d.files, t.status = .failed → FailureRecorded cfg id d t
  alone : ∀ t ∈ d.files, t.status = .running → ∀ u ∈ d.files, u.status = .running → u.taskId = t.taskId
  paused : d.state = .paused → ∀ t ∈ d.files, t.status ≠ .running
  intact : (∀ t ∈ d.files, Sealed cfg d.plan.planSha256 t) ∨ Halted d

section
variable {cfg : Config} {id : String} {d d' : PlanDir} {t t' : Task}

/-- A recorded failure stays recorded. -/
theorem FailureRecorded.mono (h : FailureRecorded cfg id d t) (hk : KeepsEvidence d d') :
    FailureRecorded cfg id d' t := by
  obtain ⟨dir, c, j, hdir, hrest⟩ := h.evidence
  exact ⟨h.planId, h.taskId, dir, c, j, hk _ _ hdir, hrest⟩

/-- The manifest of the task files does not see what a replacement changes. -/
theorem Replaces.entries (r : Replaces d d' t t') (hkeys : d.ids.Nodup) :
    manifestEntries d'.files = manifestEntries d.files := by
  have hid : t'.taskId = t.taskId := congrArg TaskDefinition.taskId r.definition
  have hmap : d'.files.map (fun t => (t.taskId, t.taskDefinitionSha256)) =
      d.files.map fun t => (t.taskId, t.taskDefinitionSha256) := by
    rw [r.files, Frontier.replace, List.map_map]
    refine List.map_congr_left fun u hu => ?_
    by_cases hk : u.taskId = t'.taskId
    · obtain rfl := Frontier.eq_of_key hkeys hu r.member (hk.trans hid)
      simp [hid, r.digest]
    · simp [hk]
  rw [manifestEntries, hmap, manifestEntries]

/-- A plan whose task files, manifest and seal stay as they are. -/
theorem Accounted.kept (h : Accounted cfg id d) (htasks : d'.tasks = d.tasks) (hplan : d'.plan = d.plan)
    (hman : d'.manifest = d.manifest ∨ d.tasks = none) (hev : KeepsEvidence d d')
    (hatt : ∀ taskId n a, d'.attempts taskId n = some a → d.attempts taskId n = some a ∨
      ∃ t ∈ d.files, t.taskId = taskId ∧ t.retryCount = n ∧ t.status = .failed ∧ a = t)
    (hpaused : d'.state = .paused → d.state = .paused)
    (hintact : (∀ t ∈ d.files, Sealed cfg d.plan.planSha256 t) ∨ (Halted d → Halted d')) : Accounted cfg id d' := by
  have hfiles : d'.files = d.files := by rw [PlanDir.files, htasks]
  constructor
  · rw [hplan]; exact h.plan
  · rw [PlanDir.ids, hfiles]; exact h.keys
  · rw [hfiles, hplan]; exact h.stages
  · intro hne
    rw [hfiles] at hne ⊢
    rw [hplan]
    -- the manifest may be new only where there is no task file for it
    rcases hman with hman | hnone
    · rw [hman]; exact h.manifest hne
    · exact absurd (by rw [PlanDir.files, hnone]; rfl) hne
  · intro hnil taskId n
    rw [hfiles] at hnil
    cases ha : d'.attempts taskId n with
    | none => rfl
    | some a =>
        rcases hatt taskId n a ha with h1 | ⟨t, ht, _⟩
        · exact absurd (h1.symm.trans (h.unattempted hnil taskId n)) (by simp)
        · rw [hnil] at ht
          exact absurd ht (by simp)
  · intro t ht n a ha
    rw [hfiles] at ht
    -- an archived attempt is an old one, or that of a task that has failed
    rcases hatt _ n a ha with h1 | ⟨u, hu, hid, rfl, hf, rfl⟩
    · exact h.archive t ht n a h1
    · obtain rfl := Frontier.eq_of_key h.keys hu ht hid
      exact .inr ⟨rfl, hf, rfl⟩
  · rw [hfiles]; exact h.path
  · rw [hfiles]; exact fun t ht hf => (h.failures t ht hf).mono hev
  · rw [hfiles]; exact h.alone
  · rw [hfiles]; exact fun hst => h.paused (hpaused hst)
  · rw [hfiles, hplan]
    rcases hintact with hall | hhalt
    · exact .inl hall
    · exact h.intact.imp_right hhalt

/-- A plan with one task file replaced. -/
theorem Accounted.replaced (h : Accounted cfg id d) (r : Replaces d d' t t')
    (hatt : ∀ u ∈ d.files, u.taskId ≠ t.taskId → ∀ n a, d'.attempts u.taskId n = some a →
      d.attempts u.taskId n = some a)
    (harchive : ∀ n a, d'.attempts t.taskId n = some a → n < t'.retryCount)
    (hpath : t'.status ≠ .pending → t.status ≠ .pending ∨ manifestPathOk cfg id)
    (hfailed : t'.status = .failed → FailureRecorded cfg id d' t')
    (hothers : t'.status = .running ∨ d'.state = .paused → ∀ u ∈ d.files, u.taskId ≠ t.taskId → u.status ≠ .running)
    (hpaused : d'.state = .paused → t'.status ≠ .running)
    (hintact : (∀ u ∈ d.files, Sealed cfg d.plan.planSha256 u) ∧ Sealed cfg d.plan.planSha256 t' ∨ Halted d') :
    Accounted cfg id d' := by
  have hid : t'.taskId = t.taskId := congrArg TaskDefinition.taskId r.definition
  have hnew : t' ∈ d'.files := by rw [r.files]; exact Frontier.mem_replace_self r.member hid.symm
  -- a task file is the new one or an old one of another task
  have hmem : ∀ u ∈ d'.files, u = t' ∨ (u ∈ d.files ∧ u.taskId ≠ t.taskId) := by
    intro u hu
    rw [r.files] at hu
    exact (Frontier.mem_replace hu).imp_right fun hkept => ⟨hkept.1, fun hk => hkept.2 (hk.trans hid.symm)⟩
  have hne : d.files ≠ [] := List.ne_nil_of_mem r.member
  constructor
  · rw [r.plan]; exact h.plan
  · rw [PlanDir.ids, r.files, Frontier.map_key_replace]; exact h.keys
  · intro u hu
    rw [r.plan]
    rcases hmem u hu with rfl | ⟨hu, _⟩
    · obtain ⟨node, hnode⟩ := h.stages t r.member
      rw [show u.stage = t.stage from congrArg TaskDefinition.stage r.definition]
      exact ⟨node, hnode⟩
    · exact h.stages u hu
  · intro _
    rw [r.manifest, r.plan, r.entries h.keys]
    exact h.manifest hne
  · intro hnil
    exact absurd (hnil ▸ hnew) (by simp)
  -- the archive of the replaced task is the caller's business, those of the others are as they were
  · intro u hu n a ha
    rcases hmem u hu with rfl | ⟨hu, hk⟩
    · rw [hid] at ha
      exact .inl (harchive n a ha)
    · exact h.archive u hu n a (hatt u hu hk n a ha)
  · intro u hu hst
    rcases hmem u hu with rfl | ⟨hu, _⟩
    · rcases hpath hst with h1 | h1
      · exact h.path t r.member h1
      · exact h1
    · exact h.path u hu hst
  · intro u hu hf
    rcases hmem u hu with rfl | ⟨hu, _⟩
    · exact hfailed hf
    · exact (h.failures u hu hf).mono r.evidence
  -- at most one task runs: the new one, or one of the others and then the new one does not
  · intro u hu hrun v hv hrun'
    rcases hmem u hu with rfl | ⟨hu, hk⟩ <;> rcases hmem v hv with rfl | ⟨hv, hk'⟩
    · rfl
    · exact absurd hrun' (hothers (.inl hrun) v hv hk')
    · exact absurd hrun (hothers (.inl hrun') u hu hk)
    · exact h.alone u hu hrun v hv hrun'
  · intro hst u hu
    rcases hmem u hu with rfl | ⟨hu, hk⟩
    · exact hpaused hst
    · exact hothers (.inr hst) u hu hk
  · refine hintact.imp_left fun hsealed u hu => ?_
    rw [r.plan]
    rcases hmem u hu with rfl | ⟨hu, _⟩
    · exact hsealed.2
    · exact hsealed.1 u hu

/-- Beside a running task none is running, and every task file verifies. -/
theorem Accounted.beside (h : Accounted cfg id d) (ht : t ∈ d.files) (hrun : t.status = .running) :
    (∀ u ∈ d.files, u.taskId ≠ t.taskId → u.status ≠ .running) ∧ ∀ u ∈ d.files, Sealed cfg d.plan.planSha256 u := by
  refine ⟨fun u hu hk hu' => hk (h.alone t ht hrun u hu hu'), ?_⟩
  rcases h.intact with hall | ⟨hnone, _⟩
  · exact hall
  · exact absurd hrun (hnone t ht)

/-- The attempts in the archive are earlier ones. -/
theorem Accounted.archive_lt (h : Accounted cfg id d) (ht : t ∈ d.files) (hf : t.status ≠ .failed) {n : Nat} {a : Task}
    (ha : d.attempts t.taskId n = some a) : n < t.retryCount := by
  rcases h.archive t ht n a ha with h1 | ⟨_, h1, _⟩
  · exact h1
  · exact absurd h1 hf

end

section
variable {cfg : Config} {s : Store} {id : String} {d d' : PlanDir}

/-- The tasks of a dispatch have nothing on record yet. -/
theorem accounted_dispatched {z : Authorization} (h : Accounted cfg id d) (hfresh : d.tasks = none)
    (htasks : d'.tasks = some (dispatchedTasks cfg d.plan z)) (hplan : d'.plan = d.plan)
    (hman : d'.manifest = some (writeTaskManifest id d.plan.planSha256 (dispatchedTasks cfg d.plan z)))
    (hatt : d'.attempts = d.attempts) : Accounted cfg id d' := by
  have hfiles : d'.files = dispatchedTasks cfg d.plan z := by rw [PlanDir.files, htasks]; rfl
  have hnone : d.files = [] := by rw [PlanDir.files, hfresh]; rfl
  -- every task file of a dispatch is pending, sealed and of a planned stage
  have hmem : ∀ t ∈ d'.files, t.status = .pending ∧ Sealed cfg d.plan.planSha256 t ∧
      ∃ node, (t.stage, node) ∈ d.plan.stages := by
    intro t ht
    rw [hfiles] at ht
    obtain ⟨j, stage, node, rfl, hstage, _⟩ := mem_materialiseFrom (mem_globOrder.mp ht)
    exact ⟨rfl, writeTask_sealed _ _ _, node, hstage⟩
  have hpending : ∀ {t : Task} {status : TaskStatus} {P : Prop}, t ∈ d'.files → t.status = status →
      status ≠ .pending → P := fun ht hst hne => absurd ((hmem _ ht).1.symm.trans hst).symm hne
  have hattempts : ∀ taskId n, d'.attempts taskId n = none := by
    rw [hatt]
    exact h.unattempted hnone
  constructor
  · rw [hplan]; exact h.plan
  · rw [PlanDir.ids, hfiles]
    exact nodup_of_numbers (globOrder_numbers_nodup materialise_numbers_nodup)
  · rw [hplan]; exact fun t ht => (hmem t ht).2.2
  · intro _
    rw [hplan, hfiles]
    exact ⟨_, hman, rfl, rfl, rfl⟩
  · exact fun _ => hattempts
  · intro t _ n a ha
    exact absurd (ha.symm.trans (hattempts t.taskId n)) (by simp)
  · exact fun t ht hst => absurd (hmem t ht).1 hst
  · exact fun t ht hf => hpending ht hf (by simp)
  · exact fun t ht hrun => hpending ht hrun (by simp)
  · exact fun _ t ht hrun => hpending ht hrun (by simp)
  · rw [hplan]; exact .inl fun t ht => (hmem t ht).2.1

/-- **Step lemma.** Whatever a command leaves of an accounted plan is accounted. -/
theorem accounted_turn (h : Accounted cfg id d) (hturn : Turn cfg id d d') : Accounted cfg id d' := by
  cases hturn with
  | idle tasks plan attempts evidence manifest outside =>
      -- a plan that is neither running nor paused does not pause now, and its documents stay
      refine h.kept tasks plan manifest (fun _ _ hl => evidence ▸ hl) (fun _ _ _ ha => .inl (attempts ▸ ha))
        (fun hst => absurd hst outside.2.2) (.inr fun hhalt => ?_)
      rcases hhalt.2 with h1 | ⟨h1, _⟩
      · exact absurd h1 outside.1
      · exact absurd h1 outside.2.1
  | stored tasks plan manifest state events evidence attempts =>
      refine h.kept tasks plan (.inl manifest) evidence attempts (fun hst => state ▸ hst) (.inr fun hhalt => ?_)
      rw [Halted, PlanDir.files, tasks, state, events]
      exact hhalt
  | dispatched z fresh tasks plan manifest attempts => exact accounted_dispatched h fresh tasks plan manifest attempts
  | taken t t' replaces attempts free count running intact state =>
      -- a claim or a renewal: no other task runs, whichever of the two it is
      have hcalm : (∀ u ∈ d.files, u.taskId ≠ t.taskId → u.status ≠ .running) ∧
          ∀ u ∈ d.files, Sealed cfg d.plan.planSha256 u := by
        rcases free with hrun | ⟨_, _, hall⟩
        · exact h.beside replaces.member hrun
        · exact ⟨fun u hu _ => (hall u hu).2, fun u hu => (hall u hu).1⟩
      have hopen : t.status ≠ .failed := by
        rcases free with hrun | ⟨hpending, _⟩
        · rw [hrun]; simp
        · rw [hpending]; simp
      refine h.replaced replaces (fun _ _ _ _ _ ha => attempts ▸ ha)
        (fun n a ha => count ▸ h.archive_lt replaces.member hopen (attempts ▸ ha)) (fun _ => ?_)
        (fun hf => absurd (running.symm.trans hf) (by simp)) (fun _ => hcalm.1)
        (fun hst => absurd (state.symm.trans hst) (by simp)) (.inl ⟨hcalm.2, intact⟩)
      rcases free with hrun | ⟨_, hpath, _⟩
      · exact .inl (by rw [hrun]; simp)
      · exact .inr hpath
  | concluded t t' replaces attempts running count result failed intact =>
      -- the result is sealed, or the seal is missing and no task of the plan runs any more
      have hcalm := h.beside replaces.member running
      have hdone : t'.status ≠ .running := fun hrun => absurd result (by rw [hrun]; simp [TaskStatus.isResult])
      refine h.replaced replaces (fun _ _ _ _ _ ha => attempts ▸ ha)
        (fun n a ha => count ▸ h.archive_lt replaces.member (by rw [running]; simp) (attempts ▸ ha))
        (fun _ => .inl (by rw [running]; simp)) failed (fun _ => hcalm.1) (fun _ => hdone) ?_
      rcases intact with ht' | hstate
      · exact .inl ⟨hcalm.2, ht'⟩
      · refine .inr ⟨fun u hu => ?_, .inl hstate⟩
        rw [replaces.files] at hu
        rcases Frontier.mem_replace hu with rfl | ⟨hu, hk⟩
        · exact hdone
        · exact hcalm.1 u hu fun he =>
            hk (he.trans (congrArg TaskDefinition.taskId replaces.definition).symm)
  | reopened t t' replaces attempts state hsealed count pending state' =>
      -- nothing runs in a paused plan, so a new attempt can only wait
      have hid : t'.taskId = t.taskId := congrArg TaskDefinition.taskId replaces.definition
      have hquiet := h.paused state
      have hnew : t' ∈ d'.files := by rw [replaces.files]; exact Frontier.mem_replace_self replaces.member hid.symm
      refine h.replaced replaces ?_ ?_ (fun hst => absurd pending hst)
        (fun hf => absurd (pending.symm.trans hf) (by simp)) (fun _ u hu _ => hquiet u hu)
        (fun _ => by rw [pending]; simp) (.inr ⟨fun u hu => ?_, ?_⟩)
      · intro u _ hk n a ha
        rcases attempts _ n a ha with h1 | ⟨h1, _⟩
        · exact h1
        · exact absurd h1 hk
      · intro n a ha
        rcases attempts _ n a ha with h1 | ⟨_, rfl⟩
        -- an archived attempt, the failed one included, is earlier than the new one
        · rcases h.archive t replaces.member n a h1 with h2 | ⟨rfl, _⟩ <;> omega
        · omega
      · rw [replaces.files] at hu
        rcases Frontier.mem_replace hu with rfl | ⟨hu, _⟩
        · rw [pending]; simp
        · exact hquiet u hu
      · refine state'.imp_right fun hpaused =>
          ⟨hpaused.1, t', hnew, by rw [hpaused.2, hid], by rw [pending]; simp⟩

/-- **Run lemma.** Every plan of every run is accounted, whichever processes are killed. -/
theorem accounted_reached {as : List Invocation} (h : Reached cfg (fun _ _ => True) as s) :
    ∀ id d, s.plans.lookup id = some d → Accounted cfg id d := by
  refine Trace.Run.invariant (I := fun _ s => ∀ id d, s.plans.lookup id = some d → Accounted cfg id d) ?_ ?_ h
  · intro s hs id d hd
    rw [hs] at hd
    exact absurd hd (by simp [Store.empty])
  · intro _ s i s' _ ih _ hs' id d' hd'
    injection hs' with hs'
    rw [← hs'] at hd'
    rcases after_cases hd' with h1 | ⟨rfl, _, body, event, detail, _, rfl⟩ | ⟨rfl, d, sc, hd, hsc, hran⟩
    · exact ih id d' h1
    · constructor <;> simp [PlanDir.ids, PlanDir.files, newPlan]
    · have hd := ih i.id d hd
      exact accounted_turn hd (turn ‹_› hd.keys hsc hran)

end

/-! ## Eligible tasks

What `retry-task` asks comes down, on a plan of which everything is accounted for, to the claim's words and one
list of stages. -/

/-- The evidence reports no mutation, or known binaries for a validation or datapatch stage that `dispatch` writes
    for the adapter of the plan. -/
def RepeatableOutcome (plan : Plan) (j : Json) : Prop :=
  Json.isStr (j.at' ["outcome_class"]) "no_mutation" = true ∨
    (Json.isStr (j.at' ["outcome_class"]) "binary_state_known" = true ∧
      ∃ stage node, (stage, node) ∈ dispatchStages plan.adapter plan.nodes plan.target.coordinatorNode ∧
        checkStage stage = true ∧ Json.isStr (j.at' ["stage"]) stage = true)

/-- What makes a failed task eligible for a retry. -/
structure Eligible (cfg : Config) (w : World) (s : Store) (id : String) (d : PlanDir) (t : Task) : Prop where
  state : d.state = .paused
  paused : lastPausedDetail d.events = "task_failed=" ++ t.taskId
  window : Accepted (requireOpenWindow cfg d.plan (w.clock 0)) = true
  reservation : verifyReservation cfg w 0 s id = .ok ()
  evidence : ∃ j, verifySourceTaskCustody cfg id d t .failed = .ok j ∧ RepeatableOutcome d.plan j

/-- The two kinds of failure that `retry-task` turns away all the same: one whose evidence does not confirm that the
    postcondition failed, and one with known binaries in a stage that the list does not name. -/
def TurnedAway (cfg : Config) (id : String) (d : PlanDir) (t : Task) : Prop :=
  ∃ j, verifySourceTaskCustody cfg id d t .failed = .ok j ∧
    (Json.isStr (j.at' ["postcondition", "status"]) "failed" = false ∨
      (Json.isStr (j.at' ["outcome_class"]) "binary_state_known" = true ∧ t.stage ∈ unlistedStages))

section
variable {cfg : Config} {w : World} {s : Store} {id actor : String} {d : PlanDir} {t : Task}

/-- **The gates of `retry-task`**, in its order. -/
theorem retryTask_accepted {taskId : String} : Accepted (retryTask cfg w s id taskId actor) = true ↔
    opuValidateIdentifier id "plan ID" = .ok () ∧ opuValidateIdentifier taskId "task ID" = .ok () ∧
      opuValidateIdentifier actor "actor" = .ok () ∧ ∃ d, verifyPlan cfg s id = .ok d ∧ d.state = .paused ∧
        Accepted (requireOpenWindow cfg d.plan (w.clock 0)) = true ∧
        lastPausedDetail d.events = "task_failed=" ++ taskId ∧ ∃ t, (d.task? taskId = some t ∧
          Sealed cfg d.plan.planSha256 t) ∧ t.status = .failed ∧
          ∃ j, verifySourceTaskCustody cfg id d t .failed = .ok j ∧ retrySafe j = true ∧
            verifyTaskManifest cfg id d = .ok () ∧ verifyReservation cfg w 0 s id = .ok () ∧
              ∃ archive, attemptArchive taskId t (d.attempts taskId t.retryCount) = .ok archive := by
  rw [accepted_iff]
  constructor
  · rintro ⟨sc, h⟩
    simp only [retryTask, bind_ok, ensure_ok, verifyTaskFile_ok, Except.ok.injEq] at h
    obtain ⟨_, hid, _, htask, _, hactor, d, hd, _, hst, closes, hopen, _, hpaused, t, ht, _, hfail, j, hj, _, hsafe, _,
      hman, _, hres, archive, harch, _⟩ := h
    exact ⟨hid, htask, hactor, d, hd, hst, accepted_iff.mpr ⟨closes, hopen⟩, hpaused, t, ht, hfail, j, hj, hsafe, hman,
      hres, archive, harch⟩
  · rintro ⟨hid, htask, hactor, d, hd, hst, hopen, hpaused, t, ht, hfail, j, hj, hsafe, hman, hres, archive, harch⟩
    obtain ⟨closes, hopen⟩ := accepted_iff.mp hopen
    simp only [retryTask, bind_ok, ensure_ok, verifyTaskFile_ok, Except.ok.injEq]
    exact ⟨_, (), hid, (), htask, (), hactor, d, hd, (), hst, closes, hopen, (), hpaused, t, ht, (), hfail, j, hj, (),
      hsafe, (), hman, (), hres, archive, harch, rfl⟩

/-- What custody that verifies tells about the task and its evidence. -/
theorem verifySourceTaskCustody_failed {j : Json} (h : verifySourceTaskCustody cfg id d t .failed = .ok j) :
    Sealed cfg d.plan.planSha256 t ∧ t.status = .failed ∧ evidenceBindsTask t j = true ∧
      ∃ dir c, d.evidence (custodyLeaf t.taskId t.retryCount) = some dir ∧ dir "evidence.json" = some c ∧
        c.json? = some j := by
  simp only [verifySourceTaskCustody, bind_ok, ensure_ok, need_ok, Except.ok.injEq] at h
  obtain ⟨_, hsealed, _, hst, _, _, _, _, _, _, dir, hdir, _, _, _, _, _, _, _, _, c, hc, _, _, _, _, j', hj, _, _, _, _,
    _, hbinds, _, _, rfl⟩ := h
  rw [requireCustodied, check_bind_ok] at hc
  obtain ⟨_, hc⟩ := hc
  split at hc
  · rename_i c' hleaf
    injection hc with hc
    exact ⟨verifyTask_ok.mp hsealed, hst.1, hbinds, dir, c', hdir, hleaf, by rw [hc]; exact hj⟩
  · exact absurd hc refuse_ne_ok

/-- Evidence of a task names its stage. -/
theorem evidenceBindsTask_stage {j : Json} (h : evidenceBindsTask t j = true) :
    Json.isStr (j.at' ["stage"]) t.stage = true := by
  simp only [evidenceBindsTask, Bool.and_eq_true] at h
  exact h.1.1.1.2

/-- A text on a list, when it is known which text it is. -/
theorem isOneOf_isStr {v : Option Json} {text : String} {texts : List String} (h : Json.isStr v text = true) :
    isOneOf v texts = true ↔ text ∈ texts := by
  rw [isOneOf, List.any_eq_true]
  constructor
  · rintro ⟨other, hmem, hother⟩
    rwa [Json.isStr_unique h hother]
  · exact fun hmem => ⟨text, hmem, h⟩

/-- The manifest verifies once the task files do. -/
theorem Accounted.manifest_ok (h : Accounted cfg id d) (hne : d.files ≠ []) (hpath : manifestPathOk cfg id)
    (hall : ∀ u ∈ d.files, Sealed cfg d.plan.planSha256 u) : verifyTaskManifest cfg id d = .ok () := by
  obtain ⟨m, hm, hid, hsha, hentries⟩ := h.manifest hne
  have hperm : (manifestEntries d.files).Perm (d.files.map fun t => (t.taskId, t.taskDefinitionSha256)) :=
    List.perm_insertionSort _ _
  rw [verifyTaskManifest, bind_ok]
  refine ⟨m, verifySealedRecord_ok.mpr ⟨hpath, hm⟩, ?_⟩
  rw [ensure_bind_ok, ensure_bind_ok, verifyTasks_ok]
  refine ⟨⟨hid, hsha, ?_, ?_⟩, hentries, hall⟩
  · rw [← hentries]
    intro hnil
    rw [hnil] at hperm
    exact hne (List.map_eq_nil_iff.mp hperm.symm.eq_nil)
  · rw [← hentries, (hperm.map Prod.fst).nodup_iff, List.map_map]
    exact h.keys

/-- In an accounted plan that is paused by a failed task, whose custody verifies, only the reading of the evidence
    is left to decide. -/
theorem Accounted.accepted_iff (h : Accounted cfg id d) (hd : s.plans.lookup id = some d) (ht : t ∈ d.files)
    (hactor : opuValidateIdentifier actor "actor" = .ok ()) :
    Accepted (retryTask cfg w s id t.taskId actor) = true ↔
      d.state = .paused ∧ lastPausedDetail d.events = "task_failed=" ++ t.taskId ∧
        Accepted (requireOpenWindow cfg d.plan (w.clock 0)) = true ∧ verifyReservation cfg w 0 s id = .ok () ∧
          ∃ j, verifySourceTaskCustody cfg id d t .failed = .ok j ∧ retrySafe j = true := by
  have htask : d.task? t.taskId = some t := Frontier.lookup_of_mem h.keys ht
  rw [retryTask_accepted]
  constructor
  · rintro ⟨_, _, _, e, he, hst, hopen, hpaused, u, ⟨hu, _⟩, _, j, hj, hsafe, _, hres, _⟩
    obtain rfl := Option.some.inj ((verifyPlan_ok.mp he).1.symm.trans hd)
    obtain rfl := Option.some.inj (hu.symm.trans htask)
    exact ⟨hst, hpaused, hopen, hres, j, hj, hsafe⟩
  · rintro ⟨hst, hpaused, hopen, hres, j, hj, hsafe⟩
    obtain ⟨hsealed, hfailed, _⟩ := verifySourceTaskCustody_failed hj
    have hrecord := h.failures t ht hfailed
    -- the task named by the pause is failed, so the plan is not halted and every task file verifies
    have hall : ∀ u ∈ d.files, Sealed cfg d.plan.planSha256 u := by
      rcases h.intact with hall | ⟨_, hrun | ⟨_, u, hu, hdetail, hnot⟩⟩
      · exact hall
      · exact absurd (hst.symm.trans hrun) (by simp)
      · have hsame : u.taskId = t.taskId := (String.append_right_inj _).mp (hdetail.symm.trans hpaused)
        rw [Frontier.eq_of_key h.keys hu ht hsame] at hnot
        exact absurd hfailed hnot
    have hpath := h.path t ht (by rw [hfailed]; simp)
    have harchive : ∃ archive, attemptArchive t.taskId t (d.attempts t.taskId t.retryCount) = .ok archive := by
      cases ha : d.attempts t.taskId t.retryCount with
      | none => exact ⟨_, rfl⟩
      | some a =>
          rcases h.archive t ht _ a ha with hlt | ⟨_, _, rfl⟩
          · exact absurd hlt (Nat.lt_irrefl _)
          · refine ⟨[], ?_⟩
            rw [attemptArchive, ensure_bind_ok]
            exact ⟨rfl, rfl⟩
    exact ⟨hrecord.planId, hrecord.taskId, hactor, d, verifyPlan_ok.mpr ⟨hd, h.plan⟩, hst, hopen, hpaused, t,
      ⟨htask, hsealed⟩, hfailed, j, hj, hsafe, h.manifest_ok (List.ne_nil_of_mem ht) hpath hall, hres, harchive⟩

/-- The evidence of a failure on record: `retry-task` takes its outcome as `RepeatableOutcome` says, except for the
    two kinds it turns away. -/
theorem Accounted.retrySafe_iff (h : Accounted cfg id d) (ht : t ∈ d.files) {j : Json}
    (hj : verifySourceTaskCustody cfg id d t .failed = .ok j) :
    retrySafe j = true ↔ RepeatableOutcome d.plan j ∧
      Json.isStr (j.at' ["postcondition", "status"]) "failed" = true ∧
        ¬ (Json.isStr (j.at' ["outcome_class"]) "binary_state_known" = true ∧ t.stage ∈ unlistedStages) := by
  obtain ⟨_, hfailed, hbinds, dir, c, hdir, hc, hread⟩ := verifySourceTaskCustody_failed hj
  have hstage := evidenceBindsTask_stage hbinds
  obtain ⟨node, hnode⟩ := h.stages t ht
  -- the exit code was checked when the failure was completed, and custody is append-only
  have hexit : Json.isNum (j.at' ["exit_code"]) 0 = false := by
    obtain ⟨dir', c', j', hdir', hc', hread', hexit⟩ := (h.failures t ht hfailed).evidence
    obtain rfl := Option.some.inj (hdir.symm.trans hdir')
    obtain rfl := Option.some.inj (hc.symm.trans hc')
    obtain rfl := Option.some.inj (hread.symm.trans hread')
    unfold exitNonzero at hexit
    split at hexit
    · rename_i q hcode
      simp only [Bool.and_eq_true, bne_iff_ne] at hexit
      rw [hcode]
      show (q == 0) = false
      simpa using hexit.1.2
    · exact absurd hexit (by simp)
  have hlisted : isOneOf (j.at' ["stage"]) repeatableStages = true ↔ t.stage ∈ repeatableStages := isOneOf_isStr hstage
  have hboth : Json.isStr (j.at' ["outcome_class"]) "no_mutation" = true →
      Json.isStr (j.at' ["outcome_class"]) "binary_state_known" = true → False := fun h1 h2 =>
    absurd (Json.isStr_unique h1 h2) (by decide)
  have hcheck : t.stage ∈ repeatableStages ↔ checkStage t.stage = true ∧ t.stage ∉ unlistedStages := by
    constructor
    · intro hmem
      have hcheck := repeatable_check _ hmem
      exact ⟨hcheck, (listed_iff hnode hcheck).mp hmem⟩
    · rintro ⟨hcheck, hnot⟩
      exact (listed_iff hnode hcheck).mpr hnot
  have hrepeatable : RepeatableOutcome d.plan j ↔ Json.isStr (j.at' ["outcome_class"]) "no_mutation" = true ∨
      (Json.isStr (j.at' ["outcome_class"]) "binary_state_known" = true ∧ checkStage t.stage = true) := by
    refine or_congr_right (and_congr_right fun _ => ⟨?_, fun hc => ⟨t.stage, node, hnode, hc, hstage⟩⟩)
    rintro ⟨stage, _, _, hc, hother⟩
    rwa [Json.isStr_unique hstage hother]
  simp only [retrySafe, Bool.and_eq_true, Bool.or_eq_true, Bool.not_eq_true', hexit, hlisted, hcheck, hrepeatable]
  tauto

end

/-- **Retry eligibility.** In every plan a run can leave, whichever processes are killed, and for every task of it,
    `retry-task` accepts exactly the eligible tasks, unless the task is eligible and its failure is of one of the two
    kinds that are turned away. This is what `retry-task` decides once it holds the plan's task lock: a call that does
    not get the lock in time is refused whatever the task is. -/
theorem retry_eligibility {cfg : Config} {as : List Invocation} {s : Store}
    (h : Reached cfg (fun _ _ => True) as s) {id : String} {d : PlanDir} (hd : s.plans.lookup id = some d) {t : Task}
    (ht : t ∈ d.files) (w : World) {actor : String} (hactor : opuValidateIdentifier actor "actor" = .ok ()) :
    (Accepted (retryTask cfg w s id t.taskId actor) = true ↔ Eligible cfg w s id d t) ↔
      ¬ (Eligible cfg w s id d t ∧ TurnedAway cfg id d t) := by
  have haccounted := accounted_reached h id d hd
  have haccepted := haccounted.accepted_iff (w := w) hd ht hactor
  -- an accepted task is eligible and not turned away, and the other way round
  have hexact : Accepted (retryTask cfg w s id t.taskId actor) = true ↔
      Eligible cfg w s id d t ∧ ¬ TurnedAway cfg id d t := by
    rw [haccepted]
    constructor
    · rintro ⟨hst, hpaused, hopen, hres, j, hj, hsafe⟩
      obtain ⟨hrep, hpost, hnot⟩ := (haccounted.retrySafe_iff ht hj).mp hsafe
      refine ⟨⟨hst, hpaused, hopen, hres, j, hj, hrep⟩, ?_⟩
      rintro ⟨j', hj', hturned⟩
      obtain rfl : j = j' := Except.ok.inj (hj.symm.trans hj')
      rcases hturned with hpost' | hturned
      · exact absurd (hpost.symm.trans hpost') (by simp)
      · exact hnot hturned
    · rintro ⟨⟨hst, hpaused, hopen, hres, j, hj, hrep⟩, hnot⟩
      refine ⟨hst, hpaused, hopen, hres, j, hj, (haccounted.retrySafe_iff ht hj).mpr ⟨hrep, ?_, ?_⟩⟩
      · cases hpost : Json.isStr (j.at' ["postcondition", "status"]) "failed" with
        | true => rfl
        | false => exact absurd ⟨j, hj, .inl hpost⟩ hnot
      · exact fun hturned => hnot ⟨j, hj, .inr hturned⟩
  rw [hexact]
  tauto

/-- Retry eligibility of the failed precheck of `p1`. -/
theorem retry_eligibility_failed : ∃ d t, (replay lab labFailed).plans.lookup "p1" = some d ∧ t ∈ d.files ∧
    t.status = .failed ∧
      ((Accepted (retryTask lab (labWorld []) (replay lab labFailed) "p1" t.taskId "cy") = true ↔
          Eligible lab (labWorld []) (replay lab labFailed) "p1" d t) ↔
        ¬ (Eligible lab (labWorld []) (replay lab labFailed) "p1" d t ∧ TurnedAway lab "p1" d t)) := by
  have h : ((replay lab labFailed).plans.lookup "p1").map (fun d => (d.task? "001-precheck-n1").map (·.status)) =
      some (some .failed) := by decide +kernel
  obtain ⟨d, hd, hview⟩ := Option.map_eq_some_iff.mp h
  obtain ⟨t, ht, hst⟩ := Option.map_eq_some_iff.mp hview
  exact ⟨d, t, hd, (task?_mem ht).1, hst, retry_eligibility (replay_reached fun _ _ _ => trivial) hd (task?_mem ht).1
    (labWorld []) (by decide)⟩

/-! ## A datapatch stage that is turned away -/

/-- `p1` with the OJVM adapter. -/
def ojvmPlan : Plan :=
  let body : PlanBody := { labPlan.toPlanBody with adapter := .databaseOjvmOpatch }
  ⟨body, lab.hashString (.plan body)⟩

/-- The first five stages of that plan. -/
def ojvmTask (index : Nat) : String × String :=
  (["ojvm_precheck", "ojvm_stop_all", "ojvm_binary_apply", "ojvm_start_upgrade", "ojvm_datapatch_upgrade"].map
    fun stage => (taskIdOf index stage (if index ≤ 4 then "n1" else "local"), stage)).getD (index - 1) ("", "")

example : ojvmTask 5 = ("005-ojvm-datapatch-upgrade-local", "ojvm_datapatch_upgrade") := by decide +kernel

/-- A claim of a task and its completion with the evidence given. -/
def ojvmTurn (index : Nat) (status : TaskStatus) (evidence : Content) : List Invocation :=
  [labInvocation "p1" (.claim (ojvmTask index).1 "dee" "600"),
    ⟨"p1", .complete (ojvmTask index).1 "dee" status.text "/e/doc" "", labWorld (labFiles evidence), none⟩]

/-- `datapatch` has failed, with known binaries. -/
def ojvmFailure : Content :=
  let body := (labReport ojvmPlan (ojvmTask 5).1 (ojvmTask 5).2 "dee" .failed 0).map fun field =>
    if field.1 = "outcome_class" then ("outcome_class", Json.str "binary_state_known") else field
  .supplied "datapatch" (some (.obj (body ++ [("record_sha256", .str (lab.hashString (.json (.obj body))).hex)])))

/-- `p1` up to the failure of its datapatch stage. -/
def ojvmFailed : List Invocation :=
  [{ labInvocation "p1" (.create "ann" "2026-01-10T00:00:00Z" "2026-01-10T06:00:00Z") with
      world := { labWorld [] with inputs := .ok { labInputs with adapter := .databaseOjvmOpatch } } },
    labInvocation "p1" (.approve "bob" "CHG-1"),
    labInvocation "p1" (.authorize "cy"),
    labInvocation "p1" (.dispatch "cy")] ++
  ([1, 2, 3, 4].flatMap fun index =>
    ojvmTurn index .succeeded
      (labEvidence ojvmPlan (ojvmTask index).1 (ojvmTask index).2 "dee" .succeeded 0)) ++
  ojvmTurn 5 .failed ojvmFailure

/-- The OJVM datapatch stage failed with known binaries, and `retry-task` refuses the eligible task. -/
theorem ojvm_datapatch_refused : Reached lab (fun _ _ => True) ojvmFailed (replay lab ojvmFailed) ∧
    ∃ d t, (replay lab ojvmFailed).plans.lookup "p1" = some d ∧ t ∈ d.files ∧ t.stage = "ojvm_datapatch_upgrade" ∧
      Eligible lab (labWorld []) (replay lab ojvmFailed) "p1" d t ∧
        Accepted (retryTask lab (labWorld []) (replay lab ojvmFailed) "p1" t.taskId "cy") = false := by
  refine ⟨replay_reached fun _ _ _ => trivial, ?_⟩
  have h : ((replay lab ojvmFailed).plans.lookup "p1").bind (fun d =>
      (d.task? "005-ojvm-datapatch-upgrade-local").map fun t =>
        (t.stage == "ojvm_datapatch_upgrade" && d.plan.adapter == .databaseOjvmOpatch && d.state == .paused &&
          lastPausedDetail d.events == "task_failed=" ++ t.taskId &&
          Accepted (requireOpenWindow lab d.plan ((labWorld []).clock 0)) &&
          Accepted (verifyReservation lab (labWorld []) 0 (replay lab ojvmFailed) "p1") &&
          !Accepted (retryTask lab (labWorld []) (replay lab ojvmFailed) "p1" t.taskId "cy") &&
          match verifySourceTaskCustody lab "p1" d t .failed with
          | .ok j => Json.isStr (j.at' ["outcome_class"]) "binary_state_known" &&
              Json.isStr (j.at' ["stage"]) "ojvm_datapatch_upgrade"
          | .error _ => false)) = some true := by decide +kernel
  obtain ⟨d, hd, hview⟩ := Option.bind_eq_some_iff.mp h
  obtain ⟨t, ht, hview⟩ := Option.map_eq_some_iff.mp hview
  simp only [Bool.and_eq_true, beq_iff_eq, Bool.not_eq_true'] at hview
  obtain ⟨⟨⟨⟨⟨⟨⟨hstage, hadapter⟩, hst⟩, hpaused⟩, hopen⟩, hres⟩, hrefused⟩, hevidence⟩ := hview
  obtain ⟨_, hres⟩ := accepted_iff.mp hres
  split at hevidence
  · rename_i j hj
    rw [Bool.and_eq_true] at hevidence
    refine ⟨d, t, hd, (task?_mem ht).1, hstage, ⟨hst, hpaused, hopen, hres, j, hj, .inr ⟨hevidence.1,
      "ojvm_datapatch_upgrade", "local", ?_, by decide, hevidence.2⟩⟩, hrefused⟩
    rw [hadapter]
    simp [dispatchStages]
  · exact absurd hevidence (by simp)

/-- The list of `retry-task` has the stage under another name. -/
example : "ojvm_datapatch_upgrade" ∉ repeatableStages ∧ "ojvm_datapatch" ∈ repeatableStages := by decide +kernel

end OraclePatching
