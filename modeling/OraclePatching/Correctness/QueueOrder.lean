import OraclePatching.Controller.Replay
import OraclePatching.Queue.Runs

/-!
# `Correctness.QueueOrder` — one job per node and per plan, in the order of the task IDs

A job is active from its claim until it completes or is deferred; a lapsed lease leaves it active. Of the jobs of a
node at most one is active, and of the jobs of a plan at most one, in every state that agents and controllers reach.

Only `claim` makes a job active, and it looks at all job files first (`Grantable`). Every other write goes over a job
that was active already, or leaves the job inactive (`Written.over`); so the two exclusions are kept whatever is
between its two sections, and no invariant about the open calls is needed. The order is read off the same guard: a
peer with a smaller task ID that had not succeeded would have blocked the claim.
-/

namespace OraclePatching.Queue

variable {sha256 : String → Digest} {testMode : Bool} {jobs jobs' : Jobs} {calls : List Call} {grant : Option Claim} {job : Job}

/-! ## Sweeps -/

/-- An expired job waits for reconciliation; any other is as it was. -/
theorem Job.expire_cases (now : Int) (job : Job) :
    job.expire now = job ∨ (job.status.leased = true ∧ (job.expire now).status = .reconciliationRequired) := by
  unfold Job.expire
  split
  · rename_i h
    simp only [Job.lapsed, Bool.and_eq_true] at h
    exact .inr ⟨h.1, rfl⟩
  · exact .inl rfl

/-- The same for a sweep, which comes by some jobs only. -/
theorem Job.sweep_cases (reached : String → Bool) (now : Int) (job : Job) :
    job.sweep reached now = job ∨
      (job.status.leased = true ∧ (job.sweep reached now).status = .reconciliationRequired) := by
  unfold Job.sweep
  split
  · exact Job.expire_cases now job
  · exact .inl rfl

@[simp] theorem Job.sweep_node (reached : String → Bool) (now : Int) (job : Job) :
    (job.sweep reached now).node = job.node := by
  unfold Job.sweep Job.expire; split_ifs <;> rfl

@[simp] theorem Job.sweep_planId (reached : String → Bool) (now : Int) (job : Job) :
    (job.sweep reached now).planId = job.planId := by
  unfold Job.sweep Job.expire; split_ifs <;> rfl

@[simp] theorem Job.sweep_taskId (reached : String → Bool) (now : Int) (job : Job) :
    (job.sweep reached now).taskId = job.taskId := by
  unfold Job.sweep Job.expire; split_ifs <;> rfl

/-- A leased job occupies its node and its plan. -/
theorem JobStatus.active_of_leased {status : JobStatus} (h : status.leased = true) : status.active = true := by
  cases status <;> simp_all [leased, active]

/-- What is active after a sweep was active before. -/
theorem Job.active_of_sweep {reached : String → Bool} {now : Int} {job : Job}
    (h : (job.sweep reached now).status.active = true) : job.status.active = true := by
  rcases job.sweep_cases reached now with heq | ⟨hleased, _⟩
  · exact heq ▸ h
  · exact JobStatus.active_of_leased hleased

/-! ## Writes

What is written over what: a job keeps its node and its plan, and is active only if it was, or if nothing else is. -/

/-- Every write is over a job of the same node and plan, which was active already or is granted if the new file is
    active; or it is a new job's. -/
theorem Written.over (h : Written sha256 testMode jobs calls job grant) :
    (∃ old ∈ jobs, old.jobId = job.jobId ∧ old.node = job.node ∧ old.planId = job.planId ∧
      (job.status.active = true → old.status.active = true ∨ Grantable jobs old)) ∨
    job.status.active = false := by
  cases h with
  | fresh _ => exact .inr rfl
  | retried _ _ _ => exact .inr rfl
  | claimed hold hgrantable => exact .inl ⟨_, hold, rfl, rfl, rfl, fun _ => .inr hgrantable⟩
  | @expired old now hold hlapsed =>
      simp only [Job.lapsed, Bool.and_eq_true] at hlapsed
      refine .inl ⟨old, hold, (Job.expire_jobId now old).symm, ?_, ?_, fun _ =>
        .inl (JobStatus.active_of_leased hlapsed.1)⟩ <;> unfold Job.expire <;> split <;> rfl
  | extended hold hheld =>
      exact .inl ⟨_, hold, rfl, rfl, rfl, fun _ => .inl (JobStatus.active_of_leased hheld.leased)⟩
  | unreconciled hold hheld =>
      exact .inl ⟨_, hold, rfl, rfl, rfl, fun _ => .inl (JobStatus.active_of_leased hheld.leased)⟩
  | deferred _ _ _ _ _ => exact .inr rfl
  | completed _ _ _ _ _ _ => exact .inr rfl
  | reconciled _ _ _ _ _ _ _ => exact .inr rfl

/-- A file that says `claimed` is written for a granted job only. -/
theorem Written.granted (h : Written sha256 testMode jobs calls job grant) (hclaimed : job.status = .claimed) :
    ∃ old ∈ jobs, old.planId = job.planId ∧ old.taskId = job.taskId ∧ Grantable jobs old := by
  cases h with
  | fresh _ => exact absurd hclaimed (by simp [publishedJob])
  | retried _ _ _ => exact absurd hclaimed (by simp [publishedJob])
  | claimed hold hgrantable => exact ⟨_, hold, rfl, rfl, hgrantable⟩
  | expired _ hlapsed => exact absurd hclaimed (by simp [Job.expire, hlapsed])
  | extended _ _ => exact absurd hclaimed (by simp [extendedJob])
  | unreconciled _ _ => exact absurd hclaimed (by simp [unreconciledJob])
  | deferred _ _ _ _ _ => exact absurd hclaimed (by simp [deferredJob])
  | completed _ _ _ _ _ _ => exact absurd hclaimed (by simp [completedJob])
  | reconciled _ _ _ _ _ _ _ => exact absurd hclaimed (by simp [reconciledJob])

/-! ## Exclusion -/

/-- Of the jobs of a node, and of the jobs of a plan, at most one is active. -/
structure Exclusions (jobs : Jobs) : Prop where
  node : Directory.Exclusive (fun job : Job => job.status.active = true) Job.node jobs
  plan : Directory.Exclusive (fun job : Job => job.status.active = true) Job.planId jobs

theorem Exclusions.sweep (h : Exclusions jobs) (reached : String → Bool) (now : Int) :
    Exclusions (sweepJobs jobs reached now) where
  node := h.node.modify (fun _ _ => Job.active_of_sweep) fun job _ => Job.sweep_node reached now job
  plan := h.plan.modify (fun _ _ => Job.active_of_sweep) fun job _ => Job.sweep_planId reached now job

theorem Exclusions.write (h : Exclusions jobs) (hw : Written sha256 testMode jobs calls job grant) :
    Exclusions (jobs.put job) := by
  rcases hw.over with ⟨old, hold, hid, hnode, hplan, hactive⟩ | hinactive
  · by_cases hjob : job.status.active = true
    · rcases hactive hjob with hwas | hgrantable
      · exact ⟨h.node.put_over hold hid hnode fun _ => hwas, h.plan.put_over hold hid hplan fun _ => hwas⟩
      · refine ⟨h.node.put fun _ other hother _ ha hsame => ?_, h.plan.put fun _ other hother hne ha hsame => ?_⟩
        · exact hgrantable.nodeFree other hother ha (hsame.trans hnode.symm)
        · have := hgrantable.planFree other hother (hsame.trans hplan.symm) (hid ▸ hne)
          exact absurd ha (by simp [this])
    · exact ⟨h.node.put fun ha => absurd ha hjob, h.plan.put fun ha => absurd ha hjob⟩
  · exact ⟨h.node.put fun ha => absurd ha (by simp [hinactive]),
      h.plan.put fun ha => absurd ha (by simp [hinactive])⟩

/-- **The run lemma.** -/
theorem exclusions_reached {cfg : Config} {allowed : System → Action → Prop} {as : List Action}
    {s : System} (h : Reached cfg sha256 testMode allowed as s) : Exclusions s.queue.jobs := by
  refine Trace.Run.invariant (I := fun _ s => Exclusions s.queue.jobs) ?_ ?_ h
  · rintro s ⟨hjobs, _⟩
    rw [hjobs]
    exact ⟨.empty, .empty⟩
  · rintro as s a s' _ ih _ hstep
    obtain rfl := Option.some.inj hstep
    obtain ⟨grant, hchange, _⟩ := step_change cfg sha256 testMode s a
    exact hchange.invariant (fun jobs _ => Exclusions jobs) [] ih ih.sweep
      fun _ _ hI hw => hI.write hw

/-! ## Order -/

/-- The job has completed with outcome success. -/
def Succeeded (job : Job) : Prop := job.status = .completed ∧ outcomeSuccess job = .ok true

/-- A job of a swept directory that reports success was not changed by the sweep. -/
theorem Succeeded.of_sweep (reached : String → Bool) (now : Int) (h : Succeeded (job.sweep reached now)) :
    Succeeded job := by
  rcases job.sweep_cases reached now with heq | ⟨_, hstatus⟩
  · exact heq ▸ h
  · exact absurd h.1 (by simp [hstatus])

/-- A change that claims a job finds every job of the plan with a smaller task ID succeeded. -/
theorem Change.ordered (h : Change sha256 testMode jobs calls jobs' grant) (hjob : job ∈ jobs') (hclaimed : job.status = .claimed)
    (hnew : ∀ old ∈ jobs, old.jobId = job.jobId → old.status ≠ .claimed) {peer : Job} (hpeer : peer ∈ jobs)
    (hplan : peer.planId = job.planId) (hlt : peer.taskId < job.taskId) : Succeeded peer := by
  have hsweep : ∀ reached now, job ∉ sweepJobs jobs reached now := by
    intro reached now hmem
    obtain ⟨old, hold, rfl⟩ := Directory.mem_modify.mp hmem
    rcases old.sweep_cases reached now with heq | ⟨_, hstatus⟩
    · exact hnew old hold (by rw [heq]) (heq ▸ hclaimed)
    · exact absurd hclaimed (by simp [hstatus])
  have hgrant : ∀ {jobs₁ : Jobs} {peer₁ old : Job}, peer₁ ∈ jobs₁ → peer₁.planId = job.planId →
      peer₁.taskId < job.taskId → old ∈ jobs₁ → old.planId = job.planId → old.taskId = job.taskId →
      Grantable jobs₁ old → Succeeded peer₁ := by
    intro jobs₁ peer₁ old hpeer₁ hplan₁ hlt₁ hold hplan' htask hgrantable
    refine hgrantable.ordered peer₁ hpeer₁ (hplan₁.trans hplan'.symm) (fun hid => ?_) (htask ▸ hlt₁)
    rw [Directory.eq_of_key hpeer₁ hold hid, htask] at hlt₁
    exact absurd hlt₁ (String.lt_irrefl _)
  cases h with
  | same => exact absurd hclaimed (hnew job hjob rfl)
  | swept reached now => exact absurd hjob (hsweep reached now)
  | wrote hw =>
      rcases Directory.mem_put.mp hjob with rfl | ⟨hjob, _⟩
      · obtain ⟨old, hold, hplan', htask, hgrantable⟩ := hw.granted hclaimed
        exact hgrant hpeer hplan hlt hold hplan' htask hgrantable
      · exact absurd hclaimed (hnew job hjob rfl)
  | sweptAndWrote reached now hw =>
      rcases Directory.mem_put.mp hjob with rfl | ⟨hjob, _⟩
      · obtain ⟨old, hold, hplan', htask, hgrantable⟩ := hw.granted hclaimed
        refine Succeeded.of_sweep reached now ?_
        exact hgrant (Directory.mem_modify.mpr ⟨peer, hpeer, rfl⟩) ((Job.sweep_planId reached now peer).trans hplan)
          ((Job.sweep_taskId reached now peer).symm ▸ hlt) hold hplan' htask hgrantable
      · exact absurd hjob (hsweep reached now)

/-- What holds in a state of the queue, and of every step from it. -/
structure QueueInOrder (cfg : Config) (sha256 : String → Digest) (testMode : Bool) (s : System) : Prop where
  node : ∀ x ∈ s.queue.jobs, ∀ y ∈ s.queue.jobs, x.status.active = true → y.status.active = true →
    x.node = y.node → x = y
  plan : ∀ x ∈ s.queue.jobs, ∀ y ∈ s.queue.jobs, x.status.active = true → y.status.active = true →
    x.planId = y.planId → x = y
  claims : ∀ a, ∀ job ∈ (step cfg sha256 testMode s a).queue.jobs, job.status = .claimed →
    (∀ old ∈ s.queue.jobs, old.jobId = job.jobId → old.status ≠ .claimed) →
    ∀ peer ∈ s.queue.jobs, peer.planId = job.planId → peer.taskId < job.taskId → Succeeded peer

/-- **Exclusivity and order of the agent queue.** In every state that any agents and controllers reach, in any order
    of their critical sections and at any times, at most one job per node and one per plan is active; and a step
    claims a job only if every published job of its plan with a smaller task ID has completed with success. -/
theorem queue_in_order {cfg : Config} {sha256 : String → Digest} {testMode : Bool} {as : List Action} {s : System}
    (h : Reached cfg sha256 testMode (fun _ _ => True) as s) : QueueInOrder cfg sha256 testMode s where
  node := (exclusions_reached h).node
  plan := (exclusions_reached h).plan
  claims a job hjob hclaimed hnew peer hpeer hplan hlt := by
    obtain ⟨grant, hchange, _⟩ := step_change cfg sha256 testMode s a
    exact hchange.ordered hjob hclaimed hnew hpeer hplan hlt

/-- A RAC plan whose second task waits on another node for the first. -/
def racQueue : List Action :=
  [.publish "rac" "001-precheck-node1" "node1" "database_rolling_opatch" 0 1000,
    .publish "rac" "002-precheck-node2" "node2" "database_rolling_opatch" 0 1000,
    .claim "node2" "agent2" 120 true "early" 1005,
    .claim "node1" "agent1" 120 true "first" 1010,
    .openCall (.complete ⟨"agent1", some "first", true⟩ [("status", .str "success")]) "rac__001-precheck-node1" 1020,
    .close 0 1021 1021,
    .claim "node2" "agent2" 120 true "second" 1030]

/-- The second job is claimed once the first has succeeded. -/
theorem queue_in_order_claimed :
    (replay lab (fun token => checksum [token]) true racQueue).queue.jobs.files.map (fun j => (j.taskId, j.status)) =
        [("001-precheck-node1", .completed), ("002-precheck-node2", .claimed)] ∧
      QueueInOrder lab (fun token => checksum [token]) true
        (replay lab (fun token => checksum [token]) true racQueue) :=
  ⟨by decide +kernel, queue_in_order (replay_reached fun _ _ _ => trivial)⟩

end OraclePatching.Queue
