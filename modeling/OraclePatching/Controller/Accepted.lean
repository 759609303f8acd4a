import OraclePatching.Controller.Runs

/-!
# `Controller.Accepted` — what an accepted command has established

One record per command: the guards that held and the writes that follow. Every later argument about a command
starts from its record and never unfolds the command again.
-/

namespace OraclePatching

variable {cfg : Config} {w : World} {s : Store} {sc : Script}

/-! ## Small checks

The guards that several commands share, each read as what a success says about its arguments and the store. -/

/-- The window is open: both of its ends can be read, and the clock is between them. -/
theorem requireOpenWindow_ok {plan : Plan} {now closes : Int} :
    requireOpenWindow cfg plan now = .ok closes ↔
      cfg.epoch plan.windowEnd = some closes ∧ now < closes ∧
        ∃ opens, cfg.epoch plan.windowStart = some opens ∧ opens ≤ now := by
  unfold requireOpenWindow
  simp only [need_bind_ok, ensure_bind_ok, Except.ok.injEq]
  constructor
  · rintro ⟨opens, h1, c, h2, ⟨h3, h4⟩, rfl⟩; exact ⟨h2, h4, opens, h1, h3⟩
  · rintro ⟨h2, h4, opens, h1, h3⟩; exact ⟨opens, h1, closes, h2, ⟨h3, h4⟩, rfl⟩

/-- What `bounded_lease_expiry` grants, and when. -/
theorem boundedLeaseExpiry_ok {plan : Plan} {lease : String} {n : Nat} {expiry : Int} :
    boundedLeaseExpiry cfg w plan lease n = .ok expiry ↔
      ∃ closes seconds, requireOpenWindow cfg plan (w.clock n) = .ok closes ∧
        arithmeticValue lease = some seconds ∧ expiry = min (w.clock (n + 1) + seconds) closes ∧
        30 ≤ expiry - w.clock (n + 1) := by
  unfold boundedLeaseExpiry
  simp only [bind_ok, need_ok, ensure_ok, Except.ok.injEq]
  constructor
  · rintro ⟨closes, h1, seconds, h2, _, h3, rfl⟩; exact ⟨closes, seconds, h1, h2, rfl, h3⟩
  · rintro ⟨closes, seconds, h1, h2, rfl, h3⟩; exact ⟨closes, h1, seconds, h2, (), h3, rfl⟩

/-- `next` names the first pending task; what it checks of the file comes after that. -/
theorem nextIn_ok {id : String} {planSha : Digest} {ts : List Task} {t : Task}
    (h : nextIn cfg id planSha ts = .ok t) : ts.find? (fun t => decide (t.status = .pending)) = some t := by
  induction ts with
  | nil => exact absurd h refuse_ne_ok
  | cons u us ih =>
      rw [nextIn, check_bind_ok] at h
      by_cases hp : u.status = .pending
      · rw [if_pos hp, Except.ok.injEq] at h
        rw [List.find?_cons_of_pos (by simpa using hp), h.2]
      · rw [if_neg hp] at h
        rw [List.find?_cons_of_neg (by simpa using hp)]
        exact ih h.2

/-- A task can be claimed next to this file: it is sealed, and neither running nor of unknown outcome. -/
theorem claimable_ok {id : String} {d : PlanDir} {t : Task} :
    claimable cfg id d t = .ok () ↔ Sealed cfg d.plan.planSha256 t ∧ t.status ≠ .running ∧ t.status ≠ .unknown := by
  rw [claimable, check_bind_ok, ensure_bind_ok, ensure_ok, verifyTask_ok]

/-- The expired task is a sealed running one whose lease is over. -/
theorem expiredIn_ok {id : String} {planSha : Digest} {now : Int} {ts : List Task} {t : Task}
    (h : expiredIn cfg id planSha now ts = .ok t) :
    t ∈ ts ∧ Sealed cfg planSha t ∧ t.status = .running ∧ t.leaseExpiresEpoch.getD 0 ≤ now := by
  induction ts with
  | nil => exact absurd h refuse_ne_ok
  | cons u us ih =>
      rw [expiredIn, check_bind_ok, verifyTask_ok] at h
      obtain ⟨hu, h⟩ := h
      by_cases hp : u.status = .running ∧ u.leaseExpiresEpoch.getD 0 ≤ now
      · rw [if_pos hp, Except.ok.injEq] at h
        subst h
        exact ⟨List.mem_cons_self, hu, hp⟩
      · rw [if_neg hp] at h
        obtain ⟨h1, h2⟩ := ih h
        exact ⟨List.mem_cons_of_mem u h1, h2⟩

/-- A manifest that verifies is of this plan and lists the task files that are there, all of them sealed. -/
theorem verifyTaskManifest_ok {id : String} {d : PlanDir} (h : verifyTaskManifest cfg id d = .ok ()) :
    ∃ m, d.manifest = some m ∧ m.planId = id ∧ m.planSha256 = d.plan.planSha256 ∧ m.tasks ≠ [] ∧
      manifestEntries (d.tasks.getD []) = m.tasks ∧ ∀ t ∈ d.tasks.getD [], Sealed cfg d.plan.planSha256 t := by
  rw [verifyTaskManifest, bind_ok] at h
  obtain ⟨m, hm, h⟩ := h
  rw [ensure_bind_ok, ensure_bind_ok, verifyTasks_ok] at h
  obtain ⟨⟨h1, h2, h3, _⟩, h4, h5⟩ := h
  exact ⟨m, (verifySealedRecord_ok.mp hm).2, h1, h2, h3, h4, h5⟩

/-! ## Create and create-rollback

A creation writes one record, the new plan, under an ID that was free. A rollback takes its nodes and its source
actors from the plan it undoes, which is why its acceptance says more: the lineage names the claimants of the
source. -/

structure CreateAccepted (cfg : Config) (w : World) (s : Store) (id requester : String) (sc : Script)
    (inputs : Inputs) (body : PlanBody) : Prop where
  derived : w.inputs = .ok inputs
  apply : inputs.adapter.isRollback = false
  nodes : verifyNodes inputs.expectedNodes = .ok ()
  fresh : s.plans.lookup id = none
  planId : body.planId = id
  requesterIs : body.requester = requester
  adapter : body.adapter = inputs.adapter
  nodesAre : body.nodes = inputs.expectedNodes
  coordinator : inputs.adapter.isDistributed = true →
    body.target.coordinatorNode = firstNode inputs.expectedNodes
  noSource : body.sourceApply = none
  script : sc = ⟨[.plan (newPlan cfg body "plan_created" "")], 0⟩

/-- **An accepted `create`.** -/
theorem create_ok {id requester windowStart windowEnd : String}
    (h : create cfg w s id requester windowStart windowEnd = .ok sc) :
    ∃ inputs body, CreateAccepted cfg w s id requester sc inputs body := by
  simp only [create, bind_ok, ensure_ok, Except.ok.injEq] at h
  obtain ⟨_, _, _, _, _, _, inputs, hin, _, happ, _, hnodes, _, _, _, _, _, hnone, rfl⟩ := h
  refine ⟨inputs, _, hin, happ, hnodes, by simpa using hnone, rfl, rfl, rfl, rfl, ?_, rfl, rfl⟩
  intro hdist
  simp only [if_pos hdist]

/-- The actors a rollback plan seals: every claimant of a RAC or Grid source, the claimant of the final task of a
    standalone source. -/
inductive SealedActors (source : PlanDir) : List String → Prop
  | lineage (actors : List String) :
      (∀ t ∈ source.tasks.getD [], ∃ actor, t.claimedBy = some actor ∧ actor ∈ actors) →
      (∀ actor ∈ actors, ∃ t ∈ source.tasks.getD [], t.claimedBy = some actor) →
      source.plan.adapter.isDistributed = true → SealedActors source actors
  | final (finalStage : String) (rollbackAdapter : Adapter) (t : Task) (actor : String) :
      standaloneRollback source.plan.adapter = some (finalStage, rollbackAdapter) →
      finalTasks finalStage source = [t] → t.claimedBy = some actor → SealedActors source [actor]

structure RollbackAccepted (cfg : Config) (s : Store) (id requester sourceId : String) (sc : Script)
    (source : PlanDir) (body : PlanBody) (detail : String) : Prop where
  found : s.plans.lookup sourceId = some source
  succeeded : source.state = .succeeded
  fresh : s.plans.lookup id = none
  planId : body.planId = id
  requesterIs : body.requester = requester
  rollback : body.adapter.isRollback = true
  distributed : body.adapter.isDistributed = source.plan.adapter.isDistributed
  nodes : (body.nodes = source.plan.nodes.reverse ∧ source.plan.adapter.isDistributed = true) ∨
    (body.nodes = source.plan.nodes ∧ source.plan.adapter.isDistributed = false)
  target : body.target = source.plan.target
  actors : ∃ apply, body.sourceApply = some apply ∧ apply.planId = sourceId ∧ SealedActors source apply.actors
  script : sc = ⟨[.plan (newPlan cfg body "rollback_plan_created" detail)], 0⟩

/-- An entry of the lineage names the claimant of its task. -/
theorem lineageEntry_ok {family : RollbackFamily} {sourceId : String} {source : PlanDir} {t : Task}
    {entry : LineageEntry} (h : lineageEntry cfg family sourceId source t = .ok entry) :
    t.claimedBy = some entry.actor := by
  simp only [lineageEntry, bind_ok, ensure_ok, Except.ok.injEq] at h
  obtain ⟨_, _, _, _, _, hid, _, _, _, _, rfl⟩ := h
  cases hc : t.claimedBy with
  | some actor => rfl
  | none =>
      rw [hc] at hid
      exact absurd rfl (opuValidateIdentifier_ok.mp hid).1.1

/-- The actors of a lineage are the claimants of the tasks, no more and no fewer. -/
theorem lineageOf_ok {family : RollbackFamily} {sourceId : String} {source : PlanDir} {ts : List Task}
    {lineage : List LineageEntry} (h : lineageOf cfg family sourceId source ts = .ok lineage) :
    (∀ t ∈ ts, ∃ actor, t.claimedBy = some actor ∧ actor ∈ lineage.map (·.actor)) ∧
      ∀ actor ∈ lineage.map (·.actor), ∃ t ∈ ts, t.claimedBy = some actor := by
  induction ts generalizing lineage with
  | nil =>
      rw [lineageOf, Except.ok.injEq] at h
      subst h
      exact ⟨by simp, by simp⟩
  | cons t ts ih =>
      simp only [lineageOf, bind_ok, Except.ok.injEq] at h
      obtain ⟨entry, hentry, rest, hrest, rfl⟩ := h
      obtain ⟨ih1, ih2⟩ := ih hrest
      have hc := lineageEntry_ok hentry
      constructor
      · intro u hu
        rcases List.mem_cons.mp hu with rfl | hu
        · exact ⟨entry.actor, hc, by simp⟩
        · obtain ⟨actor, h1, h2⟩ := ih1 u hu
          exact ⟨actor, h1, List.mem_cons_of_mem _ h2⟩
      · intro actor hactor
        rcases List.mem_cons.mp hactor with rfl | hactor
        · exact ⟨t, List.mem_cons_self, hc⟩
        · obtain ⟨u, hu, h2⟩ := ih2 actor hactor
          exact ⟨u, List.mem_cons_of_mem t hu, h2⟩

/-- An accepted rollback of a plan that ran on several nodes. -/
theorem createDistributedRollback_ok {family : RollbackFamily} {id requester sourceId windowStart windowEnd : String}
    {source : PlanDir} (hsource : s.plans.lookup sourceId = some source) (hst : source.state = .succeeded)
    (hroll : family.rollbackAdapter.isRollback = true) (hdist : family.rollbackAdapter.isDistributed = true)
    (hsrc : source.plan.adapter.isDistributed = true)
    (h : createDistributedRollback cfg w family s id requester sourceId windowStart windowEnd source = .ok sc) :
    ∃ body detail, RollbackAccepted cfg s id requester sourceId sc source body detail := by
  simp only [createDistributedRollback, bind_ok, ensure_ok, need_ok, Except.ok.injEq] at h
  obtain ⟨_, _, _, _, lineage, hlin, _, _, _, _, _, _, final, _, sha, _, record, _, _, hnone, rfl⟩ := h
  obtain ⟨h1, h2⟩ := lineageOf_ok hlin
  refine ⟨rollbackBody .., _, hsource, hst, by simpa using hnone, rfl, rfl, hroll, hdist.trans hsrc.symm,
    .inl ⟨rfl, hsrc⟩, rfl, ⟨_, rfl, rfl, .lineage _ ?_ ?_ hsrc⟩, rfl⟩
  · intro t ht
    obtain ⟨actor, h3, h4⟩ := h1 t ht
    exact ⟨actor, h3, mem_uniqueTexts.mpr h4⟩
  · exact fun actor hactor => h2 actor (mem_uniqueTexts.mp hactor)

/-- An accepted rollback of a plan of one node. -/
theorem createStandaloneRollback_ok {id requester sourceId windowStart windowEnd : String} {source : PlanDir}
    (hsource : s.plans.lookup sourceId = some source) (hst : source.state = .succeeded)
    (h : createStandaloneRollback cfg w s id requester sourceId windowStart windowEnd source = .ok sc) :
    ∃ body detail, RollbackAccepted cfg s id requester sourceId sc source body detail := by
  rw [createStandaloneRollback, bind_ok] at h
  obtain ⟨⟨finalStage, rollbackAdapter⟩, hadapter, h⟩ := h
  simp only [bind_ok, ensure_ok, need_ok, Except.ok.injEq] at h
  obtain ⟨_, _, _, _, _, _, t, hfinal, _, hid, e, _, _, _, _, _, _, hnone, rfl⟩ := h
  have hfinal' : finalTasks finalStage source = [t] := by
    split at hfinal
    · rename_i heq; injection hfinal with hfinal; rw [heq, hfinal]
    · exact absurd hfinal (by simp)
  have hclaim : ∃ actor, t.claimedBy = some actor := by
    cases hc : t.claimedBy with
    | some actor => exact ⟨actor, rfl⟩
    | none =>
        rw [hc] at hid
        exact absurd rfl (opuValidateIdentifier_ok.mp hid).1.1
  obtain ⟨actor, hclaim⟩ := hclaim
  have hadapter' := need_ok.mp hadapter
  have hkinds : rollbackAdapter.isRollback = true ∧ rollbackAdapter.isDistributed = false ∧
      source.plan.adapter.isDistributed = false := by
    cases hs : source.plan.adapter <;> rw [hs] at hadapter' <;>
      simp [standaloneRollback] at hadapter' <;> rw [← hadapter'.2] <;> exact ⟨rfl, rfl, rfl⟩
  refine ⟨rollbackBody .., _, hsource, hst, by simpa using hnone, rfl, rfl, hkinds.1, hkinds.2.1.trans hkinds.2.2.symm,
    .inr ⟨rfl, hkinds.2.2⟩, rfl, ⟨_, rfl, rfl, ?_⟩, rfl⟩
  have hactor : t.claimedBy.getD "" = actor := by rw [hclaim]; rfl
  simp only [hactor]
  exact .final finalStage rollbackAdapter t actor hadapter' hfinal' hclaim

/-- **An accepted `create-rollback`**, of either kind. -/
theorem createRollback_ok {id requester sourceId windowStart windowEnd : String}
    (h : createRollback cfg w s id requester sourceId windowStart windowEnd = .ok sc) :
    ∃ source body detail, RollbackAccepted cfg s id requester sourceId sc source body detail := by
  rw [createRollback] at h
  rw [check_bind_ok, check_bind_ok, check_bind_ok, ensure_bind_ok] at h
  obtain ⟨_, _, _, _, h⟩ := h
  rw [bind_ok] at h
  obtain ⟨_, _, h⟩ := h
  rw [check_bind_ok, bind_ok] at h
  obtain ⟨_, source, hsource, h⟩ := h
  rw [ensure_bind_ok] at h
  obtain ⟨hst, h⟩ := h
  have hlook := (verifyPlan_ok.mp hsource).1
  refine ⟨source, ?_⟩
  split at h
  · rename_i ha
    exact createDistributedRollback_ok hlook hst rfl rfl (by rw [ha]; rfl) h
  · rename_i ha
    exact createDistributedRollback_ok hlook hst rfl rfl (by rw [ha]; rfl) h
  · rename_i ha
    exact createDistributedRollback_ok hlook hst rfl rfl (by rw [ha]; rfl) h
  · exact createStandaloneRollback_ok hlook hst h

/-- A command that makes the plan `body`. -/
inductive CreationAccepted (cfg : Config) (s : Store) (i : Invocation) (sc : Script) (body : PlanBody) : Prop
  | apply {requester windowStart windowEnd : String} {inputs : Inputs} :
      i.command = .create requester windowStart windowEnd →
      CreateAccepted cfg i.world s i.id requester sc inputs body → CreationAccepted cfg s i sc body
  | rollback {requester sourceId windowStart windowEnd detail : String} {source : PlanDir} :
      i.command = .createRollback requester sourceId windowStart windowEnd →
      RollbackAccepted cfg s i.id requester sourceId sc source body detail → CreationAccepted cfg s i sc body

/-- Nobody is created over a plan that exists. -/
theorem CreationAccepted.fresh {i : Invocation} {body : PlanBody} (h : CreationAccepted cfg s i sc body) :
    s.plans.lookup i.id = none := by
  cases h with
  | apply _ h => exact h.fresh
  | rollback _ h => exact h.fresh

theorem CreationAccepted.writes {i : Invocation} {body : PlanBody} (h : CreationAccepted cfg s i sc body) :
    ∃ event detail, sc.writes = [.plan (newPlan cfg body event detail)] := by
  cases h with
  | apply _ h => exact ⟨_, _, congrArg Script.writes h.script⟩
  | rollback _ h => exact ⟨_, _, congrArg Script.writes h.script⟩

/-! ## Approve, authorize and dispatch -/

structure ApproveAccepted (cfg : Config) (w : World) (s : Store) (id actor ticket : String) (sc : Script)
    (d : PlanDir) : Prop where
  plan : verifyPlan cfg s id = .ok d
  state : d.state = .awaitingApproval
  requester : actor ≠ d.plan.requester
  workers : d.plan.adapter.isRollback = true → actor ∉ d.plan.sourceActors
  fresh : d.approval = none
  script : sc = ⟨.approval ⟨id, d.plan.planSha256, d.plan.requester, actor, ticket, w.nowUtc⟩ ::
    transition .awaitingApproval .approved actor ("approval_ticket=" ++ ticket), 0⟩

/-- **An accepted `approve`.** -/
theorem approve_ok {id actor ticket : String} (h : approve cfg w s id actor ticket = .ok sc) :
    ∃ d, ApproveAccepted cfg w s id actor ticket sc d := by
  simp only [approve, bind_ok, ensure_ok, Except.ok.injEq] at h
  obtain ⟨_, _, _, _, _, _, d, hd, _, hst, _, _, _, hreq, _, hwork, _, _, _, hnone, rfl⟩ := h
  exact ⟨d, hd, hst, hreq, hwork, by simpa using hnone, rfl⟩

structure AuthorizeAccepted (cfg : Config) (w : World) (s : Store) (id actor : String) (sc : Script)
    (d : PlanDir) (a : Approval) : Prop where
  plan : verifyPlan cfg s id = .ok d
  state : d.state = .approved
  approval : d.approval = some a
  bound : a.planId = id ∧ a.planSha256 = d.plan.planSha256 ∧ a.requester = d.plan.requester
  distinct : actor ≠ d.plan.requester ∧ actor ≠ a.actor
  workers : d.plan.adapter.isRollback = true → actor ∉ d.plan.sourceActors
  fresh : d.authorization = none
  script : sc = ⟨.authorization ⟨id, d.plan.planSha256, actor, w.nowUtc, cfg.hashFile (.approval a),
    cfg.hashString (.approval a)⟩ ::
    transition .approved .executionAuthorized actor "window_open_and_approval_verified", 0⟩

/-- **An accepted `authorize`**: the approval it relies on is in the record. -/
theorem authorize_ok {id actor : String} (h : authorize cfg w s id actor = .ok sc) :
    ∃ d a, AuthorizeAccepted cfg w s id actor sc d a := by
  simp only [authorize, bind_ok, ensure_ok, Except.ok.injEq] at h
  obtain ⟨_, _, _, _, _, _, d, hd, _, hst, _, _, a, ha, _, hbound, _, hdist, _, hwork, _, _, _, hnone, rfl⟩ := h
  exact ⟨d, a, hd, hst, (verifySealedRecord_ok.mp ha).2, hbound, hdist, hwork, by simpa using hnone, rfl⟩

structure DispatchAccepted (cfg : Config) (w : World) (s : Store) (id actor : String) (sc : Script)
    (d : PlanDir) (a : Approval) (z : Authorization) : Prop where
  plan : verifyPlan cfg s id = .ok d
  state : d.state = .executionAuthorized
  approval : d.approval = some a
  authorization : d.authorization = some z
  operator : actor = z.actor
  bound : z.planId = id ∧ z.planSha256 = d.plan.planSha256 ∧ z.approvalSha256 = cfg.hashFile (.approval a) ∧
    z.approvalRecordSha256 = cfg.hashString (.approval a)
  fresh : d.tasks = none
  script : sc = dispatchScript cfg w id d actor (dispatchedTasks cfg d.plan z)

/-- **An accepted `dispatch`**: approval and authorization are in the record. -/
theorem dispatch_ok {id actor : String} (h : dispatch cfg w s id actor = .ok sc) :
    ∃ d a z, DispatchAccepted cfg w s id actor sc d a z := by
  simp only [dispatch, bind_ok, ensure_ok, Except.ok.injEq] at h
  obtain ⟨_, _, _, _, _, _, d, hd, _, hst, _, _, _, _, _, _, a, ha, z, hz, _, hop, _, hbound, _, hnone, rfl⟩ := h
  exact ⟨d, a, z, hd, hst, (verifySealedRecord_ok.mp ha).2, (verifySealedRecord_ok.mp hz).2, hop, hbound,
    by simpa using hnone, rfl⟩

/-! ## Claim and renew -/

structure ClaimAccepted (cfg : Config) (w : World) (s : Store) (id taskId actor lease : String) (sc : Script)
    (d : PlanDir) (t : Task) (expiry : Int) : Prop where
  plan : verifyPlan cfg s id = .ok d
  state : d.state = .running
  sound : ∀ t ∈ d.tasks.getD [], Sealed cfg d.plan.planSha256 t ∧ t.status ≠ .running ∧ t.status ≠ .unknown
  manifest : verifyTaskManifest cfg id d = .ok ()
  reservation : verifyReservation cfg w 0 s id = .ok ()
  first : ∃ f, (d.tasks.getD []).find? (fun t => decide (t.status = .pending)) = some f ∧ f.taskId = taskId
  task : d.task? taskId = some t
  intact : Sealed cfg d.plan.planSha256 t
  actorShape : opuValidateIdentifier actor "actor" = .ok ()
  lease : boundedLeaseExpiry cfg w d.plan lease 2 = .ok expiry
  script : sc = ⟨[.task (claimedTask t actor (w.clock 1) expiry),
    .event ⟨"task_claimed", .running, actor,
      "task_id=" ++ taskId ++ " lease_expires_epoch=" ++ toString expiry⟩], 0⟩

/-- **An accepted `claim`.** -/
theorem claim_ok {id taskId actor lease : String} (h : claim cfg w s id taskId actor lease = .ok sc) :
    ∃ d t expiry, ClaimAccepted cfg w s id taskId actor lease sc d t expiry := by
  simp only [claim, bind_ok, ensure_ok, verifyTaskFile_ok, Except.ok.injEq] at h
  obtain ⟨_, _, _, _, _, hactor, _, _, d, hd, _, hst, _, _, _, hall, _, hman, _, hres, f, hnext, _, hf, t, ht,
    expiry, hexp, rfl⟩ := h
  rw [next, bind_ok] at hnext
  obtain ⟨d', hd', hnext⟩ := hnext
  rw [ensure_bind_ok] at hnext
  have hdd : d = d' := by rw [hd] at hd'; injection hd'
  subst hdd
  have hsound := fun t ht => claimable_ok.mp (forEach_ok.mp hall t ht)
  exact ⟨d, t, expiry, hd, hst, hsound, hman, hres, ⟨f, nextIn_ok hnext.2, hf⟩, ht.1, ht.2, hactor, hexp, rfl⟩

structure RenewAccepted (cfg : Config) (w : World) (s : Store) (id taskId actor lease : String) (sc : Script)
    (d : PlanDir) (t : Task) (expiry : Int) : Prop where
  plan : verifyPlan cfg s id = .ok d
  state : d.state = .running
  task : d.task? taskId = some t
  intact : Sealed cfg d.plan.planSha256 t
  claimant : t.claimedBy = some actor
  unexpired : w.clock 1 < t.leaseExpiresEpoch.getD 0
  status : t.status = .running
  lease : boundedLeaseExpiry cfg w d.plan lease 2 = .ok expiry
  script : sc = ⟨[.task (renewedTask t (w.clock 1) expiry),
    .event ⟨"task_lease_renewed", .running, actor,
      "task_id=" ++ taskId ++ " lease_expires_epoch=" ++ toString expiry⟩], 0⟩

/-- **An accepted `renew`.** -/
theorem renew_ok {id taskId actor lease : String} (h : renew cfg w s id taskId actor lease = .ok sc) :
    ∃ d t expiry, RenewAccepted cfg w s id taskId actor lease sc d t expiry := by
  simp only [renew, bind_ok, ensure_ok, verifyTaskFile_ok, Except.ok.injEq] at h
  obtain ⟨_, _, _, _, _, _, _, _, d, hd, _, hst, _, _, _, _, t, ht, _, hclaim, _, hexp, _, hrun, expiry, hlease,
    rfl⟩ := h
  exact ⟨d, t, expiry, hd, hst, ht.1, ht.2, hclaim, hexp, hrun, hlease, rfl⟩

/-! ## Complete, reconcile and retry -/

/-- The two words that `complete` takes. -/
theorem completionStatus_ok {status : String} {result : TaskStatus} (h : completionStatus status = some result) :
    (status = "succeeded" ∧ result = .succeeded) ∨ (status = "failed" ∧ result = .failed) := by
  unfold completionStatus at h
  split at h
  · rename_i hs; injection h with h; exact .inl ⟨hs, h.symm⟩
  · split at h
    · rename_i hs; injection h with h; exact .inr ⟨hs, h.symm⟩
    · exact absurd h (by simp)

structure CompleteAccepted (cfg : Config) (w : World) (s : Store) (id taskId actor status evidenceFile : String)
    (sc : Script) (d : PlanDir) (t : Task) (result : TaskStatus) (e : ExecutionEvidence) (c : Custodied)
    (late : Bool) : Prop where
  planId : opuValidateIdentifier id "plan ID" = .ok ()
  taskIdShape : opuValidateIdentifier taskId "task ID" = .ok ()
  actorShape : opuValidateIdentifier actor "actor" = .ok ()
  plan : verifyPlan cfg s id = .ok d
  state : d.state = .running
  task : d.task? taskId = some t
  intact : Sealed cfg d.plan.planSha256 t
  reservation : verifyReservation cfg w 0 s id = .ok ()
  outcome : completionStatus status = some result
  evidence : verifyExecutionEvidence cfg w id taskId actor status evidenceFile d.plan t = .ok e
  claimant : t.claimedBy = some actor
  running : t.status = .running
  custody : custodyExecutionEvidence cfg w id taskId evidenceFile e t.retryCount d = .ok c
  script : let done := completedTask t result evidenceFile e c (w.clock 0) late
    let rest := afterCompletion cfg w id ((d.putCustody c.leaf c.dir).putTask (sealTaskResult cfg done)) taskId
      actor result late
    sc = ⟨[.custody c.leaf c.dir, .task done, .task (sealTaskResult cfg done)] ++ rest.writes, rest.exitCode⟩

/-- **An accepted `complete`**: the evidence that was read and sealed is part of it. -/
theorem complete_ok {id taskId actor status evidenceFile evidenceSha256 : String}
    (h : complete cfg w s id taskId actor status evidenceFile evidenceSha256 = .ok sc) :
    ∃ d t result e c late,
      CompleteAccepted cfg w s id taskId actor status evidenceFile sc d t result e c late := by
  simp only [complete, bind_ok, ensure_ok, need_ok, verifyTaskFile_ok, Except.ok.injEq] at h
  obtain ⟨_, hid, _, htask, _, hactor, result, hresult, _, _, _, _, d, hd, _, hst, t, ht, _, hres, _, _, e, he, _,
    hclaim, _, hrun, _, _, c, hc, rfl⟩ := h
  exact ⟨d, t, result, e, c, _, hid, htask, hactor, hd, hst, ht.1, ht.2, hres, hresult, he, hclaim, hrun, hc, rfl⟩

/-- A reconciliation either releases the reservation of a plan that has succeeded, or gives an expired task the
    result `unknown` and pauses the plan. -/
inductive ReconcileAccepted (cfg : Config) (w : World) (s : Store) (id actor : String) (sc : Script) : Prop
  | released (d : PlanDir) (plan : verifyPlan cfg s id = .ok d) (state : d.state = .succeeded)
      (manifest : verifyTaskManifest cfg id d = .ok ()) (custody : verifyAllCustody cfg id d = .ok ())
      (audit : d.events.any isCompletionEvent = true)
      (script : sc.writes = .event ⟨"successful_plan_reconciled", .succeeded, actor,
        "custody_verified_before_reservation_release"⟩ :: if registryOpen cfg w 0 then [.release] else [])
      (exitCode : sc.exitCode = if registryOpen cfg w 0 then 0 else 75)
  | expired (d : PlanDir) (t : Task) (plan : verifyPlan cfg s id = .ok d) (state : d.state = .running)
      (member : t ∈ d.tasks.getD []) (intact : Sealed cfg d.plan.planSha256 t) (running : t.status = .running)
      (script : sc = ⟨[.task (expiredTask t (w.clock 0)),
          .task (sealTaskResult cfg (expiredTask t (w.clock 0)))] ++
        transition .running .paused actor ("lease_expired_task=" ++ t.taskId) ++
        [.event ⟨"task_outcome_unknown", .paused, actor, "task_id=" ++ t.taskId⟩], 0⟩)

/-- **An accepted `reconcile`**, of an expired task or of a completion that was cut short. -/
theorem reconcile_ok {id actor : String} (h : reconcile cfg w s id actor = .ok sc) :
    ReconcileAccepted cfg w s id actor sc := by
  rw [reconcile, check_bind_ok, check_bind_ok, bind_ok] at h
  obtain ⟨_, _, d, hd, h⟩ := h
  by_cases hst : d.state = .succeeded
  · rw [if_pos hst, check_bind_ok, check_bind_ok, ensure_bind_ok, Except.ok.injEq] at h
    obtain ⟨hman, hcus, haudit, hsc⟩ := h
    refine .released d hd hst hman hcus haudit ?_ ?_
    · rw [← hsc]; split <;> rfl
    · rw [← hsc]; split <;> rfl
  · rw [if_neg hst, ensure_bind_ok, bind_ok] at h
    obtain ⟨hrun, t, ht, h⟩ := h
    rw [Except.ok.injEq] at h
    obtain ⟨h1, h2, h3, _⟩ := expiredIn_ok ht
    exact .expired d t hd hrun h1 h2 h3 h.symm

structure RetryAccepted (cfg : Config) (w : World) (s : Store) (id taskId actor : String) (sc : Script)
    (d : PlanDir) (t : Task) (archive : List Write) : Prop where
  plan : verifyPlan cfg s id = .ok d
  state : d.state = .paused
  paused : lastPausedDetail d.events = "task_failed=" ++ taskId
  task : d.task? taskId = some t
  intact : Sealed cfg d.plan.planSha256 t
  failed : t.status = .failed
  custody : ∃ j, verifySourceTaskCustody cfg id d t .failed = .ok j
  manifest : verifyTaskManifest cfg id d = .ok ()
  reservation : verifyReservation cfg w 0 s id = .ok ()
  archived : (d.attempts taskId t.retryCount = none ∧ archive = [.attempt taskId t.retryCount t]) ∨
    (d.attempts taskId t.retryCount = some t ∧ archive = [])
  script : sc = ⟨archive ++ [.task (reopenedTask t), .task (sealTaskAttempt cfg (reopenedTask t))] ++
    transition .paused .running actor ("task_retried=" ++ taskId), 0⟩

/-- **An accepted `retry-task`**: the failed attempt is archived. -/
theorem retryTask_ok {id taskId actor : String} (h : retryTask cfg w s id taskId actor = .ok sc) :
    ∃ d t archive, RetryAccepted cfg w s id taskId actor sc d t archive := by
  simp only [retryTask, bind_ok, ensure_ok, verifyTaskFile_ok, Except.ok.injEq] at h
  obtain ⟨_, _, _, _, _, _, d, hd, _, hst, _, _, _, hpaused, t, ht, _, hfail, j, hj, _, _, _, hman, _, hres,
    archive, harch, rfl⟩ := h
  refine ⟨d, t, archive, hd, hst, hpaused, ht.1, ht.2, hfail, ⟨j, hj⟩, hman, hres, ?_, rfl⟩
  cases ha : d.attempts taskId t.retryCount with
  | none =>
      rw [ha, attemptArchive, Except.ok.injEq] at harch
      exact .inl ⟨rfl, harch.symm⟩
  | some archived =>
      rw [ha, attemptArchive, ensure_bind_ok, Except.ok.injEq] at harch
      exact .inr ⟨congrArg some harch.1, harch.2.symm⟩

end OraclePatching
