import OraclePatching.Correctness.AttemptHistory

/-!
# `Correctness.SeparationOfDuties` — who may approve, authorize and dispatch which plan

Within one plan the rule is kept by three comparisons, `Separated`. For a rollback plan it also speaks of the workers
of another plan, whom `approve` and `authorize` know from the list sealed by `create-rollback` only. That list is
complete when every worker who ever claimed a task of the source can still be seen in the files it is computed from
(`claimantsSealed`): all task files of a RAC or Grid plan, the final task file of a standalone plan.
-/

namespace OraclePatching

/-! ## One plan

Requester, approver and operator of one plan are told apart when their papers are made, and the papers do not
change. -/

structure Separated (d : PlanDir) : Prop where
  approver : ∀ a, d.approval = some a → a.actor ≠ d.plan.requester ∧
    (d.plan.adapter.isRollback = true → a.actor ∉ d.plan.sourceActors)
  operator : ∀ z, d.authorization = some z → z.actor ≠ d.plan.requester ∧
    (∃ a, d.approval = some a ∧ z.actor ≠ a.actor) ∧
      (d.plan.adapter.isRollback = true → z.actor ∉ d.plan.sourceActors)
  authorized : d.state ≠ .awaitingApproval → d.state ≠ .approved → ∃ z, d.authorization = some z
  rollback : d.plan.adapter.isRollback = true → ∃ apply, d.plan.sourceApply = some apply

section
variable {cfg : Config} {s : Store} {i : Invocation} {d d' : PlanDir}

/-- A plan whose approval and authorization stay, and whose state leaves the first two states only with them. -/
theorem Separated.congr (h : Separated d) (hplan : d'.plan = d.plan) (happroval : d'.approval = d.approval)
    (hauthorization : d'.authorization = d.authorization)
    (hstate : d'.state = d.state ∨ (d.state ≠ .awaitingApproval ∧ d.state ≠ .approved)) : Separated d' := by
  refine ⟨?_, ?_, fun h1 h2 => ?_, by rw [hplan]; exact h.rollback⟩
  · rw [hplan, happroval]
    exact h.approver
  · rw [hplan, happroval, hauthorization]
    exact h.operator
  · rw [hauthorization]
    rcases hstate with hs | ⟨h3, h4⟩
    · exact h.authorized (hs ▸ h1) (hs ▸ h2)
    · exact h.authorized h3 h4

theorem separated_created {sc : Script} {body : PlanBody} {event detail : String}
    (h : CreationAccepted cfg s i sc body) : Separated (newPlan cfg body event detail) := by
  refine ⟨nofun, nofun, fun hst => absurd rfl hst, fun hroll => ?_⟩
  cases h with
  | apply _ hacc =>
      rw [show (newPlan cfg body event detail).plan.adapter = body.adapter from rfl, hacc.adapter, hacc.apply] at hroll
      exact absurd hroll (by simp)
  | rollback _ hacc =>
      obtain ⟨apply, happly, _⟩ := hacc.actors
      exact ⟨apply, happly⟩

/-- The end of a completion changes no papers. -/
theorem Concluded.papers {taskId actor : String} {status : TaskStatus} {late : Bool}
    (h : Concluded d taskId actor status late d') :
    d'.plan = d.plan ∧ d'.approval = d.approval ∧ d'.authorization = d.authorization := by
  cases h <;> exact ⟨rfl, rfl, rfl⟩

/-- **Step lemma.** Every whole command keeps requester, approver and operator apart. -/
theorem separated_step (h : ∀ d, s.plans.lookup i.id = some d → Separated d) (heffect : Effect cfg s i d') :
    Separated d' := by
  have hlook : ∀ {e : PlanDir}, verifyPlan cfg s i.id = .ok e → Separated e := fun he => h _ (verifyPlan_ok.mp he).1
  cases heffect with
  | created hcreate => exact separated_created hcreate
  | @approved actor ticket _ d _ hacc =>
      have hd := hlook hacc.plan
      refine ⟨?_, fun z hz => ?_, fun _ hst => absurd rfl hst, hd.rollback⟩
      · rintro a ⟨⟩
        exact ⟨hacc.requester, hacc.workers⟩
      · -- nobody is authorized before the approval
        obtain ⟨_, ⟨a, ha, _⟩, _⟩ := hd.operator z hz
        rw [hacc.fresh] at ha
        exact absurd ha (by simp)
  | @authorized actor _ d a _ hacc =>
      have hd := hlook hacc.plan
      refine ⟨hd.approver, ?_, fun _ _ => ⟨_, rfl⟩, hd.rollback⟩
      rintro z ⟨⟩
      exact ⟨hacc.distinct.1, ⟨a, hacc.approval, hacc.distinct.2⟩, hacc.workers⟩
  | undispatched _ hacc => exact (hlook hacc.plan).congr rfl rfl rfl (.inl rfl)
  | dispatched _ hacc =>
      exact (hlook hacc.plan).congr rfl rfl rfl (.inr (by rw [hacc.state]; exact ⟨by simp, by simp⟩))
  | claimed _ hacc => exact (hlook hacc.plan).congr rfl rfl rfl (.inl rfl)
  | renewed _ hacc => exact (hlook hacc.plan).congr rfl rfl rfl (.inl rfl)
  | completed _ hacc hc =>
      obtain ⟨h1, h2, h3⟩ := hc.papers
      exact (hlook hacc.plan).congr h1 h2 h3 (.inr (by rw [hacc.state]; exact ⟨by simp, by simp⟩))
  | released _ hd => exact (h _ hd).congr rfl rfl rfl (.inl rfl)
  | expired _ _ _ hd hst => exact (h _ hd).congr rfl rfl rfl (.inr (by rw [hst]; exact ⟨by simp, by simp⟩))
  | retried _ hacc =>
      exact (hlook hacc.plan).congr rfl rfl rfl (.inr (by rw [hacc.state]; exact ⟨by simp, by simp⟩))

/-- A plan that has succeeded stays so. -/
theorem Effect.succeeded (hd : s.plans.lookup i.id = some d) (hst : d.state = .succeeded) (h : Effect cfg s i d') :
    d'.state = .succeeded := by
  have hother : ∀ {e : PlanDir} {state : PlanState}, verifyPlan cfg s i.id = .ok e → e.state = state →
      state ≠ .succeeded → False := fun he hs hne => by
    obtain rfl := Option.some.inj ((verifyPlan_ok.mp he).1.symm.trans hd)
    exact hne (hs.symm.trans hst)
  cases h with
  | created hcreate => exact absurd (hd.symm.trans hcreate.fresh) (by simp)
  | approved _ hacc => exact (hother hacc.plan hacc.state (by simp)).elim
  | authorized _ hacc => exact (hother hacc.plan hacc.state (by simp)).elim
  | undispatched _ hacc => exact (hother hacc.plan hacc.state (by simp)).elim
  | dispatched _ hacc => exact (hother hacc.plan hacc.state (by simp)).elim
  | claimed _ hacc => exact (hother hacc.plan hacc.state (by simp)).elim
  | renewed _ hacc => exact (hother hacc.plan hacc.state (by simp)).elim
  | completed _ hacc _ => exact (hother hacc.plan hacc.state (by simp)).elim
  | released _ _ hst => exact hst
  | expired _ _ _ hd' hst' =>
      obtain rfl := Option.some.inj (hd.symm.trans hd')
      exact absurd (hst.symm.trans hst') (by simp)
  | retried _ hacc => exact (hother hacc.plan hacc.state (by simp)).elim

/-- Claims are granted to the worker who asks, on running plans only. -/
theorem deeds_claimed {id taskId actor : String} {g : Nat} (h : .claimed id taskId g actor ∈ deeds cfg s i) :
    (∃ lease, i.command = .claim taskId actor lease) ∧ id = i.id ∧
      ∃ d, s.plans.lookup i.id = some d ∧ d.state = .running := by
  cases hsc : script cfg s i with
  | error e => cases hcmd : i.command <;> simp [deeds, hcmd, hsc] at h
  | ok sc =>
      cases hcmd : i.command <;> simp only [deeds, hcmd, hsc, List.mem_singleton, List.not_mem_nil] at h
      case claim =>
        simp only [script, hcmd] at hsc
        obtain ⟨d, t, expiry, hacc⟩ := claim_ok hsc
        obtain ⟨rfl, rfl, -, rfl⟩ := Deed.claimed.inj h
        exact ⟨⟨_, rfl⟩, rfl, d, (verifyPlan_ok.mp hacc.plan).1, hacc.state⟩
      case complete => exact absurd h (by simp)
      case reconcile =>
        split at h
        · exact absurd h (by simp)
        · exact absurd h (by simp)

end

/-! ## The condition

A rollback seals who worked on its source. The standalone kind takes the worker of the final task alone, so the
claim needs that this was the only one. -/

/-- A rollback plan is created when every worker who ever claimed a task of its source is still the claimant of one
    of its task files, for a standalone source the claimant of its final task. A command that is refused creates
    nothing, and nothing is asked of it. -/
def claimantsSealed (cfg : Config) (h : History) (i : Invocation) : Prop :=
  ∀ requester sourceId windowStart windowEnd sc source,
    i.command = .createRollback requester sourceId windowStart windowEnd → script cfg h.store i = .ok sc →
      h.store.plans.lookup sourceId = some source →
        ∀ taskId g worker, .claimed sourceId taskId g worker ∈ h.deeds →
          match standaloneRollback source.plan.adapter with
          | some (finalStage, _) => ∀ t ∈ finalTasks finalStage source, t.claimedBy = some worker
          | none => ∃ t ∈ source.files, t.claimedBy = some worker

/-- Histories of whole commands in which rollback plans are created under that condition. -/
def RecordedSealed (cfg : Config) : List Invocation → History → Prop :=
  Trace.Run (fun h i => some (h.after cfg i)) (· = ⟨Store.empty, []⟩)
    fun h i => i.killedAfter = none ∧ claimantsSealed cfg h i

/-! ## Two plans -/

/-- The workers of a rollback plan's source are the actors it seals, and there will be no more. -/
def SourceSealed (h : History) (d : PlanDir) : Prop :=
  ∀ apply, d.plan.sourceApply = some apply →
    (∃ source, h.store.plans.lookup apply.planId = some source ∧ source.state = .succeeded) ∧
      ∀ taskId g worker, .claimed apply.planId taskId g worker ∈ h.deeds → worker ∈ apply.actors

section
variable {cfg : Config} {h : History} {i : Invocation} {d : PlanDir}

/-- **Step lemma.** A plan that has succeeded gets no further claims. -/
theorem SourceSealed.after (hd : SourceSealed h d) (hwhole : i.killedAfter = none) :
    SourceSealed (h.after cfg i) d := by
  intro apply happly
  obtain ⟨⟨source, hsource, hst⟩, hclaims⟩ := hd apply happly
  constructor
  · obtain ⟨source', hsource'⟩ := after_lookup_some cfg i hsource
    refine ⟨source', hsource', ?_⟩
    rcases whole_effect hwhole hsource' with ⟨h1, _⟩ | ⟨h1, heffect, _⟩
    · obtain rfl := Option.some.inj (hsource.symm.trans h1)
      exact hst
    · exact heffect.succeeded (h1 ▸ hsource) hst
  · intro taskId g worker hclaim
    rcases List.mem_append.mp hclaim with hclaim | hclaim
    · exact hclaims taskId g worker hclaim
    · obtain ⟨-, h1, e, he, hrun⟩ := deeds_claimed hclaim
      rw [← h1] at he
      obtain rfl := Option.some.inj (hsource.symm.trans he)
      exact absurd (hst.symm.trans hrun) (by simp)

/-- A rollback plan created under the condition seals every worker of its source. -/
theorem sourceSealed_rollback {id requester sourceId windowStart windowEnd : String} {sc : Script}
    {source : PlanDir} {body : PlanBody} {event detail detail' : String} (hcond : claimantsSealed cfg h i)
    (hcmd : i.command = .createRollback requester sourceId windowStart windowEnd)
    {accepted : Script} (hsc : script cfg h.store i = .ok accepted)
    (hacc : RollbackAccepted cfg h.store id requester sourceId sc source body detail) :
    SourceSealed h (newPlan cfg body event detail') := by
  obtain ⟨apply, happly, hplan, hactors⟩ := hacc.actors
  intro apply' happly'
  obtain rfl : apply = apply' := Option.some.inj (happly.symm.trans happly')
  rw [hplan]
  refine ⟨⟨source, hacc.found, hacc.succeeded⟩, fun taskId g worker hclaim => ?_⟩
  have hseen := hcond requester sourceId windowStart windowEnd accepted source hcmd hsc hacc.found taskId g worker hclaim
  generalize hgen : apply.actors = actors at hactors
  cases hactors with
  | lineage _ hall _ hdist =>
      have hnone : standaloneRollback source.plan.adapter = none := by
        cases ha : source.plan.adapter <;> rw [ha] at hdist <;> simp [Adapter.isDistributed] at hdist <;> rfl
      rw [hnone] at hseen
      obtain ⟨t, ht, hclaimed⟩ := hseen
      obtain ⟨actor, h1, h2⟩ := hall t ht
      obtain rfl : worker = actor := Option.some.inj (hclaimed.symm.trans h1)
      exact h2
  | final finalStage rollbackAdapter t actor hadapter hfinal hclaimed =>
      rw [hadapter] at hseen
      have hworker := hseen t (by rw [hfinal]; exact List.mem_cons_self)
      obtain rfl : worker = actor := Option.some.inj (hworker.symm.trans hclaimed)
      exact List.mem_cons_self

end

/-! ## Runs -/

section
variable {cfg : Config} {as : List Invocation} {h : History}

theorem recordedSealed_recorded (hr : RecordedSealed cfg as h) : Recorded cfg as h := hr.mono fun _ _ => And.left

/-- The papers of every plan are told apart. -/
theorem separated_reached (hr : Recorded cfg as h) : ∀ id d, h.store.plans.lookup id = some d → Separated d := by
  refine Trace.Run.invariant (I := fun _ s => ∀ id d, s.plans.lookup id = some d → Separated d) ?_ ?_
    (recorded_reached hr)
  · intro s hs id d hd
    rw [hs] at hd
    exact absurd hd (by simp [Store.empty])
  · intro _ s i s' _ ih hwhole hs' id d' hd'
    injection hs' with hs'
    rw [← hs'] at hd'
    rcases whole_effect hwhole hd' with ⟨h1, _⟩ | ⟨rfl, heffect, _⟩
    · exact ih id d' h1
    · exact separated_step (ih i.id) heffect

/-- Every rollback has sealed the workers of its source. -/
theorem sourceSealed_reached (hr : RecordedSealed cfg as h) :
    ∀ id d, h.store.plans.lookup id = some d → SourceSealed h d := by
  refine Trace.Run.invariant (I := fun _ h => ∀ id d, h.store.plans.lookup id = some d → SourceSealed h d) ?_ ?_ hr
  · rintro h rfl id d hd
    exact absurd hd (by simp [Store.empty])
  · rintro as h i h' _ ih ⟨hwhole, hcond⟩ hs id d' hd'
    injection hs with hs
    subst hs
    cases hscript : script cfg h.store i with
    | error e =>
        -- a refused command leaves the store as it was
        refine (ih id d' ?_).after hwhole
        rwa [History.after, after, hscript] at hd'
    | ok accepted =>
        rcases after_cases hd' with hd | ⟨rfl, sc, body, event, detail, hcreate, rfl⟩ | ⟨rfl, d, sc, hd, _, hran⟩
        · exact (ih id d' hd).after hwhole
        · cases hcreate with
          | apply _ hacc =>
              intro apply happly
              rw [show (newPlan cfg body event detail).plan.sourceApply = body.sourceApply from rfl,
                hacc.noSource] at happly
              exact absurd happly (by simp)
          | rollback hcmd hacc => exact SourceSealed.after (sourceSealed_rollback hcond hcmd hscript hacc) hwhole
        · have hd₀ : SourceSealed (h.after cfg i) d := (ih i.id d hd).after hwhole
          unfold SourceSealed at hd₀ ⊢
          rwa [(reached_cut hran).plan]

end

/-! ## Separation of duties -/

structure SeparationOfDuties (cfg : Config) (h : History) (d : PlanDir) : Prop where
  distinct : d.state ≠ .awaitingApproval → d.state ≠ .approved →
    ∃ a z, d.approval = some a ∧ d.authorization = some z ∧ a.actor ≠ d.plan.requester ∧
      z.actor ≠ d.plan.requester ∧ z.actor ≠ a.actor
  dispatched : ∀ i actor sc, h.store.plans.lookup i.id = some d → i.command = .dispatch actor →
    script cfg h.store i = .ok sc → ∃ z, d.authorization = some z ∧ z.actor = actor
  rollback : d.plan.adapter.isRollback = true → ∃ apply, d.plan.sourceApply = some apply ∧
    ∀ taskId g worker, .claimed apply.planId taskId g worker ∈ h.deeds →
      (∀ a, d.approval = some a → worker ≠ a.actor) ∧ ∀ z, d.authorization = some z → worker ≠ z.actor

/-- **Separation of duties.** In a history in which every rollback plan is created while all the workers of its
    source can still be seen, requester, approver and operator of a plan are three people, the operator alone
    dispatches it, and neither approver nor operator of a rollback plan ever held a claim on its source. -/
theorem separation_of_duties {cfg : Config} {as : List Invocation} {h : History} (hr : RecordedSealed cfg as h)
    {id : String} {d : PlanDir} (hd : h.store.plans.lookup id = some d) : SeparationOfDuties cfg h d := by
  have hsep := separated_reached (recordedSealed_recorded hr) id d hd
  have hsource := sourceSealed_reached hr id d hd
  refine ⟨fun h1 h2 => ?_, fun i actor sc hi hcmd hsc => ?_, fun hroll => ?_⟩
  · obtain ⟨z, hz⟩ := hsep.authorized h1 h2
    obtain ⟨hreq, ⟨a, ha, hne⟩, _⟩ := hsep.operator z hz
    exact ⟨a, z, ha, hz, (hsep.approver a ha).1, hreq, hne⟩
  · simp only [script, hcmd] at hsc
    obtain ⟨e, a, z, hacc⟩ := dispatch_ok hsc
    obtain rfl := Option.some.inj ((verifyPlan_ok.mp hacc.plan).1.symm.trans hi)
    exact ⟨z, hacc.authorization, hacc.operator.symm⟩
  · obtain ⟨apply, happly⟩ := hsep.rollback hroll
    have hactors : d.plan.sourceActors = apply.actors := by rw [PlanBody.sourceActors, happly]; rfl
    refine ⟨apply, happly, fun taskId g worker hclaim => ?_⟩
    have hworker := (hsource apply happly).2 taskId g worker hclaim
    refine ⟨fun a ha hw => (hsep.approver a ha).2 hroll ?_, fun z hz hw => (hsep.operator z hz).2.2 hroll ?_⟩
    · rw [hactors, ← hw]
      exact hworker
    · rw [hactors, ← hw]
      exact hworker

/-- Whole commands among which no rollback plan is created keep the condition. -/
theorem RecordedSealed.extend {cfg : Config} {as : List Invocation} {h : History} (hr : RecordedSealed cfg as h)
    (is : List Invocation) (hwhole : ∀ i ∈ is, i.killedAfter = none)
    (happly : ∀ i ∈ is, ∀ requester sourceId windowStart windowEnd,
      i.command ≠ .createRollback requester sourceId windowStart windowEnd) :
    RecordedSealed cfg (as ++ is) (is.foldl (History.after cfg) h) := by
  induction is using List.reverseRecOn with
  | nil =>
      rw [List.append_nil]
      exact hr
  | append_singleton is i ih =>
      rw [List.foldl_append, ← List.append_assoc]
      have hi : i ∈ is ++ [i] := List.mem_append_right is List.mem_cons_self
      refine .snoc (ih (fun j hj => hwhole j (List.mem_append_left _ hj)) fun j hj => happly j (List.mem_append_left _ hj))
        ⟨hwhole i hi, ?_⟩ rfl
      intro requester sourceId windowStart windowEnd _ _ hcmd
      exact absurd hcmd (happly i hi requester sourceId windowStart windowEnd)

/-- A claim is granted to the worker who asked for it. -/
theorem claimed_actor {cfg : Config} {is : List Invocation} {id taskId worker : String} {g : Nat}
    (h : .claimed id taskId g worker ∈ (replayHistory cfg is).deeds) :
    ∃ i ∈ is, ∃ lease, i.command = .claim taskId worker lease := by
  induction is using List.reverseRecOn with
  | nil => exact absurd h (by simp [replayHistory])
  | append_singleton is i ih =>
      rw [replayHistory, List.foldl_append] at h
      rcases List.mem_append.mp h with h | h
      · obtain ⟨j, hj, hcmd⟩ := ih h
        exact ⟨j, List.mem_append_left _ hj, hcmd⟩
      · exact ⟨i, List.mem_append_right is List.mem_cons_self, (deeds_claimed h).1⟩

/-! ## A rollback of `p1` -/

/-- `p1` worked off, the first task by `first` and the others by eve. -/
def labApplied (first : String) : List Invocation :=
  labDispatched ++ [labClaim 1 first, labComplete 1 first .succeeded 0] ++
    [2, 3, 4, 5].flatMap fun index => [labClaim index "eve", labComplete index "eve" .succeeded 0]

def labCreateRollback : Invocation where
  id := "r1"
  command := .createRollback "fay" "p1" "2026-01-10T00:00:00Z" "2026-01-10T06:00:00Z"
  world := labWorld (labFiles (.supplied "" none))
  killedAfter := none

/-- Its rollback, approved by dee and authorized by gus. -/
def labRolledBack (first : String) : List Invocation :=
  labApplied first ++ [labCreateRollback] ++
    [labInvocation "r1" (.approve "dee" "CHG-2"), labInvocation "r1" (.authorize "gus")]

/-- What eve leaves of `p1` when she works it off alone, and the rollback that is authorized from it. -/
theorem labRolledBack_eve :
    ((replayHistory lab (labApplied "eve")).store.plans.lookup "p1").map (fun source =>
      (standaloneRollback source.plan.adapter).map fun stages =>
        (finalTasks stages.1 source).all (·.claimedBy == some "eve")) = some (some true) ∧
      ((replayHistory lab (labRolledBack "eve")).store.plans.lookup "r1").map (fun d =>
        (d.state, d.plan.adapter.isRollback)) = some (.executionAuthorized, true) := by
  decide +kernel

theorem labApplied_whole {first : String} {i : Invocation} (hi : i ∈ labApplied first) : i.killedAfter = none := by
  revert i
  simp [labApplied, labDispatched, labClaim, labComplete, labInvocation]

theorem labApplied_apply {first : String} {i : Invocation} (hi : i ∈ labApplied first)
    {requester sourceId windowStart windowEnd : String} :
    i.command ≠ .createRollback requester sourceId windowStart windowEnd := by
  revert i
  simp [labApplied, labDispatched, labClaim, labComplete, labInvocation]

theorem labApplied_eve {i : Invocation} (hi : i ∈ labApplied "eve") {taskId worker lease : String}
    (hcmd : i.command = .claim taskId worker lease) : worker = "eve" := by
  revert i
  simp +contextual [labApplied, labDispatched, labClaim, labComplete, labInvocation, eq_comm]

/-- So the run is one under the condition. -/
theorem labRolledBack_sealed : RecordedSealed lab (labRolledBack "eve") (replayHistory lab (labRolledBack "eve")) := by
  have hstart : RecordedSealed lab [] ⟨Store.empty, []⟩ := .nil rfl
  have happlied : RecordedSealed lab (labApplied "eve") (replayHistory lab (labApplied "eve")) :=
    hstart.extend (labApplied "eve") (fun _ => labApplied_whole) fun _ hi _ _ _ _ => labApplied_apply hi
  have hcreated : RecordedSealed lab (labApplied "eve" ++ [labCreateRollback])
      ((replayHistory lab (labApplied "eve")).after lab labCreateRollback) := by
    refine .snoc happlied ⟨rfl, ?_⟩ rfl
    intro requester sourceId windowStart windowEnd sc source hcmd _ hsource taskId g worker hclaim
    obtain ⟨i, hi, lease, hclaimed⟩ := claimed_actor hclaim
    obtain rfl := labApplied_eve hi hclaimed
    obtain ⟨-, rfl, -, -⟩ := Command.createRollback.inj hcmd
    -- eve is the claimant of the final task
    have hfinal := labRolledBack_eve.1
    rw [hsource, Option.map_some, Option.some.injEq, Option.map_eq_some_iff] at hfinal
    obtain ⟨⟨finalStage, rollbackAdapter⟩, hadapter, hall⟩ := hfinal
    rw [hadapter]
    intro t ht
    exact beq_iff_eq.mp (List.all_eq_true.mp hall t ht)
  have hrun := hcreated.extend [labInvocation "r1" (.approve "dee" "CHG-2"), labInvocation "r1" (.authorize "gus")]
    (by simp [labInvocation]) (by simp [labInvocation])
  rw [replayHistory, labRolledBack, List.foldl_append, List.foldl_append]
  exact hrun

/-- The rollback of a plan that eve alone has worked off: she is sealed into it, and dee may approve it. -/
theorem separation_of_duties_rollback :
    ∃ d, (replayHistory lab (labRolledBack "eve")).store.plans.lookup "r1" = some d ∧
      d.state = .executionAuthorized ∧ d.plan.adapter.isRollback = true ∧
      SeparationOfDuties lab (replayHistory lab (labRolledBack "eve")) d := by
  obtain ⟨d, hd, hshape⟩ := Option.map_eq_some_iff.mp labRolledBack_eve.2
  injection hshape with hst hroll
  exact ⟨d, hd, hst, hroll, separation_of_duties labRolledBack_sealed hd⟩

/-- The rollback of `p1` is authorized although its approver claimed the first task of `p1`. -/
theorem worker_approves_rollback :
    Recorded lab (labRolledBack "dee") (replayHistory lab (labRolledBack "dee")) ∧
      .claimed "p1" "001-precheck-n1" 0 "dee" ∈ (replayHistory lab (labRolledBack "dee")).deeds ∧
      ((replayHistory lab (labRolledBack "dee")).store.plans.lookup "r1").map (fun d =>
        (d.state, d.plan.adapter.isRollback, d.plan.sourceApply.map (·.planId), d.approval.map (·.actor))) =
          some (.executionAuthorized, true, some "p1", some "dee") :=
  ⟨replay_recorded (by decide), by decide +kernel⟩

end OraclePatching
