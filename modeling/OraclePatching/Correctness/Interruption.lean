import OraclePatching.Controller.Locked
import OraclePatching.Correctness.SerialOrder

/-!
# `Correctness.Interruption` — what is left when a command is killed, and who can pick it up

A killed command has carried out a prefix of its writes. `Salvage` asks of what it leaves that every task file
verifies, that the command (or `reconcile`, for a completion) can be issued again and comes to the full effect, and
that the plan is not stuck. Few prefixes allow it: a dispatch up to its receipt is a script that may be started over
(`redoable_reservation`), a renewal repeats itself, a retry finds its own archive, and `reconcile` releases the
reservation of a plan that has succeeded. Everywhere else a guard of the command refuses what the command itself
has written, and a plan whose approval is on disk while its state is not yet `approved` refuses everything
(`approval_stuck`).

All this is said of the store first (`Repairable`). The lock of the plan comes on top: a command that is killed outright
leaves it, and then nothing can be issued again (`lock_left_unrecoverable`), so that `Locked.Recoverable` needs a
process whose exit trap runs.
-/

namespace OraclePatching

/-! ## Recovery

Where a command is killed, the plan is to be left so that the same command or `reconcile` gets it on. Recovery
compares what such a run leaves with what the command would have left, up to its log lines. -/

/-- The command on a store, carried out to its end. -/
def Completes (cfg : Config) (s : Store) (i : Invocation) (s' : Store) : Prop :=
  ∃ sc, script cfg s i = .ok sc ∧ sc.exitCode = 0 ∧ Trace.perform (exec cfg i.id) s sc.writes = (s', true)

/-- The same command issued again. -/
def Invocation.again (i : Invocation) (w : World) : Invocation := { i with world := w, killedAfter := none }

/-- The process is killed with writes left to do. -/
def Interrupted (cfg : Config) (s : Store) (i : Invocation) (sc : Script) (k : Nat) : Prop :=
  script cfg s i = .ok sc ∧ i.killedAfter = some k ∧ k < sc.writes.length

/-- The same directory with further event lines. -/
structure PlanDir.Logs (d d' : PlanDir) : Prop where
  lines : d.events.Sublist d'.events
  rest : d' = { d with events := d'.events }

/-- The same store with further event lines. -/
structure Store.Logs (s s' : Store) : Prop where
  registry : s'.registry = s.registry
  plans : ∀ id, Option.Rel PlanDir.Logs (s.plans.lookup id) (s'.plans.lookup id)

/-- What an interrupted command has to leave: `left`, where `before` tells what completes without the interruption and
    `after` what completes behind it. -/
structure Salvage (cfg : Config) (before after : Invocation → Store → Prop) (left : Store) (i : Invocation) : Prop where
  verified : ∀ d, left.plans.lookup i.id = some d → ∀ t ∈ d.files, Sealed cfg d.plan.planSha256 t
  effect : (∃ s₁, before i s₁ ∧ Store.Logs s₁ left) ∨
    (∀ w s₁, before (i.again w) s₁ → ∃ s₂, after (i.again w) s₂ ∧ Store.Logs s₁ s₂) ∨
    ((∃ taskId actor status evidenceFile evidenceSha256,
        i.command = .complete taskId actor status evidenceFile evidenceSha256) ∧
      ∀ w actor s₁, opuValidateIdentifier actor "actor" = .ok () → registryOpen cfg w 0 = true → before i s₁ →
        ∃ s₂, after ⟨i.id, .reconcile actor, w, none⟩ s₂ ∧ Store.Logs s₁ s₂)
  live : (∃ s₁, before i s₁) → ∃ i' s₂, i'.id = i.id ∧ after i' s₂

/-- The store can be repaired, its lock aside. -/
abbrev Repairable (cfg : Config) (s : Store) (i : Invocation) : Prop :=
  Salvage cfg (Completes cfg s) (Completes cfg (after cfg s i)) (after cfg s i) i

/-! ## The condition

Three kinds of command cannot always be brought to their end: a dispatch that has reserved its hosts, a completion
after its record, a reconcile between task and plan. What may be left in them is given by `Salvage`. -/

/-- The points at which a command may be killed: before its first write, a dispatch before it renames the task
    directory, a renewal that does not shorten the lease, a retry after it linked a new archive, and a command with
    nothing but the release of the reservation left. -/
def recoverableCut (cfg : Config) (s : Store) (i : Invocation) (ws : List Write) (k : Nat) : Prop :=
  k = 0 ∨
    match i.command with
    | .dispatch _ => k ≤ 3
    | .renew taskId _ lease => ∀ d t expiry, s.plans.lookup i.id = some d → d.task? taskId = some t →
        boundedLeaseExpiry cfg i.world d.plan lease 2 = .ok expiry → t.leaseExpiresEpoch.getD 0 ≤ expiry
    | .retryTask taskId _ => k = 1 ∧ ∀ d t, s.plans.lookup i.id = some d → d.task? taskId = some t →
        d.attempts taskId t.retryCount = none
    | .complete .. | .reconcile _ => ws.drop k = [.release]
    | _ => False

/-- Commands are killed at such points only, and no task is retried after its millionth retry. -/
def repairableStep (cfg : Config) (s : Store) (i : Invocation) : Prop :=
  (∀ sc k, Interrupted cfg s i sc k → recoverableCut cfg s i sc.writes k) ∧
    ∀ taskId actor d t, i.command = .retryTask taskId actor → s.plans.lookup i.id = some d →
      d.task? taskId = some t → t.retryCount < 1000000

/-! ## Stores -/

section
variable {cfg : Config} {s : Store} {id : String} {d d' : PlanDir}

/-- The later of two versions of a plan counts. -/
@[simp] theorem Store.put_put : (s.put id d).put id d' = s.put id d' := by
  unfold Store.put
  rw [AList.insert_insert]

theorem PlanDir.Logs.refl : PlanDir.Logs d d := ⟨List.Sublist.refl _, rfl⟩

theorem Store.Logs.refl : Store.Logs s s :=
  ⟨rfl, fun id => by cases s.plans.lookup id <;> constructor; exact PlanDir.Logs.refl⟩

theorem exec_manifest {m : TaskManifest} : exec cfg id s (.manifest m) =
    (s.plans.lookup id).map fun d => s.put id { d with manifest := some m } := by
  cases h : s.plans.lookup id <;> simp [exec, h, PlanDir.write]

theorem exec_receipt {r : Receipt} : exec cfg id s (.receipt r) =
    (s.plans.lookup id).map fun d => s.put id { d with receipt := some r } := by
  cases h : s.plans.lookup id <;> simp [exec, h, PlanDir.write]

theorem exec_task {t : Task} (hd : s.plans.lookup id = some d) :
    exec cfg id s (.task t) = some (s.put id (d.putTask t)) := by
  simp [exec, hd, PlanDir.write]

theorem exec_attempt {taskId : String} {n : Nat} {t : Task} (hd : s.plans.lookup id = some d) :
    exec cfg id s (.attempt taskId n t) = some (s.put id (d.putAttempt taskId n t)) := by
  simp [exec, hd, PlanDir.write]

theorem exec_event {e : Event} (hd : s.plans.lookup id = some d) :
    exec cfg id s (.event e) = some (s.put id { d with events := d.events ++ [e] }) := by
  simp [exec, hd, PlanDir.write]

theorem exec_reserve_eq_some {s' : Store} : exec cfg id s .reserve = some s' ↔
    ∃ registry, reserve cfg s id = .ok registry ∧ s' = { s with registry := registry } := by
  cases h : reserve cfg s id <;> simp [exec, h, Except.toOption, eq_comm]

theorem exec_release_eq_some {s' : Store} : exec cfg id s .release = some s' ↔
    ∃ registry, release cfg s id = .ok registry ∧ s' = { s with registry := registry } := by
  cases h : release cfg s id <;> simp [exec, h, Except.toOption, eq_comm]

end

/-! ## Starting a dispatch over

What `dispatch` writes before it takes up work is manifest, receipt and reservation. Each of these writes may be
repeated, so that a dispatch that was killed among them can be started over from the beginning. -/

section
variable {cfg : Config} {w : World} {s s' : Store} {id actor : String} {d d' : PlanDir} {m : TaskManifest} {r : Receipt}

/-- A reservation looks at its own plan's sealed body and at the other plans. -/
theorem reserve_congr {registry : String → Option Reservation} (h : reserve cfg s id = .ok registry)
    (hself : ∀ d, s.plans.lookup id = some d → ∃ d', s'.plans.lookup id = some d' ∧ d'.plan = d.plan)
    (hothers : ∀ other, other ≠ id → s'.plans.lookup other = s.plans.lookup other)
    (hregistry : s'.registry = s.registry) : reserve cfg s' id = .ok registry := by
  obtain ⟨d, hd, hshape, hold, hfree, hreg⟩ := reserve_eq_ok.mp h
  obtain ⟨hlook, hsha⟩ := verifyPlan_ok.mp hd
  obtain ⟨d', hlook', hplan⟩ := hself d hlook
  refine reserve_eq_ok.mpr ⟨d', verifyPlan_ok.mpr ⟨hlook', hplan ▸ hsha⟩, hplan ▸ hshape, ?_, ?_, ?_⟩
  · intro otherId other hother
    rw [historicalPlan_ok hother]
    by_cases hid : otherId = id
    · exact .inl hid
    · rw [hothers otherId hid] at hother
      rw [hplan]
      exact (historicalPlan_ok hother).mp (hold otherId other hother)
  · rw [hregistry, hplan, PlanDir.reservation, hplan]
    exact hfree
  · rw [hregistry, hplan, PlanDir.reservation, hplan]
    exact hreg

/-- A reservation made twice. -/
theorem reserve_again {registry : String → Option Reservation} (h : reserve cfg s id = .ok registry) :
    reserve cfg { s with registry := registry } id = .ok registry := by
  obtain ⟨d, hd, hshape, hold, _, rfl⟩ := reserve_eq_ok.mp h
  refine reserve_eq_ok.mpr ⟨d, hd, hshape, hold, fun host hhost => .inr (if_pos hhost), ?_⟩
  funext host
  dsimp only
  split <;> rfl

/-- A write that stamps a file into the plan directory. -/
structure Stamp (cfg : Config) (id : String) (wr : Write) (f : PlanDir → PlanDir) : Prop where
  stamped : ∀ s, exec cfg id s wr = (s.plans.lookup id).map fun d => s.put id (f d)
  again : ∀ d, f (f d) = f d
  plan : ∀ d, (f d).plan = d.plan

theorem stamp_manifest : Stamp cfg id (.manifest m) fun d => { d with manifest := some m } :=
  ⟨fun _ => exec_manifest, fun _ => rfl, fun _ => rfl⟩

theorem stamp_receipt : Stamp cfg id (.receipt r) fun d => { d with receipt := some r } :=
  ⟨fun _ => exec_receipt, fun _ => rfl, fun _ => rfl⟩

section
variable {wr v : Write} {f g : PlanDir → PlanDir} {t t' : Store}

theorem Stamp.settles (hf : Stamp cfg id wr f) (h : exec cfg id t wr = some t') :
    Trace.Settled (exec cfg id) t' wr := by
  rw [hf.stamped] at h
  obtain ⟨d, _, rfl⟩ := Option.map_eq_some_iff.mp h
  rw [Trace.Settled, hf.stamped, Store.lookup_put_self, Option.map_some, hf.again, Store.put_put]

theorem Stamp.settled (hf : Stamp cfg id wr f) (h : Trace.Settled (exec cfg id) t wr) :
    ∃ d, t.plans.lookup id = some d ∧ f d = d ∧ t.put id d = t := by
  rw [Trace.Settled, hf.stamped] at h
  obtain ⟨d, hd, hput⟩ := Option.map_eq_some_iff.mp h
  have hlook := Store.lookup_put_self t id (f d)
  rw [hput, hd] at hlook
  have hfix : f d = d := (Option.some.inj hlook).symm
  exact ⟨d, hd, hfix, by rwa [hfix] at hput⟩

/-- A stamp survives another one that commutes with it. -/
theorem Stamp.stays (hf : Stamp cfg id wr f) (hg : Stamp cfg id v g) (hcomm : ∀ d, f (g d) = g (f d))
    (hset : Trace.Settled (exec cfg id) t wr) (h : exec cfg id t v = some t') :
    Trace.Settled (exec cfg id) t' wr := by
  obtain ⟨d, hd, hfix, _⟩ := hf.settled hset
  rw [hg.stamped, hd, Option.map_some] at h
  rw [← Option.some.inj h, Trace.Settled, hf.stamped, Store.lookup_put_self, Option.map_some, hcomm, hfix, Store.put_put]

/-- A stamp survives a reservation. -/
theorem Stamp.stays_reserve (hf : Stamp cfg id wr f) (hset : Trace.Settled (exec cfg id) t wr)
    (h : exec cfg id t .reserve = some t') : Trace.Settled (exec cfg id) t' wr := by
  obtain ⟨d, hd, hfix, hput⟩ := hf.settled hset
  obtain ⟨registry, _, rfl⟩ := exec_reserve_eq_some.mp h
  have hplans : t.plans.insert id d = t.plans := congrArg Store.plans hput
  rw [Trace.Settled, hf.stamped]
  simp only [hd, Option.map_some, hfix, Store.put, hplans]

/-- A reservation survives a stamp. -/
theorem Stamp.reserve_stays (hf : Stamp cfg id wr f) (hset : Trace.Settled (exec cfg id) t .reserve)
    (h : exec cfg id t wr = some t') : Trace.Settled (exec cfg id) t' .reserve := by
  rw [hf.stamped] at h
  obtain ⟨d, hd, rfl⟩ := Option.map_eq_some_iff.mp h
  obtain ⟨registry, hres, ht⟩ := exec_reserve_eq_some.mp hset
  have hregistry : t.registry = registry := congrArg Store.registry ht
  refine exec_reserve_eq_some.mpr ⟨registry, reserve_congr hres ?_ ?_ rfl, by rw [← hregistry]; rfl⟩
  · intro e he
    obtain rfl := Option.some.inj (hd.symm.trans he)
    exact ⟨f d, Store.lookup_put_self t id _, hf.plan d⟩
  · exact fun other hne => Store.lookup_put_ne t _ hne

end

/-- **The writes of a dispatch before the task directory may be started over.** -/
theorem redoable_reservation : Trace.Redoable (exec cfg id) [.manifest m, .reserve, .receipt r] := by
  constructor
  · intro wr hwr t t' h
    simp only [List.mem_cons, List.not_mem_nil, or_false] at hwr
    rcases hwr with rfl | rfl | rfl
    · exact stamp_manifest.settles h
    · obtain ⟨registry, hres, rfl⟩ := exec_reserve_eq_some.mp h
      exact exec_reserve_eq_some.mpr ⟨registry, reserve_again hres, rfl⟩
    · exact stamp_receipt.settles h
  · intro wr hwr v hv t t' hset h
    by_cases hsame : v = wr
    · subst hsame
      rw [show t' = t from Option.some.inj (h.symm.trans hset)]
      exact hset
    simp only [List.mem_cons, List.not_mem_nil, or_false] at hwr hv
    rcases hwr with rfl | rfl | rfl <;> rcases hv with rfl | rfl | rfl
    · exact absurd rfl hsame
    · exact stamp_manifest.stays_reserve hset h
    · exact stamp_manifest.stays stamp_receipt (fun _ => rfl) hset h
    · exact stamp_manifest.reserve_stays hset h
    · exact absurd rfl hsame
    · exact stamp_receipt.reserve_stays hset h
    · exact stamp_receipt.stays stamp_manifest (fun _ => rfl) hset h
    · exact stamp_receipt.stays_reserve hset h
    · exact absurd rfl hsame

end

/-! ## Task files verify

`Intact` is the invariant behind every recovery: the commands that come after a kill verify the task files first. -/

/-- Every task file passes its verification. -/
def Intact (cfg : Config) (d : PlanDir) : Prop := ∀ t ∈ d.files, Sealed cfg d.plan.planSha256 t

section
variable {cfg : Config} {s : Store} {i : Invocation} {d d' : PlanDir} {t : Task}

/-- Task files and plan are all that it looks at. -/
theorem Intact.congr (h : Intact cfg d) (htasks : d'.tasks = d.tasks) (hplan : d'.plan = d.plan) : Intact cfg d' := by
  intro t ht
  rw [PlanDir.files, htasks] at ht
  rw [hplan]
  exact h t ht

/-- A sealed task file may take the place of another. -/
theorem Intact.replaced (h : Intact cfg d) (ht : Sealed cfg d.plan.planSha256 t) : Intact cfg (d.putTask t) := by
  intro u hu
  rcases mem_putTask hu with rfl | ⟨hu, _⟩
  · exact ht
  · exact h u hu

theorem claimedTask_sealed {planSha : Digest} {actor : String} {now expiry : Int} (h : Sealed cfg planSha t) :
    Sealed cfg planSha (claimedTask t actor now expiry) :=
  ⟨h.definition, h.plan, h.generation, h.attempt, fun hr => absurd hr (by simp [claimedTask, TaskStatus.isResult])⟩

theorem renewedTask_sealed {planSha : Digest} {now expiry : Int} (h : Sealed cfg planSha t)
    (hrun : t.status = .running) : Sealed cfg planSha (renewedTask t now expiry) := by
  refine ⟨h.definition, h.plan, h.generation, h.attempt, fun hr => ?_⟩
  rw [show (renewedTask t now expiry).status = t.status from rfl, hrun] at hr
  exact absurd hr (by simp [TaskStatus.isResult])

/-- What a completion concludes leaves task files and plan alone. -/
theorem Concluded.tasks {taskId actor : String} {status : TaskStatus} {late : Bool}
    (h : Concluded d taskId actor status late d') : d'.tasks = d.tasks ∧ d'.plan = d.plan := by
  cases h <;> exact ⟨rfl, rfl⟩

/-- **Step lemma.** A command that gets to the end of its writes leaves every task file verified. -/
theorem intact_effect (hs : ∀ d, s.plans.lookup i.id = some d → Intact cfg d)
    (hcap : ∀ taskId actor d t, i.command = .retryTask taskId actor → s.plans.lookup i.id = some d →
      d.task? taskId = some t → t.retryCount < 1000000) (h : Effect cfg s i d') : Intact cfg d' := by
  have hplan : ∀ {e : PlanDir}, verifyPlan cfg s i.id = .ok e → Intact cfg e := fun he => hs _ (verifyPlan_ok.mp he).1
  cases h with
  | created => exact fun t ht => absurd ht (by simp [PlanDir.files, newPlan])
  | approved _ hacc => exact (hplan hacc.plan).congr rfl rfl
  | authorized _ hacc => exact (hplan hacc.plan).congr rfl rfl
  | undispatched _ hacc => exact (hplan hacc.plan).congr rfl rfl
  | dispatched _ _ =>
      intro t ht
      obtain ⟨_, _, _, rfl, _⟩ := mem_materialiseFrom (mem_globOrder.mp ht)
      exact writeTask_sealed _ _ _
  | claimed _ hacc => exact ((hplan hacc.plan).replaced (claimedTask_sealed hacc.intact)).congr rfl rfl
  | renewed _ hacc => exact ((hplan hacc.plan).replaced (renewedTask_sealed hacc.intact hacc.status)).congr rfl rfl
  | @completed _ _ _ _ _ _ d _ t _ _ c _ _ hacc hc =>
      have ht := hacc.intact
      refine Intact.congr ?_ hc.tasks.1 hc.tasks.2
      exact (show Intact cfg (d.putCustody c.leaf c.dir) from (hplan hacc.plan).congr rfl rfl).replaced
        (sealTaskResult_sealed ht.definition ht.plan ht.generation ht.attempt)
  | released _ hd => exact (hs _ hd).congr rfl rfl
  | @expired _ _ d t _ _ _ _ _ hd _ _ ht =>
      have hsealed : Sealed cfg d.plan.planSha256 (sealTaskResult cfg (expiredTask t (i.world.clock 0))) :=
        sealTaskResult_sealed ht.definition ht.plan ht.generation ht.attempt
      exact ((hs _ hd).replaced hsealed).congr rfl rfl
  | @retried taskId actor _ d t _ hcmd hacc =>
      -- beyond the bound on generations the seal would not verify
      have ht := hacc.intact
      have hgen := hcap taskId actor d t hcmd (verifyPlan_ok.mp hacc.plan).1 hacc.task
      have hsealed : Sealed cfg d.plan.planSha256 (sealTaskAttempt cfg (reopenedTask t)) :=
        sealTaskAttempt_sealed ht.definition ht.plan hgen rfl
      have hput : Intact cfg (d.putAttempt taskId t.retryCount t) := (hplan hacc.plan).congr rfl rfl
      exact (hput.replaced hsealed).congr rfl rfl

end

/-! ## Interrupted commands

One lemma for each command: what a process killed after `k` writes has left, and how the same command, or
`reconcile`, takes it from there. -/

section
variable {cfg : Config} {s : Store} {i : Invocation} {sc : Script} {k : Nat}

/-- An interrupted command has carried out its first `k` writes. -/
theorem Interrupted.after (h : Interrupted cfg s i sc k) :
    after cfg s i = (Trace.perform (exec cfg i.id) s (sc.writes.take k)).1 := by
  unfold OraclePatching.after
  rw [h.1]
  simp only [Invocation.reached, h.2.1]

/-- A command that can be issued again is repairable. -/
theorem Repairable.of_again
    (hverified : ∀ d, (after cfg s i).plans.lookup i.id = some d → Intact cfg d)
    (hagain : ∀ w s₁, Completes cfg s (i.again w) s₁ →
      ∃ s₂, Completes cfg (after cfg s i) (i.again w) s₂ ∧ Store.Logs s₁ s₂) : Repairable cfg s i :=
  ⟨hverified, .inr (.inl hagain), fun ⟨s₁, h⟩ =>
    let ⟨s₂, h₂, _⟩ := hagain i.world s₁ h
    ⟨i.again i.world, s₂, rfl, h₂⟩⟩

/-- Nothing has been written. -/
theorem repairable_start (hs : ∀ d, s.plans.lookup i.id = some d → Intact cfg d)
    (h : Interrupted cfg s i sc 0) : Repairable cfg s i := by
  have hafter : after cfg s i = s := by rw [h.after, List.take_zero, Trace.perform_nil]
  refine .of_again (fun d hd => hs d (hafter ▸ hd)) fun w s₁ h₁ => ⟨s₁, ?_, .refl⟩
  rw [hafter]
  exact h₁

/-- The writes of a dispatch before the rename of the task directory. -/
def reservationWrites (cfg : Config) (id : String) (plan : Plan) (ts : List Task) : List Write :=
  let manifest := writeTaskManifest id plan.planSha256 ts
  [.manifest manifest, .reserve,
    .receipt ⟨id, plan.planSha256, shortHosts plan.nodes, cfg.hashFile (.taskManifest manifest)⟩]

section
variable {w : World} {id actor : String} {d d' : PlanDir} {ts : List Task}

/-- The directory of a plan whose dispatch has not come to the task directory. -/
theorem cut_reservation (h : Cut d (reservationWrites cfg id d.plan ts) d') :
    ∃ m r, d' = { d with manifest := m, receipt := r } := by
  simp only [reservationWrites, cut_cons, PlanDir.write, cut_nil, Option.some.injEq, exists_eq_left'] at h
  rcases h with rfl | rfl | rfl | rfl
  · exact ⟨_, _, rfl⟩
  · exact ⟨_, _, rfl⟩
  · exact ⟨_, _, rfl⟩
  · exact ⟨_, _, rfl⟩

/-- Neither the manifest nor the receipt is read by a dispatch. -/
theorem dispatch_stamped {s' : Store} {m : Option TaskManifest} {r : Option Receipt}
    (hd : s.plans.lookup id = some d) (hd' : s'.plans.lookup id = some { d with manifest := m, receipt := r })
    (h : dispatch cfg w s id actor = .ok sc) : dispatch cfg w s' id actor = .ok sc := by
  obtain ⟨e, a, z, hacc⟩ := dispatch_ok h
  obtain rfl := Option.some.inj ((verifyPlan_ok.mp hacc.plan).1.symm.trans hd)
  have hplan : verifyPlan cfg s' id = .ok { e with manifest := m, receipt := r } :=
    verifyPlan_ok.mpr ⟨hd', (verifyPlan_ok.mp hacc.plan).2⟩
  simp only [dispatch, hacc.plan, hplan] at h ⊢
  exact h

theorem dispatchScript_take (hk : k ≤ 3) (hlen : k < (dispatchScript cfg w id d actor ts).writes.length) :
    (dispatchScript cfg w id d actor ts).writes.take k = (reservationWrites cfg id d.plan ts).take k := by
  unfold dispatchScript at hlen ⊢
  dsimp only at hlen ⊢
  by_cases hopen : registryOpen cfg w 0 = true
  · have happend : ∀ rest, (reservationWrites cfg id d.plan ts ++ rest).take k =
        (reservationWrites cfg id d.plan ts).take k := fun _ => List.take_append_of_le_length hk
    rw [if_pos hopen]
    split
    · exact happend _
    · exact happend (.tasks ts :: _)
  · -- the registry is busy: the manifest is the only write
    rw [if_neg hopen] at hlen ⊢
    obtain rfl : k = 0 := by simpa using hlen
    rfl

theorem dispatchScript_done (h : (dispatchScript cfg w id d actor ts).exitCode = 0) :
    ∃ rest, (dispatchScript cfg w id d actor ts).writes = reservationWrites cfg id d.plan ts ++ rest := by
  unfold dispatchScript at h ⊢
  dsimp only at h ⊢
  split_ifs at h ⊢
  exact ⟨.tasks ts :: _, rfl⟩

end

/-- **A dispatch killed before the rename of the task directory** is started over. -/
theorem repairable_dispatch {actor : String} (hs : ∀ d, s.plans.lookup i.id = some d → Intact cfg d)
    (hcmd : i.command = .dispatch actor) (h : Interrupted cfg s i sc k) (hk : k ≤ 3) : Repairable cfg s i := by
  have hsc := h.1
  simp only [script, hcmd] at hsc
  obtain ⟨d, a, z, hacc⟩ := dispatch_ok hsc
  have hd := (verifyPlan_ok.mp hacc.plan).1
  have hlen := h.2.2
  have hafter := h.after
  rw [hacc.script] at hlen hafter
  rw [dispatchScript_take hk hlen] at hafter
  -- the directory the killed process leaves
  obtain ⟨d', hd', hran⟩ := perform_ran cfg
    ((reservationWrites cfg i.id d.plan (dispatchedTasks cfg d.plan z)).take k) hd
  rw [← hafter] at hd'
  obtain ⟨m, r, rfl⟩ := cut_reservation hran.cut
  refine .of_again (fun e he => ?_) fun w s₁ h₁ => ⟨s₁, ?_, .refl⟩
  · obtain rfl := Option.some.inj (hd'.symm.trans he)
    exact (hs d hd).congr rfl rfl
  obtain ⟨sc₁, hsc₁, hexit, (hperform : Trace.perform (exec cfg i.id) s sc₁.writes = (s₁, true))⟩ := h₁
  have hscript : ∀ t, script cfg t (i.again w) = dispatch cfg w t i.id actor := fun t => by
    simp only [script, Invocation.again, hcmd]
  rw [hscript] at hsc₁
  refine ⟨sc₁, (hscript _).trans (dispatch_stamped hd hd' hsc₁), hexit, ?_⟩
  change Trace.perform (exec cfg i.id) _ _ = _
  obtain ⟨d₁, a₁, z₁, hacc₁⟩ := dispatch_ok hsc₁
  obtain rfl := Option.some.inj ((verifyPlan_ok.mp hacc₁.plan).1.symm.trans hd)
  obtain rfl := Option.some.inj (hacc₁.authorization.symm.trans hacc.authorization)
  obtain ⟨rest, hrest⟩ := dispatchScript_done (hacc₁.script ▸ hexit)
  rw [← hacc₁.script] at hrest
  rw [hrest, Trace.perform_append_ok] at hperform ⊢
  obtain ⟨t, ht, hperform⟩ := hperform
  refine ⟨t, ?_, hperform⟩
  have hparts := ht
  rw [← List.take_append_drop k (reservationWrites cfg i.id d₁.plan _), Trace.perform_append_ok] at hparts
  obtain ⟨t', ht', _⟩ := hparts
  rw [hafter, ht']
  exact (Trace.perform_redo redoable_reservation ht').trans ht

/-! ### Renewals and retries

Both rewrite one task file and then append an event; a retry archives the attempt first. The same call finds the
same task and writes the same again. -/

section
variable {w : World} {s' : Store} {id taskId actor lease : String} {d d' : PlanDir} {t : Task}

/-- The reservation of a plan depends on its sealed part and on the registry only. -/
theorem verifyReservation_congr {n : Nat} (h : verifyReservation cfg w n s id = .ok ())
    (hd : s.plans.lookup id = some d) (hd' : s'.plans.lookup id = some d') (hplan : d'.plan = d.plan)
    (hregistry : s'.registry = s.registry) : verifyReservation cfg w n s' id = .ok () := by
  obtain ⟨e, he, hshape, hopen, howns⟩ := verifyReservation_ok.mp h
  obtain rfl := Option.some.inj ((verifyPlan_ok.mp he).1.symm.trans hd)
  refine verifyReservation_ok.mpr ⟨d', verifyPlan_ok.mpr ⟨hd', ?_⟩, ?_, hopen, ?_⟩
  · rw [hplan]
    exact (verifyPlan_ok.mp he).2
  · rw [hplan]
    exact hshape
  · rw [hregistry, hplan, PlanDir.reservation, hplan]
    exact howns

/-- A task that was written is found. -/
theorem task?_putTask {t' : Task} (ht : d.task? taskId = some t) (hid : t'.taskId = t.taskId) :
    (d.putTask t').task? taskId = some t' := by
  obtain ⟨_, rfl⟩ := task?_mem ht
  unfold PlanDir.task? at ht ⊢
  rw [← PlanDir.files, putTask_files, ← hid]
  have hfound : Frontier.lookup (fun t : Task => t.taskId) t'.taskId d.files = some t := by rw [hid]; exact ht
  exact Frontier.lookup_replace_self hfound

/-- A renewed lease is renewed again as the old one would have been, as long as it does not end earlier. -/
theorem renew_again {now expiry : Int} (hd : s.plans.lookup id = some d) (ht : d.task? taskId = some t)
    (hd' : s'.plans.lookup id = some (d.putTask (renewedTask t now expiry))) (hregistry : s'.registry = s.registry)
    (hle : t.leaseExpiresEpoch.getD 0 ≤ expiry) (h : renew cfg w s id taskId actor lease = .ok sc) :
    renew cfg w s' id taskId actor lease = .ok sc := by
  simp only [renew, bind_ok, ensure_ok, verifyTaskFile_ok, Except.ok.injEq] at h ⊢
  obtain ⟨_, hid, _, htask, _, hactor, _, hlease, e, he, _, hrun, closes, hwindow, _, hres, u, ⟨hu, hsealed⟩, _, hclaim,
    _, hunexpired, _, hstatus, expiry', hexpiry, rfl⟩ := h
  obtain rfl := Option.some.inj ((verifyPlan_ok.mp he).1.symm.trans hd)
  obtain rfl := Option.some.inj (hu.symm.trans ht)
  exact ⟨(), hid, (), htask, (), hactor, (), hlease, _, verifyPlan_ok.mpr ⟨hd', (verifyPlan_ok.mp he).2⟩, (), hrun,
    closes, hwindow, (), verifyReservation_congr hres hd hd' rfl hregistry, _,
    ⟨task?_putTask ht rfl, renewedTask_sealed hsealed hstatus⟩, (), hclaim, (), lt_of_lt_of_le hunexpired hle, (),
    hstatus, expiry', hexpiry, rfl⟩

end

/-- **A renewal killed before its event line**, unless it shortened the lease, is repeated. -/
theorem repairable_renew {taskId actor lease : String} (hs : ∀ d, s.plans.lookup i.id = some d → Intact cfg d)
    (hcmd : i.command = .renew taskId actor lease) (h : Interrupted cfg s i sc k) (hpos : k ≠ 0)
    (hle : ∀ d t expiry, s.plans.lookup i.id = some d → d.task? taskId = some t →
      boundedLeaseExpiry cfg i.world d.plan lease 2 = .ok expiry → t.leaseExpiresEpoch.getD 0 ≤ expiry) :
    Repairable cfg s i := by
  have hsc := h.1
  simp only [script, hcmd] at hsc
  obtain ⟨d, t, expiry, hacc⟩ := renew_ok hsc
  have hd := (verifyPlan_ok.mp hacc.plan).1
  have hlen := h.2.2
  have hafter := h.after
  rw [hacc.script] at hlen hafter
  -- of its two writes, the task file is there and the event is not
  obtain rfl : k = 1 := by simp only [List.length_cons, List.length_nil] at hlen; omega
  rw [List.take_succ_cons, List.take_zero, Trace.perform_cons_some _ (exec_task hd), Trace.perform_nil] at hafter
  dsimp only at hafter
  have hd' : (after cfg s i).plans.lookup i.id = some (d.putTask (renewedTask t (i.world.clock 1) expiry)) := by
    rw [hafter]
    exact Store.lookup_put_self ..
  refine .of_again (fun e he => ?_) fun w s₁ h₁ => ⟨s₁, ?_, .refl⟩
  · obtain rfl := Option.some.inj (hd'.symm.trans he)
    exact (hs d hd).replaced (renewedTask_sealed hacc.intact hacc.status)
  obtain ⟨sc₁, hsc₁, hexit, (hperform : Trace.perform (exec cfg i.id) s sc₁.writes = (s₁, true))⟩ := h₁
  have hscript : ∀ t, script cfg t (i.again w) = renew cfg w t i.id taskId actor lease := fun t => by
    simp only [script, Invocation.again, hcmd]
  rw [hscript] at hsc₁
  refine ⟨sc₁, (hscript _).trans (renew_again hd hacc.task hd' (by rw [hafter]; rfl)
    (hle d t expiry hd hacc.task hacc.lease) hsc₁), hexit, ?_⟩
  change Trace.perform (exec cfg i.id) _ _ = _
  obtain ⟨d₁, t₁, expiry₁, hacc₁⟩ := renew_ok hsc₁
  obtain rfl := Option.some.inj ((verifyPlan_ok.mp hacc₁.plan).1.symm.trans hd)
  obtain rfl := Option.some.inj (hacc₁.task.symm.trans hacc.task)
  rw [hacc₁.script] at hperform ⊢
  -- the second renewal writes the same task file over the first
  rw [Trace.perform_cons_some _ (exec_task hd)] at hperform
  rw [Trace.perform_cons_some _ (exec_task hd'), hafter, Store.put_put, PlanDir.putTask_putTask _ (by rfl)]
  exact hperform

/-- A retry that has linked its archive finds it there. -/
theorem retry_again {w : World} {s' : Store} {id taskId actor : String} {d : PlanDir} {t : Task}
    (hd : s.plans.lookup id = some d) (ht : d.task? taskId = some t) (hnone : d.attempts taskId t.retryCount = none)
    (hd' : s'.plans.lookup id = some (d.putAttempt taskId t.retryCount t)) (hregistry : s'.registry = s.registry)
    (h : retryTask cfg w s id taskId actor = .ok sc) :
    ∃ rest, sc = ⟨.attempt taskId t.retryCount t :: rest, 0⟩ ∧ retryTask cfg w s' id taskId actor = .ok ⟨rest, 0⟩ := by
  simp only [retryTask, bind_ok, ensure_ok, verifyTaskFile_ok, Except.ok.injEq] at h ⊢
  obtain ⟨_, hid, _, htask, _, hactor, e, he, _, hstate, closes, hwindow, _, hpaused, u, ⟨hu, hsealed⟩, _, hfailed,
    j, hj, _, hsafe, _, hmanifest, _, hres, archive, harchive, rfl⟩ := h
  obtain rfl := Option.some.inj ((verifyPlan_ok.mp he).1.symm.trans hd)
  obtain rfl := Option.some.inj (hu.symm.trans ht)
  rw [hnone, attemptArchive, Except.ok.injEq] at harchive
  subst harchive
  have harchived : (e.putAttempt taskId u.retryCount u).attempts taskId u.retryCount = some u := if_pos ⟨rfl, rfl⟩
  refine ⟨_, rfl, (), hid, (), htask, (), hactor, _, verifyPlan_ok.mpr ⟨hd', (verifyPlan_ok.mp he).2⟩, (), hstate,
    closes, hwindow, (), hpaused, u, ⟨hu, hsealed⟩, (), hfailed, j, hj, (), hsafe, (), hmanifest, (),
    verifyReservation_congr hres hd hd' rfl hregistry, [], ?_, rfl⟩
  rw [harchived, attemptArchive, ensure_bind_ok]
  exact ⟨rfl, rfl⟩

/-- **A retry killed after it linked a new archive** is repeated. -/
theorem repairable_retry {taskId actor : String} (hs : ∀ d, s.plans.lookup i.id = some d → Intact cfg d)
    (hcmd : i.command = .retryTask taskId actor) (h : Interrupted cfg s i sc 1)
    (hnew : ∀ d t, s.plans.lookup i.id = some d → d.task? taskId = some t → d.attempts taskId t.retryCount = none) :
    Repairable cfg s i := by
  have hsc := h.1
  simp only [script, hcmd] at hsc
  obtain ⟨d, t, archive, hacc⟩ := retryTask_ok hsc
  have hd := (verifyPlan_ok.mp hacc.plan).1
  have hnone := hnew d t hd hacc.task
  have harchive : archive = [.attempt taskId t.retryCount t] := by
    rcases hacc.archived with ⟨_, h1⟩ | ⟨h1, _⟩
    · exact h1
    · exact absurd (hnone.symm.trans h1) (by simp)
  have hafter := h.after
  rw [hacc.script, harchive] at hafter
  simp only [List.cons_append, List.nil_append, List.take_succ_cons, List.take_zero,
    Trace.perform_cons_some _ (exec_attempt hd), Trace.perform_nil] at hafter
  have hd' : (after cfg s i).plans.lookup i.id = some (d.putAttempt taskId t.retryCount t) := by
    rw [hafter]
    exact Store.lookup_put_self ..
  refine .of_again (fun e he => ?_) fun w s₁ h₁ => ⟨s₁, ?_, .refl⟩
  · obtain rfl := Option.some.inj (hd'.symm.trans he)
    exact (hs d hd).congr rfl rfl
  obtain ⟨sc₁, hsc₁, hexit, (hperform : Trace.perform (exec cfg i.id) s sc₁.writes = (s₁, true))⟩ := h₁
  have hscript : ∀ t, script cfg t (i.again w) = retryTask cfg w t i.id taskId actor := fun t => by
    simp only [script, Invocation.again, hcmd]
  rw [hscript] at hsc₁
  obtain ⟨rest, rfl, hsc'⟩ := retry_again hd hacc.task hnone hd' (by rw [hafter]; rfl) hsc₁
  refine ⟨_, (hscript _).trans hsc', rfl, ?_⟩
  rw [Trace.perform_cons_some _ (exec_attempt hd), ← hafter] at hperform
  exact hperform

/-! ### Nothing but the release left

The last write of a completion or a reconcile that ends the plan gives the hosts back; a killed one can be repeated
by itself. -/

section
variable {w : World} {t t' : Store} {id actor : String} {d d' : PlanDir} {registry : String → Option Reservation}

/-- A release depends on the sealed plan and on the registry only. -/
theorem release_congr (h : release cfg t id = .ok registry) (hd : t.plans.lookup id = some d)
    (hd' : t'.plans.lookup id = some d') (hplan : d'.plan = d.plan) (hregistry : t'.registry = t.registry) :
    release cfg t' id = .ok registry := by
  simp only [release, bind_ok, Except.ok.injEq] at h ⊢
  obtain ⟨e, he, hosts, hhosts, rfl⟩ := h
  obtain rfl := Option.some.inj ((verifyPlan_ok.mp he).1.symm.trans hd)
  refine ⟨d', verifyPlan_ok.mpr ⟨hd', by rw [hplan]; exact (verifyPlan_ok.mp he).2⟩, hosts, by rw [hplan]; exact hhosts,
    ?_⟩
  rw [hregistry, PlanDir.reservation, hplan]
  rfl

/-- A plan with one more event line, and its reservation released. -/
theorem perform_event_release {e : Event} (hd : t.plans.lookup id = some d) (h : release cfg t id = .ok registry) :
    Trace.perform (exec cfg id) t [.event e, .release] =
      ({ t.put id { d with events := d.events ++ [e] } with registry := registry }, true) := by
  rw [Trace.perform_cons_some _ (exec_event hd)]
  have hrel : exec cfg id (t.put id { d with events := d.events ++ [e] }) .release =
      some { t.put id { d with events := d.events ++ [e] } with registry := registry } :=
    exec_release_eq_some.mpr ⟨registry, release_congr h hd (Store.lookup_put_self ..) rfl rfl, rfl⟩
  rw [Trace.perform_cons_some _ hrel, Trace.perform_nil]

/-- An event is a matter of the log. -/
theorem logs_event {e : Event} (hd : t.plans.lookup id = some d) :
    Store.Logs { t with registry := registry }
      { t.put id { d with events := d.events ++ [e] } with registry := registry } := by
  refine ⟨rfl, fun other => ?_⟩
  by_cases hid : other = id
  · subst hid
    simp only [hd, Store.put, AList.lookup_insert]
    exact .some ⟨List.sublist_append_left _ _, rfl⟩
  · simp only [Store.put, AList.lookup_insert_ne hid]
    cases t.plans.lookup other
    · exact .none
    · exact .some .refl

/-- What `reconcile` does for a plan that has succeeded, whatever events follow its completion. -/
theorem reconcile_succeeded (hid : opuValidateIdentifier id "plan ID" = .ok ())
    (hactor : opuValidateIdentifier actor "actor" = .ok ()) (hplan : verifyPlan cfg t id = .ok d)
    (hst : d.state = .succeeded) (hmanifest : verifyTaskManifest cfg id d = .ok ())
    (hcustody : verifyAllCustody cfg id d = .ok ()) (haudit : d.events.any isCompletionEvent = true)
    (hopen : registryOpen cfg w 0 = true) :
    reconcile cfg w t id actor = .ok ⟨[.event ⟨"successful_plan_reconciled", .succeeded, actor,
      "custody_verified_before_reservation_release"⟩, .release], 0⟩ := by
  simp only [reconcile, bind_ok]
  refine ⟨(), hid, (), hactor, d, hplan, ?_⟩
  rw [if_pos hst]
  simp only [bind_ok, ensure_ok]
  refine ⟨(), hmanifest, (), hcustody, (), haudit, ?_⟩
  rw [if_pos hopen]

/-- A release that is refused leaves the directory as it is. -/
theorem Ran.append_release {ws : List Write} (h : Ran d ws d') : Ran d (ws ++ [.release]) d' := by
  induction h with
  | done => exact .step rfl .done
  | step hw _ ih => exact .step hw ih
  | refused hr => exact .refused hr

end

/-- The directory of a command that has only the release left is the one its whole run leaves. -/
theorem intact_before_release (hs : ∀ d, s.plans.lookup i.id = some d → Intact cfg d)
    (hcap : ∀ taskId actor d t, i.command = .retryTask taskId actor → s.plans.lookup i.id = some d →
      d.task? taskId = some t → t.retryCount < 1000000)
    (h : Interrupted cfg s i sc k) (hlast : sc.writes.drop k = [.release]) {d d' : PlanDir}
    (hd : s.plans.lookup i.id = some d) (hd' : (after cfg s i).plans.lookup i.id = some d') : Intact cfg d' := by
  obtain ⟨e, he, hran⟩ := perform_ran cfg (sc.writes.take k) hd
  rw [h.after, he] at hd'
  obtain rfl := Option.some.inj hd'
  have hwhole := hran.append_release
  rw [← hlast, List.take_append_drop] at hwhole
  exact intact_effect hs hcap (ran_effect h.1 hd hwhole)

/-- **A reconciliation killed before it released the reservation** is repeated. -/
theorem repairable_reconcile {actor : String} (hs : ∀ d, s.plans.lookup i.id = some d → Intact cfg d)
    (hcmd : i.command = .reconcile actor) (h : Interrupted cfg s i sc k) (hlast : sc.writes.drop k = [.release]) :
    Repairable cfg s i := by
  have hsc := h.1
  simp only [script, hcmd] at hsc
  have hmem : Write.release ∈ sc.writes := List.mem_of_mem_drop (by rw [hlast]; exact List.mem_cons_self)
  have hids : opuValidateIdentifier i.id "plan ID" = .ok () ∧ opuValidateIdentifier actor "actor" = .ok () := by
    have hsc := hsc
    rw [reconcile, check_bind_ok, check_bind_ok] at hsc
    exact ⟨hsc.1, hsc.2.1⟩
  cases reconcile_ok hsc with
  | expired d t _ _ _ _ _ hw =>
      rw [hw] at hmem
      simp [transition] at hmem
  | released d plan state manifest custody audit hw hexit =>
      have hd := (verifyPlan_ok.mp plan).1
      have hopen : registryOpen cfg i.world 0 = true := by
        by_contra hopen
        rw [hw, if_neg hopen] at hmem
        simp at hmem
      rw [if_pos hopen] at hw
      have hk : k = 1 := by
        have := congrArg List.length hlast
        rw [List.length_drop, hw] at this
        simp only [List.length_cons, List.length_nil] at this
        omega
      subst hk
      have hafter := h.after
      rw [hw, List.take_succ_cons, List.take_zero, Trace.perform_cons_some _ (exec_event hd), Trace.perform_nil] at hafter
      dsimp only at hafter
      have hd' : (after cfg s i).plans.lookup i.id = some { d with events := d.events ++ [⟨"successful_plan_reconciled",
          .succeeded, actor, "custody_verified_before_reservation_release"⟩] } := by
        rw [hafter]
        exact Store.lookup_put_self ..
      refine .of_again (fun e he => ?_) fun w s₁ h₁ => ?_
      · obtain rfl := Option.some.inj (hd'.symm.trans he)
        exact (hs d hd).congr rfl rfl
      obtain ⟨sc₁, hsc₁, hexit₁, (hperform : Trace.perform (exec cfg i.id) s sc₁.writes = (s₁, true))⟩ := h₁
      have hscript : ∀ t, script cfg t (i.again w) = reconcile cfg w t i.id actor := fun t => by
        simp only [script, Invocation.again, hcmd]
      rw [hscript] at hsc₁
      cases reconcile_ok hsc₁ with
      | expired e t plan₁ state₁ =>
          obtain rfl := Option.some.inj ((verifyPlan_ok.mp plan₁).1.symm.trans hd)
          exact absurd (state.symm.trans state₁) (by simp)
      | released e plan₁ _ _ _ _ hw₁ hexit₁' =>
          obtain rfl := Option.some.inj ((verifyPlan_ok.mp plan₁).1.symm.trans hd)
          have hopen₁ : registryOpen cfg w 0 = true := by
            by_contra hopen₁
            rw [if_neg hopen₁, hexit₁] at hexit₁'
            exact absurd hexit₁' (by simp)
          rw [hw₁, if_pos hopen₁, Trace.perform_cons_some _ (exec_event hd), ← hafter] at hperform
          -- the release of the first attempt is the release of the second
          cases hrel : exec cfg i.id (after cfg s i) .release with
          | none => rw [Trace.perform_cons_none _ hrel] at hperform; exact absurd hperform (by simp)
          | some t =>
              rw [Trace.perform_cons_some _ hrel, Trace.perform_nil, Prod.mk.injEq] at hperform
              obtain ⟨registry, hregistry, rfl⟩ := exec_release_eq_some.mp hrel
              rw [← hperform.1]
              have hplan' := verifyPlan_ok.mpr ⟨hd', (verifyPlan_ok.mp plan).2⟩
              refine ⟨_, ⟨_, (hscript _).trans (reconcile_succeeded hids.1 hids.2 hplan' state manifest custody ?_ hopen₁),
                rfl, perform_event_release hd' hregistry⟩, logs_event hd'⟩
              rw [List.any_append, audit, Bool.true_or]

/-- Where `complete` releases the reservation. -/
theorem afterCompletion_release {w : World} {id taskId actor : String} {d : PlanDir} {status : TaskStatus}
    {late : Bool} (h : Write.release ∈ (afterCompletion cfg w id d taskId actor status late).writes) :
    verifyTaskManifest cfg id d = .ok () ∧ verifyAllCustody cfg id d = .ok () ∧ registryOpen cfg w 1 = true ∧
      (afterCompletion cfg w id d taskId actor status late).writes =
        .event ⟨"task_completed", .running, actor, "task_id=" ++ taskId⟩ ::
          transition .running .succeeded actor "all_tasks_succeeded" ++ [.release] := by
  unfold afterCompletion at h ⊢
  dsimp only at h ⊢
  have haccepted : ∀ {x : Ctl Unit}, ¬ Accepted x = false → x = .ok () := fun hx =>
    let ⟨(), h⟩ := accepted_iff.mp (by simpa using hx)
    h
  split_ifs at h ⊢ with h1 h2 h3 h4 h5 h6 h7 h8
  all_goals first
    | exact ⟨haccepted h3, haccepted h7, h8, rfl⟩
    | exact absurd h (by simp [transition])

/-- The registry lock is free for a command that finds it so. -/
theorem registryOpen_free {w w' : World} {n m : Nat} (h : registryOpen cfg w n = true)
    (hfree : w'.registryFree m = true) : registryOpen cfg w' m = true := by
  unfold registryOpen at h ⊢
  obtain ⟨_, h⟩ := accepted_iff.mp h
  rw [openRegistry, check_bind_ok] at h
  refine accepted_iff.mpr ⟨(), ?_⟩
  rw [openRegistry, check_bind_ok, ensure_ok]
  exact ⟨h.1, hfree⟩

/-- **A completion of the last task killed before it released the reservation** is concluded by `reconcile`. -/
theorem repairable_complete {taskId actor status evidenceFile evidenceSha256 : String}
    (hs : ∀ d, s.plans.lookup i.id = some d → Intact cfg d)
    (hcmd : i.command = .complete taskId actor status evidenceFile evidenceSha256) (h : Interrupted cfg s i sc k)
    (hlast : sc.writes.drop k = [.release]) : Repairable cfg s i := by
  have hsc := h.1
  simp only [script, hcmd] at hsc
  obtain ⟨d, t, result, e, c, late, hacc⟩ := complete_ok hsc
  have hd := (verifyPlan_ok.mp hacc.plan).1
  have hmem : Write.release ∈ sc.writes := List.mem_of_mem_drop (by rw [hlast]; exact List.mem_cons_self)
  rw [hacc.script] at hmem
  obtain ⟨hmanifest, hcustody, hopen, hrest⟩ := afterCompletion_release (by simpa using hmem)
  -- the writes before the release
  have htake : sc.writes.take k = [.custody c.leaf c.dir, .task (completedTask t result evidenceFile e c (i.world.clock 0)
      late), .task (sealTaskResult cfg (completedTask t result evidenceFile e c (i.world.clock 0) late)),
      .event ⟨"task_completed", .running, actor, "task_id=" ++ taskId⟩] ++
        transition .running .succeeded actor "all_tasks_succeeded" := by
    have hparts := List.take_append_drop k sc.writes
    have hw := congrArg Script.writes hacc.script
    rw [hrest] at hw
    rw [hlast, hw] at hparts
    rw [hw]
    exact List.append_cancel_right (hparts.trans (by simp [transition]))
  obtain ⟨d', hd', hran⟩ := perform_ran cfg (sc.writes.take k) hd
  rw [← h.after] at hd'
  rw [htake] at hran
  simp only [transition, List.cons_append, List.nil_append, ran_custody, ran_task, ran_event] at hran
  rw [ran_state (by exact hacc.state), ran_event, ran_nil, PlanDir.putTask_putTask _ (by rfl)] at hran
  have hagain : ∀ w actor' s₁, opuValidateIdentifier actor' "actor" = .ok () → registryOpen cfg w 0 = true →
      Completes cfg s i s₁ →
        ∃ s₂, Completes cfg (after cfg s i) ⟨i.id, .reconcile actor', w, none⟩ s₂ ∧ Store.Logs s₁ s₂ := by
    rintro w actor' s₁ hactor' hopen' ⟨sc₁, hsc₁, _, hperform⟩
    rw [h.1, Except.ok.injEq] at hsc₁
    rw [← hsc₁, ← List.take_append_drop k sc.writes, Trace.perform_append_ok, hlast] at hperform
    obtain ⟨u, hu, hrelease⟩ := hperform
    have hafter : after cfg s i = u := by rw [h.after, hu]
    rw [hafter] at hd' ⊢
    cases hrel : exec cfg i.id u .release with
    | none => rw [Trace.perform_cons_none _ hrel] at hrelease; exact absurd hrelease (by simp)
    | some u' =>
        rw [Trace.perform_cons_some _ hrel, Trace.perform_nil, Prod.mk.injEq] at hrelease
        obtain ⟨registry, hregistry, rfl⟩ := exec_release_eq_some.mp hrel
        rw [← hrelease.1]
        have hplan : verifyPlan cfg u i.id = .ok d' :=
          verifyPlan_ok.mpr ⟨hd', by rw [hran]; exact (verifyPlan_ok.mp hacc.plan).2⟩
        refine ⟨_, ⟨_, reconcile_succeeded (d := d') hacc.planId hactor' hplan ?_ ?_ ?_ ?_ hopen', rfl,
          perform_event_release hd' hregistry⟩, logs_event hd'⟩
        · rw [hran]
        · rw [hran]
          exact hmanifest
        · rw [hran]
          exact hcustody
        · rw [hran, List.any_append]
          simp [isCompletionEvent]
  refine ⟨fun e he => intact_before_release hs (fun _ _ _ _ hretry => ?_) h hlast hd he,
    .inr (.inr ⟨⟨_, _, _, _, _, hcmd⟩, hagain⟩), fun hcompletes => ?_⟩
  · rw [hcmd] at hretry
    exact absurd hretry (by simp)
  · obtain ⟨s₁, h₁⟩ := hcompletes
    obtain ⟨s₂, h₂, _⟩ := hagain { i.world with registryFree := fun _ => true } actor s₁ hacc.actorShape
      (registryOpen_free hopen rfl) h₁
    exact ⟨⟨i.id, .reconcile actor, _, none⟩, s₂, rfl, h₂⟩

/-- **Step lemma.** A command killed at a recoverable point leaves what has to be left. -/
theorem repairable_step (hs : ∀ d, s.plans.lookup i.id = some d → Intact cfg d) (hsafe : repairableStep cfg s i)
    (h : Interrupted cfg s i sc k) : Repairable cfg s i := by
  rcases hsafe.1 sc k h with rfl | hcut
  · exact repairable_start hs h
  by_cases hpos : k = 0
  · subst hpos
    exact repairable_start hs h
  cases hcmd : i.command <;> simp only [hcmd] at hcut
  case dispatch actor => exact repairable_dispatch hs hcmd h hcut
  case renew taskId actor lease => exact repairable_renew hs hcmd h hpos hcut
  case retryTask taskId actor =>
    obtain ⟨rfl, hnew⟩ := hcut
    exact repairable_retry hs hcmd h hnew
  case complete taskId actor status evidenceFile evidenceSha256 => exact repairable_complete hs hcmd h hcut
  case reconcile actor => exact repairable_reconcile hs hcmd h hcut

end

/-! ## Runs -/

section
variable {cfg : Config} {s : Store} {i : Invocation}

/-- A process that is not killed on the way gets to the end of its writes. -/
theorem reached_whole {sc : Script} (hsc : script cfg s i = .ok sc) (h : ∀ k, ¬ Interrupted cfg s i sc k) :
    i.reached sc.writes = sc.writes := by
  unfold Invocation.reached
  split
  · rfl
  · rename_i k hk
    refine List.take_of_length_le (Nat.le_of_not_lt fun hlt => h k ⟨hsc, hk, hlt⟩)

/-- **Run lemma.** Every task file of a run that is interrupted at recoverable points only verifies. -/
theorem intact_reached {as : List Invocation} (h : Reached cfg (repairableStep cfg) as s) :
    ∀ id d, s.plans.lookup id = some d → Intact cfg d := by
  refine Trace.Run.invariant (I := fun _ s => ∀ id d, s.plans.lookup id = some d → Intact cfg d) ?_ ?_ h
  · intro s hs id d hd
    rw [hs] at hd
    exact absurd hd (by simp [Store.empty])
  · intro _ s i s' _ ih hsafe hs' id d' hd'
    injection hs' with hs'
    rw [← hs'] at hd'
    rcases after_cases hd' with h1 | ⟨rfl, _, _, _, _, _, rfl⟩ | ⟨rfl, d, sc, hd, hsc, hran⟩
    · exact ih id d' h1
    · exact fun t ht => absurd ht (by simp [PlanDir.files, newPlan])
    by_cases hkill : ∃ k, Interrupted cfg s i sc k
    · obtain ⟨k, hkill⟩ := hkill
      exact (repairable_step (ih i.id) hsafe hkill).verified d' hd'
    · rw [reached_whole hsc fun k hk => hkill ⟨k, hk⟩] at hran
      exact intact_effect (ih i.id) hsafe.2 (ran_effect hsc hd hran)

/-- **Step.** In a run whose commands are killed at recoverable points only, every killed command leaves a store that
    can be repaired. -/
theorem repairable_reached {as : List Invocation} (h : Reached cfg (repairableStep cfg) as s)
    (hsafe : repairableStep cfg s i) {sc : Script} {k : Nat} (hkill : Interrupted cfg s i sc k) :
    Repairable cfg s i :=
  repairable_step (intact_reached h i.id) hsafe hkill

/-- A command that nobody kills is repairable, unless it is a retry of a lost archive. -/
theorem repairableStep_of_whole (hwhole : i.killedAfter = none)
    (hcmd : ∀ taskId actor, i.command ≠ .retryTask taskId actor) : repairableStep cfg s i := by
  refine ⟨fun sc k h => ?_, fun taskId actor _ _ h => absurd h (hcmd taskId actor)⟩
  rw [Interrupted, hwhole] at h
  exact absurd h.2.1 (by simp)

/-- A plan with an approval that still awaits it refuses every command. -/
theorem approval_stuck {d : PlanDir} (hd : s.plans.lookup i.id = some d) (hst : d.state = .awaitingApproval)
    (happroval : d.approval ≠ none) (sc : Script) : script cfg s i ≠ .ok sc := by
  intro h
  have hother : ∀ {e : PlanDir} {state : PlanState}, verifyPlan cfg s i.id = .ok e → e.state = state →
      state ≠ .awaitingApproval → False := fun he hs hne => by
    obtain rfl := Option.some.inj ((verifyPlan_ok.mp he).1.symm.trans hd)
    exact hne (hs.symm.trans hst)
  cases hcmd : i.command <;> simp only [script, hcmd] at h
  case create => obtain ⟨_, _, hacc⟩ := create_ok h; exact absurd (hd.symm.trans hacc.fresh) (by simp)
  case createRollback =>
    obtain ⟨_, _, _, hacc⟩ := createRollback_ok h
    exact absurd (hd.symm.trans hacc.fresh) (by simp)
  case approve =>
    obtain ⟨e, hacc⟩ := approve_ok h
    obtain rfl := Option.some.inj ((verifyPlan_ok.mp hacc.plan).1.symm.trans hd)
    exact happroval hacc.fresh
  case authorize => obtain ⟨_, _, hacc⟩ := authorize_ok h; exact hother hacc.plan hacc.state (by simp)
  case dispatch => obtain ⟨_, _, _, hacc⟩ := dispatch_ok h; exact hother hacc.plan hacc.state (by simp)
  case claim => obtain ⟨_, _, _, hacc⟩ := claim_ok h; exact hother hacc.plan hacc.state (by simp)
  case renew => obtain ⟨_, _, _, hacc⟩ := renew_ok h; exact hother hacc.plan hacc.state (by simp)
  case complete => obtain ⟨_, _, _, _, _, _, hacc⟩ := complete_ok h; exact hother hacc.plan hacc.state (by simp)
  case reconcile =>
    cases reconcile_ok h with
    | released e plan state => exact hother plan state (by simp)
    | expired e t plan state => exact hother plan state (by simp)
  case retryTask => obtain ⟨_, _, _, hacc⟩ := retryTask_ok h; exact hother hacc.plan hacc.state (by simp)

end

/-- Whether a command comes to its end. -/
def completes (cfg : Config) (s : Store) (i : Invocation) : Bool :=
  match script cfg s i with
  | .ok sc => sc.exitCode == 0 && (Trace.perform (exec cfg i.id) s sc.writes).2
  | .error _ => false

/-- `completes` decides whether a command gets to its end. -/
theorem completes_iff {cfg : Config} {s : Store} {i : Invocation} :
    completes cfg s i = true ↔ ∃ s', Completes cfg s i s' := by
  unfold completes Completes
  cases h : script cfg s i with
  | error e => simp
  | ok sc =>
      rw [Bool.and_eq_true, beq_iff_eq]
      constructor
      · exact fun ⟨h1, h2⟩ => ⟨_, sc, rfl, h1, Prod.ext rfl h2⟩
      · rintro ⟨s', sc', hsc, h1, h2⟩
        injection hsc with hsc
        subst hsc
        exact ⟨h1, by rw [h2]⟩

/-! ## Under the lock

The same of processes that ask for the lock of their plan. Where no lock is left the two layers agree, so a run in which
every killed process lets its exit trap run is covered by the above; a process that does not leaves a dead plan. -/

namespace Locked

/-- The command behind its lock, carried out to its end. -/
def Completes (cfg : Config) (s : Locked) (i : Invocation) (s' : Store) : Prop :=
  ∃ sc, s.script cfg i = .ok sc ∧ sc.exitCode = 0 ∧ Trace.perform (exec cfg i.id) s.store sc.writes = (s', true)

/-- The process is killed with writes left to do. -/
def Interrupted (cfg : Config) (s : Locked) (p : Process) (sc : Script) (k : Nat) : Prop :=
  s.script cfg p.invocation = .ok sc ∧ p.invocation.killedAfter = some k ∧ k < sc.writes.length

/-- What an interrupted process has to leave. -/
def Recoverable (cfg : Config) (s : Locked) (p : Process) : Prop :=
  Salvage cfg (s.Completes cfg) ((s.after cfg p).Completes cfg) (s.after cfg p).store p.invocation

/-- No process is killed outright with a lock in its hands, commands are killed at recoverable points only, and no task
    is retried after its millionth retry. -/
def recoverableStep (cfg : Config) (s : Locked) (p : Process) : Prop :=
  s.leaves p = false ∧ repairableStep cfg s.store p.invocation

end Locked

section
variable {cfg : Config} {s : Locked} {t : Store} {p : Process}

theorem completes_unlocked : (Locked.unlocked t).Completes cfg = Completes cfg t := rfl

theorem interrupted_unlocked {sc : Script} {k : Nat} :
    (Locked.unlocked t).Interrupted cfg p sc k ↔ Interrupted cfg t p.invocation sc k := Iff.rfl

/-- Where no lock is left and none is to be left, the two layers ask the same. -/
theorem recoverable_unlocked (h : (Locked.unlocked t).leaves p = false) :
    (Locked.unlocked t).Recoverable cfg p ↔ Repairable cfg t p.invocation := by
  unfold Locked.Recoverable
  rw [after_unlocked h, completes_unlocked, completes_unlocked, unlocked_store]

/-- **Interruptions are recovered from.** In a run whose commands are killed at recoverable points only, and never
    outright with their lock, every killed command leaves verified task files, its full effect on disk or for a later
    command to produce, and a plan that some command completes on. -/
theorem interruption_recoverable {ps : List Process} (h : Locked.Reached cfg (Locked.recoverableStep cfg) ps s)
    (hsafe : Locked.recoverableStep cfg s p) {sc : Script} {k : Nat} (hkill : Locked.Interrupted cfg s p sc k) :
    s.Recoverable cfg p := by
  obtain ⟨hs, hreached⟩ := unlocked_reached h
  obtain ⟨hleaves, hstep⟩ := hsafe
  rw [hs] at hleaves hkill ⊢
  exact (recoverable_unlocked hleaves).mpr (repairable_reached hreached hstep (interrupted_unlocked.mp hkill))

/-- **A lock that is left is the end of the plan.** A command that would have completed, killed outright with the lock
    of its plan, is not recoverable, wherever it is killed. -/
theorem lock_left_unrecoverable {s₁ : Store} (hopen : s.left p.invocation.id = false) (hleaves : s.leaves p = true)
    (hcompletes : s.Completes cfg p.invocation s₁) : ¬ s.Recoverable cfg p := by
  intro hrec
  obtain ⟨i, _, hi, sc, hsc, _⟩ := hrec.live ⟨s₁, hcompletes⟩
  exact dead_refuses (hi ▸ dead_of_leaves hopen hleaves) sc hsc

end

/-- The dispatch of `p1`, killed between the reservation and its receipt by a signal that runs its exit trap. -/
def labDispatching : Process := { labInvocation "p1" (.dispatch "cy") with killedAfter := some 2 }.trapped

theorem interruption_recoverable_dispatching :
    ∃ s ps sc, Locked.Reached lab (Locked.recoverableStep lab) ps s ∧ Locked.Interrupted lab s labDispatching sc 2 ∧
      s.Recoverable lab labDispatching := by
  have hlen : ((script lab (replay lab (labDispatched.take 3)) labDispatching.invocation).toOption.map
      fun sc => decide (2 < sc.writes.length)) = some true := by decide +kernel
  cases hsc : script lab (replay lab (labDispatched.take 3)) labDispatching.invocation with
  | error e => rw [hsc] at hlen; exact absurd hlen (by simp [Except.toOption])
  | ok sc =>
      rw [hsc] at hlen
      have hkill : (Locked.unlocked (replay lab (labDispatched.take 3))).Interrupted lab labDispatching sc 2 :=
        interrupted_unlocked.mpr ⟨hsc, rfl, by simpa [Except.toOption] using hlen⟩
      have hreached : Reached lab (repairableStep lab) (labDispatched.take 3) (replay lab (labDispatched.take 3)) := by
        refine replay_reached fun pre i hpre => ?_
        have hi : i ∈ labDispatched.take 3 := hpre.subset (List.mem_append_right pre List.mem_cons_self)
        simp only [labDispatched, List.take_succ_cons, List.take_zero, List.mem_cons, List.not_mem_nil,
          or_false] at hi
        rcases hi with rfl | rfl | rfl <;> exact repairableStep_of_whole rfl fun _ _ hcommand => by cases hcommand
      refine ⟨_, _, sc, reached_locked hreached, hkill,
        interruption_recoverable (reached_locked hreached) ⟨leaves_trapped, ?_, ?_⟩ hkill⟩
      · rintro _ k ⟨_, hk, _⟩
        obtain rfl : 2 = k := Option.some.inj hk
        exact .inr (show 2 ≤ 3 by decide)
      · exact fun _ _ _ _ h => absurd h (by simp [labDispatching, labInvocation, Invocation.trapped])

/-- The approval of `p1`, killed between the approval record and the rename of the state file by a signal that runs its
    exit trap. -/
def labApproving : Process := { labInvocation "p1" (.approve "bob" "CHG-1") with killedAfter := some 1 }.trapped

/-- What it leaves is refused by every command in every environment. -/
theorem approve_interrupted :
    ∃ s ps, Locked.Reached lab (fun s p => s.leaves p = false) ps s ∧
      (∃ sc, Locked.Interrupted lab s labApproving sc 1) ∧ ¬ s.Recoverable lab labApproving ∧
      ∀ i : Invocation, i.id = "p1" → ∀ sc, (s.after lab labApproving).script lab i ≠ .ok sc := by
  have hleft : ((after lab (replay lab (labDispatched.take 1)) labApproving.invocation).plans.lookup "p1").map
      (fun d => (d.state, d.approval.isSome)) = some (.awaitingApproval, true) := by decide +kernel
  have hcompletes : completes lab (replay lab (labDispatched.take 1)) labApproving.invocation = true := by decide +kernel
  have hreached : Reached lab (fun _ _ => True) (labDispatched.take 1) (replay lab (labDispatched.take 1)) :=
    replay_reached fun _ _ _ => trivial
  generalize replay lab (labDispatched.take 1) = t at hleft hcompletes hreached
  obtain ⟨d, hd, hshape⟩ := Option.map_eq_some_iff.mp hleft
  injection hshape with hst happroval
  have hstuck : ∀ i : Invocation, i.id = "p1" → ∀ sc, script lab (after lab t labApproving.invocation) i ≠ .ok sc :=
    fun i hi => approval_stuck (hi ▸ hd) hst (by rw [← Option.isSome_iff_ne_none]; exact happroval)
  refine ⟨Locked.unlocked t, _, (reached_locked hreached).mono fun _ _ h => h.1, ?_, fun hrec => ?_, fun i hi sc => ?_⟩
  · obtain ⟨_, sc, hsc, _⟩ := completes_iff.mp hcompletes
    obtain ⟨e, hacc⟩ := approve_ok (show approve lab _ _ _ _ _ = .ok sc from hsc)
    exact ⟨sc, interrupted_unlocked.mpr ⟨hsc, rfl, by rw [hacc.script]; simp [transition]⟩⟩
  · have hrep : Repairable lab t labApproving.invocation := (recoverable_unlocked leaves_trapped).mp hrec
    obtain ⟨i, _, hi, sc, hsc, _⟩ := hrep.live (completes_iff.mp hcompletes)
    exact hstuck i hi sc hsc
  · have hafter : (Locked.unlocked t).after lab labApproving = Locked.unlocked (after lab t labApproving.invocation) :=
      after_unlocked leaves_trapped
    rw [hafter, script_unlocked]
    exact hstuck i hi sc

end OraclePatching
