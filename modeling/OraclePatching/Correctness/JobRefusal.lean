import OraclePatching.Correctness.JobSuccess

/-!
# `Correctness.JobRefusal` — what a refused call leaves of a job

`JobDir` adds to a job the two files that `ready` and `approve` write and no command reads, and to the writes of the
engine the names of the files they open: a file system has no names longer than 255 bytes. Its runs are runs of the
engine (`run_refines`).

`ready` and `approve` write their file first and then try the transition, so a call that the transition refuses has
overwritten it. `start` does it the other way round, and a node whose name is too long for its task file stops it in
the state `running`. Every other refusal comes before the first write (`refused_unchanged`).
-/

namespace OraclePatching.Jobs

/-- A job directory with `precheck_evidence.sha256` and `approved_by`. -/
structure JobDir extends Job where
  precheckEvidence : Option String
  approvedBy : Option String

/-- A write with the file it opens. `record` goes to a file under `tasks/`, for a rewrite by way of its temporary file. -/
inductive DirWrite where
  | precheckEvidence (digest : String)
  | approvedBy (actor : String)
  | record (suffix : String) (f : TaskFile)
  | other (w : Write)

variable (hash : PlanBody → Digest)

/-- The effect of a write. Task names are ASCII. -/
def DirWrite.exec (job : JobDir) : DirWrite → Option JobDir
  | .precheckEvidence digest => some { job with precheckEvidence := some digest }
  | .approvedBy actor => some { job with approvedBy := some actor }
  | .record suffix f =>
      if (f.taskId ++ ".json" ++ suffix).toList.length ≤ 255 then some { job with tasks := job.tasks.put f } else none
  | .other w => (Jobs.exec hash job.toJob w).map fun j => { job with toJob := j }

def Write.named (suffix : String) : Write → DirWrite
  | .file f => .record suffix f
  | w => .other w

/-- The writes of a command, with their files. -/
def Command.writes (command : Command) (ws : List Write) : List DirWrite :=
  match command, ws with
  | .ready evidence, _ :: rest => .precheckEvidence evidence :: rest.map (Write.named "")
  | .approve actor, _ :: rest => .approvedBy actor :: rest.map (Write.named "")
  | .start, ws => ws.map (Write.named "")
  | _, ws => ws.map (Write.named ".tmp")

/-- The directory an invocation leaves, and whether it reached its end. -/
def JobDir.run (job : JobDir) (i : Invocation) : JobDir × Bool :=
  match script hash job.toJob i with
  | .error _ => (job, false)
  | .ok ws => Trace.perform (DirWrite.exec hash) job (i.command.writes (i.reached ws))

/-- The call returned an error. -/
def JobDir.Refuses (job : JobDir) (i : Invocation) : Prop := i.killedAfter = none ∧ (job.run hash i).2 = false

/-- The calls that write before their last check, where that shows. -/
def Harmless (job : JobDir) (i : Invocation) : Prop :=
  match i.command with
  | .ready evidence => sha256Shape evidence = true → job.precheckEvidence = some evidence
  | .approve actor =>
      opuValidateIdentifier actor "approver" = .ok () → i.world.lockFree = true → actor ≠ job.plan.requester →
        job.approvedBy = some actor
  | .start => i.world.lockFree = true → job.plan.intact hash → job.state ≠ .scheduled
  | _ => True

/-! ## Runs of the engine

A write of the directory is a write of the engine or one that the engine does not see. So a run of directories is a
run of jobs, and the results about the engine hold of it. -/

/-- The write without its file. -/
def DirWrite.plain : DirWrite → Write
  | .precheckEvidence _ | .approvedBy _ => .side
  | .record _ f => .file f
  | .other w => w

section
variable {hash} {job job' : JobDir} {i : Invocation} {ws : List Write} {dws : List DirWrite}

@[simp] theorem Write.named_plain (suffix : String) (w : Write) : (w.named suffix).plain = w := by
  cases w <;> rfl

@[simp] theorem map_named_plain (suffix : String) (ws : List Write) :
    (ws.map (Write.named suffix)).map DirWrite.plain = ws := by
  induction ws with
  | nil => rfl
  | cons w ws ih => rw [List.map_cons, List.map_cons, ih, Write.named_plain]

/-- What a write does to the directory, it does to the job. -/
theorem exec_plain {w : DirWrite} (h : DirWrite.exec hash job w = some job') :
    exec hash job.toJob w.plain = some job'.toJob := by
  cases w with
  | precheckEvidence digest =>
      obtain rfl := Option.some.inj h
      rfl
  | approvedBy actor =>
      obtain rfl := Option.some.inj h
      rfl
  | record suffix f =>
      simp only [DirWrite.exec] at h
      split at h
      · obtain rfl := Option.some.inj h
        rfl
      · exact absurd h (by simp)
  | other w =>
      obtain ⟨j, hj, rfl⟩ := Option.map_eq_some_iff.mp h
      exact hj

/-- A list of writes does to the job what a part of it does in the engine. -/
theorem perform_plain (job : JobDir) (dws : List DirWrite) :
    ∃ k, (Trace.perform (DirWrite.exec hash) job dws).1.toJob =
      (Trace.perform (exec hash) job.toJob ((dws.map DirWrite.plain).take k)).1 := by
  induction dws generalizing job with
  | nil => exact ⟨0, rfl⟩
  | cons w dws ih =>
      cases hw : DirWrite.exec hash job w with
      | none => exact ⟨0, by rw [Trace.perform_cons_none _ hw]; rfl⟩
      | some job' =>
          obtain ⟨k, hk⟩ := ih job'
          refine ⟨k + 1, ?_⟩
          rw [Trace.perform_cons_some _ hw, List.map_cons, List.take_succ_cons,
            Trace.perform_cons_some _ (exec_plain hw), hk]

/-- A command writes the same in both, wherever it is cut. -/
theorem writes_plain {w : World} {job : Job} {command : Command} {ws : List Write} {killedAfter : Option Nat}
    (h : script hash job ⟨command, w, killedAfter⟩ = .ok ws) (k : Nat) :
    (command.writes (ws.take k)).map DirWrite.plain = ws.take k := by
  cases command with
  | ready evidence =>
      simp only [script, ready, ensure_bind_ok, Except.ok.injEq] at h
      obtain ⟨-, rfl⟩ := h
      cases k with
      | zero => rfl
      | succ k => exact congrArg (Write.side :: ·) (map_named_plain "" _)
  | approve actor =>
      simp only [script, approve, check_bind_ok, Except.ok.injEq] at h
      obtain ⟨-, -, -, rfl⟩ := h
      cases k with
      | zero => rfl
      | succ k => exact congrArg (Write.side :: ·) (map_named_plain "" _)
  | submit => exact map_named_plain ".tmp" _
  | start => exact map_named_plain "" _
  | claim actor lease => exact map_named_plain ".tmp" _
  | reconcile => exact map_named_plain ".tmp" _
  | complete taskId actor status evidence => exact map_named_plain ".tmp" _

/-- **Every run of a directory is a run of the engine**, whose processes may stop earlier. -/
theorem run_refines (job : JobDir) (i : Invocation) :
    ∃ k, (job.run hash i).1.toJob = after hash job.toJob { i with killedAfter := some k } := by
  obtain ⟨command, w, killedAfter⟩ := i
  have hsame : ∀ k, script hash job.toJob ⟨command, w, some k⟩ = script hash job.toJob ⟨command, w, killedAfter⟩ :=
    fun _ => rfl
  unfold JobDir.run after
  cases hscript : script hash job.toJob ⟨command, w, killedAfter⟩ with
  | error e => exact ⟨0, by rw [hsame, hscript]⟩
  | ok ws =>
      obtain ⟨n, hn⟩ : ∃ n, (⟨command, w, killedAfter⟩ : Invocation).reached ws = ws.take n := by
        unfold Invocation.reached
        cases killedAfter with
        | none => exact ⟨ws.length, (List.take_length).symm⟩
        | some k => exact ⟨k, rfl⟩
      obtain ⟨k, hk⟩ := @perform_plain hash job (command.writes (ws.take n))
      refine ⟨min k n, ?_⟩
      rw [hsame, hscript]
      show (Trace.perform (DirWrite.exec hash) job (command.writes _)).1.toJob =
        (Trace.perform (exec hash) job.toJob (ws.take (min k n))).1
      rw [hn, hk, writes_plain hscript, List.take_take]

/-! ## Refused calls

A call is refused by a guard, before it writes, or by a write. The second happens with transitions and with file
names, so the proofs ask what a list of writes leaves that stops in the middle. -/

/-- A write without a file of its own is the engine's. -/
theorem exec_other (w : Write) :
    DirWrite.exec hash job (.other w) = (exec hash job.toJob w).map fun j => { job with toJob := j } := rfl

theorem exec_state {expected next : JobState} (hintact : job.plan.intact hash) (hstate : job.state = expected) :
    DirWrite.exec hash job (.other (.state expected next)) = some { job with state := next } := by
  rw [exec_other, exec, if_pos ⟨hintact, hstate⟩]
  rfl

theorem exec_state_none {expected next : JobState} (h : ¬ (job.plan.intact hash ∧ job.state = expected)) :
    DirWrite.exec hash job (.other (.state expected next)) = none := by
  rw [exec_other, exec, if_neg h]
  rfl

/-- A transition is refused as a whole or carried out as a whole. -/
theorem perform_transition (suffix : String) (expected next : JobState) (job : JobDir) :
    Trace.perform (DirWrite.exec hash) job ((transition expected next).map (Write.named suffix)) =
      if job.plan.intact hash ∧ job.state = expected then ({ job with state := next }, true) else (job, false) := by
  show Trace.perform (DirWrite.exec hash) job [.other (.state expected next), .other .side] = _
  split
  · rename_i h
    rw [Trace.perform_cons_some _ (exec_state h.1 h.2)]
    rfl
  · rename_i h
    rw [Trace.perform_cons_none _ (exec_state_none h)]

/-- Nothing in the list is refused in a running job. -/
def Smooth (hash : PlanBody → Digest) (ws : List Write) : Prop :=
  ∀ job : JobDir, job.plan.intact hash → job.state = .running →
    (Trace.perform (DirWrite.exec hash) job (ws.map (Write.named ".tmp"))).2 = true

/-- Writes that no command reads leave the directory as it is. -/
theorem perform_sides {ws : List Write} (h : ∀ w ∈ ws, w = .side) (suffix : String) (job : JobDir) :
    Trace.perform (DirWrite.exec hash) job (ws.map (Write.named suffix)) = (job, true) := by
  refine Trace.perform_settled fun w hw => ?_
  obtain ⟨w', hw', rfl⟩ := List.mem_map.mp hw
  obtain rfl := h w' hw'
  rfl

theorem smooth_sides {ws : List Write} (h : ∀ w ∈ ws, w = .side) : Smooth hash ws := by
  intro job _ _
  rw [perform_sides h]

theorem smooth_side {ws : List Write} (h : Smooth hash ws) : Smooth hash (.side :: ws) := h

theorem smooth_transition (next : JobState) {sides : List Write} (h : ∀ w ∈ sides, w = .side) :
    Smooth hash (transition .running next ++ sides) := by
  intro job hintact hstate
  have htransition : Trace.perform (DirWrite.exec hash) job ((transition .running next).map (Write.named ".tmp")) =
      ({ job with state := next }, true) := by
    rw [perform_transition, if_pos ⟨hintact, hstate⟩]
  rw [List.map_append, Trace.perform_append _ _ _ (by rw [htransition]), htransition, perform_sides h]

/-- **A command that rewrites one task file first** is refused at that file or not at all. -/
theorem perform_rewrite {f : TaskFile} {rest : List Write} (hintact : job.plan.intact hash)
    (hstate : job.state = .running) (hrest : Smooth hash rest)
    (h : (Trace.perform (DirWrite.exec hash) job ((.side :: .file f :: rest).map (Write.named ".tmp"))).2 = false) :
    (Trace.perform (DirWrite.exec hash) job ((.side :: .file f :: rest).map (Write.named ".tmp"))).1 = job := by
  have hside : DirWrite.exec hash job (Write.side.named ".tmp") = some job := rfl
  rw [List.map_cons, Trace.perform_cons_some _ hside, List.map_cons] at h ⊢
  by_cases hname : (f.taskId ++ ".json" ++ ".tmp").toList.length ≤ 255
  · have hfile : DirWrite.exec hash job ((Write.file f).named ".tmp") = some { job with tasks := job.tasks.put f } := by
      simp only [Write.named, DirWrite.exec]
      rw [if_pos hname]
    rw [Trace.perform_cons_some _ hfile] at h
    have hdone := hrest { job with tasks := job.tasks.put f } hintact hstate
    exact absurd (h.symm.trans hdone) (by simp)
  · have hfile : DirWrite.exec hash job ((Write.file f).named ".tmp") = none := by
      simp only [Write.named, DirWrite.exec]
      rw [if_neg hname]
    rw [Trace.perform_cons_none _ hfile]

theorem afterSuccess_smooth (files : List TaskFile) : Smooth hash (afterSuccess files) := by
  have htransition : ∀ next, Smooth hash (transition .running next) := fun next => by
    have h : Smooth hash (transition .running next ++ []) := smooth_transition next (by simp)
    rwa [List.append_nil] at h
  unfold afterSuccess
  split
  · exact htransition _
  · split
    · exact smooth_sides (by simp)
    · split
      · exact htransition _
      · exact htransition _

/-- No write of `start` after its transition changes the state. -/
theorem start_state {job : JobDir} {ws : List Write} (h : ∀ w ∈ ws, w = .side ∨ ∃ f, w = .file f) :
    (Trace.perform (DirWrite.exec hash) job (ws.map (Write.named ""))).1.state = job.state := by
  refine Trace.perform_invariant (I := fun j : JobDir => j.state = job.state) ?_ rfl
  intro j j' w hw hj hexec
  obtain ⟨w', hw', rfl⟩ := List.mem_map.mp hw
  rcases h w' hw' with rfl | ⟨f, rfl⟩
  · obtain rfl := Option.some.inj hexec
    exact hj
  · simp only [Write.named, DirWrite.exec] at hexec
    split at hexec
    · obtain rfl := Option.some.inj hexec
      exact hj
    · exact absurd hexec (by simp)

/-! ### Command by command -/

variable {w : World}

theorem run_error {command : Command} {e : Refusal} (h : script hash job.toJob ⟨command, w, none⟩ = .error e) :
    job.run hash ⟨command, w, none⟩ = (job, false) := by
  unfold JobDir.run
  rw [h]

theorem run_ok {command : Command} {ws : List Write} (h : script hash job.toJob ⟨command, w, none⟩ = .ok ws) :
    job.run hash ⟨command, w, none⟩ = Trace.perform (DirWrite.exec hash) job (command.writes ws) := by
  unfold JobDir.run
  rw [h]
  rfl

/-- `submit` begins with its transition. -/
theorem refused_submit (h : (job.run hash ⟨.submit, w, none⟩).2 = false) :
    (job.run hash ⟨.submit, w, none⟩).1 = job := by
  have hrun : job.run hash ⟨.submit, w, none⟩ = _ :=
    (run_ok rfl).trans (perform_transition ".tmp" .draft .prechecking job)
  rw [hrun] at h ⊢
  split at h
  · exact absurd h (by simp)
  · rename_i hno
    rw [if_neg hno]

/-- A file that is written before the transition stays when the transition is refused. -/
theorem perform_side_first {first : DirWrite} {job₁ : JobDir} {expected next : JobState}
    (hfirst : DirWrite.exec hash job first = some job₁)
    (h : (Trace.perform (DirWrite.exec hash) job
      (first :: (transition expected next).map (Write.named ""))).2 = false) :
    (Trace.perform (DirWrite.exec hash) job (first :: (transition expected next).map (Write.named ""))).1 = job₁ := by
  rw [Trace.perform_cons_some _ hfirst, perform_transition] at h ⊢
  split at h
  · exact absurd h (by simp)
  · rename_i hno
    rw [if_neg hno]

/-- **`ready`** writes the digest before its transition. -/
theorem refused_ready {evidence : String} (h : (job.run hash ⟨.ready evidence, w, none⟩).2 = false) :
    (job.run hash ⟨.ready evidence, w, none⟩).1 = job ↔
      (sha256Shape evidence = true → job.precheckEvidence = some evidence) := by
  by_cases hshape : sha256Shape evidence = true
  · have hscript : script hash job.toJob ⟨.ready evidence, w, none⟩ =
        .ok (.side :: transition .prechecking .awaitingApproval) := by
      simp only [script, ready, ensure_bind_ok]
      exact ⟨hshape, trivial⟩
    rw [run_ok hscript] at h ⊢
    have hleft := perform_side_first (show DirWrite.exec hash job (.precheckEvidence evidence) = some _ from rfl) h
    constructor
    · intro hsame _
      exact (congrArg JobDir.precheckEvidence (hleft.symm.trans hsame)).symm
    · intro hstored
      refine hleft.trans ?_
      rw [← hstored hshape]
  · have hscript : ∃ e, script hash job.toJob ⟨.ready evidence, w, none⟩ = .error e := by
      simp only [script, ready, ensure, if_neg hshape]
      exact ⟨_, rfl⟩
    obtain ⟨e, hscript⟩ := hscript
    rw [run_error hscript]
    exact ⟨fun _ hyes => absurd hyes hshape, fun _ => rfl⟩

/-- **`approve`** writes the approver before its transition. -/
theorem refused_approve {actor : String} (h : (job.run hash ⟨.approve actor, w, none⟩).2 = false) :
    (job.run hash ⟨.approve actor, w, none⟩).1 = job ↔
      (opuValidateIdentifier actor "approver" = .ok () → w.lockFree = true → actor ≠ job.plan.requester →
        job.approvedBy = some actor) := by
  cases hscript : script hash job.toJob ⟨.approve actor, w, none⟩ with
  | error e =>
      rw [run_error hscript]
      refine ⟨fun _ hactor hlock hother => ?_, fun _ => rfl⟩
      -- with all three guards passed there is no error
      have hok : approve w job.toJob actor = .ok (.side :: transition .awaitingApproval .scheduled) := by
        simp only [approve, lock, check_bind_ok, ensure_ok]
        exact ⟨hactor, hlock, hother, trivial⟩
      exact absurd (hscript.symm.trans hok) (by simp)
  | ok ws =>
      have hguards : script hash job.toJob ⟨.approve actor, w, none⟩ = .ok ws := hscript
      simp only [script, approve, lock, check_bind_ok, ensure_ok, Except.ok.injEq] at hguards
      obtain ⟨hactor, hlock, hother, rfl⟩ := hguards
      rw [run_ok hscript] at h ⊢
      have hleft := perform_side_first (show DirWrite.exec hash job (.approvedBy actor) = some _ from rfl) h
      constructor
      · intro hsame _ _ _
        exact (congrArg JobDir.approvedBy (hleft.symm.trans hsame)).symm
      · intro hstored
        refine hleft.trans ?_
        rw [← hstored hactor hlock hother]

/-- **`start`** makes its transition before it opens the task files. -/
theorem refused_start :
    (job.run hash ⟨.start, w, none⟩).1 = job ↔
      (w.lockFree = true → job.plan.intact hash → job.state ≠ .scheduled) := by
  by_cases hlock : w.lockFree = true
  · have hscript : script hash job.toJob ⟨.start, w, none⟩ = .ok (transition .scheduled .running ++
        ((plannedTasks job.jobId job.plan.toPlanBody).flatMap createTask ++ [.side])) := by
      simp only [script, start, lock, check_bind_ok, ensure_ok, Except.ok.injEq]
      exact ⟨hlock, by rw [List.append_assoc]⟩
    have hwrites : ∀ ws, Command.start.writes ws = ws.map (Write.named "") := fun _ => rfl
    rw [run_ok hscript, hwrites, List.map_append]
    have htransition := @perform_transition hash "" .scheduled .running job
    by_cases hready : job.plan.intact hash ∧ job.state = .scheduled
    · -- whatever stops it later, the job is running
      rw [if_pos hready] at htransition
      rw [Trace.perform_append _ _ _ (by rw [htransition]), htransition]
      have hstate := @start_state hash { job with state := .running }
        ((plannedTasks job.jobId job.plan.toPlanBody).flatMap createTask ++ [.side]) (by
          intro w hw
          rcases List.mem_append.mp hw with hw | hw
          · obtain ⟨t, -, hw⟩ := List.mem_flatMap.mp hw
            simp only [createTask, List.mem_cons, List.not_mem_nil, or_false] at hw
            rcases hw with rfl | rfl
            · exact .inr ⟨_, rfl⟩
            · exact .inr ⟨_, rfl⟩
          · exact .inl (List.mem_singleton.mp hw))
      constructor
      · intro hsame
        have hrunning : JobState.running = job.state := hstate.symm.trans (congrArg (fun j : JobDir => j.state) hsame)
        exact absurd (hrunning.trans hready.2) (by decide)
      · intro hno
        exact absurd hready.2 (hno hlock hready.1)
    -- the first write is refused, and nothing follows it
    · rw [if_neg hready] at htransition
      have hstop : ∀ vs, Trace.perform (DirWrite.exec hash) job
          ((transition .scheduled .running).map (Write.named "") ++ vs) = (job, false) := by
        intro vs
        show Trace.perform (DirWrite.exec hash) job (.other (.state .scheduled .running) :: (.other .side :: vs)) = _
        rw [Trace.perform_cons_none _ (exec_state_none hready)]
      rw [hstop]
      exact ⟨fun _ _ hintact hstate => hready ⟨hintact, hstate⟩, fun _ => rfl⟩
  -- without the lock there is no write at all
  · have hscript : ∃ e, script hash job.toJob ⟨.start, w, none⟩ = .error e := by
      simp only [script, start, lock, ensure, if_neg hlock]
      exact ⟨_, rfl⟩
    obtain ⟨e, hscript⟩ := hscript
    rw [run_error hscript]
    exact ⟨fun _ hyes => absurd hyes hlock, fun _ => rfl⟩

/-- `claim` rewrites a file that is there. -/
theorem refused_claim {actor lease : String} (h : (job.run hash ⟨.claim actor lease, w, none⟩).2 = false) :
    (job.run hash ⟨.claim actor lease, w, none⟩).1 = job := by
  cases hscript : script hash job.toJob ⟨.claim actor lease, w, none⟩ with
  | error e => rw [run_error hscript]
  | ok ws =>
      have hguards : claim hash w job.toJob actor lease = .ok ws := hscript
      simp only [claim, readState, bind_ok, ensure_ok, need_ok, Except.ok.injEq] at hguards
      obtain ⟨_, _, _, _, _, _, state, ⟨_, hintact, rfl⟩, _, hstate, seconds, _, _, _, _, _, f, _, t, _, rfl⟩ := hguards
      rw [run_ok hscript] at h ⊢
      exact perform_rewrite hintact hstate (smooth_sides (by simp)) h

theorem refused_reconcile (h : (job.run hash ⟨.reconcile, w, none⟩).2 = false) :
    (job.run hash ⟨.reconcile, w, none⟩).1 = job := by
  cases hscript : script hash job.toJob ⟨.reconcile, w, none⟩ with
  | error e => rw [run_error hscript]
  | ok ws =>
      have hguards : reconcile hash w job.toJob = .ok ws := hscript
      simp only [reconcile, readState, bind_ok, ensure_ok, need_ok, Except.ok.injEq] at hguards
      obtain ⟨_, _, state, ⟨_, hintact, rfl⟩, _, hstate, f, _, t, _, rfl⟩ := hguards
      rw [run_ok hscript] at h ⊢
      exact perform_rewrite hintact hstate (smooth_transition .paused (by simp)) h

theorem refused_complete {taskId actor evidence : String} {status : TaskStatus}
    (h : (job.run hash ⟨.complete taskId actor status evidence, w, none⟩).2 = false) :
    (job.run hash ⟨.complete taskId actor status evidence, w, none⟩).1 = job := by
  cases hscript : script hash job.toJob ⟨.complete taskId actor status evidence, w, none⟩ with
  | error e => rw [run_error hscript]
  | ok ws =>
      have hguards : complete hash w job.toJob taskId actor status evidence = .ok ws := hscript
      simp only [complete, readState, bind_ok, ensure_ok, need_ok, Except.ok.injEq] at hguards
      obtain ⟨_, _, _, _, _, _, _, _, state, ⟨_, hintact, rfl⟩, _, hstate, f, _, _, _, t, _, _, _, _, _, rfl⟩ := hguards
      rw [run_ok hscript] at h ⊢
      refine perform_rewrite hintact hstate ?_ h
      split
      · have hpaused : Smooth hash (transition .running .paused ++ []) := smooth_transition .paused (by simp)
        rwa [List.append_nil] at hpaused
      · exact smooth_side (afterSuccess_smooth _)

end

/-- **Refused calls.** Whatever the job and the call, a call that returns an error leaves the directory as it was exactly
    if it is harmless: no `ready` or `approve` that has overwritten its file before the transition refused it, and no
    `start` that a task name has stopped after the transition. -/
theorem refused_unchanged {hash : PlanBody → Digest} {job : JobDir} {i : Invocation} (h : job.Refuses hash i) :
    (job.run hash i).1 = job ↔ Harmless hash job i := by
  obtain ⟨command, w, killedAfter⟩ := i
  obtain ⟨rfl, h⟩ := h
  cases command with
  | submit => exact ⟨fun _ => trivial, fun _ => refused_submit h⟩
  | ready evidence => exact refused_ready h
  | approve actor => exact refused_approve h
  | start => exact refused_start
  | claim actor lease => exact ⟨fun _ => trivial, fun _ => refused_claim h⟩
  | reconcile => exact ⟨fun _ => trivial, fun _ => refused_reconcile h⟩
  | complete taskId actor status evidence => exact ⟨fun _ => trivial, fun _ => refused_complete h⟩

/-! ## One job -/

/-- Runs from a new job directory. -/
def JobDir.Reached (hash : PlanBody → Digest) : List Invocation → JobDir → Prop :=
  Trace.Run (fun job i => some (job.run hash i).1)
    (fun job => Created hash job.toJob ∧ job.precheckEvidence = none ∧ job.approvedBy = none) fun _ _ => True

/-- A scheduled job: submitted, ready and approved. -/
def labScheduled : JobDir := labBegin.foldl (fun job i => (job.run labHash i).1) ⟨labJob .gridRolling ["db1"], none, none⟩

/-- Whatever is called on the new job, what is left is reached. -/
theorem labRun_reached (as : List Invocation) :
    JobDir.Reached labHash as (as.foldl (fun job i => (job.run labHash i).1) ⟨labJob .gridRolling ["db1"], none, none⟩) :=
  Trace.Run.of_foldl (f := fun job i => (JobDir.run labHash job i).1)
    ⟨labJob_created .gridRolling ["db1"] (by decide +kernel), rfl, rfl⟩ fun _ _ _ => trivial

theorem labScheduled_reached : labScheduled.Reached labHash labBegin := labRun_reached labBegin

/-- The job runs, and its first task is claimed. -/
def labClaimed : JobDir :=
  [labStep .start, labStep (.claim "agent" "300")].foldl (fun job i => (job.run labHash i).1) labScheduled

theorem labClaimed_reached : ∃ as, labClaimed.Reached labHash as := by
  refine ⟨labBegin ++ [labStep .start, labStep (.claim "agent" "300")], ?_⟩
  rw [labClaimed, labScheduled, ← List.foldl_append]
  exact labRun_reached _

/-- Calls that come at the wrong time, from the wrong actor or with a bad digest. -/
def labRefused : List Invocation :=
  [labStep .submit, labStep (.ready "not a digest"), labStep (.approve "rita"), labStep .start,
    labStep (.claim "agent" "300"), labStep .reconcile,
    labStep (.complete "001-apply-db1" "bert" .succeeded labEvidence),
    ⟨.complete "001-apply-db1" "agent" .succeeded labEvidence, ⟨2000, true⟩, none⟩,
    ⟨.approve "bert", ⟨1000, false⟩, none⟩]

/-- None of the nine calls leaves a trace. -/
theorem refused_unchanged_claimed : (∃ as, labClaimed.Reached labHash as) ∧ ∀ i ∈ labRefused,
    labClaimed.Refuses labHash i ∧ (labClaimed.run labHash i).1 = labClaimed := by
  have hall : (labRefused.all fun i => i.killedAfter.isNone && !(labClaimed.run labHash i).2) = true := by
    decide +kernel
  have hstate : labClaimed.state ≠ .scheduled := by decide +kernel
  have hrequester : labClaimed.plan.requester = "rita" := by decide +kernel
  refine ⟨labClaimed_reached, fun i hi => ?_⟩
  have hrefused : labClaimed.Refuses labHash i := by
    have hboth := List.all_eq_true.mp hall i hi
    rw [Bool.and_eq_true, Option.isNone_iff_eq_none, Bool.not_eq_true'] at hboth
    exact hboth
  refine ⟨hrefused, (refused_unchanged hrefused).mpr ?_⟩
  simp only [labRefused, List.mem_cons, List.not_mem_nil, or_false] at hi
  rcases hi with rfl | rfl | rfl | rfl | rfl | rfl | rfl | rfl | rfl
  case inr.inl =>
    have hshape : sha256Shape "not a digest" ≠ true := by decide +kernel
    exact fun h => absurd h hshape
  case inr.inr.inl => exact fun _ _ hother => absurd hrequester.symm hother
  case inr.inr.inr.inl => exact fun _ _ => hstate
  case inr.inr.inr.inr.inr.inr.inr.inr => exact fun _ hlock => absurd hlock (by decide)
  all_goals trivial

/-- The approver of a scheduled job is overwritten by a second approval, which is refused. -/
theorem refused_approval_stored : ∃ as job, JobDir.Reached labHash as job ∧
    job.Refuses labHash (labStep (.approve "bert")) ∧ (job.run labHash (labStep (.approve "bert"))).1 ≠ job := by
  refine ⟨labBegin, labScheduled, labScheduled_reached, ⟨rfl, by decide +kernel⟩, fun hsame => ?_⟩
  have hstored : (labScheduled.run labHash (labStep (.approve "bert"))).1.approvedBy = some "bert" := by decide +kernel
  have hfirst : labScheduled.approvedBy = some "anna" := by decide +kernel
  rw [hsame, hfirst] at hstored
  exact absurd hstored (by decide)

end OraclePatching.Jobs
