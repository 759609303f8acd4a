import OraclePatching.Jobs.Engine

/-!
# `Correctness.JobSuccess` — a job that has succeeded has done all its tasks, unless a `start` was cut in the middle

`Change` lists what one process can do to a job, killed or not. Two invariants go through it. `Sound` holds in every
run: the task files are those of planned tasks, and in a job that has succeeded every record says so. `Whole` holds
when each `start` got either to none of its task records or to all of them: a job with a record has them all. A
`start` that is killed in between leaves a job that can succeed without the missing tasks
(`cut_start_succeeds`).
-/

namespace OraclePatching.Jobs

variable {hash : PlanBody → Digest} {job job' : Job} {i : Invocation} {ws : List Write}

/-! ## What success should mean

Every planned task is there and done. The other half of the claim is about jobs that have failed: they are not to
succeed any more. -/

/-- The planned task has one complete record, which says that it succeeded. -/
def Done (job : Job) (p : Task) : Prop :=
  ∃ t, (⟨p.taskId, some t⟩ : TaskFile) ∈ job.tasks ∧ t.stage = p.stage ∧ t.node = p.node ∧ t.status = .succeeded ∧
    ∀ f ∈ job.tasks, ∀ t', f.record = some t' → t'.stage = p.stage → t'.node = p.node → f.taskId = p.taskId

def AllDone (job : Job) : Prop := ∀ p ∈ plannedTasks job.jobId job.plan.toPlanBody, Done job p

/-- A task has failed, or its outcome is unknown. -/
def Spoiled (job : Job) : Prop := ∃ f ∈ job.tasks, f.is .failed = true ∨ f.is .unknown = true

/-! ## The condition

A `start` that is killed among its task records has made a smaller job of it. Before the first record nothing can
be claimed, and after the last one everything is there. -/

/-- The write finishes a task record. -/
def Write.completes : Write → Bool
  | .file f => f.record.isSome
  | _ => false

/-- The writes the process does not get to. -/
def Invocation.left (i : Invocation) (ws : List Write) : List Write :=
  match i.killedAfter with
  | none => []
  | some k => ws.drop k

/-- A `start` is not killed after its first task record and before its last one. -/
def Invocation.isSafe (i : Invocation) (ws : List Write) : Bool :=
  match i.command with
  | .start => !(i.reached ws).any Write.completes || !(i.left ws).any Write.completes
  | _ => true

def safeStep (hash : PlanBody → Digest) (job : Job) (i : Invocation) : Prop :=
  ∀ ws, script hash job i = .ok ws → i.isSafe ws = true

/-! ## The planned tasks -/

/-- The tasks of the nodes are to apply or to validate. -/
theorem mem_nodeTasks {jobId : String} {index : Nat} {nodes : List String} {p : Task}
    (h : p ∈ nodeTasks jobId index nodes) : p.node ∈ nodes ∧ (p.stage = "apply" ∨ p.stage = "validate") := by
  induction nodes generalizing index with
  | nil => exact absurd h (by simp [nodeTasks])
  | cons node nodes ih =>
      rw [nodeTasks, List.mem_cons, List.mem_cons] at h
      rcases h with rfl | rfl | h
      · exact ⟨List.mem_cons_self, .inl rfl⟩
      · exact ⟨List.mem_cons_self, .inr rfl⟩
      · exact ⟨List.mem_cons_of_mem node (ih h).1, (ih h).2⟩

theorem nodeTasks_numbers (jobId : String) (index : Nat) (nodes : List String) :
    (nodeTasks jobId index nodes).map (fun p => taskNumber p.taskId) =
      (List.range' (index + 1) (2 * nodes.length)).map (Decimal.padded 3) := by
  induction nodes generalizing index with
  | nil => rfl
  | cons node nodes ih =>
      rw [nodeTasks, List.map_cons, List.map_cons, ih, List.length_cons, Nat.mul_succ, List.range'_succ,
        List.range'_succ]
      simp [newTask, taskNumber_taskIdOf]

/-- **Distinct names.** -/
theorem plannedTasks_ids (jobId : String) (plan : PlanBody) : ((plannedTasks jobId plan).map (·.taskId)).Nodup := by
  have hnumbers : ((plannedTasks jobId plan).map fun p => taskNumber p.taskId).Nodup := by
    unfold plannedTasks
    rw [List.map_append, nodeTasks_numbers]
    cases plan.topology with
    | gridRolling =>
        rw [List.map_nil, List.append_nil]
        exact List.Nodup.map (fun _ _ h => Decimal.padded_injective h) List.nodup_range'
    | databaseRolling =>
        have hcluster : (clusterTasks jobId (2 * plan.nodes.length)).map (fun p => taskNumber p.taskId) =
            (List.range' (0 + 1 + 2 * plan.nodes.length) 2).map (Decimal.padded 3) := by
          rw [Nat.add_comm (0 + 1)]
          simp [clusterTasks, newTask, taskNumber_taskIdOf, List.range'_succ]
        rw [hcluster, ← List.map_append, List.range'_append_1]
        exact List.Nodup.map (fun _ _ h => Decimal.padded_injective h) List.nodup_range'
  have hmap : ((plannedTasks jobId plan).map (·.taskId)).map taskNumber =
      (plannedTasks jobId plan).map fun p => taskNumber p.taskId := by
    rw [List.map_map]
    rfl
  rw [← hmap] at hnumbers
  exact hnumbers.of_map

/-- **Distinct work.** -/
theorem plannedTasks_work (jobId : String) (plan : PlanBody) (hnodes : plan.nodes.Nodup) :
    ((plannedTasks jobId plan).map fun p => (p.stage, p.node)).Nodup := by
  have hnode : ∀ index, ((nodeTasks jobId index plan.nodes).map fun p => (p.stage, p.node)).Nodup := by
    generalize plan.nodes = nodes at hnodes
    induction nodes with
    | nil => exact fun _ => List.nodup_nil
    | cons node nodes ih =>
        intro index
        obtain ⟨hout, hnodup⟩ := List.nodup_cons.mp hnodes
        rw [nodeTasks, List.map_cons, List.map_cons, List.nodup_cons, List.nodup_cons, List.mem_cons]
        have hother : ∀ stage, (stage, node) ∉ (nodeTasks jobId (index + 2) nodes).map fun p => (p.stage, p.node) := by
          intro stage h
          obtain ⟨p, hp, heq⟩ := List.mem_map.mp h
          exact hout ((Prod.mk.inj heq).2 ▸ (mem_nodeTasks hp).1)
        refine ⟨?_, hother _, ih hnodup _⟩
        rintro (h | h)
        · exact absurd h (by simp [newTask])
        · exact hother _ h
  unfold plannedTasks
  rw [List.map_append, List.nodup_append]
  refine ⟨hnode 0, ?_, ?_⟩
  · cases plan.topology <;> simp [clusterTasks, newTask]
  -- the tasks of the cluster have stages of their own
  · rintro a ha b hb rfl
    obtain ⟨p, hp, rfl⟩ := List.mem_map.mp ha
    have hstage := (mem_nodeTasks hp).2
    cases htop : plan.topology with
    | gridRolling => rw [htop] at hb; exact absurd hb (by simp)
    | databaseRolling =>
        rw [htop] at hb
        simp only [clusterTasks, newTask, List.map_cons, List.map_nil, List.mem_cons, List.not_mem_nil, or_false,
          Prod.mk.injEq] at hb
        rcases hb with ⟨h, -⟩ | ⟨h, -⟩ <;> rcases hstage with h' | h' <;> rw [h'] at h <;> exact absurd h (by decide)

/-! ## Writing task files

`start` writes each file twice, empty and with its record. What is there afterwards is what was written last under
each name. -/

def putAll (files : Directory TaskFile.taskId) (fs : List TaskFile) : Directory TaskFile.taskId :=
  fs.foldl Directory.put files

/-- A file is one of the new ones or was there. -/
theorem mem_putAll {files : Directory TaskFile.taskId} {fs : List TaskFile} {f : TaskFile}
    (h : f ∈ putAll files fs) : f ∈ files ∨ f ∈ fs := by
  induction fs generalizing files with
  | nil => exact .inl h
  | cons g fs ih =>
      rcases ih h with h | h
      · rcases Directory.mem_put.mp h with rfl | ⟨h, -⟩
        · exact .inr List.mem_cons_self
        · exact .inl h
      · exact .inr (List.mem_cons_of_mem g h)

/-- A file stays if no later one has its name. -/
theorem putAll_keeps {files : Directory TaskFile.taskId} {fs : List TaskFile} {f : TaskFile} (h : f ∈ files)
    (hfs : ∀ g ∈ fs, g.taskId ≠ f.taskId) : f ∈ putAll files fs := by
  induction fs generalizing files with
  | nil => exact h
  | cons g fs ih =>
      have hg : f.taskId ≠ g.taskId := fun heq => hfs g List.mem_cons_self heq.symm
      exact ih (Directory.mem_put.mpr (.inr ⟨h, hg⟩)) fun g' hg' => hfs g' (List.mem_cons_of_mem g hg')

/-- After a file with a record comes no other file of its name. -/
def RecordLast (fs : List TaskFile) : Prop :=
  fs.Pairwise fun f g => f.record.isSome = true → g.taskId ≠ f.taskId

/-- A record that is written last under its name stays. -/
theorem mem_putAll_of_record {files : Directory TaskFile.taskId} {fs : List TaskFile} {f : TaskFile}
    (hlast : RecordLast fs) (h : f ∈ fs) (hf : f.record.isSome = true) : f ∈ putAll files fs := by
  induction fs generalizing files with
  | nil => exact absurd h (by simp)
  | cons g fs ih =>
      obtain ⟨hhead, htail⟩ := List.pairwise_cons.mp hlast
      rcases List.mem_cons.mp h with rfl | h
      · show f ∈ putAll (files.put f) fs
        exact putAll_keeps (Directory.mem_put_self files f) fun g hg => hhead g hg hf
      · exact ih htail h

/-- The files `start` writes. -/
def taskFiles (ps : List Task) : List TaskFile := ps.flatMap fun p => [⟨p.taskId, none⟩, ⟨p.taskId, some p⟩]

/-- The files that `start` writes: an empty one and a full one for each task. -/
theorem mem_taskFiles {ps : List Task} {f : TaskFile} :
    f ∈ taskFiles ps ↔ ∃ p ∈ ps, f = ⟨p.taskId, none⟩ ∨ f = ⟨p.taskId, some p⟩ := by
  simp [taskFiles]

/-- Tasks of different IDs have their records last. -/
theorem recordLast_taskFiles {ps : List Task} (h : (ps.map (·.taskId)).Nodup) : RecordLast (taskFiles ps) := by
  induction ps with
  | nil => exact List.Pairwise.nil
  | cons p ps ih =>
      obtain ⟨hout, hnodup⟩ := List.nodup_cons.mp h
      have hother : ∀ g ∈ taskFiles ps, g.taskId ≠ p.taskId := by
        intro g hg heq
        obtain ⟨q, hq, rfl | rfl⟩ := mem_taskFiles.mp hg
        · exact hout (List.mem_map.mpr ⟨q, hq, heq⟩)
        · exact hout (List.mem_map.mpr ⟨q, hq, heq⟩)
      refine List.pairwise_cons.mpr ⟨fun g _ hnone => absurd hnone (by simp), ?_⟩
      exact List.pairwise_cons.mpr ⟨fun g hg _ => hother g hg, ih hnodup⟩

/-! ## What a process can do

All commands come down to a few changes of a job, killed or not: `Change` is their list, and the invariants go
through it. -/

def Write.file? : Write → Option TaskFile
  | .file f => some f
  | _ => none

/-- The files among the writes of `start`. -/
theorem file?_createTask (ps : List Task) : (ps.flatMap createTask).filterMap Write.file? = taskFiles ps := by
  induction ps with
  | nil => rfl
  | cons p ps ih =>
      rw [List.flatMap_cons, List.filterMap_append, ih]
      rfl

/-- Writes without a transition are all carried out. -/
theorem perform_files (hws : ∀ w ∈ ws, ∀ e n, w ≠ .state e n) :
    Trace.perform (exec hash) job ws = ({ job with tasks := putAll job.tasks (ws.filterMap Write.file?) }, true) := by
  induction ws generalizing job with
  | nil => rfl
  | cons w ws ih =>
      have htail : ∀ w ∈ ws, ∀ e n, w ≠ .state e n := fun v hv => hws v (List.mem_cons_of_mem w hv)
      cases w with
      | side => exact (Trace.perform_cons_some ws rfl).trans (ih htail)
      | file f => exact (Trace.perform_cons_some ws rfl).trans (ih htail)
      | state e n => exact absurd rfl (hws _ List.mem_cons_self e n)

/-- Writes without a task file leave the files alone. When they change the state, one of them takes the state there
    was, and one leads to the state there is. -/
theorem perform_states (hws : ∀ w ∈ ws, ∀ f, w ≠ .file f) :
    ∃ state, (Trace.perform (exec hash) job ws).1 = { job with state := state } ∧
      (state = job.state ∨ (∃ n, .state job.state n ∈ ws) ∧ ∃ e, .state e state ∈ ws) := by
  induction ws generalizing job with
  | nil => exact ⟨job.state, rfl, .inl rfl⟩
  | cons w ws ih =>
      have htail : ∀ w ∈ ws, ∀ f, w ≠ .file f := fun v hv => hws v (List.mem_cons_of_mem w hv)
      cases hw : exec hash job w with
      | none => exact ⟨job.state, by rw [Trace.perform_cons_none ws hw], .inl rfl⟩
      | some job₁ =>
          rw [Trace.perform_cons_some ws hw]
          obtain ⟨state, hstate, hfrom⟩ := @ih job₁ htail
          cases w with
          | file f => exact absurd rfl (hws _ List.mem_cons_self f)
          | side =>
              obtain rfl : job = job₁ := Option.some.inj hw
              refine ⟨state, hstate, hfrom.imp_right ?_⟩
              rintro ⟨⟨n, hn⟩, e, he⟩
              exact ⟨⟨n, List.mem_cons_of_mem _ hn⟩, e, List.mem_cons_of_mem _ he⟩
          | state e n =>
              simp only [exec, Option.ite_none_right_eq_some, Option.some.injEq] at hw
              obtain ⟨⟨-, rfl⟩, rfl⟩ := hw
              refine ⟨state, hstate, .inr ⟨⟨n, List.mem_cons_self⟩, ?_⟩⟩
              rcases hfrom with rfl | ⟨-, e', he'⟩
              · exact ⟨job.state, List.mem_cons_self⟩
              · exact ⟨e', List.mem_cons_of_mem _ he'⟩

/-- The state before the tasks are created. -/
def JobState.isEarly : JobState → Bool
  | .draft | .prechecking | .awaitingApproval | .scheduled => true
  | .running | .paused | .succeeded => false

/-- What one process can do to a job. -/
inductive Change (job : Job) (safe : Bool) : Job → Prop
  | same : Change job safe job
  | moved {next : JobState} : job.state.isEarly = true → next.isEarly = true →
      Change job safe { job with state := next }
  | started {fs rest : List TaskFile} : job.state = .scheduled →
      fs ++ rest = taskFiles (plannedTasks job.jobId job.plan.toPlanBody) →
      (safe = true → (∀ f ∈ fs, f.record = none) ∨ ∀ f ∈ rest, f.record = none) →
      Change job safe { job with state := .running, tasks := putAll job.tasks fs }
  | recorded {id : String} {t t' : Task} {next : JobState} : job.state = .running →
      (⟨id, some t⟩ : TaskFile) ∈ job.tasks → t.status = .pending ∨ t.status = .running →
      t'.taskId = t.taskId → t'.stage = t.stage → t'.node = t.node →
      (next = .running ∨ next = .paused ∨ next = .succeeded ∧
        ∀ f ∈ job.tasks.put ⟨id, some t'⟩, ∀ u, f.record = some u → u.status = .succeeded) →
      Change job safe { job with state := next, tasks := job.tasks.put ⟨id, some t'⟩ }

/-- A kill divides the writes in two. -/
theorem cut_eq (i : Invocation) (ws : List Write) : ∃ k, i.reached ws = ws.take k ∧ i.left ws = ws.drop k := by
  unfold Invocation.reached Invocation.left
  cases i.killedAfter with
  | none => exact ⟨ws.length, (List.take_length ..).symm, (List.drop_length ..).symm⟩
  | some k => exact ⟨k, rfl, rfl⟩

/-- A command before `start`, killed or not. -/
theorem early_change {safe : Bool} (e n : JobState) (he : e.isEarly = true) (hn : n.isEarly = true)
    (hws : ∀ w ∈ ws, w = .side ∨ w = .state e n) (k : Nat) :
    Change job safe (Trace.perform (exec hash) job (ws.take k)).1 := by
  obtain ⟨state, hstate, hfrom⟩ := @perform_states hash job (ws.take k) fun w hw f hf => by
    rcases hws w (List.mem_of_mem_take hw) with h | h <;> rw [h] at hf <;> exact absurd hf (by simp)
  rw [hstate]
  rcases hfrom with rfl | ⟨⟨n', hn'⟩, e', he'⟩
  · exact .same
  · have h1 : job.state = e := by
      rcases hws _ (List.mem_of_mem_take hn') with h | h
      · exact absurd h (by simp)
      · injection h
    have h2 : state = n := by
      rcases hws _ (List.mem_of_mem_take he') with h | h
      · exact absurd h (by simp)
      · injection h
    exact .moved (h1 ▸ he) (h2 ▸ hn)

/-- `claim`, `reconcile` and `complete`, killed or not: one record is replaced, and then the state changes. -/
theorem record_change {safe : Bool} {id : String} {t t' : Task} {rest : List Write}
    (hws : .side :: .file ⟨id, some t'⟩ :: rest = ws) (hrun : job.state = .running)
    (hmem : (⟨id, some t⟩ : TaskFile) ∈ job.tasks) (hopen : t.status = .pending ∨ t.status = .running)
    (hsame : t'.taskId = t.taskId ∧ t'.stage = t.stage ∧ t'.node = t.node)
    (hfiles : ∀ w ∈ rest, ∀ f, w ≠ .file f)
    (hrest : ∀ e n, .state e n ∈ rest → n = .paused ∨ n = .succeeded ∧
      ∀ f ∈ job.tasks.put ⟨id, some t'⟩, ∀ u, f.record = some u → u.status = .succeeded) (k : Nat) :
    Change job safe (Trace.perform (exec hash) job (ws.take k)).1 := by
  subst hws
  match k with
  | 0 => exact .same
  | 1 => exact .same
  | k + 2 =>
      show Change job safe
        (Trace.perform (exec hash) { job with tasks := job.tasks.put ⟨id, some t'⟩ } (rest.take k)).1
      obtain ⟨state, hstate, hfrom⟩ := @perform_states hash { job with tasks := job.tasks.put ⟨id, some t'⟩ }
        (rest.take k) fun w hw => hfiles w (List.mem_of_mem_take hw)
      rw [hstate]
      refine .recorded hrun hmem hopen hsame.1 hsame.2.1 hsame.2.2 ?_
      rcases hfrom with rfl | ⟨-, e, he⟩
      · exact .inl hrun
      · exact .inr (hrest e state (List.mem_of_mem_take he))

/-- `start`, killed or not. -/
theorem start_change (hws : ws = transition .scheduled .running ++
      (plannedTasks job.jobId job.plan.toPlanBody).flatMap createTask ++ [.side]) (k : Nat) :
    Change job (!(ws.take k).any Write.completes || !(ws.drop k).any Write.completes)
      (Trace.perform (exec hash) job (ws.take k)).1 := by
  have hcompletes : ∀ us : List Write, us.any Write.completes = false →
      ∀ f ∈ us.filterMap Write.file?, f.record = none := by
    intro us hus f hf
    obtain ⟨w, hw, hfile⟩ := List.mem_filterMap.mp hf
    have hnot := List.any_eq_false.mp hus w hw
    cases w with
    | file g =>
        obtain rfl := Option.some.inj hfile
        exact Option.not_isSome_iff_eq_none.mp hnot
    | _ => exact absurd hfile (by simp [Write.file?])
  subst hws
  cases k with
  | zero => exact .same
  | succ k =>
      -- the state comes first: when it is refused nothing is written, and every later cut leaves a running job
      generalize hus : Write.side :: ((plannedTasks job.jobId job.plan.toPlanBody).flatMap createTask ++ [.side]) = us
      have heq : transition .scheduled .running ++ (plannedTasks job.jobId job.plan.toPlanBody).flatMap createTask ++
          [.side] = .state .scheduled .running :: us := by
        rw [← hus]
        simp [transition]
      rw [heq, List.take_succ_cons, List.drop_succ_cons]
      cases hstep : exec hash job (.state .scheduled .running) with
      | none =>
          rw [Trace.perform_cons_none _ hstep]
          exact .same
      | some job₁ =>
          rw [Trace.perform_cons_some _ hstep]
          simp only [exec, Option.ite_none_right_eq_some, Option.some.injEq] at hstep
          obtain ⟨⟨-, hst⟩, rfl⟩ := hstep
          have hno : ∀ w ∈ us, ∀ e n, w ≠ .state e n := by
            intro w hw e n heq
            subst heq
            rw [← hus] at hw
            simp [createTask] at hw
          have hall : us.filterMap Write.file? = taskFiles (plannedTasks job.jobId job.plan.toPlanBody) := by
            rw [← hus, List.filterMap_cons_none rfl, List.filterMap_append, file?_createTask]
            exact List.append_nil _
          -- the task files that are there and those that are still to come are the planned ones together
          have hparts : (us.take k).filterMap Write.file? ++ (us.drop k).filterMap Write.file? =
              taskFiles (plannedTasks job.jobId job.plan.toPlanBody) := by
            rw [← List.filterMap_append, List.take_append_drop, hall]
          rw [perform_files fun w hw => hno w (List.mem_of_mem_take hw)]
          refine .started hst hparts fun hsafe => ?_
          rw [Bool.or_eq_true, Bool.not_eq_true', Bool.not_eq_true'] at hsafe
          -- safe: the completing task is not among the files there, or not among those to come
          rcases hsafe with h | h
          · rw [List.any_cons, Bool.or_eq_false_iff] at h
            exact .inl (hcompletes _ h.2)
          · exact .inr (hcompletes _ h)

/-! ## Every command

Each command is one of the changes. The proof goes along the guards of the command to the writes it returns. -/

/-- A file that is found in byte order is a file of the job. -/
theorem mem_of_find_glob {p : TaskFile → Bool} {f : TaskFile} (h : (globFiles job).find? p = some f) :
    f ∈ job.tasks ∧ p f = true :=
  ⟨(List.perm_insertionSort _ _).mem_iff.mp (List.mem_of_find?_eq_some h), List.find?_some h⟩

theorem is_iff {f : TaskFile} {t : Task} {status : TaskStatus} (h : f.record = some t) :
    f.is status = true ↔ t.status = status := by
  simp [TaskFile.is, h]

/-- A transition leads to its second state. -/
theorem transition_next {e n expected next : JobState} (h : .state e n ∈ transition expected next) : n = next := by
  simp only [transition, List.mem_cons, List.not_mem_nil, or_false, reduceCtorEq, Write.state.injEq] at h
  exact h.2

/-- `complete` reports success only when every record says so. -/
theorem afterSuccess_states {files : List TaskFile} {e n : JobState} (h : .state e n ∈ afterSuccess files) :
    n = .paused ∨ n = .succeeded ∧ ∀ f ∈ files, ∀ u, f.record = some u → u.status = .succeeded := by
  unfold afterSuccess at h
  split at h
  · exact .inl (transition_next h)
  · split at h
    · exact absurd h (by simp)
    · split at h
      · exact .inl (transition_next h)
      · rename_i hall
        refine .inr ⟨transition_next h, fun f hf u hu => ?_⟩
        rw [Bool.not_eq_true, List.any_eq_false] at hall
        simpa [hu] using hall f hf

/-- Behind the record of a success no task file is written. -/
theorem afterSuccess_files {files : List TaskFile} : ∀ w ∈ afterSuccess files, ∀ f, w ≠ .file f := by
  intro w hw f heq
  subst heq
  unfold afterSuccess at hw
  split at hw
  · exact absurd hw (by simp [transition])
  · split at hw
    · exact absurd hw (by simp)
    · split at hw <;> exact absurd hw (by simp [transition])

/-- A file with its record. -/
theorem mem_record {f : TaskFile} {t : Task} (h : f ∈ job.tasks) (ht : f.record = some t) :
    (⟨f.taskId, some t⟩ : TaskFile) ∈ job.tasks := by
  obtain ⟨id, record⟩ := f
  exact ht ▸ h

/-- The state is read from a job whose plan is intact. -/
theorem readState_ok {state : JobState} :
    readState hash job = .ok state ↔ job.plan.intact hash ∧ job.state = state := by
  unfold readState
  rw [ensure_bind_ok, Except.ok.injEq]

/-- **What a process does.** -/
theorem script_change (h : script hash job i = .ok ws) : Change job (i.isSafe ws) (after hash job i) := by
  obtain ⟨k, hreached, hleft⟩ := cut_eq i ws
  have hafter : after hash job i = (Trace.perform (exec hash) job (ws.take k)).1 := by
    unfold after
    rw [h]
    dsimp only
    rw [hreached]
  rw [hafter]
  obtain ⟨command, w, killed⟩ := i
  unfold script at h
  dsimp only at h
  cases command with
  | submit =>
      -- submit, ready and approve come before the job has any task file
      obtain rfl := Except.ok.inj h
      exact early_change .draft .prechecking rfl rfl (by simp [transition, or_comm]) k
  | ready evidence =>
      unfold ready at h
      simp only [ensure_bind_ok, Except.ok.injEq] at h
      obtain ⟨-, rfl⟩ := h
      exact early_change .prechecking .awaitingApproval rfl rfl (by simp [transition]) k
  | approve actor =>
      unfold approve at h
      simp only [check_bind_ok, Except.ok.injEq] at h
      obtain ⟨-, -, -, rfl⟩ := h
      exact early_change .awaitingApproval .scheduled rfl rfl (by simp [transition]) k
  | start =>
      unfold start at h
      simp only [check_bind_ok, Except.ok.injEq] at h
      unfold Invocation.isSafe
      rw [hreached, hleft]
      exact start_change h.2.symm k
  | claim actor lease =>
      -- the first pending task file is the one recorded as running
      unfold claim at h
      simp only [bind_ok, readState_ok, ensure_ok, need_ok, Except.ok.injEq] at h
      obtain ⟨-, -, -, -, -, -, state, ⟨-, hst⟩, -, rfl, seconds, -, -, -, -, -, f, hf, t, ht, hws⟩ := h
      obtain ⟨hmem, hpending⟩ := mem_of_find_glob hf
      exact record_change hws hst (mem_record hmem ht) (.inl ((is_iff ht).mp hpending)) ⟨rfl, rfl, rfl⟩
        (by simp) (by simp) k
  | reconcile =>
      -- the first running task file whose lease has expired is recorded as unknown, and the job pauses
      unfold reconcile at h
      simp only [bind_ok, readState_ok, ensure_ok, need_ok, Except.ok.injEq] at h
      obtain ⟨-, -, state, ⟨-, hst⟩, -, rfl, f, hf, t, ht, hws⟩ := h
      obtain ⟨hmem, hexpired⟩ := mem_of_find_glob hf
      have hrunning : f.is .running = true := (Bool.and_eq_true_iff.mp hexpired).1
      exact record_change hws hst (mem_record hmem ht) (.inr ((is_iff ht).mp hrunning)) ⟨rfl, rfl, rfl⟩
        (by simp [transition]) (by simp [transition]) k
  | complete taskId actor status evidence =>
      -- a failure pauses the job; a success moves the state only as all the task files together say
      unfold complete at h
      simp only [bind_ok, readState_ok, ensure_ok, need_ok, Except.ok.injEq] at h
      obtain ⟨-, -, -, -, -, -, -, -, state, ⟨-, hst⟩, -, rfl, f, hf, -, -, t, ht, -, -, -, hrunning, hws⟩ := h
      obtain ⟨hmem, rfl⟩ := Directory.get?_eq_some.mp hf
      refine record_change hws hst (mem_record hmem ht) (.inr hrunning) ⟨rfl, rfl, rfl⟩ ?_ ?_ k
      · intro w hw g heq
        subst heq
        split at hw
        · exact absurd hw (by simp [transition])
        · rcases List.mem_cons.mp hw with h | h
          · exact absurd h (by simp)
          · exact afterSuccess_files _ h g rfl
      · intro e n hstate
        split at hstate
        · exact .inl (transition_next hstate)
        · rcases List.mem_cons.mp hstate with h | h
          · exact absurd h (by simp)
          · exact afterSuccess_states h

/-! ## Invariants

`Sound` survives every kill, `Whole` every safe one. A job that has succeeded is sound with all its records, and
whole with all its tasks, so it has done them. -/

/-- What holds in every run. -/
structure Sound (job : Job) : Prop where
  nodes : job.plan.nodes.Nodup
  early : job.state.isEarly = true → ∀ f, f ∉ job.tasks
  planned : ∀ f ∈ job.tasks, ∃ p ∈ plannedTasks job.jobId job.plan.toPlanBody, f.taskId = p.taskId ∧
    ∀ t, f.record = some t → t.stage = p.stage ∧ t.node = p.node
  success : job.state = .succeeded → ∀ f ∈ job.tasks, ∀ t, f.record = some t → t.status = .succeeded

/-- There is no task record, and the job has not succeeded, or there are all of them. -/
def Whole (job : Job) : Prop :=
  ((∀ f ∈ job.tasks, f.record = none) ∧ job.state ≠ .succeeded) ∨
    ∀ p ∈ plannedTasks job.jobId job.plan.toPlanBody, ∃ t, (⟨p.taskId, some t⟩ : TaskFile) ∈ job.tasks

theorem readNodes_nodup {nodes lines nodes' : List String} (h : readNodes nodes lines = .ok nodes')
    (hnodes : nodes.Nodup) : nodes'.Nodup := by
  induction lines generalizing nodes with
  | nil =>
      unfold readNodes at h
      rw [ensure_bind_ok] at h
      exact Except.ok.inj h.2 ▸ hnodes
  | cons line lines ih =>
      unfold readNodes at h
      split at h
      · exact ih h hnodes
      · rw [ensure_bind_ok] at h
        refine ih h.2 ?_
        split
        · exact hnodes
        · rename_i hnew
          exact List.nodup_append.mpr ⟨hnodes, by simp, fun a ha b hb heq =>
            hnew (List.mem_singleton.mp hb ▸ heq ▸ ha)⟩

/-- A new job has nodes without repetition and no task file. -/
theorem created_fresh (h : Created hash job) :
    job.plan.nodes.Nodup ∧ job.state = .draft ∧ job.tasks = Directory.empty := by
  obtain ⟨jobId, requester, topology, database, gridHome, patchId, patchDir, nodeFile, h⟩ := h
  unfold create at h
  simp only [check_bind_ok, need_bind_ok] at h
  obtain ⟨-, -, kind, -, -, -, h⟩ := h
  cases kind with
  | databaseRolling =>
      simp only [bind_ok, Except.ok.injEq] at h
      obtain ⟨-, -, -, -, nodes, hnodes, rfl⟩ := h
      exact ⟨readNodes_nodup hnodes List.nodup_nil, rfl, rfl⟩
  | gridRolling =>
      simp only [bind_ok, Except.ok.injEq] at h
      obtain ⟨nodes, hnodes, rfl⟩ := h
      exact ⟨readNodes_nodup hnodes List.nodup_nil, rfl, rfl⟩

/-- **Every change keeps a job sound.** -/
theorem change_sound {safe : Bool} (hs : Sound job) (h : Change job safe job') : Sound job' := by
  cases h with
  | same => exact hs
  | @moved next hearly hnext =>
      refine ⟨hs.nodes, fun _ => hs.early hearly, hs.planned, fun hsucc => ?_⟩
      obtain rfl : next = .succeeded := hsucc
      exact absurd hnext (by decide)
  | @started fs rest hst hparts _ =>
      have hempty := hs.early (by rw [hst]; rfl)
      refine ⟨hs.nodes, fun h => absurd h (by simp [JobState.isEarly]), fun f hf => ?_, fun h => absurd h (by simp)⟩
      rcases mem_putAll hf with hf | hf
      · exact absurd hf (hempty f)
      · obtain ⟨p, hp, rfl | rfl⟩ := mem_taskFiles.mp (hparts ▸ List.mem_append_left rest hf)
        · exact ⟨p, hp, rfl, fun t ht => absurd ht (by simp)⟩
        · exact ⟨p, hp, rfl, fun t ht => Option.some.inj ht ▸ ⟨rfl, rfl⟩⟩
  | @recorded id t t' next hrun hmem _ _ hstage hnode hnext =>
      refine ⟨hs.nodes, fun h => ?_, fun f hf => ?_, fun h => ?_⟩
      · rcases hnext with rfl | rfl | ⟨rfl, -⟩ <;> exact absurd h (by simp [JobState.isEarly])
      · rcases Directory.mem_put.mp hf with rfl | ⟨hf, -⟩
        · obtain ⟨p, hp, hid, hrecord⟩ := hs.planned _ hmem
          obtain ⟨h1, h2⟩ := hrecord t rfl
          exact ⟨p, hp, hid, fun u hu => Option.some.inj hu ▸ ⟨hstage.trans h1, hnode.trans h2⟩⟩
        · exact hs.planned f hf
      · rcases hnext with rfl | rfl | ⟨-, hall⟩
        · exact absurd h (by simp)
        · exact absurd h (by simp)
        · exact hall

/-- **Every safe change keeps a job whole.** -/
theorem change_whole (hs : Sound job) (hw : Whole job) (h : Change job true job') : Whole job' := by
  cases h with
  | same => exact hw
  | @moved next hearly hnext =>
      refine .inl ⟨fun f hf => absurd hf (hs.early hearly f), fun hsucc => ?_⟩
      obtain rfl : next = .succeeded := hsucc
      exact absurd hnext (by decide)
  | @started fs rest hst hparts hsafe =>
      have hempty := hs.early (by rw [hst]; rfl)
      rcases hsafe rfl with hnone | hnone
      · refine .inl ⟨fun f hf => ?_, by simp⟩
        rcases mem_putAll hf with hf | hf
        · exact absurd hf (hempty f)
        · exact hnone f hf
      · refine .inr fun p hp => ⟨p, ?_⟩
        have hlast := recordLast_taskFiles (plannedTasks_ids job.jobId job.plan.toPlanBody)
        rw [← hparts] at hlast
        have hmem : (⟨p.taskId, some p⟩ : TaskFile) ∈ fs ++ rest := hparts ▸ mem_taskFiles.mpr ⟨p, hp, .inr rfl⟩
        rcases List.mem_append.mp hmem with hmem | hmem
        · exact mem_putAll_of_record (List.pairwise_append.mp hlast).1 hmem rfl
        · exact absurd (hnone _ hmem) (by simp)
  | @recorded id t t' next hrun hmem _ _ _ _ _ =>
      rcases hw with ⟨hnone, -⟩ | hall
      · exact absurd (hnone _ hmem) (by simp)
      · refine .inr fun p hp => ?_
        obtain ⟨u, hu⟩ := hall p hp
        by_cases hid : p.taskId = id
        · subst hid
          exact ⟨t', Directory.mem_put_self _ _⟩
        · exact ⟨u, Directory.mem_put.mpr (.inr ⟨hu, hid⟩)⟩

/-- A failed task, or one of unknown outcome, stays as it is. -/
theorem change_spoiled {safe : Bool} (hs : Sound job) (hbad : Spoiled job) (h : Change job safe job') :
    Spoiled job' := by
  obtain ⟨f, hf, hstatus⟩ := hbad
  cases h with
  | same => exact ⟨f, hf, hstatus⟩
  | moved => exact ⟨f, hf, hstatus⟩
  | started hst => exact absurd hf (hs.early (by rw [hst]; rfl) f)
  | @recorded id t t' next hrun hmem hopen =>
      refine ⟨f, Directory.mem_put.mpr (.inr ⟨hf, fun hid => ?_⟩), hstatus⟩
      -- only a pending or a running record is replaced
      obtain rfl := Directory.eq_of_key hf hmem hid
      rw [is_iff rfl, is_iff rfl] at hstatus
      rcases hopen with h | h <;> rw [h] at hstatus <;> exact absurd hstatus (by decide)

/-- A sound job with a failed task has not succeeded. -/
theorem Spoiled.not_succeeded (hs : Sound job) (hbad : Spoiled job) : job.state ≠ .succeeded := by
  intro hst
  obtain ⟨f, hf, hstatus⟩ := hbad
  cases hrecord : f.record with
  | none => exact absurd hstatus (by simp [TaskFile.is, hrecord])
  | some t =>
      rw [is_iff hrecord, is_iff hrecord, hs.success hst f hf t hrecord] at hstatus
      exact absurd hstatus (by decide)

/-- **From the invariants.** -/
theorem allDone_of_whole (hs : Sound job) (hw : Whole job) (hst : job.state = .succeeded) : AllDone job := by
  intro p hp
  obtain ⟨-, hne⟩ | hall := hw
  · exact absurd hst hne
  · obtain ⟨t, ht⟩ := hall p hp
    obtain ⟨q, hq, hid, hrecord⟩ := hs.planned _ ht
    obtain rfl : p = q := List.inj_on_of_nodup_map (plannedTasks_ids _ _) hp hq hid
    obtain ⟨hstage, hnode⟩ := hrecord t rfl
    refine ⟨t, ht, hstage, hnode, hs.success hst _ ht t rfl, fun f hf u hu hstage' hnode' => ?_⟩
    obtain ⟨q, hq, hid', hrecord'⟩ := hs.planned f hf
    obtain ⟨h1, h2⟩ := hrecord' u hu
    have hwork : (p.stage, p.node) = (q.stage, q.node) := by rw [← h1, ← h2, hstage', hnode']
    obtain rfl := List.inj_on_of_nodup_map (plannedTasks_work _ _ hs.nodes) hp hq hwork
    exact hid'

/-! ## Runs -/

theorem sound_after (hs : Sound job) : Sound (after hash job i) := by
  cases hscript : script hash job i with
  | error e =>
      unfold after
      rw [hscript]
      exact hs
  | ok ws => exact change_sound hs (script_change hscript)

theorem sound_reached {allowed : Job → Invocation → Prop} {as : List Invocation}
    (h : Reached hash (Created hash) allowed as job) : Sound job := by
  refine Trace.Run.invariant (I := fun _ job => Sound job) ?_ ?_ h
  · intro job hjob
    obtain ⟨hnodes, hstate, hempty⟩ := created_fresh hjob
    refine ⟨hnodes, fun _ f => ?_, fun f hf => ?_, fun h => absurd h (by simp [hstate])⟩
    · rw [hempty]; exact Directory.not_mem_empty f
    · rw [hempty] at hf; exact absurd hf (Directory.not_mem_empty f)
  · intro _ job i job' _ hs _ hstep
    exact Option.some.inj hstep ▸ sound_after hs

/-- Every run of safe steps is whole. -/
theorem whole_reached {as : List Invocation} (h : Reached hash (Created hash) (safeStep hash) as job) :
    Whole job := by
  refine Trace.Run.invariant (I := fun _ job => Whole job) ?_ ?_ h
  · intro job hjob
    obtain ⟨-, hstate, hempty⟩ := created_fresh hjob
    refine .inl ⟨fun f hf => ?_, by simp [hstate]⟩
    rw [hempty] at hf
    exact absurd hf (Directory.not_mem_empty f)
  · intro as job i job' hrun hw hsafe hstep
    obtain rfl := Option.some.inj hstep
    cases hscript : script hash job i with
    | error e =>
        unfold after
        rw [hscript]
        exact hw
    | ok ws => exact change_whole (sound_reached hrun) hw (hsafe ws hscript ▸ script_change hscript)

/-- **No way back.** From a job with a failed task, or one of unknown outcome, no run leads to success. -/
theorem spoiled_run (hs : Sound job) (hbad : Spoiled job) {bs : List Invocation}
    (h : Reached hash (· = job) (fun _ _ => True) bs job') : job'.state ≠ .succeeded := by
  have hboth : Sound job' ∧ Spoiled job' := by
    refine Trace.Run.invariant (I := fun _ job => Sound job ∧ Spoiled job) ?_ ?_ h
    · rintro _ rfl
      exact ⟨hs, hbad⟩
    · rintro _ job i job' _ ⟨hs, hbad⟩ _ hstep
      obtain rfl := Option.some.inj hstep
      refine ⟨sound_after hs, ?_⟩
      cases hscript : script hash job i with
      | error e =>
          unfold after
          rw [hscript]
          exact hbad
      | ok ws => exact change_spoiled hs hbad (script_change hscript)
  exact hboth.2.not_succeeded hboth.1

/-- **Success of a job.** In every run in which no `start` is killed between its first task record and its last one, a
    job that has succeeded has done every planned task, and a job with a failed task, or one of unknown outcome, never
    succeeds. -/
theorem job_success {as : List Invocation} (h : Reached hash (Created hash) (safeStep hash) as job) :
    (job.state = .succeeded → AllDone job) ∧
      (Spoiled job → ∀ bs job', Reached hash (· = job) (fun _ _ => True) bs job' → job'.state ≠ .succeeded) := by
  have hs := sound_reached h
  refine ⟨fun hst => allDone_of_whole hs (whole_reached h) hst, fun hbad bs job' hrun => ?_⟩
  exact spoiled_run hs hbad hrun

/-! ## Two jobs

A job for a database on two nodes that is killed three times and succeeds, and one whose `start` is cut in the
middle. -/

section Lab

def labHash (_ : PlanBody) : Digest := ⟨7, by decide⟩

def labEvidence : String := "0123456789abcdef0123456789abcdef0123456789abcdef0123456789abcdef"

def labStep (command : Command) : Invocation := ⟨command, ⟨1000, true⟩, none⟩

/-- The step is killed after some of its writes. -/
def labKilled (command : Command) (writes : Nat) : Invocation := ⟨command, ⟨1000, true⟩, some writes⟩

def labBody : Topology → List String → PlanBody
  | .gridRolling, nodes => ⟨.gridRolling, none, none, "39034528", "/stage/39034528", nodes, "rita"⟩
  | .databaseRolling, nodes =>
      ⟨.databaseRolling, some "orcl", some "/u01/grid", "39034528", "/stage/39034528", nodes, "rita"⟩

/-- `create` of a topology for these nodes. -/
def labJob (kind : Topology) (nodes : List String) : Job :=
  ⟨"job-1", ⟨labBody kind nodes, labHash (labBody kind nodes)⟩, .draft, Directory.empty⟩

/-- `create` makes these jobs of a node file. -/
theorem labJob_created (kind : Topology) {nodes : List String} (nodeFile : List String)
    (h : (readNodes [] nodeFile).toOption = some nodes) : Created labHash (labJob kind nodes) := by
  have hnodes : readNodes [] nodeFile = .ok nodes := by
    cases hread : readNodes [] nodeFile with
    | error e => rw [hread] at h; exact absurd h (by simp [Except.toOption])
    | ok nodes' => rw [hread] at h; rw [Option.some.inj h]
  have hid : opuValidateIdentifier "job-1" "job ID" = .ok () := opuValidateIdentifier_ok.mpr (by decide +kernel)
  have hrequester : opuValidateIdentifier "rita" "requester" = .ok () :=
    opuValidateIdentifier_ok.mpr (by decide +kernel)
  have hpatch : validPatchId "39034528" = true := by decide +kernel
  have hdirectory : opuValidateAbsolutePath "/stage/39034528" "patch directory" = .ok () :=
    opuValidateAbsolutePath_ok.mpr (by decide +kernel)
  cases kind with
  | gridRolling =>
      refine ⟨"job-1", "rita", "grid-rolling", "", "", "39034528", "/stage/39034528", nodeFile, ?_⟩
      unfold create
      simp only [check_bind_ok, need_bind_ok]
      refine ⟨hid, hrequester, .gridRolling, by decide, ensure_ok.mpr hpatch, hdirectory, ?_⟩
      rw [hnodes]
      rfl
  | databaseRolling =>
      refine ⟨"job-1", "rita", "database-rolling", "orcl", "/u01/grid", "39034528", "/stage/39034528", nodeFile, ?_⟩
      unfold create
      simp only [check_bind_ok, need_bind_ok]
      refine ⟨hid, hrequester, .databaseRolling, by decide, ensure_ok.mpr hpatch, hdirectory, ?_⟩
      refine check_bind_ok.mpr ⟨opuValidateIdentifier_ok.mpr (by decide +kernel), check_bind_ok.mpr ⟨?_, ?_⟩⟩
      · exact opuValidateAbsolutePath_ok.mpr (by decide +kernel)
      · rw [hnodes]
        rfl

def labBegin : List Invocation := [labStep .submit, labStep (.ready labEvidence), labStep (.approve "anna")]

def labWork (taskId : String) : List Invocation :=
  [labStep (.claim "agent" "300"), labStep (.complete taskId "agent" .succeeded labEvidence)]

/-- A database is patched on two nodes. The first `start` is killed before it writes anything, the first `claim` before
    its record is in place, and the first `complete` right after its own. -/
def labKills : List Invocation :=
  labBegin ++ [labKilled .start 0, labStep .start, labKilled (.claim "agent" "300") 1, labStep (.claim "agent" "300"),
    labKilled (.complete "001-apply-db1" "agent" .succeeded labEvidence) 2] ++
    ["002-validate-db1", "003-apply-db2", "004-validate-db2", "005-datapatch-cluster", "006-validate-database"].flatMap
      labWork

/-- A check that decides `safeStep`. -/
def safeCheck (hash : PlanBody → Digest) (job : Job) (i : Invocation) : Bool :=
  match script hash job i with
  | .ok ws => i.isSafe ws
  | .error _ => true

/-- The check is enough for a safe step. -/
theorem safeStep_of_check (h : safeCheck hash job i = true) : safeStep hash job i := by
  intro ws hws
  rwa [safeCheck, hws] at h

/-- The job succeeds with all its six tasks. -/
theorem job_success_killed : ∃ job, Reached labHash (Created labHash) (safeStep labHash) labKills job ∧
    job.state = .succeeded ∧ AllDone job ∧ job.tasks.files.length = 6 := by
  have hcreated : Created labHash (labJob .databaseRolling ["db1", "db2"]) :=
    labJob_created .databaseRolling ["db1  # first node", "", "db2"] (by decide +kernel)
  have hrun : ((labKills.foldlM (Trace.guarded (fun job i => some (after labHash job i)) (safeCheck labHash))
      (labJob .databaseRolling ["db1", "db2"])).map fun job => (job.state, job.tasks.files.length)) =
      some (.succeeded, 6) := by decide +kernel
  obtain ⟨job, hjob, hshown⟩ := Option.map_eq_some_iff.mp hrun
  obtain ⟨hstate, hfiles⟩ := Prod.mk.inj hshown
  have hreached : Reached labHash (Created labHash) (safeStep labHash) labKills job :=
    Trace.Run.of_foldlM hcreated (fun _ _ => safeStep_of_check) hjob
  exact ⟨job, hreached, hstate, (job_success hreached).1 hstate, hfiles⟩

/-- A `start` that is killed after the first of four tasks, and the worker that goes on with it. -/
def labCut : List Invocation := labBegin ++ [labKilled .start 4] ++ labWork "001-apply-db1"

/-- The job has succeeded, and three planned tasks have no file. -/
theorem cut_start_succeeds : ∃ job, Reached labHash (Created labHash) (fun _ _ => True) labCut job ∧
    job.state = .succeeded ∧ ¬ AllDone job := by
  have hcreated : Created labHash (labJob .gridRolling ["db1", "db2"]) :=
    labJob_created .gridRolling ["db1", "db2"] (by decide +kernel)
  have hrun : ((labCut.foldlM (Trace.guarded (fun job i => some (after labHash job i)) fun _ _ => true)
      (labJob .gridRolling ["db1", "db2"])).map fun job => (job.state,
        (plannedTasks job.jobId job.plan.toPlanBody).map (·.taskId), job.tasks.files.map (·.taskId))) =
      some (.succeeded, ["001-apply-db1", "002-validate-db1", "003-apply-db2", "004-validate-db2"],
        ["001-apply-db1"]) := by decide +kernel
  obtain ⟨job, hjob, hshown⟩ := Option.map_eq_some_iff.mp hrun
  simp only [Prod.mk.injEq] at hshown
  obtain ⟨hstate, hplanned, hfiles⟩ := hshown
  refine ⟨job, Trace.Run.of_foldlM hcreated (fun _ _ _ => trivial) hjob, hstate, fun hall => ?_⟩
  obtain ⟨p, hp, hid⟩ := List.mem_map.mp (hplanned ▸ (by simp : "004-validate-db2" ∈
    ["001-apply-db1", "002-validate-db1", "003-apply-db2", "004-validate-db2"]))
  obtain ⟨t, ht, -⟩ := hall p hp
  have hfile : p.taskId ∈ job.tasks.files.map (·.taskId) := List.mem_map.mpr ⟨_, ht, rfl⟩
  rw [hfiles, hid] at hfile
  exact absurd hfile (by simp)

end Lab

end OraclePatching.Jobs
