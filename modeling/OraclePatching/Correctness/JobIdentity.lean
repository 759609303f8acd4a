import OraclePatching.Lib.Separated
import OraclePatching.Correctness.RetryPublication

/-!
# `Correctness.JobIdentity` — one job file per plan and task

`publish_task` names the job of a task `plan_id__task_id`, and takes any two identifiers. The alphabet of identifiers
has the underscore, so the name can be read in more than one way: `a__b` with `c`, or `a` with `b__c`. And `_job_path`
is stricter than the rule for its parts: it takes 250 characters where two identifiers and the separator may have 258,
and it refuses two dots in a row, which an identifier may have. `Separate` is what two tasks should be for each other;
`job_identity` says for which pairs of identifiers they are.

Not modelled: names of temporary files and history records that a file system finds too long. It refuses them whatever
the other task does.
-/

namespace OraclePatching.Queue

/-! ## Tasks and what stands between them -/

/-- A plan and one of its tasks, both of which `_identifier` accepts. -/
@[ext] structure TaskRef where
  planId : String
  taskId : String
  plan_ok : queueIdentifier planId = true
  task_ok : queueIdentifier taskId = true

def TaskRef.jobId (a : TaskRef) : String := jobIdOf a.planId a.taskId

/-- The job is the task's own. -/
def Job.of (a : TaskRef) (job : Job) : Bool := job.planId == a.planId && job.taskId == a.taskId

/-- The queue as if the task had never been published. -/
def QueueDir.without (q : QueueDir) (a : TaskRef) : QueueDir :=
  ⟨q.jobs.keep fun job => !job.of a, q.history.keep fun job => !job.of a⟩

/-- What `publish_task` answers for the task. -/
def TaskRef.published (a : TaskRef) (q : QueueDir) (node adapter : String) (attempt now : Int) : Ctl Job :=
  (publishTask q a.planId a.taskId node adapter attempt now).2

/-- No publication of `a` is refused, bound to another job or held up because of `b`: in every queue of a run the
    answer is what it would be without `b`. -/
def Unaffected (a b : TaskRef) : Prop :=
  ∀ (cfg : Config) (sha256 : String → Digest) (testMode : Bool) (as : List Action) (s : System),
    Reached cfg sha256 testMode (fun _ _ => True) as s → ∀ (node adapter : String) (attempt now : Int),
      a.published s.queue node adapter attempt now = a.published (s.queue.without b) node adapter attempt now

/-- Two tasks have names of their own, both of them names of job files, and do not affect each other. -/
structure Separate (a b : TaskRef) : Prop where
  distinct : a.jobId ≠ b.jobId
  left : jobPath a.jobId = .ok ()
  right : jobPath b.jobId = .ok ()
  unaffected : Unaffected a b ∧ Unaffected b a

/-! ## The condition -/

/-- The name is short enough for `_job_path`, and neither part has two dots in a row. -/
structure TaskRef.Fits (a : TaskRef) : Prop where
  short : a.planId.length + 2 + a.taskId.length ≤ 250
  plan : ¬ ['.', '.'] <:+: a.planId.toList
  task : ¬ ['.', '.'] <:+: a.taskId.toList

/-- The plan of `b` is that of `a`, `__` and some text, and the task of `a` is that text, `__` and the task of `b`. -/
def TaskRef.Overlaps (a b : TaskRef) : Prop :=
  Separated.Shifted ['_', '_'] a.planId.toList a.taskId.toList b.planId.toList b.taskId.toList

/-! ## Names -/

section
variable {value : String} {a b : TaskRef} {q : QueueDir}

/-- What `_identifier` makes sure of. -/
theorem queueIdentifier_iff : queueIdentifier value = true ↔
    ∃ c cs, value.toList = c :: cs ∧ c.isAlphanum = true ∧ cs.all identifierChar = true ∧ cs.length ≤ 127 := by
  unfold queueIdentifier
  split
  · rename_i heq
    simp [heq]
  · rename_i c cs heq
    rw [Bool.and_eq_true, Bool.and_eq_true, decide_eq_true_iff]
    constructor
    · rintro ⟨⟨hc, hcs⟩, hlength⟩
      exact ⟨c, cs, heq, hc, hcs, hlength⟩
    · rintro ⟨d, ds, hd, hc, hcs, hlength⟩
      obtain ⟨rfl, rfl⟩ := List.cons.inj (heq.symm.trans hd)
      exact ⟨⟨hc, hcs⟩, hlength⟩

/-- What `_job_path` makes sure of. -/
theorem jobIdShape_iff : jobIdShape value = true ↔
    ∃ c cs, value.toList = c :: cs ∧ c.isAlphanum = true ∧ cs.all identifierChar = true ∧ cs.length ≤ 249 ∧
      ¬ ['.', '.'] <:+: value.toList := by
  unfold jobIdShape
  split
  · rename_i heq
    simp [heq]
  · rename_i c cs heq
    rw [Bool.and_eq_true, Bool.and_eq_true, Bool.and_eq_true, decide_eq_true_iff, Bool.not_eq_true',
      decide_eq_false_iff_not]
    constructor
    · rintro ⟨⟨⟨hc, hcs⟩, hlength⟩, hdots⟩
      exact ⟨c, cs, heq, hc, hcs, hlength, hdots⟩
    · rintro ⟨d, ds, hd, hc, hcs, hlength, hdots⟩
      obtain ⟨rfl, rfl⟩ := List.cons.inj (heq.symm.trans hd)
      exact ⟨⟨⟨hc, hcs⟩, hlength⟩, hdots⟩

/-- An identifier does not begin with an underscore. -/
theorem head_ne_underscore (h : queueIdentifier value = true) : value.toList.head? ≠ some '_' := by
  obtain ⟨c, cs, heq, hc, -, -⟩ := queueIdentifier_iff.mp h
  rw [heq, List.head?_cons]
  intro hunder
  rw [Option.some.inj hunder] at hc
  exact absurd hc (by decide)

theorem identifierChar_of_alphanum {c : Char} (h : c.isAlphanum = true) : identifierChar c = true := by
  simp [identifierChar, h]

theorem TaskRef.jobId_toList (a : TaskRef) :
    a.jobId.toList = a.planId.toList ++ ['_', '_'] ++ a.taskId.toList := by
  show (a.planId ++ "__" ++ a.taskId).toList = _
  rw [String.toList_append, String.toList_append]
  rfl

/-- A text without `c` begins before a `c` only if it ends there. -/
theorem prefix_append_cons {α : Type} {c : α} {w xs ys : List α} (hc : c ∉ w) (h : w <+: xs ++ c :: ys) : w <+: xs := by
  obtain ⟨t, heq⟩ := h
  rcases List.append_eq_append_iff.mp heq with ⟨u, hxs, -⟩ | ⟨u, hw, ht⟩
  · exact ⟨u, hxs.symm⟩
  · cases u with
    | nil => exact ⟨[], by simpa using hw⟩
    | cons d u =>
        rw [List.cons_append, List.cons.injEq] at ht
        exact absurd (by rw [hw, ht.1]; simp) hc

/-- A text without `c` occurs around a `c` only if it occurs on one of its sides. -/
theorem infix_append_cons {α : Type} {c : α} {w xs ys : List α} (hc : c ∉ w) :
    w <:+: xs ++ c :: ys ↔ w <:+: xs ∨ w <:+: ys := by
  constructor
  · intro h
    induction xs with
    | nil =>
        rw [List.nil_append, List.infix_cons_iff] at h
        rcases h with h | h
        · exact .inl (@prefix_append_cons _ c w [] ys hc h).isInfix
        · exact .inr h
    | cons x xs ih =>
        rw [List.cons_append, List.infix_cons_iff] at h
        rcases h with h | h
        · exact .inl (@prefix_append_cons _ c w (x :: xs) ys hc h).isInfix
        · exact (ih h).imp_left fun hxs => List.infix_cons_iff.mpr (.inr hxs)
  · rintro (⟨s, t, rfl⟩ | ⟨s, t, rfl⟩)
    · exact ⟨s, t ++ c :: ys, by simp⟩
    · exact ⟨xs ++ c :: s, t, by simp⟩

/-- **The names `_job_path` takes.** -/
theorem TaskRef.jobPath_iff (a : TaskRef) : jobPath a.jobId = .ok () ↔ a.Fits := by
  obtain ⟨c, cs, hplan, hc, hcs, -⟩ := queueIdentifier_iff.mp a.plan_ok
  obtain ⟨d, ds, htask, hd, hds, -⟩ := queueIdentifier_iff.mp a.task_ok
  have hlist : a.jobId.toList = c :: (cs ++ ['_', '_'] ++ a.taskId.toList) := by
    rw [a.jobId_toList, hplan]
    rfl
  have hchars : (cs ++ ['_', '_'] ++ a.taskId.toList).all identifierChar = true := by
    have hunder : ['_', '_'].all identifierChar = true := by decide
    rw [List.all_append, List.all_append, hcs, hunder, htask, List.all_cons, identifierChar_of_alphanum hd, hds]
    rfl
  have hlength : (cs ++ ['_', '_'] ++ a.taskId.toList).length ≤ 249 ↔
      a.planId.length + 2 + a.taskId.length ≤ 250 := by
    rw [← String.length_toList, ← String.length_toList, hplan]
    simp only [List.length_append, List.length_cons, List.length_nil]
    omega
  have hdots : ['.', '.'] <:+: a.jobId.toList ↔
      ['.', '.'] <:+: a.planId.toList ∨ ['.', '.'] <:+: a.taskId.toList := by
    have hunder : '_' ∉ ['.', '.'] := by decide
    rw [a.jobId_toList, List.append_assoc]
    show _ <:+: a.planId.toList ++ '_' :: ([] ++ '_' :: a.taskId.toList) ↔ _
    rw [infix_append_cons hunder, infix_append_cons hunder]
    simp
  unfold jobPath
  rw [ensure_ok, jobIdShape_iff, hdots, not_or]
  constructor
  · rintro ⟨e, es, heq, -, -, hle, hno⟩
    obtain ⟨rfl, rfl⟩ := List.cons.inj (hlist.symm.trans heq)
    exact ⟨hlength.mp hle, hno.1, hno.2⟩
  · intro h
    exact ⟨c, _, hlist, hc, hchars, hlength.mpr h.short, h.plan, h.task⟩

/-- **The tasks of one name.** -/
theorem TaskRef.jobId_eq_iff : a.jobId = b.jobId ↔ a = b ∨ a.Overlaps b ∨ b.Overlaps a := by
  rw [← String.toList_inj, a.jobId_toList, b.jobId_toList,
    Separated.double_inj_iff (head_ne_underscore a.task_ok) (head_ne_underscore b.task_ok),
    String.toList_inj, String.toList_inj, TaskRef.ext_iff]
  rfl

/-! ## Publications -/

/-- Every job of the queue and of its history has the name of its task. -/
structure Named (q : QueueDir) : Prop where
  jobs : ∀ job ∈ q.jobs, job.jobId = jobIdOf job.planId job.taskId
  history : ∀ job ∈ q.history, job.jobId = jobIdOf job.planId job.taskId

/-- What a step leaves in the history was there before, or was a job. -/
theorem step_archives {cfg : Config} {sha256 : String → Digest} {testMode : Bool} (s : System) (a : Action) {r : Job}
    (hr : r ∈ (step cfg sha256 testMode s a).queue.history) : r ∈ s.queue.history ∨ r ∈ s.queue.jobs := by
  rcases @step_history cfg sha256 testMode s a with
    hsame | ⟨old, hold, new, -, -, heq⟩ | ⟨_, _, _, _, _, -, old, hold, -, heq⟩
  · exact .inl (hsame ▸ hr)
  all_goals
    rw [heq] at hr
    rcases Directory.mem_put.mp hr with rfl | ⟨hr, -⟩
    · exact .inr hold
    · exact .inl hr

theorem named_reached {cfg : Config} {sha256 : String → Digest} {testMode : Bool} {allowed : System → Action → Prop}
    {as : List Action} {s : System} (h : Reached cfg sha256 testMode allowed as s) : Named s.queue := by
  refine Trace.Run.invariant (I := fun _ s => Named s.queue) ?_ ?_ h
  · rintro s ⟨hjobs, hhistory, -, -⟩
    refine ⟨fun job hjob => ?_, fun job hjob => ?_⟩
    · rw [hjobs] at hjob
      exact absurd hjob (Directory.not_mem_empty job)
    · rw [hhistory] at hjob
      exact absurd hjob (Directory.not_mem_empty job)
  · rintro - s a _ - hI - ⟨⟩
    obtain ⟨grant, hchange, -, -⟩ := step_change cfg sha256 testMode s a
    refine ⟨hchange.name hI.jobs, fun r hr => ?_⟩
    rcases step_archives s a hr with hr | hr
    · exact hI.history r hr
    · exact hI.jobs r hr

/-- A job under another name than the task's is not the task's own. -/
theorem Job.not_of {job : Job} (hname : job.jobId = jobIdOf job.planId job.taskId) (hid : job.jobId ≠ b.jobId) :
    (!job.of b) = true := by
  rw [Bool.not_eq_true']
  by_contra h
  rw [Bool.not_eq_false] at h
  obtain ⟨hplan, htask⟩ : job.planId = b.planId ∧ job.taskId = b.taskId := by simpa [Job.of] using h
  apply hid
  rw [hname, hplan, htask]
  rfl

/-- What is under another name is read as if the task had never been published. -/
theorem publication_without (hq : Named q) (hne : a.jobId ≠ b.jobId) (node adapter : String) (attempt : Nat) :
    publication (q.without b) a.planId a.taskId node adapter attempt =
      publication q a.planId a.taskId node adapter attempt := by
  have hjobs : (q.without b).jobs.get? (jobIdOf a.planId a.taskId) = q.jobs.get? (jobIdOf a.planId a.taskId) := by
    refine Directory.get?_keep fun job hjob hid => Job.not_of (hq.jobs job hjob) ?_
    rw [hid]
    exact hne
  have hhistory : ∀ n, (q.without b).history.get? (jobIdOf a.planId a.taskId, n) =
      q.history.get? (jobIdOf a.planId a.taskId, n) := by
    intro n
    refine Directory.get?_keep fun job hjob hkey => Job.not_of (hq.history job hjob) ?_
    rw [(Prod.mk.inj hkey).1]
    exact hne
  unfold publication
  rw [hjobs]
  cases hget : q.jobs.get? (jobIdOf a.planId a.taskId) with
  | none => rfl
  | some old =>
      dsimp only
      rw [(Directory.get?_eq_some.mp hget).2, hhistory]

/-- **Tasks of different names do not affect each other.** -/
theorem unaffected_of_ne (hne : a.jobId ≠ b.jobId) : Unaffected a b := by
  intro cfg sha256 testMode as s h node adapter attempt now
  have hpublication := publication_without (named_reached h) hne node adapter attempt.toNat
  unfold TaskRef.published publishTask checked
  rw [hpublication]
  cases publishChecks a.planId a.taskId node adapter attempt with
  | error e => rfl
  | ok _ =>
      cases publication s.queue a.planId a.taskId node adapter attempt.toNat with
      | error e => rfl
      | ok found => cases found <;> rfl

end

/-- **One job file per task.** Two tasks whose plan and task are identifiers are separate exactly if both names fit the
    rule for job files and neither overlaps the other. -/
theorem job_identity {a b : TaskRef} (hne : a ≠ b) :
    Separate a b ↔ a.Fits ∧ b.Fits ∧ ¬ a.Overlaps b ∧ ¬ b.Overlaps a := by
  constructor
  · intro h
    have hshift : ¬ (a = b ∨ a.Overlaps b ∨ b.Overlaps a) := fun hcase => h.distinct (TaskRef.jobId_eq_iff.mpr hcase)
    rw [not_or, not_or] at hshift
    exact ⟨a.jobPath_iff.mp h.left, b.jobPath_iff.mp h.right, hshift.2⟩
  · rintro ⟨hleft, hright, hab, hba⟩
    have hdistinct : a.jobId ≠ b.jobId := by
      intro heq
      rcases TaskRef.jobId_eq_iff.mp heq with h | h | h
      · exact hne h
      · exact hab h
      · exact hba h
    exact ⟨hdistinct, a.jobPath_iff.mpr hleft, b.jobPath_iff.mpr hright,
      unaffected_of_ne hdistinct, unaffected_of_ne hdistinct.symm⟩

/-- A plan whose identifier contains the separator, and two tasks of a plan whose identifier is the first part of it. -/
def longPlan : TaskRef := ⟨"a__b", "c", by decide, by decide⟩

def shortPlan : TaskRef := ⟨"a", "b__c", by decide, by decide⟩

def nearPlan : TaskRef := ⟨"a", "b__d", by decide, by decide⟩

/-- The two plans are not in each other's way with the second task: the text between them would have to be `b`. -/
theorem job_identity_plans : Separate nearPlan longPlan := by
  have hne : nearPlan ≠ longPlan := fun h => absurd (congrArg TaskRef.planId h) (by decide)
  have hnear : ¬ nearPlan.Overlaps longPlan := by
    rintro ⟨middle, hplan, htask⟩
    have hmiddle : ['b'] = middle := List.append_cancel_left
      (show ['a', '_', '_'] ++ ['b'] = ['a', '_', '_'] ++ middle from hplan)
    rw [← hmiddle] at htask
    exact absurd htask (by decide)
  have hlong : ¬ longPlan.Overlaps nearPlan := by
    rintro ⟨middle, hplan, -⟩
    have hlength := congrArg List.length hplan
    rw [List.length_append, List.length_append,
      show nearPlan.planId.toList.length = 1 from rfl, show longPlan.planId.toList.length = 4 from rfl] at hlength
    omega
  refine (job_identity hne).mpr ⟨⟨?_, ?_, ?_⟩, ⟨?_, ?_, ?_⟩, hnear, hlong⟩
  all_goals decide

def dottedPlan : TaskRef := ⟨"p..1", "002-apply-n1", by decide, by decide⟩

/-- The refusal of a publication, if it is refused. -/
def TaskRef.refusal (a : TaskRef) (q : QueueDir) : Option Refusal :=
  match a.published q "n1" labPlan.adapter.text 0 1010 with
  | .error e => some e
  | .ok _ => none

/-- One plan's task takes the job file of another's, and its publication is refused; a dotted plan has no job file. -/
theorem publication_rebound :
    longPlan ≠ shortPlan ∧ ¬ Separate longPlan shortPlan ∧
      shortPlan.refusal (replay lab (fun token => checksum [token]) false
          [.publish "a__b" "c" "n1" labPlan.adapter.text 0 1000]).queue =
        some ⟨409, "existing job cannot be rebound"⟩ ∧
      shortPlan.refusal emptySystem.queue = none ∧ Accepted (jobPath dottedPlan.jobId) = false := by
  have hsame : longPlan.jobId = shortPlan.jobId := by decide
  refine ⟨fun h => absurd (congrArg TaskRef.planId h) (by decide), fun h => h.distinct hsame, ?_, ?_, ?_⟩
  all_goals decide +kernel

end OraclePatching.Queue
