import OraclePatching.Agent.Runs
import OraclePatching.Lib.Separated

/-!
# `Agent.Bindings` — the condition, the lock of a key and the binding of a task

`Undisturbed` says what has to hold where an agent takes a step, for the agents to be idempotent: it does not begin a
run under a key that has an interrupted run of another task, and the names of its temporary files are not in use as
what they are temporary for. The first two invariants follow.

* `Locking`: whoever is past the lock of its key holds it, so of the agents of one key only one is.
* `Bindings`: a bound task stays bound to its key. A temporary binding shares its inode with the binding it is linked
  to; that no agent writes through it later is what the condition on names is for.
-/

namespace OraclePatching.Agent

variable {hash : String → String} {used : Request → Prop}

/-! ## Names

A temporary file is named after its process, so that two agents never share one. It may be the name of another task
or key, for an identifier may end the same way. -/

/-- Temporary names of two processes differ, whatever they are temporary for. -/
theorem tempName_inj {name name' : String} {pid pid' : Nat} (h : tempName name pid = tempName name' pid') :
    pid = pid' := by
  have hlists : (name ++ ".tmp").toList ++ '.' :: (toString pid).toList =
      (name' ++ ".tmp").toList ++ '.' :: (toString pid').toList := by
    simpa [tempName, String.toList_append] using congrArg String.toList h
  exact (Separated.number_inj (by decide) hlists).2

/-- A file and its temporary file have two names. -/
theorem tempName_ne (name : String) (pid : Nat) : tempName name pid ≠ name := by
  intro h
  have := congrArg (fun s => s.toList.length) h
  simp [tempName, String.toList_append] at this

/-! ## The condition

What is asked of a step is what the code does not make sure of itself. Each clause is about one stage: the file
operation that comes next would otherwise go to a file of somebody else. -/

/-- The run has begun, has not been published, and nobody is at work on it. -/
def interrupted (s : State) (r : Request) : Prop :=
  r ∈ s.begun ∧ (∀ c, s.published r.idempotencyKey = some c → c.request ≠ r) ∧
    ∀ pid p, s.processes pid = some p → p.request = r → p.stage.isRunning = false

/-- What may not get in an agent's way at its next file operation. -/
structure Undisturbed (s : State) (pid : Nat) (p : Process) : Prop where
  /-- The temporary binding is not the binding of a bound task. -/
  temporary : p.stage = .writeTemporary → ∀ b ∈ s.bound, s.links (p.temporary pid) ≠ none →
    s.links b.1 ≠ s.links (p.temporary pid)
  /-- The agent's key is read from a binding, not from a temporary file. -/
  binding : p.stage = .readBinding → ∀ inode, s.links p.request.taskId = some inode →
    s.content inode = p.request.idempotencyKey → (p.request.taskId, p.request.idempotencyKey) ∈ s.bound
  /-- The key has no interrupted run of another task. -/
  run : p.stage = .makeRun → ∀ r, interrupted s r → r.idempotencyKey = p.request.idempotencyKey →
    r.taskId = p.request.taskId
  /-- The temporary directory is not a published completion. -/
  directory : ∀ result exitCode, p.stage = .clearDirectory result exitCode → s.published (p.directory pid) = none

/-- Requests come from the requests in use, and every agent goes on undisturbed. -/
def undisturbed (used : Request → Prop) (s : State) : Action → Prop
  | .arrive _ r => used r
  | .step pid => ∀ p, s.processes pid = some p → Undisturbed s pid p
  | _ => True

/-! ## The locks

A lock is held from its acquisition to the end of its process. Going on keeps it, going away gives it back, and
only a free lock is taken. -/

section
variable {s t : State} {pid : Nat} {p p' : Process}

/-- Whoever is past the lock holds it. -/
def Locking (s : State) : Prop :=
  ∀ pid p, s.processes pid = some p → p.stage.isLocked = true → s.locks p.request.idempotencyKey = some pid

/-- Of the agents of one key only one is past the lock. -/
theorem Locking.pid_eq (h : Locking s) {other : Nat} {q : Process} (hp : s.processes pid = some p)
    (hq : s.processes other = some q) (hpl : p.stage.isLocked = true) (hql : q.stage.isLocked = true)
    (hkey : q.request.idempotencyKey = p.request.idempotencyKey) : other = pid :=
  Option.some.inj ((h other q hq hql).symm.trans (hkey ▸ h pid p hp hpl))

/-- An agent that goes on keeps its lock. -/
theorem Locking.goto (h : Locking s) (hp : s.processes pid = some p)
    (hprocesses : t.processes = s.processes.update pid (some p')) (hlocks : t.locks = s.locks)
    (hrequest : p'.request = p.request) (hstage : p'.stage.isLocked = true → p.stage.isLocked = true) : Locking t := by
  unfold Locking
  rw [hprocesses, hlocks]
  refine Processes.all_update ?_ fun other q _ hq => h other q hq
  rintro _ ⟨⟩ hl
  rw [hrequest]
  exact h pid p hp (hstage hl)

/-- An agent that goes away takes its locks with it; the others keep theirs. -/
theorem Locking.gone (h : Locking s) (hprocesses : t.processes = s.processes.update pid none)
    (hlocks : t.locks = s.unlocked pid) : Locking t := by
  unfold Locking
  rw [hprocesses, hlocks]
  refine Processes.all_update (fun _ hnone => nomatch hnone) fun other q hne hq hl => ?_
  have hheld := h other q hq hl
  simp [State.unlocked, hheld, hne]

/-- A free lock is taken by one agent, and nobody else is past it. -/
theorem Locking.acquired (h : Locking s) (hfree : s.locks p.request.idempotencyKey = none) :
    Locking ({ s with locks := setName s.locks p.request.idempotencyKey (some pid) }.goto pid p .checkCompletion) := by
  refine Processes.all_update ?_ fun other q _ hq hl => ?_
  · rintro _ ⟨⟩ _
    exact setName_self _ _
  · have hheld := h other q hq hl
    have hne : q.request.idempotencyKey ≠ p.request.idempotencyKey := fun he => by
      rw [he, hfree] at hheld
      exact absurd hheld (by simp)
    exact (setName_ne _ _ hne).trans hheld

/-- **One step of an agent.** -/
theorem Locking.move (h : Locking s) (hp : s.processes pid = some p) (he : Effect hash s pid p t) : Locking t := by
  cases he with
  | locked _ hfree => exact h.acquired hfree
  | waits => exact h
  | @dropped linked hst => exact h.goto hp rfl rfl rfl (by cases linked <;> simp [Stage.isLocked])
  | _ =>
      first
      | exact h.gone rfl rfl
      | exact h.goto hp rfl rfl rfl (by simp [*, Stage.isLocked])

/-- **One action**, of an agent or of its surroundings. -/
theorem Locking.act {a : Action} (h : Locking s) (ha : Acts hash s a t) : Locking t := by
  cases ha with
  | arrived hnone hok =>
      exact Processes.all_update (fun q hq hl => absurd hl (by rw [← Option.some.inj hq]; simp [Stage.isLocked]))
        fun other q _ hq => h other q hq
  | rejected _ => exact h
  | moved hp he => exact h.move hp he
  | timedOut hp hst => exact h.gone rfl rfl
  | finished hp hst => exact h.goto hp rfl rfl rfl (by simp [hst, Stage.isLocked])
  | died hp => exact h.gone rfl rfl

end

/-! ## The bindings

A bound task has a link to a file with its key in it. The invariant says which links may share a file, because a
write through one of them shows under the other: that is how a binding could change. -/

section
variable {s t : State} {pid : Nat} {p p' : Process}

/-- The name is the task ID of a bound task. -/
def State.Names (s : State) (x : String) : Prop := ∃ b ∈ s.bound, b.1 = x

/-- The task of every binding stays bound to its key, and temporary bindings keep out of the way. -/
structure Bindings (s : State) : Prop where
  small : ∀ x i, s.links x = some i → i < s.inodes
  /-- Only the link of a task and its temporary binding share an inode. -/
  shared : ∀ x y i, s.links x = some i → s.links y = some i → x = y ∨ s.Names x ∨ s.Names y
  kept : ∀ task key, (task, key) ∈ s.bound → ∃ i, s.links task = some i ∧ s.content i = key
  temporary : ∀ pid p, s.processes pid = some p → p.stage.isLinking = true →
    s.links (p.temporary pid) ≠ none ∧ ¬s.Names (p.temporary pid)
  written : ∀ pid p, s.processes pid = some p → p.stage = .link → ∀ i, s.links (p.temporary pid) = some i →
    s.content i = p.request.idempotencyKey
  known : ∀ pid p, s.processes pid = some p → p.stage.isBound = true →
    (p.request.taskId, p.request.idempotencyKey) ∈ s.bound

/-- The directory of the bindings is the same. -/
def SameBindings (s t : State) : Prop :=
  t.links = s.links ∧ t.content = s.content ∧ t.inodes = s.inodes ∧ t.bound = s.bound

/-- A step that leaves the directory of bindings alone. -/
theorem Bindings.goto (h : Bindings s) (hp : s.processes pid = some p) (hsame : SameBindings s t)
    (hprocesses : t.processes = s.processes.update pid (some p')) (hrequest : p'.request = p.request)
    (hlinking : p'.stage.isLinking = true → p.stage.isLinking = true) (hlink : p'.stage ≠ .link)
    (hknown : p'.stage.isBound = true → (p.request.taskId, p.request.idempotencyKey) ∈ s.bound) : Bindings t := by
  obtain ⟨hlinks, hcontent, hinodes, hbound⟩ := hsame
  have htemporary : p'.temporary pid = p.temporary pid := by rw [Process.temporary, hrequest, Process.temporary]
  have hnames : ∀ x, t.Names x ↔ s.Names x := fun x => by rw [State.Names, hbound, State.Names]
  constructor
  · rw [hlinks, hinodes]; exact h.small
  · simp only [hlinks, hnames]; exact h.shared
  · rw [hlinks, hcontent, hbound]; exact h.kept
  · simp only [hlinks, hnames, hprocesses]
    refine Processes.all_update ?_ fun other q _ hq => h.temporary other q hq
    rintro _ ⟨⟩ hl
    rw [htemporary]
    exact h.temporary pid p hp (hlinking hl)
  · rw [hlinks, hcontent, hprocesses]
    refine Processes.all_update ?_ fun other q _ hq => h.written other q hq
    rintro _ ⟨⟩ hl
    exact absurd hl hlink
  · rw [hbound, hprocesses]
    refine Processes.all_update ?_ fun other q _ hq => h.known other q hq
    rintro _ ⟨⟩ hb
    rw [hrequest]
    exact hknown hb

/-- An agent that ends leaves its bindings there. -/
theorem Bindings.gone (h : Bindings s) (hsame : SameBindings s t)
    (hprocesses : t.processes = s.processes.update pid none) : Bindings t := by
  obtain ⟨hlinks, hcontent, hinodes, hbound⟩ := hsame
  have hnames : ∀ x, t.Names x ↔ s.Names x := fun x => by rw [State.Names, hbound, State.Names]
  constructor
  · rw [hlinks, hinodes]; exact h.small
  · simp only [hlinks, hnames]; exact h.shared
  · rw [hlinks, hcontent, hbound]; exact h.kept
  · simp only [hlinks, hnames, hprocesses]
    exact Processes.all_update (fun _ hnone => nomatch hnone) fun other q _ hq => h.temporary other q hq
  · rw [hlinks, hcontent, hprocesses]
    exact Processes.all_update (fun _ hnone => nomatch hnone) fun other q _ hq => h.written other q hq
  · rw [hbound, hprocesses]
    exact Processes.all_update (fun _ hnone => nomatch hnone) fun other q _ hq => h.known other q hq

/-- A temporary binding is another agent's business only when it is a bound task. -/
theorem Bindings.temporary_ne {other : Nat} {q : Process} (hne : other ≠ pid) :
    q.temporary other ≠ p.temporary pid := fun he => hne (tempName_inj he)

/-- Writing the key into a temporary file that was there already. The condition keeps it from being the file of a
    bound task. -/
theorem Bindings.wrote {inode : Nat} (h : Bindings s) (hundisturbed : Undisturbed s pid p)
    (hst : p.stage = .writeTemporary) (hlink : s.links (p.temporary pid) = some inode) :
    Bindings ({ s with
      content := fun i => if i = inode then p.request.idempotencyKey else s.content i }.goto pid p .link) := by
  have hunshared : ∀ x, s.Names x → s.links x ≠ some inode := by
    rintro _ ⟨b, hb, rfl⟩
    rw [← hlink]
    exact hundisturbed.temporary hst b hb (by rw [hlink]; simp)
  refine ⟨h.small, h.shared, ?_, ?_, ?_, ?_⟩
  · intro task key hb
    obtain ⟨i, hi, hcontent⟩ := h.kept task key hb
    have hne : i ≠ inode := fun he => hunshared task ⟨_, hb, rfl⟩ (he ▸ hi)
    exact ⟨i, hi, (if_neg hne).trans hcontent⟩
  · refine Processes.all_update ?_ fun other q _ hq => h.temporary other q hq
    rintro _ ⟨⟩ _
    exact ⟨fun hnone => absurd (hlink.symm.trans hnone) (by simp), fun hn => hunshared _ hn hlink⟩
  · refine Processes.all_update ?_ fun other q hne hq hl i hi => ?_
    · rintro _ ⟨⟩ _ i hi
      obtain rfl := Option.some.inj (hlink.symm.trans hi)
      exact if_pos rfl
    · have hother : i ≠ inode := by
        rintro rfl
        rcases h.shared _ _ i hi hlink with heq | hn | hn
        · exact Bindings.temporary_ne hne heq
        · exact (h.temporary other q hq (by rw [hl]; rfl)).2 hn
        · exact hunshared _ hn hlink
      exact (if_neg hother).trans (h.written other q hq hl i hi)
  · refine Processes.all_update ?_ fun other q _ hq => h.known other q hq
    rintro _ ⟨⟩ hb
    exact absurd hb (by simp [Stage.isBound])

/-- Writing the key into a temporary file that is new: its inode is, too, so no link shares it. -/
theorem Bindings.created (h : Bindings s) (hnone : s.links (p.temporary pid) = none) :
    Bindings ({ s with
      links := setName s.links (p.temporary pid) (some s.inodes),
      content := fun i => if i = s.inodes then p.request.idempotencyKey else s.content i,
      inodes := s.inodes + 1 }.goto pid p .link) := by
  -- the temporary name has the new inode, every other name an older one
  have hold : ∀ x i, setName s.links (p.temporary pid) (some s.inodes) x = some i →
      (x = p.temporary pid ∧ i = s.inodes) ∨ (s.links x = some i ∧ i < s.inodes) := by
    intro x i hx
    by_cases hxt : x = p.temporary pid
    · subst hxt
      rw [setName_self] at hx
      exact .inl ⟨rfl, (Option.some.inj hx).symm⟩
    · rw [setName_ne _ _ hxt] at hx
      exact .inr ⟨hx, h.small x i hx⟩
  -- no task is bound under a temporary name, since that one was free
  have hbound : ∀ b ∈ s.bound, b.1 ≠ p.temporary pid := by
    rintro ⟨task, key⟩ hb rfl
    obtain ⟨i, hi, _⟩ := h.kept _ key hb
    exact absurd (hnone.symm.trans hi) (by simp)
  refine ⟨?_, ?_, ?_, ?_, ?_, ?_⟩
  · intro x i hx
    rcases hold x i hx with ⟨_, rfl⟩ | ⟨_, hi⟩
    · exact Nat.lt_succ_self _
    · exact Nat.lt_succ_of_lt hi
  -- the new inode has one name, so it is shared by none
  · intro x y i hx hy
    rcases hold x i hx with ⟨hxt, hxi⟩ | ⟨hx, hxi⟩ <;> rcases hold y i hy with ⟨hyt, hyi⟩ | ⟨hy, hyi⟩
    · exact .inl (hxt.trans hyt.symm)
    · exact absurd hxi (Nat.ne_of_lt hyi)
    · exact absurd hyi (Nat.ne_of_lt hxi)
    · exact h.shared x y i hx hy
  · intro task key hb
    obtain ⟨i, hi, hcontent⟩ := h.kept task key hb
    exact ⟨i, (setName_ne _ _ (hbound _ hb)).trans hi, (if_neg (Nat.ne_of_lt (h.small _ _ hi))).trans hcontent⟩
  · refine Processes.all_update ?_ fun other q hne hq hl => ?_
    · rintro _ ⟨⟩ _
      refine ⟨fun hn => absurd ((setName_self _ _).symm.trans hn) (by simp), ?_⟩
      rintro ⟨b, hb, heq⟩
      exact hbound b hb heq
    · obtain ⟨hsome, hn⟩ := h.temporary other q hq hl
      exact ⟨fun he => hsome ((setName_ne _ _ (Bindings.temporary_ne hne)).symm.trans he), hn⟩
  · refine Processes.all_update ?_ fun other q hne hq hl i hi => ?_
    · rintro _ ⟨⟩ _ i hi
      obtain rfl := Option.some.inj ((setName_self _ _).symm.trans hi)
      exact if_pos rfl
    · have hlink := (setName_ne _ _ (Bindings.temporary_ne hne)).symm.trans hi
      exact (if_neg (Nat.ne_of_lt (h.small _ _ hlink))).trans (h.written other q hq hl i hlink)
  · refine Processes.all_update ?_ fun other q _ hq => h.known other q hq
    rintro _ ⟨⟩ hb
    exact absurd hb (by simp [Stage.isBound])

/-- **The task is bound**: its link and the temporary file now share an inode. -/
theorem Bindings.linked {inode : Nat} (h : Bindings s) (hp : s.processes pid = some p) (hst : p.stage = .link)
    (hlink : s.links (p.temporary pid) = some inode) (hnone : s.links p.request.taskId = none) :
    Bindings ({ s with
      links := setName s.links p.request.taskId (some inode),
      bound := (p.request.taskId, p.request.idempotencyKey) :: s.bound }.goto pid p (.dropTemporary true)) := by
  -- the task's name was free, so no name in use is touched
  have hname : ∀ x, s.links x ≠ none → x ≠ p.request.taskId := by
    rintro _ hx rfl
    exact hx hnone
  have hbound : ∀ b ∈ s.bound, b.1 ≠ p.request.taskId := by
    rintro ⟨task, key⟩ hb
    obtain ⟨i, hi, _⟩ := h.kept task key hb
    exact hname task (by rw [hi]; simp)
  have hnames : ∀ x, s.links x ≠ none → ¬s.Names x →
      setName s.links p.request.taskId (some inode) x ≠ none ∧
        ¬∃ b ∈ (p.request.taskId, p.request.idempotencyKey) :: s.bound, b.1 = x := by
    refine fun x hx hn => ⟨by rw [setName_ne _ _ (hname x hx)]; exact hx, ?_⟩
    rintro ⟨b, hb, rfl⟩
    rcases List.mem_cons.mp hb with rfl | hb
    · exact hname _ hx rfl
    · exact hn ⟨b, hb, rfl⟩
  refine ⟨?_, ?_, ?_, ?_, ?_, ?_⟩
  · intro x i hx
    by_cases hxt : x = p.request.taskId
    · subst hxt
      obtain rfl := Option.some.inj ((setName_self _ _).symm.trans hx)
      exact h.small _ _ hlink
    · exact h.small x i ((setName_ne _ _ hxt).symm.trans hx)
  -- now the inode has two names, and one of them is the task's
  · intro x y i hx hy
    have hnew : ∀ x k, (x, k) = (p.request.taskId, p.request.idempotencyKey) ∨ (x, k) ∈ s.bound →
        ∃ b ∈ (p.request.taskId, p.request.idempotencyKey) :: s.bound, b.1 = x :=
      fun x k hb => ⟨(x, k), List.mem_cons.mpr hb, rfl⟩
    by_cases hxt : x = p.request.taskId
    · exact .inr (.inl (hnew x _ (.inl (by rw [hxt]))))
    · by_cases hyt : y = p.request.taskId
      · exact .inr (.inr (hnew y _ (.inl (by rw [hyt]))))
      · rcases h.shared x y i ((setName_ne _ _ hxt).symm.trans hx) ((setName_ne _ _ hyt).symm.trans hy) with
          heq | ⟨b, hb, rfl⟩ | ⟨b, hb, rfl⟩
        · exact .inl heq
        · exact .inr (.inl (hnew b.1 b.2 (.inr hb)))
        · exact .inr (.inr (hnew b.1 b.2 (.inr hb)))
  -- the new binding reads the key that the agent wrote to its temporary file
  · intro task key hb
    rcases List.mem_cons.mp hb with heq | hb
    · obtain ⟨rfl, rfl⟩ := Prod.mk.inj heq
      exact ⟨inode, setName_self _ _, h.written pid p hp hst inode hlink⟩
    · obtain ⟨i, hi, hcontent⟩ := h.kept task key hb
      exact ⟨i, (setName_ne _ _ (hbound _ hb)).trans hi, hcontent⟩
  · refine Processes.all_update ?_ fun other q _ hq hl => ?_
    · rintro _ ⟨⟩ _
      obtain ⟨hsome, hn⟩ := h.temporary pid p hp (by rw [hst]; rfl)
      exact hnames _ hsome hn
    · obtain ⟨hsome, hn⟩ := h.temporary other q hq hl
      exact hnames _ hsome hn
  · refine Processes.all_update ?_ fun other q _ hq hl i hi => ?_
    · rintro _ ⟨⟩ hl
      exact absurd hl (by simp)
    · have hsome := (h.temporary other q hq (by rw [hl]; rfl)).1
      exact h.written other q hq hl i ((setName_ne _ _ (hname _ hsome)).symm.trans hi)
  · refine Processes.all_update ?_ fun other q _ hq hb => List.mem_cons_of_mem _ (h.known other q hq hb)
    rintro _ ⟨⟩ _
    exact List.mem_cons_self

/-- The temporary name goes; the task keeps its link. -/
theorem Bindings.dropped {linked : Bool} (h : Bindings s) (hp : s.processes pid = some p)
    (hst : p.stage = .dropTemporary linked) :
    Bindings ({ s with links := setName s.links (p.temporary pid) none }.goto pid p
      (if linked then .acquireLock else .readBinding)) := by
  obtain ⟨_, hname⟩ := h.temporary pid p hp (by rw [hst]; rfl)
  have hold : ∀ x i, setName s.links (p.temporary pid) none x = some i → s.links x = some i := by
    intro x i hx
    by_cases hxt : x = p.temporary pid
    · subst hxt
      exact absurd ((setName_self _ _).symm.trans hx) (by simp)
    · exact (setName_ne _ _ hxt).symm.trans hx
  refine ⟨fun x i hx => h.small x i (hold x i hx), fun x y i hx hy => h.shared x y i (hold x i hx) (hold y i hy),
    ?_, ?_, ?_, ?_⟩
  · intro task key hb
    obtain ⟨i, hi, hcontent⟩ := h.kept task key hb
    exact ⟨i, (setName_ne _ _ (fun he => hname ⟨_, hb, he⟩)).trans hi, hcontent⟩
  · refine Processes.all_update ?_ fun other q hne hq hl => ?_
    · rintro _ ⟨⟩ hl
      exact absurd hl (by cases linked <;> simp [Stage.isLinking])
    · obtain ⟨hsome, hn⟩ := h.temporary other q hq hl
      exact ⟨fun he => hsome ((setName_ne _ _ (Bindings.temporary_ne hne)).symm.trans he), hn⟩
  · refine Processes.all_update ?_ fun other q _ hq hl i hi => h.written other q hq hl i (hold _ i hi)
    rintro _ ⟨⟩ hl
    exact absurd hl (by cases linked <;> simp)
  · refine Processes.all_update ?_ fun other q _ hq => h.known other q hq
    rintro _ ⟨⟩ hb
    exact h.known pid p hp (by rw [hst]; revert hb; cases linked <;> simp [Stage.isBound])

/-- **One step of an agent.** The stages that write a file have their own lemmas above, the others leave the directory
    as it is. -/
theorem Bindings.move (h : Bindings s) (hp : s.processes pid = some p) (hundisturbed : Undisturbed s pid p)
    (he : Effect hash s pid p t) : Bindings t := by
  have hknown := h.known pid p hp
  cases he with
  | wrote hst hlink => exact h.wrote hundisturbed hst hlink
  | created _ hnone => exact h.created hnone
  | linked hst hlink hnone => exact h.linked hp hst hlink hnone
  | dropped hst => exact h.dropped hp hst
  | notLinked hst =>
      exact h.goto hp ⟨rfl, rfl, rfl, rfl⟩ rfl rfl (by simp [hst, Stage.isLinking]) (by simp)
        (by simp [Stage.isBound])
  | matched hst hlink hcontent =>
      exact h.goto hp ⟨rfl, rfl, rfl, rfl⟩ rfl rfl (by simp [Stage.isLinking]) (by simp)
        fun _ => hundisturbed.binding hst _ hlink hcontent
  | waits => exact h
  | _ =>
      first
      | exact h.gone ⟨rfl, rfl, rfl, rfl⟩ rfl
      | exact h.goto hp ⟨rfl, rfl, rfl, rfl⟩ rfl rfl (by simp [Stage.isLinking]) (by simp)
          fun _ => hknown (by simp [*, Stage.isBound])

/-- **One action.** A crash leaves the files where they are. -/
theorem Bindings.act {a : Action} (h : Bindings s) (hundisturbed : undisturbed used s a) (ha : Acts hash s a t) :
    Bindings t := by
  cases ha with
  | arrived hnone hok =>
      refine ⟨h.small, h.shared, h.kept, ?_, ?_, ?_⟩
      · exact Processes.all_update (fun q hq hl => absurd hl (by rw [← Option.some.inj hq]; simp [Stage.isLinking]))
          fun other q _ hq => h.temporary other q hq
      · exact Processes.all_update (fun q hq hl => absurd hl (by rw [← Option.some.inj hq]; simp))
          fun other q _ hq => h.written other q hq
      · exact Processes.all_update (fun q hq hl => absurd hl (by rw [← Option.some.inj hq]; simp [Stage.isBound]))
          fun other q _ hq => h.known other q hq
  | rejected _ => exact ⟨h.small, h.shared, h.kept, h.temporary, h.written, h.known⟩
  | moved hp he => exact h.move hp (hundisturbed _ hp) he
  | timedOut _ _ => exact h.gone ⟨rfl, rfl, rfl, rfl⟩ rfl
  | @finished _ p _ _ hp hst =>
      exact h.goto hp ⟨rfl, rfl, rfl, rfl⟩ rfl rfl (by simp [Stage.isLinking]) (by simp)
        fun _ => h.known _ p hp (by rw [hst]; rfl)
  | died _ => exact h.gone ⟨rfl, rfl, rfl, rfl⟩ rfl

end

end OraclePatching.Agent
