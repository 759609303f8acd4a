import OraclePatching.Controller.TaskLock

/-!
# `Correctness.TaskLockExclusion` — when two processes cannot hold the lock of a plan at once

`lock` goes on to reclaim only where `stat` has found nothing at the path, and removes by path whatever stands there by
then. So it goes wrong at two points: when a directory is made while another process is bound to remove what it finds,
and when a process that `stat -f` showed an empty path looks at the age of a directory that has been made since and has
stood for a minute. What the file `pid` says does not matter to this. A run without the two (`Undisturbed`) keeps
`Guarded`, from which exclusion follows.

The other side of the same `stat`: a directory that nobody saw missing is never taken away, not even from the dead
(`abandoned_lock`).
-/

namespace OraclePatching.TaskLock

variable {s s' : State} {a : Action} {p q : Pid} {d : LockDir}

/-! ## What is promised -/

def State.alive (s : State) (p : Pid) : Prop := s.dead p = false

/-- No two live processes are between the return of `lock` and their `unlock`, and no live process is about to remove
    what a live process has made. -/
structure Exclusive (s : State) : Prop where
  single : ∀ p q, s.alive p → s.alive q → s.point p = .inside → s.point q = .inside → p = q
  reclaim : ∀ p d, s.alive p → s.point p = .reclaimPid ∨ s.point p = .reclaimDirectory → s.dir = some d →
    s.dead d.creator = true

/-! ## Undisturbed steps

A process that has come past `stat -f` removes a directory in two cases: at once when it has read no number or has found
the path empty twice, and after a look at the age when it has read one. The first is settled when the directory is made,
the second when the age is looked at. -/

/-- The process removes what it finds. -/
def Point.bound : Point → Bool
  | .statC none | .reclaimPid | .reclaimDirectory => true
  | _ => false

/-- No directory is made while a live process is bound to remove it, and none whose maker lives is found older than a
    minute by a process that has found the path empty just before. -/
def Undisturbed (s : State) (a : Action) : Prop :=
  match s.point a.pid, a.step with
  | _, .mkdir => s.dir = none → ∀ q, s.alive q → (s.point q).bound = false
  | _, .statC old => old = true → ∀ d, s.dir = some d → s.dead d.creator = true
  | _, _ => True

/-! ## The invariant

A live process between its `mkdir` and its `rmdir` finds at the path the directory it has made, and where the maker
lives nobody is bound to remove it. -/

/-- The process has made the directory and not removed it. -/
def Point.owning : Point → Bool
  | .writePid | .inside | .unlockPid | .unlockDirectory => true
  | _ => false

structure Guarded (s : State) : Prop where
  owner : ∀ p, s.alive p → (s.point p).owning = true → ∃ d, s.dir = some d ∧ d.creator = p
  spared : ∀ p d, s.alive p → s.dir = some d → s.alive d.creator → (s.point p).bound = false

theorem Guarded.exclusive (h : Guarded s) : Exclusive s := by
  constructor
  · intro p q hp hq hpin hqin
    obtain ⟨d, hd, rfl⟩ := h.owner p hp (by rw [hpin]; rfl)
    obtain ⟨d', hd', rfl⟩ := h.owner q hq (by rw [hqin]; rfl)
    rw [hd] at hd'
    rw [Option.some.inj hd']
  · intro p d hp hpoint hd
    by_contra hdead
    have hspared := h.spared p d hp hd (eq_false_of_ne_true hdead)
    rcases hpoint with hpoint | hpoint
    · rw [hpoint] at hspared
      exact absurd hspared (by simp [Point.bound])
    · rw [hpoint] at hspared
      exact absurd hspared (by simp [Point.bound])

/-! ## Moves

Every step moves one process. The directory stays with its maker, or is removed where only the process that moves may
have made it, or is made. -/

section
variable {point : Point} {dir : Option LockDir}

@[simp] theorem goto_dir : (s.goto p point).dir = s.dir := rfl

@[simp] theorem goto_alive : (s.goto p point).alive q ↔ s.alive q := Iff.rfl

@[simp] theorem goto_self : (s.goto p point).point p = point := by simp [State.goto]

/-- The other processes stay where they were. -/
theorem goto_ne (h : q ≠ p) : (s.goto p point).point q = s.point q := by simp [State.goto, h]

/-- Dying is all that `exit` does. -/
theorem alive_of_exit (h : (s.exit p).alive q) : s.alive q := by
  have h : Function.update s.dead p true q = false := h
  by_cases hqp : q = p
  · rw [hqp, Function.update_self] at h
    exact absurd h (by simp)
  · rwa [Function.update_of_ne hqp] at h

/-- A process moves, and the directory keeps its maker. -/
theorem Guarded.kept (h : Guarded s) (hdir : dir.map (·.creator) = s.dir.map (·.creator))
    (howning : point.owning = (s.point p).owning)
    (hspared : ∀ d, s.dir = some d → s.alive d.creator → point.bound = false) :
    Guarded ({ s with dir := dir }.goto p point) := by
  refine ⟨fun q hq hown => ?_, fun q d hq hd hcreator => ?_⟩
  · -- what it owned before the step
    have hbefore : (s.point q).owning = true := by
      by_cases hqp : q = p
      · rw [hqp] at hown ⊢
        rw [goto_self, howning] at hown
        exact hown
      · rw [goto_ne hqp] at hown
        exact hown
    obtain ⟨d, hd, rfl⟩ := h.owner q hq hbefore
    rw [hd, Option.map_some] at hdir
    exact Option.map_eq_some_iff.mp hdir
  · -- a directory of the same maker was there before
    have hd : dir = some d := hd
    rw [hd, Option.map_some] at hdir
    obtain ⟨d₀, hd₀, hmaker⟩ := Option.map_eq_some_iff.mp hdir.symm
    have hlives : s.alive d₀.creator := hmaker ▸ hcreator
    by_cases hqp : q = p
    · rw [hqp, goto_self]
      exact hspared d₀ hd₀ hlives
    · rw [goto_ne hqp]
      exact h.spared q d₀ hq hd₀ hlives

/-- The points of `lock` that are not bound to remove anything. -/
theorem Guarded.waits (h : Guarded s) (howning : point.owning = (s.point p).owning) (hbound : point.bound = false) :
    Guarded (s.goto p point) := h.kept rfl howning fun _ _ _ => hbound

/-- A process removes the directory, which no other live process has made. -/
theorem Guarded.removed (h : Guarded s) (hmine : ∀ d, s.dir = some d → s.alive d.creator → d.creator = p)
    (howning : point.owning = false) (hbound : point.bound = false) : Guarded (s.rmdir.goto p point) := by
  refine ⟨fun q hq hown => ?_, fun q d hq hd hcreator => ?_⟩
  · by_cases hqp : q = p
    · rw [hqp, goto_self, howning] at hown
      exact absurd hown (by simp)
    · rw [goto_ne hqp] at hown
      obtain ⟨d, hd, rfl⟩ := h.owner q hq hown
      exact absurd (hmine d hd hq) hqp
  · by_cases hqp : q = p
    · rw [hqp, goto_self]
      exact hbound
    · rw [goto_ne hqp]
      exact h.spared q d hq (Option.filter_eq_some_iff.mp hd).1 hcreator

/-- A process makes the directory, and nobody is bound to remove it. -/
theorem Guarded.made (h : Guarded s) (hd : s.dir = none) (hbound : ∀ q, s.alive q → (s.point q).bound = false) :
    Guarded ({ s with dir := some ⟨p, none⟩ }.goto p .writePid) := by
  refine ⟨fun q hq hown => ?_, fun q d hq _ _ => ?_⟩
  · by_cases hqp : q = p
    · exact ⟨_, rfl, hqp.symm⟩
    · rw [goto_ne hqp] at hown
      obtain ⟨d, hd', -⟩ := h.owner q hq hown
      rw [hd] at hd'
      exact absurd hd' (by simp)
  · by_cases hqp : q = p
    · rw [hqp, goto_self]
      rfl
    · rw [goto_ne hqp]
      exact hbound q hq

/-- The death of a process only makes owners dead. -/
theorem Guarded.died (h : Guarded s) : Guarded (s.exit p) :=
  ⟨fun q hq hown => h.owner q (alive_of_exit hq) hown,
    fun q d hq hd hcreator => h.spared q d (alive_of_exit hq) hd (alive_of_exit hcreator)⟩

/-! ## Every step

The lock is made by `mkdir`, and removed by its owner or by a process that has seen its owner dead. Each step is
one of the moves above. -/

/-- No lock, and nobody on the way to one. -/
theorem guarded_start : Guarded State.start :=
  ⟨fun p _ hown => absurd hown (by simp [State.start, Point.owning]), fun _ d _ hd => absurd hd (by simp [State.start])⟩

/-- A process that is bound to remove the directory meets none whose maker lives. -/
theorem Guarded.doomed (h : Guarded s) (hp : s.alive p) (hpoint : (s.point p).bound = true) (hd : s.dir = some d) :
    ¬ s.alive d.creator := by
  intro hcreator
  have hspared := h.spared p d hp hd hcreator
  rw [hpoint] at hspared
  exact absurd hspared (by simp)

theorem rmPid_creator : s.rmPid.dir.map (·.creator) = s.dir.map (·.creator) := by
  cases hd : s.dir <;> simp [State.rmPid, hd]

theorem record_creator : (s.record p).dir.map (·.creator) = s.dir.map (·.creator) := by
  cases hd : s.dir <;> simp [State.record, hd]

/-- **Step.** An undisturbed step keeps the invariant. -/
theorem guarded_step (h : Guarded s) (ha : Undisturbed s a) (hstep : step s a = some s') : Guarded s' := by
  obtain ⟨p, kind⟩ := a
  unfold step at hstep
  dsimp only at hstep
  split at hstep
  · exact absurd hstep (by simp)
  · rename_i hdead
    have hp : s.alive p := eq_false_of_ne_true hdead
    unfold State.next at hstep
    split at hstep <;> rename_i hpoint
    · -- lock
      obtain rfl := Option.some.inj hstep
      exact h.waits (by rw [hpoint]; rfl) rfl
    · -- mkdir
      split at hstep
      · rename_i hd
        obtain rfl := Option.some.inj hstep
        simp only [Undisturbed] at ha
        exact h.made hd (ha hd)
      · obtain rfl := Option.some.inj hstep
        exact h.waits (by rw [hpoint]; rfl) rfl
    · -- timeOut
      obtain rfl := Option.some.inj hstep
      exact h.waits (by rw [hpoint]; rfl) rfl
    · -- isDirectory
      obtain rfl := Option.some.inj hstep
      split
      · exact h.waits (by rw [hpoint]; rfl) rfl
      · exact h.waits (by rw [hpoint]; rfl) rfl
    · -- readPid
      obtain rfl := Option.some.inj hstep
      exact h.waits (by rw [hpoint]; rfl) rfl
    · -- kill
      obtain rfl := Option.some.inj hstep
      split
      · exact h.waits (by rw [hpoint]; rfl) rfl
      · exact h.waits (by rw [hpoint]; rfl) rfl
    · -- statF: nothing is at the path, so nothing is spared yet
      obtain rfl := Option.some.inj hstep
      split
      · exact h.died
      · rename_i hnone
        refine h.kept rfl (by rw [hpoint]; rfl) fun d hd => ?_
        exact absurd (by simp [hd]) hnone
    · -- statC
      rename_i holder old
      obtain rfl := Option.some.inj hstep
      split
      · rename_i hreclaims
        refine h.kept rfl (by rw [hpoint]; rfl) fun d hd hcreator => ?_
        -- a directory of a live maker is younger than a minute, and a number was read
        have hread := h.spared p d hp hd hcreator
        rw [hpoint] at hread
        simp only [Undisturbed] at ha
        have hyoung : old = false := by
          by_contra hold
          have hgone := ha (eq_true_of_ne_false hold) d hd
          have hcreator : s.dead d.creator = false := hcreator
          rw [hcreator] at hgone
          exact absurd hgone (by simp)
        cases holder with
        | none => exact absurd hread (by simp [Point.bound])
        | some holder => exact absurd hreclaims (by simp [hd, hyoung])
      · exact h.waits (by rw [hpoint]; rfl) rfl
    · -- reclaimPid
      obtain rfl := Option.some.inj hstep
      exact h.kept rmPid_creator (by rw [hpoint]; rfl) fun d hd hcreator =>
        absurd hcreator (h.doomed hp (by rw [hpoint]; rfl) hd)
    · -- reclaimDirectory
      obtain rfl := Option.some.inj hstep
      exact h.removed (fun d hd hcreator => absurd hcreator (h.doomed hp (by rw [hpoint]; rfl) hd)) rfl rfl
    · -- writePid
      obtain rfl := Option.some.inj hstep
      exact h.kept record_creator (by rw [hpoint]; rfl) fun _ _ _ => rfl
    · -- unlock
      obtain rfl := Option.some.inj hstep
      exact h.waits (by rw [hpoint]; rfl) rfl
    · -- unlockPid
      obtain rfl := Option.some.inj hstep
      exact h.kept rmPid_creator (by rw [hpoint]; rfl) fun _ _ _ => rfl
    · -- unlockDirectory
      obtain rfl := Option.some.inj hstep
      obtain ⟨d₀, hd₀, hmine⟩ := h.owner p hp (by rw [hpoint]; rfl)
      refine h.removed (fun d hd _ => ?_) rfl rfl
      rw [hd₀] at hd
      rw [← Option.some.inj hd]
      exact hmine
    · -- die
      obtain rfl := Option.some.inj hstep
      exact h.died
    · exact absurd hstep (by simp)

/-- **Run.** Processes that do not disturb each other keep the invariant, in any order of their steps and wherever they
    die. -/
theorem guarded_reached {as : List Action} (h : Reached Undisturbed as s) : Guarded s := by
  refine Trace.Run.invariant (I := fun _ s => Guarded s) ?_ (fun _ s a s' _ hs ha hstep => guarded_step hs ha hstep) h
  rintro s rfl
  exact guarded_start

/-! ## Runs of a few processes -/

/-- `Undisturbed`, asked of the processes in `ps` alone. -/
def undisturbed (ps : List Pid) (s : State) (a : Action) : Bool :=
  ps.contains a.pid &&
    match s.point a.pid, a.step with
    | _, .mkdir => s.dir.isSome || ps.all fun q => s.dead q || !(s.point q).bound
    | _, .statC old => !old || s.dir.all fun d => s.dead d.creator
    | _, _ => true

theorem step_other (hstep : step s a = some s') (hq : q ≠ a.pid) : s'.point q = s.point q := by
  unfold step at hstep
  split at hstep
  · exact absurd hstep (by simp)
  · unfold State.next at hstep
    split at hstep
    case h_2 =>
      split at hstep
      · obtain rfl := Option.some.inj hstep
        exact goto_ne hq
      · obtain rfl := Option.some.inj hstep
        exact goto_ne hq
    case h_7 =>
      obtain rfl := Option.some.inj hstep
      split
      · rfl
      · exact goto_ne hq
    case h_15 =>
      obtain rfl := Option.some.inj hstep
      rfl
    case h_16 => exact absurd hstep (by simp)
    all_goals
      obtain rfl := Option.some.inj hstep
      exact goto_ne hq

/-- The processes that take no step stay outside. -/
theorem undisturbed_sound {ps : List Pid} (h : undisturbed ps s a = true) (hps : ∀ q, q ∉ ps → s.point q = .outside) :
    Undisturbed s a := by
  unfold undisturbed at h
  rw [Bool.and_eq_true] at h
  obtain ⟨-, h⟩ := h
  unfold Undisturbed
  split at h
  · intro hd q hq
    have hq : s.dead q = false := hq
    by_cases hmem : q ∈ ps
    · simp only [hd, Option.isSome_none, Bool.false_or, List.all_eq_true] at h
      simpa [hq] using h q hmem
    · rw [hps q hmem]
      rfl
  · intro hold d hd
    simpa [hold, hd] using h
  · trivial

/-- A run that was checked is a run under the condition. -/
theorem reached_of_undisturbed {ps : List Pid} {as : List Action}
    (h : Reached (fun s a => undisturbed ps s a = true) as s) :
    Reached Undisturbed as s ∧ ∀ q, q ∉ ps → s.point q = .outside := by
  induction h with
  | nil hstart =>
      obtain rfl := hstart
      exact ⟨.nil rfl, fun _ _ => rfl⟩
  | snoc hrun ha hstep ih =>
      obtain ⟨hreached, hps⟩ := ih
      refine ⟨.snoc hreached (undisturbed_sound ha hps) hstep, fun q hq => ?_⟩
      have hmem := (Bool.and_eq_true _ _ ▸ ha).1
      have hne : q ≠ _ := fun heq => hq (heq ▸ List.contains_iff_mem.mp hmem)
      rw [step_other hstep hne]
      exact hps q hq

/-! ## The lock -/

/-- **Exclusion.** In a run in which no directory is made while a live process is bound to remove what it finds, and
    none whose maker lives is found older than a minute by a process that has found the path empty just before, at most
    one live process holds the lock, and no live process is about to remove what a live process has made. -/
theorem task_lock_exclusion {as : List Action} (h : Reached Undisturbed as s) : Exclusive s :=
  (guarded_reached h).exclusive

end

/-- The second process reads the number of the first, which unlocks and ends; it finds nothing at the path and takes the
    lock. The third meets a live holder. -/
def inherited : List Action :=
  [⟨1, .lock⟩, ⟨1, .mkdir⟩, ⟨1, .writePid⟩, ⟨2, .lock⟩, ⟨2, .mkdir⟩, ⟨2, .isDirectory⟩, ⟨2, .readPid⟩, ⟨1, .unlock⟩,
    ⟨1, .unlockPid⟩, ⟨1, .unlockDirectory⟩, ⟨1, .die⟩, ⟨2, .kill false⟩, ⟨2, .statF⟩, ⟨2, .statC false⟩, ⟨2, .reclaimPid⟩,
    ⟨2, .reclaimDirectory⟩, ⟨2, .mkdir⟩, ⟨3, .lock⟩, ⟨3, .mkdir⟩, ⟨3, .isDirectory⟩, ⟨2, .writePid⟩, ⟨3, .readPid⟩,
    ⟨3, .kill false⟩, ⟨3, .mkdir⟩]

/-- The law at a run in which a process goes on to reclaim, finds the lock given back and takes it. -/
theorem task_lock_exclusion_inherited :
    ∃ s, Reached Undisturbed inherited s ∧ s.point 2 = .inside ∧ s.dir = some ⟨2, some 2⟩ ∧ Exclusive s := by
  have hrun : ((inherited.foldlM (Trace.guarded step (undisturbed [1, 2, 3])) State.start).any fun s =>
      s.point 2 == .inside && s.dir == some ⟨2, some 2⟩) = true := by decide +kernel
  obtain ⟨s, hs, hheld⟩ := (Option.any_eq_true _ _).mp hrun
  have hreached := (reached_of_undisturbed (Trace.Run.of_foldlM rfl (fun _ _ h => h) hs)).1
  rw [Bool.and_eq_true, beq_iff_eq, beq_iff_eq] at hheld
  exact ⟨s, hreached, hheld.1, hheld.2, task_lock_exclusion hreached⟩

/-- The second process reads the number of the first, which unlocks and ends, and finds nothing at the path. Then the
    third makes the directory, which the second takes away. -/
def overtaken : List Action :=
  [⟨1, .lock⟩, ⟨1, .mkdir⟩, ⟨1, .writePid⟩, ⟨2, .lock⟩, ⟨2, .mkdir⟩, ⟨2, .isDirectory⟩, ⟨2, .readPid⟩, ⟨1, .unlock⟩,
    ⟨1, .unlockPid⟩, ⟨1, .unlockDirectory⟩, ⟨1, .die⟩, ⟨2, .kill false⟩, ⟨2, .statF⟩, ⟨2, .statC false⟩, ⟨3, .lock⟩,
    ⟨3, .mkdir⟩, ⟨3, .writePid⟩, ⟨2, .reclaimPid⟩, ⟨2, .reclaimDirectory⟩, ⟨2, .mkdir⟩, ⟨2, .writePid⟩]

/-- The second process comes to the directory while the first removes it, reads no number and finds nothing at the path.
    The third makes the directory between the two calls of `stat`. -/
def taken : List Action :=
  [⟨1, .lock⟩, ⟨1, .mkdir⟩, ⟨1, .writePid⟩, ⟨1, .unlock⟩, ⟨1, .unlockPid⟩, ⟨2, .lock⟩, ⟨2, .mkdir⟩, ⟨2, .isDirectory⟩,
    ⟨1, .unlockDirectory⟩, ⟨2, .readPid⟩, ⟨2, .kill false⟩, ⟨2, .statF⟩, ⟨3, .lock⟩, ⟨3, .mkdir⟩, ⟨3, .writePid⟩,
    ⟨2, .statC false⟩, ⟨2, .reclaimPid⟩, ⟨2, .reclaimDirectory⟩, ⟨2, .mkdir⟩, ⟨2, .writePid⟩]

/-- As in `overtaken`, but the third makes the directory between the two calls of `stat` and holds it for a minute. -/
def outwaited : List Action :=
  [⟨1, .lock⟩, ⟨1, .mkdir⟩, ⟨1, .writePid⟩, ⟨2, .lock⟩, ⟨2, .mkdir⟩, ⟨2, .isDirectory⟩, ⟨2, .readPid⟩, ⟨1, .unlock⟩,
    ⟨1, .unlockPid⟩, ⟨1, .unlockDirectory⟩, ⟨1, .die⟩, ⟨2, .kill false⟩, ⟨2, .statF⟩, ⟨3, .lock⟩, ⟨3, .mkdir⟩,
    ⟨3, .writePid⟩, ⟨2, .statC true⟩, ⟨2, .reclaimPid⟩, ⟨2, .reclaimDirectory⟩, ⟨2, .mkdir⟩, ⟨2, .writePid⟩]

/-- At the end of the run both processes live and hold the lock. -/
def holdBoth (p q : Pid) (as : List Action) : Bool :=
  (as.foldlM (Trace.guarded step fun _ _ => true) State.start).any fun s =>
    !s.dead p && !s.dead q && s.point p == .inside && s.point q == .inside

/-- A run that ends with two holders is a counterexample. -/
theorem not_exclusive_of_holdBoth {as : List Action} (hpq : p ≠ q) (h : holdBoth p q as = true) :
    ∃ s, Reached (fun _ _ => True) as s ∧ ¬ Exclusive s := by
  obtain ⟨s, hs, hheld⟩ := (Option.any_eq_true _ _).mp h
  refine ⟨s, Trace.Run.of_foldlM rfl (fun _ _ _ => trivial) hs, fun hexclusive => ?_⟩
  simp only [Bool.and_eq_true, Bool.not_eq_true', beq_iff_eq] at hheld
  obtain ⟨⟨⟨hp, hq⟩, hpin⟩, hqin⟩ := hheld
  exact hpq (hexclusive.single p q hp hq hpin hqin)

/-- **Shared.** A directory that is made after the judgement, between the two calls of `stat` where no number was read,
    or there where one was and a minute passes: in each the live process that made it loses it to another. -/
theorem task_lock_shared :
    (∃ s, Reached (fun _ _ => True) overtaken s ∧ ¬ Exclusive s) ∧
      (∃ s, Reached (fun _ _ => True) taken s ∧ ¬ Exclusive s) ∧
      ∃ s, Reached (fun _ _ => True) outwaited s ∧ ¬ Exclusive s := by
  refine ⟨not_exclusive_of_holdBoth (p := 2) (q := 3) (by decide) (by decide +kernel), ?_, ?_⟩
  · exact not_exclusive_of_holdBoth (p := 2) (q := 3) (by decide) (by decide +kernel)
  · exact not_exclusive_of_holdBoth (p := 2) (q := 3) (by decide) (by decide +kernel)

/-! ## What a killed process leaves

A process that is killed inside leaves its directory. Where nobody else has come past `stat -f` by then, nobody ever
does: a process that finds the directory waits for a number that is alive, or ends over the text of `stat -f`. -/

/-- The process has not yet found the path empty. -/
def Point.before : Point → Bool
  | .outside | .mkdir | .isDirectory | .readPid | .kill _ | .statF _ => true
  | _ => false

/-- A directory, and no live process that has made it or seen the path without it. -/
structure Abandoned (s : State) : Prop where
  there : s.dir.isSome = true
  before : ∀ p, s.alive p → (s.point p).before = true

theorem Abandoned.goto {point : Point} (h : Abandoned s) (hpoint : point.before = true) : Abandoned (s.goto p point) := by
  refine ⟨h.there, fun q hq => ?_⟩
  by_cases hqp : q = p
  · rw [hqp, goto_self]
    exact hpoint
  · rw [goto_ne hqp]
    exact h.before q hq

theorem Abandoned.exit (h : Abandoned s) : Abandoned (s.exit p) :=
  ⟨h.there, fun q hq => h.before q (alive_of_exit hq)⟩

/-- **Step.** No step takes an abandoned lock. -/
theorem abandoned_step (h : Abandoned s) (hstep : step s a = some s') : Abandoned s' := by
  obtain ⟨p, kind⟩ := a
  unfold step at hstep
  dsimp only at hstep
  split at hstep
  · exact absurd hstep (by simp)
  · rename_i hdead
    have hbefore := h.before p (eq_false_of_ne_true hdead)
    unfold State.next at hstep
    split at hstep <;> rename_i hpoint
    case h_1 | h_3 | h_5 =>
      -- lock, timeOut, readPid
      obtain rfl := Option.some.inj hstep
      exact h.goto rfl
    case h_2 =>
      -- mkdir fails
      split at hstep
      · rename_i hnone
        have hthere := h.there
        rw [hnone] at hthere
        exact absurd hthere (by simp)
      · obtain rfl := Option.some.inj hstep
        exact h.goto rfl
    case h_4 =>
      obtain rfl := Option.some.inj hstep
      rw [if_pos h.there]
      exact h.goto rfl
    case h_6 =>
      -- kill
      obtain rfl := Option.some.inj hstep
      split
      · exact h.goto rfl
      · exact h.goto rfl
    case h_7 =>
      -- statF ends the command
      obtain rfl := Option.some.inj hstep
      rw [if_pos h.there]
      exact h.exit
    case h_15 =>
      obtain rfl := Option.some.inj hstep
      exact h.exit
    case h_16 => exact absurd hstep (by simp)
    all_goals
      -- nobody stands at the later points
      rw [hpoint] at hbefore
      exact absurd hbefore (by simp [Point.before])

/-- **Abandoned.** From a state in which the directory stands and nobody has seen the path without it, no run brings a
    live process between `lock` and `unlock` again. -/
theorem abandoned_lock {s₀ : State} {as : List Action} (h₀ : Abandoned s₀)
    (h : Trace.Run step (· = s₀) (fun _ _ => True) as s) :
    s.dir.isSome = true ∧ ∀ p, s.alive p → s.point p ≠ .inside := by
  have hs : Abandoned s := by
    refine Trace.Run.invariant (I := fun _ s => Abandoned s) ?_ (fun _ s a s' _ hs _ hstep => abandoned_step hs hstep) h
    rintro s rfl
    exact h₀
  refine ⟨hs.there, fun p hp hpoint => ?_⟩
  have hbefore := hs.before p hp
  rw [hpoint] at hbefore
  exact absurd hbefore (by simp [Point.before])

end OraclePatching.TaskLock
