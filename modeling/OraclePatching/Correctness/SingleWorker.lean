import OraclePatching.Pipeline.Runner
import OraclePatching.Lib.Trace

/-!
# `Correctness.SingleWorker` — one worker per run key

`start_run` admits a key when no run of that key is unresolved on disk, and a run is unresolved on disk as long as its
worker is at work. The second half is what `reconcile_run` can break. For interrupted work it asks whether the owner
is alive; for a detached execution it takes the word of `inspect`, which looks at the managed host and not at the
controller. A worker that is still polling when the execution ends on the host finds its run released under its feet:
a second worker starts on the key, and the first one writes over the record (`two_workers`).

When the outcome of a detached execution is only accepted once the worker is gone, the invariant holds in every run
(`single_worker`).
-/

namespace OraclePatching.Pipeline

/-! ## Workers at work

The claim is about workers that can still change the database, so a worker counts from its registration to its last
write, wherever its record stands. -/

/-- A worker of the run is at work in the controller: it has its last write before it. -/
def AtWork (s : State) (pid : Nat) (runId : String) : Prop :=
  ∃ c stage, s.controllers pid = some c ∧ c.workers runId = some stage ∧ stage ≠ .persisted

/-- Before the run has its outcome. -/
def WorkerStage.early : WorkerStage → Bool
  | .starting | .announcing | .working => true
  | .settled | .persisted => false

def Early (s : State) (pid : Nat) (runId : String) : Prop :=
  ∃ c stage, s.controllers pid = some c ∧ c.workers runId = some stage ∧ stage.early = true

/-- `inspect` reports a terminal outcome only when no worker of the run is at work. -/
def workerGone (s : State) : Action → Prop
  | .inspected outcome => outcome.status.unresolved = false →
      ∀ pid runId actor note, s.call = some (.reconcile pid runId actor note .inspect) → ∀ other, ¬AtWork s other runId
  | _ => True

/-- What a state of the controllers shows of single ownership. -/
structure SingleWorker (s : State) : Prop where
  /-- Workers of one key are one worker. -/
  single : ∀ pid pid' c c' r r', s.controllers pid = some c → s.controllers pid' = some c' →
    c.runs r.runId = some r → c'.runs r'.runId = some r' → AtWork s pid r.runId → AtWork s pid' r'.runId →
    r.key = r'.key → pid = pid' ∧ r = r'
  /-- A run that was marked terminal has no worker that could go on with it or write over it. -/
  released : ∀ runId ∈ s.released, ∀ pid, ¬AtWork s pid runId

/-! ## The invariant

Each controller has its own copy of the records it knows. The invariant ties the copies, the records on disk and
the call in progress to the one worker of a run. -/

/-- The record is about the run whose file this is. -/
def OnDisk (s : State) (r : RunRecord) : Prop :=
  ∃ d, s.disk r.runId = some d ∧ d.key = r.key ∧ d.owner = r.owner

/-- What the call under the lock has found out. -/
def CallOk (s : State) : Call → Prop
  | .start pid r stage =>
      r.owner.pid = pid ∧ r.status = .queued ∧
        match stage with
        | .check => s.disk r.runId = none
        | .scan remaining => s.disk r.runId = none ∧
            ∀ other runId d, AtWork s other runId → s.disk runId = some d → d.key = r.key → runId ∈ remaining
        | .register => s.disk r.runId = some r ∧ r.runId ∉ s.released ∧
            ∀ other runId d, AtWork s other runId → s.disk runId = some d → d.key ≠ r.key
  | .reconcile pid runId _ _ stage => ¬Early s pid runId ∧
      ∀ outcome, stage = .apply outcome → outcome.status.unresolved = false → ∀ other, ¬AtWork s other runId

/-- The records of a controller are of runs on disk, and those of its early workers are not up for reconciliation. -/
structure ControllerOk (s : State) (c : Controller) : Prop where
  runs : ∀ runId r, c.runs runId = some r → r.runId = runId ∧ OnDisk s r
  shared : ∀ runId stage, c.workers runId = some stage → c.runs runId ≠ none
  steady : ∀ runId stage r, c.workers runId = some stage → stage.early = true → c.runs runId = some r →
    r.status = .queued ∨ r.status = .running

structure Ownership (s : State) : Prop where
  file : ∀ runId d, s.disk runId = some d → d.runId = runId
  listed : ∀ runId, s.disk runId ≠ none → runId ∈ s.directories
  controllers : ∀ pid c, s.controllers pid = some c → ControllerOk s c
  worker : ∀ pid runId, AtWork s pid runId → ∃ d, s.disk runId = some d ∧ d.owner.pid = pid ∧ d.status.unresolved = true
  single : ∀ pid pid' runId runId' d d', AtWork s pid runId → AtWork s pid' runId' → s.disk runId = some d →
    s.disk runId' = some d' → d.key = d'.key → runId = runId'
  released : ∀ runId ∈ s.released, s.disk runId ≠ none ∧ ∀ pid, ¬AtWork s pid runId
  call : ∀ call, s.call = some call → CallOk s call

section
variable {s t : State} {pid : Nat} {c : Controller} {r : RunRecord}

/-- What is claimed is part of the invariant. -/
theorem Ownership.singleWorker (h : Ownership s) : SingleWorker s where
  single pid pid' c c' r r' hc hc' hr hr' hw hw' hkey := by
    obtain ⟨_, d, hd, hdk, _⟩ := (h.controllers pid c hc).runs _ r hr
    obtain ⟨_, d', hd', hdk', _⟩ := (h.controllers pid' c' hc').runs _ r' hr'
    have hrun := h.single _ _ _ _ d d' hw hw' hd hd' (by rw [hdk, hdk', hkey])
    obtain ⟨e, he, hpid, _⟩ := h.worker _ _ hw
    obtain ⟨e', he', hpid', _⟩ := h.worker _ _ hw'
    rw [hrun] at he
    obtain rfl := Option.some.inj (he.symm.trans he')
    obtain rfl := hpid.symm.trans hpid'
    obtain rfl := Option.some.inj (hc.symm.trans hc')
    exact ⟨rfl, Option.some.inj (hr.symm.trans (hrun ▸ hr'))⟩
  released runId hm := (h.released runId hm).2

/-- At most one controller is at work on a run. -/
theorem Ownership.pid_eq (h : Ownership s) {other : Nat} {runId : String} (hw : AtWork s pid runId)
    (hw' : AtWork s other runId) : other = pid := by
  obtain ⟨d, hd, hpid, _⟩ := h.worker _ _ hw
  obtain ⟨d', hd', hpid', _⟩ := h.worker _ _ hw'
  obtain rfl := Option.some.inj (hd.symm.trans hd')
  exact hpid'.symm.trans hpid

/-! ### What keeps it -/

/-- A controller that takes up no work. -/
structure Follows (s : State) (pid : Nat) (c : Controller) : Prop extends ControllerOk s c where
  work : ∀ runId stage, c.workers runId = some stage → stage ≠ .persisted → AtWork s pid runId
  early : ∀ runId stage, c.workers runId = some stage → stage.early = true → Early s pid runId

/-- A controller that exists follows the disk. -/
theorem Ownership.follows (h : Ownership s) (hc : s.controllers pid = some c) : Follows s pid c where
  toControllerOk := h.controllers pid c hc
  work _ stage hstage hne := ⟨c, stage, hc, hstage, hne⟩
  early _ stage hstage he := ⟨c, stage, hc, hstage, he⟩

/-- Giving up a key changes nothing of it. -/
theorem Follows.popKey (h : Follows s pid c) (key runId : String) : Follows s pid (c.popKey key runId) := by
  unfold Controller.popKey
  split
  · exact ⟨⟨h.runs, h.shared, h.steady⟩, h.work, h.early⟩
  · exact h

/-- The record of a run is changed, and its worker goes on. -/
theorem Follows.set (h : Follows s pid c) (hr : OnDisk s r) {stage : Option WorkerStage}
    (hwork : ∀ st, stage = some st → st ≠ .persisted → AtWork s pid r.runId)
    (hearly : ∀ st, stage = some st → st.early = true → Early s pid r.runId ∧ (r.status = .queued ∨ r.status = .running)) :
    Follows s pid ((c.setRun r).setWorker r.runId stage) := by
  refine ⟨⟨?_, ?_, ?_⟩, ?_, ?_⟩
  · intro runId m hm
    by_cases hrun : runId = r.runId
    · subst hrun
      obtain rfl := Option.some.inj ((setName_self _ _).symm.trans hm)
      exact ⟨rfl, hr⟩
    · exact h.runs runId m ((setName_ne _ _ hrun).symm.trans hm)
  · intro runId st hst
    by_cases hrun : runId = r.runId
    · subst hrun
      exact fun hnone => absurd ((setName_self _ _).symm.trans hnone) (by simp)
    · exact fun hnone => h.shared runId st ((setName_ne _ _ hrun).symm.trans hst) ((setName_ne _ _ hrun).symm.trans hnone)
  · intro runId st m hst he hm
    by_cases hrun : runId = r.runId
    · subst hrun
      obtain rfl := Option.some.inj ((setName_self _ _).symm.trans hm)
      exact (hearly st ((setName_self _ _).symm.trans hst) he).2
    · exact h.steady runId st m ((setName_ne _ _ hrun).symm.trans hst) he ((setName_ne _ _ hrun).symm.trans hm)
  · intro runId st hst hne
    by_cases hrun : runId = r.runId
    · subst hrun
      exact hwork st ((setName_self _ _).symm.trans hst) hne
    · exact h.work runId st ((setName_ne _ _ hrun).symm.trans hst) hne
  · intro runId st hst he
    by_cases hrun : runId = r.runId
    · subst hrun
      exact (hearly st ((setName_self _ _).symm.trans hst) he).1
    · exact h.early runId st ((setName_ne _ _ hrun).symm.trans hst) he

/-- The record of a run is changed, and its worker stays where it is. -/
theorem Follows.setRun (h : Follows s pid c) (hr : OnDisk s r)
    (hsteady : ∀ st, c.workers r.runId = some st → st.early = true → r.status = .queued ∨ r.status = .running) :
    Follows s pid (c.setRun r) := by
  have hset := h.set hr (fun st hst hne => h.work _ st hst hne) fun st hst he => ⟨h.early _ st hst he, hsteady st hst he⟩
  rwa [Controller.setWorker, show (c.setRun r).workers = c.workers from rfl, setName_get] at hset

/-- A controller depends on the disk and on nothing else of the state. -/
theorem ControllerOk.frame (h : ControllerOk s c) (hdisk : t.disk = s.disk) : ControllerOk t c :=
  ⟨fun runId r hr => by rw [OnDisk, hdisk]; exact h.runs runId r hr, h.shared, h.steady⟩

/-- A call that has found something out keeps it when workers only go away. -/
theorem CallOk.frame {call : Call} (h : CallOk s call) (hdisk : t.disk = s.disk) (hreleased : t.released = s.released)
    (hwork : ∀ other runId, AtWork t other runId → AtWork s other runId)
    (hearly : ∀ other runId, Early t other runId → Early s other runId) : CallOk t call := by
  cases call with
  | start p r stage =>
      refine ⟨h.1, h.2.1, ?_⟩
      cases stage with
      | check => exact hdisk ▸ h.2.2
      | scan remaining =>
          exact ⟨hdisk ▸ h.2.2.1, fun p x d hw hd => h.2.2.2 p x d (hwork p x hw) (hdisk ▸ hd)⟩
      | register =>
          exact ⟨hdisk ▸ h.2.2.1, hreleased ▸ h.2.2.2.1, fun p x d hw hd => h.2.2.2.2 p x d (hwork p x hw) (hdisk ▸ hd)⟩
  | reconcile p runId actor note stage =>
      exact ⟨fun he => h.1 (hearly p runId he), fun outcome hst hterminal p' hw =>
        h.2 outcome hst hterminal p' (hwork p' runId hw)⟩

section
variable {moved : Option Controller} (hmoved : ∀ c, moved = some c → Follows s pid c)
include hmoved

theorem AtWork.of_moved (other : Nat) (runId : String)
    (hw : AtWork { s with controllers := s.controllers.update pid moved } other runId) : AtWork s other runId := by
  obtain ⟨c, stage, hc, hstage, hne⟩ := hw
  by_cases hpid : other = pid
  · subst hpid
    exact (hmoved c ((Processes.update_self).symm.trans hc)).work runId stage hstage hne
  · exact ⟨c, stage, (Processes.update_ne hpid).symm.trans hc, hstage, hne⟩

theorem Early.of_moved (other : Nat) (runId : String)
    (hw : Early { s with controllers := s.controllers.update pid moved } other runId) : Early s other runId := by
  obtain ⟨c, stage, hc, hstage, he⟩ := hw
  by_cases hpid : other = pid
  · subst hpid
    exact (hmoved c ((Processes.update_self).symm.trans hc)).early runId stage hstage he
  · exact ⟨c, stage, (Processes.update_ne hpid).symm.trans hc, hstage, he⟩

end

/-- A controller may change, start or die, as long as it takes up no work. -/
theorem Ownership.moved (h : Ownership s) {moved : Option Controller} (hmoved : ∀ c, moved = some c → Follows s pid c) :
    Ownership { s with controllers := s.controllers.update pid moved } := by
  have hwork := @AtWork.of_moved s pid moved hmoved
  have hearly := @Early.of_moved s pid moved hmoved
  refine ⟨h.file, h.listed, ?_, fun p x hw => h.worker p x (hwork p x hw),
    fun p p' x x' d d' hw hw' => h.single p p' x x' d d' (hwork p x hw) (hwork p' x' hw'),
    fun x hx => ⟨(h.released x hx).1, fun p hw => (h.released x hx).2 p (hwork p x hw)⟩,
    fun call hcall => (h.call call hcall).frame rfl rfl hwork hearly⟩
  exact Processes.all_update (fun c hc => (hmoved c hc).toControllerOk.frame rfl)
    fun other c _ hc => (h.controllers other c hc).frame rfl

/-- A record is written to the file of its own run. -/
theorem Ownership.file_setName (h : Ownership s) :
    ∀ runId d, setName s.disk r.runId (some r) runId = some d → d.runId = runId := by
  intro runId d hd
  by_cases hrun : runId = r.runId
  · subst hrun
    rw [Option.some.inj ((setName_self _ _).symm.trans hd)]
  · exact h.file runId d ((setName_ne _ _ hrun).symm.trans hd)

/-- A record may be written that says the run is unresolved, or of a run without a worker. -/
theorem Ownership.persist (h : Ownership s) (hr : OnDisk s r)
    (hstatus : r.status.unresolved = true ∨ ∀ other, ¬AtWork s other r.runId)
    (hcall : ∀ p new, s.call = some (.start p new .register) → new.runId ≠ r.runId) (write : Write) :
    Ownership (s.persist r write) := by
  unfold State.persist
  split
  case isFalse => exact h
  case isTrue =>
    obtain ⟨d, hd, hkey, howner⟩ := hr
    -- the file of the run is about the same run before and after
    have hback : ∀ runId e, setName s.disk r.runId (some r) runId = some e →
        ∃ e', s.disk runId = some e' ∧ e'.key = e.key ∧ e'.owner = e.owner := by
      intro runId e he
      by_cases hrun : runId = r.runId
      · subst hrun
        obtain rfl := Option.some.inj ((setName_self _ _).symm.trans he)
        exact ⟨d, hd, hkey, howner⟩
      · exact ⟨e, (setName_ne _ _ hrun).symm.trans he, rfl, rfl⟩
    have hkept : ∀ runId, s.disk runId ≠ none → setName s.disk r.runId (some r) runId ≠ none := by
      intro runId hne
      by_cases hrun : runId = r.runId
      · subst hrun
        simp
      · rwa [setName_ne _ _ hrun]
    refine ⟨?_, ?_, ?_, ?_, ?_, fun x hx => ⟨hkept x (h.released x hx).1, (h.released x hx).2⟩, ?_⟩
    · exact h.file_setName
    · intro runId hne
      obtain ⟨e, he⟩ := Option.ne_none_iff_exists'.mp hne
      obtain ⟨e', he', _⟩ := hback runId e he
      have hold := h.listed runId (by rw [he']; simp)
      change runId ∈ if r.runId ∈ s.directories then s.directories else r.runId :: s.directories
      split
      · exact hold
      · exact List.mem_cons_of_mem _ hold
    · intro p c hc
      have hold := h.controllers p c hc
      refine ⟨fun runId m hm => ?_, hold.shared, hold.steady⟩
      obtain ⟨hrun, e, he, hek, heo⟩ := hold.runs runId m hm
      refine ⟨hrun, ?_⟩
      obtain ⟨e', he'⟩ := Option.ne_none_iff_exists'.mp (hkept m.runId (by rw [he]; simp))
      obtain ⟨e'', he'', hk, ho⟩ := hback _ e' he'
      obtain rfl := Option.some.inj (he.symm.trans he'')
      exact ⟨e', he', hk.symm.trans hek, ho.symm.trans heo⟩
    · intro p runId hw
      by_cases hrun : runId = r.runId
      · subst hrun
        obtain ⟨e, he, hep, _⟩ := h.worker p _ hw
        obtain rfl := Option.some.inj (hd.symm.trans he)
        exact ⟨r, setName_self _ _, by rw [← howner, hep], hstatus.resolve_right fun hno => hno p hw⟩
      · obtain ⟨e, he, hep⟩ := h.worker p runId hw
        exact ⟨e, (setName_ne _ _ hrun).trans he, hep⟩
    · intro p p' x x' e e' hw hw' he he' hek
      obtain ⟨f, hf, hfk, _⟩ := hback x e he
      obtain ⟨f', hf', hfk', _⟩ := hback x' e' he'
      exact h.single p p' x x' f f' hw hw' hf hf' (by rw [hfk, hfk', hek])
    · intro call hc
      have hok := h.call call hc
      have hfresh : ∀ new : RunRecord, s.disk new.runId = none → new.runId ≠ r.runId := by
        rintro new hnone heq
        rw [heq, hd] at hnone
        exact absurd hnone (by simp)
      cases call with
      | start p new stage =>
          refine ⟨hok.1, hok.2.1, ?_⟩
          cases stage with
          | check => exact (setName_ne _ _ (hfresh new hok.2.2)).trans hok.2.2
          | scan remaining =>
              refine ⟨(setName_ne _ _ (hfresh new hok.2.2.1)).trans hok.2.2.1, fun p' x e hw he hek => ?_⟩
              obtain ⟨f, hf, hfk, _⟩ := hback x e he
              exact hok.2.2.2 p' x f hw hf (hfk.trans hek)
          | register =>
              refine ⟨(setName_ne _ _ (hcall p new hc)).trans hok.2.2.1, hok.2.2.2.1, fun p' x e hw he hek => ?_⟩
              obtain ⟨f, hf, hfk, _⟩ := hback x e he
              exact hok.2.2.2.2 p' x f hw hf (hfk.trans hek)
      | reconcile p runId actor note stage => exact hok

/-- Another call, or none, has the lock. -/
theorem Ownership.calls (h : Ownership s) {call : Option Call} {instances : Nat}
    (hcall : ∀ new, call = some new → CallOk s new) : Ownership { s with call := call, instances := instances } := by
  refine ⟨h.file, h.listed, fun p c hc => (h.controllers p c hc).frame rfl, h.worker, h.single, h.released,
    fun new hnew => ?_⟩
  exact (hcall new hnew).frame rfl rfl (fun _ _ hw => hw) fun _ _ he => he

theorem Ownership.unlock (h : Ownership s) : Ownership s.unlock := h.calls fun _ hnone => nomatch hnone

/-- A run without a worker may be marked. -/
theorem Ownership.release (h : Ownership s) {runId : String} (hdisk : s.disk runId ≠ none)
    (hgone : ∀ other, ¬AtWork s other runId) (hcall : ∀ p new, s.call = some (.start p new .register) → new.runId ≠ runId) :
    Ownership { s with released := runId :: s.released } := by
  refine ⟨h.file, h.listed, fun p c hc => (h.controllers p c hc).frame rfl, h.worker, h.single, ?_, fun call hc => ?_⟩
  · intro x hx
    rcases List.mem_cons.mp hx with rfl | hx
    · exact ⟨hdisk, hgone⟩
    · exact h.released x hx
  · have hok := h.call call hc
    cases call with
    | start p new stage =>
        refine ⟨hok.1, hok.2.1, ?_⟩
        cases stage with
        | register =>
            refine ⟨hok.2.2.1, fun hm => ?_, hok.2.2.2.2⟩
            rcases List.mem_cons.mp hm with heq | hm
            · exact hcall p new hc heq
            · exact hok.2.2.2.1 hm
        | _ => exact hok.2.2
    | reconcile p runId actor note stage => exact hok

/-- A new run has its file before it has a worker. -/
theorem Ownership.created (h : Ownership s) (hcall : s.call = none) (hnone : s.disk r.runId = none) (write : Write) :
    Ownership (s.persist r write) := by
  unfold State.persist
  split
  case isFalse => exact h
  case isTrue =>
    -- no run is lost: the name that is taken was free
    have hkept : ∀ runId d, s.disk runId = some d → setName s.disk r.runId (some r) runId = some d := by
      intro runId d hd
      have hne : runId ≠ r.runId := by
        rintro rfl
        exact absurd (hnone.symm.trans hd) (by simp)
      exact (setName_ne _ _ hne).trans hd
    -- and no worker at work sees another file than before
    have hback : ∀ p runId d, AtWork s p runId → setName s.disk r.runId (some r) runId = some d → s.disk runId = some d := by
      intro p runId d hw hd
      obtain ⟨e, he, _⟩ := h.worker p runId hw
      rw [hkept runId e he] at hd
      rw [he, hd]
    refine ⟨?_, ?_, ?_, ?_, ?_, ?_, ?_⟩
    · exact h.file_setName
    · intro runId hne
      change runId ∈ if r.runId ∈ s.directories then s.directories else r.runId :: s.directories
      by_cases hrun : runId = r.runId
      · subst hrun
        split
        · assumption
        · exact List.mem_cons_self
      · have hold := h.listed runId fun hno => hne ((setName_ne _ _ hrun).trans hno)
        split
        · exact hold
        · exact List.mem_cons_of_mem _ hold
    · intro p c hc
      have hold := h.controllers p c hc
      refine ⟨fun runId m hm => ?_, hold.shared, hold.steady⟩
      obtain ⟨hrun, e, he, hek⟩ := hold.runs runId m hm
      exact ⟨hrun, e, hkept _ e he, hek⟩
    · intro p runId hw
      obtain ⟨e, he, hep⟩ := h.worker p runId hw
      exact ⟨e, hkept _ e he, hep⟩
    · exact fun p p' x x' e e' hw hw' he he' =>
        h.single p p' x x' e e' hw hw' (hback p x e hw he) (hback p' x' e' hw' he')
    · intro x hx
      obtain ⟨e, he⟩ := Option.ne_none_iff_exists'.mp (h.released x hx).1
      exact ⟨fun hno => absurd ((hkept x e he).symm.trans hno) (by simp), (h.released x hx).2⟩
    · exact fun call hc => absurd (hcall.symm.trans hc) (by simp)

/-- A run that was looked for and not found gets its worker. -/
theorem Ownership.registered (h : Ownership s) (hc : s.controllers pid = some c)
    (hcall : s.call = some (.start pid r .register)) :
    Ownership (s.setController pid { c with
      activeKeys := setName c.activeKeys r.key (some r.runId)
      runs := setName c.runs r.runId (some r)
      workers := setName c.workers r.runId (some .starting) }).unlock := by
  obtain ⟨hpid, hqueued, hdisk, hreleased, hkey⟩ := h.call _ hcall
  have hold := h.controllers pid c hc
  -- the new worker, and those that were at work before
  have hwork : ∀ p x, AtWork (s.setController pid { c with
      activeKeys := setName c.activeKeys r.key (some r.runId)
      runs := setName c.runs r.runId (some r)
      workers := setName c.workers r.runId (some .starting) }).unlock p x →
      (p = pid ∧ x = r.runId) ∨ AtWork s p x := by
    rintro p x ⟨c', stage, hc', hstage, hne⟩
    by_cases hp : p = pid
    · subst hp
      obtain rfl := Option.some.inj ((Processes.update_self).symm.trans hc')
      by_cases hx : x = r.runId
      · exact .inl ⟨rfl, hx⟩
      · exact .inr ⟨c, stage, hc, (setName_ne _ _ hx).symm.trans hstage, hne⟩
    · exact .inr ⟨c', stage, (Processes.update_ne hp).symm.trans hc', hstage, hne⟩
  refine ⟨h.file, h.listed, ?_, ?_, ?_, ?_, fun _ hnone => nomatch hnone⟩
  · refine Processes.all_update ?_ fun other c' _ hc' => (h.controllers other c' hc').frame rfl
    rintro _ ⟨⟩
    refine ⟨fun x m hm => ?_, fun x stage hstage hno => ?_, fun x stage m hstage he hm => ?_⟩ <;>
      by_cases hx : x = r.runId
    · subst hx
      obtain rfl := Option.some.inj ((setName_self _ _).symm.trans hm)
      exact ⟨rfl, r, hdisk, rfl, rfl⟩
    · exact hold.runs x m ((setName_ne _ _ hx).symm.trans hm)
    · subst hx
      exact absurd ((setName_self _ _).symm.trans hno) (by simp)
    · exact hold.shared x stage ((setName_ne _ _ hx).symm.trans hstage) ((setName_ne _ _ hx).symm.trans hno)
    · subst hx
      obtain rfl := Option.some.inj ((setName_self _ _).symm.trans hm)
      exact .inl hqueued
    · exact hold.steady x stage m ((setName_ne _ _ hx).symm.trans hstage) he ((setName_ne _ _ hx).symm.trans hm)
  · intro p x hw
    rcases hwork p x hw with ⟨rfl, rfl⟩ | hw
    · exact ⟨r, hdisk, hpid, by rw [hqueued]; rfl⟩
    · exact h.worker p x hw
  · intro p p' x x' d d' hw hw' hd hd' hdk
    rcases hwork p x hw with ⟨rfl, rfl⟩ | hx <;> rcases hwork p' x' hw' with ⟨rfl, rfl⟩ | hx'
    · rfl
    · obtain rfl := Option.some.inj (hdisk.symm.trans hd)
      exact absurd hdk.symm (hkey p' x' d' hx' hd')
    · obtain rfl := Option.some.inj (hdisk.symm.trans hd')
      exact absurd hdk (hkey p x d hx hd)
    · exact h.single p p' x x' d d' hx hx' hd hd' hdk
  · intro x hx
    refine ⟨(h.released x hx).1, fun p hw => ?_⟩
    rcases hwork p x hw with ⟨rfl, rfl⟩ | hw
    · exact hreleased hx
    · exact (h.released x hx).2 p hw

/-! ### What a worker does -/

/-- A worker at work is not of a run that is being registered. -/
theorem Ownership.not_registering (h : Ownership s) (hw : AtWork s pid r.runId) :
    ∀ p new, s.call = some (.start p new .register) → new.runId ≠ r.runId := by
  intro p new hcall heq
  obtain ⟨_, _, hdisk, _, hkey⟩ := h.call _ hcall
  exact hkey pid r.runId new hw (heq ▸ hdisk) rfl

/-- A write to disk and a change of a controller can be taken in either order. -/
theorem persist_setController (s : State) (pid : Nat) (c : Controller) (r : RunRecord) (write : Write) :
    (s.persist r write).setController pid c = (s.setController pid c).persist r write := by
  cases write <;> rfl

/-- The last write of a worker: the worker is done with the run before the file shows its outcome. -/
theorem Ownership.lastWrite (h : Ownership s) {c' : Controller} (hfollows : Follows s pid c') (hr : OnDisk s r)
    (hw : AtWork s pid r.runId) (hdone : ∀ stage, c'.workers r.runId = some stage → stage = .persisted) (write : Write) :
    Ownership ((s.persist r write).setController pid c') := by
  rw [persist_setController]
  have hmoved : Ownership (s.setController pid c') := h.moved fun _ hc => Option.some.inj hc ▸ hfollows
  refine hmoved.persist hr (.inr ?_) (h.not_registering hw) write
  rintro other ⟨d, stage, hd, hstage, hne⟩
  by_cases hp : other = pid
  · subst hp
    obtain rfl := Option.some.inj ((Processes.update_self).symm.trans hd)
    exact hne (hdone stage hstage)
  · exact hp (h.pid_eq hw ⟨d, stage, (Processes.update_ne hp).symm.trans hd, hstage, hne⟩)

/-- A write on the way: the record says that the run is unresolved. -/
theorem Ownership.write (h : Ownership s) {c' : Controller} (hfollows : Follows s pid c') (hr : OnDisk s r)
    (hw : AtWork s pid r.runId) (hstatus : r.status.unresolved = true) (write : Write) :
    Ownership ((s.persist r write).setController pid c') := by
  rw [persist_setController]
  have hmoved : Ownership (s.setController pid c') := h.moved fun _ hc => Option.some.inj hc ▸ hfollows
  exact hmoved.persist hr (.inl hstatus) (h.not_registering hw) write

/-- A worker goes on to another stage, or away. -/
theorem Follows.setWorker (h : Follows s pid c) {runId : String} {stage : Option WorkerStage}
    (hshared : c.runs runId ≠ none) (hwork : ∀ st, stage = some st → st ≠ .persisted → AtWork s pid runId)
    (hearly : ∀ st, stage = some st → st.early = true → Early s pid runId ∧
      ∀ m, c.runs runId = some m → m.status = .queued ∨ m.status = .running) :
    Follows s pid (c.setWorker runId stage) := by
  have hother : ∀ {x st}, x ≠ runId → (c.setWorker runId stage).workers x = some st → c.workers x = some st :=
    fun hx hst => (setName_ne _ _ hx).symm.trans hst
  have hself : ∀ {st}, (c.setWorker runId stage).workers runId = some st → stage = some st :=
    fun hst => (setName_self _ _).symm.trans hst
  refine ⟨⟨h.runs, fun x st hst => ?_, fun x st m hst he hm => ?_⟩, fun x st hst hne => ?_, fun x st hst he => ?_⟩ <;>
    by_cases hx : x = runId
  · exact hx ▸ hshared
  · exact h.shared x st (hother hx hst)
  · subst hx
    exact (hearly st (hself hst) he).2 m hm
  · exact h.steady x st m (hother hx hst) he hm
  · subst hx
    exact hwork st (hself hst) hne
  · exact h.work x st (hother hx hst) hne
  · subst hx
    exact (hearly st (hself hst) he).1
  · exact h.early x st (hother hx hst) he

/-- **One step of a worker.** -/
theorem Ownership.work {runId : String} {stage : WorkerStage} {move : WorkerMove} (h : Ownership s)
    (hc : s.controllers pid = some c) (hr : c.runs runId = some r) (hstage : c.workers runId = some stage)
    (ht : workerMove s pid c r stage move = some t) : Ownership t := by
  obtain ⟨rfl, hdisk⟩ := (h.controllers pid c hc).runs runId r hr
  have hfollows := h.follows hc
  have hsteady : stage.early = true → r.status = .queued ∨ r.status = .running :=
    fun he => (h.controllers pid c hc).steady _ stage r hstage he hr
  have hunresolved : stage.early = true → r.status.unresolved = true := fun he => by
    rcases hsteady he with hst | hst <;> rw [hst] <;> rfl
  -- until its announcement a worker's record is queued or running, so the file is not yet settled
  have hearly : stage.early = true → Early s pid r.runId := fun he => ⟨c, stage, hc, hstage, he⟩
  have hwork : stage ≠ .persisted → AtWork s pid r.runId := fun hne => ⟨c, stage, hc, hstage, hne⟩
  have hmoved : ∀ c', Follows s pid c' → Ownership (s.setController pid c') := fun c' hf =>
    h.moved fun _ hsome => Option.some.inj hsome ▸ hf
  cases move with
  | run =>
      obtain ⟨rfl, ht⟩ := Option.ite_none_right_eq_some.mp ht
      obtain rfl := Option.some.inj ht
      exact hmoved _ (hfollows.set (r := { r with status := .running }) hdisk (fun _ _ _ => hwork (by decide))
        fun _ _ _ => ⟨hearly rfl, .inr rfl⟩)
  | unstarted write =>
      -- the thread never ran, so the controller settles the run itself
      obtain ⟨rfl, ht⟩ := Option.ite_none_right_eq_some.mp ht
      obtain rfl := Option.some.inj ht
      have hgone : Follows s pid ((c.setRun { r with status := .failed, error := some "Worker thread could not be started" }).setWorker r.runId none) :=
        hfollows.set (r := { r with status := .failed, error := some "Worker thread could not be started" }) hdisk
          (fun _ hnone => nomatch hnone) fun _ hnone => nomatch hnone
      refine h.lastWrite (r := { r with status := .failed, error := some "Worker thread could not be started" }) ?_ hdisk
        (hwork (by decide)) ?_ write
      · split
        · exact hgone.popKey _ _
        · exact hgone
      · intro st hst
        have hnone : (none : Option WorkerStage) = some st := by
          split at hst
          · rw [Controller.popKey] at hst
            split at hst <;> exact (setName_self _ _).symm.trans hst
          · exact (setName_self _ _).symm.trans hst
        exact absurd hnone (by simp)
  | setContext context =>
      obtain ⟨rfl, ht⟩ := Option.ite_none_right_eq_some.mp ht
      obtain rfl := Option.some.inj ht
      exact hmoved _ (hfollows.setRun (r := { r with context := context }) hdisk fun _ _ _ => hsteady rfl)
  | finish result =>
      obtain ⟨rfl, ht⟩ := Option.ite_none_right_eq_some.mp ht
      obtain rfl := Option.some.inj ht
      exact hmoved _ (hfollows.set (r := { r with status := .succeeded, result := some result }) hdisk
        (fun _ _ _ => hwork (by decide)) fun st hst he => absurd he (by rw [← Option.some.inj hst]; decide))
  | raise error =>
      obtain ⟨rfl, ht⟩ := Option.ite_none_right_eq_some.mp ht
      obtain rfl := Option.some.inj ht
      exact hmoved _ (hfollows.set (r := { r with status := raisedStatus r.context, error := some error }) hdisk
        (fun _ _ _ => hwork (by decide)) fun st hst he => absurd he (by rw [← Option.some.inj hst]; decide))
  | write write =>
      cases stage with
      | starting => exact absurd ht (by simp [workerMove])
      | announcing =>
          simp only [workerMove] at ht
          split at ht <;> obtain rfl := Option.some.inj ht
          -- the announcement is written and the worker goes on
          · refine h.write (hfollows.setWorker (by rw [hr]; simp) (fun _ _ _ => hwork (by decide)) fun _ _ _ => ?_) hdisk
              (hwork (by decide)) (hunresolved rfl) write
            exact ⟨hearly rfl, fun m hm => Option.some.inj (hr.symm.trans hm) ▸ hsteady rfl⟩
          -- the announcement fails, which ends the work with the write's own error
          · refine h.write (hfollows.set (r := { r with status := raisedStatus r.context, error := some "OSError" }) hdisk
              (fun _ _ _ => hwork (by decide)) fun st hst he => ?_) hdisk (hwork (by decide)) (hunresolved rfl) write
            exact absurd he (by rw [← Option.some.inj hst]; decide)
      | working =>
          obtain rfl := Option.some.inj ht
          exact h.persist hdisk (.inl (hunresolved rfl)) (h.not_registering (hwork (by decide))) write
      | settled =>
          -- the last write: whether it fails or not, the worker leaves only its key behind
          obtain rfl := Option.some.inj ht
          have hnot : ∀ st, some WorkerStage.persisted = some st → st = .persisted := fun _ hst => (Option.some.inj hst).symm
          have hlast : ∀ status, Follows s pid ((c.setRun { r with status := status }).setWorker r.runId (some .persisted)) :=
            fun status => hfollows.set (r := { r with status := status }) hdisk
              (fun st hst hne => absurd (hnot st hst) hne) fun st hst he => absurd he (by rw [hnot st hst]; decide)
          refine h.lastWrite ?_ hdisk (hwork (by decide)) (fun st hst => ?_) write
          · split
            · exact hlast r.status
            · exact hlast .unknown
          · split at hst <;> exact hnot st ((setName_self _ _).symm.trans hst)
      | persisted =>
          obtain rfl := Option.some.inj ht
          have hgone : Follows s pid (c.setWorker r.runId none) := hfollows.setWorker (by rw [hr]; simp)
            (fun _ hnone => nomatch hnone) fun _ hnone => nomatch hnone
          refine hmoved _ ?_
          split
          · exact hgone
          · exact hgone.popKey _ _

/-! ### What the calls do

A start and a reconciliation take several steps each, with the lock held. Other controllers go on in between. -/

/-- **One step of a start.** -/
theorem Ownership.start {stage : StartStage} (h : Ownership s) (hc : s.controllers pid = some c)
    (hcall : s.call = some (.start pid r stage)) (write : Write) : Ownership (startStep s pid c r write stage) := by
  have hok := h.call _ hcall
  obtain ⟨hpid, hqueued, hfound⟩ := hok
  cases stage with
  | check =>
      simp only [startStep]
      split
      · exact h.unlock
      · refine h.calls ?_
        rintro _ ⟨⟩
        refine ⟨hpid, hqueued, hfound, fun other runId d hw hd _ => ?_⟩
        exact List.mem_mergeSort.mpr (h.listed runId (by rw [hd]; simp))
  | scan remaining =>
      obtain ⟨hnone, hscan⟩ := hfound
      cases remaining with
      | nil =>
          have hcreated := h.unlock.created rfl hnone write
          simp only [startStep]
          split
          · rename_i hdone
            subst hdone
            refine hcreated.calls ?_
            rintro _ ⟨⟩
            refine ⟨hpid, hqueued, setName_self _ _, fun hm => (h.released _ hm).1 hnone, fun other runId d hw hd hkey => ?_⟩
            have hne : runId ≠ r.runId := by
              rintro rfl
              obtain ⟨e, he, _⟩ := h.worker other _ hw
              exact absurd (hnone.symm.trans he) (by simp)
            exact absurd (hscan other runId d hw ((setName_ne _ _ hne).symm.trans hd) hkey) (by simp)
          · cases write <;> exact hcreated
      | cons runId remaining =>
          simp only [startStep]
          split
          · exact h.unlock
          · rename_i d hd
            split
            · exact h.unlock
            · rename_i hclear
              refine h.calls ?_
              rintro _ ⟨⟩
              refine ⟨hpid, hqueued, hnone, fun other x e hw he hkey => ?_⟩
              -- a run of the key whose worker is at work would have been found unresolved
              rcases List.mem_cons.mp (hscan other x e hw he hkey) with rfl | hx
              · obtain ⟨f, hf, _, hun⟩ := h.worker other _ hw
                obtain rfl := Option.some.inj (hd.symm.trans he)
                obtain rfl := Option.some.inj (hd.symm.trans hf)
                exact absurd ⟨hkey, hun⟩ hclear
              · exact hx
  | register => exact h.registered hc hcall

/-- A record is read from disk when the controller has none of its own. -/
theorem Ownership.getRun (h : Ownership s) (hc : s.controllers pid = some c) (runId : String) :
    Follows s pid (getRun c s runId).1 := by
  have hfollows := h.follows hc
  unfold Pipeline.getRun
  split
  · exact hfollows
  · rename_i hnone
    split
    · exact hfollows
    · rename_i d hd
      have hid := h.file runId d hd
      have hloaded : ∀ m : RunRecord, m.runId = d.runId → m.key = d.key → m.owner = d.owner →
          Follows s pid { c with runs := setName c.runs runId (some m) } := by
        intro m hm hk ho
        have hmid : m.runId = runId := hm.trans hid
        have hset := hfollows.setRun (r := m) ⟨d, hmid ▸ hd, hk.symm, ho.symm⟩
          fun st hst => absurd hnone (hmid ▸ hfollows.shared m.runId st hst)
        rwa [Controller.setRun, hmid] at hset
      dsimp only
      split
      · exact hloaded _ rfl rfl rfl
      · exact hloaded d rfl rfl rfl

/-- A run that is up for reconciliation has no early worker in the controller. -/
theorem Ownership.not_early (h : Ownership s) (hc : s.controllers pid = some c) {runId : String}
    (hfound : (Pipeline.getRun c s runId).2 = some r) (hstatus : r.status = .unknown ∨ r.status = .reconciling) :
    ¬Early s pid runId := by
  rintro ⟨c', stage, hc', hstage, he⟩
  obtain rfl := Option.some.inj (hc.symm.trans hc')
  have hok := h.controllers pid c hc
  obtain ⟨m, hm⟩ := Option.ne_none_iff_exists'.mp (hok.shared runId stage hstage)
  have hmr : m = r := by
    simp only [Pipeline.getRun, hm] at hfound
    exact Option.some.inj hfound
  subst hmr
  rcases hok.steady runId stage m hstage he hm with hst | hst <;> rw [hst] at hstatus <;> simp at hstatus

/-- The outcome is entered in the record and the file, and the run is marked if it is terminal. -/
theorem Ownership.applied {actor : String} {note : Option String} {outcome : Outcome} {write : Write} {taken : Bool}
    (h : Ownership s) (hc : s.controllers pid = some c) (hr : c.runs r.runId = some r)
    (hcall : s.call = some (.reconcile pid r.runId actor note (.apply outcome)))
    (ht : reconcileStep s pid c r actor note write taken (.apply outcome) = some t) : Ownership t := by
  obtain ⟨hearly, happly⟩ := h.call _ hcall
  let r' : RunRecord := { r with status := outcome.status, result := outcome.result, error := outcome.error,
                                 reconciliation := some ⟨actor, note, outcome.status⟩ }
  let u := (s.persist r' write).setController pid (c.setRun r')
  have hdisk : OnDisk s r' := ((h.controllers pid c hc).runs _ r hr).2
  have hmoved : ∀ c', some (c.setRun r') = some c' → Follows s pid c' := by
    rintro _ ⟨⟩
    exact (h.follows hc).setRun hdisk fun st hst he => absurd ⟨c, st, hc, hst, he⟩ hearly
  have hnot : ∀ p new, s.call = some (.start p new .register) → new.runId ≠ r'.runId :=
    fun p new hstart => absurd (hcall.symm.trans hstart) (by simp)
  -- the inspection found no worker at work, and the condition carries that over to a terminal outcome
  have hgone : outcome.status.unresolved = false → ∀ other, ¬AtWork (s.setController pid (c.setRun r')) other r.runId :=
    fun hterminal other hw => happly outcome rfl hterminal other (AtWork.of_moved hmoved other _ hw)
  have hu : Ownership u := by
    change Ownership ((s.persist r' write).setController pid (c.setRun r'))
    rw [persist_setController]
    refine (h.moved hmoved).persist hdisk ?_ hnot write
    rcases Bool.eq_false_or_eq_true outcome.status.unresolved with hstatus | hstatus
    · exact .inl hstatus
    · exact .inr (hgone hstatus)
  have hcontrollers : u.controllers = s.controllers.update pid (some (c.setRun r')) := by
    cases write <;> rfl
  -- only a terminal record that reached the disk is marked as released
  have hv : Ownership (if write.reached && !outcome.status.unresolved then { u with released := r.runId :: u.released } else u) := by
    split
    · rename_i hmark
      obtain ⟨hreached, hterminal⟩ := (Bool.and_eq_true _ _).mp hmark
      refine hu.release ?_ (fun other hw => hgone (by simpa using hterminal) other ?_) ?_
      · have : u.disk = setName s.disk r.runId (some r') := by
          change ((s.persist r' write).setController pid (c.setRun r')).disk = _
          rw [State.persist, if_pos hreached]
          rfl
        rw [this, setName_self]
        simp
      · obtain ⟨c', stage, hc', hstage, hne⟩ := hw
        exact ⟨c', stage, (congrFun hcontrollers other).symm.trans hc', hstage, hne⟩
      · intro p new hstart
        refine hnot p new ?_
        cases write <;> exact hstart
    · exact hu
  simp only [reconcileStep] at ht
  split at ht <;> obtain rfl := Option.some.inj ht
  -- the key of the run is still to be popped, so the call stays open
  · refine hv.calls ?_
    rintro _ ⟨⟩
    refine ⟨fun ⟨c', stage, hc', hstage, he⟩ => hearly (Early.of_moved hmoved pid _ ⟨c', stage, ?_, hstage, he⟩), fun _ hst => nomatch hst⟩
    rw [← hc']
    split <;> exact (congrFun hcontrollers pid).symm
  · exact hv.unlock

/-- **One step of a reconciliation.** -/
theorem Ownership.reconcile {runId actor : String} {note : Option String} {stage : ReconcileStage} {write : Write}
    {taken : Bool} (h : Ownership s) (hc : s.controllers pid = some c) (hr : c.runs runId = some r)
    (hcall : s.call = some (.reconcile pid runId actor note stage))
    (ht : reconcileStep s pid c r actor note write taken stage = some t) : Ownership t := by
  obtain ⟨rfl, hdisk⟩ := (h.controllers pid c hc).runs runId r hr
  obtain ⟨hearly, happly⟩ := h.call _ hcall
  have hfollows := h.follows hc
  cases stage with
  | branch confirm =>
      simp only [reconcileStep] at ht
      split at ht
      · obtain rfl := Option.some.inj ht
        refine h.calls ?_
        rintro _ ⟨⟩
        exact ⟨hearly, fun _ hst => nomatch hst⟩
      · split at ht <;> obtain rfl := Option.some.inj ht
        · exact h.unlock
        · rename_i halive
          refine h.calls ?_
          rintro _ ⟨⟩
          refine ⟨hearly, fun _ _ _ other hw => ?_⟩
          -- the worker would be in the controller that owns the run, and that one is dead
          obtain ⟨d, hd, hkey, howner⟩ := hdisk
          obtain ⟨d', hd', hother, _⟩ := h.worker other _ hw
          obtain rfl := Option.some.inj (hd.symm.trans hd')
          obtain ⟨c', _, hc', _⟩ := hw
          rw [howner] at hother
          simp [ownerAlive, hother, hc'] at halive
  | inspect => exact absurd ht (by simp [reconcileStep])
  | apply outcome =>
      exact h.applied hc hr hcall ht
  | pop =>
      obtain rfl := Option.some.inj ht
      refine (h.moved fun _ hsome => Option.some.inj hsome ▸ ?_).unlock
      split
      · exact hfollows
      · exact hfollows.popKey _ _

end

/-! ## Runs -/

def Reached (allowed : State → Action → Prop) : List Action → State → Prop :=
  Trace.Run step (· = State.empty) allowed

theorem Ownership.empty : Ownership State.empty := by
  constructor <;> intros
  case worker hw => obtain ⟨_, _, hc, _⟩ := hw; exact absurd hc (by simp [State.empty, Processes.none])
  case single hw _ _ _ _ => obtain ⟨_, _, hc, _⟩ := hw; exact absurd hc (by simp [State.empty, Processes.none])
  all_goals contradiction

section
variable {s t : State} {a : Action}

/-- **One step of the system.** -/
theorem Ownership.step (h : Ownership s) (ha : workerGone s a) (ht : Pipeline.step s a = some t) : Ownership t := by
  cases a with
  | boot pid =>
      -- a fresh controller knows no run and works on none
      simp only [Pipeline.step] at ht
      split at ht
      · exact absurd ht (by simp)
      · obtain rfl := Option.some.inj ht
        have hfresh : Follows s pid (.fresh s.instances) := by
          refine ⟨⟨?_, ?_, ?_⟩, ?_, ?_⟩ <;> intros <;> contradiction
        have hbooted : Ownership (s.setController pid (.fresh s.instances)) :=
          h.moved fun _ hsome => Option.some.inj hsome ▸ hfresh
        exact hbooted.calls hbooted.call
  | crash pid =>
      -- the threads die with the process; the files they left are what the next controller reads
      obtain ⟨c, hc, rfl⟩ := Option.map_eq_some_iff.mp ht
      have hdead : Ownership { s with controllers := s.controllers.update pid none } :=
        h.moved fun _ hnone => nomatch hnone
      exact hdead.calls fun new hnew => hdead.call new (Option.filter_eq_some_iff.mp hnew).1
  | lookUp pid runId =>
      obtain ⟨c, hc, rfl⟩ := Option.map_eq_some_iff.mp ht
      exact h.moved fun _ hsome => Option.some.inj hsome ▸ h.getRun hc runId
  | startRun pid runId kind key =>
      -- the run's directory is new, so no controller can have a record of it
      simp only [Pipeline.step] at ht
      split at ht
      · split at ht
        · exact absurd ht (by simp)
        · rename_i hfresh
          obtain rfl := Option.some.inj ht
          refine h.calls ?_
          rintro _ ⟨⟩
          exact ⟨rfl, rfl, by_contra fun hsome => hfresh (h.listed runId hsome)⟩
      · exact absurd ht (by simp)
  | reconcileRun pid runId actor confirm note =>
      -- a record found in memory or on disk is not early, since its status was checked under the lock
      simp only [Pipeline.step] at ht
      split at ht
      · rename_i c hc _
        have hkept : Ownership (s.setController pid (Pipeline.getRun c s runId).1) :=
          h.moved fun _ hsome => Option.some.inj hsome ▸ h.getRun hc runId
        split at ht
        · exact Option.some.inj ht ▸ h
        · split at ht
          · rename_i r hfound
            split at ht <;> obtain rfl := Option.some.inj ht
            · rename_i hstatus
              refine hkept.calls ?_
              rintro _ ⟨⟩
              refine ⟨fun he => h.not_early hc hfound hstatus ?_, fun _ hst => nomatch hst⟩
              exact Early.of_moved (fun _ hsome => Option.some.inj hsome ▸ h.getRun hc runId) pid runId he
            · exact hkept
          · exact Option.some.inj ht ▸ h
      · exact absurd ht (by simp)
  | proceed write taken =>
      -- one critical section of the call in progress
      simp only [Pipeline.step] at ht
      split at ht
      · rename_i pid r stage hcall
        obtain ⟨c, hc, rfl⟩ := Option.map_eq_some_iff.mp ht
        exact h.start hc hcall write
      · rename_i pid runId actor note stage hcall
        split at ht
        · rename_i c hc
          split at ht
          · rename_i r hr
            exact h.reconcile hc hr hcall ht
          · exact absurd ht (by simp)
        · exact absurd ht (by simp)
      · exact absurd ht (by simp)
  | inspected outcome =>
      -- the one step that the condition is about: a terminal finding on a run whose worker lives on
      simp only [Pipeline.step] at ht
      split at ht
      · rename_i pid runId actor note hcall
        split at ht <;> obtain rfl := Option.some.inj ht
        · refine h.calls ?_
          rintro _ ⟨⟩
          refine ⟨(h.call _ hcall).1, ?_⟩
          rintro _ ⟨⟩ hterminal
          exact ha hterminal pid runId actor note hcall
        · exact h.unlock
      · exact absurd ht (by simp)
  | work pid runId move =>
      simp only [Pipeline.step] at ht
      split at ht
      · rename_i c hc
        split at ht
        · rename_i r stage hr hstage
          exact h.work hc hr hstage ht
        · exact absurd ht (by simp)
      · exact absurd ht (by simp)

end

/-- **The run lemma.** -/
theorem ownership_reached {as : List Action} {s : State} (h : Reached workerGone as s) : Ownership s := by
  refine Trace.Run.invariant (I := fun _ s => Ownership s) ?_ ?_ h
  · rintro _ rfl
    exact Ownership.empty
  · exact fun _ s a t _ hs ha ht => hs.step ha ht

/-- **One worker per key.** In every run in which `inspect` reports a terminal outcome only when the worker is gone,
    the workers at work on one key are one worker, and none is at work on a run that was marked terminal. The
    controllers share a host and its process IDs, so that `ownerAlive` asks about the owner. -/
theorem single_worker {as : List Action} {s : State} (h : Reached workerGone as s) : SingleWorker s :=
  (ownership_reached h).singleWorker

/-! ## Two controllers

The executable form of the condition, and what happens without it: the owner of a run is taken for dead while its
worker goes on. -/

/-- A controller starts a run and its worker goes to work. -/
def labStart (pid : Nat) (runId : String) (others : Nat) : List Action :=
  .startRun pid runId "plan" "k" :: List.replicate (others + 3) (.proceed .done false) ++
    [.work pid runId .run, .work pid runId (.write .done)]

/-- The first controller launches a detached execution and dies. The second reconciles the run, whose execution has
    ended on the host, and starts another of the same key. -/
def labTakeover : List Action :=
  [.boot 1, .boot 2] ++ labStart 1 "a" 0 ++
    [.work 1 "a" (.setContext ⟨true, false⟩), .work 1 "a" (.write .done), .crash 1, .reconcileRun 2 "a" "dee" false none,
      .proceed .done false, .inspected ⟨.succeeded, some "verified", none⟩, .proceed .done false, .proceed .done false] ++
    labStart 2 "b" 1

/-- The first controller launches a detached execution. While its worker polls, the second reconciles the run, whose
    execution has ended on the host, and starts another of the same key; then the first worker writes a log line. -/
def labDetached : List Action :=
  [.boot 1, .boot 2] ++ labStart 1 "a" 0 ++
    [.work 1 "a" (.setContext ⟨true, false⟩), .work 1 "a" (.write .done), .reconcileRun 2 "a" "dee" false none,
      .proceed .done false, .inspected ⟨.succeeded, some "verified", none⟩, .proceed .done false, .proceed .done false] ++
    labStart 2 "b" 1

def labStages (s : State) : List (Option WorkerStage) :=
  [(s.controllers 1).bind (·.workers "a"), (s.controllers 2).bind (·.workers "b")]

def labStatuses (s : State) : List (Option Status) := ["a", "b"].map fun runId => (s.disk runId).map (·.status)

/-- `inspect` reports a terminal outcome only when the controller that owns the run is gone. -/
def ownerGone (s : State) : Action → Bool
  | .inspected outcome =>
      outcome.status.unresolved ||
        match s.call with
        | some (.reconcile _ runId _ _ .inspect) => (s.disk runId).all fun d => (s.controllers d.owner.pid).isNone
        | _ => true
  | _ => true

/-- A worker is in the controller that owns its run, and is gone with it. -/
theorem Ownership.workerGone {s : State} {a : Action} (h : Ownership s) (ha : ownerGone s a = true) :
    Pipeline.workerGone s a := by
  cases a with
  | inspected outcome =>
      intro hterminal pid runId actor note hcall other hw
      obtain ⟨d, hd, rfl, _⟩ := h.worker other runId hw
      obtain ⟨c, _, hc, _⟩ := hw
      simp [ownerGone, hterminal, hcall, hd, hc] at ha
  | _ => trivial

/-- A run that was checked step by step is a run under the condition. -/
theorem Reached.of_ownerGone {as : List Action} {s : State} (h : Reached (fun s a => ownerGone s a = true) as s) :
    Reached Pipeline.workerGone as s := by
  refine Trace.Run.invariant (I := fun as s => Reached Pipeline.workerGone as s) (fun _ hs => .nil hs) ?_ h
  intro as s a t _ hs ha ht
  exact .snoc hs ((ownership_reached hs).workerGone ha) ht

/-- The law at a run in which a worker dies with its controller, another controller inspects and reconciles the run,
    and starts the next one. -/
theorem single_worker_reconciled :
    ∃ s, Reached workerGone labTakeover s ∧ labStages s = [none, some .working] ∧
      labStatuses s = [some .succeeded, some .running] ∧ SingleWorker s := by
  have hrun : (labTakeover.foldlM (Trace.guarded step ownerGone) State.empty).map
      (fun s => (labStages s, labStatuses s)) = some ([none, some .working], [some .succeeded, some .running]) := by
    decide +kernel
  obtain ⟨s, hs, hshown⟩ := Option.map_eq_some_iff.mp hrun
  obtain ⟨hstages, hstatuses⟩ := Prod.mk.inj hshown
  have hreached : Reached workerGone labTakeover s :=
    Reached.of_ownerGone (Trace.Run.of_foldlM rfl (fun _ _ hcheck => hcheck) hs)
  exact ⟨s, hreached, hstages, hstatuses, single_worker hreached⟩

/-- **Two workers of one key.** Both are at work, and the file of the run that was marked terminal says `running`
    again. -/
theorem two_workers :
    ∃ s t, Reached (fun _ _ => True) labDetached s ∧ labStages s = [some .working, some .working] ∧
      labStatuses s = [some .succeeded, some .running] ∧ step s (.work 1 "a" (.write .done)) = some t ∧
      labStatuses t = [some .running, some .running] ∧ ¬SingleWorker s := by
  have hrun : (labDetached.foldlM (Trace.guarded step fun _ _ => true) State.empty).map
      (fun s => (labStages s, labStatuses s, s.released)) =
      some ([some .working, some .working], [some .succeeded, some .running], ["a"]) := by decide +kernel
  have hwrite : ((labDetached.foldlM (Trace.guarded step fun _ _ => true) State.empty).bind
      (step · (.work 1 "a" (.write .done)))).map labStatuses = some [some .running, some .running] := by decide +kernel
  obtain ⟨s, hs, hshown⟩ := Option.map_eq_some_iff.mp hrun
  simp only [Prod.mk.injEq] at hshown
  obtain ⟨hstages, hstatuses, hreleased⟩ := hshown
  rw [hs, Option.bind_some] at hwrite
  obtain ⟨t, ht, htstatuses⟩ := Option.map_eq_some_iff.mp hwrite
  refine ⟨s, t, Trace.Run.of_foldlM rfl (fun _ _ _ => trivial) hs, hstages, hstatuses, ht, htstatuses, fun h => ?_⟩
  obtain ⟨c, hc, hstage⟩ := Option.bind_eq_some_iff.mp (List.cons.inj hstages).1
  exact h.released "a" (by rw [hreleased]; exact List.mem_cons_self) 1 ⟨c, .working, hc, hstage, by decide⟩

end OraclePatching.Pipeline
