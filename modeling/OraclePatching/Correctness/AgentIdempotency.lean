import Mathlib.Data.List.Nodup
import OraclePatching.Agent.Completions
import OraclePatching.Lib.Frontier

/-!
# `Correctness.AgentIdempotency` — one invocation per idempotency key

`opu-agent` serialises the requests of a key by a lock, refuses a key whose published completion belongs to another
request, and refuses a task ID whose run directory exists. Between the two lies a gap: an agent that dies after it
has begun its run leaves a run directory under its task ID and nothing under its key. The next request with that key
and *another* task ID finds no completion and no run directory of its own, and invokes the operation again
(`agent_invokes_twice`).

The gap is the only one, apart from names: in every run of `undisturbed` steps there is one run per key and one
invocation per run, and every answer is in order (`agent_idempotent`).
-/

namespace OraclePatching.Agent

variable {hash : String → String} {used : Request → Prop}

/-! ## The runs

A run directory is begun once for a task, by the process that has its lock. The invariant says which request began
it, and where an operation may still be invoked. -/

section
variable {s t : State} {pid : Nat} {p p' : Process}

/-- What holds of a live agent, judged by the record `invocations`. -/
structure RunOk (s : State) (p : Process) : Prop where
  fresh : p.stage = .invoke → p.request ∉ s.invocations
  first : p.stage.isRunning = true → p.found = none ∧ ∀ r ∈ p.earlier, r.idempotencyKey ≠ p.request.idempotencyKey
  invoked : p.invoked = true → p.stage.isRunning = true

/-- One run per key, and one invocation per run. -/
structure Runs (s : State) : Prop where
  directory : ∀ r ∈ s.begun, s.runs r.taskId ≠ none
  keys : (s.begun.map (·.idempotencyKey)).Nodup
  bound : ∀ r ∈ s.begun, (r.taskId, r.idempotencyKey) ∈ s.bound
  begun : ∀ r ∈ s.invocations, r ∈ s.begun
  nodup : s.invocations.Nodup
  agents : ∀ pid p, s.processes pid = some p → RunOk s p

/-- Two runs of one key are one run. -/
theorem Runs.eq_of_key (h : Runs s) {r r' : Request} (hr : r ∈ s.begun) (hr' : r' ∈ s.begun)
    (hkey : r.idempotencyKey = r'.idempotencyKey) : r = r' := Frontier.eq_of_key h.keys hr hr' hkey

/-- The runs and the invocations are the same, the bindings have not become fewer, and one agent has moved. -/
theorem Runs.frame (h : Runs s) {moved : Option Process}
    (hsame : t.runs = s.runs ∧ t.begun = s.begun ∧ t.invocations = s.invocations) (hbound : s.bound ⊆ t.bound)
    (hprocesses : t.processes = s.processes.update pid moved) (hmoved : ∀ p', moved = some p' → RunOk s p') :
    Runs t := by
  obtain ⟨hruns, hbegun, hinvocations⟩ := hsame
  have hok : ∀ q, RunOk s q → RunOk t q := fun q hq => ⟨by rw [hinvocations]; exact hq.fresh, hq.first, hq.invoked⟩
  constructor
  · rw [hbegun, hruns]; exact h.directory
  · rw [hbegun]; exact h.keys
  · rw [hbegun]; exact fun r hr => hbound (h.bound r hr)
  · rw [hinvocations, hbegun]; exact h.begun
  · rw [hinvocations]; exact h.nodup
  · rw [hprocesses]
    exact Processes.all_update (fun p' hp' => hok p' (hmoved p' hp')) fun other q _ hq => hok q (h.agents other q hq)

/-- The agent goes on, and stays a running one if it was. -/
theorem Runs.goto {stage : Stage} (h : Runs s) (hp : s.processes pid = some p)
    (hsame : t.runs = s.runs ∧ t.begun = s.begun ∧ t.invocations = s.invocations) (hbound : s.bound ⊆ t.bound)
    (hprocesses : t.processes = s.processes.update pid (some { p with stage := stage })) (hinvoke : stage ≠ .invoke)
    (hrunning : stage.isRunning = p.stage.isRunning) : Runs t := by
  have hp' := h.agents pid p hp
  refine h.frame hsame hbound hprocesses ?_
  rintro _ ⟨⟩
  exact ⟨fun he => absurd he hinvoke, fun hr => hp'.first (hrunning.symm.trans hr),
    fun hi => hrunning.trans (hp'.invoked hi)⟩

/-- A process that ends leaves the runs as they are. -/
theorem Runs.gone (h : Runs s) (hsame : t.runs = s.runs ∧ t.begun = s.begun ∧ t.invocations = s.invocations)
    (hbound : s.bound ⊆ t.bound) (hprocesses : t.processes = s.processes.update pid none) : Runs t :=
  h.frame hsame hbound hprocesses fun _ hnone => nomatch hnone

/-- **No run has begun under the key of an agent that begins one.** An interrupted run would have to be of the same
    task, whose run directory exists; a run at work would hold the lock; a published one is not there. -/
theorem Runs.no_run (h : Runs s) (hlocking : Locking s) (hcompletions : Completions hash used s)
    (hp : s.processes pid = some p) (hundisturbed : Undisturbed s pid p) (hst : p.stage = .makeRun)
    (hfree : s.runs p.request.taskId = none) : ∀ r ∈ s.begun, r.idempotencyKey ≠ p.request.idempotencyKey := by
  intro r hr hkey
  by_cases hcut : interrupted s r
  · exact h.directory r hr (hundisturbed.run hst r hcut hkey ▸ hfree)
  · refine hcut ⟨hr, fun c hc _ => ?_, fun other q hq hqr => ?_⟩
    · rw [hkey] at hc
      exact absurd (((hcompletions.agents pid p hp).unpublished (by rw [hst]; rfl)).symm.trans hc) (by simp)
    · refine Bool.eq_false_iff.mpr fun hrun => ?_
      have hlocked : q.stage.isLocked = true := by
        revert hrun
        cases q.stage <;> simp [Stage.isRunning, Stage.isLocked]
      obtain rfl := hlocking.pid_eq hp hq (by rw [hst]; rfl) hlocked (by rw [hqr, hkey])
      obtain rfl := Option.some.inj (hp.symm.trans hq)
      rw [hst] at hrun
      exact absurd hrun (by simp [Stage.isRunning])

/-- **A run begins**: no earlier one has its key. -/
theorem Runs.began (h : Runs s) (hlocking : Locking s) (hbindings : Bindings s)
    (hcompletions : Completions hash used s) (hp : s.processes pid = some p) (hundisturbed : Undisturbed s pid p)
    (hst : p.stage = .makeRun) (hfree : s.runs p.request.taskId = none) :
    Runs ({ s with runs := setName s.runs p.request.taskId (some (hash (fingerprint p.request))),
                   begun := s.begun ++ [p.request] }.goto pid p .invoke) := by
  have hnew := h.no_run hlocking hcompletions hp hundisturbed hst hfree
  have hok := hcompletions.agents pid p hp
  constructor
  · intro r hr hnone
    by_cases ht : r.taskId = p.request.taskId
    · change setName s.runs p.request.taskId _ r.taskId = none at hnone
      rw [ht, setName_self] at hnone
      exact absurd hnone (by simp)
    · rcases List.mem_append.mp hr with hr | hr
      · exact h.directory r hr ((setName_ne _ _ ht).symm.trans hnone)
      · exact ht (by rw [List.mem_singleton.mp hr])
  · change ((s.begun ++ [p.request]).map (·.idempotencyKey)).Nodup
    rw [List.map_append, List.map_singleton, List.nodup_append]
    refine ⟨h.keys, by simp, ?_⟩
    rintro k hk _ hk' rfl
    obtain ⟨r, hr, rfl⟩ := List.mem_map.mp hk
    exact hnew r hr (List.mem_singleton.mp hk')
  · intro r hr
    rcases List.mem_append.mp hr with hr | hr
    · exact h.bound r hr
    · rw [List.mem_singleton.mp hr]
      exact hbindings.known pid p hp (by rw [hst]; rfl)
  · exact fun r hr => List.mem_append_left _ (h.begun r hr)
  · exact h.nodup
  · refine Processes.all_update ?_ fun other q _ hq => ?_
    · rintro _ ⟨⟩
      refine ⟨fun _ hm => hnew _ (h.begun _ hm) rfl, fun _ => ⟨?_, fun r hr => hnew r (hok.earlier r hr)⟩,
        fun _ => rfl⟩
      refine Option.eq_none_iff_forall_ne_some.mpr fun c hc => ?_
      exact absurd ((hok.unpublished (by rw [hst]; rfl)).symm.trans (hok.found c hc)) (by simp)
    · have hq' := h.agents other q hq
      exact ⟨hq'.fresh, hq'.first, hq'.invoked⟩

/-- **The operation is invoked**, for the first time in its run. -/
theorem Runs.invoke (h : Runs s) (hlocking : Locking s) (hcompletions : Completions hash used s)
    (hp : s.processes pid = some p) (hst : p.stage = .invoke) :
    Runs ({ s with invocations := s.invocations ++ [p.request] }.goto pid { p with invoked := true } .operate) := by
  have hp' := h.agents pid p hp
  constructor
  · exact h.directory
  · exact h.keys
  · exact h.bound
  · intro r hr
    rcases List.mem_append.mp hr with hr | hr
    · exact h.begun r hr
    · rw [List.mem_singleton.mp hr]
      exact (hcompletions.agents pid p hp).running (by rw [hst]; rfl)
  · change (s.invocations ++ [p.request]).Nodup
    rw [List.nodup_append]
    refine ⟨h.nodup, by simp, ?_⟩
    rintro r hr _ hr' rfl
    exact hp'.fresh hst (List.mem_singleton.mp hr' ▸ hr)
  · refine Processes.all_update ?_ fun other q hne hq => ?_
    · rintro _ ⟨⟩
      exact ⟨fun he => absurd he (by simp), fun _ => hp'.first (by rw [hst]; rfl), fun _ => rfl⟩
    · have hq' := h.agents other q hq
      refine ⟨fun hqs hm => ?_, hq'.first, hq'.invoked⟩
      rcases List.mem_append.mp hm with hm | hm
      · exact hq'.fresh hqs hm
      · exact hne (hlocking.pid_eq hp hq (by rw [hst]; rfl) (by rw [hqs]; rfl) (by rw [List.mem_singleton.mp hm]))

/-- **One step of an agent.** -/
theorem Runs.move (h : Runs s) (hlocking : Locking s) (hbindings : Bindings s)
    (hcompletions : Completions hash used s) (hp : s.processes pid = some p) (hundisturbed : Undisturbed s pid p)
    (he : Effect hash s pid p t) : Runs t := by
  cases he with
  | began hst hfree => exact h.began hlocking hbindings hcompletions hp hundisturbed hst hfree
  | invoked hst => exact h.invoke hlocking hcompletions hp hst
  | linked hst _ _ =>
      exact h.goto hp ⟨rfl, rfl, rfl⟩ (List.subset_cons_self _ _) rfl (by simp) (by rw [hst]; rfl)
  | @dropped linked hst =>
      exact h.goto hp ⟨rfl, rfl, rfl⟩ (List.Subset.refl _) rfl (by cases linked <;> simp)
        (by rw [hst]; cases linked <;> rfl)
  | waits => exact h
  | _ =>
      first
      | exact h.gone ⟨rfl, rfl, rfl⟩ (List.Subset.refl _) rfl
      | exact h.goto hp ⟨rfl, rfl, rfl⟩ (List.Subset.refl _) rfl (by simp) (by simp [*, Stage.isRunning])

/-- **One action.** -/
theorem Runs.act {a : Action} (h : Runs s) (hlocking : Locking s) (hbindings : Bindings s)
    (hcompletions : Completions hash used s) (hundisturbed : undisturbed used s a) (ha : Acts hash s a t) :
    Runs t := by
  cases ha with
  | arrived hnone hok =>
      refine h.frame ⟨rfl, rfl, rfl⟩ (List.Subset.refl _) rfl ?_
      rintro _ ⟨⟩
      exact ⟨fun he => absurd he (by simp), fun hr => absurd hr (by simp [Stage.isRunning]), fun hi => absurd hi (by simp)⟩
  | @rejected pid _ _ _ =>
      exact h.frame ⟨rfl, rfl, rfl⟩ (List.Subset.refl _) Processes.update_get.symm fun p hp => h.agents pid p hp
  | moved hp he => exact h.move hlocking hbindings hcompletions hp (hundisturbed _ hp) he
  | timedOut _ _ => exact h.gone ⟨rfl, rfl, rfl⟩ (List.Subset.refl _) rfl
  | finished hp hst =>
      exact h.goto hp ⟨rfl, rfl, rfl⟩ (List.Subset.refl _) rfl (by simp) (by rw [hst]; rfl)
  | died _ => exact h.gone ⟨rfl, rfl, rfl⟩ (List.Subset.refl _) rfl

end

/-! ## The answers -/

section
variable {s t : State} {pid : Nat} {p p' : Process}

/-- What an answer says to a request whose key was in use when it came. -/
structure AnswerOk (a : Answer) : Prop where
  /-- The request is the one whose completion was published: the recorded result and exit code, unless the lock did
      not come free in time. -/
  replayed : ∀ c, a.found = some c → a.request = c.request →
    a.invoked = false ∧ (a.outcome = .returned c.result c.exitCode ∨ a.outcome = .refused 75)
  /-- A run of another request had begun under the key. -/
  refused : ∀ r ∈ a.earlier, r.idempotencyKey = a.request.idempotencyKey → r ≠ a.request →
    a.invoked = false ∧ ∃ code, a.outcome = .refused code

def Answers (s : State) : Prop := ∀ a ∈ s.answers, AnswerOk a

theorem Answers.answer (h : Answers s) {outcome : Outcome} (ha : AnswerOk ⟨p.request, p.earlier, p.found, p.invoked, outcome⟩) :
    Answers (s.answer pid p outcome) := by
  intro a hmem
  rcases List.mem_append.mp hmem with hmem | hmem
  · exact h a hmem
  · rw [List.mem_singleton.mp hmem]; exact ha

/-- Who has not begun to run has not invoked the operation, and a refusal is then in order, if it is not given to the
    request of a published completion. -/
theorem answerOk_refused {code : Nat} (hinvoked : p.invoked = false)
    (hreplay : ∀ c, p.found = some c → p.request = c.request → code = 75) :
    AnswerOk ⟨p.request, p.earlier, p.found, p.invoked, .refused code⟩ where
  replayed c hc hr := ⟨hinvoked, .inr (by rw [hreplay c hc hr])⟩
  refused _ _ _ _ := ⟨hinvoked, code, rfl⟩

/-- Who runs was the first to use the key. -/
theorem RunOk.answerOk (h : RunOk s p) (hrunning : p.stage.isRunning = true) (outcome : Outcome) :
    AnswerOk ⟨p.request, p.earlier, p.found, p.invoked, outcome⟩ where
  replayed c hc _ := absurd ((h.first hrunning).1.symm.trans hc) (by simp)
  refused r hr hkey _ := absurd hkey ((h.first hrunning).2 r hr)

/-- An agent that does not run has invoked nothing. -/
theorem RunOk.not_invoked (h : RunOk s p) (hrunning : p.stage.isRunning = false) : p.invoked = false :=
  Bool.eq_false_iff.mpr fun hi => absurd ((h.invoked hi).symm.trans hrunning) (by simp)

section
variable (hdistinct : ∀ r r', used r → used r' → hash (fingerprint r) = hash (fingerprint r') →
  fingerprint r = fingerprint r')
include hdistinct

/-- **One step of an agent.** -/
theorem Answers.move (h : Answers s) (hbindings : Bindings s) (hcompletions : Completions hash used s)
    (hruns : Runs s) (hp : s.processes pid = some p) (he : Effect hash s pid p t) : Answers t := by
  have hok := hcompletions.agents pid p hp
  have hrun := hruns.agents pid p hp
  have hbegun : ∀ c, p.found = some c → c.request ∈ s.begun ∧
      s.results p.request.idempotencyKey = some (some (completionDir hash c.request c.result c.exitCode)) :=
    fun c hc => (hcompletions.published _ c (hok.found c hc)).2
  cases he with
  | unmatched hst hne =>
      refine h.answer (answerOk_refused (hrun.not_invoked (by rw [hst]; rfl)) fun c hc hr => ?_)
      obtain ⟨i, hi, hcontent⟩ := hbindings.kept _ _ (hruns.bound _ (hbegun c hc).1)
      exact absurd (hcontent.trans (by rw [hr])) (hne i (by rw [hr]; exact hi))
  | @replayed d hst hd hsha =>
      obtain ⟨c, hc, hreq, hresult, hexit⟩ := hcompletions.replayed hdistinct hp hd hsha
      have hinvoked := hrun.not_invoked (by rw [hst]; rfl)
      refine h.answer ⟨fun c' hc' _ => ⟨hinvoked, .inl ?_⟩, fun r hr hkey hne => absurd ?_ hne⟩
      · obtain rfl := Option.some.inj (hc.symm.trans (hok.found c' hc'))
        rw [hresult, hexit]
      · exact hruns.eq_of_key (hok.earlier r hr) (hreq ▸ (hcompletions.published _ c hc).2.1) hkey
  | unreplayed hst hbad =>
      refine h.answer (answerOk_refused (hrun.not_invoked (by rw [hst]; rfl)) fun c hc hr => ?_)
      rcases hbad _ (hbegun c hc).2 with hbad | hbad
      · exact absurd (by simp [opuVerifyCompletedResult, completionDir, ensure]; rfl) hbad
      · exact absurd (by rw [hr]; rfl) hbad
  | unfinished hst _ =>
      refine h.answer (answerOk_refused (hrun.not_invoked (by rw [hst]; rfl)) fun c hc _ => ?_)
      exact absurd ((hok.unpublished (by rw [hst]; rfl)).symm.trans (hok.found c hc)) (by simp)
  | notMade hst => exact h.answer (hrun.answerOk (by rw [hst]; rfl) _)
  | reported hst => exact h.answer (hrun.answerOk (by rw [hst]; rfl) _)
  | _ => exact h

/-- **One action.** -/
theorem Answers.act {a : Action} (h : Answers s) (hbindings : Bindings s) (hcompletions : Completions hash used s)
    (hruns : Runs s) (ha : Acts hash s a t) : Answers t := by
  cases ha with
  | @rejected pid r code hnot =>
      intro a hmem
      rcases List.mem_append.mp hmem with hmem | hmem
      · exact h a hmem
      · rw [List.mem_singleton.mp hmem]
        refine ⟨fun c hc hr => ?_, fun _ _ _ _ => ⟨rfl, code, rfl⟩⟩
        obtain rfl : r = c.request := hr
        exact absurd (hcompletions.begun _ (hcompletions.published _ c hc).2.1).1 hnot
  | moved hp he => exact h.move hdistinct hbindings hcompletions hruns hp he
  | @timedOut pid p hp hst =>
      exact h.answer (answerOk_refused ((hruns.agents pid p hp).not_invoked (by rw [hst]; rfl)) fun _ _ _ => rfl)
  | _ => exact h

end

end

/-! ## Idempotency -/

/-- What the state directory, the agents and their answers show of idempotency. -/
structure Idempotent (hash : String → String) (s : State) : Prop where
  once : (s.invocations.map (·.idempotencyKey)).Nodup
  answers : ∀ a ∈ s.answers, AnswerOk a
  /-- A live agent whose key was in use when it came has not invoked the operation. -/
  silent : ∀ pid p, s.processes pid = some p →
    p.found ≠ none ∨ (∃ r ∈ p.earlier, r.idempotencyKey = p.request.idempotencyKey) → p.invoked = false
  kept : ∀ k c, s.published k = some c →
    s.results k = some (some (completionDir hash c.request c.result c.exitCode))

/-- The five invariants together. -/
structure Orderly (hash : String → String) (used : Request → Prop) (s : State) : Prop where
  locking : Locking s
  bindings : Bindings s
  completions : Completions hash used s
  runs : Runs s
  answers : Answers s

theorem orderly_empty : Orderly hash used State.empty where
  locking _ _ h := nomatch h
  bindings := by constructor <;> intros <;> contradiction
  completions := by constructor <;> intros <;> contradiction
  runs := by
    refine ⟨?_, List.nodup_nil, ?_, ?_, List.nodup_nil, ?_⟩ <;> intros <;> contradiction
  answers := by intros _ _; contradiction

section
variable {s t : State}

theorem Orderly.idempotent (h : Orderly hash used s) : Idempotent hash s where
  once := List.Nodup.map_on (fun r hr r' hr' hkey =>
    h.runs.eq_of_key (h.runs.begun r hr) (h.runs.begun r' hr') hkey) h.runs.nodup
  answers := h.answers
  silent pid p hp hkey := by
    refine Bool.eq_false_iff.mpr fun hi => ?_
    obtain ⟨hfound, hearlier⟩ := (h.runs.agents pid p hp).first ((h.runs.agents pid p hp).invoked hi)
    rcases hkey with hne | ⟨r, hr, hrkey⟩
    · exact hne hfound
    · exact hearlier r hr hrkey
  kept k c hc := (h.completions.published k c hc).2.2

/-- A published completion stays. -/
theorem Orderly.lasting (h : Orderly hash used s) {a : Action} (ha : Acts hash s a t) {k : String} {c : Completion}
    (hc : s.published k = some c) : t.published k = some c := by
  cases ha with
  | @moved pid p _ hp he =>
      cases he with
      | renamed hst _ =>
          have hopen := (h.completions.agents pid p hp).unpublished (by rw [hst]; rfl)
          refine (setName_ne _ _ ?_).trans hc
          rintro rfl
          exact absurd (hopen.symm.trans hc) (by simp)
      | _ => exact hc
  | _ => exact hc

end

section
variable (hdistinct : ∀ r r', used r → used r' → hash (fingerprint r) = hash (fingerprint r') →
  fingerprint r = fingerprint r')
include hdistinct

/-- **The run lemma.** -/
theorem orderly_reached {as : List Action} {s : State} (h : Reached hash (undisturbed used) as s) :
    Orderly hash used s := by
  refine Trace.Run.invariant (I := fun _ s => Orderly hash used s) ?_ ?_ h
  · rintro _ rfl
    exact orderly_empty
  · intro as s a t _ hs ha hstep
    have hacts := step_acts hstep
    exact ⟨hs.locking.act hacts, hs.bindings.act ha hacts, hs.completions.act hs.locking ha hacts,
      hs.runs.act hs.locking hs.bindings hs.completions ha hacts,
      hs.answers.act hdistinct hs.bindings hs.completions hs.runs hacts⟩

/-- **Undisturbed agents are idempotent.** In every run of undisturbed steps, crashes included, an operation is invoked
    at most once per key; a request whose completion is published is answered with that completion, and one that
    comes to a key in use by another is refused, neither invoking anything; and what is published stays. -/
theorem agent_idempotent {as : List Action} {s : State} (h : Reached hash (undisturbed used) as s) :
    Idempotent hash s ∧ ∀ a t, undisturbed used s a → step hash s a = some t →
      ∀ k c, s.published k = some c → t.published k = some c := by
  have hs := orderly_reached hdistinct h
  exact ⟨hs.idempotent, fun a t _ hstep k c hc => hs.lasting (step_acts hstep) hc⟩

end

/-! ## Runs of one agent after another -/

/-- Nothing is in an agent's way: a check that is enough for `undisturbed`. -/
def calm (requests : List Request) (s : State) : Action → Bool
  | .arrive _ r => decide (r ∈ requests)
  | .step pid =>
      match s.processes pid with
      | none => true
      | some p =>
          match p.stage with
          | .writeTemporary => (s.links (p.temporary pid)).isNone
          | .readBinding => decide ((p.request.taskId, p.request.idempotencyKey) ∈ s.bound)
          | .makeRun => s.begun.all fun r =>
              r.idempotencyKey ≠ p.request.idempotencyKey || r.taskId = p.request.taskId
          | .clearDirectory .. => (s.published (p.directory pid)).isNone
          | _ => true
  | _ => true

/-- An action that was checked is undisturbed. -/
theorem calm_undisturbed {requests : List Request} {s : State} {a : Action} (h : calm requests s a = true) :
    undisturbed (· ∈ requests) s a := by
  cases a with
  | arrive pid r => exact (of_decide_eq_true h : r ∈ requests)
  | step pid =>
      intro p hp
      simp only [calm, hp] at h
      refine ⟨fun hst b _ hsome => ?_, fun hst _ _ _ => ?_, fun hst r hr hkey => ?_, fun result exitCode hst => ?_⟩ <;>
        simp only [hst] at h
      · exact absurd (Option.isNone_iff_eq_none.mp h) hsome
      · exact of_decide_eq_true h
      · have hall := List.all_eq_true.mp h r hr.1
        simpa [hkey] using hall
      · exact Option.isNone_iff_eq_none.mp h
  | timeOut pid => trivial
  | finish pid result exitCode => trivial
  | die pid => trivial

def labRequest (taskId : String) : Request := ⟨taskId, "k", "host.discover", "1"⟩

/-- An agent's way to the operation. -/
def labInvoke (pid : Nat) (taskId : String) : List Action :=
  .arrive pid (labRequest taskId) :: List.replicate 7 (.step pid)

/-- The operation of one agent ends and its completion is published; the request comes again. -/
def labReplay : List Action :=
  labInvoke 1 "a" ++ .finish 1 "found" 0 :: List.replicate 5 (.step 1) ++
    .arrive 2 (labRequest "a") :: List.replicate 7 (.step 2)

/-- A request with another key, for the same operation. -/
def labOther : Request := ⟨"c", "k2", "host.discover", "1"⟩

def labUsed : List Request := [labRequest "a", labRequest "b", labOther]

/-- After the replay, task `b` comes with the key of task `a`. The agent of task `c` is killed while its operation
    runs, and task `c` comes again. -/
def labCrashed : List Action :=
  labReplay ++ (.arrive 3 (labRequest "b") :: List.replicate 6 (.step 3)) ++
    (.arrive 4 labOther :: List.replicate 7 (.step 4)) ++ .die 4 ::
    .arrive 5 labOther :: List.replicate 7 (.step 5)

/-- The completion is replayed, the foreign task is refused, and the interrupted run is not run again. -/
theorem agent_idempotent_crashed :
    ∃ s, Reached id (undisturbed (· ∈ labUsed)) labCrashed s ∧ s.invocations = [labRequest "a", labOther] ∧
      s.answers.map (·.outcome) = [.returned "found" 0, .returned "found" 0, .refused 65, .refused 76] ∧
      Idempotent id s := by
  have hrun : (labCrashed.foldlM (Trace.guarded (step id) (calm labUsed)) State.empty).map
      (fun s => (s.invocations, s.answers.map (·.outcome))) =
      some ([labRequest "a", labOther], [.returned "found" 0, .returned "found" 0, .refused 65, .refused 76]) := by
    decide +kernel
  obtain ⟨s, hs, hshown⟩ := Option.map_eq_some_iff.mp hrun
  obtain ⟨hinvocations, hanswers⟩ := Prod.mk.inj hshown
  have hreached : Reached id (undisturbed (· ∈ labUsed)) labCrashed s :=
    Trace.Run.of_foldlM rfl (fun _ _ => calm_undisturbed) hs
  exact ⟨s, hreached, hinvocations, hanswers, (agent_idempotent (fun _ _ _ _ h => h) hreached).1⟩

/-- **A key is invoked twice.** The agent of task `a` is killed while the operation runs; the agent of task `b` comes
    with the same key and invokes the operation again. -/
theorem agent_invokes_twice :
    ∃ s, Reached id (fun _ _ => True) (labInvoke 1 "a" ++ [Action.die 1] ++ labInvoke 2 "b") s ∧
      s.invocations = [labRequest "a", labRequest "b"] ∧ ¬Idempotent id s := by
  have hrun : ((labInvoke 1 "a" ++ [Action.die 1] ++ labInvoke 2 "b").foldlM
      (Trace.guarded (step id) fun _ _ => true) State.empty).map (·.invocations) =
      some [labRequest "a", labRequest "b"] := by decide +kernel
  obtain ⟨s, hs, hinvocations⟩ := Option.map_eq_some_iff.mp hrun
  refine ⟨s, Trace.Run.of_foldlM rfl (fun _ _ _ => trivial) hs, hinvocations, fun h => ?_⟩
  have hkeys := h.once
  rw [hinvocations] at hkeys
  exact absurd hkeys (by decide)

end OraclePatching.Agent
