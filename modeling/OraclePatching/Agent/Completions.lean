import OraclePatching.Agent.Bindings

/-!
# `Agent.Completions` — what is published under a key

The third invariant of the journal. A published completion is on disk under its key, as it was written; whatever else
is complete under a name in `results/` belongs to a request of another key, because it is somebody's temporary
directory. So an agent that replays a result replays its own: the digest of the request tells, since the fingerprint
of an admitted request determines it (`fingerprint_inj`).
-/

namespace OraclePatching.Agent

variable {hash : String → String} {used : Request → Prop}

/-! ## Fingerprints -/

/-- An admitted request has no backslash in it. -/
theorem opuRunAdmission_ok {r : Request} (h : opuRunAdmission r = .ok ()) :
    '\\' ∉ r.taskId.toList ∧ '\\' ∉ r.operation.toList ∧ '\\' ∉ r.operationVersion.toList := by
  simp only [opuRunAdmission, check_bind_ok] at h
  obtain ⟨hop, htask, _, hversion, _⟩ := h
  rw [opuValidateIdentifier_ok] at htask
  rw [opuValidateOperationName, ensure_bind_ok, ensure_ok] at hop
  simp only [validateVersion, ensure_bind_ok, ensure_ok] at hversion
  refine ⟨identifier_not_mem htask.2 (by decide), fun hmem => ?_, fun hmem => ?_⟩
  · have hshape := hop.2
    unfold operationShape at hshape
    split at hshape
    · exact absurd hshape (by simp)
    · rename_i heq
      rw [Bool.and_eq_true, List.all_eq_true] at hshape
      exact absurd (hshape.2 '\\' (heq ▸ hmem)) (by decide)
  · exact absurd (List.all_eq_true.mp hversion.1.2 '\\' hmem) (by decide)

/-- **The fingerprint tells admitted requests apart.** -/
theorem fingerprint_inj {r r' : Request} (hr : opuRunAdmission r = .ok ()) (hr' : opuRunAdmission r' = .ok ())
    (h : fingerprint r = fingerprint r') : r = r' := by
  obtain ⟨htask, hop, hversion⟩ := opuRunAdmission_ok hr
  obtain ⟨htask', hop', hversion'⟩ := opuRunAdmission_ok hr'
  have hlists := congrArg String.toList h
  simp only [fingerprint, String.toList_append] at hlists
  have hbackslash : ∀ text : String, ("\\n" ++ text).toList = '\\' :: ("n" ++ text).toList := by
    intro text; simp [String.toList_append]
  have h1 : r.taskId.toList ++ '\\' :: ("noperation=".toList ++ (r.operation.toList ++ '\\' :: ("nversion=".toList ++
        (r.operationVersion.toList ++ '\\' :: ("nidempotency_key=".toList ++ r.idempotencyKey.toList))))) =
      r'.taskId.toList ++ '\\' :: ("noperation=".toList ++ (r'.operation.toList ++ '\\' :: ("nversion=".toList ++
        (r'.operationVersion.toList ++ '\\' :: ("nidempotency_key=".toList ++ r'.idempotencyKey.toList))))) := by
    simpa using hlists
  obtain ⟨h1, h2⟩ := Separated.append_inj htask htask' h1
  obtain ⟨h2, h3⟩ := Separated.append_inj hop hop' (List.append_cancel_left h2)
  obtain ⟨h3, h4⟩ := Separated.append_inj hversion hversion' (List.append_cancel_left h3)
  have h5 := List.append_cancel_left h4
  cases r; cases r'
  simp only [String.toList_inj] at h1 h2 h3 h5
  simp [h1, h2, h3, h5]

/-! ## The completions -/

section
variable {s t : State} {pid : Nat} {p p' : Process}

/-- What holds of a live agent, judged by the records `results`, `published` and `begun`. -/
structure AgentOk (hash : String → String) (used : Request → Prop) (s : State) (pid : Nat) (p : Process) : Prop where
  admitted : opuRunAdmission p.request = .ok () ∧ used p.request
  unpublished : p.stage.isUnpublished = true → s.published p.request.idempotencyKey = none
  found : ∀ c, p.found = some c → s.published p.request.idempotencyKey = some c
  filling : p.stage.isFilling = true → s.published (p.directory pid) = none ∧ s.results (p.directory pid) ≠ none
  filled : ∀ result exitCode, p.stage = .renameDirectory result exitCode →
    s.results (p.directory pid) = some (some (completionDir hash p.request result exitCode))
  running : p.stage.isRunning = true → p.request ∈ s.begun
  earlier : ∀ r ∈ p.earlier, r ∈ s.begun

/-- A published completion is on disk under its key, and what else is on disk is of another key. -/
structure Completions (hash : String → String) (used : Request → Prop) (s : State) : Prop where
  begun : ∀ r ∈ s.begun, opuRunAdmission r = .ok () ∧ used r
  published : ∀ k c, s.published k = some c → c.request.idempotencyKey = k ∧ c.request ∈ s.begun ∧
    s.results k = some (some (completionDir hash c.request c.result c.exitCode))
  alien : ∀ k d, s.results k = some (some d) → s.published k ≠ none ∨
    ∃ r, opuRunAdmission r = .ok () ∧ used r ∧ r.idempotencyKey ≠ k ∧ d.requestSha256 = hash (fingerprint r)
  agents : ∀ pid p, s.processes pid = some p → AgentOk hash used s pid p

theorem directory_ne {other : Nat} {q : Process} (hne : other ≠ pid) : q.directory other ≠ p.directory pid :=
  fun he => hne (tempName_inj he)

/-- The agent goes on, and neither fills a directory nor begins to run. -/
theorem AgentOk.goto {stage : Stage} (h : AgentOk hash used s pid p)
    (hunpublished : stage.isUnpublished = true → s.published p.request.idempotencyKey = none)
    (hfilling : stage.isFilling = false) (hrunning : stage.isRunning = true → p.request ∈ s.begun) (invoked : Bool) :
    AgentOk hash used s pid { p with stage := stage, invoked := invoked } where
  admitted := h.admitted
  unpublished := hunpublished
  found := h.found
  filling hf := absurd (hfilling.symm.trans hf) (by simp)
  filled result exitCode hst := by
    change stage = _ at hst
    rw [hst] at hfilling
    exact absurd hfilling (by simp [Stage.isFilling])
  running := hrunning
  earlier := h.earlier

/-- The records are the same, and the agents but one. -/
theorem Completions.frame (h : Completions hash used s) {moved : Option Process}
    (hsame : t.results = s.results ∧ t.published = s.published ∧ t.begun = s.begun)
    (hprocesses : t.processes = s.processes.update pid moved)
    (hmoved : ∀ p', moved = some p' → AgentOk hash used s pid p') : Completions hash used t := by
  obtain ⟨hresults, hpublished, hbegun⟩ := hsame
  have hok : ∀ other q, AgentOk hash used s other q → AgentOk hash used t other q := fun other q hq => by
    constructor
    · exact hq.admitted
    · rw [hpublished]; exact hq.unpublished
    · rw [hpublished]; exact hq.found
    · rw [hpublished, hresults]; exact hq.filling
    · rw [hresults]; exact hq.filled
    · rw [hbegun]; exact hq.running
    · rw [hbegun]; exact hq.earlier
  constructor
  · rw [hbegun]; exact h.begun
  · rw [hpublished, hresults, hbegun]; exact h.published
  · rw [hresults, hpublished]; exact h.alien
  · rw [hprocesses]
    exact Processes.all_update (fun p' hp' => hok pid p' (hmoved p' hp')) fun other q _ hq =>
      hok other q (h.agents other q hq)

theorem Completions.gone (h : Completions hash used s)
    (hsame : t.results = s.results ∧ t.published = s.published ∧ t.begun = s.begun)
    (hprocesses : t.processes = s.processes.update pid none) : Completions hash used t :=
  h.frame hsame hprocesses fun _ hnone => nomatch hnone

theorem Completions.began (h : Completions hash used s) (hp : s.processes pid = some p) (hst : p.stage = .makeRun)
    (ht : t = ({ s with runs := setName s.runs p.request.taskId (some (hash (fingerprint p.request))),
                        begun := s.begun ++ [p.request] }.goto pid p .invoke)) : Completions hash used t := by
  subst ht
  have hp' := h.agents pid p hp
  have hkeep : ∀ r, r ∈ s.begun → r ∈ s.begun ++ [p.request] := fun r hr => List.mem_append_left _ hr
  constructor
  · intro r hr
    rcases List.mem_append.mp hr with hr | hr
    · exact h.begun r hr
    · rw [List.mem_singleton.mp hr]; exact hp'.admitted
  · intro k c hc
    obtain ⟨hkey, hbegun, hresults⟩ := h.published k c hc
    exact ⟨hkey, hkeep _ hbegun, hresults⟩
  · exact h.alien
  · refine Processes.all_update ?_ fun other q _ hq => ?_
    · rintro _ ⟨⟩
      have hgo : AgentOk hash used s pid { p with stage := .makeRun } :=
        hp'.goto (fun _ => hp'.unpublished (by rw [hst]; rfl)) rfl (by simp [Stage.isRunning]) p.invoked
      exact ⟨hgo.admitted, fun _ => hgo.unpublished rfl, hgo.found, fun hf => absurd hf (by simp [Stage.isFilling]),
        fun _ _ hf => absurd hf (by simp), fun _ => List.mem_append_right _ (List.mem_singleton.mpr rfl),
        fun r hr => hkeep r (hgo.earlier r hr)⟩
    · have hq' := h.agents other q hq
      exact ⟨hq'.admitted, hq'.unpublished, hq'.found, hq'.filling, hq'.filled, fun hr => hkeep _ (hq'.running hr),
        fun r hr => hkeep r (hq'.earlier r hr)⟩

/-- An agent writes its temporary directory. -/
theorem Completions.overwrote (h : Completions hash used s) (hp : s.processes pid = some p)
    (hpublished : s.published (p.directory pid) = none) {x : Option (Option ResultDir)}
    (hx : ∀ d, x = some (some d) → d.requestSha256 = hash (fingerprint p.request))
    (hsame : t.results = setName s.results (p.directory pid) x ∧ t.published = s.published ∧ t.begun = s.begun)
    (hprocesses : t.processes = s.processes.update pid (some p')) (hp' : AgentOk hash used t pid p') :
    Completions hash used t := by
  obtain ⟨hresults, hpub, hbegun⟩ := hsame
  constructor
  · rw [hbegun]; exact h.begun
  · rw [hpub, hresults, hbegun]
    intro k c hc
    -- a published completion has another name than the agent's own directory
    have hne : k ≠ p.directory pid := by
      rintro rfl
      exact absurd (hpublished.symm.trans hc) (by simp)
    rw [setName_ne _ _ hne]
    exact h.published k c hc
  · rw [hresults, hpub]
    intro k d hd
    by_cases hk : k = p.directory pid
    · subst hk
      rw [setName_self] at hd
      obtain ⟨hadmitted, hused⟩ := (h.agents pid p hp).admitted
      exact .inr ⟨p.request, hadmitted, hused, (tempName_ne _ _).symm, hx d hd⟩
    · rw [setName_ne _ _ hk] at hd
      exact h.alien k d hd
  · rw [hprocesses]
    refine Processes.all_update ?_ fun other q hne hq => ?_
    · rintro _ ⟨⟩
      exact hp'
    · have hq' := h.agents other q hq
      constructor
      · exact hq'.admitted
      · rw [hpub]; exact hq'.unpublished
      · rw [hpub]; exact hq'.found
      · rw [hpub, hresults, setName_ne _ _ (directory_ne hne)]; exact hq'.filling
      · rw [hresults, setName_ne _ _ (directory_ne hne)]; exact hq'.filled
      · rw [hbegun]; exact hq'.running
      · rw [hbegun]; exact hq'.earlier

theorem Completions.renamed {result : String} {exitCode : Nat} (h : Completions hash used s) (hlocking : Locking s)
    (hp : s.processes pid = some p) (hst : p.stage = .renameDirectory result exitCode)
    (hfree : s.results p.request.idempotencyKey = none) :
    Completions hash used ({ s with
      results := setName (setName s.results p.request.idempotencyKey (s.results (p.directory pid))) (p.directory pid) none,
      published := setName s.published p.request.idempotencyKey (some ⟨p.request, result, exitCode⟩) }.goto pid p
        (.report exitCode)) := by
  have hp' := h.agents pid p hp
  have hkey : p.request.idempotencyKey ≠ p.directory pid := (tempName_ne _ _).symm
  have hopen := hp'.unpublished (by rw [hst]; rfl)
  have hdir := (hp'.filling (by rw [hst]; rfl)).1
  -- the completions that were there before: not under the key, not in the temporary directory
  have hold : ∀ k c, s.published k = some c → k ≠ p.request.idempotencyKey ∧ k ≠ p.directory pid := by
    refine fun k c hc => ⟨?_, ?_⟩ <;> rintro rfl
    · exact absurd (hopen.symm.trans hc) (by simp)
    · exact absurd (hdir.symm.trans hc) (by simp)
  constructor
  · exact h.begun
  · intro k c hc
    by_cases hk : k = p.request.idempotencyKey
    · subst hk
      obtain rfl := Option.some.inj ((setName_self _ _).symm.trans hc)
      exact ⟨rfl, hp'.running (by rw [hst]; rfl),
        (setName_ne _ _ hkey).trans ((setName_self _ _).trans (hp'.filled result exitCode hst))⟩
    · have hc' := (setName_ne _ _ hk).symm.trans hc
      obtain ⟨hck, hbegun, hresults⟩ := h.published k c hc'
      exact ⟨hck, hbegun, (setName_ne _ _ (hold k c hc').2).trans ((setName_ne _ _ hk).trans hresults)⟩
  · intro k d hd
    by_cases hk : k = p.request.idempotencyKey
    · subst hk
      exact .inl fun hn => absurd ((setName_self _ _).symm.trans hn) (by simp)
    · by_cases hkd : k = p.directory pid
      · subst hkd
        exact absurd ((setName_self _ _).symm.trans hd) (by simp)
      · rcases h.alien k d ((setName_ne _ _ hk).symm.trans ((setName_ne _ _ hkd).symm.trans hd)) with hn | hr
        · exact .inl fun he => hn ((setName_ne _ _ hk).symm.trans he)
        · exact .inr hr
  · refine Processes.all_update ?_ fun other q hne hq => ?_
    · rintro _ ⟨⟩
      exact ⟨hp'.admitted, fun hu => absurd hu (by simp [Stage.isUnpublished]),
        fun c hc => absurd (hopen.symm.trans (hp'.found c hc)) (by simp),
        fun hf => absurd hf (by simp [Stage.isFilling]), fun _ _ hf => absurd hf (by simp),
        fun _ => hp'.running (by rw [hst]; rfl), hp'.earlier⟩
    · have hq' := h.agents other q hq
      have hqkey : q.stage.isLocked = true → q.request.idempotencyKey ≠ p.request.idempotencyKey :=
        fun hl he => hne (hlocking.pid_eq hp hq (by rw [hst]; rfl) hl he)
      have hqdir : q.stage.isFilling = true → q.directory other ≠ p.request.idempotencyKey :=
        fun hf he => (hq'.filling hf).2 (he ▸ hfree)
      refine ⟨hq'.admitted, fun hu => ?_, fun c hc => ?_, fun hf => ?_, fun r e hqs => ?_, hq'.running, hq'.earlier⟩
      · refine (setName_ne _ _ (hqkey ?_)).trans (hq'.unpublished hu)
        revert hu
        cases q.stage <;> simp [Stage.isUnpublished, Stage.isLocked]
      · exact (setName_ne _ _ (hold _ c (hq'.found c hc)).1).trans (hq'.found c hc)
      · obtain ⟨hqpublished, hqresults⟩ := hq'.filling hf
        refine ⟨(setName_ne _ _ (hqdir hf)).trans hqpublished, fun he => hqresults ?_⟩
        exact (setName_ne _ _ (hqdir hf)).symm.trans ((setName_ne _ _ (directory_ne hne)).symm.trans he)
      · exact (setName_ne _ _ (directory_ne hne)).trans
          ((setName_ne _ _ (hqdir (by rw [hqs]; rfl))).trans (hq'.filled r e hqs))

theorem Completions.move (h : Completions hash used s) (hlocking : Locking s) (hp : s.processes pid = some p)
    (hundisturbed : Undisturbed s pid p) (he : Effect hash s pid p t) : Completions hash used t := by
  have hp' := h.agents pid p hp
  have hgoto : ∀ stage, (stage.isUnpublished = true → s.published p.request.idempotencyKey = none) →
      stage.isFilling = false → (stage.isRunning = true → p.request ∈ s.begun) → ∀ invoked q,
      some { p with stage := stage, invoked := invoked } = some q → AgentOk hash used s pid q := by
    rintro stage hu hf hr invoked _ ⟨⟩
    exact hp'.goto hu hf hr invoked
  cases he with
  | absent hst hnone =>
      -- a published completion would have been found, so none is there
      refine h.frame ⟨rfl, rfl, rfl⟩ rfl (hgoto .makeRun (fun _ => ?_) rfl (by simp [Stage.isRunning]) p.invoked)
      refine Option.eq_none_iff_forall_ne_some.mpr fun c hc => ?_
      exact hnone _ (h.published _ c hc).2.2
  | began hst _ => exact h.began hp hst rfl
  | invoked hst =>
      exact h.frame ⟨rfl, rfl, rfl⟩ rfl (hgoto .operate (fun _ => hp'.unpublished (by rw [hst]; rfl)) rfl
        (fun _ => hp'.running (by rw [hst]; rfl)) true)
  | @cleared result exitCode hst =>
      -- the directory of the attempt is emptied; by the condition nobody has published under that name
      refine h.overwrote hp (hundisturbed.directory _ _ hst) (by simp) ⟨rfl, rfl, rfl⟩ rfl ?_
      exact ⟨hp'.admitted, fun _ => hp'.unpublished (by rw [hst]; rfl), hp'.found, fun hf => absurd hf (by simp [Stage.isFilling]),
        fun _ _ hf => absurd hf (by simp), fun _ => hp'.running (by rw [hst]; rfl), hp'.earlier⟩
  | @made result exitCode hst hnone =>
      -- a fresh directory belongs to no completion
      have hdir : s.published (p.directory pid) = none := by
        refine Option.eq_none_iff_forall_ne_some.mpr fun c hc => ?_
        exact absurd (hnone.symm.trans (h.published _ c hc).2.2) (by simp)
      refine h.overwrote hp hdir (by simp) ⟨rfl, rfl, rfl⟩ rfl ?_
      exact ⟨hp'.admitted, fun _ => hp'.unpublished (by rw [hst]; rfl), hp'.found,
        fun _ => ⟨hdir, fun hn => absurd ((setName_self _ _).symm.trans hn) (by simp)⟩,
        fun _ _ hf => absurd hf (by simp), fun _ => hp'.running (by rw [hst]; rfl), hp'.earlier⟩
  | @filled result exitCode hst =>
      -- what is filled in is the agent's own result, not yet visible under the key
      have hdir := (hp'.filling (by rw [hst]; rfl)).1
      refine h.overwrote hp hdir (fun d hd => by obtain rfl := Option.some.inj (Option.some.inj hd); rfl)
        ⟨rfl, rfl, rfl⟩ rfl ?_
      refine ⟨hp'.admitted, fun _ => hp'.unpublished (by rw [hst]; rfl), hp'.found,
        fun _ => ⟨hdir, fun hn => absurd ((setName_self _ _).symm.trans hn) (by simp)⟩, ?_,
        fun _ => hp'.running (by rw [hst]; rfl), hp'.earlier⟩
      rintro _ _ ⟨⟩
      exact setName_self _ _
  | @swallowed result exitCode hst =>
      -- moved into the completion that is there already, which stays as it is
      refine h.overwrote hp (hp'.filling (by rw [hst]; rfl)).1 (by simp) ⟨rfl, rfl, rfl⟩ rfl ?_
      exact ⟨hp'.admitted, fun hu => absurd hu (by simp [Stage.isUnpublished]), hp'.found,
        fun hf => absurd hf (by simp [Stage.isFilling]), fun _ _ hf => absurd hf (by simp),
        fun _ => hp'.running (by rw [hst]; rfl), hp'.earlier⟩
  | renamed hst hfree => exact h.renamed hlocking hp hst hfree
  | waits => exact h
  | @dropped linked hst =>
      refine h.frame ⟨rfl, rfl, rfl⟩ rfl (hgoto _ ?_ ?_ ?_ p.invoked) <;>
        cases linked <;> simp [Stage.isUnpublished, Stage.isFilling, Stage.isRunning]
  | _ =>
      first
      | exact h.gone ⟨rfl, rfl, rfl⟩ rfl
      | exact h.frame ⟨rfl, rfl, rfl⟩ rfl (hgoto _ (by simp [Stage.isUnpublished]) rfl (by simp [Stage.isRunning]) p.invoked)

theorem Completions.act {a : Action} (h : Completions hash used s) (hlocking : Locking s)
    (hundisturbed : undisturbed used s a) (ha : Acts hash s a t) : Completions hash used t := by
  cases ha with
  | arrived hnone hok =>
      refine h.frame ⟨rfl, rfl, rfl⟩ rfl ?_
      rintro _ ⟨⟩
      exact ⟨⟨hok, hundisturbed⟩, fun hu => absurd hu (by simp [Stage.isUnpublished]), fun _ hc => hc,
        fun hf => absurd hf (by simp [Stage.isFilling]), fun _ _ hf => absurd hf (by simp),
        fun hr => absurd hr (by simp [Stage.isRunning]), fun _ hr => hr⟩
  | @rejected pid _ _ _ => exact h.frame ⟨rfl, rfl, rfl⟩ Processes.update_get.symm fun p hp => h.agents pid p hp
  | moved hp he => exact h.move hlocking hp (hundisturbed _ hp) he
  | timedOut _ _ => exact h.gone ⟨rfl, rfl, rfl⟩ rfl
  | @finished pid p _ _ hp hst =>
      have hp' := h.agents pid p hp
      refine h.frame ⟨rfl, rfl, rfl⟩ rfl ?_
      rintro _ ⟨⟩
      exact hp'.goto (fun _ => hp'.unpublished (by rw [hst]; rfl)) rfl (fun _ => hp'.running (by rw [hst]; rfl)) p.invoked
  | died _ => exact h.gone ⟨rfl, rfl, rfl⟩ rfl

/-- What an agent replays is the published completion of its own request. -/
theorem Completions.replayed (hdistinct : ∀ r r', used r → used r' → hash (fingerprint r) = hash (fingerprint r') →
    fingerprint r = fingerprint r') (h : Completions hash used s) (hp : s.processes pid = some p) {d : ResultDir}
    (hd : s.results p.request.idempotencyKey = some (some d)) (hsha : d.requestSha256 = hash (fingerprint p.request)) :
    ∃ c, s.published p.request.idempotencyKey = some c ∧ c.request = p.request ∧ d.result = c.result ∧
      d.exitCode = c.exitCode := by
  obtain ⟨hadmitted, hused⟩ := (h.agents pid p hp).admitted
  have hsame : ∀ r, opuRunAdmission r = .ok () → used r → d.requestSha256 = hash (fingerprint r) → r = p.request :=
    fun r hr hru hrd => fingerprint_inj hr hadmitted (hdistinct _ _ hru hused (hrd.symm.trans hsha))
  rcases h.alien _ d hd with hpub | ⟨r, hr, hru, hkey, hrd⟩
  · obtain ⟨c, hc⟩ := Option.ne_none_iff_exists'.mp hpub
    obtain ⟨_, hbegun, hresults⟩ := h.published _ c hc
    obtain rfl := Option.some.inj (Option.some.inj (hresults.symm.trans hd))
    obtain ⟨hcadmitted, hcused⟩ := h.begun _ hbegun
    exact ⟨c, hc, hsame _ hcadmitted hcused rfl, rfl, rfl⟩
  · exact absurd (by rw [hsame r hr hru hrd]) hkey

end

end OraclePatching.Agent
