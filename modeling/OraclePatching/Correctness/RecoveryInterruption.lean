import OraclePatching.Recovery.Runs

/-!
# `Correctness.RecoveryInterruption` — a killed recovery preparation can be picked up, except at three kinds of points

`Recoverable` is what an operator needs: every request loads, every lock belongs to a running request, the authorizer
of an authorized request can execute it once its home is free, and the authorizer of a running one can reconcile it
once the recorded process is dead; both end in a terminal state with the lock released. `Stop` lists what a process
leaves, wherever it ends, with the verdict of `safeCut`. A safe stop keeps `Steady`, from which `Recoverable` follows;
any other stop breaks `Recoverable` (`stop_unrecoverable`).
-/

namespace OraclePatching.Recovery

variable {tools : Tools} {s s' : Store} {id : String} {r r' : Record}

/-! ## What an operator needs

A request that was interrupted is to be got to an end state by the commands there are. Recoverable says that of
every request that is authorized or running. -/

/-- The checks of `execute` outside the state directory pass. -/
structure Clears (tools : Tools) (w : World) (r : Record) : Prop where
  inputs : verifyBoundInputs tools w.machine r = .ok ()
  target : resolveSnapshotTarget w.machine r = .ok ()
  window : verifyOpenWindow tools w.machine r = .ok ()
  group : validId (w.machine.primaryGroup r.target.owner) = true
  preflight : ∃ pre, w.preflight r = .ok pre

/-- The request is in a terminal state and its database home is free. -/
def Settled (tools : Tools) (s : Store) (id : String) : Prop :=
  ∃ r, loadRequest tools s id = .ok r ∧ r.state.isTerminal = true ∧ s.locks (lockKey tools r.target) = none

/-- The command is accepted, and its whole run settles the request. -/
def Settles (tools : Tools) (s : Store) (id : String) (command : Ctl (List Write)) : Prop :=
  ∃ ws, command = .ok ws ∧ Settled tools (Trace.perform exec s ws).1 id

structure Recoverable (tools : Tools) (s : Store) : Prop where
  loads : ∀ id file, s.requests id = some file → ∃ r, loadRequest tools s id = .ok r
  locks : ∀ key lock, s.locks key = some lock → ∃ o r, lock = some o ∧ loadRequest tools s o.requestId = .ok r ∧
    r.state = .running ∧ lockKey tools r.target = key
  executes : ∀ id r, loadRequest tools s id = .ok r → r.state = .authorized →
    s.locks (lockKey tools r.target) = none → ∀ w, Clears tools w r →
      Settles tools s id (execute tools w s id (sealedAuthorizer r))
  reconciles : ∀ id r, loadRequest tools s id = .ok r → r.state = .running →
    ∃ pid, s.locks (lockKey tools r.target) = some (some ⟨id, pid⟩) ∧
      ∀ w, (∃ timeout, configureListenerTimeout w.machine r = .ok timeout) → w.alive pid = false →
        Settles tools s id (reconcile tools w s id (sealedAuthorizer r))

/-! ## The invariant

`Steady`: every request file is a sealed record, and a lock stands for a running request only. It is what
`load_request` and the lock of `execute` ask for. -/

/-- What a sealed record keeps. -/
structure Intact (tools : Tools) (s : Store) (id : String) (r : Record) : Prop where
  name : validId id = true
  source : verifySourceRequest tools s id r.toRequestBase = .ok ()
  authorizer : r.state = .authorized ∨ r.state = .running →
    ∃ z, r.authorization = some z ∧ validId z.actor = true

/-- Every request file is sealed, and the locks are those of the running requests. -/
structure Steady (tools : Tools) (s : Store) : Prop where
  requests : ∀ id file, s.requests id = some file → ∃ r, file = sealFile tools r ∧ Intact tools s id r
  holders : ∀ id r, s.requests id = some (sealFile tools r) → r.state = .running →
    ∃ pid, s.locks (lockKey tools r.target) = some (some ⟨id, pid⟩)
  locks : ∀ key lock, s.locks key = some lock → ∃ id pid r, lock = some ⟨id, pid⟩ ∧
    s.requests id = some (sealFile tools r) ∧ r.state = .running ∧ lockKey tools r.target = key

/-- The record can be read off its sealed file. -/
theorem sealFile_inj (h : sealFile tools r = sealFile tools r') : r = r' := by
  unfold sealFile at h
  injection h

/-- A sealed file is one that sealing has made. -/
theorem isSealed_iff {file : RequestFile} : file.isSealed tools = true ↔ ∃ r, file = sealFile tools r := by
  cases file with
  | torn => simp [RequestFile.isSealed, sealFile]
  | document r digest =>
      unfold RequestFile.isSealed sealFile
      rw [decide_eq_true_eq]
      constructor
      · rintro rfl; exact ⟨r, rfl⟩
      · rintro ⟨r', h⟩
        injection h with h1 h2
        rw [h1, h2]

/-- Sealed files are the ones that verify. -/
theorem verifyRecord_ok {file : RequestFile} : verifyRecord tools file = .ok r ↔ file = sealFile tools r := by
  cases file with
  | torn => simp [verifyRecord, sealFile]
  | document r' digest =>
      unfold verifyRecord sealFile
      rw [need_bind_ok]
      simp only [ensure_bind_ok, Except.ok.injEq, RequestFile.document.injEq]
      constructor
      · rintro ⟨expected, rfl, rfl, rfl⟩; exact ⟨rfl, rfl⟩
      · rintro ⟨rfl, rfl⟩; exact ⟨_, rfl, rfl, rfl⟩

theorem loadRequest_ok : loadRequest tools s id = .ok r ↔ validId id = true ∧
    s.requests id = some (sealFile tools r) ∧ verifySourceRequest tools s id r.toRequestBase = .ok () := by
  unfold loadRequest
  rw [ensure_bind_ok, need_bind_ok]
  refine and_congr_right fun _ => ⟨?_, ?_⟩
  · rintro ⟨file, hfile, h⟩
    obtain ⟨r', hr', h⟩ := bind_ok.mp h
    obtain ⟨hsource, h⟩ := check_bind_ok.mp h
    obtain rfl : r' = r := by injection h
    exact ⟨verifyRecord_ok.mp hr' ▸ hfile, hsource⟩
  · rintro ⟨hfile, hsource⟩
    exact ⟨_, hfile, bind_ok.mpr ⟨r, verifyRecord_ok.mpr rfl, check_bind_ok.mpr ⟨hsource, rfl⟩⟩⟩

theorem Steady.load (hs : Steady tools s) (h : s.requests id = some (sealFile tools r)) :
    loadRequest tools s id = .ok r := by
  obtain ⟨r', hr', hintact⟩ := hs.requests id _ h
  obtain rfl := sealFile_inj hr'
  exact loadRequest_ok.mpr ⟨hintact.name, h, hintact.source⟩

theorem Steady.intact (hs : Steady tools s) (h : s.requests id = some (sealFile tools r)) : Intact tools s id r := by
  obtain ⟨r', hr', hintact⟩ := hs.requests id _ h
  exact sealFile_inj hr' ▸ hintact

/-- `verify_source_request` looks at the source file of the request alone. -/
theorem verifySourceRequest_congr {base : RequestBase} (h : s'.sources id = s.sources id) :
    verifySourceRequest tools s' id base = verifySourceRequest tools s id base := by
  unfold verifySourceRequest
  rw [h]

/-- That depends on the source of the request only. -/
theorem Intact.congr (h : Intact tools s id r) (hsource : s'.sources id = s.sources id) : Intact tools s' id r :=
  ⟨h.name, (verifySourceRequest_congr hsource).trans h.source, h.authorizer⟩

/-- A later record of the same request. -/
theorem Intact.later (h : Intact tools s id r) (hcore : r'.toCore = r.toCore)
    (hst : r.state = .authorized ∨ r.state = .running) : Intact tools s id r' := by
  refine ⟨h.name, ?_, fun _ => ?_⟩
  · rw [hcore]; exact h.source
  · rw [hcore]; exact h.authorizer hst

/-! ## Where a process stops

`safeCut` is the condition on a kill: no lock without a record that says so, no record half sealed, and no end
state with the lock still there. -/

/-- What a process on the request `id` leaves, and whether it was killed at a safe point. -/
inductive Stop (tools : Tools) (s : Store) (id : String) : Store → Bool → Prop
  | same : Stop tools s id s true
  | created {r : Record} {source : SourceFile} {s' : Store} : s.requests id = none → r.state = .awaitingApproval →
      s' = { s with sources := setName s.sources id (some source) }.putFile id (sealFile tools r) →
      Intact tools s' id r → Stop tools s id s' true
  | recorded {r r' : Record} : s.requests id = some (sealFile tools r) → r.state ≠ .running → Intact tools s id r' →
      r'.state ≠ .running → Stop tools s id (s.putFile id (sealFile tools r')) true
  | moved {r r' : Record} {lock : Option (Option Owner)} : s.requests id = some (sealFile tools r) →
      r.state = .authorized ∨ r.state = .running → r'.toCore = r.toCore →
      (s.locks (lockKey tools r.target) = none ∨
        ∃ pid, s.locks (lockKey tools r.target) = some (some ⟨id, pid⟩)) →
      (r'.state = .running ∧ (∃ pid, lock = some (some ⟨id, pid⟩)) ∨ r'.state.isTerminal = true ∧ lock = none) →
      Stop tools s id ((s.setLock (lockKey tools r.target) lock).putFile id (sealFile tools r')) true
  | resealing {file : RequestFile} {s' : Store} : s'.requests id = some file → file.isSealed tools = false →
      Stop tools s id s' false
  | held {key : String} {lock : Option Owner} {s' : Store} : s'.locks key = some lock →
      (∀ o r, lock = some o → s'.requests o.requestId = some (sealFile tools r) → r.state ≠ .running) →
      Stop tools s id s' false

/-- A written request file is the new one or one that was there, of another request. -/
theorem Steady.sealed_put (hs : Steady tools s) (hsources : ∀ id', id' ≠ id → s'.sources id' = s.sources id')
    (hrequests : s'.requests = (s.putFile id (sealFile tools r)).requests) (hintact : Intact tools s' id r) :
    ∀ id' file, s'.requests id' = some file → ∃ r, file = sealFile tools r ∧ Intact tools s' id' r := by
  intro id' file hfile
  rw [hrequests] at hfile
  rcases putFile_eq_some.mp hfile with ⟨rfl, rfl⟩ | ⟨hid, hold⟩
  · exact ⟨r, rfl, hintact⟩
  · obtain ⟨r', rfl, hr'⟩ := hs.requests id' file hold
    exact ⟨r', rfl, hr'.congr (hsources id' hid)⟩

/-- A record that is not running takes the place of one that is not. -/
theorem Steady.put (hs : Steady tools s) (hsources : ∀ id', id' ≠ id → s'.sources id' = s.sources id')
    (hrequests : s'.requests = (s.putFile id (sealFile tools r)).requests) (hlocks : s'.locks = s.locks)
    (hintact : Intact tools s' id r) (hrun : r.state ≠ .running)
    (hold : ∀ r₀, s.requests id = some (sealFile tools r₀) → r₀.state ≠ .running) : Steady tools s' := by
  refine ⟨hs.sealed_put hsources hrequests hintact, fun id' r' hfile hrun' => ?_, fun key lock hlock => ?_⟩
  · rw [hrequests] at hfile
    rcases putFile_eq_some.mp hfile with ⟨-, heq⟩ | ⟨-, hfile⟩
    · exact absurd (sealFile_inj heq ▸ hrun') hrun
    · rw [hlocks]; exact hs.holders id' r' hfile hrun'
  · rw [hlocks] at hlock
    obtain ⟨id', pid, r', rfl, hfile, hrun', hkey⟩ := hs.locks key lock hlock
    have hid : id' ≠ id := by
      rintro rfl
      exact hold r' hfile hrun'
    exact ⟨id', pid, r', rfl, by rw [hrequests]; exact putFile_eq_some.mpr (.inr ⟨hid, hfile⟩), hrun', hkey⟩

/-- **Safe stops.** -/
theorem stop_steady (hs : Steady tools s) (h : Stop tools s id s' true) : Steady tools s' := by
  cases h with
  | same => exact hs
  | created hnone hstate hs' hintact =>
      subst hs'
      refine hs.put (fun id' hid => setName_ne _ _ hid) rfl rfl hintact (by rw [hstate]; simp) ?_
      exact fun r₀ hr₀ => absurd (hnone.symm.trans hr₀) (by simp)
  | recorded hr hrun hintact hrun' =>
      refine hs.put (fun _ _ => rfl) rfl rfl (hintact.congr rfl) hrun' fun r₀ hr₀ => ?_
      rw [hr, Option.some.injEq] at hr₀
      exact sealFile_inj hr₀ ▸ hrun
  | @moved r r' lock hr hst hcore hbefore hafter =>
      have hkey' : lockKey tools r'.target = lockKey tools r.target := by rw [hcore]
      refine ⟨hs.sealed_put (fun _ _ => rfl) rfl (((hs.intact hr).later hcore hst).congr rfl),
        fun id' r₁ hfile hrun₁ => ?_, fun key l hlock => ?_⟩
      · rcases putFile_eq_some.mp hfile with ⟨rfl, heq⟩ | ⟨hid, hfile⟩
        · obtain rfl := sealFile_inj heq
          rcases hafter with ⟨-, pid, rfl⟩ | ⟨hterm, -⟩
          · exact ⟨pid, by rw [hkey', putFile_locks, setLock_self]⟩
          · exact absurd hterm (by rw [hrun₁]; simp [RequestState.isTerminal])
        · obtain ⟨pid, hpid⟩ := hs.holders id' r₁ hfile hrun₁
          -- the home of another running request is another home
          have hne : lockKey tools r₁.target ≠ lockKey tools r.target := by
            intro heq
            rw [heq] at hpid
            rcases hbefore with hnone | ⟨pid', hpid'⟩
            · exact absurd (hnone.symm.trans hpid) (by simp)
            · rw [hpid', Option.some.injEq, Option.some.injEq, Owner.mk.injEq] at hpid
              exact hid hpid.1.symm
          exact ⟨pid, (setLock_ne hne).trans hpid⟩
      · rw [putFile_locks] at hlock
        by_cases hk : key = lockKey tools r.target
        · subst hk
          rw [setLock_self] at hlock
          rcases hafter with ⟨hrun', pid, rfl⟩ | ⟨-, rfl⟩
          · exact ⟨id, pid, r', (Option.some.inj hlock).symm, putFile_self, hrun', hkey'⟩
          · exact absurd hlock (by simp)
        · rw [setLock_ne hk] at hlock
          obtain ⟨id', pid, r₁, rfl, hfile, hrun₁, hkey₁⟩ := hs.locks key l hlock
          have hid : id' ≠ id := by
            rintro rfl
            rw [hr, Option.some.injEq] at hfile
            exact hk (hkey₁.symm.trans (by rw [sealFile_inj hfile]))
          exact ⟨id', pid, r₁, rfl, putFile_eq_some.mpr (.inr ⟨hid, hfile⟩), hrun₁, hkey₁⟩

/-- **Other stops.** -/
theorem stop_unrecoverable (h : Stop tools s id s' false) : ¬ Recoverable tools s' := by
  intro hrec
  cases h with
  | resealing hfile hsealed =>
      obtain ⟨r, hr⟩ := hrec.loads id _ hfile
      obtain ⟨-, hfile', -⟩ := loadRequest_ok.mp hr
      rw [hfile, Option.some.injEq] at hfile'
      rw [isSealed_iff.mpr ⟨r, hfile'⟩] at hsealed
      exact absurd hsealed (by simp)
  | held hlock hnot =>
      obtain ⟨o, r, hlock', hr, hrun, -⟩ := hrec.locks _ _ hlock
      exact hnot o r hlock' (loadRequest_ok.mp hr).2.1 hrun

/-! ## The steps of a command

The writes of a command in parts: `Part` are writes of records that keep the core of the request, `Closes` a list
of them that ends in a last state. -/

/-- Steps that leave the locks alone, and write records of one core and of allowed states to one request file. -/
structure Part (id : String) (core : Core) (ok : RequestState → Prop) (ws : List Write) : Prop where
  isLocal : ∀ w ∈ ws, w.isLocal id
  records : ∀ id' r digest, .request id' (.document r digest) ∈ ws → r.toCore = core ∧ ok r.state

section
variable {core : Core} {ok ok' : RequestState → Prop} {ws vs : List Write} {w : World}

theorem Part.append (h : Part id core ok ws) (h' : Part id core ok vs) : Part id core ok (ws ++ vs) := by
  refine ⟨fun w hw => ?_, fun id' r digest hw => ?_⟩
  · rcases List.mem_append.mp hw with hw | hw
    · exact h.isLocal w hw
    · exact h'.isLocal w hw
  · rcases List.mem_append.mp hw with hw | hw
    · exact h.records id' r digest hw
    · exact h'.records id' r digest hw

theorem Part.mono (h : Part id core ok ws) (hok : ∀ st, ok st → ok' st) : Part id core ok' ws :=
  ⟨h.isLocal, fun id' r digest hw => ⟨(h.records id' r digest hw).1, hok _ (h.records id' r digest hw).2⟩⟩

theorem Part.take (h : Part id core ok ws) (k : Nat) : Part id core ok (ws.take k) :=
  ⟨fun w hw => h.isLocal w (List.mem_of_mem_take hw),
    fun id' r digest hw => h.records id' r digest (List.mem_of_mem_take hw)⟩

/-- Acts on the services write nothing. -/
theorem part_acts (as : List Act) : Part id core ok (as.map .act) := by
  refine ⟨fun w hw => ?_, fun id' r digest hw => ?_⟩
  · obtain ⟨a, -, rfl⟩ := List.mem_map.mp hw
    trivial
  · obtain ⟨a, -, heq⟩ := List.mem_map.mp hw
    exact absurd heq (by simp)

/-- An update is a part when its record is of the request. -/
theorem part_updateRequest (hcore : r.toCore = core) (hok : ok r.state) :
    Part id core ok (updateRequest tools id r) := by
  unfold updateRequest
  refine ⟨fun w hw => ?_, fun id' r' digest hw => ?_⟩
  · rcases List.mem_cons.mp hw with rfl | hw
    · trivial
    · simp only [List.mem_cons, List.not_mem_nil, or_false] at hw
      rcases hw with rfl | rfl | rfl | rfl | rfl <;> trivial
  · have hr' : r' = r := by
      simp only [List.mem_cons, List.not_mem_nil, or_false, reduceCtorEq, false_or, Write.request.injEq,
        RequestFile.document.injEq, and_false, sealFile] at hw
      rcases hw with h | h
      · exact h.2.1
      · exact h.2.1
    exact hr' ▸ ⟨hcore, hok⟩

/-- What a part leaves in the request file. -/
theorem Part.last (tools : Tools) (h : Part id core ok ws) {file : RequestFile} (hlast : lastFile ws = some file) :
    file.isSealed tools = false ∨ ∃ r, file = sealFile tools r ∧ r.toCore = core ∧ ok r.state := by
  cases hsealed : file.isSealed tools with
  | false => exact .inl rfl
  | true =>
      obtain ⟨r, rfl⟩ := isSealed_iff.mp hsealed
      obtain ⟨id', hw⟩ := lastFile_mem hlast
      exact .inr ⟨r, rfl, h.records id' r _ hw⟩

/-- The lines of an execution keep the request and its `running` state. -/
theorem runLines_part (ls : List Line) : ∀ p : Progress, p.record.toCore = core → p.record.state = .running →
    Part id core (· = .running) (runLines tools w id p ls).1 ∧
      (runLines tools w id p ls).2.1.record.toCore = core ∧
      (runLines tools w id p ls).2.1.record.state = .running := by
  induction ls with
  | nil =>
      intro p hcore hrun
      exact ⟨part_acts [], hcore, hrun⟩
  | cons l ls ih =>
      intro p hcore hrun
      cases l with
      | mutation => exact ih { p with mutationStarted := true } hcore hrun
      | phase phase =>
          obtain ⟨hpart, hrest⟩ := ih ⟨p.record.setPhase phase, phase, p.mutationStarted⟩ hcore hrun
          have hupdate : Part id core (· = .running) (updateRequest tools id (p.record.setPhase phase)) :=
            part_updateRequest hcore hrun
          exact ⟨hupdate.append hpart, hrest⟩
      | act a =>
          unfold runLines
          split
          · exact ⟨part_acts [a], hcore, hrun⟩
          · obtain ⟨hpart, hrest⟩ := ih p hcore hrun
            exact ⟨(part_acts [a]).append hpart, hrest⟩

theorem failureState_isTerminal (phase : Phase) (restored : Bool) :
    (failureState phase restored).isTerminal = true := by
  cases restored <;> cases phase <;> rfl

/-- Steps that come to their end with a terminal record. -/
def Closes (tools : Tools) (id : String) (core : Core) (ws : List Write) : Prop :=
  Part id core (·.isTerminal = true) ws ∧ ∃ r, lastFile ws = some (sealFile tools r)

theorem closes_updateRequest (as : List Act) (hcore : r.toCore = core) (hterm : r.state.isTerminal = true) :
    Closes tools id core (as.map .act ++ updateRequest tools id r) := by
  refine ⟨(part_acts as).append (part_updateRequest hcore hterm), r, ?_⟩
  rw [lastFile_append, lastFile_update, Option.some_or]

theorem executeExitTrap_closes {listener : Option String} {p : Progress} (hcore : p.record.toCore = core) :
    Closes tools id core (executeExitTrap tools w id listener p) := by
  unfold executeExitTrap
  split
  · exact closes_updateRequest _ hcore (failureState_isTerminal _ _)
  · exact closes_updateRequest [] hcore rfl

/-- What `execute` does under the lock, when the preflight passes. -/
theorem executeHeld_closes {actor : String} {pre : Preflight} (hpre : w.preflight r = .ok pre) :
    Part id r.toCore (fun st => st = .running ∨ st.isTerminal = true) (executeHeld tools w id actor r) ∧
      ∃ r', lastFile (executeHeld tools w id actor r) = some (sealFile tools r') ∧ r'.toCore = r.toCore ∧
        r'.state.isTerminal = true := by
  unfold executeHeld
  rw [hpre]
  dsimp only
  obtain ⟨hlines, hcore, -⟩ := @runLines_part tools id r.toCore w (executeLines pre.listener)
    ⟨runningRecord w r actor pre, .initializing, false⟩ rfl rfl
  generalize runLines tools w id ⟨runningRecord w r actor pre, .initializing, false⟩
    (executeLines pre.listener) = outcome at hlines hcore ⊢
  have hclose : Closes tools id r.toCore
      (if outcome.2.2 then updateRequest tools id { (outcome.2.1.record.setPhase .completed) with state := .completed }
        else executeExitTrap tools w id pre.listener outcome.2.1) := by
    split
    · exact closes_updateRequest [] hcore rfl
    · exact executeExitTrap_closes hcore
  obtain ⟨hpart, r', hlast⟩ := hclose
  have hrunning : Part id r.toCore (· = .running) (updateRequest tools id (runningRecord w r actor pre)) :=
    part_updateRequest rfl rfl
  have hbegin : Part id r.toCore (· = .running)
      (.act .preflight :: updateRequest tools id (runningRecord w r actor pre) ++ outcome.1) :=
    ((part_acts [.preflight]).append hrunning).append hlines
  refine ⟨(hbegin.mono fun _ => .inl).append (hpart.mono fun _ => .inr), r', ?_, ?_⟩
  · rw [lastFile_append, hlast, Option.some_or]
  · obtain ⟨id', hmem⟩ := lastFile_mem hlast
    exact hpart.records id' r' _ hmem

end

/-! ## Killed somewhere

A safe kill lies in front of the first record, behind a running one, or behind the removal of the lock. Each place
leaves a steady store. -/

section
variable {done rest ws M N before : List Write} {file : RequestFile} {pid : Nat} {core : Core} {ok : RequestState → Prop}

theorem safeCut_none (h : lastFile done = none) :
    safeCut tools done rest = !(done.any Write.takesLock && !done.any Write.freesLock) := by
  simp [safeCut, resealing, claiming, releasing, h]

theorem safeCut_unsealed (h : lastFile done = some file) (hfile : file.isSealed tools = false) :
    safeCut tools done rest = false := by
  simp [safeCut, resealing, h, hfile]

theorem safeCut_sealed (h : lastFile done = some (sealFile tools r)) :
    safeCut tools done rest = !(rest.any Write.freesLock && r.state.isTerminal) := by
  have hsealed : (sealFile tools r).isSealed tools = true := isSealed_iff.mpr ⟨r, rfl⟩
  have hterm : (sealFile tools r).isTerminal = r.state.isTerminal := rfl
  simp [safeCut, resealing, claiming, releasing, h, hsealed, hterm]

/-- A lock that names a request which is not running. -/
theorem not_running (pid : Nat) (hr : s.requests id = some (sealFile tools r)) (hst : r.state ≠ .running) :
    ∀ o r, some (⟨id, pid⟩ : Owner) = some o → s.requests o.requestId = some (sealFile tools r) →
      r.state ≠ .running := by
  intro o r₁ ho hr₁
  obtain rfl := Option.some.inj ho
  rw [hr, Option.some.injEq] at hr₁
  exact sealFile_inj hr₁ ▸ hst

/-- `approve` and `authorize` write their record and touch no lock. -/
theorem stop_update (hr : s.requests id = some (sealFile tools r)) (hrun : r.state ≠ .running)
    (hintact : Intact tools s id r') (hrun' : r'.state ≠ .running) (k : Nat) :
    Stop tools s id (Trace.perform exec s ((updateRequest tools id r').take k)).1
      (safeCut tools ((updateRequest tools id r').take k) ((updateRequest tools id r').drop k)) := by
  have hpart : Part id r'.toCore (· = r'.state) (updateRequest tools id r') := part_updateRequest rfl rfl
  have hrest : ((updateRequest tools id r').drop k).any Write.freesLock = false :=
    local_frees fun w hw => hpart.isLocal w (List.mem_of_mem_drop hw)
  have htaken := hpart.take k
  rw [perform_local htaken.isLocal]
  cases hlast : lastFile ((updateRequest tools id r').take k) with
  | none =>
      rw [safeCut_none hlast, local_takes htaken.isLocal]
      exact .same
  | some file =>
      rcases htaken.last tools hlast with hfile | ⟨r₁, rfl, -, -⟩
      · rw [safeCut_unsealed hlast hfile]
        exact .resealing putFile_self hfile
      · obtain ⟨id', hmem⟩ := lastFile_mem hlast
        rw [safeCut_sealed hlast, hrest]
        -- the only sealed record among the steps is the new one
        have hsame : r₁ = r' := by
          have hmem' := List.mem_of_mem_take hmem
          simp only [updateRequest, sealFile, List.mem_cons, List.not_mem_nil, or_false, reduceCtorEq, false_or,
            Write.request.injEq, RequestFile.document.injEq, and_false] at hmem'
          exact hmem'.2.1
        subst hsame
        exact .recorded hr hrun hintact hrun'

/-- The record a process under the lock has written decides what it leaves. -/
theorem stop_under_lock (hr : s.requests id = some (sealFile tools r))
    (hst : r.state = .authorized ∨ r.state = .running)
    (hlock : s.locks (lockKey tools r.target) = none ∨
      ∃ pid, s.locks (lockKey tools r.target) = some (some ⟨id, pid⟩))
    (hpart : Part id r.toCore (fun st => st = .running ∨ st.isTerminal = true) N)
    (hrest : rest.any Write.freesLock = true)
    (hperform : Trace.perform exec s before = (s.setLock (lockKey tools r.target) (some (some ⟨id, pid⟩)), true))
    (hlast : lastFile N = some file) :
    Stop tools s id (Trace.perform exec s (before ++ N)).1 (safeCut tools (before ++ N) rest) := by
  have hfile : lastFile (before ++ N) = some file := by rw [lastFile_append, hlast, Option.some_or]
  rw [Trace.perform_append s before N (by rw [hperform]), hperform, perform_local hpart.isLocal, hlast]
  rcases hpart.last tools hlast with hunsealed | ⟨r', rfl, hcore, hrun | hterm⟩
  · rw [safeCut_unsealed hfile hunsealed]
    exact .resealing putFile_self hunsealed
  · rw [safeCut_sealed hfile, hrest, hrun]
    exact .moved hr hst hcore hlock (.inl ⟨hrun, pid, rfl⟩)
  · rw [safeCut_sealed hfile, hrest, hterm]
    refine .held setLock_self fun o r₁ ho hr₁ hrun => ?_
    -- the lock names a request that is terminal
    obtain rfl := Option.some.inj ho
    have heq : sealFile tools r' = sealFile tools r₁ := Option.some.inj (putFile_self.symm.trans hr₁)
    rw [sealFile_inj heq, hrun] at hterm
    exact absurd hterm (by simp [RequestState.isTerminal])

/-- Under the lock: the last record is left, and the lock is gone. -/
theorem perform_under_lock (hlocal : ∀ w ∈ M, w.isLocal id) {key : String}
    (hperform : Trace.perform exec s before = (s.setLock key (some (some ⟨id, pid⟩)), true))
    (hlast : lastFile M = some (sealFile tools r')) :
    Trace.perform exec s (before ++ M ++ cleanupExecutionLock key) =
      ((s.setLock key none).putFile id (sealFile tools r'), true) := by
  have hM : Trace.perform exec s (before ++ M) =
      ((s.setLock key (some (some ⟨id, pid⟩))).putFile id (sealFile tools r'), true) := by
    rw [Trace.perform_append s before M (by rw [hperform]), hperform, perform_local hlocal, hlast]
    rfl
  rw [Trace.perform_append s _ _ (by rw [hM]), hM, perform_cleanup (by rw [putFile_locks, setLock_self])]
  simp [Store.setLock, Store.putFile]

/-- `cleanup_execution_lock` after a terminal record: safe when it is done. -/
theorem stop_cleanup (hr : s.requests id = some (sealFile tools r))
    (hst : r.state = .authorized ∨ r.state = .running)
    (hlock : s.locks (lockKey tools r.target) = none ∨
      ∃ pid, s.locks (lockKey tools r.target) = some (some ⟨id, pid⟩))
    (hpart : Part id r.toCore (fun st => st = .running ∨ st.isTerminal = true) M)
    (hperform : Trace.perform exec s before = (s.setLock (lockKey tools r.target) (some (some ⟨id, pid⟩)), true))
    (hlast : lastFile M = some (sealFile tools r')) (hcore : r'.toCore = r.toCore)
    (hterm : r'.state.isTerminal = true) (j : Nat) :
    Stop tools s id
      (Trace.perform exec s (before ++ M ++ (cleanupExecutionLock (lockKey tools r.target)).take j)).1
      (safeCut tools (before ++ M ++ (cleanupExecutionLock (lockKey tools r.target)).take j)
        ((cleanupExecutionLock (lockKey tools r.target)).drop j)) := by
  have hM : Trace.perform exec s (before ++ M) =
      ((s.setLock (lockKey tools r.target) (some (some ⟨id, pid⟩))).putFile id (sealFile tools r'), true) := by
    rw [Trace.perform_append s before M (by rw [hperform]), hperform, perform_local hpart.isLocal, hlast]
    rfl
  match j with
  | 0 =>
      -- before the cleanup the terminal record still has the lock under it
      rw [List.take_zero, List.append_nil]
      exact stop_under_lock hr hst hlock hpart rfl hperform hlast
  | 1 =>
      -- the owner is gone and the lock's directory is not
      have hfile : lastFile (before ++ M ++ [.unlinkOwner (lockKey tools r.target)]) = some (sealFile tools r') := by
        rw [lastFile_append, lastFile_append, hlast, Option.some_or]
        rfl
      show Stop tools s id
        (Trace.perform exec s (before ++ M ++ [.unlinkOwner (lockKey tools r.target)])).1
        (safeCut tools (before ++ M ++ [.unlinkOwner (lockKey tools r.target)])
          [.rmdirLock (lockKey tools r.target)])
      rw [safeCut_sealed hfile, hterm, Trace.perform_append s _ _ (by rw [hM]), hM]
      have hfree : (Trace.perform exec ((s.setLock (lockKey tools r.target) (some (some ⟨id, pid⟩))).putFile id
          (sealFile tools r')) [.unlinkOwner (lockKey tools r.target)]).1.locks (lockKey tools r.target) =
            some none := by
        simp [Trace.perform, exec]
      exact .held hfree fun o _ ho => absurd ho (by simp)
  | j + 2 =>
      -- both are gone: the request has moved to its terminal state
      have hfile : lastFile (before ++ M ++ cleanupExecutionLock (lockKey tools r.target)) =
          some (sealFile tools r') := by
        rw [lastFile_append, lastFile_append, hlast, Option.some_or]
        rfl
      have hlen : (cleanupExecutionLock (lockKey tools r.target)).length ≤ j + 2 := Nat.le_add_left 2 j
      rw [List.take_of_length_le hlen, List.drop_of_length_le hlen, safeCut_sealed hfile,
        perform_under_lock hpart.isLocal hperform hlast]
      exact .moved hr hst hcore hlock (.inr ⟨hterm, rfl⟩)

/-- **Execute**, when its preflight passes. -/
theorem stop_execute (hr : s.requests id = some (sealFile tools r)) (hst : r.state = .authorized)
    (hlock : s.locks (lockKey tools r.target) = none)
    (hpart : Part id r.toCore (fun st => st = .running ∨ st.isTerminal = true) M)
    (hlast : lastFile M = some (sealFile tools r')) (hcore : r'.toCore = r.toCore)
    (hterm : r'.state.isTerminal = true)
    (hws : ws = claimLock (lockKey tools r.target) ⟨id, pid⟩ ++ M ++ cleanupExecutionLock (lockKey tools r.target))
    (k : Nat) :
    Stop tools s id (Trace.perform exec s (ws.take k)).1 (safeCut tools (ws.take k) (ws.drop k)) := by
  subst hws
  have hclaim := perform_claimLock (o := ⟨id, pid⟩) hlock
  rcases take_append_cases (claimLock (lockKey tools r.target) ⟨id, pid⟩ ++ M)
    (cleanupExecutionLock (lockKey tools r.target)) k with ⟨j, htake, hdrop⟩ | ⟨j, htake, hdrop⟩
  · have hrest : ∀ us : List Write, (us ++ cleanupExecutionLock (lockKey tools r.target)).any Write.freesLock = true := by
      intro us
      rw [List.any_append, Bool.or_eq_true]
      exact .inr rfl
    rw [htake, hdrop]
    generalize hus : (claimLock (lockKey tools r.target) ⟨id, pid⟩ ++ M).drop j = us
    rcases take_append_cases (claimLock (lockKey tools r.target) ⟨id, pid⟩) M j with ⟨i, htake', -⟩ | ⟨i, htake', -⟩
    · rw [htake']
      -- before there is a record of it, the lock is held for a request that is not running
      match i with
      | 0 =>
          rw [safeCut_none rfl]
          exact .same
      | 1 =>
          rw [safeCut_none rfl]
          exact .same
      | 2 =>
          have hheld : (Trace.perform exec s [.temporary, .mkdirLock (lockKey tools r.target)]).1.locks
              (lockKey tools r.target) = some none := by
            simp [Trace.perform, exec, hlock]
          exact .held hheld fun o _ ho => absurd ho (by simp)
      | i + 3 =>
          rw [List.take_of_length_le (Nat.le_add_left 3 i), safeCut_none rfl, hclaim]
          exact .held setLock_self (not_running pid hr (by simp [hst]))
    · rw [htake']
      have htaken := hpart.take i
      cases hlast' : lastFile (M.take i) with
      | none =>
          have hnone : lastFile (claimLock (lockKey tools r.target) ⟨id, pid⟩ ++ M.take i) = none := by
            rw [lastFile_append, hlast']
            rfl
          rw [safeCut_none hnone, List.any_append, List.any_append, local_frees htaken.isLocal,
            Trace.perform_append s _ _ (by rw [hclaim]), hclaim, perform_local htaken.isLocal, hlast']
          exact .held setLock_self (not_running pid hr (by simp [hst]))
      | some file => exact stop_under_lock hr (.inl hst) (.inl hlock) htaken (hrest us) hclaim hlast'
  · rw [htake, hdrop]
    exact stop_cleanup hr (.inl hst) (.inl hlock) hpart hclaim hlast hcore hterm j

/-- **Reconcile.** -/
theorem stop_reconcile (hr : s.requests id = some (sealFile tools r)) (hst : r.state = .running)
    (hlock : s.locks (lockKey tools r.target) = some (some ⟨id, pid⟩))
    (hpart : Part id r.toCore (·.isTerminal = true) M) (hlast : lastFile M = some (sealFile tools r'))
    (hws : ws = M ++ cleanupExecutionLock (lockKey tools r.target)) (k : Nat) :
    Stop tools s id (Trace.perform exec s (ws.take k)).1 (safeCut tools (ws.take k) (ws.drop k)) := by
  subst hws
  have hheld : Trace.perform exec s [] = (s.setLock (lockKey tools r.target) (some (some ⟨id, pid⟩)), true) := by
    rw [Store.setLock, ← hlock, setName_get]
    rfl
  have hmono : Part id r.toCore (fun st => st = .running ∨ st.isTerminal = true) M := hpart.mono fun _ => .inr
  rcases take_append_cases M (cleanupExecutionLock (lockKey tools r.target)) k with
    ⟨j, htake, hdrop⟩ | ⟨j, htake, hdrop⟩
  · rw [htake, hdrop]
    have htaken := hmono.take j
    cases hlast' : lastFile (M.take j) with
    | none =>
        rw [safeCut_none hlast', local_takes htaken.isLocal, perform_local htaken.isLocal, hlast']
        exact .same
    | some file =>
        refine stop_under_lock hr (.inr hst) (.inr ⟨pid, hlock⟩) htaken ?_ hheld hlast'
        rw [List.any_append, Bool.or_eq_true]
        exact .inr rfl
  · rw [htake, hdrop]
    obtain ⟨id', hmem⟩ := lastFile_mem hlast
    obtain ⟨hcore, hterm⟩ := hpart.records id' r' _ hmem
    exact stop_cleanup hr (.inr hst) (.inr ⟨pid, hlock⟩) hmono hheld hlast hcore hterm j

/-- `execute` whose preflight refuses: the lock is released and nothing is written. -/
theorem stop_refused (hr : s.requests id = some (sealFile tools r)) (hst : r.state = .authorized) {key : String}
    (hlock : s.locks key = none)
    (hws : ws = claimLock key ⟨id, pid⟩ ++ [Write.act .preflight] ++ cleanupExecutionLock key) (k : Nat) :
    Stop tools s id (Trace.perform exec s (ws.take k)).1 (safeCut tools (ws.take k) (ws.drop k)) := by
  subst hws
  have hnot := not_running pid hr (by simp [hst])
  have hempty : ∀ o r, (none : Option Owner) = some o → s.requests o.requestId = some (sealFile tools r) →
      r.state ≠ .running := fun o _ ho => absurd ho (by simp)
  have hperform : ∀ k, (Trace.perform exec s ((claimLock key ⟨id, pid⟩ ++ [Write.act .preflight] ++
      cleanupExecutionLock key).take k)).1 =
        match k with
        | 0 | 1 => s
        | 2 | 5 => s.setLock key (some none)
        | 3 | 4 => s.setLock key (some (some ⟨id, pid⟩))
        | _ => s.setLock key none := by
    intro k
    match k with
    | 0 | 1 | 2 | 3 | 4 | 5 | k + 6 => simp [claimLock, cleanupExecutionLock, Trace.perform, exec, hlock]
  rw [hperform k]
  -- the lock is made, owned, and given back in two steps
  match k with
  | 0 => exact .same
  | 1 => exact .same
  | 2 => exact .held setLock_self hempty
  | 3 => exact .held setLock_self hnot
  | 4 => exact .held setLock_self hnot
  | 5 => exact .held setLock_self hempty
  | k + 6 =>
      have hsame : s.setLock key none = s := by rw [Store.setLock, ← hlock, setName_get]
      rw [List.take_of_length_le (Nat.le_add_left 6 k)]
      show Stop tools s id (s.setLock key none) _
      rw [hsame, safeCut_none rfl]
      exact .same

end

/-! ## Every command -/

section
variable {w : World} {actor : String} {ws : List Write}

theorem approve_ok {ticket : String} (h : approve tools w s id actor ticket = .ok ws) :
    ∃ r, loadRequest tools s id = .ok r ∧ r.state = .awaitingApproval ∧
      ws = updateRequest tools id (approvedRecord w r actor ticket) := by
  unfold approve at h
  obtain ⟨r, hload, h⟩ := bind_ok.mp h
  simp only [check_bind_ok, ensure_ok, Except.ok.injEq] at h
  obtain ⟨-, -, hstate, -, -, -, rfl⟩ := h
  exact ⟨r, hload, hstate, rfl⟩

theorem authorize_ok (h : authorize tools w s id actor = .ok ws) :
    ∃ r, loadRequest tools s id = .ok r ∧ r.state = .approved ∧ validId actor = true ∧
      ws = updateRequest tools id (authorizedRecord w r actor) := by
  unfold authorize at h
  obtain ⟨r, hload, h⟩ := bind_ok.mp h
  simp only [check_bind_ok, ensure_ok, Except.ok.injEq] at h
  obtain ⟨hactor, hstate, -, -, -, -, rfl⟩ := h
  exact ⟨r, hload, hstate, hactor, rfl⟩

/-- An accepted execution has nothing to do, or takes the lock of its home. -/
theorem execute_ok : execute tools w s id actor = .ok ws ↔
    ∃ r, loadRequest tools s id = .ok r ∧ validId actor = true ∧
      (r.state = .completed ∧ ws = [] ∨
        r.state = .authorized ∧ actor = sealedAuthorizer r ∧ verifyBoundInputs tools w.machine r = .ok () ∧
          resolveSnapshotTarget w.machine r = .ok () ∧ verifyOpenWindow tools w.machine r = .ok () ∧
          validId (w.machine.primaryGroup r.target.owner) = true ∧ s.locks (lockKey tools r.target) = none ∧
          ws = claimLock (lockKey tools r.target) ⟨id, w.pid⟩ ++ executeHeld tools w id actor r ++
            cleanupExecutionLock (lockKey tools r.target)) := by
  unfold execute
  rw [bind_ok]
  refine exists_congr fun r => and_congr_right fun _ => ?_
  rw [ensure_bind_ok]
  refine and_congr_right fun _ => ?_
  by_cases hst : r.state = .completed
  · rw [if_pos hst, hst, Except.ok.injEq]
    constructor
    · exact fun h => .inl ⟨rfl, h.symm⟩
    · rintro (⟨-, h⟩ | ⟨h, -⟩)
      · exact h.symm
      · exact absurd h (by simp)
  · rw [if_neg hst]
    simp only [check_bind_ok, ensure_ok, Except.ok.injEq, Option.isNone_iff_eq_none]
    constructor
    · rintro ⟨h1, h2, h3, h4, h5, h6, h7, h8⟩
      exact .inr ⟨h1, h2, h3, h4, h5, h6, h7, h8.symm⟩
    · rintro (⟨h, -⟩ | ⟨h1, h2, h3, h4, h5, h6, h7, h8⟩)
      · exact absurd h hst
      · exact ⟨h1, h2, h3, h4, h5, h6, h7, h8.symm⟩

/-- An accepted reconciliation holds a running request whose recorded process is dead. -/
theorem reconcile_ok : reconcile tools w s id actor = .ok ws ↔
    ∃ r, loadRequest tools s id = .ok r ∧ validId actor = true ∧ r.state = .running ∧ actor = sealedAuthorizer r ∧
      ∃ timeout, configureListenerTimeout w.machine r = .ok timeout ∧
      ∃ o, s.locks (lockKey tools r.target) = some (some o) ∧ w.alive o.pid = false ∧
        reconcileHeld tools w id actor r ++ cleanupExecutionLock (lockKey tools r.target) = ws := by
  unfold reconcile
  rw [bind_ok]
  refine exists_congr fun r => and_congr_right fun _ => ?_
  rw [ensure_bind_ok, ensure_bind_ok, ensure_bind_ok, bind_ok]
  refine and_congr_right fun _ => and_congr_right fun _ => and_congr_right fun _ =>
    exists_congr fun timeout => and_congr_right fun _ => ?_
  simp only [need_bind_ok, ensure_bind_ok, Except.ok.injEq, Option.join_eq_some_iff]

theorem reconcileHeld_closes : Closes tools id r.toCore (reconcileHeld tools w id actor r) := by
  refine closes_updateRequest _ rfl ?_
  unfold reconciledRecord
  generalize (restoreServicesAfterFailure w (r.execution.bind (·.listener))).2 = restored
  cases restored <;> rfl

/-- A new request is sealed and awaits its approval. -/
theorem create_stop {requester snapshotPath policyPath database backupParent opens closes : String}
    (h : create tools w s id requester snapshotPath policyPath database backupParent opens closes = .ok ws) :
    Stop tools s id (Trace.perform exec s ws).1 true := by
  unfold create at h
  simp only [check_bind_ok, ensure_ok, need_bind_ok] at h
  obtain ⟨hname, -, -, -, -, -, snapshot, -, policy, -, parent, -, -, -, -, -, h⟩ := h
  obtain ⟨target, -, h⟩ := bind_ok.mp h
  simp only [check_bind_ok, ensure_ok, Except.ok.injEq, Option.isNone_iff_eq_none] at h
  obtain ⟨-, -, hnone, rfl⟩ := h
  refine .created hnone rfl rfl ⟨hname, ?_, fun hst => absurd hst (by simp)⟩
  unfold verifySourceRequest
  simp [Trace.perform, exec, sealSource, ensure, need, bind, Except.bind]

/-- **Every command but `create`, killed anywhere.** -/
theorem script_stop {i : Invocation} (hs : Steady tools s) (h : script tools s i = .ok ws)
    (hcreate : i.command.isCreate = false) (k : Nat) :
    Stop tools s i.id (Trace.perform exec s (ws.take k)).1 (safeCut tools (ws.take k) (ws.drop k)) := by
  obtain ⟨id, command, w, killed⟩ := i
  dsimp only at h hcreate ⊢
  cases command with
  | create => exact absurd hcreate (by simp [Command.isCreate])
  | approve actor ticket =>
      obtain ⟨r, hload, hstate, rfl⟩ := approve_ok h
      obtain ⟨hname, hr, hsource⟩ := loadRequest_ok.mp hload
      have hintact : Intact tools s id (approvedRecord w r actor ticket) :=
        ⟨hname, hsource, fun hst => absurd hst (by simp [approvedRecord])⟩
      exact stop_update hr (by simp [hstate]) hintact (by simp [approvedRecord]) k
  | authorize actor =>
      obtain ⟨r, hload, hstate, hactor, rfl⟩ := authorize_ok h
      obtain ⟨hname, hr, hsource⟩ := loadRequest_ok.mp hload
      have hintact : Intact tools s id (authorizedRecord w r actor) :=
        ⟨hname, hsource, fun _ => ⟨_, rfl, hactor⟩⟩
      exact stop_update hr (by simp [hstate]) hintact (by simp [authorizedRecord]) k
  | execute actor =>
      obtain ⟨r, hload, -, hdone | ⟨hstate, -, -, -, -, -, hlock, hws⟩⟩ := execute_ok.mp h
      · rw [hdone.2, List.take_nil, List.drop_nil, safeCut_none rfl]
        exact .same
      -- the worker takes the lock; its preflight passes or refuses
      · have hr := (loadRequest_ok.mp hload).2.1
        cases hpre : w.preflight r with
        | ok pre =>
            obtain ⟨hpart, r', hlast, hcore, hterm⟩ := @executeHeld_closes tools id r w actor pre hpre
            exact stop_execute hr hstate hlock hpart hlast hcore hterm hws k
        | error e =>
            have hheld : executeHeld tools w id actor r = [Write.act .preflight] := by
              unfold executeHeld
              rw [hpre]
            rw [hheld] at hws
            exact stop_refused hr hstate hlock hws k
  | reconcile actor =>
      -- the lock of a running request is still held by the worker that was interrupted
      obtain ⟨r, hload, -, hstate, -, timeout, -, o, hlock, -, hws⟩ := reconcile_ok.mp h
      have hr := (loadRequest_ok.mp hload).2.1
      obtain ⟨pid, hpid⟩ := hs.holders id r hr hstate
      obtain ⟨hpart, r', hlast⟩ := @reconcileHeld_closes tools id r w actor
      exact stop_reconcile hr hstate hpid hpart hlast hws.symm k

end

/-! ## From the invariant to recovery -/

/-- A closing script settles its request. -/
theorem settled_of_perform {ws : List Write} (hs : Steady tools s) (hr : s.requests id = some (sealFile tools r))
    (hst : r.state = .authorized ∨ r.state = .running) (hcore : r'.toCore = r.toCore)
    (hterm : r'.state.isTerminal = true) (hperform : Trace.perform exec s ws =
      ((s.setLock (lockKey tools r.target) none).putFile id (sealFile tools r'), true)) :
    Settled tools (Trace.perform exec s ws).1 id := by
  have hintact := (hs.intact hr).later hcore hst
  rw [hperform]
  refine ⟨r', loadRequest_ok.mpr ⟨hintact.name, putFile_self, ?_⟩, hterm, ?_⟩
  · exact (verifySourceRequest_congr rfl).trans hintact.source
  · rw [hcore, putFile_locks, setLock_self]

/-- The sealed authorizer is a valid actor. -/
theorem Intact.authorizer_valid (h : Intact tools s id r) (hst : r.state = .authorized ∨ r.state = .running) :
    validId (sealedAuthorizer r) = true := by
  obtain ⟨z, hz, hvalid⟩ := h.authorizer hst
  rw [sealedAuthorizer, hz]
  exact hvalid

/-- **A steady store is recoverable.** -/
theorem steady_recoverable (hs : Steady tools s) : Recoverable tools s := by
  refine ⟨fun id file hfile => ?_, fun key lock hlock => ?_, fun id r hload hst hfree w hclear => ?_,
    fun id r hload hst => ?_⟩
  · obtain ⟨r, rfl, -⟩ := hs.requests id file hfile
    exact ⟨r, hs.load hfile⟩
  · obtain ⟨id, pid, r, rfl, hfile, hrun, hkey⟩ := hs.locks key lock hlock
    exact ⟨⟨id, pid⟩, r, rfl, hs.load hfile, hrun, hkey⟩
  · have hr := (loadRequest_ok.mp hload).2.1
    have hactor := (hs.intact hr).authorizer_valid (.inl hst)
    obtain ⟨pre, hpre⟩ := hclear.preflight
    obtain ⟨hpart, r', hlast, hcore, hterm⟩ := @executeHeld_closes tools id r w (sealedAuthorizer r) pre hpre
    refine ⟨_, execute_ok.mpr ⟨r, hload, hactor, .inr ⟨hst, rfl, hclear.inputs, hclear.target, hclear.window,
      hclear.group, hfree, rfl⟩⟩, ?_⟩
    exact settled_of_perform hs hr (.inl hst) hcore hterm
      (perform_under_lock hpart.isLocal (perform_claimLock hfree) hlast)
  · have hr := (loadRequest_ok.mp hload).2.1
    have hactor := (hs.intact hr).authorizer_valid (.inr hst)
    obtain ⟨pid, hlock⟩ := hs.holders id r hr hst
    refine ⟨pid, hlock, fun w htimeout hdead => ?_⟩
    obtain ⟨timeout, htimeout⟩ := htimeout
    obtain ⟨hpart, r', hlast⟩ := @reconcileHeld_closes tools id r w (sealedAuthorizer r)
    obtain ⟨id', hmem⟩ := lastFile_mem hlast
    obtain ⟨hcore, hterm⟩ := hpart.records id' r' _ hmem
    refine ⟨_, reconcile_ok.mpr ⟨r, hload, hactor, hst, rfl, timeout, htimeout, ⟨id, pid⟩, hlock, hdead, rfl⟩, ?_⟩
    have hheld : Trace.perform exec s [] = (s.setLock (lockKey tools r.target) (some (some ⟨id, pid⟩)), true) := by
      rw [Store.setLock, ← hlock, setName_get]
      rfl
    exact settled_of_perform hs hr (.inr hst) hcore hterm (perform_under_lock hpart.isLocal hheld hlast)

/-! ## Runs -/

/-- A kill divides the writes in two. -/
theorem cut_eq (i : Invocation) (ws : List Write) : ∃ k, i.cut ws = (ws.take k, ws.drop k) := by
  unfold Invocation.cut
  cases i.killedAfter with
  | none => exact ⟨ws.length, by rw [List.take_length, List.drop_length]⟩
  | some k => exact ⟨k, rfl⟩

/-- What a command but `create` leaves, with the verdict on the point it was killed at. -/
theorem after_stop {i : Invocation} {ws : List Write} (hs : Steady tools s) (h : script tools s i = .ok ws)
    (hcreate : i.command.isCreate = false) : Stop tools s i.id (after tools s i) (i.isSafe tools ws) := by
  obtain ⟨k, hcut⟩ := cut_eq i ws
  have hstop := script_stop hs h hcreate k
  have hafter : after tools s i = (Trace.perform exec s (ws.take k)).1 := by
    unfold after
    rw [h]
    dsimp only
    rw [hcut]
  have hsafe : i.isSafe tools ws = safeCut tools (ws.take k) (ws.drop k) := by
    unfold Invocation.isSafe
    rw [hcut]
    split
    · rename_i hcommand
      rw [hcommand] at hcreate
      exact absurd hcreate (by simp [Command.isCreate])
    · rfl
  rw [hafter, hsafe]
  exact hstop

/-- **Every run of safe steps is steady.** -/
theorem steady_reached {as : List Invocation} (h : Reached tools (safeStep tools) as s) : Steady tools s := by
  refine Trace.Run.invariant (I := fun _ s => Steady tools s) ?_ ?_ h
  · rintro _ rfl
    exact ⟨fun _ _ h => absurd h (by simp [Store.empty]), fun _ _ h => absurd h (by simp [Store.empty]),
      fun _ _ h => absurd h (by simp [Store.empty])⟩
  · intro _ s i s' _ hs hsafe hstep
    obtain rfl := Option.some.inj hstep
    cases hscript : script tools s i with
    | error e =>
        have hsame : after tools s i = s := by
          unfold after
          rw [hscript]
        rw [hsame]
        exact hs
    | ok ws =>
        have hsafe := hsafe ws hscript
        cases hcreate : i.command.isCreate with
        | false => exact stop_steady hs (hsafe ▸ after_stop hs hscript hcreate)
        | true =>
            obtain ⟨id, command, w, killed⟩ := i
            cases command with
            | create =>
                obtain rfl : killed = none := by simpa [Invocation.isSafe] using hsafe
                have hstop := stop_steady hs (create_stop hscript)
                unfold after
                rw [hscript]
                exact hstop
            | _ => exact absurd hcreate (by simp [Command.isCreate])

/-- **Recovery preparations.** In every run in which no process is killed between the replacement of a record and its
    sealing, nor with the home lock taken and nothing on record, nor with the lock still there and the terminal record
    written, every request loads, every lock belongs to a running request, and the sealed authorizer can execute or
    reconcile to a terminal state with the lock released. A process that is killed at one of these points breaks
    this. -/
theorem recovery_interruption {as : List Invocation} (h : Reached tools (safeStep tools) as s) :
    Recoverable tools s ∧ ∀ i ws, script tools s i = .ok ws → i.command.isCreate = false →
      i.isSafe tools ws = false → ¬ Recoverable tools (after tools s i) := by
  have hs := steady_reached h
  refine ⟨steady_recoverable hs, fun i ws hscript hcreate hsafe => ?_⟩
  exact stop_unrecoverable (hsafe ▸ after_stop hs hscript hcreate)

/-! ## One request -/

section Lab

def labDigest (n : Nat) : Digest := ⟨n % Nat.pow 16 64, Nat.mod_lt _ (by decide)⟩

/-- Three times of one day. -/
def labEpoch (text : String) : Option Int :=
  if text = "2026-03-01T00:00:00Z" then some 0
  else if text = "2026-03-01T01:00:00Z" then some 3600
  else if text = "2026-03-01T06:00:00Z" then some 21600
  else none

def labTools : Tools where
  stateRoot := "/var/lib/opu"
  sha256sum := fun text => text
  recordDigest := fun r => labDigest r.requestId.length
  inputDigest := fun input => labDigest input.requester.length
  sourceFileDigest := fun file => labDigest file.input.createdAt.length
  epoch := labEpoch

def labSnapshot : Snapshot where
  sha256 := labDigest 1
  topologyContract := true
  standalone := true
  collectedAt := "2026-03-01T00:00:00Z"
  databases := [⟨"ORCL", "/u01/db", "complete", "PRIMARY", "READ WRITE", "OPEN", "ORCL1"⟩]
  oracleHomes := [⟨"/u01/db", "oracle"⟩]

def labMachine : Machine where
  now := 3600
  nowUtc := "2026-03-01T01:00:00Z"
  snapshots := fun path => if path = "/s.json" then some labSnapshot else none
  policies := fun path => if path = "/p.json" then some ⟨labDigest 2, true, some 7200, none⟩ else none
  canonicalDir := some
  isLink := fun _ => false
  ownerOf := fun _ => "oracle"
  primaryGroup := fun _ => "dba"
  present := fun _ => false

/-- The backup fails, the services come back. -/
def labWorld : World where
  machine := labMachine
  pid := 4711
  alive := fun _ => false
  preflight := fun _ => .ok ⟨some "LISTENER", 100, 200⟩
  fails := fun a => a = .rmanBackup
  exitCode := 1
  restoration := ⟨true, true, false, true, true, true, true⟩

def labStep (command : Command) (killedAfter : Option Nat) : Invocation := ⟨"prep-1", command, labWorld, killedAfter⟩

def labCreate : Invocation :=
  labStep (.create "rita" "/s.json" "/p.json" "ORCL" "/backup" "2026-03-01T01:00:00Z" "2026-03-01T06:00:00Z") none

def labApprove : Invocation := labStep (.approve "anna" "CHG-1") none
def labAuthorize : Invocation := labStep (.authorize "olga") none

/-- The checks of `safeStep`, computed. -/
def isSafeStep (tools : Tools) (s : Store) (i : Invocation) : Bool :=
  match script tools s i with
  | .error _ => true
  | .ok ws => i.isSafe tools ws

/-- The check decides whether a step is safe. -/
theorem safeStep_of_check {i : Invocation} (h : isSafeStep tools s i = true) : safeStep tools s i := by
  intro ws hws
  unfold isSafeStep at h
  rw [hws] at h
  exact h

def labCreated : Store := after labTools Store.empty labCreate
def labApproved : Store := after labTools labCreated labApprove
def labAuthorized : Store := after labTools labApproved labAuthorize

/-- The execution is killed while the database is down. -/
def labRunning : Store := after labTools labAuthorized (labStep (.execute "olga") (some 48))

/-- The request is created, approved and authorized. -/
theorem labAuthorized_reached {allowed : Store → Invocation → Prop}
    (hall : ∀ s i, safeStep labTools s i → allowed s i) :
    Reached labTools allowed [labCreate, labApprove, labAuthorize] labAuthorized := by
  have hcreate : safeStep labTools Store.empty labCreate := safeStep_of_check (by decide +kernel)
  have happrove : safeStep labTools labCreated labApprove := safeStep_of_check (by decide +kernel)
  have hauthorize : safeStep labTools labApproved labAuthorize := safeStep_of_check (by decide +kernel)
  exact ((reached_nil.snoc (hall _ _ hcreate)).snoc (hall _ _ happrove)).snoc (hall _ _ hauthorize)

/-- An execution killed before the backup leaves a request that can be reconciled. -/
theorem recovery_interruption_running : ∃ as s, Reached labTools (safeStep labTools) as s ∧
    (∃ r, loadRequest labTools s "prep-1" = .ok r ∧ r.state = .running) ∧ Recoverable labTools s := by
  have hexecute : safeStep labTools labAuthorized (labStep (.execute "olga") (some 48)) :=
    safeStep_of_check (by decide +kernel)
  have hreached : Reached labTools (safeStep labTools)
      ([labCreate, labApprove, labAuthorize] ++ [labStep (.execute "olga") (some 48)]) labRunning :=
    (labAuthorized_reached fun _ _ h => h).snoc hexecute
  have hrunning : ((loadRequest labTools labRunning "prep-1").toOption.map (·.state)) = some .running := by
    decide +kernel
  refine ⟨_, labRunning, hreached, ?_, (recovery_interruption hreached).1⟩
  cases hload : loadRequest labTools labRunning "prep-1" with
  | error e => rw [hload] at hrunning; exact absurd hrunning (by simp [Except.toOption])
  | ok r => rw [hload] at hrunning; exact ⟨r, rfl, Option.some.inj hrunning⟩

/-! ## Requests nobody can pick up -/

/-- An authorized request whose home is locked is refused by both recovery operations. -/
theorem claimed_stuck (hload : loadRequest tools s id = .ok r) (hst : r.state = .authorized)
    (hlock : (s.locks (lockKey tools r.target)).isSome = true) (w : World) (actor : String) :
    Accepted (execute tools w s id actor) = false ∧ Accepted (reconcile tools w s id actor) = false := by
  constructor
  · rw [← Bool.not_eq_true, accepted_iff]
    rintro ⟨ws, h⟩
    obtain ⟨r', hload', -, ⟨hdone, -⟩ | ⟨-, -, -, -, -, -, hfree, -⟩⟩ := execute_ok.mp h
    · obtain rfl : r = r' := by rw [hload] at hload'; injection hload'
      rw [hst] at hdone
      exact absurd hdone (by simp)
    · obtain rfl : r = r' := by rw [hload] at hload'; injection hload'
      rw [hfree] at hlock
      exact absurd hlock (by simp)
  · rw [← Bool.not_eq_true, accepted_iff]
    rintro ⟨ws, h⟩
    obtain ⟨r', hload', -, hrun, -⟩ := reconcile_ok.mp h
    obtain rfl : r = r' := by rw [hload] at hload'; injection hload'
    rw [hst] at hrun
    exact absurd hrun (by simp)

/-- An approval killed between the rename and the new digest leaves a record that does not load; an execution killed
    with the lock taken and the record still `authorized` leaves a request that neither operation accepts. -/
theorem interrupted_requests_stuck :
    (∃ s, Reached labTools (fun _ _ => True) [labCreate, labStep (.approve "anna" "CHG-1") (some 2)] s ∧
      (s.requests "prep-1").isSome = true ∧ Accepted (loadRequest labTools s "prep-1") = false) ∧
    ∃ s r, Reached labTools (fun _ _ => True)
      ([labCreate, labApprove, labAuthorize] ++ [labStep (.execute "olga") (some 3)]) s ∧
      loadRequest labTools s "prep-1" = .ok r ∧ r.state = .authorized ∧
      ∀ w actor, Accepted (execute labTools w s "prep-1" actor) = false ∧
        Accepted (reconcile labTools w s "prep-1" actor) = false := by
  constructor
  · refine ⟨after labTools labCreated (labStep (.approve "anna" "CHG-1") (some 2)), ?_, ?_, ?_⟩
    · exact (reached_nil.snoc trivial).snoc trivial
    · decide +kernel
    · decide +kernel
  · have hstate : ((loadRequest labTools (after labTools labAuthorized (labStep (.execute "olga") (some 3)))
        "prep-1").toOption.map fun r => (r.state, r.target)) = some (.authorized, ⟨"ORCL", "/u01/db", "oracle", "ORCL1"⟩) := by
      decide +kernel
    have hlock : ((after labTools labAuthorized (labStep (.execute "olga") (some 3))).locks "/u01/db|ORCL").isSome = true := by
      decide +kernel
    generalize hs : after labTools labAuthorized (labStep (.execute "olga") (some 3)) = s at hstate hlock
    cases hload : loadRequest labTools s "prep-1" with
    | error e => rw [hload] at hstate; exact absurd hstate (by simp [Except.toOption])
    | ok r =>
        rw [hload] at hstate
        obtain ⟨hst, htarget⟩ := Prod.mk.inj (Option.some.inj hstate)
        refine ⟨s, r, hs ▸ (labAuthorized_reached fun _ _ _ => trivial).snoc trivial, hload, hst, ?_⟩
        exact claimed_stuck hload hst (by rw [htarget]; exact hlock)

end Lab

end OraclePatching.Recovery
