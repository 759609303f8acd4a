import OraclePatching.Controller.Interleaving
import OraclePatching.Controller.Effects
import OraclePatching.Controller.Replay

/-!
# `Correctness.ReservationExclusion` — no two unfinished plans share a host

A plan reserves its hosts before it becomes `running` and releases them after it has `succeeded`; in between there
are the task directory, the state file and any number of writes of other controllers. `Sound` says what the rest of a
script may do, given the state of its plan and whether the plan is known to own its hosts. `Held` is the invariant of
one plan: what it owns, what the registry says of it, and a sound rest. The writes of other plans leave the entries
of a plan alone, so the ownership rule of `Lib.Interleave` gives `Held` in every interleaving.
-/

namespace OraclePatching

/-! ## States -/

/-- The plans whose work on the hosts is not over. -/
def PlanState.unfinished : PlanState → Bool
  | .running | .paused => true
  | _ => false

/-- The plans that may have an entry in the registry. -/
def PlanState.reserving : PlanState → Bool
  | .executionAuthorized | .running | .paused | .succeeded => true
  | _ => false

/-- The plan owns each of its hosts. -/
def OwnsHosts (s : Store) (id : String) (d : PlanDir) : Prop :=
  ∀ host ∈ shortHosts d.plan.nodes, s.registry host = some (d.reservation id)

/-- The entries of `id` are there for a plan in a state to have them, under its digest and on its own hosts. -/
def Entered (s : Store) (id : String) (d : PlanDir) : Prop :=
  ∀ host r, s.registry host = some r → r.planId = id →
    r = d.reservation id ∧ host ∈ shortHosts d.plan.nodes ∧ d.state.reserving = true

/-! ## What the rest of a script may do

The writes that are still to come are restricted by what the plan has reached: reserve before the tasks, release
after the end. -/

/-- `owns` is what is known of the hosts, `st` the state of the plan. A refused write ends the script, so what
    follows a state rename matters only when the plan is in the state it expects. -/
def Sound : Bool → PlanState → List Write → Prop
  | _, _, [] => True
  | _, _, .plan _ :: _ => True
  | _, st, .reserve :: ws => st = .executionAuthorized ∧ Sound true st ws
  | _, st, .release :: ws => st.unfinished = false ∧ Sound false st ws
  | owns, st, .state expected next :: ws =>
      st = expected → (next.unfinished = true → owns = true) ∧ (st.reserving = true → next.reserving = true) ∧
        Sound owns next ws
  | owns, st, .approval _ :: ws | owns, st, .authorization _ :: ws | owns, st, .manifest _ :: ws
  | owns, st, .receipt _ :: ws | owns, st, .tasks _ :: ws | owns, st, .task _ :: ws | owns, st, .custody _ _ :: ws
  | owns, st, .attempt _ _ _ :: ws | owns, st, .event _ :: ws => Sound owns st ws

/-- The invariant of a plan and the rest `ws` of its script. -/
inductive Held (id : String) (s : Store) (ws : List Write) : Prop
  | absent : s.plans.lookup id = none → (∀ host r, s.registry host = some r → r.planId ≠ id) →
      (ws = [] ∨ ∃ d, ws = [.plan d] ∧ d.state = .awaitingApproval) → Held id s ws
  | present (d : PlanDir) (owns : Bool) : s.plans.lookup id = some d → (owns = true → OwnsHosts s id d) →
      (d.state.unfinished = true → owns = true) → Entered s id d → Sound owns d.state ws → Held id s ws

/-! ## Scripts are sound -/

section
variable {cfg : Config} {s : Store} {i : Invocation} {sc : Script}

/-- The end of a completion releases at most. -/
theorem afterCompletion_sound {w : World} {id taskId actor : String} {d : PlanDir} {status : TaskStatus} {late : Bool} :
    Sound true .running (afterCompletion cfg w id d taskId actor status late).writes := by
  unfold afterCompletion
  dsimp only
  split_ifs <;> simp [transition, Sound, PlanState.unfinished, PlanState.reserving]

/-- A dispatch reserves, and then makes the plan ready. -/
theorem dispatchScript_sound {w : World} {id actor : String} {d : PlanDir} {ts : List Task} :
    Sound false .executionAuthorized (dispatchScript cfg w id d actor ts).writes := by
  unfold dispatchScript
  dsimp only
  split_ifs <;> simp [transition, Sound, PlanState.unfinished, PlanState.reserving]

/-- What an accepted command on a plan that exists goes on to write is sound. -/
theorem script_sound (h : script cfg s i = .ok sc) {d : PlanDir} (hd : s.plans.lookup i.id = some d) :
    Sound d.state.unfinished d.state sc.writes := by
  have hsame : ∀ {e : PlanDir}, verifyPlan cfg s i.id = .ok e → e = d := fun he =>
    Option.some.inj ((verifyPlan_ok.mp he).1.symm.trans hd)
  cases hcmd : i.command <;> simp only [script, hcmd] at h
  case create =>
    obtain ⟨_, _, hacc⟩ := create_ok h
    exact absurd (hd.symm.trans hacc.fresh) (by simp)
  case createRollback =>
    obtain ⟨_, _, _, hacc⟩ := createRollback_ok h
    exact absurd (hd.symm.trans hacc.fresh) (by simp)
  case approve =>
    obtain ⟨e, hacc⟩ := approve_ok h
    obtain rfl := hsame hacc.plan
    rw [hacc.script, hacc.state]
    simp [transition, Sound, PlanState.unfinished, PlanState.reserving]
  case authorize =>
    obtain ⟨e, a, hacc⟩ := authorize_ok h
    obtain rfl := hsame hacc.plan
    rw [hacc.script, hacc.state]
    simp [transition, Sound, PlanState.unfinished, PlanState.reserving]
  case dispatch =>
    obtain ⟨e, a, z, hacc⟩ := dispatch_ok h
    obtain rfl := hsame hacc.plan
    rw [hacc.script, hacc.state]
    exact dispatchScript_sound
  case claim =>
    -- task files and events are not followed by the reservation
    obtain ⟨e, t, expiry, hacc⟩ := claim_ok h
    rw [hacc.script]
    simp [Sound]
  case renew =>
    obtain ⟨e, t, expiry, hacc⟩ := renew_ok h
    rw [hacc.script]
    simp [Sound]
  case complete =>
    -- the plan that completes its last task releases what it has reserved
    obtain ⟨e, t, result, ev, c, late, hacc⟩ := complete_ok h
    obtain rfl := hsame hacc.plan
    rw [hacc.script, hacc.state]
    show Sound true .running _
    simp only [List.cons_append, List.nil_append, Sound]
    exact afterCompletion_sound
  case reconcile =>
    -- a finished plan gives up its reservation, a running one only pauses
    cases reconcile_ok h with
    | released e plan state _ _ _ hw _ =>
        obtain rfl := hsame plan
        rw [hw, state]
        split <;> simp [Sound, PlanState.unfinished]
    | expired e t plan state _ _ _ hw =>
        obtain rfl := hsame plan
        rw [hw, state]
        simp [transition, Sound, PlanState.unfinished, PlanState.reserving]
  case retryTask =>
    obtain ⟨e, t, archive, hacc⟩ := retryTask_ok h
    obtain rfl := hsame hacc.plan
    rw [hacc.script, hacc.state]
    rcases hacc.archived with ⟨_, rfl⟩ | ⟨_, rfl⟩ <;>
      simp [transition, Sound, PlanState.unfinished, PlanState.reserving]

end

/-! ## Writes and the registry -/

section
variable {cfg : Config} {s s' : Store} {id other : String} {wr : Write}

/-- What a write does to the registry. -/
inductive RegistryChange (s : Store) (id : String) (wr : Write) (s' : Store) : Prop
  | none : wr ≠ .reserve → wr ≠ .release → s'.registry = s.registry → RegistryChange s id wr s'
  | reserved (d : PlanDir) : wr = .reserve → s.plans.lookup id = some d →
      (∀ host ∈ shortHosts d.plan.nodes, s.registry host = none ∨ s.registry host = some (d.reservation id)) →
      (s'.registry = fun host => if host ∈ shortHosts d.plan.nodes then some (d.reservation id) else s.registry host) →
      s'.plans = s.plans → RegistryChange s id wr s'
  | released (d : PlanDir) : wr = .release → s.plans.lookup id = some d →
      (s'.registry = fun host => if s.registry host = some (d.reservation id) then none else s.registry host) →
      s'.plans = s.plans → RegistryChange s id wr s'

/-- What a write does to the registry. -/
theorem exec_registry (h : exec cfg id s wr = some s') : RegistryChange s id wr s' := by
  unfold exec at h
  split at h
  · split at h
    · exact absurd h (by simp)
    · obtain rfl := Option.some.inj h
      exact .none (by simp) (by simp) rfl
  · obtain ⟨registry, hr, rfl⟩ := Option.map_eq_some_iff.mp h
    cases hres : reserve cfg s id with
    | error e => rw [hres] at hr; exact absurd hr (by simp [Except.toOption])
    | ok r =>
        rw [hres] at hr
        obtain rfl := Option.some.inj hr
        obtain ⟨d, hd, _, hfree, hreg⟩ := reserve_ok hres
        exact .reserved d rfl hd hfree hreg rfl
  · obtain ⟨registry, hr, rfl⟩ := Option.map_eq_some_iff.mp h
    cases hrel : release cfg s id with
    | error e => rw [hrel] at hr; exact absurd hr (by simp [Except.toOption])
    | ok r =>
        rw [hrel] at hr
        obtain rfl := Option.some.inj hr
        obtain ⟨d, hd, hreg⟩ := release_ok hrel
        exact .released d rfl hd hreg rfl
  · rename_i hnot _ _
    obtain ⟨d, hd, h⟩ := Option.bind_eq_some_iff.mp h
    obtain ⟨d', hd', rfl⟩ := Option.map_eq_some_iff.mp h
    exact .none (by assumption) (by assumption) rfl

/-- **Entries of other plans stay.** No write of one plan makes, removes or replaces an entry of another. -/
theorem exec_foreign (h : exec cfg id s wr = some s') (hne : other ≠ id) {host : String} {r : Reservation}
    (hr : r.planId = other) : s'.registry host = some r ↔ s.registry host = some r := by
  have hown : ∀ d : PlanDir, r ≠ d.reservation id := by
    rintro d rfl
    exact hne hr.symm
  cases exec_registry h with
  | none _ _ hreg => rw [hreg]
  | reserved d _ hd hfree hreg _ =>
      rw [hreg]
      show (if host ∈ shortHosts d.plan.nodes then some (d.reservation id) else s.registry host) = some r ↔ _
      by_cases hhost : host ∈ shortHosts d.plan.nodes
      · rw [if_pos hhost]
        constructor
        · intro heq
          exact absurd (Option.some.inj heq).symm (hown d)
        · intro heq
          rcases hfree host hhost with hf | hf
          · exact absurd (hf.symm.trans heq) (by simp)
          · exact absurd (Option.some.inj (heq.symm.trans hf)) (hown d)
      · rw [if_neg hhost]
  | released d _ hd hreg _ =>
      rw [hreg]
      show (if s.registry host = some (d.reservation id) then none else s.registry host) = some r ↔ _
      by_cases heq : s.registry host = some (d.reservation id)
      · rw [if_pos heq, heq]
        exact ⟨fun h => absurd h (by simp), fun h => absurd (Option.some.inj h).symm (hown d)⟩
      · rw [if_neg heq]

end

/-! ## The invariant is kept

One lemma for each kind of step: the plan's own write, a write of another plan, a command that begins, and one that
is killed. -/

section
variable {cfg : Config} {s s' : Store} {id : String} {wr : Write} {ws : List Write}

/-- A killed command has nothing left to write. -/
theorem Held.stop (h : Held id s ws) : Held id s [] := by
  cases h with
  | absent hnone hentries _ => exact .absent hnone hentries (.inl rfl)
  | present d owns hd howns hunfinished hentered _ => exact .present d owns hd howns hunfinished hentered trivial

theorem Held.other {j : String} {vr : Write} (hne : id ≠ j) (hexec : exec cfg j s vr = some s') (h : Held id s ws) :
    Held id s' ws := by
  have hlook : s'.plans.lookup id = s.plans.lookup id := exec_lookup_ne hexec hne
  have hreg : ∀ {host r}, r.planId = id → (s'.registry host = some r ↔ s.registry host = some r) := fun hr =>
    exec_foreign hexec hne hr
  cases h with
  | absent hnone hentries hws =>
      refine .absent (hlook.trans hnone) (fun host r hr hid => ?_) hws
      exact hentries host r ((hreg hid).mp hr) hid
  | present d owns hd howns hunfinished hentered hsound =>
      refine .present d owns (hlook.trans hd) (fun ho host hhost => ?_) hunfinished (fun host r hr hid => ?_) hsound
      · exact (hreg rfl).mpr (howns ho host hhost)
      · exact hentered host r ((hreg hid).mp hr) hid

/-- A write that is neither a registry transaction nor a state rename. -/
theorem Held.quiet {d d' : PlanDir} {owns : Bool} (hregistry : s'.registry = s.registry)
    (hd' : s'.plans.lookup id = some d') (hplan : d'.plan = d.plan) (howns : owns = true → OwnsHosts s id d)
    (hunfinished : d'.state.unfinished = true → owns = true) (hentered : Entered s id d)
    (hreserving : d.state.reserving = true → d'.state.reserving = true) (hsound : Sound owns d'.state ws) :
    Held id s' ws := by
  have hres : d'.reservation id = d.reservation id := by rw [PlanDir.reservation, hplan]; rfl
  refine .present d' owns hd' (fun ho host hhost => ?_) hunfinished (fun host r hr hid => ?_) hsound
  · rw [hregistry, hres]
    exact howns ho host (hplan ▸ hhost)
  · rw [hregistry] at hr
    obtain ⟨h1, h2, h3⟩ := hentered host r hr hid
    exact ⟨h1.trans hres.symm, hplan ▸ h2, hreserving h3⟩

theorem Held.own (h : Held id s (wr :: ws)) (hexec : exec cfg id s wr = some s') : Held id s' ws := by
  cases h with
  | absent hnone hentries hws =>
      -- the first write of a plan is its directory
      rcases hws with hws | ⟨d, hws, hst⟩
      · exact absurd hws (by simp)
      · obtain ⟨rfl, rfl⟩ := List.cons.inj hws
        simp only [exec, hnone, Option.isSome_none, Bool.false_eq_true, if_false, Option.some.injEq] at hexec
        subst hexec
        refine .present d false (Store.lookup_put_self s id d) (by simp) ?_ (fun host r hr hid => ?_) trivial
        · rw [hst]
          simp [PlanState.unfinished]
        · exact absurd hid (hentries host r hr)
  | present d owns hd howns hunfinished hentered hsound =>
      cases exec_registry hexec with
      | reserved e hwr he hfree hreg hplans =>
          subst hwr
          obtain rfl := Option.some.inj (hd.symm.trans he)
          obtain ⟨hst, hsound⟩ : d.state = .executionAuthorized ∧ Sound true d.state ws := hsound
          refine .present d true (hplans ▸ hd) (fun _ host hhost => ?_) (fun _ => rfl) (fun host r hr hid => ?_) hsound
          · rw [hreg]
            exact if_pos hhost
          · rw [hreg] at hr
            by_cases hhost : host ∈ shortHosts d.plan.nodes
            · refine ⟨?_, hhost, by rw [hst]; rfl⟩
              exact (Option.some.inj ((if_pos hhost).symm.trans hr)).symm
            · exact hentered host r ((if_neg hhost).symm.trans hr) hid
      | released e hwr he hreg hplans =>
          subst hwr
          obtain rfl := Option.some.inj (hd.symm.trans he)
          obtain ⟨hst, hsound⟩ : d.state.unfinished = false ∧ Sound false d.state ws := hsound
          refine .present d false (hplans ▸ hd) (by simp) (fun hun => ?_) (fun host r hr hid => ?_) hsound
          · rw [hst] at hun
            exact absurd hun (by simp)
          · rw [hreg] at hr
            by_cases heq : s.registry host = some (d.reservation id)
            · exact absurd ((if_pos heq).symm.trans hr) (by simp)
            · exact hentered host r ((if_neg heq).symm.trans hr) hid
      | none hnotReserve hnotRelease hregistry =>
          rcases exec_lookup_self hexec with ⟨e, _, hnone, _⟩ | ⟨e, e', he, hw, he'⟩
          · exact absurd (hd.symm.trans hnone) (by simp)
          obtain rfl := Option.some.inj (hd.symm.trans he)
          have hplan : e'.plan = d.plan := PlanDir.write_plan hw
          cases wr with
          | reserve => exact absurd rfl hnotReserve
          | release => exact absurd rfl hnotRelease
          | plan => exact absurd hw (by simp [PlanDir.write])
          | state expected next =>
              simp only [PlanDir.write] at hw
              split at hw
              · rename_i hexpected
                obtain rfl := Option.some.inj hw
                obtain ⟨hnext, hres, hrest⟩ := hsound hexpected
                exact .quiet hregistry he' hplan howns hnext hentered hres hrest
              · exact absurd hw (by simp)
          | approval | authorization | manifest | receipt | tasks | task | custody | attempt | event =>
              obtain rfl := Option.some.inj hw
              exact .quiet hregistry he' hplan howns hunfinished hentered (fun hres => hres) hsound

theorem Held.start {i : Invocation} (h : Held i.id s []) (hws : decided cfg s i = some ws) : Held i.id s ws := by
  obtain ⟨sc, hsc, rfl⟩ := decided_eq_some.mp hws
  cases h with
  | absent hnone hentries _ =>
      refine .absent hnone hentries (.inr ?_)
      rcases script_plan hsc with ⟨body, hcreate⟩ | ⟨d, hd⟩
      · obtain ⟨event, detail, hw⟩ := hcreate.writes
        exact ⟨_, hw, rfl⟩
      · exact absurd ((verifyPlan_ok.mp hd).1.symm.trans hnone) (by simp)
  | present d owns hd howns hunfinished hentered _ =>
      refine .present d d.state.unfinished hd (fun hun => howns (hunfinished hun)) (fun hun => hun) hentered ?_
      exact script_sound hsc hd

/-- The obligations of the ownership rule. -/
theorem held_kept (cfg : Config) : Interleave.Kept (controllers cfg) Held where
  start _ _ _ h hws := h.start hws
  own _ _ _ _ _ h hexec := h.own hexec
  other _ _ _ _ _ _ _ hne _ hexec h := h.other (Ne.symm hne) hexec
  stop _ _ _ h := h.stop

/-- **Every plan is held**, in every interleaving. -/
theorem held_reached {as : List ControllerAction} {c : Controllers} (h : Interleaved cfg as c) (id : String) :
    Held id c.store (c.pending id) := by
  refine (held_kept cfg).reached (fun s k hs => ?_) h id
  subst hs
  exact .absent rfl (by simp [Store.empty]) (.inl rfl)

end

/-! ## Exclusion -/

section
variable {cfg : Config} {as : List ControllerAction} {c : Controllers}

/-- A plan that is not finished has its hosts. -/
theorem owns_of_unfinished (h : Interleaved cfg as c) {id : String} {d : PlanDir}
    (hd : c.store.plans.lookup id = some d) (hun : d.state.unfinished = true) : OwnsHosts c.store id d := by
  cases held_reached h id with
  | absent hnone _ _ => exact absurd (hd.symm.trans hnone) (by simp)
  | present e owns he howns hunfinished _ _ =>
      obtain rfl := Option.some.inj (hd.symm.trans he)
      exact howns (hunfinished hun)

/-- **Exclusion.** However the writes of any number of controllers interleave and whichever of them are killed, a plan
    that is running or paused owns the registry entry of each of its hosts, and no two such plans share a host. -/
theorem reservation_exclusion (h : Interleaved cfg as c) {id : String} {d : PlanDir}
    (hd : c.store.plans.lookup id = some d) (hun : d.state = .running ∨ d.state = .paused) :
    (∀ host ∈ shortHosts d.plan.nodes, c.store.registry host = some (d.reservation id)) ∧
      ∀ other e, c.store.plans.lookup other = some e → e.state = .running ∨ e.state = .paused → other ≠ id →
        ∀ host ∈ shortHosts d.plan.nodes, host ∉ shortHosts e.plan.nodes := by
  have hunfinished : ∀ {f : PlanDir}, f.state = .running ∨ f.state = .paused → f.state.unfinished = true := by
    intro f hf
    rcases hf with hf | hf <;> rw [hf] <;> rfl
  have howns : OwnsHosts c.store id d := owns_of_unfinished h hd (hunfinished hun)
  refine ⟨howns, fun other e he hune hne host hhost hhost' => ?_⟩
  have hother := owns_of_unfinished h he (hunfinished hune) host hhost'
  -- one entry, two owners
  have hsame : d.reservation id = e.reservation other := Option.some.inj ((howns host hhost).symm.trans hother)
  exact hne (congrArg Reservation.planId hsame).symm

/-- A command that is not overtaken. -/
def labWhole (i : Invocation) (writes : Nat) : List ControllerAction := .start i :: List.replicate writes (.write i.id)

/-- A plan on this node, up to its authorization. -/
def labAuthorized (id node : String) : List ControllerAction :=
  labWhole { labInvocation id (.create "ann" "2026-01-10T00:00:00Z" "2026-01-10T06:00:00Z") with
      world := { labWorld [] with inputs := .ok { labInputs with expectedNodes := [node] } } } 1 ++
    labWhole (labInvocation id (.approve "bob" "CHG-1")) 3 ++ labWhole (labInvocation id (.authorize "cy")) 3

/-- Two plans on two nodes, dispatched at the same time, write by write. -/
def labSideBySide : List ControllerAction :=
  labAuthorized "p1" "n1" ++ labAuthorized "p2" "n2" ++
    [.start (labInvocation "p1" (.dispatch "cy")), .start (labInvocation "p2" (.dispatch "cy"))] ++
    (List.replicate 7 [.write "p1", .write "p2"]).flatten

/-- The state these actions lead to, if each of them can be taken. -/
def labControllers : Option Controllers :=
  labSideBySide.foldlM (Trace.guarded (Interleave.step (controllers lab)) fun _ _ => true) ⟨Store.empty, fun _ => []⟩

theorem labControllers_interleaved {c : Controllers} (h : labControllers = some c) : Interleaved lab labSideBySide c :=
  Trace.Run.of_foldlM ⟨rfl, fun _ => rfl⟩ (fun _ _ _ => trivial) h

theorem labControllers_running : labControllers.bind (fun c => (c.store.plans.lookup "p1").bind fun d =>
    (c.store.plans.lookup "p2").map fun e => (d.state, e.state, (c.store.registry "n1").map (·.planId))) =
      some (.running, .running, some "p1") := by
  decide +kernel

/-- Exclusion of the two plans. -/
theorem reservation_exclusion_side_by_side : ∃ c d, labControllers = some c ∧
    c.store.plans.lookup "p1" = some d ∧ d.state = .running ∧
      (∀ host ∈ shortHosts d.plan.nodes, c.store.registry host = some (d.reservation "p1")) ∧
        ∀ other e, c.store.plans.lookup other = some e → e.state = .running ∨ e.state = .paused → other ≠ "p1" →
          ∀ host ∈ shortHosts d.plan.nodes, host ∉ shortHosts e.plan.nodes := by
  obtain ⟨c, hc, h⟩ := Option.bind_eq_some_iff.mp labControllers_running
  obtain ⟨d, hd, h⟩ := Option.bind_eq_some_iff.mp h
  obtain ⟨e, he, h⟩ := Option.map_eq_some_iff.mp h
  have hst : d.state = .running := congrArg Prod.fst h
  have hexclusion := reservation_exclusion (labControllers_interleaved hc) hd (.inl hst)
  exact ⟨c, d, hc, hd, hst, hexclusion⟩

/-- **No stray entries.** In every interleaving an entry of the registry belongs to a plan that is there, under its
    digest, for one of its own hosts, and not before that plan was authorized; and when a release of the plan goes
    through, none of its entries is left and all others are as they were. -/
theorem reservation_entries (h : Interleaved cfg as c) {host : String} {r : Reservation}
    (hr : c.store.registry host = some r) :
    (∃ d, c.store.plans.lookup r.planId = some d ∧ r = d.reservation r.planId ∧ host ∈ shortHosts d.plan.nodes ∧
      d.state ≠ .awaitingApproval ∧ d.state ≠ .approved) ∧
    ∀ s', exec cfg r.planId c.store .release = some s' →
      (∀ host' r', s'.registry host' = some r' → r'.planId ≠ r.planId) ∧
        ∀ host' r', r'.planId ≠ r.planId → (s'.registry host' = some r' ↔ c.store.registry host' = some r') := by
  cases held_reached h r.planId with
  | absent _ hentries _ => exact absurd rfl (hentries host r hr)
  | present d owns hd _ _ hentered _ =>
      obtain ⟨hres, hhost, hst⟩ := hentered host r hr rfl
      refine ⟨⟨d, hd, hres, hhost, ?_, ?_⟩, fun s' hexec => ⟨fun host' r' hr' hid => ?_, fun host' r' hne => ?_⟩⟩
      · rintro hst'
        rw [hst'] at hst
        exact absurd hst (by simp [PlanState.reserving])
      · rintro hst'
        rw [hst'] at hst
        exact absurd hst (by simp [PlanState.reserving])
      · cases exec_registry hexec with
        | none _ hnot _ => exact hnot rfl
        | reserved _ hwr => exact absurd hwr (by simp)
        | released e _ he hreg _ =>
            obtain rfl := Option.some.inj (hd.symm.trans he)
            rw [hreg] at hr'
            by_cases heq : c.store.registry host' = some (d.reservation r.planId)
            · exact absurd ((if_pos heq).symm.trans hr') (by simp)
            · have hr'' : c.store.registry host' = some r' := (if_neg heq).symm.trans hr'
              exact heq (hr''.trans (congrArg some (hentered host' r' hr'' hid).1))
      · exact exec_foreign hexec hne rfl

end

/-- The entry of the first of the two plans. -/
theorem reservation_entries_side_by_side : ∃ c r, labControllers = some c ∧ c.store.registry "n1" = some r ∧
    (∃ d, c.store.plans.lookup r.planId = some d ∧ r = d.reservation r.planId ∧ "n1" ∈ shortHosts d.plan.nodes ∧
      d.state ≠ .awaitingApproval ∧ d.state ≠ .approved) ∧
    ∀ s', exec lab r.planId c.store .release = some s' →
      (∀ host' r', s'.registry host' = some r' → r'.planId ≠ r.planId) ∧
        ∀ host' r', r'.planId ≠ r.planId → (s'.registry host' = some r' ↔ c.store.registry host' = some r') := by
  obtain ⟨c, hc, h⟩ := Option.bind_eq_some_iff.mp labControllers_running
  obtain ⟨d, hd, h⟩ := Option.bind_eq_some_iff.mp h
  obtain ⟨e, he, h⟩ := Option.map_eq_some_iff.mp h
  obtain ⟨r, hr, -⟩ := Option.map_eq_some_iff.mp (congrArg (fun view => view.2.2) h)
  exact ⟨c, r, hc, hr, reservation_entries (labControllers_interleaved hc) hr⟩

end OraclePatching
