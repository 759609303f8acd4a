import OraclePatching.Controller.Seal

/-!
# `Controller.Reservation` — the three transactions of `target_reservation`

The registry maps a host to the plan that reserved it. `reserve` takes all hosts of a plan together or refuses,
`verifyReservation` asks that the plan owns all of them, `release` drops the plan's own entries. Each runs under
the registry lock, so it is one step on the store.

This is the controller's side. On a worker (`OPU_PLAN_WORKER_SNAPSHOT=1`) `release` does nothing, `reserve` is refused
and `verify` reads a receipt instead of the registry; that branch is not modelled.
-/

namespace OraclePatching

variable (cfg : Config)

/-! ## Hosts -/

/-- `ascii_downcase | split(".")[0]`. -/
def shortHost (node : String) : String :=
  String.ofList ((node.toList.map Char.toLower).takeWhile (· != '.'))

def hostChar (c : Char) : Bool := c.isDigit || ('a' ≤ c && c ≤ 'z')

/-- `test("^[a-z0-9][a-z0-9_-]*$")`. -/
def hostShape (host : String) : Bool :=
  match Json.anchored host with
  | [] => false
  | c :: cs => hostChar c && cs.all fun c => hostChar c || c == '_' || c == '-'

/-- `[.nodes[] | ascii_downcase | split(".")[0]] | unique`. -/
def shortHosts (nodes : List String) : List String := uniqueTexts (nodes.map shortHost)

/-- The hosts a transaction is about. -/
def targetHosts (nodes : List String) : Ctl (List String) := do
  ensure (shortHosts nodes ≠ [] ∧ ∀ host ∈ shortHosts nodes, hostShape host = true) 65 ""
  .ok (shortHosts nodes)

/-- `{plan_id:$id,plan_sha256:$sha}`. -/
def PlanDir.reservation (id : String) (d : PlanDir) : Reservation := ⟨id, d.plan.planSha256⟩

/-- `prepare` and the registry lock of the `n`-th transaction of a command. -/
def openRegistry (w : World) (n : Nat) : Ctl Unit := do
  opuValidateAbsolutePath cfg.stateDir "plan state directory"
  ensure (w.registryFree n = true) 75 "target reservation registry is busy or its lock file is unsafe"

/-! ## Transactions -/

/-- One turn of the loop over `plans/*/state`: an unfinished plan must not overlap. -/
def historicalPlan (s : Store) (id : String) (hosts : List String) (otherId : String) (other : PlanDir) :
    Ctl Unit :=
  if otherId = id then .ok ()
  else
    match other.state with
    | .running | .paused => do
        let other ← verifyPlan cfg s otherId
        ensure (shortHosts other.plan.nodes ≠ []) 74 ""
        ensure (∀ host ∈ hosts, host ∉ shortHosts other.plan.nodes) 75
          ("unfinished historical plan " ++ otherId ++
            " overlaps this target; reconcile its Oracle state before dispatch")
    | .awaitingApproval | .approved | .executionAuthorized | .succeeded => .ok ()

/-- `target_reservation ID reserve`: the new registry. -/
def reserve (s : Store) (id : String) : Ctl (String → Option Reservation) := do
  let d ← verifyPlan cfg s id
  let hosts ← targetHosts d.plan.nodes
  forEach (fun entry => historicalPlan cfg s id hosts entry.1 entry.2) s.plans.entries
  ensure (∀ host ∈ hosts, s.registry host = none ∨ s.registry host = some (d.reservation id)) 75
    "another plan reserves an overlapping Oracle target; reconcile that plan before dispatch"
  .ok fun host => if host ∈ hosts then some (d.reservation id) else s.registry host

/-- `target_reservation ID verify`. -/
def verifyReservation (w : World) (n : Nat) (s : Store) (id : String) : Ctl Unit := do
  let d ← verifyPlan cfg s id
  let hosts ← targetHosts d.plan.nodes
  openRegistry cfg w n
  ensure (∀ host ∈ hosts, s.registry host = some (d.reservation id)) 75
    "plan does not own every target reservation"

/-- `target_reservation ID release`: the new registry. -/
def release (s : Store) (id : String) : Ctl (String → Option Reservation) := do
  let d ← verifyPlan cfg s id
  let _ ← targetHosts d.plan.nodes
  .ok fun host => if s.registry host = some (d.reservation id) then none else s.registry host

/-! ## What the transactions establish -/

section
variable {cfg}

theorem targetHosts_ok {nodes hosts : List String} :
    targetHosts nodes = .ok hosts ↔
      (shortHosts nodes ≠ [] ∧ ∀ host ∈ shortHosts nodes, hostShape host = true) ∧ hosts = shortHosts nodes := by
  unfold targetHosts
  rw [ensure_bind_ok]
  exact and_congr_right fun _ => by rw [Except.ok.injEq, eq_comm]

/-- What a plan the loop lets pass looks like. -/
theorem historicalPlan_ok {s : Store} {id otherId : String} {hosts : List String} {other : PlanDir}
    (hlook : s.plans.lookup otherId = some other) :
    historicalPlan cfg s id hosts otherId other = .ok () ↔
      otherId = id ∨ (other.state = .running ∨ other.state = .paused →
        other.plan.planSha256 = cfg.hashString (.plan other.plan.toPlanBody) ∧
          shortHosts other.plan.nodes ≠ [] ∧ ∀ host ∈ hosts, host ∉ shortHosts other.plan.nodes) := by
  have hopen : ∀ {f : PlanDir → Ctl Unit}, (verifyPlan cfg s otherId >>= f) = .ok () ↔
      other.plan.planSha256 = cfg.hashString (.plan other.plan.toPlanBody) ∧ f other = .ok () := by
    intro f
    rw [bind_ok]
    constructor
    · rintro ⟨d, h1, h2⟩
      obtain ⟨h3, h4⟩ := verifyPlan_ok.mp h1
      rw [hlook] at h3
      injection h3 with h3
      subst h3
      exact ⟨h4, h2⟩
    · rintro ⟨h1, h2⟩
      exact ⟨other, verifyPlan_ok.mpr ⟨hlook, h1⟩, h2⟩
  unfold historicalPlan
  by_cases hid : otherId = id
  · simp [hid]
  · rw [if_neg hid]
    cases hst : other.state <;> simp [hid, hopen, ensure_bind_ok]

theorem reserve_eq_ok {s : Store} {id : String} {registry : String → Option Reservation} :
    reserve cfg s id = .ok registry ↔
      ∃ d, verifyPlan cfg s id = .ok d ∧
        (shortHosts d.plan.nodes ≠ [] ∧ ∀ host ∈ shortHosts d.plan.nodes, hostShape host = true) ∧
        (∀ otherId other, s.plans.lookup otherId = some other →
          historicalPlan cfg s id (shortHosts d.plan.nodes) otherId other = .ok ()) ∧
        (∀ host ∈ shortHosts d.plan.nodes, s.registry host = none ∨ s.registry host = some (d.reservation id)) ∧
        registry = fun host =>
          if host ∈ shortHosts d.plan.nodes then some (d.reservation id) else s.registry host := by
  rw [reserve, bind_ok]
  refine exists_congr fun d => and_congr_right fun _ => ?_
  have hentries : ∀ hosts, forEach (fun entry => historicalPlan cfg s id hosts entry.1 entry.2) s.plans.entries
      = .ok () ↔ ∀ otherId other, s.plans.lookup otherId = some other →
        historicalPlan cfg s id hosts otherId other = .ok () := fun hosts => by
    rw [forEach_ok]
    exact ⟨fun h otherId other hlook => h ⟨otherId, other⟩ (AList.mem_lookup_iff.mp hlook),
      fun h entry hentry => h entry.1 entry.2 (AList.mem_lookup_iff.mpr hentry)⟩
  rw [bind_ok]
  constructor
  · rintro ⟨hosts, hhosts, h⟩
    obtain ⟨hshape, rfl⟩ := targetHosts_ok.mp hhosts
    rw [check_bind_ok, ensure_bind_ok, Except.ok.injEq, hentries] at h
    exact ⟨hshape, h.1, h.2.1, h.2.2.symm⟩
  · rintro ⟨hshape, hold, hfree, rfl⟩
    refine ⟨_, targetHosts_ok.mpr ⟨hshape, rfl⟩, ?_⟩
    rw [check_bind_ok, ensure_bind_ok, hentries]
    exact ⟨hold, hfree, rfl⟩

/-- **An accepted reservation**: the hosts are free or the plan's own, no unfinished plan has any of them, and
    the new registry differs from the old one on these hosts only. -/
theorem reserve_ok {s : Store} {id : String} {registry : String → Option Reservation}
    (h : reserve cfg s id = .ok registry) :
    ∃ d, s.plans.lookup id = some d ∧
      (∀ otherId other, s.plans.lookup otherId = some other → otherId ≠ id →
        other.state = .running ∨ other.state = .paused →
          ∀ host ∈ shortHosts d.plan.nodes, host ∉ shortHosts other.plan.nodes) ∧
      (∀ host ∈ shortHosts d.plan.nodes, s.registry host = none ∨ s.registry host = some (d.reservation id)) ∧
      registry = fun host =>
        if host ∈ shortHosts d.plan.nodes then some (d.reservation id) else s.registry host := by
  obtain ⟨d, hd, _, hold, hfree, hreg⟩ := reserve_eq_ok.mp h
  refine ⟨d, (verifyPlan_ok.mp hd).1, fun otherId other hlook hne hst => ?_, hfree, hreg⟩
  rcases (historicalPlan_ok hlook).mp (hold otherId other hlook) with h1 | h1
  · exact absurd h1 hne
  · exact (h1 hst).2.2

/-- A plan that passed `verify` owns each of its hosts. -/
theorem verifyReservation_ok {w : World} {n : Nat} {s : Store} {id : String} :
    verifyReservation cfg w n s id = .ok () ↔
      ∃ d, verifyPlan cfg s id = .ok d ∧
        (shortHosts d.plan.nodes ≠ [] ∧ ∀ host ∈ shortHosts d.plan.nodes, hostShape host = true) ∧
        openRegistry cfg w n = .ok () ∧
        ∀ host ∈ shortHosts d.plan.nodes, s.registry host = some (d.reservation id) := by
  rw [verifyReservation, bind_ok]
  refine exists_congr fun d => and_congr_right fun _ => ?_
  rw [bind_ok]
  constructor
  · rintro ⟨hosts, h1, h2⟩
    obtain ⟨h3, rfl⟩ := targetHosts_ok.mp h1
    rw [check_bind_ok, ensure_ok] at h2
    exact ⟨h3, h2.1, h2.2⟩
  · rintro ⟨h1, h2, h3⟩
    refine ⟨_, targetHosts_ok.mpr ⟨h1, rfl⟩, ?_⟩
    rw [check_bind_ok, ensure_ok]
    exact ⟨h2, h3⟩

/-- A release touches entries of the plan only. -/
theorem release_ok {s : Store} {id : String} {registry : String → Option Reservation}
    (h : release cfg s id = .ok registry) :
    ∃ d, s.plans.lookup id = some d ∧
      registry = fun host => if s.registry host = some (d.reservation id) then none else s.registry host := by
  rw [release, bind_ok] at h
  obtain ⟨d, hd, h⟩ := h
  rw [bind_ok] at h
  obtain ⟨_, _, h⟩ := h
  injection h with h
  exact ⟨d, (verifyPlan_ok.mp hd).1, h.symm⟩

end

end OraclePatching
