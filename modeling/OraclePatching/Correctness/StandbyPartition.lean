import OraclePatching.DataGuard.Order

/-!
# `Correctness.StandbyPartition` — which databases an orchestration patches

The planner writes the role it observed, the orchestrator looks for `STANDBY` and `PRIMARY`. An order of a primary has
these two roles only, and the steps take each of its entries once; they take each database once if the entries are of
different databases, and nothing in the planner looks at the names. An order of a standby has the one entry with the
role as the database calls it, `PHYSICAL STANDBY` for one, and no step takes it.
-/

namespace OraclePatching.DataGuard

open Jq

/-! ## What is promised -/

/-- The database an entry of the order, or a member, stands for. -/
def databaseName (entry : Json) : Json := (entry.field "db_unique_name").getD .null

/-- The two steps take the whole order, the standbys in their order before the primary, and no database twice. -/
structure Partition (order standbys primaries : List Json) : Prop where
  whole : standbys ++ primaries = order
  once : ((standbys ++ primaries).map databaseName).Nodup

/-! ## The condition

The order takes its members from the observation as they are. Two entries of one database, or an entry of the local
database, are not recognised. -/

/-- The members the planner looks at. -/
def namedMembers (observe : Json) : List Json :=
  (eachOf (select isNamed) (some (Json.orElse (observe.field "members") (.arr [])))).captured.getD []

/-- The members are different databases, and none of them is the local one. -/
structure DistinctNames (observe : Json) : Prop where
  members : ((namedMembers observe).map databaseName).Nodup
  own : ∀ name, localName observe = some name → name ∉ (namedMembers observe).map databaseName

/-! ## The order, read backwards -/

section
variable {env : Env} {observe evaluation : File} {order : Json} {es : List Entry}

/-- An accepted order is of a ready evaluation of this observation. -/
theorem planOrder_ok : planOrder env observe evaluation = .ok order ↔
    isReady evaluation.json = true ∧
      Json.isStr (evaluation.json.at' ["evidence", "observe_sha256"]) observe.sha256.hex = true ∧
      nativeIdentity observe.json = true ∧
      ∃ es, order? env observe.json = some es ∧ order = orderRecord env es observe evaluation := by
  unfold planOrder
  rw [ensure_bind_ok, ensure_bind_ok, ensure_bind_ok, need_bind_ok]
  simp only [Except.ok.injEq, eq_comm]

/-- **What the filter of the planner derives**: the sorted members and the database itself, or the database alone. -/
theorem order_some {o : Json} : order? env o = some es ↔
    ∃ name role, localName o = some (.str name) ∧ name ≠ "" ∧ o.at' ["primary", "database_role"] = some (.str role) ∧
      ((role = "PRIMARY" ∧ ∃ standbys, sortedStandbys env o = some standbys ∧
          es = standbys.map standbyEntry ++ [⟨.str name, "PRIMARY", .num 0⟩]) ∨
        (role ≠ "PRIMARY" ∧ endsStandby role = true ∧ es = [⟨.str name, role, .num 0⟩])) := by
  unfold order?
  constructor
  · intro h
    split at h
    · rename_i name hlocal
      split at h
      · exact absurd h (by simp)
      · rename_i hne
        split at h
        · rename_i role hrole
          refine ⟨name, role, hlocal, hne, hrole, ?_⟩
          split at h
          · rename_i hprimary
            obtain ⟨standbys, hstandbys, hes⟩ := Option.map_eq_some_iff.mp h
            exact .inl ⟨hprimary, standbys, hstandbys, hes.symm⟩
          · rename_i hprimary
            split at h
            · rename_i hends
              exact .inr ⟨hprimary, hends, (Option.some.inj h).symm⟩
            · exact absurd h (by simp)
        · exact absurd h (by simp)
    · exact absurd h (by simp)
  · rintro ⟨name, role, hlocal, hne, hrole, h⟩
    rw [hlocal, hrole]
    dsimp only
    rw [if_neg hne]
    rcases h with ⟨hprimary, standbys, hstandbys, rfl⟩ | ⟨hprimary, hends, rfl⟩
    · rw [if_pos hprimary, hstandbys]
      rfl
    · rw [if_neg hprimary, if_pos hends]

/-- The entries of the record are the entries of the order. -/
theorem entries_orderRecord : entries (orderRecord env es observe evaluation) = es.map Entry.json := rfl

end

/-! ## The steps, read backwards -/

section
variable {env : Env} {observe evaluation order : File} {switchover reinstate : Option File} {evaluatedAt : String}
  {plan : Json} {es : List Entry}

/-- The role of an entry is the one that was written. -/
theorem hasRole_entry (text : String) (e : Entry) : hasRole text e.json = some (e.role == text) := rfl

/-- **The targets of a step are the entries with its role**, in their order. -/
theorem withRole_entries (text : String) (es : List Entry) :
    withRole text (.arr (es.map Entry.json)) = some ((es.filter fun e => e.role == text).map Entry.json) := by
  unfold withRole eachOf
  have hrole : ∀ x ∈ es.map Entry.json, hasRole text x = some (Json.isStr (x.field "role") text) := by
    intro x hx
    obtain ⟨e, _, rfl⟩ := List.mem_map.mp hx
    exact hasRole_entry text e
  rw [captured_select hrole, List.filter_map]
  rfl

/-- A step of another name has no targets of this one. -/
theorem targetsOf_other {name label : String} {rest : List (String × Json)} (hne : label ≠ name) :
    targetsOf name (.obj (("step", .str label) :: rest)) = [] := by
  have hstep : (Json.obj (("step", .str label) :: rest)).field "step" = some (.str label) := rfl
  unfold targetsOf
  rw [hstep, if_neg]
  intro h
  exact hne (by simpa [Json.isStr] using h)

theorem targetsOf_patchStep (name : String) (targets : List Json) : targetsOf name (patchStep name targets) = targets := by
  have hstep : Json.isStr ((patchStep name targets).field "step") name = true := Json.isStr_iff.mpr rfl
  unfold targetsOf
  rw [if_pos hstep]
  rfl

theorem targetsOf_patchStep_other {name label : String} {targets : List Json} (hne : label ≠ name) :
    targetsOf name (patchStep label targets) = [] := targetsOf_other hne

theorem targetsOf_switchoverStep {name : String} (hne : "switchover" ≠ name) :
    targetsOf name (switchoverStep switchover) = [] := by
  cases switchover with
  | none => exact targetsOf_other hne
  | some gate => exact targetsOf_other hne

theorem targetsOf_reinstateStep {name : String} (hne : "reinstate_former_primary" ≠ name) :
    targetsOf name (reinstateStep reinstate) = [] := by
  cases reinstate with
  | none => exact targetsOf_other hne
  | some gate => exact targetsOf_other hne

/-- Each of the two patch steps has its own targets and no other step of that name is there. -/
theorem targetsOf_steps (targets : Json) (standbys primaries : List Json) :
    (steps targets standbys primaries switchover reinstate).flatMap (targetsOf "patch_standbys") = standbys ∧
      (steps targets standbys primaries switchover reinstate).flatMap (targetsOf "patch_primary") = primaries := by
  unfold steps
  refine ⟨?_, ?_⟩
  · simp (disch := decide) only [List.flatMap_cons, List.flatMap_nil, targetsOf_patchStep, targetsOf_patchStep_other,
      targetsOf_switchoverStep, targetsOf_reinstateStep, targetsOf_other, List.nil_append, List.append_nil]
  · simp (disch := decide) only [List.flatMap_cons, List.flatMap_nil, targetsOf_patchStep, targetsOf_patchStep_other,
      targetsOf_switchoverStep, targetsOf_reinstateStep, targetsOf_other, List.nil_append, List.append_nil]

/-- **An orchestration of a planned order**: the two steps take the entries with role `STANDBY` and those with role
    `PRIMARY`. -/
theorem orchestrate_targets
    (hfield : order.json.field "order" = some (.arr (es.map Entry.json)))
    (h : orchestrate env observe evaluation order switchover reinstate evaluatedAt = .ok plan) :
    stepTargets plan "patch_standbys" = (es.filter fun e => e.role == "STANDBY").map Entry.json ∧
      stepTargets plan "patch_primary" = (es.filter fun e => e.role == "PRIMARY").map Entry.json := by
  unfold orchestrate at h
  simp only [ensure_bind_ok, need_bind_ok] at h
  obtain ⟨_, _, _, _, _, _, standbys, hstandbys, primaries, hprimaries, h⟩ := h
  have htargets : Json.orElse (order.json.field "order") (.arr []) = .arr (es.map Entry.json) := by
    rw [hfield]
    rfl
  rw [htargets, withRole_entries] at hstandbys hprimaries
  injection h with h
  rw [← h, Option.some.inj hstandbys, Option.some.inj hprimaries]
  exact targetsOf_steps _ _ _

/-- Without evidence of a switchover or a reinstate there is nothing that could refuse a planned order. -/
theorem orchestrate_accepts (h : planOrder env observe evaluation = .ok order.json) (evaluatedAt : String) :
    ∃ plan, orchestrate env observe evaluation order none none evaluatedAt = .ok plan := by
  obtain ⟨hready, hbinds, _, es, _, horder⟩ := planOrder_ok.mp h
  have htargets : Json.orElse (order.json.field "order") (.arr []) = .arr (es.map Entry.json) := by
    rw [horder]
    rfl
  have hstrategy : Json.isStr (order.json.field "strategy") "standby_first" = true := by
    rw [horder]
    exact Json.isStr_iff.mpr rfl
  have hevaluation : Json.isStr (order.json.at' ["evidence", "evaluation_sha256"]) evaluation.sha256.hex = true := by
    rw [horder]
    exact Json.isStr_iff.mpr rfl
  have hstandbys := withRole_entries "STANDBY" es
  have hprimaries := withRole_entries "PRIMARY" es
  rw [← htargets] at hstandbys hprimaries
  unfold orchestrate
  simp only [ensure_bind_ok, need_bind_ok]
  exact ⟨_, hready, hbinds, hstrategy, hevaluation, rfl, rfl, _, hstandbys, _, hprimaries, rfl⟩

end

/-! ## The partition -/

theorem databaseName_entry (e : Entry) : databaseName e.json = e.dbUniqueName := rfl

theorem databaseNames_standbys (standbys : List Json) :
    ((standbys.map standbyEntry).map Entry.json).map databaseName = standbys.map databaseName := by
  rw [List.map_map, List.map_map]
  rfl

section
variable {env : Env} {observe evaluation order : File}

/-- Sorting forgets no member and adds none. -/
theorem sortedStandbys_perm {o : Json} {standbys : List Json} (h : sortedStandbys env o = some standbys) :
    standbys.Perm (namedMembers o) := by
  obtain ⟨members, hmembers, rfl⟩ := Option.map_eq_some_iff.mp h
  rw [namedMembers, hmembers]
  exact sortBy_perm _ _ _

/-- The names in the order of a primary. -/
theorem nodup_order {o : Json} {standbys : List Json} {name : String} (h : sortedStandbys env o = some standbys)
    (hlocal : localName o = some (.str name)) :
    (((standbys.map standbyEntry ++ [(⟨.str name, "PRIMARY", .num 0⟩ : Entry)]).map Entry.json).map databaseName).Nodup ↔
      DistinctNames o := by
  have hperm := (sortedStandbys_perm h).map databaseName
  rw [List.map_append, List.map_append, databaseNames_standbys, List.map_singleton, List.map_singleton,
    databaseName_entry, List.nodup_append, hperm.nodup_iff]
  constructor
  · rintro ⟨hmembers, _, hown⟩
    refine ⟨hmembers, fun name' hname' hmem => ?_⟩
    obtain rfl := Option.some.inj (hlocal.symm.trans hname')
    exact hown _ (hperm.mem_iff.mpr hmem) _ (List.mem_singleton_self _) rfl
  · intro hdistinct
    refine ⟨hdistinct.members, List.nodup_singleton _, ?_⟩
    rintro x hx y hy rfl
    rw [List.mem_singleton.mp hy] at hx
    exact hdistinct.own _ hlocal (hperm.mem_iff.mp hx)

/-- **The steps patch every database of the order once exactly when** the database calls itself `PRIMARY` and the names
    of its members are distinct and not its own, or it calls itself plain `STANDBY`. -/
theorem orchestration_partition (h : planOrder env observe evaluation = .ok order.json) :
    (∀ evaluatedAt, ∃ plan, orchestrate env observe evaluation order none none evaluatedAt = .ok plan) ∧
      ∀ switchover reinstate evaluatedAt plan,
        orchestrate env observe evaluation order switchover reinstate evaluatedAt = .ok plan →
          (Partition (entries order.json) (stepTargets plan "patch_standbys") (stepTargets plan "patch_primary") ↔
            Json.isStr (observe.json.at' ["primary", "database_role"]) "PRIMARY" = true ∧ DistinctNames observe.json ∨
              Json.isStr (observe.json.at' ["primary", "database_role"]) "STANDBY" = true) := by
  refine ⟨fun evaluatedAt => orchestrate_accepts h evaluatedAt, ?_⟩
  intro switchover reinstate evaluatedAt plan hplan
  obtain ⟨_, _, _, es, hes, horder⟩ := planOrder_ok.mp h
  have hentries : entries order.json = es.map Entry.json := by rw [horder]; exact entries_orderRecord
  obtain ⟨hstandbys, hprimaries⟩ := orchestrate_targets (by rw [horder]; rfl) hplan
  obtain ⟨name, role, hlocal, _, hrole, hshape⟩ := order_some.mp hes
  rw [hentries, hstandbys, hprimaries, hrole, Json.isStr_iff, Json.isStr_iff]
  simp only [Option.some.injEq, Json.str.injEq]
  -- a primary lists its standbys and then itself, any other database itself alone
  rcases hshape with ⟨rfl, standbys, hsorted, rfl⟩ | ⟨hprimary, _, rfl⟩
  · -- the two filters take the standbys and the primary
    have hfirst : (standbys.map standbyEntry).filter (fun e => e.role == "STANDBY") = standbys.map standbyEntry :=
      List.filter_eq_self.mpr fun e he => by
        obtain ⟨j, _, rfl⟩ := List.mem_map.mp he
        rfl
    have hnone : (standbys.map standbyEntry).filter (fun e => e.role == "PRIMARY") = [] :=
      List.filter_eq_nil_iff.mpr fun e he => by
        obtain ⟨j, _, rfl⟩ := List.mem_map.mp he
        exact (by decide : ¬ ("STANDBY" == "PRIMARY") = true)
    have hlast : ∀ e : Entry, e.role = "PRIMARY" → [e].filter (fun e => e.role == "STANDBY") = [] ∧
        [e].filter (fun e => e.role == "PRIMARY") = [e] := by
      intro e he
      simp [he]
    rw [List.filter_append, List.filter_append, hfirst, hnone, (hlast _ rfl).1, (hlast _ rfl).2, List.append_nil,
      List.nil_append]
    constructor
    · rintro ⟨hwhole, honce⟩
      rw [hwhole, nodup_order hsorted hlocal] at honce
      exact .inl ⟨rfl, honce⟩
    · rintro (⟨_, hdistinct⟩ | hstandby)
      · refine ⟨List.map_append.symm, ?_⟩
        rw [← List.map_append, nodup_order hsorted hlocal]
        exact hdistinct
      · exact absurd hstandby (by decide)
  -- the database itself is the order: patched once exactly when it stands as a standby
  · constructor
    · rintro ⟨hwhole, _⟩
      refine .inr (Decidable.byContradiction fun hstandby => ?_)
      have hbs : (role == "STANDBY") = false := by simpa using hstandby
      have hbp : (role == "PRIMARY") = false := by simpa using hprimary
      simp [hbs, hbp] at hwhole
    · rintro (⟨rfl, _⟩ | rfl)
      · exact absurd rfl hprimary
      · exact ⟨rfl, List.nodup_singleton _⟩

end

/-! ## A physical standby -/

/-- An evaluation that is ready, of the observation with the digest `0…0`. -/
def readyEvaluation : File :=
  fixedFile (.obj [("status", .str "ready_for_standby_first"),
    ("evidence", .obj [("observe_sha256", .str zeroDigest.hex)])])

/-- A primary with two standbys, the one that lags more in front. -/
def primaryOfTwo : File := fixedFile (fixedObservation "prod" "PRIMARY" [fixedMember "prod_b" 7, fixedMember "prod_c" 3])

/-- The names on the other side differ. -/
theorem primaryOfTwo_distinct : DistinctNames primaryOfTwo.json := by
  have hnames : (namedMembers primaryOfTwo.json).map databaseName = [.str "prod_b", .str "prod_c"] := rfl
  refine ⟨?_, fun name hname => ?_⟩
  · rw [hnames]
    simp
  · have hlocal : localName primaryOfTwo.json = some (.str "prod") := rfl
    obtain rfl := Option.some.inj (hlocal.symm.trans hname)
    rw [hnames]
    simp

/-- Its order. -/
theorem orchestration_partition_primary :
    ∃ order, planOrder fixedEnv primaryOfTwo readyEvaluation = .ok order ∧
      ∀ plan, orchestrate fixedEnv primaryOfTwo readyEvaluation (fixedFile order) none none "" = .ok plan →
        Partition (entries order) (stepTargets plan "patch_standbys") (stepTargets plan "patch_primary") := by
  have hrun : endsWith (planOrder fixedEnv primaryOfTwo readyEvaluation) (fun _ => true) = true := by decide +kernel
  obtain ⟨order, horder, _⟩ := endsWith_iff.mp hrun
  refine ⟨order, horder, fun plan hplan => ?_⟩
  exact ((@orchestration_partition _ _ _ (fixedFile order) horder).2 none none "" plan hplan).mpr
    (.inl ⟨Json.isStr_iff.mpr rfl, primaryOfTwo_distinct⟩)

/-- **A physical standby is in no step**, and the evaluator finds its observation ready. -/
theorem standby_unpatched :
    ∃ evaluation order plan,
      evaluate fixedEnv (fixedFile (fixedObservation "prod_b" "PHYSICAL STANDBY" [fixedMember "prod_b" 7]))
          (fixedFile fixedPolicy) 1767225610 "" = .ok evaluation ∧
        planOrder fixedEnv (fixedFile (fixedObservation "prod_b" "PHYSICAL STANDBY" [fixedMember "prod_b" 7]))
            (fixedFile evaluation) = .ok order ∧
          orchestrate fixedEnv (fixedFile (fixedObservation "prod_b" "PHYSICAL STANDBY" [fixedMember "prod_b" 7]))
              (fixedFile evaluation) (fixedFile order) none none "" = .ok plan ∧
            ¬ Partition (entries order) (stepTargets plan "patch_standbys") (stepTargets plan "patch_primary") := by
  have hrun : endsWith (evaluate fixedEnv
      (fixedFile (fixedObservation "prod_b" "PHYSICAL STANDBY" [fixedMember "prod_b" 7])) (fixedFile fixedPolicy)
      1767225610 "") (fun evaluation => endsWith (planOrder fixedEnv
        (fixedFile (fixedObservation "prod_b" "PHYSICAL STANDBY" [fixedMember "prod_b" 7])) (fixedFile evaluation))
        fun order => endsWith (orchestrate fixedEnv
          (fixedFile (fixedObservation "prod_b" "PHYSICAL STANDBY" [fixedMember "prod_b" 7])) (fixedFile evaluation)
          (fixedFile order) none none "") fun plan =>
            (stepTargets plan "patch_standbys" ++ stepTargets plan "patch_primary").isEmpty && !(entries order).isEmpty) =
      true := by decide +kernel
  obtain ⟨evaluation, hevaluation, hplanned⟩ := endsWith_iff.mp hrun
  obtain ⟨order, horder, horchestrated⟩ := endsWith_iff.mp hplanned
  obtain ⟨plan, hplan, hsteps⟩ := endsWith_iff.mp horchestrated
  refine ⟨evaluation, order, plan, hevaluation, horder, hplan, ?_⟩
  rintro ⟨hall, _⟩
  rw [hall] at hsteps
  cases hempty : (entries order).isEmpty <;> simp [hempty] at hsteps

end OraclePatching.DataGuard
