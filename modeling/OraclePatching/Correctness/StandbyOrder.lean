import OraclePatching.Correctness.StandbyPartition

/-!
# `Correctness.StandbyOrder` — from a ready observation to an order the controller accepts

The planner takes the members as they are and adds the database itself. The contract makes the names of the members
different from each other, not from the name of the database, and the evaluator's `*STANDBY*` is wider than the
planner's `STANDBY$`. Where these two agree with the planner the order is sound, and then the controller accepts it:
it reads the digest it recomputes, non-empty names and roles, and `PRIMARY` at most in the last place.
-/

namespace OraclePatching.DataGuard

open Jq

/-! ## The law -/

/-- The entry of a member. A ready observation has no member without a lag. -/
def memberEntry (m : Member) : Entry :=
  ⟨.str m.dbUniqueName, "STANDBY", .num ((m.applyLagSeconds.getD 0 : Int) : Rat)⟩

/-- Both entries have a lag in seconds, the first at most the second. -/
def LagLe (a b : Entry) : Prop := ∃ p q, a.applyLagSeconds = .num p ∧ b.applyLagSeconds = .num q ∧ p ≤ q

/-- A readiness result with the passing gate among its gates. -/
def PassesStandbyFirst (readiness : Json) : Prop :=
  ∃ gates, readiness.field "gates" = some (.arr gates) ∧ (∀ g ∈ gates, ∃ fields, g = .obj fields) ∧
    ∃ g ∈ gates, g.field "name" = some (.str "dataguard_standby_first") ∧ g.field "status" = some (.str "pass")

/-- What an order of the database `name` owes the observation. -/
def OrderLaw (env : Env) (observe evaluation : File) (observation : Observation) (name : String) : Prop :=
  ∃ order es, planOrder env observe evaluation = .ok order ∧ entries order = es.map Entry.json ∧
    (es.map Entry.dbUniqueName).Nodup ∧
    (observation.databaseRole = "PRIMARY" → ∃ standbys, es = standbys ++ [⟨.str name, "PRIMARY", .num 0⟩] ∧
      standbys.Perm (observation.members.map memberEntry) ∧ standbys.Pairwise LagLe) ∧
    (Path.contains observation.databaseRole "STANDBY" = true →
      es = [⟨.str name, observation.databaseRole, .num 0⟩]) ∧
    ∀ readiness, PassesStandbyFirst readiness → verifyDataguardOrderInput env order readiness = .ok ()

/-- The planner is given a consistent identity, and either a primary that is not its own member or a role that ends in
    `STANDBY`. -/
def Orderable (observe : File) (observation : Observation) (name : String) : Prop :=
  nativeIdentity observe.json = true ∧
    ((observation.databaseRole = "PRIMARY" ∧ name ∉ observation.members.map (·.dbUniqueName)) ∨
      endsStandby observation.databaseRole = true)

/-! ## The seal of an order -/

theorem testSha256_hex (d : Digest) : testSha256 (some (.str d.hex)) = true := by
  have hanchored : Json.anchored d.hex = d.hex.toList := by
    unfold Json.anchored
    rw [String.characters_eq]
    split
    · rename_i cs heq
      have hmem : '\n' ∈ d.hex.toList := by
        rw [← List.mem_reverse, heq]
        exact List.mem_cons_self
      exact absurd (mem_hex hmem) (by decide)
    · rfl
  unfold testSha256
  dsimp only
  rw [hanchored, ← sha256Shape_eq]
  exact sha256Shape_hex d

section
variable {env : Env} {observe evaluation : File} {es : List Entry}

/-- **The controller finds the seal of an order intact.** -/
theorem verifySealed_orderRecord (label : String) :
    verifySealed env label (orderRecord env es observe evaluation) = .ok () := by
  have hdigest : ∃ d : Digest, recordDigest env (orderRecord env es observe evaluation) = d.hex ∧
      canonicalHash env (orderRecord env es observe evaluation) = d.hex := by
    refine ⟨_, cmdSubst_hex _, ?_⟩
    exact rfl
  obtain ⟨d, hd, hcanonical⟩ := hdigest
  unfold verifySealed
  rw [ensure_bind_ok, ensure_ok, hd, hcanonical]
  exact ⟨sha256Shape_hex d, rfl⟩

/-- `PRIMARY` stands in the last place when it stands in no place before. -/
theorem primaryLast_append {front : List Entry} {last : Entry} (h : ∀ e ∈ front, e.role ≠ "PRIMARY") :
    primaryLast (((front ++ [last]).map Entry.json).map (Json.field "role")) = true := by
  have hrole : ∀ e : Entry, Json.isStr (e.json.field "role") "PRIMARY" = (e.role == "PRIMARY") := fun _ => rfl
  have hfront : ((front.map Entry.json).map (Json.field "role")).findIdx? (fun r => Json.isStr r "PRIMARY") = none := by
    rw [List.findIdx?_eq_none_iff]
    intro r hr
    obtain ⟨j, hj, rfl⟩ := List.mem_map.mp hr
    obtain ⟨e, he, rfl⟩ := List.mem_map.mp hj
    rw [hrole]
    simpa using h e he
  unfold primaryLast
  rw [List.map_append, List.map_append, List.findIdx?_append, hfront]
  cases hlast : last.role == "PRIMARY" with
  | true => simp [List.findIdx?_cons, hrole, hlast]
  | false => simp [List.findIdx?_cons, hrole, hlast]

/-- **What the controller asks of the entries.** -/
theorem standbyFirst_orderRecord {front : List Entry} {last : Entry}
    (hnames : ∀ e ∈ front ++ [last], ∃ name, e.dbUniqueName = .str name ∧ name ≠ "")
    (hroles : ∀ e ∈ front ++ [last], e.role ≠ "") (hfront : ∀ e ∈ front, e.role ≠ "PRIMARY") :
    standbyFirst (orderRecord env (front ++ [last]) observe evaluation) = true := by
  have hschema : (orderRecord env (front ++ [last]) observe evaluation).field "schema_version" = some (.str "1.0") := rfl
  have hstrategy : (orderRecord env (front ++ [last]) observe evaluation).field "strategy" =
      some (.str "standby_first") := rfl
  have horder : (orderRecord env (front ++ [last]) observe evaluation).field "order" =
      some (.arr ((front ++ [last]).map Entry.json)) := rfl
  have hevaluation : (orderRecord env (front ++ [last]) observe evaluation).at' ["evidence", "evaluation_sha256"] =
      some (.str evaluation.sha256.hex) := rfl
  have hobserve : (orderRecord env (front ++ [last]) observe evaluation).at' ["evidence", "observe_sha256"] =
      some (.str observe.sha256.hex) := rfl
  have hentries : ((front ++ [last]).map Entry.json).all
      (fun e => isText (e.field "db_unique_name") && isText (e.field "role")) = true := by
    rw [List.all_eq_true]
    intro j hj
    obtain ⟨e, he, rfl⟩ := List.mem_map.mp hj
    obtain ⟨name, hname, hne⟩ := hnames e he
    have hnameField : e.json.field "db_unique_name" = some e.dbUniqueName := rfl
    have hroleField : e.json.field "role" = some (.str e.role) := rfl
    rw [hnameField, hroleField, hname, Bool.and_eq_true]
    exact ⟨bne_iff_ne.mpr hne, bne_iff_ne.mpr (hroles e he)⟩
  unfold standbyFirst
  rw [hschema, hstrategy, horder, hevaluation, hobserve]
  dsimp only
  rw [hentries, primaryLast_append hfront, testSha256_hex, testSha256_hex]
  simp [Json.isStr]

end

theorem isStandbyFirstPass_obj (fields : List (String × Json)) :
    ∃ b, isStandbyFirstPass (.obj fields) = some b := by
  have hname : (Json.obj fields).field "name" = some ((fields.lookup "name").getD .null) := rfl
  have hstatus : (Json.obj fields).field "status" = some ((fields.lookup "status").getD .null) := rfl
  unfold isStandbyFirstPass
  rw [hname, hstatus, Option.map_some, Option.map_some]
  cases Json.isStr (some ((fields.lookup "name").getD .null)) "dataguard_standby_first" with
  | false => exact ⟨false, rfl⟩
  | true =>
      cases Json.isStr (some ((fields.lookup "status").getD .null)) "pass" with
      | false => exact ⟨false, rfl⟩
      | true => exact ⟨true, rfl⟩

/-- The filter on the readiness result finds the gate wherever it stands. -/
theorem carries_of_passes {readiness : Json} (h : PassesStandbyFirst readiness) : carriesStandbyFirst readiness = true := by
  obtain ⟨gates, hgates, hobj, g, hg, hname, hstatus⟩ := h
  have hpass : isStandbyFirstPass g = some true := by
    unfold isStandbyFirstPass
    rw [hname, hstatus]
    decide
  have hany : anyItem isStandbyFirstPass gates = some true := by
    clear hgates
    induction gates with
    | nil => exact absurd hg List.not_mem_nil
    | cons x xs ih =>
        rcases List.mem_cons.mp hg with rfl | hxs
        · rw [anyItem, hpass]
        · obtain ⟨fields, rfl⟩ := hobj x List.mem_cons_self
          obtain ⟨b, hb⟩ := isStandbyFirstPass_obj fields
          rw [anyItem, hb]
          cases b with
          | true => rfl
          | false => exact ih (fun y hy => hobj y (List.mem_cons_of_mem _ hy)) hxs
  unfold carriesStandbyFirst
  rw [hgates]
  simpa [Json.iter] using hany

/-! ## The members in the order -/

theorem applyLag_member {j : Json} {m : Member} (h : member? j = some m) :
    applyLag j = .num ((m.applyLagSeconds.getD 0 : Int) : Rat) := by
  have hlag := (member_some h).2
  unfold lag? at hlag
  unfold applyLag
  split at hlag
  · rename_i heq
    rw [heq, ← Option.some.inj hlag]
    rfl
  · rename_i q heq
    split at hlag
    · rename_i hden
      rw [heq, ← Option.some.inj hlag]
      have hq : ((q.num : Int) : Rat) = q := Rat.ext (Rat.num_intCast _) ((Rat.den_intCast _).trans hden.symm)
      show Json.num q = .num ((q.num : Int) : Rat)
      rw [hq]
    · exact absurd hlag (by simp)
  · exact absurd hlag (by simp)

theorem standbyEntry_member {j : Json} {m : Member} (h : member? j = some m) : standbyEntry j = memberEntry m := by
  unfold standbyEntry memberEntry
  rw [(member_some h).1, applyLag_member h]
  rfl

section
variable {env : Env} {j : Json} {observation : Observation} {name : String}

/-- **The planner sorts the members of the contract**: all of them, by their lags. -/
theorem sortedStandbys_members (h : observation? j = some observation) :
    ∃ standbys, sortedStandbys env j = some standbys ∧
      (standbys.map standbyEntry).Perm (observation.members.map memberEntry) ∧
      (standbys.map standbyEntry).Pairwise LagLe := by
  obtain ⟨_, _, items, hitems, hmembers⟩ := observation_some h
  have hall : ∀ x ∈ items, ∃ m, member? x = some m := fun x hx => by
    obtain ⟨m, _, hm⟩ := mem_mapM hmembers hx
    exact ⟨m, hm⟩
  have hnamed : ∀ x ∈ items, isNamed x = some true := by
    intro x hx
    obtain ⟨m, hm⟩ := hall x hx
    unfold isNamed
    rw [(member_some hm).1]
    rfl
  have hsorted : sortedStandbys env j = some (sortBy env.order applyLag items) := by
    have hfield : Json.orElse (j.field "members") (.arr []) = .arr items := by
      rw [hitems]
      rfl
    unfold sortedStandbys
    rw [hfield]
    unfold eachOf
    dsimp only
    rw [captured_select (b := fun _ => true) hnamed, List.filter_eq_self.mpr fun _ _ => rfl]
    rfl
  refine ⟨_, hsorted, ?_, ?_⟩
  · rw [← map_of_mapM (fun x y hxy => standbyEntry_member hxy) hmembers]
    exact (sortBy_perm env.order applyLag items).map standbyEntry
  -- jq sorts by the apply lag, and every member has a numeric one
  · rw [List.pairwise_map]
    refine (sortBy_pairwise env.order applyLag items).imp_of_mem ?_
    intro a b ha hb hle
    obtain ⟨m, hm⟩ := hall a ((sortBy_perm env.order applyLag items).mem_iff.mp ha)
    obtain ⟨n, hn⟩ := hall b ((sortBy_perm env.order applyLag items).mem_iff.mp hb)
    rw [applyLag_member hm, applyLag_member hn, env.order.num, decide_eq_true_eq] at hle
    exact ⟨_, _, applyLag_member hm, applyLag_member hn, hle⟩

/-- The members have different names; so an order names a database twice only when it is its own member. -/
theorem names_nodup {standbys : List Entry} {last : Entry} (hlast : last.dbUniqueName = .str name)
    (hperm : standbys.Perm (observation.members.map memberEntry)) :
    ((standbys ++ [last]).map Entry.dbUniqueName).Nodup ↔ name ∉ observation.members.map (·.dbUniqueName) := by
  have hnames : (observation.members.map memberEntry).map Entry.dbUniqueName =
      (observation.members.map (·.dbUniqueName)).map Json.str := by
    rw [List.map_map, List.map_map]
    rfl
  have hinj : Function.Injective Json.str := fun a b hab => by injection hab
  rw [List.map_append, List.map_singleton, hlast,
    ((hperm.map Entry.dbUniqueName).append_right [Json.str name]).nodup_iff, hnames, List.nodup_append]
  constructor
  · rintro ⟨_, _, hne⟩ hmem
    exact hne _ (List.mem_map_of_mem hmem) _ (List.mem_singleton.mpr rfl) rfl
  · intro hnot
    refine ⟨observation.nodup.map hinj, List.nodup_singleton _, ?_⟩
    rintro a ha b hb rfl
    rw [List.mem_singleton] at hb
    obtain ⟨n, hn, hna⟩ := List.mem_map.mp ha
    rw [hb] at hna
    exact hnot (hinj hna ▸ hn)

theorem validName_ne_empty {text : String} (h : validName text = true) : text ≠ "" := by
  rintro rfl
  exact absurd h (by decide)

end

/-! ## The law of the order -/

section
variable {env : Env} {observe policyFile evaluation : File} {now : Rat} {evaluatedAt name : String}
  {observation : Observation}

/-- What an evaluation has to say to the planner, it says of itself. -/
theorem evaluate_binds (h : evaluate env observe policyFile now evaluatedAt = .ok evaluation.json) :
    Json.isStr (evaluation.json.at' ["evidence", "observe_sha256"]) observe.sha256.hex = true := by
  obtain ⟨_, _, all, _, _, _, hemit⟩ := evaluate_ok h
  rw [hemit]
  exact Json.isStr_iff.mpr rfl

/-- **The controller accepts an order of standbys and the database itself.** -/
theorem verify_accepts {front : List Entry} {last : Entry}
    (hnames : ∀ e ∈ front ++ [last], ∃ text, e.dbUniqueName = .str text ∧ text ≠ "")
    (hroles : ∀ e ∈ front ++ [last], e.role ≠ "") (hfront : ∀ e ∈ front, e.role ≠ "PRIMARY") {readiness : Json}
    (h : PassesStandbyFirst readiness) :
    verifyDataguardOrderInput env (orderRecord env (front ++ [last]) observe evaluation) readiness = .ok () := by
  unfold verifyDataguardOrderInput
  rw [check_bind_ok, ensure_bind_ok, ensure_ok]
  exact ⟨verifySealed_orderRecord _, standbyFirst_orderRecord hnames hroles hfront, carries_of_passes h⟩

/-- A primary that is not its own member gets its order. -/
theorem primary_law (hready : isReady evaluation.json = true)
    (hbinds : Json.isStr (evaluation.json.at' ["evidence", "observe_sha256"]) observe.sha256.hex = true)
    (hobservation : observation? observe.json = some observation) (hlocal : localName observe.json = some (.str name))
    (hname : name ≠ "") (hidentity : nativeIdentity observe.json = true) (hrole : observation.databaseRole = "PRIMARY")
    (hnot : name ∉ observation.members.map (·.dbUniqueName)) : OrderLaw env observe evaluation observation name := by
  obtain ⟨_, hroleAt, _⟩ := observation_some hobservation
  obtain ⟨standbys, hstandbys, hperm, hsorted⟩ := @sortedStandbys_members env _ _ hobservation
  have horder : order? env observe.json = some (standbys.map standbyEntry ++ [⟨.str name, "PRIMARY", .num 0⟩]) :=
    order_some.mpr ⟨name, _, hlocal, hname, hroleAt, .inl ⟨hrole, standbys, hstandbys, rfl⟩⟩
  have hmember : ∀ e ∈ standbys.map standbyEntry, ∃ m : Member, e = memberEntry m := by
    intro e he
    obtain ⟨m, _, hm⟩ := List.mem_map.mp (hperm.mem_iff.mp he)
    exact ⟨m, hm.symm⟩
  refine ⟨_, _, planOrder_ok.mpr ⟨hready, hbinds, hidentity, _, horder, rfl⟩, entries_orderRecord,
    (names_nodup rfl hperm).mpr hnot, fun _ => ⟨_, rfl, hperm, hsorted⟩, ?_, ?_⟩
  · intro hcontains
    rw [hrole] at hcontains
    exact absurd hcontains (by decide +kernel)
  · intro readiness hpass
    refine verify_accepts ?_ ?_ ?_ hpass
    · intro e he
      rcases List.mem_append.mp he with he | he
      · obtain ⟨m, rfl⟩ := hmember e he
        exact ⟨m.dbUniqueName, rfl, validName_ne_empty m.valid⟩
      · rw [List.mem_singleton.mp he]
        exact ⟨name, rfl, hname⟩
    · intro e he
      rcases List.mem_append.mp he with he | he
      · obtain ⟨m, rfl⟩ := hmember e he
        exact (by decide : "STANDBY" ≠ "")
      · rw [List.mem_singleton.mp he]
        exact (by decide : "PRIMARY" ≠ "")
    · intro e he
      obtain ⟨m, rfl⟩ := hmember e he
      exact (by decide : "STANDBY" ≠ "PRIMARY")

/-- A role that ends in `STANDBY` gets the order with the one entry. -/
theorem standby_law (hready : isReady evaluation.json = true)
    (hbinds : Json.isStr (evaluation.json.at' ["evidence", "observe_sha256"]) observe.sha256.hex = true)
    (hobservation : observation? observe.json = some observation) (hlocal : localName observe.json = some (.str name))
    (hname : name ≠ "") (hidentity : nativeIdentity observe.json = true)
    (hends : endsStandby observation.databaseRole = true) : OrderLaw env observe evaluation observation name := by
  obtain ⟨_, hroleAt, _⟩ := observation_some hobservation
  have hprimary : observation.databaseRole ≠ "PRIMARY" := by
    intro hrole
    rw [hrole] at hends
    exact absurd hends (by decide)
  have hempty : observation.databaseRole ≠ "" := by
    intro hrole
    rw [hrole] at hends
    exact absurd hends (by decide)
  have horder : order? env observe.json = some [⟨.str name, observation.databaseRole, .num 0⟩] :=
    order_some.mpr ⟨name, _, hlocal, hname, hroleAt, .inr ⟨hprimary, hends, rfl⟩⟩
  refine ⟨_, _, planOrder_ok.mpr ⟨hready, hbinds, hidentity, _, horder, rfl⟩, entries_orderRecord,
    List.nodup_singleton _, fun hrole => absurd hrole hprimary, fun _ => rfl, ?_⟩
  intro readiness hpass
  refine @verify_accepts env observe evaluation [] _ ?_ ?_ ?_ readiness hpass
  · intro e he
    rw [List.mem_singleton.mp he]
    exact ⟨name, rfl, hname⟩
  · intro e he
    rw [List.mem_singleton.mp he]
    exact hempty
  · intro e he
    exact absurd he List.not_mem_nil

/-- **Of a ready observation the planner makes a sound order exactly when it is orderable.** -/
theorem standby_order (hrun : evaluate env observe policyFile now evaluatedAt = .ok evaluation.json)
    (hready : isReady evaluation.json = true) (hobservation : observation? observe.json = some observation)
    (hlocal : localName observe.json = some (.str name)) (hname : name ≠ "") :
    OrderLaw env observe evaluation observation name ↔ Orderable observe observation name := by
  have hbinds := evaluate_binds hrun
  constructor
  · rintro ⟨order, es, hplan, _, hnodup, hprimary, _⟩
    obtain ⟨_, _, hidentity, es', hes', _⟩ := planOrder_ok.mp hplan
    obtain ⟨_, role, _, _, hrole, hshape⟩ := order_some.mp hes'
    have hsame : role = observation.databaseRole := by
      rw [(observation_some hobservation).2.1] at hrole
      injection hrole with hrole
      injection hrole with hrole
      exact hrole.symm
    refine ⟨hidentity, ?_⟩
    rcases hshape with ⟨hp, _⟩ | ⟨_, hends, _⟩
    · have hp' : observation.databaseRole = "PRIMARY" := hsame.symm.trans hp
      obtain ⟨standbys, rfl, hperm, _⟩ := hprimary hp'
      exact .inl ⟨hp', (names_nodup rfl hperm).mp hnodup⟩
    · exact .inr (hsame ▸ hends)
  · rintro ⟨hidentity, ⟨hrole, hnot⟩ | hends⟩
    · exact primary_law hready hbinds hobservation hlocal hname hidentity hrole hnot
    · exact standby_law hready hbinds hobservation hlocal hname hidentity hends

end

/-! ## Runs -/

/-- A primary with two standbys, the second nearer than the first. -/
def twoStandbys : Json := fixedObservation "prod" "PRIMARY" [fixedMember "prod_b" 40, fixedMember "prod_c" 7]

theorem standby_order_primary :
    ∃ evaluation observation, evaluate fixedEnv (fixedFile twoStandbys) (fixedFile fixedPolicy) 1767225610 "" =
        .ok evaluation ∧ observation? twoStandbys = some observation ∧
      OrderLaw fixedEnv (fixedFile twoStandbys) (fixedFile evaluation) observation "prod" := by
  have hrun : endsWith (evaluate fixedEnv (fixedFile twoStandbys) (fixedFile fixedPolicy) 1767225610 "") isReady = true := by
    decide +kernel
  obtain ⟨evaluation, h, hready⟩ := endsWith_iff.mp hrun
  obtain ⟨observation, _, _, hobservation, _⟩ := evaluate_ok h
  have horderable : (observation? twoStandbys).any (fun o => o.databaseRole == "PRIMARY" &&
      !(o.members.map (·.dbUniqueName)).contains "prod") = true := by decide +kernel
  have hlocal : localName twoStandbys = some (.str "prod") := rfl
  have hidentity : nativeIdentity twoStandbys = true := by decide +kernel
  have hobs : observation? twoStandbys = some observation := hobservation
  rw [hobs] at horderable
  simp only [Option.any_some, Bool.and_eq_true, beq_iff_eq, Bool.not_eq_true', List.contains_eq_mem,
    decide_eq_false_iff_not] at horderable
  refine ⟨evaluation, observation, h, hobs, ?_⟩
  exact (@standby_order fixedEnv (fixedFile twoStandbys) (fixedFile fixedPolicy) (fixedFile evaluation) 1767225610 ""
    "prod" observation h hready hobs hlocal (by decide)).mpr ⟨hidentity, .inl horderable⟩

/-- A primary that is a member of its own observation. -/
def ownMember : Json := fixedObservation "prod" "PRIMARY" [fixedMember "prod" 7]

/-- **The evaluator finds it ready and the planner lists it twice.** -/
theorem primary_listed_twice :
    ∃ evaluation observation, evaluate fixedEnv (fixedFile ownMember) (fixedFile fixedPolicy) 1767225610 "" =
        .ok evaluation ∧ isReady evaluation = true ∧ observation? ownMember = some observation ∧
      ¬ OrderLaw fixedEnv (fixedFile ownMember) (fixedFile evaluation) observation "prod" := by
  have hrun : endsWith (evaluate fixedEnv (fixedFile ownMember) (fixedFile fixedPolicy) 1767225610 "") isReady = true := by
    decide +kernel
  obtain ⟨evaluation, h, hready⟩ := endsWith_iff.mp hrun
  obtain ⟨observation, _, _, hobservation, _⟩ := evaluate_ok h
  have hobs : observation? ownMember = some observation := hobservation
  have hown : (observation? ownMember).any (fun o => o.databaseRole == "PRIMARY" &&
      (o.members.map (·.dbUniqueName)).contains "prod") = true := by decide +kernel
  rw [hobs] at hown
  simp only [Option.any_some, Bool.and_eq_true, beq_iff_eq, List.contains_eq_mem, decide_eq_true_eq] at hown
  refine ⟨evaluation, observation, h, hready, hobs, ?_⟩
  rintro ⟨_, es, _, _, hnodup, hprimary, _⟩
  obtain ⟨standbys, rfl, hperm, _⟩ := hprimary hown.1
  exact (names_nodup rfl hperm).mp hnodup hown.2

end OraclePatching.DataGuard
