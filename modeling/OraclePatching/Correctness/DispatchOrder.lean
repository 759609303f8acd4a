import OraclePatching.Controller.Effects
import OraclePatching.Controller.Replay
import OraclePatching.Queue.Jobs

/-!
# `Correctness.DispatchOrder` — the order of the task IDs and the order of the stages

`dispatch` numbers the stages of a plan and everybody else recovers their order from the task IDs: `next` and
`claim` from the glob, the agent queue by comparing the IDs themselves. The number has three digits, so this works
for up to 999 stages (`dispatchOrder_of_bounds`) and no further (`queued_length`): the thousandth task sorts before
the second hundred. Likewise the name of a node may be as long as an identifier, but a task ID holds a stage name
as well.
-/

namespace OraclePatching

/-! ## The agent queue -/

/-- The peers a queued job waits for: those with a smaller task ID. -/
def queueWaitsFor (ids : List String) (id : String) : List String := ids.filter fun other => other < id

/-- An identifier of the controller is one of the queue. -/
theorem queueIdentifier_of_valid {value label : String} (h : opuValidateIdentifier value label = .ok ()) :
    queueIdentifier value = true := by
  obtain ⟨⟨_, hlen⟩, hshape⟩ := opuValidateIdentifier_ok.mp h
  unfold identifierShape at hshape
  rw [String.characters_eq] at hshape
  unfold queueIdentifier
  rw [← String.length_toList] at hlen
  cases hl : value.toList with
  | nil => rw [hl] at hshape; exact absurd hshape (by simp)
  | cons c cs =>
      rw [hl] at hshape hlen
      simp only [List.all_cons, Bool.and_eq_true] at hshape
      simp only [Bool.and_eq_true, decide_eq_true_eq]
      rw [List.length_cons] at hlen
      exact ⟨⟨hshape.1, hshape.2.2⟩, by omega⟩

/-! ## Order of task IDs

A task ID begins with its number, padded to three digits. Up to 999 the order of the texts is the order of the
numbers; the thousandth task comes too early. -/

section
variable {i j : Nat} {stage stage' node node' : String}

/-- Task IDs with three-digit numbers are ordered by their numbers, also with a suffix. -/
theorem taskIdOf_append_lt (h : i < j) (hj : j < 1000) (suffix : String) :
    taskIdOf i stage node ++ suffix < taskIdOf j stage' node' ++ suffix := by
  rw [String.lt_iff, String.toList_append, String.toList_append, taskIdOf_toList, taskIdOf_toList, List.append_assoc,
    List.append_assoc]
  exact Decimal.label_lt (by decide) hj h _ _

/-- The thousandth task sorts before the hundred and first. -/
theorem taskIdOf_overflow : taskIdOf 1000 stage node < taskIdOf 101 stage' node' := by
  rw [String.lt_iff, taskIdOf_toList, taskIdOf_toList]
  have h1 : Decimal.padded 3 1000 = ['1', '0', '0', '0'] := by decide
  have h2 : Decimal.padded 3 101 = ['1', '0', '1'] := by decide
  rw [h1, h2]
  simp only [List.cons_append, List.cons_lt_cons_iff]
  exact .inr ⟨trivial, .inr ⟨trivial, .inl (by decide)⟩⟩

end

section
variable {cfg : Config} {plan : Plan} {authorizationSha256 authorizationRecordSha256 : Digest} {index : Nat}
  {stages : List (String × String)}

/-- Up to number 999 the task files are sorted as they are written. -/
theorem materialiseFrom_sorted (h : index + stages.length ≤ 1000) (suffix : String) :
    (materialiseFrom cfg plan authorizationSha256 authorizationRecordSha256 index stages).Pairwise fun a b =>
      a.taskId ++ suffix < b.taskId ++ suffix := by
  induction stages generalizing index with
  | nil => exact List.Pairwise.nil
  | cons p rest ih =>
      obtain ⟨stage, node⟩ := p
      rw [List.length_cons] at h
      refine List.Pairwise.cons (fun t ht => ?_) (ih (by omega))
      obtain ⟨j, _, _, rfl, _, h1, h2⟩ := mem_materialiseFrom ht
      exact taskIdOf_append_lt (by omega) (by omega) suffix

/-- The tasks are the stages, in order. -/
theorem materialiseFrom_stages :
    (materialiseFrom cfg plan authorizationSha256 authorizationRecordSha256 index stages).map
      (fun t => (t.stage, t.node)) = stages := by
  induction stages generalizing index with
  | nil => rfl
  | cons p rest ih =>
      obtain ⟨stage, node⟩ := p
      rw [materialiseFrom, List.map_cons, ih]
      rfl

/-- The task file under a number, with the files before it. -/
theorem materialiseFrom_split (authorizationSha256 authorizationRecordSha256 : Digest) (index : Nat) {k : Nat} (h : k < stages.length) :
    ∃ stage node rest, materialiseFrom cfg plan authorizationSha256 authorizationRecordSha256 index stages =
      materialiseFrom cfg plan authorizationSha256 authorizationRecordSha256 index (stages.take k) ++
        writeTask cfg (taskIdOf (index + k) stage node) plan stage node authorizationSha256
          authorizationRecordSha256 :: rest := by
  induction stages generalizing index k with
  | nil => exact absurd h (by simp)
  | cons p more ih =>
      obtain ⟨stage, node⟩ := p
      cases k with
      | zero => exact ⟨stage, node, _, rfl⟩
      | succ k =>
          obtain ⟨stage', node', rest, heq⟩ := ih (index + 1) (k := k) (by simpa using h)
          refine ⟨stage', node', rest, ?_⟩
          rw [List.take_succ_cons, materialiseFrom, materialiseFrom, heq, List.cons_append,
            show index + (k + 1) = index + 1 + k by omega]

end

/-! ## Names of stages and nodes -/

/-- The characters of a stage name. -/
def stageShape (stage : String) : Bool := stage.toList.all fun c => c.isAlphanum || c == '_'

theorem dashed_identifier {stage : String} (h : stageShape stage = true) {c : Char} (hc : c ∈ (dashed stage).toList) :
    identifierChar c = true := by
  rw [dashed, String.toList_ofList] at hc
  obtain ⟨b, hb, rfl⟩ := List.mem_map.mp hc
  have hshape := List.all_eq_true.mp h b hb
  by_cases hu : b = '_'
  · rw [if_pos hu]
    rfl
  · rw [if_neg hu]
    have : b.isAlphanum = true := by simpa [hu] using hshape
    simp [identifierChar, this]

theorem length_dashed (stage : String) : (dashed stage).length = stage.length := by
  rw [dashed, String.length_ofList, List.length_map, String.length_toList]

/-- The nodes a plan names are identifiers. -/
structure NamedNodes (b : PlanBody) : Prop where
  lines : ∀ node ∈ nodeLines b.nodes, identifierShape node = true
  coordinator : b.adapter.isDistributed = true → identifierShape b.target.coordinatorNode = true
  first : b.adapter.isDistributed = false → identifierShape (firstNode b.nodes) = true

theorem mem_perNode {nodes stages : List String} {p : String × String} (h : p ∈ perNode nodes stages) :
    p.1 ∈ stages ∧ p.2 ∈ nodes := by
  obtain ⟨node, hnode, h⟩ := List.mem_flatMap.mp h
  obtain ⟨stage, hstage, rfl⟩ := List.mem_map.mp h
  exact ⟨hstage, hnode⟩

/-- Stages per node followed by single stages: their names and nodes, checked list by list. -/
theorem mem_staged {nodes stages : List String} {rest : List (String × String)} {P : String → Prop}
    {p : String × String} (h : p ∈ perNode nodes stages ++ rest) (hstages : stages.all stageShape = true)
    (hnodes : ∀ node ∈ nodes, P node) (hrest : ∀ q ∈ rest, stageShape q.1 = true ∧ P q.2) :
    stageShape p.1 = true ∧ P p.2 := by
  rcases List.mem_append.mp h with h | h
  · obtain ⟨h1, h2⟩ := mem_perNode h
    exact ⟨List.all_eq_true.mp hstages _ h1, hnodes _ h2⟩
  · exact hrest p h

section
variable {P : String → Prop} {a b c l m n : String}

theorem staged_one (ha : stageShape a = true) (hl : P l) : ∀ q ∈ [(a, l)], stageShape q.1 = true ∧ P q.2 :=
  List.forall_mem_singleton.mpr ⟨ha, hl⟩

theorem staged_two (ha : stageShape a = true) (hb : stageShape b = true) (hl : P l) (hm : P m) :
    ∀ q ∈ [(a, l), (b, m)], stageShape q.1 = true ∧ P q.2 :=
  List.forall_mem_cons.mpr ⟨⟨ha, hl⟩, staged_one hb hm⟩

theorem staged_three (ha : stageShape a = true) (hb : stageShape b = true) (hc : stageShape c = true) (hl : P l)
    (hm : P m) (hn : P n) : ∀ q ∈ [(a, l), (b, m), (c, n)], stageShape q.1 = true ∧ P q.2 :=
  List.forall_mem_cons.mpr ⟨⟨ha, hl⟩, staged_two hb hc hm hn⟩

end

/-- Every adapter dispatches stages of that form, on nodes of the plan or on the coordinator. -/
theorem mem_dispatchStages {P : String → Prop} {adapter : Adapter} {nodes : List String} {coordinatorNode : String}
    {p : String × String} (hlines : ∀ node ∈ nodeLines nodes, P node) (hlocal : P "local")
    (hcoord : adapter.isDistributed = true → P coordinatorNode)
    (hfirst : adapter.isDistributed = false → P (firstNode nodes))
    (hp : p ∈ dispatchStages adapter nodes coordinatorNode) : stageShape p.1 = true ∧ P p.2 := by
  -- only one node: the first of the plan
  have hone : adapter.isDistributed = false → ∀ node ∈ [firstNode nodes], P node :=
    fun hb => List.forall_mem_singleton.mpr (hfirst hb)
  cases adapter with
  | databaseSingleInstanceOpatch =>
      exact mem_staged hp (by decide +kernel) hlines
        (staged_two (by decide +kernel) (by decide +kernel) hlocal hlocal)
  | databaseSingleInstanceOpatchRollback =>
      exact mem_staged hp (by decide +kernel) (hone rfl)
        (staged_two (by decide +kernel) (by decide +kernel) hlocal hlocal)
  | databaseRollingOpatch =>
      exact mem_staged hp (by decide +kernel) hlines
        (staged_two (by decide +kernel) (by decide +kernel) (hcoord rfl) (hcoord rfl))
  | databaseRacOpatchRollback =>
      exact mem_staged hp (by decide +kernel) hlines
        (staged_two (by decide +kernel) (by decide +kernel) (hcoord rfl) (hcoord rfl))
  | gridRollingOpatch =>
      exact mem_staged hp (by decide +kernel) hlines (staged_one (by decide +kernel) (hcoord rfl))
  | gridRollingOpatchRollback =>
      exact mem_staged hp (by decide +kernel) hlines (staged_one (by decide +kernel) (hcoord rfl))
  | gridRollingOpatchauto =>
      exact mem_staged hp (by decide +kernel) hlines (staged_one (by decide +kernel) (hcoord rfl))
  | gridRollingOpatchautoRollback =>
      exact mem_staged hp (by decide +kernel) hlines (staged_one (by decide +kernel) (hcoord rfl))
  | databaseOjvmOpatch =>
      exact mem_staged hp (by decide +kernel) (hone rfl)
        (staged_three (by decide +kernel) (by decide +kernel) (by decide +kernel) hlocal (hfirst rfl) hlocal)
  | databaseOjvmOpatchRollback =>
      exact mem_staged hp (by decide +kernel) (hone rfl)
        (staged_three (by decide +kernel) (by decide +kernel) (by decide +kernel) hlocal (hfirst rfl) hlocal)
  | databaseOutOfPlaceSwitch =>
      exact mem_staged hp (by decide +kernel) (hone rfl)
        (staged_two (by decide +kernel) (by decide +kernel) hlocal hlocal)
  | databaseOutOfPlaceSwitchback =>
      exact mem_staged hp (by decide +kernel) (hone rfl)
        (staged_two (by decide +kernel) (by decide +kernel) hlocal hlocal)

/-- The same for the stages of a plan. -/
theorem mem_stages {b : PlanBody} (h : NamedNodes b) {p : String × String} (hp : p ∈ b.stages) :
    stageShape p.1 = true ∧ identifierShape p.2 = true :=
  mem_dispatchStages (P := fun node => identifierShape node = true) h.lines (by decide +kernel) h.coordinator h.first hp

/-! ## Reachable plans -/

section
variable {cfg : Config} {w : World} {s : Store} {sc : Script}

theorem namedNodes_created {id requester : String} {inputs : Inputs} {body : PlanBody}
    (h : CreateAccepted cfg w s id requester sc inputs body) : NamedNodes body := by
  have hnodes := h.nodes
  rw [verifyNodes, ensure_bind_ok, check_bind_ok, check_bind_ok, forEach_ok] at hnodes
  obtain ⟨_, hfirst, hlines, _⟩ := hnodes
  have hfirst' := (opuValidateIdentifier_ok.mp hfirst).2
  refine ⟨fun node hnode => ?_, fun hdist => ?_, fun _ => ?_⟩
  · rw [h.nodesAre] at hnode
    exact (opuValidateIdentifier_ok.mp (hlines node hnode)).2
  · rw [h.adapter] at hdist
    rw [h.coordinator hdist]
    exact hfirst'
  · rw [h.nodesAre]
    exact hfirst'

theorem namedNodes_rollback {id requester sourceId detail : String} {source : PlanDir} {body : PlanBody}
    (h : RollbackAccepted cfg s id requester sourceId sc source body detail) (hsource : NamedNodes source.plan.toPlanBody) :
    NamedNodes body := by
  have hlines : ∀ node ∈ nodeLines body.nodes, node ∈ nodeLines source.plan.nodes := by
    intro node hnode
    rcases h.nodes with ⟨hn, _⟩ | ⟨hn, _⟩
    · rw [hn, nodeLines, List.mem_flatMap] at hnode
      obtain ⟨line, hline, hnode⟩ := hnode
      exact List.mem_flatMap.mpr ⟨line, List.mem_reverse.mp hline, hnode⟩
    · rwa [hn] at hnode
  refine ⟨fun node hnode => hsource.lines node (hlines node hnode), fun hdist => ?_, fun hdist => ?_⟩
  · rw [h.target]
    exact hsource.coordinator (h.distributed ▸ hdist)
  · rw [h.distributed] at hdist
    rcases h.nodes with ⟨_, h1⟩ | ⟨hn, _⟩
    · rw [h1] at hdist
      exact absurd hdist (by simp)
    · rw [hn]
      exact hsource.first hdist

/-- Every plan that the commands leave names its nodes by identifiers, whoever is killed when. -/
theorem namedNodes_reached {allowed : Store → Invocation → Prop} {as : List Invocation}
    (h : Reached cfg allowed as s) : ∀ id d, s.plans.lookup id = some d → NamedNodes d.plan.toPlanBody := by
  refine Trace.Run.invariant (I := fun _ s => ∀ id d, s.plans.lookup id = some d → NamedNodes d.plan.toPlanBody)
    ?_ ?_ h
  · intro s hs id d hd
    rw [hs] at hd
    exact absurd hd (by simp [Store.empty])
  · intro _ s i s' _ ih _ hs' id d' hd'
    injection hs' with hs'
    rw [← hs'] at hd'
    rcases after_cases hd' with h1 | ⟨rfl, sc, body, _, _, hcreate, rfl⟩ | ⟨rfl, d, sc, hd, _, hran⟩
    · exact ih id d' h1
    · cases hcreate with
      | apply _ hacc => exact namedNodes_created hacc
      | rollback _ hacc => exact namedNodes_rollback hacc (ih _ _ hacc.found)
    · rw [(reached_cut hran).plan]
      exact ih i.id d hd

end

/-! ## Dispatch order -/

/-- The tasks of a dispatch, as everybody else sees them: the glob lists the stages in their order, the agent queue
    makes a job wait for the tasks that were materialised before it and for no other, and every task ID is one that
    `claim`, `complete` and the queue accept. -/
structure DispatchOrder (cfg : Config) (plan : Plan) (z : Authorization) : Prop where
  enumerated : (dispatchedTasks cfg plan z).map (fun t => (t.stage, t.node)) = plan.stages
  queued : ∀ before t behind,
    materialise cfg plan (cfg.hashFile (.authorization z)) (cfg.hashString (.authorization z)) =
        before ++ t :: behind →
      queueWaitsFor ((before ++ t :: behind).map (·.taskId)) t.taskId = before.map (·.taskId)
  identifiers : ∀ t ∈ dispatchedTasks cfg plan z,
    opuValidateIdentifier t.taskId "task ID" = .ok () ∧ queueIdentifier t.taskId = true

section
variable {cfg : Config} {plan : Plan} {z : Authorization}

/-- Three digits, two dashes, the stage and the node. -/
theorem length_taskIdOf {j : Nat} (hj : j < 1000) (stage node : String) :
    (taskIdOf j stage node).length = 5 + (stage.length + node.length) := by
  rw [← String.length_toList, taskIdOf_toList, List.length_append, List.length_cons, List.length_append,
    List.length_cons, Decimal.length_padded (w := 3) (by decide) hj, String.length_toList, String.length_toList,
    length_dashed]
  omega

/-- A task ID is made like an identifier. -/
theorem identifierShape_taskIdOf {j : Nat} {stage node : String} (hstage : stageShape stage = true)
    (hnode : identifierShape node = true) : identifierShape (taskIdOf j stage node) = true := by
  have hdigit : ∀ c ∈ Decimal.padded 3 j, c.isAlphanum = true := fun c hc => by
    rw [Char.isAlphanum, Decimal.isDigit_of_mem_padded hc, Bool.or_true]
  have hall : ∀ c ∈ (taskIdOf j stage node).toList, identifierChar c = true := by
    intro c hc
    rw [taskIdOf_toList, List.mem_append, List.mem_cons, List.mem_append, List.mem_cons] at hc
    rcases hc with hc | rfl | hc | rfl | hc
    · rw [identifierChar, hdigit c hc]
      rfl
    · rfl
    · exact dashed_identifier hstage hc
    · rfl
    · exact identifierShape_mem hnode hc
  unfold identifierShape
  rw [String.characters_eq]
  cases hl : (taskIdOf j stage node).toList with
  | nil =>
      rw [taskIdOf_toList] at hl
      exact absurd hl (by simp)
  | cons c cs =>
      rw [hl] at hall
      simp only [Bool.and_eq_true, List.all_eq_true]
      refine ⟨?_, hall⟩
      rw [taskIdOf_toList] at hl
      cases hp : Decimal.padded 3 j with
      | nil => exact absurd hp (Decimal.padded_ne_nil 3 j)
      | cons b bs =>
          rw [hp, List.cons_append, List.cons.injEq] at hl
          exact hl.1 ▸ hdigit b (hp ▸ List.mem_cons_self)

/-- **Within the bounds all three orders are the order of the stages.** -/
theorem dispatchOrder_of_bounds (hnodes : NamedNodes plan.toPlanBody) (hcount : plan.stages.length ≤ 999)
    (hnames : ∀ p ∈ plan.stages, p.1.length + p.2.length ≤ 123) : DispatchOrder cfg plan z := by
  -- three digits lead every name, so the names sort as the stages were planned
  have hsorted : ∀ suffix, (materialise cfg plan (cfg.hashFile (.authorization z))
      (cfg.hashString (.authorization z))).Pairwise fun a b => a.taskId ++ suffix < b.taskId ++ suffix :=
    fun suffix => materialiseFrom_sorted (by omega) suffix
  have hglob : dispatchedTasks cfg plan z = materialise cfg plan (cfg.hashFile (.authorization z))
      (cfg.hashString (.authorization z)) :=
    List.Pairwise.insertionSort_eq ((hsorted ".json").imp Std.le_of_lt)
  refine ⟨?_, fun before t behind hsplit => ?_, fun t ht => ?_⟩
  · rw [hglob]
    exact materialiseFrom_stages
  -- the queue waits for the names that are smaller: the tasks before this one
  · have hids := hsorted ""
    simp only [String.append_empty] at hids
    rw [hsplit, List.pairwise_append, List.pairwise_cons] at hids
    obtain ⟨_, ⟨hbehind, _⟩, hbefore⟩ := hids
    rw [queueWaitsFor, List.map_append, List.map_cons, List.filter_append]
    have h1 : (before.map (·.taskId)).filter (fun other => decide (other < t.taskId)) = before.map (·.taskId) :=
      List.filter_eq_self.mpr fun id hid => by
        obtain ⟨u, hu, rfl⟩ := List.mem_map.mp hid
        exact decide_eq_true (hbefore u hu t List.mem_cons_self)
    have h2 : (t.taskId :: behind.map (·.taskId)).filter (fun other => decide (other < t.taskId)) = [] :=
      List.filter_eq_nil_iff.mpr fun id hid => by
        intro hlt
        rcases List.mem_cons.mp hid with rfl | hid
        · exact String.lt_irrefl _ (of_decide_eq_true hlt)
        · obtain ⟨u, hu, rfl⟩ := List.mem_map.mp hid
          exact String.lt_asymm (hbehind u hu) (of_decide_eq_true hlt)
    rw [h1, h2, List.append_nil]
  · rw [hglob] at ht
    obtain ⟨j, stage, node, rfl, hmem, _, hj⟩ := mem_materialiseFrom ht
    obtain ⟨hstage, hnode⟩ := mem_stages hnodes hmem
    have hid : opuValidateIdentifier (taskIdOf j stage node) "task ID" = .ok () := by
      have hlen := length_taskIdOf (by omega : j < 1000) stage node
      have hname : stage.length + node.length ≤ 123 := hnames _ hmem
      refine opuValidateIdentifier_ok.mpr ⟨⟨fun hempty => ?_, by omega⟩, identifierShape_taskIdOf hstage hnode⟩
      rw [hempty] at hlen
      exact absurd hlen (by simp; omega)
    exact ⟨hid, queueIdentifier_of_valid hid⟩

/-- The queue loses the order at the thousandth task. -/
theorem queued_length (h : DispatchOrder cfg plan z) : plan.stages.length ≤ 999 := by
  by_contra hlong
  have hshort : 100 < (plan.stages.take 999).length := by rw [List.length_take]; omega
  obtain ⟨stage, node, behind, hsplit⟩ := materialiseFrom_split (cfg.hashFile (.authorization z))
    (cfg.hashString (.authorization z)) 1 (show 999 < plan.stages.length by omega)
  obtain ⟨stage', node', rest, hsplit'⟩ := materialiseFrom_split (cfg.hashFile (.authorization z))
    (cfg.hashString (.authorization z)) 1 hshort
  have hwaits := h.queued _ _ _ hsplit
  -- the hundred and first task is materialised before the thousandth, but the queue does not wait for it
  have hbefore : taskIdOf 101 stage' node' ∈ (materialiseFrom cfg plan (cfg.hashFile (.authorization z))
      (cfg.hashString (.authorization z)) 1 (plan.stages.take 999)).map (·.taskId) := by
    rw [hsplit', List.map_append, List.map_cons]
    exact List.mem_append_right _ List.mem_cons_self
  rw [← hwaits] at hbefore
  have hlt := of_decide_eq_true (List.mem_filter.mp hbefore).2
  exact absurd (Std.lt_trans hlt taskIdOf_overflow) (Std.lt_irrefl)

/-- In the other direction: IDs that are accepted are short enough. -/
theorem identifiers_length (h : DispatchOrder cfg plan z) (hcount : plan.stages.length ≤ 999) :
    ∀ p ∈ plan.stages, p.1.length + p.2.length ≤ 123 := by
  rintro ⟨stage, node⟩ hp
  -- the task file of the stage
  obtain ⟨t, ht, hpair⟩ := List.mem_map.mp (show (stage, node) ∈ (dispatchedTasks cfg plan z).map
    (fun t => (t.stage, t.node)) from h.enumerated.symm ▸ hp)
  obtain ⟨j, stage', node', rfl, _, _, hj⟩ := mem_materialiseFrom (mem_globOrder.mp ht)
  obtain ⟨rfl, rfl⟩ := Prod.mk.injEq .. ▸ hpair
  have hid := (opuValidateIdentifier_ok.mp (h.identifiers _ ht).1).1.2
  rw [show (writeTask cfg (taskIdOf j stage' node') plan stage' node' (cfg.hashFile (.authorization z))
    (cfg.hashString (.authorization z))).taskId = taskIdOf j stage' node' from rfl,
    length_taskIdOf (by omega)] at hid
  show stage'.length + node'.length ≤ 123
  omega

end

/-- **Task-ID order is dispatch order exactly for plans of at most 999 stages, none of which has a stage and node name
    of more than 123 characters together.** -/
theorem dispatch_order {cfg : Config} {allowed : Store → Invocation → Prop} {as : List Invocation} {s : Store}
    (h : Reached cfg allowed as s) {id : String} {d : PlanDir} (hd : s.plans.lookup id = some d) (z : Authorization) :
    DispatchOrder cfg d.plan z ↔
      d.plan.stages.length ≤ 999 ∧ ∀ p ∈ d.plan.stages, p.1.length + p.2.length ≤ 123 := by
  constructor
  · intro horder
    have hcount := queued_length horder
    exact ⟨hcount, identifiers_length horder hcount⟩
  · rintro ⟨hcount, hnames⟩
    exact dispatchOrder_of_bounds (namedNodes_reached h id d hd) hcount hnames

/-- The five tasks of `p1` are claimed in the order of its stages. -/
theorem dispatch_order_dispatched :
    ∃ d, (replay lab labDispatched).plans.lookup "p1" = some d ∧ ∀ z, DispatchOrder lab d.plan z := by
  have h : ((replay lab labDispatched).plans.lookup "p1").map (·.plan) = some labPlan := by decide +kernel
  obtain ⟨d, hd, hplan⟩ := Option.map_eq_some_iff.mp h
  refine ⟨d, hd, fun z => (dispatch_order (replay_whole (by decide)) hd z).mpr ?_⟩
  rw [hplan]
  decide +kernel

/-- `create` for a node whose name has 128 characters. -/
def labLongNode : List Invocation :=
  [{ id := "p1", command := .create "ann" "2026-01-10T00:00:00Z" "2026-01-10T06:00:00Z",
     world := { labWorld [] with
       inputs := .ok { labInputs with expectedNodes := [String.ofList (List.replicate 128 'n')] } },
     killedAfter := none }]

/-- The plan is created, and whoever authorizes it, its first task ID is too long for `claim`. -/
theorem dispatch_order_long_node :
    ∃ d, Reached lab whole labLongNode (replay lab labLongNode) ∧
      (replay lab labLongNode).plans.lookup "p1" = some d ∧ ∀ z, ¬ DispatchOrder lab d.plan z := by
  have h : ((replay lab labLongNode).plans.lookup "p1").map (fun d => d.plan.stages) =
      some (["precheck", "apply", "validate"].map (fun stage => (stage, String.ofList (List.replicate 128 'n'))) ++
        [("datapatch", "local"), ("final_validate", "local")]) := by decide +kernel
  obtain ⟨d, hd, hstages⟩ := Option.map_eq_some_iff.mp h
  refine ⟨d, replay_whole (by decide), hd, fun z horder => ?_⟩
  have hcount := queued_length horder
  have hfirst : ("precheck", String.ofList (List.replicate 128 'n')) ∈ d.plan.stages :=
    hstages ▸ List.mem_append_left _ (List.mem_map.mpr ⟨"precheck", List.mem_cons_self, rfl⟩)
  have hname := identifiers_length horder hcount _ hfirst
  have hlen : (String.ofList (List.replicate 128 'n')).length = 128 := by
    rw [String.length_ofList, List.length_replicate]
  exact absurd (Nat.le_trans (Nat.le_add_left _ _) hname) (by rw [hlen]; decide)

end OraclePatching
