import Mathlib.Data.List.Induction
import OraclePatching.Compatibility.Reconcile

/-!
# `Correctness.CompatibilitySoundness` — what a reconciled compatibility document says, and when that is so

`emit` starts with `status=passed` and sets it to `passed` again where there are no findings, so that the document of
a patch that must not be applied says `passed` too. What it says is therefore true exactly when there was nothing to
find (`Clean`). The two loops are followed one result and one pair at a time: as long as nothing is found, the text of
keys and the kept results are those of all results so far.
-/

namespace OraclePatching.Compatibility

variable (tools : Tools) {p : Procedure} {i : Inputs}

/-! ## What `passed` promises -/

/-- The results of all documents. -/
def results (i : Inputs) : List Json := i.documents.flatMap Document.checks

/-- A pair the topology expects: a node, and the Grid home or the home of a database. -/
def Expected (p : Procedure) (i : Inputs) (node home : Json) : Prop :=
  node ∈ expectedNodes i ∧
    if p.family = "grid" then i.reconciliation.at' ["cluster", "grid_home"] = some home
    else ∃ database ∈ databases i, database.field "oracle_home" = some home

def AllBound (p : Procedure) (i : Inputs) : Prop := ∀ d ∈ i.documents, bound p d.value = true

/-- Every expected pair has a result that passes. -/
def Answered (p : Procedure) (i : Inputs) : Prop :=
  ∀ node home, Expected p i node home →
    ∃ c ∈ results i, c.field "node" = some node ∧ c.field "home" = some home ∧ Compatibility.passes p.platform c = true

/-- Two results for one node and one home. -/
def SamePair (c c' : Json) : Prop := c.field "node" = c'.field "node" ∧ c.field "home" = c'.field "home"

structure Sound (p : Procedure) (i : Inputs) (report : Report) : Prop where
  findings : report.findings = []
  bound : AllBound p i
  single : (results i).Pairwise fun c c' => ¬ SamePair c c'
  answered : Answered p i

/-! ## When nothing is found -/

/-- `$node|$home` of a result. -/
def checkKey (c : Json) : Option String := do
  let node ← shellField tools "node" c
  let home ← shellField tools "home" c
  some (keyOf node home)

/-- The keys of these results between line breaks. -/
def keyText (cs : List Json) : List Char := Words.text '\n' (cs.map fun c => ((checkKey tools c).getD "").toList)

/-- The key of no result is found among those before it. -/
def Fresh (cs : List Json) : Prop :=
  ∀ pre c, pre ++ [c] <+: cs → sees (keyText tools pre) ((checkKey tools c).getD "") = false

/-- The key of the pair is found, and the first result that has it passes. -/
def Passes (p : Procedure) (cs : List Json) (pair : String × String) : Prop :=
  sees (keyText tools cs) (keyOf pair.1 pair.2) = true ∧
    ∀ c, cs.find? (fun c => itemKey tools c == keyOf pair.1 pair.2) = some c → passes p.platform c = true

/-- The loop over the pairs comes to a result of this node and this home. It does not where the text of a name is
    not the name, and behind an error of `jq`. -/
def Reaches (p : Procedure) (i : Inputs) (node home : Json) : Prop :=
  ∃ pair ∈ expectedPairs tools p i, ∃ c ∈ results i,
    (results i).find? (fun c => itemKey tools c == keyOf pair.1 pair.2) = some c ∧
      c.field "node" = some node ∧ c.field "home" = some home

structure Clean (p : Procedure) (i : Inputs) : Prop where
  bound : AllBound p i
  fresh : Fresh tools (results i)
  passes : ∀ pair ∈ expectedPairs tools p i, Passes tools p (results i) pair
  /-- What the loop does not come to passes all the same. -/
  unreached : ∀ node home, Expected p i node home → ¬ Reaches tools p i node home →
    ∃ c ∈ results i, c.field "node" = some node ∧ c.field "home" = some home ∧ Compatibility.passes p.platform c = true

/-! ## One result -/

variable {tools} {s s' : Collected} {c : Json} {cs : List Json}

theorem keyText_append : keyText tools (cs ++ [c]) =
    keyText tools cs ++ ((checkKey tools c).getD "").toList ++ ['\n'] := by
  unfold keyText
  rw [List.map_append, List.map_singleton, Words.text_append, List.append_assoc]

theorem fresh_append : Fresh tools (cs ++ [c]) ↔
    Fresh tools cs ∧ sees (keyText tools cs) ((checkKey tools c).getD "") = false := by
  constructor
  · intro h
    refine ⟨fun pre c' hpre => h pre c' (hpre.trans (List.prefix_append cs [c])), h cs c (List.prefix_refl _)⟩
  · rintro ⟨hcs, hc⟩ pre c' hpre
    rcases List.prefix_concat_iff.mp hpre with heq | hpre
    · obtain ⟨rfl, hlast⟩ := List.append_inj' heq rfl
      obtain rfl := List.singleton_inj.mp hlast
      exact hc
    · exact hcs pre c' hpre

/-- A result whose key is found makes a finding; another is kept. -/
theorem collectCheck_some (h : collectCheck tools s c = some s') :
    (sees s.seen ((checkKey tools c).getD "") = true ∧ s'.findings ≠ []) ∨
      (sees s.seen ((checkKey tools c).getD "") = false ∧
        s' = { s with seen := s.seen ++ ((checkKey tools c).getD "").toList ++ ['\n'], checks := s.checks ++ [c] }) := by
  unfold collectCheck at h
  simp only [Option.bind_eq_bind, Option.bind_eq_some_iff] at h
  obtain ⟨node, hnode, home, hhome, h⟩ := h
  have hkey : (checkKey tools c).getD "" = keyOf node home := by
    simp [checkKey, hnode, hhome]
  rw [hkey]
  split at h
  · rename_i hsees
    obtain rfl := Option.some.inj h
    exact .inl ⟨hsees, by simp [Collected.finding]⟩
  · rename_i hsees
    obtain rfl := Option.some.inj h
    exact .inr ⟨eq_false_of_ne_true hsees, rfl⟩

/-- **First loop.** Nothing is found exactly when all keys are fresh, and then the state is that of all results. -/
theorem collectChecks_clean (h : cs.foldlM (collectCheck tools) Collected.start = some s) :
    (s.findings = [] ↔ Fresh tools cs) ∧ (s.findings = [] → s.seen = keyText tools cs ∧ s.checks = cs) := by
  induction cs using List.reverseRecOn generalizing s with
  | nil =>
      obtain rfl := Option.some.inj h
      refine ⟨⟨fun _ pre c hpre => absurd hpre (by simp), fun _ => rfl⟩, fun _ => ⟨rfl, rfl⟩⟩
  | append_singleton cs c ih =>
      rw [List.foldlM_append, Option.bind_eq_bind, Option.bind_eq_some_iff] at h
      obtain ⟨t, ht, hlast⟩ := h
      obtain ⟨hclean, hstate⟩ := ih ht
      have hlast : collectCheck tools t c = some s := by simpa using hlast
      rw [fresh_append, ← hclean]
      rcases collectCheck_some hlast with ⟨hsees, hfound⟩ | ⟨hsees, rfl⟩
      · refine ⟨⟨fun hnil => absurd hnil hfound, ?_⟩, fun hnil => absurd hnil hfound⟩
        rintro ⟨hnil, hfresh⟩
        rw [(hstate hnil).1, hfresh] at hsees
        exact absurd hsees (by simp)
      · refine ⟨⟨fun hnil => ⟨hnil, ?_⟩, fun hnil => hnil.1⟩, fun hnil => ?_⟩
        · rw [← (hstate hnil).1]
          exact hsees
        · obtain ⟨hseen, hchecks⟩ := hstate hnil
          rw [keyText_append, ← hseen, hchecks]
          exact ⟨rfl, rfl⟩

/-! ## One document -/

variable {docs : List Document} {d : Document}

theorem collectChecks_findings (h : cs.foldlM (collectCheck tools) s = some s') (hnil : s'.findings = []) :
    s.findings = [] := by
  induction cs generalizing s with
  | nil =>
      obtain rfl := Option.some.inj h
      exact hnil
  | cons c cs ih =>
      rw [List.foldlM_cons, Option.bind_eq_bind, Option.bind_eq_some_iff] at h
      obtain ⟨t, ht, hrest⟩ := h
      have htnil := ih hrest
      rcases collectCheck_some ht with ⟨-, hfound⟩ | ⟨-, rfl⟩
      · exact absurd htnil hfound
      · exact htnil

/-- A document that is not bound makes a finding. -/
theorem collectDocuments_bound (h : docs.foldlM (collectDocument tools p) s = some s') (hnil : s'.findings = []) :
    s.findings = [] ∧ ∀ d ∈ docs, bound p d.value = true := by
  induction docs generalizing s with
  | nil =>
      obtain rfl := Option.some.inj h
      exact ⟨hnil, fun d hd => absurd hd List.not_mem_nil⟩
  | cons d docs ih =>
      rw [List.foldlM_cons, Option.bind_eq_bind, Option.bind_eq_some_iff] at h
      obtain ⟨t, ht, hrest⟩ := h
      obtain ⟨htnil, hdocs⟩ := ih hrest
      unfold collectDocument at ht
      split at ht
      · rename_i hbound
        refine ⟨collectChecks_findings ht htnil, fun d' hd' => ?_⟩
        rcases List.mem_cons.mp hd' with rfl | hd'
        · exact hbound
        · exact hdocs d' hd'
      · obtain rfl := Option.some.inj ht
        exact absurd htnil (by simp [Collected.finding])

/-- Bound documents are gone over as one list of results. -/
theorem collectDocuments_flat (hbound : ∀ d ∈ docs, bound p d.value = true) :
    docs.foldlM (collectDocument tools p) s = (docs.flatMap Document.checks).foldlM (collectCheck tools) s := by
  induction docs generalizing s with
  | nil => rfl
  | cons d docs ih =>
      rw [List.foldlM_cons, List.flatMap_cons, List.foldlM_append]
      have hd : collectDocument tools p s d = d.checks.foldlM (collectCheck tools) s := by
        rw [collectDocument, if_pos (hbound d List.mem_cons_self)]
      rw [hd]
      congr 1
      funext t
      exact ih fun d' hd' => hbound d' (List.mem_cons_of_mem d hd')

/-! ## One pair -/

variable {pair : String × String} {pairs : List (String × String)}

/-- The pair is answered by what was kept. -/
def Answers (tools : Tools) (p : Procedure) (s : Collected) (pair : String × String) : Prop :=
  sees s.seen (keyOf pair.1 pair.2) = true ∧
    ∀ c, s.checks.find? (fun c => itemKey tools c == keyOf pair.1 pair.2) = some c → passes p.platform c = true

theorem collectPair_some (h : collectPair tools p s pair = some s') :
    (Answers tools p s pair ∧ s' = s) ∨ (¬ Answers tools p s pair ∧ s'.findings ≠ []) := by
  unfold collectPair at h
  split at h
  · rename_i hsees
    simp only [Option.bind_eq_bind, Option.bind_eq_some_iff] at h
    obtain ⟨c, hfind, h⟩ := h
    split at h
    · rename_i hpasses
      refine .inl ⟨⟨hsees, fun c' hc' => ?_⟩, (Option.some.inj h).symm⟩
      obtain rfl := Option.some.inj (hfind.symm.trans hc')
      exact hpasses
    · rename_i hfails
      obtain rfl := Option.some.inj h
      exact .inr ⟨fun hanswers => hfails (hanswers.2 c hfind), by simp [Collected.finding]⟩
  · rename_i hsees
    obtain rfl := Option.some.inj h
    exact .inr ⟨fun hanswers => hsees hanswers.1, by simp [Collected.finding]⟩

/-- **Second loop.** Nothing more is found exactly when every pair is answered. -/
theorem collectPairs_clean (h : pairs.foldlM (collectPair tools p) s = some s') :
    s'.findings = [] ↔ s.findings = [] ∧ ∀ pair ∈ pairs, Answers tools p s pair := by
  induction pairs generalizing s with
  | nil =>
      obtain rfl := Option.some.inj h
      simp
  | cons pair pairs ih =>
      rw [List.foldlM_cons, Option.bind_eq_bind, Option.bind_eq_some_iff] at h
      obtain ⟨t, ht, hrest⟩ := h
      rw [ih hrest]
      rcases collectPair_some ht with ⟨hanswers, rfl⟩ | ⟨hnot, hfound⟩
      · simp [hanswers]
      · constructor
        · rintro ⟨hnil, -⟩
          exact absurd hnil hfound
        · rintro ⟨-, hall⟩
          exact absurd (hall pair List.mem_cons_self) hnot

/-! ## The whole run -/

/-- Nothing is found exactly when all documents are bound, all keys fresh, and all pairs answered. -/
theorem collect_clean (h : collect tools p i = some s) :
    s.findings = [] ↔ AllBound p i ∧ Fresh tools (results i) ∧
      ∀ pair ∈ expectedPairs tools p i, Passes tools p (results i) pair := by
  unfold collect at h
  simp only [Option.bind_eq_bind, Option.bind_eq_some_iff] at h
  obtain ⟨t, hdocs, hpairs⟩ := h
  rw [collectPairs_clean hpairs]
  by_cases hbound : AllBound p i
  · rw [collectDocuments_flat hbound] at hdocs
    obtain ⟨hclean, hstate⟩ := collectChecks_clean hdocs
    have hpasses : t.findings = [] → ∀ pair, Answers tools p t pair ↔ Passes tools p (results i) pair := by
      intro hnil pair
      obtain ⟨hseen, hchecks⟩ := hstate hnil
      unfold Answers Passes
      rw [hseen, hchecks]
      rfl
    constructor
    · rintro ⟨hnil, hall⟩
      exact ⟨hbound, hclean.mp hnil, fun pair hpair => (hpasses hnil pair).mp (hall pair hpair)⟩
    · rintro ⟨-, hfresh, hall⟩
      have hnil := hclean.mpr hfresh
      exact ⟨hnil, fun pair hpair => (hpasses hnil pair).mpr (hall pair hpair)⟩
  · constructor
    · rintro ⟨hnil, -⟩
      exact absurd (collectDocuments_bound hdocs hnil).2 hbound
    · rintro ⟨h, -⟩
      exact absurd h hbound

/-- Results with fresh keys are for different pairs. -/
theorem single_of_fresh (h : Fresh tools cs) : cs.Pairwise fun c c' => ¬ SamePair c c' := by
  induction cs using List.reverseRecOn with
  | nil => exact List.Pairwise.nil
  | append_singleton cs c ih =>
      obtain ⟨hcs, hc⟩ := fresh_append.mp h
      refine List.pairwise_append.mpr ⟨ih hcs, List.pairwise_singleton _ _, fun c₀ hc₀ c' hc' hsame => ?_⟩
      obtain rfl := List.mem_singleton.mp hc'
      have hkey : checkKey tools c₀ = checkKey tools c' := by
        unfold checkKey shellField
        rw [hsame.1, hsame.2]
      have hsees : sees (keyText tools cs) ((checkKey tools c₀).getD "") = true := by
        refine decide_eq_true (Words.infix_of_mem ?_)
        exact List.mem_map_of_mem hc₀
      rw [hkey, hc] at hsees
      exact absurd hsees (by simp)

/-- The results the loop comes to pass, and so do the others. -/
theorem Clean.answered (h : Clean tools p i) : Answered p i := by
  intro node home hexpected
  by_cases hreaches : Reaches tools p i node home
  · obtain ⟨pair, hpair, c, hc, hfind, hnode, hhome⟩ := hreaches
    exact ⟨c, hc, hnode, hhome, (h.passes pair hpair).2 c hfind⟩
  · exact h.unreached node home hexpected hreaches

/-- **Compatibility.** What the emitted document says is true exactly when every document is bound, no key comes
    twice, the first result of every pair the loop reads passes, and so does a result of every expected pair that the
    loop does not come to. -/
theorem compatibility_soundness (tools : Tools) (i : Inputs) {report : Report} {code : Nat}
    (h : main tools i = some (report, code)) :
    ∃ p, contract i = some p ∧ ((report.status = "passed" → Sound p i report) ↔ Clean tools p i) := by
  unfold main at h
  simp only [Option.bind_eq_bind, Option.bind_eq_some_iff] at h
  obtain ⟨p, hp, s, hs, h⟩ := h
  obtain ⟨rfl, -⟩ := Prod.mk.inj (Option.some.inj h)
  have hclean := collect_clean hs
  have hstatus : (emit p s).status = "passed" := by simp [emit]
  refine ⟨p, hp, fun hsound => ?_, fun h _ => ?_⟩
  · obtain ⟨hnil, -, -, hanswered⟩ := hsound hstatus
    obtain ⟨hbound, hfresh, hpasses⟩ := hclean.mp hnil
    exact ⟨hbound, hfresh, hpasses, fun node home hexpected _ => hanswered node home hexpected⟩
  · refine ⟨hclean.mpr ⟨h.bound, h.fresh, h.passes⟩, h.bound, single_of_fresh h.fresh, h.answered⟩

/-! ## Two runs -/

def labTools : Tools where
  order := .numbers
  format := .ofFraction (fun _ => "0.5") (fun _ => Jq.plain_half) (fun _ => Jq.integer_half)
  document := fun _ => "{}"

def labSha : String := String.ofList (List.replicate 64 'a')

/-- One node with its Grid home. -/
def labReconciliation : Json :=
  .obj [("schema_version", .str "1.0"), ("status", .str "consistent"), ("expected_nodes", .arr [.str "n1"]),
    ("oracle_homes", .arr []), ("databases", .arr []), ("cluster", .obj [("grid_home", .str "/g")])]

def labProcedure : Json :=
  .obj [("schema_version", .str "1.0"), ("status", .str "ready_for_planning"),
    ("procedure", .obj [("patch_id", .str "1"), ("artifact_sha256", .str labSha),
      ("target", .obj [("family", .str "grid"), ("platform_id", .str "226")])])]

def labCheck (name : String) : Json :=
  .obj [("name", .str name), ("status", .str "passed"), ("exit_code", .num 0), ("evidence_path", .str "/e"),
    ("evidence_sha256", .str labSha)]

def labResult : Json :=
  .obj [("node", .str "n1"), ("home", .str "/g"), ("status", .str "passed"),
    ("platform", .obj [("status", .str "passed"), ("host_id", .str "226"), ("procedure_id", .str "226"),
      ("artifact_ids", .arr [.str "226"])]),
    ("opatch", .obj [("status", .str "passed")]),
    ("applicability_check", labCheck "CheckPatchApplicableOnCurrentPlatform"),
    ("conflict_check", labCheck "CheckConflictAgainstOHWithDetail")]

/-- The result of the node, for the patch `patchId`. -/
def labInputs (patchId : String) : Inputs where
  reconciliation := labReconciliation
  procedure := labProcedure
  documents := [⟨"/c", some (.obj [("schema_version", .str "1.0"), ("patch_id", .str patchId),
    ("artifact_sha256", .str labSha), ("target", .obj [("family", .str "grid"), ("platform_id", .str "226")]),
    ("checks", .arr [labResult])])⟩]

theorem labAnswered (hfamily : p.family = "grid") (hplatform : p.platform = "226") : Answered p (labInputs "1") := by
  rintro node home ⟨hnode, hhome⟩
  rw [if_pos hfamily] at hhome
  obtain rfl := List.mem_singleton.mp (show node ∈ [Json.str "n1"] from hnode)
  obtain rfl := Option.some.inj (show some (Json.str "/g") = some home from hhome)
  refine ⟨labResult, List.mem_singleton.mpr rfl, rfl, rfl, ?_⟩
  rw [hplatform]
  decide +kernel

theorem compatibility_soundness_single : ∃ report p, main labTools (labInputs "1") = some (report, 0) ∧
    contract (labInputs "1") = some p ∧ report.status = "passed" ∧ Sound p (labInputs "1") report ∧
    Clean labTools p (labInputs "1") := by
  have hrun : (main labTools (labInputs "1")).map (fun r => (r.1.status, r.1.findings, r.2)) =
      some ("passed", [], 0) := by decide +kernel
  obtain ⟨⟨report, code⟩, hmain, heq⟩ := Option.map_eq_some_iff.mp hrun
  obtain ⟨hstatus, hrest⟩ := Prod.mk.inj heq
  obtain ⟨hfindings, hcode⟩ := Prod.mk.inj hrest
  obtain rfl : code = 0 := hcode
  obtain ⟨p, hp, hiff⟩ := compatibility_soundness labTools (labInputs "1") hmain
  have hread : (contract (labInputs "1")).map (fun p => (p.family, p.platform)) = some ("grid", "226") := by
    decide +kernel
  rw [hp] at hread
  obtain ⟨hfamily, hplatform⟩ := Prod.mk.inj (Option.some.inj hread)
  unfold main at hmain
  simp only [Option.bind_eq_bind, Option.bind_eq_some_iff] at hmain
  obtain ⟨p', hp', s, hs, hemit⟩ := hmain
  obtain rfl := Option.some.inj (hp.symm.trans hp')
  obtain ⟨rfl, -⟩ := Prod.mk.inj (Option.some.inj hemit)
  obtain ⟨hbound, hfresh, hpasses⟩ := (collect_clean hs).mp hfindings
  have hclean : Clean labTools p (labInputs "1") := 
    ⟨hbound, hfresh, hpasses, fun node home hexpected _ => labAnswered hfamily hplatform node home hexpected⟩
  have hmain : main labTools (labInputs "1") = some (emit p s, 0) := by
    simp [main, hp, hs, Prod.mk.inj (Option.some.inj hemit)]
  exact ⟨emit p s, p, hmain, hp, hstatus, hiff.mpr hclean hstatus, hclean⟩

/-- **Passed.** The only document is for another patch, so that nothing is known of the node. -/
theorem unbound_document_passes : ∃ report p, main labTools (labInputs "2") = some (report, 2) ∧
    contract (labInputs "2") = some p ∧ report.status = "passed" ∧
    report.findings.map Finding.code = ["COMPATIBILITY_DOCUMENT_INVALID", "COMPATIBILITY_MISSING"] ∧
    ¬ AllBound p (labInputs "2") ∧ ¬ (report.status = "passed" → Sound p (labInputs "2") report) := by
  have hrun : (main labTools (labInputs "2")).map (fun r => (r.1.status, r.1.findings.map Finding.code, r.2)) =
      some ("passed", ["COMPATIBILITY_DOCUMENT_INVALID", "COMPATIBILITY_MISSING"], 2) := by decide +kernel
  obtain ⟨⟨report, code⟩, hmain, heq⟩ := Option.map_eq_some_iff.mp hrun
  obtain ⟨hstatus, hrest⟩ := Prod.mk.inj heq
  obtain ⟨hfindings, hcode⟩ := Prod.mk.inj hrest
  obtain rfl : code = 2 := hcode
  have hcontract : (contract (labInputs "2")).any (fun p => !bound p ((labInputs "2").documents.head?.bind (·.value))) =
      true := by decide +kernel
  obtain ⟨p, hp, hunbound⟩ := (Option.any_eq_true _ _).mp hcontract
  have hnot : ¬ AllBound p (labInputs "2") := by
    intro h
    have := h _ List.mem_cons_self
    rw [Bool.not_eq_true'] at hunbound
    exact absurd (this.symm.trans hunbound) (by simp)
  exact ⟨report, p, hmain, hp, hstatus, hfindings, hnot, fun h => hnot (h hstatus).bound⟩

end OraclePatching.Compatibility
