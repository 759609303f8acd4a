import Mathlib.Data.List.Induction
import Mathlib.Data.String.Basic
import OraclePatching.Readiness.Snapshots

/-!
# `Correctness.SnapshotReconciliation` — when the verdict on a set of snapshots is the one their contents call for

The loop compares every snapshot with the first and collects hosts as words of a text; as long as nothing blocks, the
state is a function of the snapshots read (`collect_quiet`), and what is said of it does not depend on their order. The
homes are the exception: the loop over them sees what jq prints before its first error, so that an unfit home may stay
unseen. The verdict is right exactly when it does not (`Seen`).
-/

namespace OraclePatching.Readiness

variable (tools : SnapshotTools) {files : List SnapshotFile} {f g : SnapshotFile} {j j' : Json}

/-! ## What the snapshots have to satisfy -/

def FreeOfSpace (name : String) : Prop := ∀ c ∈ name.toList, c.isWhitespace = false

/-- The snapshot is present and valid. -/
def Present (f : SnapshotFile) : Prop := f.regular = true ∧ validSnapshot f.value = true

/-- In the valid snapshots host and node names have no white space, and node names are texts. -/
structure Named (files : List SnapshotFile) : Prop where
  host : ∀ f ∈ files, Present f → ∀ j, f.value = some j → FreeOfSpace (tools.text (j.at' ["host", "name"]))
  node : ∀ f ∈ files, Present f → ∀ j nodes, f.value = some j → clusterNodes j = some nodes → ∀ n ∈ nodes, ∃ name,
    n.field "name" = some (.str name) ∧ FreeOfSpace name

def readingAt (f : SnapshotFile) : Option Reading := f.value.bind (readingOf tools)

/-- The projections on cluster membership, Grid, Oracle homes and databases are the same. -/
def Reading.Same (b r : Reading) : Prop :=
  b.expected = r.expected ∧ b.grid = r.grid ∧ b.homesCompare = r.homesCompare ∧ b.databases = r.databases

def Agree (f g : SnapshotFile) : Prop := ∀ r r', readingAt tools f = some r → readingAt tools g = some r' → r.Same r'

/-- The host is an active node, if the snapshot lists nodes. -/
def Active (j : Json) : Prop :=
  ∀ nodes, clusterNodes j = some nodes → nodes ≠ [] → ∃ n ∈ nodes,
    n.field "name" = some (.str (hostOf tools j)) ∧ n.field "status" = some (.str "Active")

/-- Every member node is the short host name of some snapshot. -/
def Covered (files : List SnapshotFile) : Prop :=
  ∀ f ∈ files, ∀ j nodes, f.value = some j → clusterNodes j = some nodes → ∀ n ∈ nodes, ∀ name,
    n.field "name" = some (.str name) → ∃ g ∈ files, ∃ j', g.value = some j' ∧ hostOf tools j' = Jq.dropNul name

/-- Everything but the platforms of the homes is as it has to be. -/
structure Unblocked (files : List SnapshotFile) : Prop where
  present : ∀ f ∈ files, Present f
  agree : ∀ f ∈ files, ∀ g ∈ files, Agree tools f g
  member : Covered tools files
  active : ∀ f ∈ files, ∀ j, f.value = some j → Active tools j

/-- Collected platform evidence with an ID of digits, a name, the OPatch XML source and a digest. -/
structure Fit (home : Json) : Prop where
  status : home.at' ["platform", "status"] = some (.str "collected")
  id : ∃ id, home.at' ["platform", "id"] = some (.str id) ∧ digits id.toList = true
  name : ∃ name, home.at' ["platform", "name"] = some (.str name) ∧ name ≠ ""
  source : home.at' ["platform", "source"] = some (.str "opatch_lsinventory_xml")
  digest : ∃ digest, home.at' ["platform", "source_sha256"] = some (.str digest) ∧ sha256Shape digest = true

def AllFit (files : List SnapshotFile) : Prop :=
  ∀ f ∈ files, ∀ j, f.value = some j → ∀ home ∈ homeItems j, Fit home

/-- What `consistent` means. -/
def Exact (files : List SnapshotFile) : Prop := Unblocked tools files ∧ AllFit files

/-- A home is reported: jq rejects it, meets no error on one before it, and prints a line for its path. -/
def Reported (j : Json) : Prop :=
  ∃ pre home suf path, homeItems j = pre ++ home :: suf ∧ (∀ h ∈ pre, unavailablePath h ≠ none) ∧
    unavailablePath home = some [path] ∧ ∃ line ∈ Shell.lines (Jq.raw tools.format tools.document path), line ≠ ""

/-- Where nothing else blocks and no home is reported, every home is fit. -/
def Seen (files : List SnapshotFile) : Prop :=
  Unblocked tools files → (∀ f ∈ files, ∀ j, f.value = some j → ¬ Reported tools j) → AllFit files

/-! ## Findings that block

The verdict depends on one thing only, whether some finding blocks. `Blocks` pushes that question through the ways
in which findings are put together. -/

def Blocks (gates : List Gate) : Prop := ∃ g ∈ gates, g.status = .blocker

/-- A list blocks if one of its parts does. -/
theorem blocks_append {gates gates' : List Gate} : Blocks (gates ++ gates') ↔ Blocks gates ∨ Blocks gates' := by
  unfold Blocks
  simp only [List.mem_append, or_and_right, exists_or]

theorem blocks_gateUnless {ok : Bool} {name message : String} : Blocks (gateUnless ok name message) ↔ ok = false := by
  cases ok <;> simp [gateUnless, Blocks]

/-- Findings about lines block when there is a line and the status says so. -/
theorem blocks_map {xs : List String} {name : String} {status : Status} {message : String → String} :
    Blocks (xs.map fun line => (⟨name, status, message line⟩ : Gate)) ↔ status = .blocker ∧ ∃ line, line ∈ xs := by
  unfold Blocks
  constructor
  · rintro ⟨g, hg, hb⟩
    obtain ⟨line, hline, rfl⟩ := List.mem_map.mp hg
    exact ⟨hb, line, hline⟩
  · rintro ⟨hb, line, hline⟩
    exact ⟨_, List.mem_map_of_mem hline, hb⟩

/-- Findings about several things block when those about one of them do. -/
theorem blocks_flatMap {xs : List String} {f : String → List Gate} :
    Blocks (xs.flatMap f) ↔ ∃ x ∈ xs, Blocks (f x) := by
  unfold Blocks
  constructor
  · rintro ⟨g, hg, hb⟩
    obtain ⟨x, hx, hgx⟩ := List.mem_flatMap.mp hg
    exact ⟨x, hx, g, hgx, hb⟩
  · rintro ⟨x, hx, g, hgx, hb⟩
    exact ⟨g, List.mem_flatMap.mpr ⟨x, hx, hgx⟩, hb⟩

/-- An entry `cut` takes apart as it was put together. -/
def OneLine (g : Gate) : Prop := g.name ∈ Tool.snapshotReconcile.names ∧ '\n' ∉ g.detail.toList

/-- Without line breaks the tool sees what blocks. -/
theorem hasBlocker_iff_blocks {gates : List Gate} (h : ∀ g ∈ gates, OneLine g) :
    hasBlocker gates = true ↔ Blocks gates :=
  hasBlocker_iff (fun g hg => Tool.snapshotReconcile.shortNames g.name (h g hg).1) fun g hg => (h g hg).2

/-- A check with a message of one line. -/
theorem oneLine_gateUnless {ok : Bool} {name message : String} (hname : name ∈ Tool.snapshotReconcile.names)
    (hline : '\n' ∉ message.toList) : ∀ g ∈ gateUnless ok name message, OneLine g := by
  intro g hg
  unfold gateUnless at hg
  split at hg
  · exact absurd hg List.not_mem_nil
  · obtain rfl := List.mem_singleton.mp hg
    exact ⟨hname, hline⟩

/-! ## Lines and words -/

/-- A character that is in neither text is not in both together. -/
theorem not_mem_append {c : Char} {a b : String} (ha : c ∉ a.toList) (hb : c ∉ b.toList) : c ∉ (a ++ b).toList := by
  rw [String.toList_append, List.mem_append]
  rintro (h | h)
  · exact ha h
  · exact hb h

theorem lines_no_break {text line : String} (h : line ∈ Shell.lines text) : '\n' ∉ line.toList := by
  obtain ⟨cs, hcs, rfl⟩ := List.mem_map.mp h
  rw [String.toList_ofList]
  exact CutText.not_mem_of_mem_splitOn hcs

/-- A text of one line is read as it is, without NUL bytes. -/
theorem lines_of_one {text : String} (h : '\n' ∉ text.toList) : Shell.lines text = [Jq.dropNul text] := by
  unfold Shell.lines Jq.dropNul
  rw [String.characters_eq, List.splitOn_eq_singleton fun hmem => h (List.mem_filter.mp hmem).1]
  rfl

theorem FreeOfSpace.no_break {name : String} (h : FreeOfSpace name) : '\n' ∉ name.toList :=
  fun hmem => absurd (h '\n' hmem) (by decide)

theorem FreeOfSpace.no_blank {name : String} (h : FreeOfSpace name) : ' ' ∉ name.toList :=
  fun hmem => absurd (h ' ' hmem) (by decide)

/-- The captured names between blanks. -/
theorem capturedText_eq {captured : List String} (hne : captured ≠ []) :
    capturedText captured = Words.text ' ' (captured.map String.toList) := by
  unfold capturedText
  induction captured with
  | nil => exact absurd rfl hne
  | cons c cs ih =>
      cases cs with
      | nil => simp [Words.text]
      | cons d ds =>
          have ih := ih (List.cons_ne_nil d ds)
          rw [List.map_cons, List.intercalate_cons_of_ne_nil (by simp), Words.text, ← ih]
          simp

/-- Words without blanks are found exactly when they are there. -/
theorem isCaptured_iff {captured : List String} {node : String} (hne : captured ≠ [])
    (hcaptured : ∀ c ∈ captured, ' ' ∉ c.toList) (hnode : ' ' ∉ node.toList) :
    isCaptured captured node = true ↔ node ∈ captured := by
  unfold isCaptured
  rw [decide_eq_true_iff, capturedText_eq hne, Words.infix_text hnode]
  · rw [List.mem_map]
    constructor
    · rintro ⟨c, hc, heq⟩
      rwa [← String.toList_inj.mp heq]
    · intro h
      exact ⟨node, h, rfl⟩
  · intro w hw
    obtain ⟨c, hc, rfl⟩ := List.mem_map.mp hw
    exact hcaptured c hc

/-! ## One reading

What the loop reads of a snapshot, related to the document it comes from. `unique` and `sort_by` of jq only matter
through the names they keep. -/

section
variable {tools} {r : Reading}

theorem reading_host (h : readingOf tools j = some r) : r.host = hostOf tools j := by
  unfold readingOf at h
  simp only [Option.bind_eq_bind, Option.bind_eq_some_iff] at h
  obtain ⟨_, _, _, _, _, _, _, _, _, _, h⟩ := h
  rw [← Option.some.inj h]

theorem reading_expected (h : readingOf tools j = some r) : expectedOf tools j = some r.expected := by
  unfold readingOf at h
  simp only [Option.bind_eq_bind, Option.bind_eq_some_iff] at h
  obtain ⟨expected, hexpected, _, _, _, _, _, _, _, _, h⟩ := h
  rw [← Option.some.inj h]
  exact hexpected

/-- The short form of a host name without white space has none. -/
theorem hostOf_freeOfSpace (h : FreeOfSpace (tools.text (j.at' ["host", "name"]))) : FreeOfSpace (hostOf tools j) := by
  intro c hc
  have hshort := Shell.cmdSubst_sub hc
  unfold shortHost at hshort
  rw [String.toList_ofList] at hshort
  exact h c ((List.takeWhile_sublist _).subset hshort)

/-- A host name has come through the shell, so it has no NUL. -/
theorem hostOf_no_nul : Jq.dropNul (hostOf tools j) = hostOf tools j := by
  have hmem : ∀ c ∈ (hostOf tools j).toList, (c != Char.ofNat 0) = true := by
    intro c hc
    unfold hostOf Shell.cmdSubst at hc
    rw [String.characters_eq, String.toList_ofList, List.mem_reverse] at hc
    have hc := (List.dropWhile_sublist _).subset hc
    rw [List.mem_reverse] at hc
    exact (List.mem_filter.mp hc).2
  unfold Jq.dropNul
  rw [List.filter_eq_self.mpr hmem, String.ofList_toList]

/-- Sorted values of which no two are equal to jq but not the same stay when duplicates go. -/
theorem mem_firstsAfter {order : Jq.Order} {a v : Json} {xs : List Json}
    (hanti : ∀ x ∈ a :: xs, ∀ y ∈ a :: xs, order.le x y = true → order.le y x = true → x = y)
    (hsorted : (a :: xs).Pairwise fun x y => order.le x y = true) :
    v ∈ a :: Jq.firstsAfter order a xs ↔ v ∈ a :: xs := by
  induction xs generalizing a with
  | nil => rw [Jq.firstsAfter]
  | cons b xs ih =>
      rw [Jq.firstsAfter]
      have hab : order.le a b = true := List.rel_of_pairwise_cons hsorted List.mem_cons_self
      split
      · rename_i hba
        obtain rfl := hanti a List.mem_cons_self b (List.mem_cons_of_mem a List.mem_cons_self) hab hba
        rw [ih (fun x hx y hy => hanti x (List.mem_cons_of_mem a hx) y (List.mem_cons_of_mem a hy)) hsorted.of_cons]
        simp
      · rw [List.mem_cons, ih
          (fun x hx y hy => hanti x (List.mem_cons_of_mem a hx) y (List.mem_cons_of_mem a hy)) hsorted.of_cons,
          ← List.mem_cons]

/-- `sort | unique` keeps every text. -/
theorem mem_unique_texts {xs : List Json} {v : Json} (htexts : ∀ x ∈ xs, ∃ text, x = .str text) :
    v ∈ Jq.unique tools.order (Jq.sortBy tools.order id xs) ↔ v ∈ xs := by
  have hmem : ∀ x, x ∈ Jq.sortBy tools.order id (Jq.sortBy tools.order id xs) ↔ x ∈ xs := fun x =>
    ((Jq.sortBy_perm _ _ _).trans (Jq.sortBy_perm _ _ _)).mem_iff
  have hsorted : (Jq.sortBy tools.order id (Jq.sortBy tools.order id xs)).Pairwise fun a b => tools.order.le a b = true :=
    Jq.sortBy_pairwise tools.order id _
  have hanti : ∀ a ∈ Jq.sortBy tools.order id (Jq.sortBy tools.order id xs),
      ∀ b ∈ Jq.sortBy tools.order id (Jq.sortBy tools.order id xs),
      tools.order.le a b = true → tools.order.le b a = true → a = b := by
    intro a ha b hb hab hba
    obtain ⟨s, rfl⟩ := htexts a ((hmem a).mp ha)
    obtain ⟨t, rfl⟩ := htexts b ((hmem b).mp hb)
    rw [tools.texts s t hab hba]
  rw [← hmem]
  unfold Jq.unique
  cases hxs : Jq.sortBy tools.order id (Jq.sortBy tools.order id xs) with
  | nil => rw [Jq.firsts]
  | cons a ys =>
      rw [hxs] at hsorted hanti
      rw [Jq.firsts]
      exact mem_firstsAfter hanti hsorted

/-- The expected names are those of the nodes, or the host. -/
theorem expectedOf_some {nodes expected : List Json} (hnodes : clusterNodes j = some nodes)
    (hnames : ∀ n ∈ nodes, ∃ name, n.field "name" = some (.str name) ∧ FreeOfSpace name)
    (h : expectedOf tools j = some expected) :
    (nodes = [] ∧ expected = [.str (hostOf tools j)]) ∨
      (nodes ≠ [] ∧ ∀ v, v ∈ expected ↔ ∃ n ∈ nodes, n.field "name" = some v) := by
  unfold expectedOf at h
  simp only [Option.bind_eq_bind, Option.bind_eq_some_iff, hnodes, Option.some.injEq, exists_eq_left'] at h
  obtain ⟨names, hmap, rfl⟩ := h
  have htexts : ∀ v ∈ names, ∃ text, v = .str text := by
    intro v hv
    obtain ⟨n, hn, hname⟩ := Jq.mem_of_mapM hmap hv
    obtain ⟨name, hname', -⟩ := hnames n hn
    exact ⟨name, Option.some.inj (hname.symm.trans hname')⟩
  have hmem : ∀ v, v ∈ Jq.unique tools.order (Jq.sortBy tools.order id names) ↔ ∃ n ∈ nodes, n.field "name" = some v := by
    intro v
    rw [mem_unique_texts htexts]
    constructor
    · exact Jq.mem_of_mapM hmap
    · rintro ⟨n, hn, hname⟩
      obtain ⟨y, hy, hfy⟩ := Jq.mem_mapM hmap hn
      rwa [Option.some.inj (hname.symm.trans hfy)]
  cases nodes with
  | nil =>
      obtain rfl : [] = names := Option.some.inj hmap
      exact .inl ⟨rfl, by simp [Jq.unique, Jq.sortBy, Jq.firsts]⟩
  | cons n nodes =>
      refine .inr ⟨List.cons_ne_nil _ _, fun v => ?_⟩
      obtain ⟨name, hname, -⟩ := hnames n List.mem_cons_self
      have hne : Jq.unique tools.order (Jq.sortBy tools.order id names) ≠ [] :=
        List.ne_nil_of_mem ((hmem _).mpr ⟨n, List.mem_cons_self, hname⟩)
      rw [if_neg (by simpa using hne)]
      exact hmem v

/-- The host is looked for among the active nodes of its own document. -/
theorem hostActive_iff {nodes : List Json} (hnodes : clusterNodes j = some nodes) :
    hostActive (hostOf tools j) nodes = true ↔ Active tools j := by
  unfold hostActive Active
  rw [Bool.or_eq_true, List.isEmpty_iff, List.any_eq_true]
  constructor
  · rintro h nodes' hnodes' hne
    obtain rfl := Option.some.inj (hnodes.symm.trans hnodes')
    obtain ⟨n, hn, hb⟩ := h.resolve_left hne
    rw [Bool.and_eq_true, Json.isStr_iff, Json.isStr_iff] at hb
    exact ⟨n, hn, hb⟩
  · intro h
    by_cases hne : nodes = []
    · exact .inl hne
    · obtain ⟨n, hn, hname, hstatus⟩ := h nodes hnodes hne
      refine .inr ⟨n, hn, ?_⟩
      rw [Bool.and_eq_true, Json.isStr_iff, Json.isStr_iff]
      exact ⟨hname, hstatus⟩

/-! ## Homes

The lines about homes are read from a process substitution, whose failure nobody sees. Reported is what is printed
before the first home that jq stops at. -/

/-- A home prints its path or nothing. -/
theorem unavailablePath_some {home : Json} {out : List Json} (h : unavailablePath home = some out) :
    out = [] ∨ ∃ path, out = [path] := by
  unfold unavailablePath at h
  simp only [Option.bind_eq_bind, Option.bind_eq_some_iff] at h
  obtain ⟨b, -, h⟩ := h
  cases b with
  | false => exact .inl (Option.some.inj h).symm
  | true =>
      obtain ⟨path, -, rfl⟩ := Option.map_eq_some_iff.mp h
      exact .inr ⟨path, rfl⟩

/-- What is printed before the first error was printed for a home. -/
theorem mem_each_out_iff {homes : List Json} {path : Json} :
    path ∈ (Jq.each unavailablePath homes).out ↔ ∃ pre home suf, homes = pre ++ home :: suf ∧
      (∀ h ∈ pre, unavailablePath h ≠ none) ∧ unavailablePath home = some [path] := by
  constructor
  · intro h
    induction homes with
    | nil => exact absurd h List.not_mem_nil
    | cons home homes ih =>
        rw [Jq.each] at h
        cases hhome : unavailablePath home with
        | none =>
            rw [hhome] at h
            exact absurd h List.not_mem_nil
        | some out =>
            rw [hhome] at h
            rcases List.mem_append.mp h with h | h
            · rcases unavailablePath_some hhome with rfl | ⟨path', rfl⟩
              · exact absurd h List.not_mem_nil
              · obtain rfl := List.mem_singleton.mp h
                exact ⟨[], home, homes, rfl, fun w hw => absurd hw List.not_mem_nil, hhome⟩
            · obtain ⟨pre, home', suf, rfl, hpre, hpath⟩ := ih h
              refine ⟨home :: pre, home', suf, rfl, fun w hw => ?_, hpath⟩
              rcases List.mem_cons.mp hw with rfl | hw
              · rw [hhome]
                exact Option.some_ne_none out
              · exact hpre w hw
  · rintro ⟨pre, home, suf, rfl, hpre, hpath⟩
    exact Jq.mem_each_out hpre hpath List.mem_cons_self

/-- There is a line about a home exactly when one is reported. -/
theorem unavailableLines_iff : (∃ line, line ∈ unavailableLines tools j) ↔ Reported tools j := by
  unfold unavailableLines Reported
  simp only [List.mem_filter, List.mem_flatMap, mem_each_out_iff, decide_eq_true_eq]
  constructor
  · rintro ⟨line, ⟨path, ⟨pre, home, suf, hitems, hpre, hpath⟩, hline⟩, hne⟩
    exact ⟨pre, home, suf, path, hitems, hpre, hpath, line, hline, hne⟩
  · rintro ⟨pre, home, suf, path, hitems, hpre, hpath, line, hline, hne⟩
    exact ⟨line, ⟨path, ⟨pre, home, suf, hitems, hpre, hpath⟩, hline⟩, hne⟩

/-- A text whose characters all pass a test that a line break fails is matched to its end. -/
theorem anchored_of_all {p : Char → Bool} {text : String} (hp : p '\n' = false) (h : text.toList.all p = true) :
    Json.anchored text = text.toList := by
  unfold Json.anchored
  rw [String.characters_eq]
  split
  · rename_i cs hcs
    rw [List.all_eq_true] at h
    have hmem : '\n' ∈ text.toList := by
      rw [← List.mem_reverse, hcs]
      exact List.mem_cons_self
    exact absurd (h _ hmem) (by simp [hp])
  · rfl

theorem testText_digits {id : String} (h : digits id.toList = true) : testText digits (some (.str id)) = some true := by
  have hall : id.toList.all Char.isDigit = true := (Bool.and_eq_true _ _ ▸ h).2
  show some (digits (Json.anchored id)) = some true
  rw [anchored_of_all (by decide) hall, h]

theorem testText_sha256 {digest : String} (h : sha256Shape digest = true) :
    testText sha256 (some (.str digest)) = some true := by
  rw [sha256Shape_eq] at h
  have hall : digest.toList.all hexDigit = true := (Bool.and_eq_true _ _ ▸ h).2
  show some (sha256Chars (Json.anchored digest)) = some true
  rw [anchored_of_all (by decide) hall, h]

/-- A fit home is not selected. -/
theorem Fit.available {home : Json} (h : Fit home) : unavailable home = some false := by
  obtain ⟨id, hid, hdigits⟩ := h.id
  obtain ⟨name, hname, hne⟩ := h.name
  obtain ⟨digest, hdigest, hsha⟩ := h.digest
  unfold unavailable
  rw [Jq.anyOf_false]
  intro c hc
  simp only [h.status, hid, hname, h.source, hdigest, List.mem_cons, List.not_mem_nil, or_false] at hc
  rcases hc with rfl | rfl | rfl | rfl | rfl
  · simp [Json.isStr]
  · rw [testText_digits hdigits]
    rfl
  · have hempty : name.isEmpty = false := by simpa using hne
    simp [nameless, Json.orElse, Json.truthy, hempty]
  · simp [Json.isStr]
  · rw [testText_sha256 hsha]
    rfl

/-- Where all homes are fit, none is reported. -/
theorem not_reported_of_fit (h : ∀ home ∈ homeItems j, Fit home) : ¬ Reported tools j := by
  rintro ⟨pre, home, suf, path, hitems, -, hpath, -⟩
  have hfit := h home (by rw [hitems]; simp)
  unfold unavailablePath at hpath
  rw [hfit.available] at hpath
  exact absurd hpath (by simp)

/-! ## One turn of the loop

Each turn compares a snapshot with the first one and looks at its own host and homes. The lemmas say when what it
adds blocks. -/

variable {b : Reading} {nodes : List Json} {baseline : Option Reading} {s s' : SnapshotState}

theorem Reading.Same.symm (h : b.Same r) : r.Same b := ⟨h.1.symm, h.2.1.symm, h.2.2.1.symm, h.2.2.2.symm⟩

theorem Reading.Same.trans {c : Reading} (h : b.Same c) (h' : c.Same r) : b.Same r :=
  ⟨h.1.trans h'.1, h.2.1.trans h'.2.1, h.2.2.1.trans h'.2.2.1, h.2.2.2.trans h'.2.2.2⟩

/-- The comparison blocks when the readings differ. -/
theorem blocks_compareGates : Blocks (compareGates b r) ↔ ¬ b.Same r := by
  unfold compareGates Reading.Same
  simp only [blocks_append, blocks_gateUnless, decide_eq_false_iff_not]
  tauto

/-- **What blocks in a turn**: another reading than the first, a host that is not active, or a home that is reported.
    -/
theorem blocks_readingGates (hnodes : clusterNodes j = some nodes) (hhost : r.host = hostOf tools j) :
    Blocks (readingGates tools baseline j nodes r) ↔
      (∃ b, baseline = some b ∧ ¬ b.Same r) ∨ ¬ Active tools j ∨ Reported tools j := by
  have hcompare : Blocks ((baseline.map fun b => compareGates b r).getD []) ↔ ∃ b, baseline = some b ∧ ¬ b.Same r := by
    cases baseline with
    | none => simp [Blocks]
    | some b => simp [blocks_compareGates]
  have hactive : hostActive r.host nodes = false ↔ ¬ Active tools j := by
    rw [hhost, ← hostActive_iff hnodes, Bool.not_eq_true]
  unfold readingGates
  rw [blocks_append, blocks_append, blocks_append, hcompare, blocks_gateUnless, hactive, blocks_map, blocks_map,
    unavailableLines_iff]
  constructor
  · rintro (((h | h) | ⟨-, h⟩) | ⟨h, -⟩)
    · exact .inl h
    · exact .inr (.inl h)
    · exact .inr (.inr h)
    · exact absurd h (by decide)
  · rintro (h | h | h)
    · exact .inl (.inl (.inl h))
    · exact .inl (.inl (.inr h))
    · exact .inl (.inr ⟨rfl, h⟩)

/-- A snapshot is not there or not valid, or it is read. -/
theorem snapshotStep_some (h : snapshotStep tools s f = some s') :
    (¬ Present f ∧ Blocks s'.gates) ∨
      (Present f ∧ ∃ j r nodes, f.value = some j ∧ readingOf tools j = some r ∧ clusterNodes j = some nodes ∧
        s'.baseline = s.baseline.or (some r) ∧ s'.captured = s.captured ++ [r.host] ∧
        s'.gates = s.gates ++ readingGates tools s.baseline j nodes r) := by
  unfold snapshotStep at h
  split at h
  · rename_i hregular
    split at h
    · rename_i hvalid
      simp only [Option.bind_eq_bind, Option.bind_eq_some_iff] at h
      obtain ⟨sha, -, j, hj, r, hr, nodes, hnodes, h⟩ := h
      obtain rfl := Option.some.inj h
      exact .inr ⟨⟨hregular, hvalid⟩, j, r, nodes, hj, hr, hnodes, rfl, rfl, rfl⟩
    · rename_i hinvalid
      obtain rfl := Option.some.inj h
      refine .inl ⟨fun hpresent => hinvalid hpresent.2, ?_⟩
      exact ⟨_, List.mem_append_right _ (List.mem_singleton.mpr rfl), rfl⟩
  · rename_i hmissing
    obtain rfl := Option.some.inj h
    refine .inl ⟨fun hpresent => hmissing hpresent.1, ?_⟩
    exact ⟨_, List.mem_append_right _ (List.mem_singleton.mpr rfl), rfl⟩

/-- The comparison has findings of one line. -/
theorem oneLine_compareGates : ∀ g ∈ compareGates b r, OneLine g := by
  intro g hg
  unfold compareGates at hg
  simp only [List.mem_append] at hg
  rcases hg with ((hg | hg) | hg) | hg
  · exact oneLine_gateUnless (by decide) (by decide) g hg
  · exact oneLine_gateUnless (by decide) (by decide) g hg
  · exact oneLine_gateUnless (by decide) (by decide) g hg
  · exact oneLine_gateUnless (by decide) (by decide) g hg

/-- The findings of a turn are of one line if the host name is. -/
theorem oneLine_readingGates (hhost : '\n' ∉ r.host.toList) : ∀ g ∈ readingGates tools baseline j nodes r, OneLine g := by
  intro g hg
  unfold readingGates at hg
  simp only [List.mem_append] at hg
  rcases hg with ((hg | hg) | hg) | hg
  · cases baseline with
    | none => exact absurd hg List.not_mem_nil
    | some b => exact oneLine_compareGates g hg
  · refine oneLine_gateUnless (by decide) ?_ g hg
    exact not_mem_append (not_mem_append (by decide) hhost) (by decide)
  · obtain ⟨line, hline, rfl⟩ := List.mem_map.mp hg
    obtain ⟨path, -, hline⟩ := List.mem_flatMap.mp (List.mem_filter.mp hline).1
    have hname : "ORACLE_HOME_PLATFORM_UNAVAILABLE" ∈ Tool.snapshotReconcile.names := by decide
    refine ⟨hname, ?_⟩
    exact not_mem_append (not_mem_append (not_mem_append hhost (by decide)) (lines_no_break hline)) (by decide)
  · obtain ⟨line, hline, rfl⟩ := List.mem_map.mp hg
    have hname : "DISCOVERY_WARNING" ∈ Tool.snapshotReconcile.names := by decide
    refine ⟨hname, ?_⟩
    exact not_mem_append (not_mem_append hhost (by decide)) (lines_no_break (List.mem_filter.mp hline).1)

/-! ## The loop -/

/-- What the loop finds nothing against. -/
structure Quiet (tools : SnapshotTools) (files : List SnapshotFile) : Prop where
  present : ∀ f ∈ files, Present f
  active : ∀ f ∈ files, ∀ j, f.value = some j → Active tools j
  homes : ∀ f ∈ files, ∀ j, f.value = some j → ¬ Reported tools j
  agree : ∀ f ∈ files, ∀ g ∈ files, Agree tools f g

def hostAt (tools : SnapshotTools) (f : SnapshotFile) : String := (f.value.map (hostOf tools)).getD ""

/-- The reading of a file that has a document. -/
theorem readingAt_some (hj : f.value = some j) : readingAt tools f = readingOf tools j := by
  unfold readingAt
  rw [hj]
  rfl

/-- One snapshot more. -/
theorem quiet_append (hj : f.value = some j) (hr : readingOf tools j = some r)
    (hbaseline : baseline = files.head?.bind (readingAt tools)) (hread : ∀ g ∈ files, (readingAt tools g).isSome = true) :
    Quiet tools (files ++ [f]) ↔ Quiet tools files ∧ Present f ∧
      ¬ ((∃ b, baseline = some b ∧ ¬ b.Same r) ∨ ¬ Active tools j ∨ Reported tools j) := by
  have hrf : readingAt tools f = some r := (readingAt_some hj).trans hr
  constructor
  · intro h
    have hf : f ∈ files ++ [f] := List.mem_append_right _ (List.mem_singleton.mpr rfl)
    refine ⟨⟨fun g hg => h.present g (List.mem_append_left _ hg), fun g hg => h.active g (List.mem_append_left _ hg),
      fun g hg => h.homes g (List.mem_append_left _ hg),
      fun g hg g' hg' => h.agree g (List.mem_append_left _ hg) g' (List.mem_append_left _ hg')⟩, h.present f hf, ?_⟩
    rintro (⟨b, hb, hnot⟩ | hnot | hreported)
    · rw [hbaseline] at hb
      obtain ⟨g, hg, hrg⟩ := Option.bind_eq_some_iff.mp hb
      exact hnot (h.agree g (List.mem_append_left _ (List.mem_of_head? hg)) f hf b r hrg hrf)
    · exact hnot (h.active f hf j hj)
    · exact h.homes f hf j hj hreported
  · rintro ⟨h, hpresent, hnot⟩
    simp only [not_or, not_exists, not_and, not_not] at hnot
    obtain ⟨hsame, hactive, hreported⟩ := hnot
    -- every snapshot before agrees with the first, and the first with this one
    have hlast : ∀ g ∈ files, ∀ rg, readingAt tools g = some rg → rg.Same r := by
      intro g hg rg hrg
      cases files with
      | nil => exact absurd hg List.not_mem_nil
      | cons g₀ rest =>
          obtain ⟨r₀, hr₀⟩ := Option.isSome_iff_exists.mp (hread g₀ List.mem_cons_self)
          exact (h.agree g hg g₀ List.mem_cons_self rg r₀ hrg hr₀).trans (hsame r₀ (hbaseline.trans hr₀))
    refine ⟨fun g hg => ?_, fun g hg => ?_, fun g hg => ?_, fun g hg g' hg' => ?_⟩
    · rcases List.mem_append.mp hg with hg | hg
      · exact h.present g hg
      · rw [List.mem_singleton.mp hg]
        exact hpresent
    · rcases List.mem_append.mp hg with hg | hg
      · exact h.active g hg
      · rw [List.mem_singleton.mp hg]
        intro j' hj'
        rw [← Option.some.inj (hj.symm.trans hj')]
        exact hactive
    · rcases List.mem_append.mp hg with hg | hg
      · exact h.homes g hg
      · rw [List.mem_singleton.mp hg]
        intro j' hj'
        rw [← Option.some.inj (hj.symm.trans hj')]
        exact hreported
    · intro rg rg' hrg hrg'
      rcases List.mem_append.mp hg with hg | hg
      · rcases List.mem_append.mp hg' with hg' | hg'
        · exact h.agree g hg g' hg' rg rg' hrg hrg'
        · rw [List.mem_singleton.mp hg'] at hrg'
          rw [← Option.some.inj (hrf.symm.trans hrg')]
          exact hlast g hg rg hrg
      · rw [List.mem_singleton.mp hg] at hrg
        rw [← Option.some.inj (hrf.symm.trans hrg)]
        rcases List.mem_append.mp hg' with hg' | hg'
        · exact (hlast g' hg' rg' hrg').symm
        · rw [List.mem_singleton.mp hg'] at hrg'
          rw [← Option.some.inj (hrf.symm.trans hrg')]
          exact ⟨rfl, rfl, rfl, rfl⟩

/-- **The loop.** Nothing blocks exactly when the snapshots are quiet, and then all of them have been read. -/
theorem collect_quiet (h : files.foldlM (snapshotStep tools) SnapshotState.start = some s) :
    (¬ Blocks s.gates ↔ Quiet tools files) ∧ (¬ Blocks s.gates →
      (∀ f ∈ files, (readingAt tools f).isSome = true) ∧ s.captured = files.map (hostAt tools) ∧
        s.baseline = files.head?.bind (readingAt tools)) := by
  induction files using List.reverseRecOn generalizing s with
  | nil =>
      obtain rfl := Option.some.inj h
      have hnone : ¬ Blocks SnapshotState.start.gates := by simp [Blocks, SnapshotState.start]
      refine ⟨⟨fun _ => ⟨?_, ?_, ?_, ?_⟩, fun _ => hnone⟩, fun _ => ⟨?_, rfl, rfl⟩⟩ <;>
        exact fun f hf => absurd hf List.not_mem_nil
  | append_singleton files f ih =>
      -- the loop keeps its gates in front, so the last file is judged against the baseline of those before it
      rw [List.foldlM_append, Option.bind_eq_bind, Option.bind_eq_some_iff] at h
      obtain ⟨t, ht, hlast⟩ := h
      have hlast : snapshotStep tools t f = some s := by simpa using hlast
      obtain ⟨hquiet, hstate⟩ := ih ht
      rcases snapshotStep_some hlast with ⟨habsent, hblocks⟩ | ⟨hpresent, j, r, nodes, hj, hr, hnodes, hb, hc, hg⟩
      -- the last file cannot be read, which blocks at once
      · refine ⟨⟨fun hnot => absurd hblocks hnot, fun hall => ?_⟩, fun hnot => absurd hblocks hnot⟩
        exact absurd (hall.present f (List.mem_append_right _ (List.mem_singleton.mpr rfl))) habsent
      · have hrf : readingAt tools f = some r := (readingAt_some hj).trans hr
        rw [hg, blocks_append, blocks_readingGates hnodes (reading_host hr), not_or]
        refine ⟨⟨?_, ?_⟩, ?_⟩
        · rintro ⟨hnot, hnew⟩
          obtain ⟨hread, -, hbaseline⟩ := hstate hnot
          exact (quiet_append hj hr hbaseline hread).mpr ⟨hquiet.mp hnot, hpresent, hnew⟩
        · intro hall
          have hfiles : Quiet tools files :=
            ⟨fun g hg => hall.present g (List.mem_append_left _ hg), fun g hg => hall.active g (List.mem_append_left _ hg),
              fun g hg => hall.homes g (List.mem_append_left _ hg),
              fun g hg g' hg' => hall.agree g (List.mem_append_left _ hg) g' (List.mem_append_left _ hg')⟩
          have hnot := hquiet.mpr hfiles
          obtain ⟨hread, -, hbaseline⟩ := hstate hnot
          exact ⟨hnot, ((quiet_append hj hr hbaseline hread).mp hall).2.2⟩
        · rintro ⟨hnot, -⟩
          obtain ⟨hread, hcaptured, hbaseline⟩ := hstate hnot
          refine ⟨fun g hg => ?_, ?_, ?_⟩
          · rcases List.mem_append.mp hg with hg | hg
            · exact hread g hg
            · rw [List.mem_singleton.mp hg, hrf]
              rfl
          · rw [hc, hcaptured, List.map_append, List.map_singleton, hostAt, hj, reading_host hr]
            rfl
          -- the baseline is the first reading, the last one only when there is no other
          · rw [hb, hbaseline]
            cases files with
            | nil => exact hrf.symm
            | cons g₀ rest =>
                obtain ⟨r₀, hr₀⟩ := Option.isSome_iff_exists.mp (hread g₀ List.mem_cons_self)
                show (readingAt tools g₀).or (some r) = readingAt tools g₀
                rw [hr₀]
                rfl

theorem snapshotStep_oneLine (hhost : Present f → ∀ j, f.value = some j → '\n' ∉ (hostOf tools j).toList)
    (hs : ∀ g ∈ s.gates, OneLine g) (h : snapshotStep tools s f = some s') : ∀ g ∈ s'.gates, OneLine g := by
  intro g hg
  unfold snapshotStep at h
  split at h
  · rename_i hregular
    split at h
    · rename_i hvalid
      simp only [Option.bind_eq_bind, Option.bind_eq_some_iff] at h
      obtain ⟨sha, -, j, hj, r, hr, nodes, -, h⟩ := h
      obtain rfl := Option.some.inj h
      rcases List.mem_append.mp hg with hg | hg
      · exact hs g hg
      · exact oneLine_readingGates (by rw [reading_host hr]; exact hhost ⟨hregular, hvalid⟩ j hj) g hg
    · obtain rfl := Option.some.inj h
      rcases List.mem_append.mp hg with hg | hg
      · exact hs g hg
      · rw [List.mem_singleton.mp hg]
        have hname : "SNAPSHOT_INVALID" ∈ Tool.snapshotReconcile.names := by decide
        exact ⟨hname, not_mem_append (by decide) f.line⟩
  · obtain rfl := Option.some.inj h
    rcases List.mem_append.mp hg with hg | hg
    · exact hs g hg
    · rw [List.mem_singleton.mp hg]
      have hname : "SNAPSHOT_UNAVAILABLE" ∈ Tool.snapshotReconcile.names := by decide
      exact ⟨hname, not_mem_append (by decide) f.line⟩

theorem collect_oneLine
    (hhost : ∀ f ∈ files, Present f → ∀ j, f.value = some j → '\n' ∉ (hostOf tools j).toList)
    (hs : ∀ g ∈ s.gates, OneLine g) (h : files.foldlM (snapshotStep tools) s = some s') : ∀ g ∈ s'.gates, OneLine g := by
  induction files generalizing s with
  | nil =>
      obtain rfl := Option.some.inj h
      exact hs
  | cons f files ih =>
      rw [List.foldlM_cons, Option.bind_eq_bind, Option.bind_eq_some_iff] at h
      obtain ⟨t, ht, hrest⟩ := h
      refine ih (fun g hg => hhost g (List.mem_cons_of_mem f hg)) ?_ hrest
      exact snapshotStep_oneLine (hhost f List.mem_cons_self) hs ht

/-! ## Missing snapshots -/

/-- The findings about missing snapshots are of one line. -/
theorem oneLine_missingGates : ∀ g ∈ missingGates tools s, OneLine g := by
  intro g hg
  unfold missingGates at hg
  split at hg
  · obtain ⟨node, hnode, hg⟩ := List.mem_flatMap.mp hg
    obtain ⟨v, -, hnode⟩ := List.mem_flatMap.mp hnode
    refine oneLine_gateUnless (by decide) ?_ g hg
    exact not_mem_append (not_mem_append (by decide) (lines_no_break hnode)) (by decide)
  · rw [List.mem_singleton.mp hg]
    have hname : "NO_VALID_SNAPSHOTS" ∈ Tool.snapshotReconcile.names := by decide
    have hline : '\n' ∉ "No valid topology snapshot was supplied.".toList := by decide
    exact ⟨hname, hline⟩

/-- A file with a reading has a document with nodes. -/
theorem readable (h : (readingAt tools f).isSome = true) :
    ∃ j r nodes, f.value = some j ∧ readingOf tools j = some r ∧ clusterNodes j = some nodes := by
  obtain ⟨r, hr⟩ := Option.isSome_iff_exists.mp h
  obtain ⟨j, hj, hr⟩ := Option.bind_eq_some_iff.mp hr
  have hexpected := reading_expected hr
  unfold expectedOf at hexpected
  rw [Option.bind_eq_bind, Option.bind_eq_some_iff] at hexpected
  obtain ⟨nodes, hnodes, -⟩ := hexpected
  exact ⟨j, r, nodes, hj, hr, hnodes⟩

theorem mem_hosts_iff {host : String} (hread : ∀ f ∈ files, (readingAt tools f).isSome = true) :
    host ∈ files.map (hostAt tools) ↔ ∃ g ∈ files, ∃ j', g.value = some j' ∧ hostOf tools j' = host := by
  rw [List.mem_map]
  constructor
  · rintro ⟨g, hg, rfl⟩
    obtain ⟨j', _, _, hj', -, -⟩ := readable (hread g hg)
    exact ⟨g, hg, j', hj', by rw [hostAt, hj']; rfl⟩
  · rintro ⟨g, hg, j', hj', rfl⟩
    exact ⟨g, hg, by rw [hostAt, hj']; rfl⟩

theorem dropNul_no_blank {name : String} (h : FreeOfSpace name) : ' ' ∉ (Jq.dropNul name).toList :=
  fun hmem => h.no_blank (Jq.mem_dropNul.mp hmem).1

/-- Where all snapshots agree, the nodes of the first one are those of all. -/
theorem blocks_missingGates (hnamed : Named tools files) (hne : files ≠ [])
    (hread : ∀ f ∈ files, (readingAt tools f).isSome = true) (hquiet : Quiet tools files)
    (hcaptured : s.captured = files.map (hostAt tools)) (hbaseline : s.baseline = files.head?.bind (readingAt tools)) :
    ¬ Blocks (missingGates tools s) ↔ Covered tools files := by
  obtain ⟨f₀, rest, rfl⟩ := List.exists_cons_of_ne_nil hne
  obtain ⟨j₀, r₀, nodes₀, hj₀, hr₀, hnodes₀⟩ := readable (hread f₀ List.mem_cons_self)
  have hr₀f : readingAt tools f₀ = some r₀ := (readingAt_some hj₀).trans hr₀
  have hhosts : ∀ c ∈ (f₀ :: rest).map (hostAt tools), ' ' ∉ c.toList := by
    intro c hc
    obtain ⟨g, hg, j', hj', rfl⟩ := (mem_hosts_iff hread).mp hc
    exact (hostOf_freeOfSpace (hnamed.host g hg (hquiet.present g hg) j' hj')).no_blank
  have hgates : missingGates tools s = (expectedLines tools r₀).flatMap fun node =>
      gateUnless (isCaptured s.captured node) "SNAPSHOT_MISSING" ("No snapshot was supplied for active node " ++ node ++ ".") := by
    unfold missingGates
    rw [hbaseline, List.head?_cons, Option.bind_some, hr₀f]
  have hcaught : ¬ Blocks (missingGates tools s) ↔ ∀ node ∈ expectedLines tools r₀, isCaptured s.captured node = true := by
    rw [hgates, blocks_flatMap]
    simp only [blocks_gateUnless, not_exists, not_and, Bool.not_eq_false]
  have hword : ∀ node, ' ' ∉ node.toList →
      (isCaptured s.captured node = true ↔ ∃ g ∈ f₀ :: rest, ∃ j', g.value = some j' ∧ hostOf tools j' = node) := by
    intro node hnode
    rw [hcaptured, isCaptured_iff (by simp) hhosts hnode, mem_hosts_iff hread]
  have hline : ∀ name, FreeOfSpace name → Shell.lines (Jq.raw tools.format tools.document (.str name)) = [Jq.dropNul name] :=
    fun name hname => lines_of_one hname.no_break
  have hpresent₀ : Present f₀ := hquiet.present f₀ List.mem_cons_self
  have hself : FreeOfSpace (hostOf tools j₀) := hostOf_freeOfSpace (hnamed.host f₀ List.mem_cons_self hpresent₀ j₀ hj₀)
  rw [hcaught]
  constructor
  · intro h f hf j nodes hj hnodes n hn name hname
    obtain ⟨name', hname', hfree⟩ := hnamed.node f hf (hquiet.present f hf) j nodes hj hnodes n hn
    obtain rfl : name = name' := Json.str.inj (Option.some.inj (hname.symm.trans hname'))
    -- the name is among the expected ones of its own snapshot, so among those of the first
    obtain ⟨j', r, nodes', hj', hr, -⟩ := readable (hread f hf)
    obtain rfl := Option.some.inj (hj.symm.trans hj')
    have hsame := hquiet.agree f hf f₀ List.mem_cons_self r r₀ ((readingAt_some hj).trans hr) hr₀f
    have hmem : Json.str name ∈ r₀.expected := by
      rw [← hsame.1]
      rcases expectedOf_some hnodes (hnamed.node f hf (hquiet.present f hf) j nodes hj hnodes) (reading_expected hr) with
        ⟨hnil, -⟩ | ⟨-, hiff⟩
      · rw [hnil] at hn
        exact absurd hn List.not_mem_nil
      · exact (hiff _).mpr ⟨n, hn, hname⟩
    refine (hword _ (dropNul_no_blank hfree)).mp (h _ ?_)
    refine List.mem_flatMap.mpr ⟨_, hmem, ?_⟩
    rw [hline name hfree]
    exact List.mem_cons_self
  · intro h node hnode
    obtain ⟨v, hv, hnode⟩ := List.mem_flatMap.mp hnode
    have hnames₀ := hnamed.node f₀ List.mem_cons_self hpresent₀ j₀ nodes₀ hj₀ hnodes₀
    rcases expectedOf_some hnodes₀ hnames₀ (reading_expected hr₀) with ⟨-, hexpected⟩ | ⟨-, hiff⟩
    · rw [hexpected] at hv
      rw [List.mem_singleton.mp hv, hline _ hself, List.mem_singleton, hostOf_no_nul] at hnode
      rw [hnode]
      exact (hword _ hself.no_blank).mpr ⟨f₀, List.mem_cons_self, j₀, hj₀, rfl⟩
    · obtain ⟨n, hn, hname⟩ := (hiff v).mp hv
      obtain ⟨name, hname', hfree⟩ := hnames₀ n hn
      obtain rfl := Option.some.inj (hname.symm.trans hname')
      rw [hline name hfree, List.mem_singleton] at hnode
      rw [hnode]
      exact (hword _ (dropNul_no_blank hfree)).mpr (h f₀ List.mem_cons_self j₀ nodes₀ hj₀ hnodes₀ n hn name hname)

/-! ## The verdict -/

/-- **Verdict.** The status is `consistent` exactly when nothing else blocks and no home is reported. -/
theorem consistent_iff (hnamed : Named tools files) (hne : files ≠ []) {report : SnapshotReport} {code : Nat}
    (h : reconcile tools files = some (report, code)) :
    report.status = "consistent" ↔
      Unblocked tools files ∧ ∀ f ∈ files, ∀ j, f.value = some j → ¬ Reported tools j := by
  unfold reconcile at h
  simp only [Option.bind_eq_bind, Option.bind_eq_some_iff] at h
  obtain ⟨s, hs, h⟩ := h
  obtain ⟨rfl, -⟩ := Prod.mk.inj (Option.some.inj h)
  have hhost : ∀ f ∈ files, Present f → ∀ j, f.value = some j → '\n' ∉ (hostOf tools j).toList :=
    fun f hf hpresent j hj => (hostOf_freeOfSpace (hnamed.host f hf hpresent j hj)).no_break
  -- every gate is one line, so the blocker is found by its line
  have hlines : ∀ g ∈ s.gates ++ missingGates tools s, OneLine g := by
    intro g hg
    rcases List.mem_append.mp hg with hg | hg
    · exact collect_oneLine hhost (fun g hg => absurd hg List.not_mem_nil) hs g hg
    · exact oneLine_missingGates g hg
  have hstatus : (emitSnapshot tools s (s.gates ++ missingGates tools s)).status = "consistent" ↔
      ¬ Blocks (s.gates ++ missingGates tools s) := by
    show Tool.snapshotReconcile.status _ = "consistent" ↔ _
    rw [← hasBlocker_iff_blocks hlines]
    unfold Tool.status
    split
    · rename_i hblocker
      simp [hblocker]
    · rename_i hblocker
      simp [hblocker, Tool.clear]
  rw [hstatus, blocks_append, not_or]
  obtain ⟨hquiet, hstate⟩ := collect_quiet hs
  constructor
  · rintro ⟨hnot, hmissing⟩
    obtain ⟨hread, hcaptured, hbaseline⟩ := hstate hnot
    have hall := hquiet.mp hnot
    have hcovered := (blocks_missingGates hnamed hne hread hall hcaptured hbaseline).mp hmissing
    exact ⟨⟨hall.present, hall.agree, hcovered, hall.active⟩, hall.homes⟩
  · rintro ⟨hunblocked, hhomes⟩
    have hall : Quiet tools files := ⟨hunblocked.present, hunblocked.active, hhomes, hunblocked.agree⟩
    have hnot := hquiet.mpr hall
    obtain ⟨hread, hcaptured, hbaseline⟩ := hstate hnot
    exact ⟨hnot, (blocks_missingGates hnamed hne hread hall hcaptured hbaseline).mpr hunblocked.member⟩

theorem Unblocked.perm {files' : List SnapshotFile} (h : files.Perm files') (hu : Unblocked tools files) :
    Unblocked tools files' := by
  refine ⟨fun f hf => hu.present f (h.mem_iff.mpr hf),
    fun f hf g hg => hu.agree f (h.mem_iff.mpr hf) g (h.mem_iff.mpr hg), ?_, fun f hf => hu.active f (h.mem_iff.mpr hf)⟩
  intro f hf j nodes hj hnodes n hn name hname
  obtain ⟨g, hg, hrest⟩ := hu.member f (h.mem_iff.mpr hf) j nodes hj hnodes n hn name hname
  exact ⟨g, h.mem_iff.mp hg, hrest⟩

theorem Named.perm {files' : List SnapshotFile} (h : files.Perm files') (hn : Named tools files) : Named tools files' :=
  ⟨fun f hf => hn.host f (h.mem_iff.mpr hf), fun f hf => hn.node f (h.mem_iff.mpr hf)⟩

theorem status_consistent_or_blocked {report : SnapshotReport} {code : Nat}
    (h : reconcile tools files = some (report, code)) : report.status = "consistent" ∨ report.status = "blocked" := by
  unfold reconcile at h
  simp only [Option.bind_eq_bind, Option.bind_eq_some_iff] at h
  obtain ⟨s, -, h⟩ := h
  obtain ⟨rfl, -⟩ := Prod.mk.inj (Option.some.inj h)
  show Tool.snapshotReconcile.status _ = "consistent" ∨ Tool.snapshotReconcile.status _ = "blocked"
  unfold Tool.status
  split
  · exact .inr rfl
  · exact .inl rfl

/-- **Order.** The status is the same in whatever order the snapshots are given. -/
theorem status_perm (hnamed : Named tools files) (hne : files ≠ []) {files' : List SnapshotFile}
    (hperm : files.Perm files') {report report' : SnapshotReport} {code code' : Nat}
    (h : reconcile tools files = some (report, code)) (h' : reconcile tools files' = some (report', code')) :
    report'.status = report.status := by
  have hne' : files' ≠ [] := fun hnil => hne (List.perm_nil.mp (hnil ▸ hperm))
  have hsame : report'.status = "consistent" ↔ report.status = "consistent" := by
    rw [consistent_iff hnamed hne h, consistent_iff (hnamed.perm hperm) hne' h']
    constructor
    · rintro ⟨hu, hhomes⟩
      exact ⟨hu.perm hperm.symm, fun f hf => hhomes f (hperm.mem_iff.mp hf)⟩
    · rintro ⟨hu, hhomes⟩
      exact ⟨hu.perm hperm, fun f hf => hhomes f (hperm.mem_iff.mpr hf)⟩
  rcases status_consistent_or_blocked h with heq | heq
  · rw [heq]
    exact hsame.mpr heq
  · rcases status_consistent_or_blocked h' with heq' | heq'
    · exact absurd (heq.symm.trans (hsame.mp heq')) (by decide)
    · rw [heq, heq']

end

/-! ## Two runs -/

/-- Texts in their order, behind numbers by size, behind everything else. -/
def labLe (a b : Json) : Bool :=
  match a, b with
  | .str s, .str t => decide (s ≤ t)
  | .str _, _ => false
  | _, .str _ => true
  | .num p, .num q => decide (p ≤ q)
  | .num _, _ => false
  | _, _ => true

theorem labLe_total (a b : Json) : labLe a b = true ∨ labLe b a = true := by
  cases a with
  | str s =>
      cases b with
      | str t => exact (String.le_total s t).imp decide_eq_true decide_eq_true
      | _ => exact .inr rfl
  | num p =>
      cases b with
      | num q => exact Rat.le_total.imp decide_eq_true decide_eq_true
      | str t => exact .inl rfl
      | _ => exact .inr rfl
  | _ => cases b <;> exact .inl rfl

/-- Only a text comes behind a text, and only a number or a text behind a number. -/
theorem labLe_trans {a b c : Json} (h : labLe a b = true) (h' : labLe b c = true) : labLe a c = true := by
  cases a with
  | str s =>
      cases b with
      | str t =>
          cases c with
          | str u => exact decide_eq_true (String.le_trans (of_decide_eq_true h) (of_decide_eq_true h'))
          | _ => exact absurd h' Bool.false_ne_true
      | _ => exact absurd h Bool.false_ne_true
  | num p =>
      cases b with
      | num q =>
          cases c with
          | num r => exact decide_eq_true (Rat.le_trans (of_decide_eq_true h) (of_decide_eq_true h'))
          | str u => rfl
          | _ => exact absurd h' Bool.false_ne_true
      | str t =>
          cases c with
          | str u => rfl
          | _ => exact absurd h' Bool.false_ne_true
      | _ => exact absurd h Bool.false_ne_true
  | _ => cases c <;> rfl

theorem labLe_num (p q : Rat) : labLe (.num p) (.num q) = decide (p ≤ q) := rfl

def labOrder : Jq.Order where
  le := labLe
  total := labLe_total
  trans _ _ _ := labLe_trans
  num := labLe_num

theorem labTexts (a b : String) (h : labOrder.le (.str a) (.str b) = true) (h' : labOrder.le (.str b) (.str a) = true) :
    a = b := String.le_antisymm (of_decide_eq_true h) (of_decide_eq_true h')

def labTools : SnapshotTools where
  order := labOrder
  texts := labTexts
  format := .ofFraction (fun _ => "0.5") (fun _ => Jq.plain_half) (fun _ => Jq.integer_half)
  document := fun _ => "\x7b\x7d"

/-- A home with this status and ID of its platform. -/
def labHome (path status : String) (id : Json) : Json :=
  .obj [("path", .str path), ("owner", .str "oracle"), ("version", .str "19"), ("opatch_version", .str "12"),
    ("platform", .obj [("status", .str status), ("id", id), ("name", .str "Linux x86-64"),
      ("source", .str "opatch_lsinventory_xml"), ("source_sha256", .str (String.ofList (List.replicate 64 'a')))]),
    ("patches", .arr [])]

/-- The snapshot of a host, which sees these nodes of its cluster and has these homes. -/
def labSnapshot (host : String) (nodes homes : List Json) : SnapshotFile where
  path := "/s"
  line := by decide
  regular := true
  value := some (.obj [("schema_version", .str "1.0"), ("collector", .obj [("name", .str "oracle.topology.discover")]),
    ("host", .obj [("name", .str host)]),
    ("cluster", .obj [("grid_home", .null), ("runtime", .obj [("status", .str "unavailable")]), ("nodes", .arr nodes)]),
    ("oracle_homes", .arr homes), ("databases", .arr [])])
  sha256 := some "a"

def labNode (name : String) : Json := .obj [("name", .str name), ("status", .str "Active")]

/-- The snapshots of two nodes of a cluster, which share one home. -/
def labCluster : List SnapshotFile :=
  ["n1.example", "n2.example"].map fun host =>
    labSnapshot host [labNode "n1", labNode "n2"] [labHome "/a" "collected" (.str "226")]

theorem freeOfSpace_of_all {name : String} (h : (name.toList.all fun c => !c.isWhitespace) = true) : FreeOfSpace name := by
  intro c hc
  simpa using List.all_eq_true.mp h c hc

theorem labNamed : Named labTools labCluster := by
  refine ⟨fun f hf _ j hj => ?_, fun f hf _ j nodes hj hnodes n hn => ?_⟩
  · obtain ⟨host, hhost, rfl⟩ := List.mem_map.mp hf
    obtain rfl := Option.some.inj hj
    rw [List.mem_cons, List.mem_singleton] at hhost
    rcases hhost with rfl | rfl
    · exact freeOfSpace_of_all (by decide +kernel)
    · exact freeOfSpace_of_all (by decide +kernel)
  · obtain ⟨host, -, rfl⟩ := List.mem_map.mp hf
    obtain rfl := Option.some.inj hj
    obtain rfl : [labNode "n1", labNode "n2"] = nodes := Option.some.inj hnodes
    rw [List.mem_cons, List.mem_singleton] at hn
    rcases hn with rfl | rfl
    · exact ⟨"n1", rfl, freeOfSpace_of_all (by decide +kernel)⟩
    · exact ⟨"n2", rfl, freeOfSpace_of_all (by decide +kernel)⟩

/-- The home with a number as its ID stands before one of which nothing was collected. -/
def labUnseen : List SnapshotFile :=
  [labSnapshot "n1.example" [] [labHome "/a" "collected" (.num 226), labHome "/b" "failed" .null]]

end OraclePatching.Readiness
