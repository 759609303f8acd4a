import OraclePatching.Artifact.Inspection

/-!
# `Correctness.JsonRoundTrip` — records printed with `opu_json_escape` are read back

The chain of substitutions covers the backslash, the quote and five control characters. The other control characters go
into the document as they are, and no JSON text may contain them. So a literal is read back exactly when its text is
`Covered`, and then every document around such literals is read back, too (`json_round_trip`).
-/

namespace OraclePatching

open JsonText

/-! ## Literals

`opu_json_string` replaces seven characters and leaves the others as they are. The reader refuses any other
character below the space, and these are the uncovered ones. -/

/-- A control character without an escape in the chain. -/
def uncovered (c : Char) : Bool :=
  decide (c.toNat < 32) && !(c == '\x08' || c == '\t' || c == '\n' || c == '\x0c' || c == '\r')

/-- Every control character of the text is one of the five. -/
def Covered (s : String) : Prop := ∀ c ∈ s.toList, uncovered c = false

section
variable {c : Char} {s : String}

/-- A text is covered if it has no uncovered character. -/
theorem covered_iff : Covered s ↔ s.toList.any uncovered = false := by
  rw [List.any_eq_false]
  exact forall_congr' fun c => forall_congr' fun _ => by rw [Bool.not_eq_true]

/-- An uncovered character stands in no JSON text. -/
theorem uncovered_forbidden (h : uncovered c = true) : forbidden c = true := by
  simp only [uncovered, Bool.and_eq_true, decide_eq_true_iff, Bool.not_eq_true', Bool.or_eq_false_iff] at h
  obtain ⟨hlt, ⟨⟨⟨_, htab⟩, hline⟩, _⟩, hreturn⟩ := h
  have hspace : c ≠ ' ' := by
    rintro rfl
    exact absurd hlt (by decide)
  simp [forbidden, space, hlt, htab, hline, hreturn, hspace]

/-- **Every covered character is spelt by its escape.** -/
theorem spells_escapeChar (h : uncovered c = false) : Spells (escapeChar c) c := by
  unfold escapeChar
  by_cases h1 : c = '\\'
  · rw [if_pos h1, h1]; exact spells_escape (by decide)
  by_cases h2 : c = '"'
  · rw [if_neg h1, if_pos h2, h2]; exact spells_escape (by decide)
  by_cases h3 : c = '\x08'
  · rw [if_neg h1, if_neg h2, if_pos h3, h3]; exact spells_escape (by decide)
  by_cases h4 : c = '\x0c'
  · rw [if_neg h1, if_neg h2, if_neg h3, if_pos h4, h4]; exact spells_escape (by decide)
  by_cases h5 : c = '\n'
  · rw [if_neg h1, if_neg h2, if_neg h3, if_neg h4, if_pos h5, h5]; exact spells_escape (by decide)
  by_cases h6 : c = '\r'
  · rw [if_neg h1, if_neg h2, if_neg h3, if_neg h4, if_neg h5, if_pos h6, h6]; exact spells_escape (by decide)
  by_cases h7 : c = '\t'
  · rw [if_neg h1, if_neg h2, if_neg h3, if_neg h4, if_neg h5, if_neg h6, if_pos h7, h7]
    exact spells_escape (by decide)
  rw [if_neg h1, if_neg h2, if_neg h3, if_neg h4, if_neg h5, if_neg h6, if_neg h7]
  refine spells_self h2 h1 (Nat.le_of_not_lt fun hlt => ?_)
  rw [uncovered, Bool.and_eq_false_iff] at h
  rcases h with h | h
  · exact absurd hlt (by simpa using h)
  · simp [h3, h4, h5, h6, h7] at h

/-- The literal of a covered text reads as the text. -/
theorem reads_opuJsonString (h : Covered s) : Reads (opuJsonString s.toList) s.toList := by
  rw [opuJsonString_eq]
  exact reads_of_spells fun c hc => spells_escapeChar (h c hc)

/-- An uncovered character stands in the literal as it is. -/
theorem mem_opuJsonString (hmem : c ∈ s.toList) (h : uncovered c = true) : c ∈ opuJsonString s.toList := by
  have hself : escapeChar c = [c] := by
    have hne : ∀ e : Char, uncovered e = false → c ≠ e := by
      rintro e he rfl
      exact absurd (h.symm.trans he) (by simp)
    unfold escapeChar
    rw [if_neg (hne _ (by decide)), if_neg (hne _ (by decide)), if_neg (hne _ (by decide)), if_neg (hne _ (by decide)),
      if_neg (hne _ (by decide)), if_neg (hne _ (by decide)), if_neg (hne _ (by decide))]
  rw [opuJsonString_eq]
  refine List.mem_cons_of_mem _ (List.mem_append_left _ (List.mem_flatMap.mpr ⟨c, hmem, ?_⟩))
  rw [hself]
  exact List.mem_singleton_self c

/-! ## Documents

The texts of a document are all written the same way, so a document is read back if and only if each of them is
covered. -/

/-- A document is read back exactly if all its strings are covered. -/
theorem parse_iff (d : Document) {after : List Char} (hafter : ∀ c ∈ after, space c = true) :
    parse (d.render opuJsonString ++ after) = some d.json ↔ ∀ s ∈ d.strings, Covered s := by
  constructor
  · intro h s hs c hc
    by_contra hcovered
    rw [Bool.not_eq_false] at hcovered
    rw [parse_render_forbidden hs (mem_opuJsonString hc hcovered) (uncovered_forbidden hcovered)] at h
    exact absurd h (by simp)
  · exact fun h => parse_render (fun s hs => reads_opuJsonString (h s hs)) hafter

/-- The same of a text with a line break behind it, as the scripts print lines. -/
theorem parse_line_iff (d : Document) :
    parse (d.render opuJsonString ++ ['\n']) = some d.json ↔ ∀ s ∈ d.strings, Covered s := by
  refine parse_iff d fun c hc => ?_
  rw [List.mem_singleton.mp hc]
  rfl

end

/-! ## Events -/

def eventDocument (timestamp event status : String) : Document :=
  .record [("schema_version", .text "1.0"), ("time", .text timestamp), ("event", .text event),
    ("status", .text status)]

def planEventDocument (time id name state actor detail : String) : Document :=
  .record [("schema_version", .text "1.0"), ("time", .text time), ("plan_id", .text id), ("event", .text name),
    ("state", .text state), ("actor", .text actor), ("detail", .text detail)]

theorem opuAppendEvent_eq (timestamp event status : String) :
    opuAppendEvent timestamp event status = (eventDocument timestamp event status).render opuJsonString ++ ['\n'] := by
  have h1 : opuJsonString "schema_version".toList = "\"schema_version\"".toList := by decide
  have h2 : opuJsonString "1.0".toList = "\"1.0\"".toList := by decide
  have h3 : opuJsonString "time".toList = "\"time\"".toList := by decide
  have h4 : opuJsonString "event".toList = "\"event\"".toList := by decide
  have h5 : opuJsonString "status".toList = "\"status\"".toList := by decide
  unfold opuAppendEvent eventDocument escaped
  simp only [Document.render, renderMembers, comma, h1, h2, h3, h4, h5]
  simp [opuJsonString]

theorem planEvent_eq (time id name state actor detail : String) :
    planEvent time id name state actor detail =
      (planEventDocument time id name state actor detail).render opuJsonString ++ ['\n'] := by
  have h1 : opuJsonString "schema_version".toList = "\"schema_version\"".toList := by decide
  have h2 : opuJsonString "1.0".toList = "\"1.0\"".toList := by decide
  have h3 : opuJsonString "time".toList = "\"time\"".toList := by decide
  have h4 : opuJsonString "plan_id".toList = "\"plan_id\"".toList := by decide
  have h5 : opuJsonString "event".toList = "\"event\"".toList := by decide
  have h6 : opuJsonString "state".toList = "\"state\"".toList := by decide
  have h7 : opuJsonString "actor".toList = "\"actor\"".toList := by decide
  have h8 : opuJsonString "detail".toList = "\"detail\"".toList := by decide
  unfold planEvent planEventDocument
  simp only [Document.render, renderMembers, comma, h1, h2, h3, h4, h5, h6, h7, h8]
  simp

/-! ## Manifests -/

theorem jsonFilesLoop_eq (first : Bool) (files : List InspectedFile) :
    jsonFilesLoop first files = renderItems opuJsonString first (files.map InspectedFile.document) := by
  have h1 : opuJsonString "path".toList = "\"path\"".toList := by decide
  have h2 : opuJsonString "sha256".toList = "\"sha256\"".toList := by decide
  induction files generalizing first with
  | nil => rw [jsonFilesLoop, List.map_nil, renderItems]
  | cons file files ih =>
      rw [jsonFilesLoop, List.map_cons, renderItems, ih, InspectedFile.document]
      simp only [Document.render, renderMembers, h1, h2]
      simp [comma]

theorem patchIdsLoop_eq (first : Bool) (ids : List String) :
    patchIdsLoop first ids = renderItems opuJsonString first ((ids.filter (· ≠ "")).map .text) := by
  induction ids generalizing first with
  | nil => rw [patchIdsLoop, List.filter_nil, List.map_nil, renderItems]
  | cons id ids ih =>
      rw [patchIdsLoop]
      by_cases h : id = ""
      · rw [if_pos h, ih, List.filter_cons_of_neg (by simp [h])]
      · rw [if_neg h, ih, List.filter_cons_of_pos (by simp [h]), List.map_cons, renderItems, Document.render,
          List.append_assoc]

theorem platformsJson_eq (platform : Option InspectedPlatform) :
    platformsJson platform =
      (Document.list (platform.toList.map InspectedPlatform.document)).render opuJsonString := by
  -- the constants of the format, cut where a member begins
  have h1 : "[\x7b\"id\":".toList = '[' :: '\x7b' :: (opuJsonString "id".toList ++ [':']) := by decide +kernel
  have h2 : ",\"name\":".toList = ',' :: (opuJsonString "name".toList ++ [':']) := by decide +kernel
  have h3 : ",\"source\":\"etc/config/inventory.xml\",\"source_sha256\":".toList =
      ',' :: (opuJsonString "source".toList ++ ':' :: (opuJsonString "etc/config/inventory.xml".toList ++
        ',' :: (opuJsonString "source_sha256".toList ++ [':']))) := by decide +kernel
  have h4 : "\x7d]".toList = ['\x7d', ']'] := by decide +kernel
  cases platform with
  | none =>
      rw [Option.toList_none, List.map_nil, Document.render, renderItems]
      rfl
  | some p =>
      rw [Option.toList_some, List.map_singleton, InspectedPlatform.document]
      unfold platformsJson
      dsimp only
      rw [h1, h2, h3, h4]
      simp only [Document.render, renderItems, renderMembers, comma, List.append_assoc, List.cons_append,
        List.nil_append, List.append_nil, if_true, Bool.false_eq_true, if_false]

theorem opuJsonNullableString_eq (value : String) :
    opuJsonNullableString value = (nullable value).render opuJsonString := by
  unfold opuJsonNullableString nullable
  split <;> rw [Document.render]

/-- **The manifest is the document of the inspection**, on one line. -/
theorem emit_eq (i : Inspection) : emit i = i.document.render opuJsonString ++ ['\n'] := by
  -- the constants of the format, cut where a member begins
  have h1 : "\x7b\"schema_version\":\"1.0\",\"artifact\":\x7b\"status\":".toList =
      '\x7b' :: (opuJsonString "schema_version".toList ++ ':' :: (opuJsonString "1.0".toList ++
        ',' :: (opuJsonString "artifact".toList ++ ':' :: '\x7b' :: (opuJsonString "status".toList ++ [':'])))) := by
    decide +kernel
  have h2 : ",\"reason\":".toList = ',' :: (opuJsonString "reason".toList ++ [':']) := by decide +kernel
  have h3 : ",\"path\":".toList = ',' :: (opuJsonString "path".toList ++ [':']) := by decide +kernel
  have h4 : ",\"file_count\":".toList = ',' :: (opuJsonString "file_count".toList ++ [':']) := by decide +kernel
  have h5 : ",\"sha256\":".toList = ',' :: (opuJsonString "sha256".toList ++ [':']) := by decide +kernel
  have h6 : ",\"patch_ids\":[".toList = ',' :: (opuJsonString "patch_ids".toList ++ [':', '[']) := by decide +kernel
  have h7 : "],\"platforms\":".toList = ']' :: ',' :: (opuJsonString "platforms".toList ++ [':']) := by
    decide +kernel
  have h8 : ",\"metadata_files\":".toList = ',' :: (opuJsonString "metadata_files".toList ++ [':']) := by
    decide +kernel
  have h9 : ",\"readme_files\":".toList = ',' :: (opuJsonString "readme_files".toList ++ [':']) := by decide +kernel
  have h10 : ",\"classification_evidence\":".toList =
      ',' :: (opuJsonString "classification_evidence".toList ++ [':']) := by decide +kernel
  have h11 : "\x7d\x7d\n".toList = ['\x7d', '\x7d', '\n'] := by decide +kernel
  have h12 : "[".toList = ['['] ∧ "]".toList = [']'] := by decide +kernel
  unfold emit jsonFiles Inspection.document
  rw [opuJsonNullableString_eq, patchIdsLoop_eq, platformsJson_eq, jsonFilesLoop_eq, jsonFilesLoop_eq, h1, h2, h3, h4,
    h5, h6, h7, h8, h9, h10, h11, h12.1, h12.2]
  simp only [Document.render, renderMembers, comma, List.append_assoc, List.cons_append, List.nil_append,
    List.append_nil, if_true, Bool.false_eq_true, if_false]

/-! ## What has to be covered -/

/-- The lists of a document are covered when their items are. -/
theorem list_strings (ds : List Document) :
    (∀ s ∈ (Document.list ds).strings, Covered s) ↔ ∀ d ∈ ds, ∀ s ∈ d.strings, Covered s := by
  rw [Document.strings]
  induction ds with
  | nil =>
      rw [itemStrings]
      simp
  | cons d ds ih => rw [itemStrings, List.forall_mem_append, ih, List.forall_mem_cons]

/-- The records of a document are covered when their names and values are. -/
theorem record_strings (fs : List (String × Document)) :
    (∀ s ∈ (Document.record fs).strings, Covered s) ↔ ∀ f ∈ fs, Covered f.1 ∧ ∀ s ∈ f.2.strings, Covered s := by
  rw [Document.strings]
  induction fs with
  | nil =>
      rw [memberStrings]
      simp
  | cons f fs ih =>
      obtain ⟨key, d⟩ := f
      rw [memberStrings, List.forall_mem_cons, List.forall_mem_append, ih, List.forall_mem_cons, and_assoc]

theorem text_strings (s : String) : (∀ t ∈ (Document.text s).strings, Covered t) ↔ Covered s := by
  rw [Document.strings, List.forall_mem_singleton]

theorem number_strings (n : Nat) : (∀ t ∈ (Document.number n).strings, Covered t) ↔ True := by
  rw [Document.strings] <;> simp

theorem nullable_strings (s : String) : (∀ t ∈ (nullable s).strings, Covered t) ↔ Covered s := by
  unfold nullable
  by_cases h : s = ""
  · have hempty : Covered "" := covered_iff.mpr rfl
    rw [if_neg (by simp [h]), h, Document.strings]
    · simp [hempty]
    all_goals simp
  · rw [if_pos h, text_strings]

theorem file_strings (file : InspectedFile) :
    (∀ s ∈ file.document.strings, Covered s) ↔ ∀ s ∈ [file.path, file.sha256], Covered s := by
  have hnames : Covered "path" ∧ Covered "sha256" := by simp only [covered_iff]; decide
  rw [InspectedFile.document, record_strings]
  simp only [List.forall_mem_cons, text_strings, hnames, true_and]
  simp

theorem platform_strings (p : InspectedPlatform) :
    (∀ s ∈ p.document.strings, Covered s) ↔ ∀ s ∈ [p.id, p.name, p.sha256], Covered s := by
  have hnames : Covered "id" ∧ Covered "name" ∧ Covered "source" ∧ Covered "etc/config/inventory.xml" ∧
      Covered "source_sha256" := by simp only [covered_iff]; decide +kernel
  rw [InspectedPlatform.document, record_strings]
  simp only [List.forall_mem_cons, text_strings, hnames, true_and]
  simp

theorem event_strings (timestamp event status : String) :
    (∀ s ∈ (eventDocument timestamp event status).strings, Covered s) ↔
      ∀ s ∈ [timestamp, event, status], Covered s := by
  have hnames : Covered "schema_version" ∧ Covered "1.0" ∧ Covered "time" ∧ Covered "event" ∧ Covered "status" := by
    simp only [covered_iff]; decide
  rw [eventDocument, record_strings]
  simp only [List.forall_mem_cons, text_strings, hnames, true_and]
  simp

theorem planEvent_strings (time id name state actor detail : String) :
    (∀ s ∈ (planEventDocument time id name state actor detail).strings, Covered s) ↔
      ∀ s ∈ [time, id, name, state, actor, detail], Covered s := by
  have hnames : Covered "schema_version" ∧ Covered "1.0" ∧ Covered "time" ∧ Covered "plan_id" ∧ Covered "event" ∧
      Covered "state" ∧ Covered "actor" ∧ Covered "detail" := by simp only [covered_iff]; decide
  rw [planEventDocument, record_strings]
  simp only [List.forall_mem_cons, text_strings, hnames, true_and]
  simp

/-- **The manifest adds no text of its own** that would have to be escaped. -/
theorem inspection_strings (i : Inspection) :
    (∀ s ∈ i.document.strings, Covered s) ↔ ∀ s ∈ i.texts, Covered s := by
  have hnames : Covered "schema_version" ∧ Covered "1.0" ∧ Covered "artifact" ∧ Covered "status" ∧ Covered "reason" ∧
      Covered "path" ∧ Covered "file_count" ∧ Covered "sha256" ∧ Covered "patch_ids" ∧ Covered "platforms" ∧
      Covered "metadata_files" ∧ Covered "readme_files" ∧ Covered "classification_evidence" := by
    simp only [covered_iff]; decide +kernel
  -- the loop passes over empty lines only
  have hids : (∀ id ∈ i.ids.filter (· ≠ ""), Covered id) ↔ ∀ id ∈ i.ids, Covered id := by
    have hempty : Covered "" := covered_iff.mpr rfl
    constructor
    · intro h id hid
      by_cases hne : id = ""
      · exact hne ▸ hempty
      · exact h id (List.mem_filter.mpr ⟨hid, by simp [hne]⟩)
    · exact fun h id hid => h id (List.mem_filter.mp hid).1
  unfold Inspection.document Inspection.texts
  rw [record_strings]
  simp only [List.forall_mem_cons, record_strings, list_strings, text_strings, number_strings, nullable_strings,
    List.forall_mem_map, platform_strings, file_strings, List.forall_mem_append, List.forall_mem_flatMap, hids, hnames,
    true_and, List.not_mem_nil, false_implies, implies_true, and_true]
  constructor
  · rintro ⟨hstatus, hreason, hpath, hsha, hids, hplatform, hmetadata, hreadme, hdescriptions⟩
    exact ⟨⟨⟨⟨hstatus, hreason, hpath, hsha, hdescriptions⟩, hids⟩, hplatform⟩, hmetadata, hreadme⟩
  · rintro ⟨⟨⟨⟨hstatus, hreason, hpath, hsha, hdescriptions⟩, hids⟩, hplatform⟩, hmetadata, hreadme⟩
    exact ⟨hstatus, hreason, hpath, hsha, hids, hplatform, hmetadata, hreadme, hdescriptions⟩

/-! ## The round trip -/

/-- **Records are read back** exactly if their fields are covered: the literal of every text, every document that is
    printed around such literals, and in particular the lines of both event journals and the manifest of an
    inspection. -/
theorem json_round_trip (s : String) (d : Document) (timestamp event status : String)
    (time id name state actor detail : String) (i : Inspection) :
    (parse (opuJsonString s.toList) = some (.str s) ↔ Covered s) ∧
      (parse (d.render opuJsonString) = some d.json ↔ ∀ t ∈ d.strings, Covered t) ∧
      (parse (opuAppendEvent timestamp event status) = some (eventDocument timestamp event status).json ↔
        ∀ t ∈ [timestamp, event, status], Covered t) ∧
      (parse (planEvent time id name state actor detail) = some (planEventDocument time id name state actor detail).json ↔
        ∀ t ∈ [time, id, name, state, actor, detail], Covered t) ∧
      (parse (emit i) = some i.document.json ↔ ∀ t ∈ i.texts, Covered t) := by
  have hdocument : ∀ d : Document, parse (d.render opuJsonString) = some d.json ↔ ∀ t ∈ d.strings, Covered t := by
    intro d
    have h := @parse_iff d [] (fun c hc => absurd hc List.not_mem_nil)
    rwa [List.append_nil] at h
  refine ⟨?_, hdocument d, ?_, ?_, ?_⟩
  · have h := hdocument (.text s)
    rw [text_strings, Document.render, Document.json] at h
    exact h
  · rw [opuAppendEvent_eq, parse_line_iff, event_strings]
  · rw [planEvent_eq, parse_line_iff, planEvent_strings]
  · rw [emit_eq, parse_line_iff, inspection_strings]

/-- A README line with a vertical tab makes the manifest unreadable. -/
def tabbedInspection : Inspection where
  status := "ready_for_catalog"
  reason := ""
  path := "/stage/p1"
  fileCount := 2
  sha256 := "0"
  ids := ["36912597"]
  platform := none
  metadataFiles := []
  readmeFiles := []
  descriptions := "README.txt:Database Release Update\x0b19.24"

/-- A control character in each of them, and none can be read. -/
theorem json_unreadable :
    parse (opuJsonString "\x01".toList) ≠ some (.str "\x01") ∧ (parse (opuJsonString "\x01".toList)).isNone = true ∧
      (parse (opuAppendEvent "2025-01-01T00:00:00Z" "operation_finished" "exit\x1b[0m")).isNone = true ∧
      (parse (emit tabbedInspection)).isNone = true := by
  have hnone : (parse (opuJsonString "\x01".toList)).isNone = true := by decide +kernel
  refine ⟨fun h => ?_, hnone, ?_, ?_⟩
  · rw [h] at hnone
    exact absurd hnone (by simp)
  all_goals decide +kernel

end OraclePatching
