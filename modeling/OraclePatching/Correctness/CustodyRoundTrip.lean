import OraclePatching.Correctness.SerialOrder

/-!
# `Correctness.CustodyRoundTrip` — what `complete` takes into custody, `verify_source_task_custody` finds again

The writer copies files under names the worker chose into a directory in which it keeps temporary files of its own.
`Imported` is what one accepted copy does to the directory and `Building` the invariant of the loop over all
copies. Three of the names that are reserved are tested; `files.tmp.json.next` and `custody.tmp.json` are not, and a
copy under one of them is overwritten and removed with the temporary file. `custodyKept` says which copies stay and
read back.
-/

namespace OraclePatching

/-! ## Sources

What `complete` copies: the two logs, and the artifacts of RAC and Grid evidence. Each source has a path, a digest
and the leaf it is copied to. -/

/-- A file to be taken into custody, as the evidence document lists it. -/
structure CustodySource where
  role : String
  path : String
  sha256 : String

namespace CustodySource

def leaf (source : CustodySource) : String := Shell.basename source.path

/-- `cp` reads the path as an option. -/
def option (source : CustodySource) : Prop := source.path.toList.head? = some '-' ∧ source.path ≠ "-"

/-- Its entry in `custody.json`. -/
def entry (custodyDir : String) (source : CustodySource) : CustodyFile :=
  ⟨source.role, source.path, Shell.join custodyDir source.leaf, source.sha256⟩

end CustodySource

def logSource (cfg : Config) (j : Json) (role : String) : CustodySource :=
  ⟨role, cfg.text (j.at' ["logs", role, "path"]), cfg.text (j.at' ["logs", role, "sha256"])⟩

def artifactSource (cfg : Config) (entry : Json) : CustodySource :=
  ⟨"artifact", cfg.text (entry.at' ["path"]), cfg.text (entry.at' ["sha256"])⟩

/-- The logs and the artifacts of an evidence document. -/
def custodySources (cfg : Config) (j : Json) : List CustodySource :=
  ["stdout", "stderr"].map (logSource cfg j) ++ (evidenceArtifacts j).map (artifactSource cfg)

/-- The copy is not lost with a temporary file, its path is one that the verifier takes, and there is a copy. -/
def custodyKept (source : CustodySource) : Prop :=
  source.leaf ≠ "custody.tmp.json" ∧ source.leaf ≠ "files.tmp.json.next" ∧
    source.leaf.toList.any pathControl = false ∧ ¬ source.option

/-! ## Copying

The directory is built file by file. A source whose leaf is reserved or taken is refused; one whose path begins
with a dash is not copied at all. -/

/-- What an accepted copy does to the directory under construction. -/
structure Imported (cfg : Config) (w : World) (custodyDir : String) (dir : CustodyDir) (source : CustodySource)
    (dir' : CustodyDir) : Prop where
  named : source.leaf ∉ reservedLeaves
  new : dir.exists source.leaf = false
  copy : (¬ source.option ∧ ∃ c, w.read source.path = some c ∧ (cfg.hashFile c).hex = source.sha256 ∧
      dir' = appendFile (dir.put source.leaf c) (source.entry custodyDir)) ∨
    (source.option ∧ source.sha256 = "" ∧ dir' = appendFile dir (source.entry custodyDir))

section
variable {cfg : Config} {w : World} {custodyDir : String} {dir dir' : CustodyDir} {source : CustodySource}

theorem custodyCopy_ok (custodyDir : String) (source : CustodySource) {collision digestChanged leaf : String} {copied : CustodyDir}
    (h : custodyCopy cfg w dir source.path source.sha256 collision digestChanged = .ok (copied, leaf)) :
    leaf = source.leaf ∧ Imported cfg w custodyDir dir source (appendFile copied (source.entry custodyDir)) := by
  simp only [custodyCopy, ensure_bind_ok] at h
  obtain ⟨hnamed, hnew, h⟩ := h
  by_cases hoption : source.option
  · rw [if_pos (by exact hoption)] at h
    simp only [ensure_bind_ok, Except.ok.injEq, Prod.mk.injEq] at h
    obtain ⟨_, hsha, rfl, rfl⟩ := h
    exact ⟨rfl, hnamed, hnew, .inr ⟨hoption, hsha, rfl⟩⟩
  · rw [if_neg (by exact hoption)] at h
    cases hread : w.read source.path with
    | none => rw [hread] at h; exact absurd h refuse_ne_ok
    | some c =>
        rw [hread] at h
        simp only [ensure_bind_ok, Except.ok.injEq, Prod.mk.injEq] at h
        obtain ⟨hsha, rfl, rfl⟩ := h
        exact ⟨rfl, hnamed, hnew, .inl ⟨hoption, c, hread, hsha, rfl⟩⟩

theorem custodyLog_ok {j : Json} {role : String} (h : custodyLog cfg w custodyDir j dir role = .ok dir') :
    Imported cfg w custodyDir dir (logSource cfg j role) dir' := by
  simp only [custodyLog, bind_ok, Except.ok.injEq] at h
  obtain ⟨⟨copied, leaf⟩, hcopy, rfl⟩ := h
  obtain ⟨rfl, himported⟩ := custodyCopy_ok custodyDir (logSource cfg j role) hcopy
  exact himported

theorem custodyArtifact_ok {entry : Json} (h : custodyArtifact cfg w custodyDir dir entry = .ok dir') :
    Imported cfg w custodyDir dir (artifactSource cfg entry) dir' := by
  simp only [custodyArtifact, bind_ok, Except.ok.injEq] at h
  obtain ⟨⟨copied, leaf⟩, hcopy, rfl⟩ := h
  obtain ⟨rfl, himported⟩ := custodyCopy_ok custodyDir (artifactSource cfg entry) hcopy
  exact himported

/-- The directory after one more entry in the list of copies. -/
theorem appendFile_apply (entry : CustodyFile) {files : List CustodyFile} (leaf : String)
    (h : dir "files.tmp.json" = some (.custodyFiles files)) : appendFile dir entry leaf =
      if leaf = "files.tmp.json.next" then none
      else if leaf = "files.tmp.json" then some (.custodyFiles (files ++ [entry]))
      else dir leaf := by
  simp only [appendFile, h, CustodyDir.remove, CustodyDir.put]
  split_ifs <;> rfl

/-- The loop's invariant: what the directory holds when `done` has been copied. -/
structure Building (cfg : Config) (w : World) (custodyDir : String) (content : Content) (done : List CustodySource)
    (dir : CustodyDir) : Prop where
  files : dir "files.tmp.json" = some (.custodyFiles (done.map (·.entry custodyDir)))
  next : dir "files.tmp.json.next" = none
  evidence : dir "evidence.json" = some content
  copies : ∀ source ∈ done, ¬ source.option → source.leaf ≠ "files.tmp.json.next" →
    ∃ c, w.read source.path = some c ∧ (cfg.hashFile c).hex = source.sha256 ∧ dir source.leaf = some c
  skipped : ∀ source ∈ done, source.option → source.sha256 = ""
  named : ∀ source ∈ done, source.leaf ∉ reservedLeaves ∧ source.leaf ∉ ["", ".", "..", "/"]
  only : ∀ leaf, (dir leaf).isSome = true →
    leaf = "evidence.json" ∨ leaf = "files.tmp.json" ∨ ∃ source ∈ done, source.leaf = leaf
  once : (∀ source ∈ done, custodyKept source) → (done.map (·.leaf)).Nodup

/-- **Step lemma.** One more copy. -/
theorem Building.step {content : Content} {done : List CustodySource} (h : Building cfg w custodyDir content done dir)
    (hi : Imported cfg w custodyDir dir source dir') : Building cfg w custodyDir content (done ++ [source]) dir' := by
  have hexists := hi.new
  rw [CustodyDir.exists, Bool.or_eq_false_iff] at hexists
  have hfresh : dir source.leaf = none := by simpa using hexists.2
  have hname : source.leaf ∉ ["", ".", "..", "/"] := by simpa using hexists.1
  have hreserved := hi.named
  have hne : source.leaf ≠ "evidence.json" ∧ source.leaf ≠ "custody.json" ∧ source.leaf ≠ "files.tmp.json" := by
    simpa [reservedLeaves] using hreserved
  -- the directory that the entry is appended to
  obtain ⟨mid, rfl, hfiles, hkeep, hself⟩ : ∃ mid, dir' = appendFile mid (source.entry custodyDir) ∧
      mid "files.tmp.json" = some (.custodyFiles (done.map (·.entry custodyDir))) ∧
      (∀ leaf, leaf ≠ source.leaf → mid leaf = dir leaf) ∧
      ((source.option ∧ source.sha256 = "" ∧ mid source.leaf = none) ∨ ¬ source.option ∧
        ∃ c, w.read source.path = some c ∧ (cfg.hashFile c).hex = source.sha256 ∧ mid source.leaf = some c) := by
    rcases hi.copy with ⟨hoption, c, hread, hsha, rfl⟩ | ⟨hoption, hsha, rfl⟩
    · refine ⟨_, rfl, ?_, fun leaf hleaf => if_neg hleaf, .inr ⟨hoption, c, hread, hsha, if_pos rfl⟩⟩
      rw [CustodyDir.put, if_neg fun heq => hne.2.2 heq.symm]
      exact h.files
    · exact ⟨_, rfl, h.files, fun _ _ => rfl, .inl ⟨hoption, hsha, hfresh⟩⟩
  have happly := fun leaf => appendFile_apply (source.entry custodyDir) leaf hfiles
  -- a copy made before is still there, unless the temporary list had its name
  have hold : ∀ u ∈ done, ∀ c, u.leaf ≠ "files.tmp.json.next" → dir u.leaf = some c →
      appendFile mid (source.entry custodyDir) u.leaf = some c := by
    intro u hu c hnext hc
    have hleaf : u.leaf ≠ source.leaf := fun heq => by
      rw [heq, hfresh] at hc
      exact absurd hc (by simp)
    have hfile : u.leaf ≠ "files.tmp.json" := fun heq => (h.named u hu).1 (by rw [heq]; simp [reservedLeaves])
    rw [happly, if_neg hnext, if_neg hfile, hkeep _ hleaf, hc]
  refine ⟨?_, ?_, ?_, ?_, ?_, ?_, ?_, ?_⟩
  · rw [happly, if_neg (by simp), if_pos rfl, List.map_append]
    rfl
  · rw [happly, if_pos rfl]
  · rw [happly, if_neg (by simp), if_neg (by simp), hkeep _ hne.1.symm]
    exact h.evidence
  · intro u hu hoption hnext
    rcases List.mem_append.mp hu with hu | hu
    · obtain ⟨c, hread, hsha, hc⟩ := h.copies u hu hoption hnext
      exact ⟨c, hread, hsha, hold u hu c hnext hc⟩
    · obtain rfl := List.mem_singleton.mp hu
      rcases hself with ⟨h1, _⟩ | ⟨_, c, hread, hsha, hc⟩
      · exact absurd h1 hoption
      · exact ⟨c, hread, hsha, by rw [happly, if_neg hnext, if_neg hne.2.2, hc]⟩
  · intro u hu hoption
    rcases List.mem_append.mp hu with hu | hu
    · exact h.skipped u hu hoption
    · obtain rfl := List.mem_singleton.mp hu
      rcases hself with ⟨_, hsha, _⟩ | ⟨h1, _⟩
      · exact hsha
      · exact absurd hoption h1
  · intro u hu
    rcases List.mem_append.mp hu with hu | hu
    · exact h.named u hu
    · obtain rfl := List.mem_singleton.mp hu
      exact ⟨hreserved, hname⟩
  · intro leaf hleaf
    by_cases hsame : leaf = source.leaf
    · exact .inr (.inr ⟨source, List.mem_append_right _ List.mem_cons_self, hsame.symm⟩)
    rw [happly] at hleaf
    split_ifs at hleaf with h1 h2
    · exact absurd hleaf (by simp)
    · exact .inr (.inl h2)
    · rw [hkeep _ hsame] at hleaf
      rcases h.only leaf hleaf with h3 | h3 | ⟨u, hu, h3⟩
      · exact .inl h3
      · exact .inr (.inl h3)
      · exact .inr (.inr ⟨u, List.mem_append_left _ hu, h3⟩)
  · intro hkept
    rw [List.map_append, List.nodup_append]
    refine ⟨h.once fun u hu => hkept u (List.mem_append_left _ hu), by simp, ?_⟩
    intro leaf hmem other hother heq
    obtain ⟨u, hu, hleaf⟩ := List.mem_map.mp hmem
    have hother : other = source.leaf := by simpa using hother
    obtain ⟨_, hnext, _, hoption⟩ := hkept u (List.mem_append_left _ hu)
    obtain ⟨c, _, _, hc⟩ := h.copies u hu hoption hnext
    rw [hleaf, heq, hother, hfresh] at hc
    exact absurd hc (by simp)

/-- **Run lemma.** A whole loop of copies. -/
theorem Building.fold {α : Type} {step : CustodyDir → α → Ctl CustodyDir} (source : α → CustodySource)
    (hstep : ∀ dir a dir', step dir a = .ok dir' → Imported cfg w custodyDir dir (source a) dir')
    {content : Content} {done : List CustodySource} {as : List α} (h : Building cfg w custodyDir content done dir)
    (hfold : foldCtl step dir as = .ok dir') : Building cfg w custodyDir content (done ++ as.map source) dir' := by
  induction as generalizing dir done with
  | nil =>
      rw [foldCtl, Except.ok.injEq] at hfold
      rw [List.map_nil, List.append_nil, ← hfold]
      exact h
  | cons a as ih =>
      rw [foldCtl, bind_ok] at hfold
      obtain ⟨mid, hmid, hfold⟩ := hfold
      have := ih (h.step (hstep _ _ _ hmid)) hfold
      rwa [List.append_assoc] at this

end

/-! ## The finished directory -/

/-- What `custody_execution_evidence` leaves, for the sources of its evidence. -/
structure Finished (cfg : Config) (w : World) (custodyDir : String) (content : Content) (m : CustodyManifest)
    (sources : List CustodySource) (dir : CustodyDir) : Prop where
  evidence : dir "evidence.json" = some content
  manifest : dir "custody.json" = some (.custodyManifest m)
  files : m.files = sources.map (·.entry custodyDir)
  lost : dir "custody.tmp.json" = none ∧ dir "files.tmp.json.next" = none
  copies : ∀ source ∈ sources, ¬ source.option → source.leaf ≠ "files.tmp.json.next" →
    source.leaf ≠ "custody.tmp.json" →
      ∃ c, w.read source.path = some c ∧ (cfg.hashFile c).hex = source.sha256 ∧ dir source.leaf = some c
  skipped : ∀ source ∈ sources, source.option → source.sha256 = ""
  named : ∀ source ∈ sources, source.leaf ∉ reservedLeaves ∧ source.leaf ∉ ["", ".", "..", "/"]
  only : ∀ leaf, (dir leaf).isSome = true →
    leaf = "evidence.json" ∨ leaf = "custody.json" ∨ ∃ source ∈ sources, source.leaf = leaf
  once : (∀ source ∈ sources, custodyKept source) → (sources.map (·.leaf)).Nodup

section
variable {cfg : Config} {w : World} {custodyDir : String} {dir : CustodyDir}

/-- What is under each name when the directory is sealed. -/
theorem sealCustody_apply {m : CustodyManifest} (leaf : String) : sealCustody dir m leaf =
    if leaf = "custody.tmp.json" ∨ leaf = "files.tmp.json" then none
    else if leaf = "custody.json" then some (.custodyManifest m)
    else dir leaf := by
  simp only [sealCustody, CustodyDir.remove, CustodyDir.put]
  by_cases h1 : leaf = "custody.tmp.json"
  · simp [h1]
  by_cases h2 : leaf = "files.tmp.json"
  · simp [h2]
  · simp [h1, h2]

/-- A directory that was built is a finished one. -/
theorem Building.finished {content : Content} {m : CustodyManifest} {sources : List CustodySource}
    (h : Building cfg w custodyDir content sources dir) (hm : m.files = dir.files) :
    Finished cfg w custodyDir content m sources (sealCustody dir m) := by
  refine ⟨?_, ?_, ?_, ⟨?_, ?_⟩, ?_, h.skipped, h.named, ?_, h.once⟩
  · rw [sealCustody_apply, if_neg (by simp), if_neg (by simp)]
    exact h.evidence
  · rw [sealCustody_apply, if_neg (by simp), if_pos rfl]
  · rw [hm, CustodyDir.files, h.files]
  · rw [sealCustody_apply, if_pos (.inl rfl)]
  · rw [sealCustody_apply, if_neg (by simp), if_neg (by simp)]
    exact h.next
  · intro source hsource hoption hnext htmp
    obtain ⟨c, hread, hsha, hc⟩ := h.copies source hsource hoption hnext
    have hnamed := (h.named source hsource).1
    simp only [reservedLeaves, List.mem_cons, List.not_mem_nil, or_false, not_or] at hnamed
    refine ⟨c, hread, hsha, ?_⟩
    rw [sealCustody_apply, if_neg (by simp [htmp, hnamed.2.2]), if_neg hnamed.2.1, hc]
  · intro leaf hleaf
    rw [sealCustody_apply] at hleaf
    split_ifs at hleaf with h1 h2
    · exact absurd hleaf (by simp)
    · exact .inr (.inl h2)
    · rcases h.only leaf hleaf with h3 | h3 | h3
      · exact .inl h3
      · exact absurd (.inr h3) h1
      · exact .inr (.inr h3)

/-- **What an accepted import has done.** -/
theorem custodyExecutionEvidence_ok {id taskId evidenceFile : String} {e : ExecutionEvidence} {retry : Nat}
    {d : PlanDir} {c : Custodied} (h : custodyExecutionEvidence cfg w id taskId evidenceFile e retry d = .ok c) :
    ∃ m : CustodyManifest, c.leaf = custodyLeaf taskId retry ∧
      c.evidencePath = Shell.join (evidencePath cfg id c.leaf) "evidence.json" ∧
      c.custody = ⟨Shell.join (evidencePath cfg id c.leaf) "custody.json", cfg.hashFile (.custodyManifest m),
        cfg.hashString (.custodyManifest m)⟩ ∧
      m.planId = id ∧ m.taskId = taskId ∧ m.evidenceCustodyPath = c.evidencePath ∧ m.evidenceSha256 = e.sha256 ∧
      m.evidenceRecordSha256 = e.recordSha256 ∧
      Finished cfg w (evidencePath cfg id c.leaf) e.content m (custodySources cfg e.document) c.dir := by
  simp only [custodyExecutionEvidence, bind_ok, ensure_ok, Except.ok.injEq] at h
  obtain ⟨_, _, logs, hlogs, dir, hdir, rfl⟩ := h
  have hstart : Building cfg w (evidencePath cfg id (custodyLeaf taskId retry)) e.content []
      ((CustodyDir.empty.put "evidence.json" e.content).put "files.tmp.json" (.custodyFiles [])) := by
    refine ⟨by simp [CustodyDir.put], by simp [CustodyDir.put, CustodyDir.empty], by simp [CustodyDir.put], by simp,
      by simp, by simp, fun leaf hleaf => ?_, by simp⟩
    simp only [CustodyDir.put, CustodyDir.empty] at hleaf
    split_ifs at hleaf with h1 h2
    · exact .inr (.inl h1)
    · exact .inl h2
    · exact absurd hleaf (by simp)
  have hbuilt := (hstart.fold (logSource cfg e.document) (fun _ _ _ => custodyLog_ok) hlogs).fold
    (artifactSource cfg) (fun _ _ _ => custodyArtifact_ok) hdir
  rw [List.nil_append] at hbuilt
  refine ⟨{ planId := id, taskId := taskId, collectedAt := w.nowUtc, evidenceSourcePath := evidenceFile,
            evidenceCustodyPath := Shell.join (evidencePath cfg id (custodyLeaf taskId retry)) "evidence.json",
            evidenceSha256 := e.sha256, evidenceRecordSha256 := e.recordSha256, files := dir.files },
    rfl, rfl, rfl, rfl, rfl, rfl, rfl, rfl, ?_⟩
  exact (show Building cfg w _ e.content (custodySources cfg e.document) dir from hbuilt).finished rfl

end

/-! ## Paths of the custody directory

The verifier builds its paths from the plan and the task, and checks them as any path. Identifiers make valid
paths. -/

section
variable {cfg : Config} {id taskId : String}

/-- An identifier may stand in a path. -/
theorem identifierChar_leaf {leaf : String} (h : identifierShape leaf = true) :
    leafOk leaf = true ∧ '/' ∉ leaf.toList ∧ leaf ≠ "" := by
  have hctl : leaf.toList.any pathControl = false := by
    rw [List.any_eq_false]
    intro c hc
    have hchar := identifierShape_mem h hc
    intro hctl
    have : c = '\n' ∨ c = '\r' ∨ c = '\t' := by simpa [pathControl, or_assoc] using hctl
    rcases this with rfl | rfl | rfl <;> exact absurd hchar (by decide)
  refine ⟨?_, identifier_not_mem h (by decide), ?_⟩
  · have h1 : leaf ≠ "." := fun heq => by rw [heq] at h; exact absurd h (by decide)
    have h2 : leaf ≠ ".." := fun heq => by rw [heq] at h; exact absurd h (by decide)
    simp [leafOk, hctl, h1, h2]
  · rintro rfl
    exact absurd h (by decide)

/-- The name of a custody directory is an identifier, as the task ID is. -/
theorem custodyLeaf_shape (h : identifierShape taskId = true) (retry : Nat) :
    identifierShape (custodyLeaf taskId retry) = true := by
  unfold custodyLeaf
  split
  · exact h
  unfold identifierShape at h ⊢
  rw [String.characters_eq] at h ⊢
  have hlist : (taskId ++ "-retry" ++ toString retry).toList =
      taskId.toList ++ ("-retry".toList ++ Nat.toDigits 10 retry) := by
    rw [String.toList_append, String.toList_append, List.append_assoc]
    congr 2
    exact String.toList_ofList
  have hdigits : (Nat.toDigits 10 retry).all identifierChar = true := by
    rw [List.all_eq_true]
    intro c hc
    have hdigit : c.isDigit = true := Nat.isDigit_of_mem_toDigits (b := 10) (by decide) (by decide) hc
    simp [identifierChar, Char.isAlphanum, hdigit]
  rw [hlist]
  cases ht : taskId.toList with
  | nil => rw [ht] at h; exact absurd h (by simp)
  | cons c cs =>
      rw [ht, Bool.and_eq_true] at h
      rw [List.cons_append, Bool.and_eq_true]
      refine ⟨h.1, ?_⟩
      rw [← List.cons_append, List.all_append, List.all_append, h.2, hdigits]
      decide

/-- The custody directory of a task is a path the validators accept. -/
theorem evidencePath_ok {leaf label : String} (hstate : opuValidateAbsolutePath cfg.stateDir label = .ok ())
    (hid : identifierShape id = true) (hleaf : identifierShape leaf = true) :
    opuValidateAbsolutePath (evidencePath cfg id leaf) label = .ok () := by
  obtain ⟨hid1, hid2, _⟩ := identifierChar_leaf hid
  obtain ⟨hleaf1, hleaf2, _⟩ := identifierChar_leaf hleaf
  have hplans := (opuValidateAbsolutePath_join "plans" label hstate (by decide)).mpr (by decide)
  have hplan := (opuValidateAbsolutePath_join id label hplans hid2).mpr hid1
  have hevidence := (opuValidateAbsolutePath_join "evidence" label hplan (by decide)).mpr (by decide)
  exact (opuValidateAbsolutePath_join leaf label hevidence hleaf2).mpr hleaf1

/-- The directory of a file is the directory it was put in. -/
theorem dirname_evidencePath {leaf file : String} (hleaf : identifierShape leaf = true) (hfile : file ≠ "")
    (hslash : '/' ∉ file.toList) :
    Shell.dirname (Shell.join (evidencePath cfg id leaf) file) = evidencePath cfg id leaf := by
  obtain ⟨_, hno, hne⟩ := identifierChar_leaf hleaf
  have hlist : leaf.toList ≠ [] := fun h => hne (String.toList_inj.mp (by simpa using h))
  have hlast := List.dropLast_concat_getLast hlist
  refine Shell.dirname_join hfile hslash (c := leaf.toList.getLast hlist)
    (d := (Shell.join (planDirPath cfg id) "evidence").toList ++ '/' :: leaf.toList.dropLast) ?_ ?_
  · rw [evidencePath, Shell.join_toList, List.append_assoc, List.cons_append, hlast]
  · intro heq
    exact hno (heq ▸ List.getLast_mem hlist)

end

/-! ## Verification -/

section
variable {cfg : Config} {w : World} {id : String} {d : PlanDir} {t : Task}

/-- One listed copy, as the verifier finds it. -/
theorem verifyCustodiedFile_ok {leaf label : String} {dir : CustodyDir} {source : CustodySource}
    (hleaf : identifierShape leaf = true)
    (hdir : opuValidateAbsolutePath (evidencePath cfg id leaf) label = .ok ())
    (hne : source.leaf ≠ "") (hroot : source.leaf ≠ "/") :
    verifyCustodiedFile cfg (evidencePath cfg id leaf) (evidencePath cfg id leaf) dir
        (source.entry (evidencePath cfg id leaf)) = .ok () ↔
      leafOk source.leaf = true ∧ ∃ c, dir source.leaf = some c ∧ (cfg.hashFile c).hex = source.sha256 := by
  have hslash : '/' ∉ source.leaf.toList := Shell.basename_no_slash hroot
  have hpath := fun label => opuValidateAbsolutePath_join source.leaf label hdir hslash
  simp only [verifyCustodiedFile, CustodySource.entry, bind_ok, ensure_ok, requireCustodied, hpath,
    dirname_evidencePath hleaf hne hslash, Shell.basename_join hne hslash, exists_const, true_and]
  constructor
  · rintro ⟨hok, c, ⟨_, hc⟩, hsha⟩
    refine ⟨hok, c, ?_, hsha⟩
    cases hcase : dir source.leaf with
    | none => rw [hcase] at hc; exact absurd hc refuse_ne_ok
    | some c' => rw [hcase, Except.ok.injEq] at hc; rw [hc]
  · rintro ⟨hok, c, hc, hsha⟩
    exact ⟨hok, c, ⟨hok, by rw [hc]⟩, hsha⟩

end

/-! ## Task files name their plan

The verifier compares the plan and the task that a file names with those it belongs to. In a reachable store they
are the same. -/

/-- The task files a write puts in place. -/
def Write.written : Write → List Task
  | .task t => [t]
  | .tasks ts => ts
  | _ => []

/-- What holds of the task files and of every task file a script writes holds wherever the script is cut. -/
theorem Cut.files {P : Task → Prop} {d d' : PlanDir} {ws : List Write} (hw : ∀ wr ∈ ws, ∀ t ∈ wr.written, P t)
    (hd : ∀ t ∈ d.files, P t) (h : Cut d ws d') : ∀ t ∈ d'.files, P t := by
  induction h with
  | stop => exact hd
  | @step d d₁ d' wr ws hwr _ ih =>
      refine ih (fun v hv => hw v (List.mem_cons_of_mem _ hv)) ?_
      have hnew := hw wr List.mem_cons_self
      by_cases hk : wr.keepsTasks = true
      · rw [PlanDir.files, PlanDir.write_tasks hk hwr]
        exact hd
      cases wr with
      | task t =>
          injection hwr with hwr
          subst hwr
          intro u hu
          rcases mem_putTask hu with rfl | ⟨hu, _⟩
          · exact hnew u List.mem_cons_self
          · exact hd u hu
      | tasks ts =>
          injection hwr with hwr
          subst hwr
          exact hnew
      | plan => exact absurd hwr (by simp [PlanDir.write])
      | _ => exact absurd rfl hk

/-- The plan and its task files carry the plan's ID. -/
structure Named (id : String) (d : PlanDir) : Prop where
  plan : d.plan.planId = id
  tasks : ∀ t ∈ d.files, t.planId = id

section
variable {cfg : Config} {s : Store} {i : Invocation} {sc : Script}

/-- **Step lemma.** The task files a command writes carry its plan's ID. -/
theorem script_named {d : PlanDir} (h : Named i.id d) (hd : s.plans.lookup i.id = some d)
    (hsc : script cfg s i = .ok sc) : ∀ wr ∈ sc.writes, ∀ t ∈ wr.written, t.planId = i.id := by
  have hsame : ∀ {e : PlanDir}, verifyPlan cfg s i.id = .ok e → e = d := fun he =>
    Option.some.inj ((verifyPlan_ok.mp he).1.symm.trans hd)
  -- what is written derives from a task file at hand
  have hof : ∀ {t : Task} {taskId : String}, d.task? taskId = some t → t.planId = i.id := fun ht =>
    h.tasks _ (task?_mem ht).1
  have hkeeps : ∀ {ws : List Write}, ws.all Write.keepsTasks = true → ∀ wr ∈ ws, ∀ t ∈ wr.written, t.planId = i.id := by
    intro ws hws wr hwr t ht
    have := List.all_eq_true.mp hws wr hwr
    cases wr <;> simp [Write.written, Write.keepsTasks] at ht this
  cases hcmd : i.command <;> simp only [script, hcmd] at hsc
  case create => obtain ⟨_, _, hacc⟩ := create_ok hsc; exact absurd (hd.symm.trans hacc.fresh) (by simp)
  case createRollback =>
    obtain ⟨_, _, _, hacc⟩ := createRollback_ok hsc
    exact absurd (hd.symm.trans hacc.fresh) (by simp)
  case approve => obtain ⟨e, hacc⟩ := approve_ok hsc; rw [hacc.script]; exact hkeeps rfl
  case authorize => obtain ⟨e, a, hacc⟩ := authorize_ok hsc; rw [hacc.script]; exact hkeeps rfl
  case dispatch =>
    obtain ⟨e, a, z, hacc⟩ := dispatch_ok hsc
    obtain rfl := hsame hacc.plan
    intro wr hwr t ht
    rw [hacc.script] at hwr
    rcases dispatchScript_tasks wr hwr with h1 | rfl
    · exact @hkeeps [wr] (by simp [h1]) wr List.mem_cons_self t ht
    · obtain ⟨_, _, _, rfl, _⟩ := mem_materialiseFrom (mem_globOrder.mp ht)
      exact h.plan
  case claim =>
    obtain ⟨e, t, expiry, hacc⟩ := claim_ok hsc
    obtain rfl := hsame hacc.plan
    rw [hacc.script]
    simp [Write.written, claimedTask, hof hacc.task]
  case renew =>
    obtain ⟨e, t, expiry, hacc⟩ := renew_ok hsc
    obtain rfl := hsame hacc.plan
    rw [hacc.script]
    simp [Write.written, renewedTask, hof hacc.task]
  case complete =>
    obtain ⟨e, t, result, ev, c, late, hacc⟩ := complete_ok hsc
    obtain rfl := hsame hacc.plan
    rw [hacc.script]
    intro wr hwr
    rcases List.mem_append.mp hwr with hwr | hwr
    · simp only [List.mem_cons, List.not_mem_nil, or_false] at hwr
      rcases hwr with rfl | rfl | rfl <;> simp [Write.written, sealTaskResult, completedTask, hof hacc.task]
    · exact hkeeps afterCompletion_keepsTasks wr hwr
  case reconcile =>
    cases reconcile_ok hsc with
    | released e plan state _ _ _ hw =>
        rw [hw]
        split <;> exact hkeeps rfl
    | expired e t plan state ht _ _ hw =>
        obtain rfl := hsame plan
        rw [hw]
        simp [Write.written, transition, sealTaskResult, expiredTask, h.tasks t ht]
  case retryTask =>
    obtain ⟨e, t, archive, hacc⟩ := retryTask_ok hsc
    obtain rfl := hsame hacc.plan
    rw [hacc.script]
    rcases hacc.archived with ⟨_, rfl⟩ | ⟨_, rfl⟩ <;>
      simp [Write.written, transition, sealTaskAttempt, reopenedTask, hof hacc.task]

/-- **Run lemma.** Every plan of a run carries its ID, whatever is killed. -/
theorem named_reached {allowed : Store → Invocation → Prop} {as : List Invocation} (h : Reached cfg allowed as s) :
    ∀ id d, s.plans.lookup id = some d → Named id d := by
  refine Trace.Run.invariant (I := fun _ s => ∀ id d, s.plans.lookup id = some d → Named id d) ?_ ?_ h
  · intro s hs id d hd
    rw [hs] at hd
    exact absurd hd (by simp [Store.empty])
  · intro _ s i s' _ ih _ hs' id d' hd'
    injection hs' with hs'
    rw [← hs'] at hd'
    rcases after_cases hd' with h1 | ⟨rfl, _, body, _, _, hcreate, rfl⟩ | ⟨rfl, d, sc, hd, hsc, hran⟩
    · exact ih id d' h1
    · refine ⟨?_, by simp [PlanDir.files, newPlan]⟩
      cases hcreate with
      | apply _ hacc => exact hacc.planId
      | rollback _ hacc => exact hacc.planId
    · have hcut := reached_cut hran
      have hnamed := ih i.id d hd
      exact ⟨by rw [hcut.plan]; exact hnamed.plan, hcut.files (script_named hnamed hd hsc) hnamed.tasks⟩

end

/-! ## The round trip -/

/-- The custody `c` of the task file `t` reads back from every directory that still holds it, and holds one
    unmodified copy of every file, with the digest that `custody.json` records. -/
structure CustodyRoundTrip (cfg : Config) (w : World) (id : String) (plan : Plan) (t : Task) (content : Content)
    (sources : List CustodySource) (c : Custodied) : Prop where
  verified : ∀ d : PlanDir, d.plan = plan → d.evidence c.leaf = some c.dir →
    ∃ j, verifySourceTaskCustody cfg id d t t.status = .ok j
  evidence : c.dir "evidence.json" = some content
  copies : ∀ source ∈ sources, ∃ copy, w.read source.path = some copy ∧ c.dir source.leaf = some copy ∧
    (cfg.hashFile copy).hex = source.sha256
  recorded : ∃ m, c.dir "custody.json" = some (.custodyManifest m) ∧
    m.files = sources.map (·.entry (evidencePath cfg id c.leaf))
  exact : ∀ leaf, (c.dir leaf).isSome = true →
    leaf = "evidence.json" ∨ leaf = "custody.json" ∨ ∃ source ∈ sources, source.leaf = leaf
  once : (sources.map (·.leaf)).Nodup

section
variable {cfg : Config} {w : World} {id taskId actor status evidenceFile : String} {d : PlanDir} {t : Task}
  {e : ExecutionEvidence} {c : Custodied}

theorem hex_ne_empty (digest : Digest) : digest.hex ≠ "" := by
  intro h
  have hlist := congrArg String.toList h
  rw [Digest.hex, String.toList_ofList] at hlist
  have hlen := congrArg List.length hlist
  simp only [List.length_append, List.length_replicate, String.toList_empty, List.length_nil] at hlen
  omega

/-- A copy that does not read back. -/
theorem not_kept_lost {m : CustodyManifest} {dir : CustodyDir} {custodyDir : String} {sources : List CustodySource}
    {source : CustodySource} (h : Finished cfg w custodyDir e.content m sources dir) (hs : source ∈ sources)
    (hok : leafOk source.leaf = true)
    (hcopy : ∃ c, dir source.leaf = some c ∧ (cfg.hashFile c).hex = source.sha256) : custodyKept source := by
  obtain ⟨c, hc, hsha⟩ := hcopy
  have hctl : source.leaf.toList.any pathControl = false := by
    simp only [leafOk, Bool.and_eq_true, Bool.not_eq_true'] at hok
    exact hok.1.1
  refine ⟨fun heq => ?_, fun heq => ?_, hctl, fun hoption => ?_⟩
  · rw [heq, h.lost.1] at hc
    exact absurd hc (by simp)
  · rw [heq, h.lost.2] at hc
    exact absurd hc (by simp)
  · rw [h.skipped source hs hoption] at hsha
    exact hex_ne_empty _ hsha

/-- The custodied evidence names the task, as the evidence that was handed in did. -/
theorem evidenceBindsTask_completed (c : Custodied) (late : Bool) (now : Int) {plan : Plan} {result : TaskStatus}
    (hid : t.planId = id) (htask : t.taskId = taskId) (hclaim : t.claimedBy = some actor)
    (hplan : t.planSha256 = plan.planSha256) (houtcome : completionStatus status = some result)
    (he : Accredited cfg w id taskId actor status evidenceFile plan t e) :
    evidenceBindsTask (sealTaskResult cfg (completedTask t result evidenceFile e c now late)) e.document = true := by
  have hidentity := he.identity
  simp only [evidenceIdentity, Bool.and_eq_true] at hidentity
  obtain ⟨⟨⟨⟨⟨⟨⟨⟨⟨_, _⟩, _⟩, _⟩, h1⟩, h2⟩, h3⟩, h4⟩, h5⟩, h6⟩ := hidentity
  have htext : result.text = status := by
    rcases completionStatus_ok houtcome with ⟨rfl, rfl⟩ | ⟨rfl, rfl⟩ <;> rfl
  simp only [evidenceBindsTask, sealTaskResult, completedTask, hclaim, Bool.and_eq_true]
  refine ⟨⟨⟨⟨⟨⟨?_, ?_⟩, ?_⟩, h5⟩, h4⟩, ?_⟩, he.generation⟩
  · rw [hid]; exact h1
  · rw [htask]; exact h2
  · rw [hplan]; exact h3
  · rw [htext]; exact h6

/-- The digest of a record is that of the document without it. -/
theorem evidenceRecord_ok {j : Json} {digest : Digest} (h : evidenceRecord cfg j = .ok digest) :
    ∃ body, j.del "record_sha256" = some body ∧ digest = cfg.hashString (.json body) ∧
      cfg.text (j.at' ["record_sha256"]) = digest.hex := by
  unfold evidenceRecord at h
  cases hdel : j.del "record_sha256" with
  | none => rw [hdel] at h; exact absurd h refuse_ne_ok
  | some body =>
      rw [hdel] at h
      simp only [ensure_bind_ok, Except.ok.injEq] at h
      obtain ⟨htext, rfl⟩ := h
      exact ⟨body, rfl, rfl, htext⟩

/-- A text is not empty to jq. -/
theorem textOrEmpty_of_sha256 {v : Option Json} (h : testSha256 v = true) : cfg.textOrEmpty v = cfg.text v := by
  unfold testSha256 at h
  split at h
  · rfl
  · exact absurd h (by simp)

/-- **What the verifier asks**, for the custody that `complete` has just made. -/
theorem verifySourceTaskCustody_completed (late : Bool) (now : Int) {plan : Plan} {result : TaskStatus}
    {m : CustodyManifest} (hdplan : d.plan = plan) (hdir : d.evidence c.leaf = some c.dir)
    (hid : opuValidateIdentifier id "plan ID" = .ok ()) (htaskId : opuValidateIdentifier taskId "task ID" = .ok ())
    (hstate : ∀ label, opuValidateAbsolutePath cfg.stateDir label = .ok ())
    (hplanId : t.planId = id) (htask : t.taskId = taskId) (hclaim : t.claimedBy = some actor)
    (hsealed : Sealed cfg plan.planSha256 t) (houtcome : completionStatus status = some result)
    (he : Accredited cfg w id taskId actor status evidenceFile plan t e)
    (hleaf : c.leaf = custodyLeaf taskId t.retryCount)
    (hpath : c.evidencePath = Shell.join (evidencePath cfg id c.leaf) "evidence.json")
    (hcustody : c.custody = ⟨Shell.join (evidencePath cfg id c.leaf) "custody.json", cfg.hashFile (.custodyManifest m),
      cfg.hashString (.custodyManifest m)⟩)
    (hm : m.planId = id ∧ m.taskId = taskId ∧ m.evidenceCustodyPath = c.evidencePath ∧ m.evidenceSha256 = e.sha256 ∧
      m.evidenceRecordSha256 = e.recordSha256)
    (hfinished : Finished cfg w (evidencePath cfg id c.leaf) e.content m (custodySources cfg e.document) c.dir) :
    (∃ j, verifySourceTaskCustody cfg id d (sealTaskResult cfg (completedTask t result evidenceFile e c now late))
      result = .ok j) ↔
      ∀ source ∈ custodySources cfg e.document, leafOk source.leaf = true ∧
        ∃ copy, c.dir source.leaf = some copy ∧ (cfg.hashFile copy).hex = source.sha256 := by
  have hshape := (opuValidateIdentifier_ok.mp hid).2
  have hleafShape : identifierShape c.leaf = true := by
    rw [hleaf]
    exact custodyLeaf_shape (opuValidateIdentifier_ok.mp htaskId).2 _
  have hcustodyDir : ∀ label, opuValidateAbsolutePath (evidencePath cfg id c.leaf) label = .ok () :=
    fun label => evidencePath_ok (hstate label) hshape hleafShape
  have hfile := fun label {file} (hslash : '/' ∉ String.toList file) =>
    opuValidateAbsolutePath_join file label (hcustodyDir label) hslash
  have hdirname : ∀ {file : String}, file ≠ "" → '/' ∉ file.toList →
      Shell.dirname (Shell.join (evidencePath cfg id c.leaf) file) = evidencePath cfg id c.leaf :=
    fun hne hslash => dirname_evidencePath hleafShape hne hslash
  have hleaf' : custodyLeaf t.taskId t.retryCount = c.leaf := by rw [htask, hleaf]
  -- the last check, on every listed file
  have hfiles : forEach (verifyCustodiedFile cfg (evidencePath cfg id c.leaf) (evidencePath cfg id c.leaf) c.dir)
      m.files = .ok () ↔ ∀ source ∈ custodySources cfg e.document, leafOk source.leaf = true ∧
        ∃ copy, c.dir source.leaf = some copy ∧ (cfg.hashFile copy).hex = source.sha256 := by
    rw [forEach_ok, hfinished.files, List.forall_mem_map]
    refine forall_congr' fun source => forall_congr' fun hsource => ?_
    have hnamed := (hfinished.named source hsource).2
    simp only [List.mem_cons, List.not_mem_nil, or_false, not_or] at hnamed
    exact verifyCustodiedFile_ok hleafShape (hcustodyDir "") hnamed.1 hnamed.2.2.2
  rw [← hfiles]
  constructor
  · rintro ⟨j, h⟩
    simp only [verifySourceTaskCustody, bind_ok, ensure_ok, need_ok, sealTaskResult, completedTask, hleaf', hdir,
      Option.some.injEq] at h
    obtain ⟨_, _, _, _, _, _, _, _, _, _, dir, rfl, file, hcustodyFile, _, _, m', hm', h⟩ := h
    obtain ⟨_, _, _, _, _, _, _, _, _, _, _, _, _, _, _, _, _, hall, _⟩ := h
    rw [requireCustodied, check_bind_ok, hfinished.manifest, Except.ok.injEq] at hcustodyFile
    rw [← hcustodyFile.2] at hm'
    obtain rfl : m = m' := Option.some.inj hm'
    rw [hpath, Option.getD_some, hdirname (by decide) (by decide)] at hall
    exact hall
  · intro hall
    obtain ⟨body, hdel, hrecord, htext⟩ := evidenceRecord_ok he.record
    refine ⟨e.document, ?_⟩
    simp only [verifySourceTaskCustody, bind_ok, ensure_ok, need_ok, sealTaskResult, completedTask, hcustody, hpath,
      Option.map_some, Option.getD_some, hleaf', Option.some.injEq]
    have hrequire : ∀ {label file : String} {content : Content}, leafOk file = true → '/' ∉ file.toList →
        c.dir file = some content →
          requireCustodied (evidencePath cfg id c.leaf) file label c.dir = .ok content := by
      intro label file content hok hslash hcontent
      rw [requireCustodied, check_bind_ok, hfile label hslash, hcontent]
      exact ⟨hok, rfl⟩
    refine ⟨(), ?_, (), ⟨trivial, rfl⟩, (), ?_, (), ?_, (), ⟨?_, ?_, ?_⟩, c.dir, ?_, .custodyManifest m, ?_, (), ?_, m, rfl,
      (), ?_, e.content, ?_, (), ⟨?_, ?_, ?_, ?_, ?_⟩, (), ?_, e.document, ?_, body, hdel, (), ⟨?_, ?_⟩, (), ?_, (), ?_, rfl⟩
    · rw [hdplan]
      exact verifyTask_ok.mpr
        ⟨hsealed.definition, hsealed.plan, hsealed.generation, hsealed.attempt, fun _ => rfl⟩
    · exact (hfile _ (by decide)).mpr (by decide)
    · exact (hfile _ (by decide)).mpr (by decide)
    · rw [hdirname (by decide) (by decide), hdirname (by decide) (by decide)]
    · exact Shell.basename_join (by decide) (by decide)
    · exact Shell.basename_join (by decide) (by decide)
    · exact hdir
    · exact hrequire (by decide) (by decide) hfinished.manifest
    · rfl
    · rfl
    · exact hrequire (by decide) (by decide) hfinished.evidence
    · rw [hm.1, hplanId]
    · rw [hm.2.1, htask]
    · rw [hm.2.2.1, hpath]
    · exact hm.2.2.2.1
    · exact hm.2.2.2.2
    · exact he.sha256.symm
    · exact he.reading
    · exact hrecord.symm
    · have hcontent := he.content
      simp only [evidenceContent, Bool.and_eq_true] at hcontent
      rw [textOrEmpty_of_sha256 (by simp_all), htext, hrecord]
    · exact evidenceBindsTask_completed c late now hplanId htask hclaim hsealed.plan houtcome he
    · rw [hdirname (by decide) (by decide)]
      exact hall

/-- A copy that is kept passes the verifier's path rule. -/
theorem custodyKept_leafOk {source : CustodySource} (h : custodyKept source)
    (hnamed : source.leaf ∉ ["", ".", "..", "/"]) : leafOk source.leaf = true := by
  simp only [List.mem_cons, List.not_mem_nil, or_false, not_or] at hnamed
  simp [leafOk, h.2.2.1, hnamed.2.1, hnamed.2.2.1]

/-- **Custody round trip.** The custody that `complete` makes of an accepted evidence document reads back, with one
    unmodified copy of every file, exactly when every log and artifact is one that is kept. -/
theorem custody_round_trip {allowed : Store → Invocation → Prop} {as : List Invocation} {s : Store}
    (h : Reached cfg allowed as s) {evidenceSha256 : String} {sc : Script}
    (hsc : complete cfg w s id taskId actor status evidenceFile evidenceSha256 = .ok sc) :
    ∃ d t result e c late, CompleteAccepted cfg w s id taskId actor status evidenceFile sc d t result e c late ∧
      (CustodyRoundTrip cfg w id d.plan
          (sealTaskResult cfg (completedTask t result evidenceFile e c (w.clock 0) late)) e.content
          (custodySources cfg e.document) c ↔
        ∀ source ∈ custodySources cfg e.document, custodyKept source) := by
  obtain ⟨d, t, result, e, c, late, hacc⟩ := complete_ok hsc
  refine ⟨d, t, result, e, c, late, hacc, ?_⟩
  have hd := (verifyPlan_ok.mp hacc.plan).1
  obtain ⟨ht, htask⟩ := task?_mem hacc.task
  have hplanId := (named_reached h id d hd).tasks t ht
  obtain ⟨m, hleaf, hpath, hcustody, h1, h2, h3, h4, h5, hfinished⟩ := custodyExecutionEvidence_ok hacc.custody
  have hstate : ∀ label, opuValidateAbsolutePath cfg.stateDir label = .ok () := by
    intro label
    obtain ⟨_, _, _, hopen, _⟩ := verifyReservation_ok.mp hacc.reservation
    rw [openRegistry, check_bind_ok] at hopen
    exact opuValidateAbsolutePath_ok.mpr (opuValidateAbsolutePath_ok.mp hopen.1)
  -- what the source verification of a rollback asks of the copies, whatever plan directory holds them
  have hverify : ∀ e' : PlanDir, e'.plan = d.plan → e'.evidence c.leaf = some c.dir → _ := fun e' hplan hdir =>
    verifySourceTaskCustody_completed late (w.clock 0) hplan hdir hacc.planId hacc.taskIdShape hstate
      hplanId htask hacc.claimant hacc.intact hacc.outcome (verifyExecutionEvidence_ok hacc.evidence) hleaf hpath
      hcustody ⟨h1, h2, h3, h4, h5⟩ hfinished
  constructor
  -- a copy that is lost with a temporary file, or that has no path to verify, is not read back
  · intro hround source hsource
    obtain ⟨hok, hcopy⟩ := (hverify (d.putCustody c.leaf c.dir) rfl (if_pos rfl)).mp
      (hround.verified _ rfl (if_pos rfl)) source hsource
    exact not_kept_lost hfinished hsource hok hcopy
  · intro hkept
    -- every kept name has its copy, with the digest that was sealed
    have hcopies : ∀ source ∈ custodySources cfg e.document, ∃ copy, w.read source.path = some copy ∧
        c.dir source.leaf = some copy ∧ (cfg.hashFile copy).hex = source.sha256 := by
      intro source hsource
      obtain ⟨htmp, hnext, _, hoption⟩ := hkept source hsource
      obtain ⟨copy, hread, hsha, hcopy⟩ := hfinished.copies source hsource hoption hnext htmp
      exact ⟨copy, hread, hcopy, hsha⟩
    refine ⟨fun e' hplan hdir => (hverify e' hplan hdir).mpr fun source hsource => ?_, hfinished.evidence, hcopies,
      ⟨m, hfinished.manifest, hfinished.files⟩, hfinished.only, hfinished.once hkept⟩
    obtain ⟨copy, _, hcopy, hsha⟩ := hcopies source hsource
    exact ⟨custodyKept_leafOk (hkept source hsource) (hfinished.named source hsource).2, copy, hcopy, hsha⟩

end

/-- The first task of `p1`, claimed by dee. -/
def labClaimed : List Invocation := labDispatched ++ [labClaim 1 "dee"]

/-- The law for the first task of `p1`. -/
theorem custody_round_trip_claimed :
    ∃ sc d t result e c late,
      CompleteAccepted lab (labComplete 1 "dee" .succeeded 0).world (replay lab labClaimed) "p1" "001-precheck-n1" "dee"
          "succeeded" "/e/doc" sc d t result e c late ∧
        (CustodyRoundTrip lab (labComplete 1 "dee" .succeeded 0).world "p1" d.plan (sealTaskResult lab (completedTask t
            result "/e/doc" e c ((labComplete 1 "dee" .succeeded 0).world.clock 0) late)) e.content
            (custodySources lab e.document) c ↔
          ∀ source ∈ custodySources lab e.document, custodyKept source) := by
  obtain ⟨sc, hsc⟩ := accepted_iff.mp (show Accepted (complete lab (labComplete 1 "dee" .succeeded 0).world
    (replay lab labClaimed) "p1" "001-precheck-n1" "dee" "succeeded" "/e/doc" "") = true by decide +kernel)
  obtain ⟨d, t, result, e, c, late, hround⟩ := custody_round_trip (show Reached lab whole labClaimed (replay lab labClaimed) from replay_whole (by decide)) hsc
  exact ⟨sc, d, t, result, e, c, late, hround⟩

/-- Evidence of the first task of `p1` whose output log has the name of the temporary custody manifest. -/
def labCollision : Content :=
  let log (name : String) : String × Json :=
    ("/e/" ++ name, .obj [("path", .str ("/e/" ++ name)), ("sha256", .str (checksum [""]).hex)])
  let body := (labReport labPlan "001-precheck-n1" "precheck" "dee" .succeeded 0).map fun field =>
    if field.1 = "logs" then
      ("logs", Json.obj [("stdout", (log "custody.tmp.json").2), ("stderr", (log "stderr").2)])
    else field
  .supplied "collision" (some (.obj (body ++ [("record_sha256", .str (lab.hashString (.json (.obj body))).hex)])))

/-- The completion that hands it in. -/
def labCollided : Invocation :=
  { labComplete 1 "dee" .succeeded 0 with
    world := labWorld [("/e/doc", labCollision), ("/e/custody.tmp.json", .supplied "" none),
      ("/e/stderr", .supplied "" none)] }

/-- The completion is accepted, and its custody does not verify. -/
theorem custody_lost : Reached lab whole (labClaimed ++ [labCollided]) (replay lab (labClaimed ++ [labCollided])) ∧
    ((replay lab (labClaimed ++ [labCollided])).plans.lookup "p1").map (fun d =>
      (d.task? "001-precheck-n1").map fun t =>
        (t.status, Accepted (verifySourceTaskCustody lab "p1" d t .succeeded))) = some (some (.succeeded, false)) :=
  ⟨replay_whole (by decide), by decide +kernel⟩

end OraclePatching
