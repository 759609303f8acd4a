import Mathlib.Data.List.Perm.Subperm
import OraclePatching.Controller.Replay

/-!
# `Correctness.EvidenceClosedWorld` — what the directory of accepted RAC and Grid evidence holds

`verify_execution_evidence` compares names with names: each entry of the directory has to be listed, and as many
entries have to be there as the document lists. That is equality of two sets, as long as a name that goes through
`$(…)` comes out as it went in. `$(…)` cuts trailing newlines, so an entry `evidence.json⏎` passes for the evidence
file itself, and a listed `log⏎` is verified by the digest of `log`. `Tidy` names these cases, and they are all
(`evidence_closed_world`).

`physical` is the directory that `cd` and `pwd -P` arrive at, before `$(…)` cuts its name.
-/

namespace OraclePatching

/-! ## Names

A path is cut to its last segment by `basename` and by `split("/")`. The two agree on absolute paths that do not
end in a slash. -/

/-- A path that does not end in a slash ends in its `basename`. -/
theorem basename_lastSegment {path : String} (habs : path.toList.head? = some '/')
    (hslash : path.toList.getLast? ≠ some '/') : Shell.basename path = lastSegment path := by
  have hmem : '/' ∈ path.toList.reverse := by
    rw [List.mem_reverse]
    exact List.mem_of_mem_head? habs
  obtain ⟨leaf, pre, hsplit, hleaf⟩ := List.eq_append_cons_of_mem hmem
  have hpath : path.toList = pre.reverse ++ '/' :: leaf.reverse := by
    have hrev := congrArg List.reverse hsplit
    simpa using hrev
  have hjoin : path = Shell.join (String.ofList pre.reverse) (String.ofList leaf.reverse) := by
    apply String.toList_inj.mp
    rw [Shell.join_toList, String.toList_ofList, String.toList_ofList, hpath]
  have hno : '/' ∉ (String.ofList leaf.reverse).toList := by
    rw [String.toList_ofList, List.mem_reverse]
    exact hleaf
  have hne : String.ofList leaf.reverse ≠ "" := by
    intro hempty
    have hnil : leaf.reverse = [] := by simpa using congrArg String.toList hempty
    rw [hpath, hnil] at hslash
    exact hslash (by simp)
  rw [hjoin, Shell.basename_join hne hno]
  unfold lastSegment
  rw [Shell.segments_join, Shell.segments_leaf hno, List.getLastD_concat, String.ofList_toList]

/-- `basename` takes a part of the path. -/
theorem mem_basename {path : String} {c : Char} (hc : c ≠ '/') (h : c ∈ (Shell.basename path).toList) :
    c ∈ path.toList := by
  unfold Shell.basename at h
  rw [String.characters_eq] at h
  split at h
  · exact absurd h (by simp)
  · split at h
    · exact absurd h (by simpa using hc)
    · rw [String.toList_ofList, List.mem_reverse] at h
      have hstripped := List.mem_reverse.mp ((List.takeWhile_sublist _).subset h)
      exact List.mem_reverse.mp ((List.dropWhile_sublist _).subset (List.mem_reverse.mp hstripped))

/-! ## Listed files -/

section
variable (cfg : Config) (w : World) (physical : String → Option String)

/-- The path and the digest that the document has for a log. -/
def listedLog (j : Json) (name : String) : String × String :=
  ((Json.text? (j.at' ["logs", name, "path"])).getD "", (Json.text? (j.at' ["logs", name, "sha256"])).getD "")

/-- The logs and the artifacts. -/
def listedFiles (j : Json) (artifacts : List (String × String)) : List (String × String) :=
  [listedLog j "stdout", listedLog j "stderr"] ++ artifacts

/-- What the commands that look at the file system have in common: `cd` and `pwd -P` print the physical directory, and
    the path of a regular file does not end in a slash and leads to an entry of that directory. -/
structure FileSystem : Prop where
  resolved : ∀ path, w.realDir path = (physical path).map Shell.cmdSubst
  regular : ∀ path c, path.toList.head? = some '/' → w.entry path = some (.regular c) →
    path.toList.getLast? ≠ some '/' ∧ ∃ dir, physical (Shell.dirname path) = some dir ∧
      (lastSegment path, true) ∈ w.listing dir ∧ w.entry (Shell.join dir (lastSegment path)) = some (.regular c)
  names : ∀ dir, ((w.listing dir).map Prod.fst).Nodup
  nul : ∀ dir, ∀ entry ∈ w.listing dir, Char.ofNat 0 ∉ entry.1.toList

/-- A regular file of the directory with a digest. -/
def HoldsFile (dir leaf sha256 : String) : Prop :=
  (leaf, true) ∈ w.listing dir ∧ ∃ c, w.entry (Shell.join dir leaf) = some (.regular c) ∧ (cfg.hashFile c).hex = sha256

/-- **The closed world.** The directory holds the evidence file and the listed files, each of them listed once, a
    regular file and of the listed digest, and nothing else. -/
structure ClosedWorld (dir evidenceLeaf : String) (listed : List (String × String)) : Prop where
  entries : ∀ entry ∈ w.listing dir, entry.2 = true ∧
    (entry.1 = evidenceLeaf ∨ ∃ file ∈ listed, lastSegment file.1 = entry.1)
  evidence : (evidenceLeaf, true) ∈ w.listing dir
  files : ∀ file ∈ listed, HoldsFile cfg w dir (lastSegment file.1) file.2
  once : (evidenceLeaf :: listed.map fun file => lastSegment file.1).Nodup

/-- No name loses anything in `$(…)` that would be missed: the directory's own name is not cut, no other entry passes for the evidence file, no digest is
    cut, and where the path of a listed file is cut, or its directory is, the directory holds a file of the same
    digest under the listed name. -/
structure Tidy (dir evidenceLeaf : String) (listed : List (String × String)) : Prop where
  directory : Shell.cmdSubst dir = dir
  evidence : ∀ entry ∈ w.listing dir, Shell.cmdSubst entry.1 = evidenceLeaf → entry.1 = evidenceLeaf
  digests : ∀ file ∈ listed, Shell.cmdSubst file.2 = file.2
  paths : ∀ file ∈ listed, Shell.cmdSubst file.1 ≠ file.1 ∨ physical (Shell.dirname file.1) ≠ some dir →
    ∀ c, w.entry (Shell.cmdSubst file.1) = some (.regular c) →
      HoldsFile cfg w dir (lastSegment file.1) (cfg.hashFile c).hex

/-- What is checked of a listed file. -/
structure CheckedFile (evidenceDir : String) (file : String × String) : Prop where
  absolute : (Shell.cmdSubst file.1).toList.head? = some '/'
  directory : w.realDir (Shell.dirname (Shell.cmdSubst file.1)) = some evidenceDir
  content : ∃ c, w.entry (Shell.cmdSubst file.1) = some (.regular c) ∧ (cfg.hashFile c).hex = Shell.cmdSubst file.2

/-- What is checked of the directory. -/
structure CheckedDirectory (evidenceDir evidenceLeaf : String) (leaves : List String) : Prop where
  regular : ∀ entry ∈ w.listing evidenceDir, entry.2 = true
  listed : ∀ entry ∈ w.listing evidenceDir, Shell.cmdSubst entry.1 ≠ evidenceLeaf →
    Shell.cmdSubst entry.1 ∈ leaves
  count : ((w.listing evidenceDir).filter fun entry => Shell.cmdSubst entry.1 != evidenceLeaf).length = leaves.length

end

/-! ## What an accepted call has checked

The checks of the evidence directory, collected. They are made on names as `$(…)` gives them, so they say less than
the claim where a name ends in a line break. -/

section
variable {cfg : Config} {w : World} {physical : String → Option String} {j : Json} {evidenceDir evidenceFile dir : String}
  {artifacts listed : List (String × String)}

/-- The leaves of the manifest are those of the listed files. -/
theorem manifestLeaves_eq : manifestLeaves j artifacts =
    (listedFiles j artifacts).map fun file => lastSegment file.1 := by
  simp [manifestLeaves, listedFiles, listedLog]

theorem sealedArtifact_checked {artifact : String × String}
    (h : sealedArtifact cfg w evidenceDir artifact = .ok ()) : CheckedFile cfg w evidenceDir artifact := by
  unfold sealedArtifact at h
  simp only [bind_ok, ensure_ok] at h
  obtain ⟨content, hfile, _, _, _, hdir, hsha⟩ := h
  obtain ⟨hpath, hentry⟩ := requireFile_ok hfile
  exact ⟨(opuValidateAbsolutePath_ok.mp hpath).1, hdir, content, hentry, hsha⟩

theorem log_checked {name path sha256 : String} (hpath : j.at' ["logs", name, "path"] = some (.str path))
    (hsha256 : j.at' ["logs", name, "sha256"] = some (.str sha256))
    (hlog : evidenceLog cfg w j name = .ok ()) (hdir : logInDirectory cfg w evidenceDir j name = .ok ()) :
    CheckedFile cfg w evidenceDir (listedLog j name) := by
  have hlisted : listedLog j name = (path, sha256) := by
    unfold listedLog
    rw [hpath, hsha256]
    rfl
  unfold evidenceLog at hlog
  unfold logInDirectory at hdir
  rw [hpath] at hlog hdir
  rw [hsha256] at hlog
  simp only [bind_ok, ensure_ok] at hlog
  obtain ⟨content, hfile, hsha⟩ := hlog
  rw [ensure_bind_ok, ensure_ok] at hdir
  obtain ⟨hvalid, hentry⟩ := requireFile_ok hfile
  rw [hlisted]
  exact ⟨(opuValidateAbsolutePath_ok.mp hvalid).1, hdir.2, content, hentry, hsha⟩

/-- The entries of the directory were counted and each was found on the list. -/
theorem exactDirectory_checked {evidenceLeaf : String} (h : exactDirectory w evidenceDir evidenceLeaf j artifacts = .ok ()) :
    CheckedDirectory w evidenceDir evidenceLeaf (manifestLeaves j artifacts) := by
  unfold exactDirectory at h
  simp only [check_bind_ok, ensure_ok] at h
  obtain ⟨hregular, hlisted, hcount⟩ := h
  rw [forEach_ok] at hlisted
  refine ⟨?_, ?_, ?_⟩
  · simpa using hregular
  · intro entry hentry hne
    have hmem : Shell.cmdSubst entry.1 ∈ ((w.listing evidenceDir).map fun entry => Shell.cmdSubst entry.1).filter
        (· != evidenceLeaf) := by
      refine List.mem_filter.mpr ⟨List.mem_map_of_mem hentry, ?_⟩
      simpa using hne
    have hleaf := hlisted _ hmem
    simp only [check_bind_ok, ensure_ok] at hleaf
    exact hleaf.2
  · rw [List.filter_map, List.length_map] at hcount
    rw [manifestLeaves_eq, List.length_map]
    show _ = artifacts.length + 2
    exact hcount

theorem startsWithSlash_text {v : Option Json} (h : startsWithSlash v = true) : ∃ s, v = some (.str s) := by
  unfold startsWithSlash at h
  split at h
  · exact ⟨_, rfl⟩
  · exact absurd h (by simp)

theorem testSha256_text {v : Option Json} (h : testSha256 v = true) : ∃ s, v = some (.str s) := by
  unfold testSha256 at h
  split at h
  · exact ⟨_, rfl⟩
  · exact absurd h (by simp)

/-- Everything an accepted call has checked of the directory of RAC or Grid evidence. -/
structure CheckedEvidence (cfg : Config) (w : World) (evidenceFile evidenceDir : String) (j : Json)
    (artifacts : List (String × String)) : Prop where
  file : ∃ c, requireFile w evidenceFile "execution-evidence" = .ok c
  directory : w.realDir (Shell.dirname evidenceFile) = some evidenceDir
  entries : artifactEntries j = some artifacts
  once : (Shell.basename evidenceFile :: manifestLeaves j artifacts).Nodup
  files : ∀ file ∈ listedFiles j artifacts, CheckedFile cfg w evidenceDir file
  exact : CheckedDirectory w evidenceDir (Shell.basename evidenceFile) (manifestLeaves j artifacts)

/-- The sealed artifacts are the ones of the document, and their directory is that of the evidence. -/
theorem sealedArtifacts_ok {sealedDir : String × List (String × String)}
    (h : sealedArtifacts cfg w evidenceFile j = .ok sealedDir) :
    artifactEntries j = some sealedDir.2 ∧
      artifactManifest (Shell.basename evidenceFile) j sealedDir.2 = true ∧
      w.realDir (Shell.dirname evidenceFile) = some sealedDir.1 ∧
      ∀ artifact ∈ sealedDir.2, sealedArtifact cfg w sealedDir.1 artifact = .ok () := by
  unfold sealedArtifacts at h
  split at h
  · exact absurd h refuse_ne_ok
  · rename_i artifacts hartifacts
    rw [ensure_bind_ok] at h
    obtain ⟨hmanifest, h⟩ := h
    split at h
    · exact absurd h refuse_ne_ok
    · rename_i evidenceDir hdir
      rw [check_bind_ok, Except.ok.injEq] at h
      obtain ⟨hall, rfl⟩ := h
      exact ⟨hartifacts, hmanifest, hdir, forEach_ok.mp hall⟩

/-- **All of the checks**, from an accepted call. -/
theorem verifyExecutionEvidence_checked {id taskId actor status : String} {plan : Plan} {task : Task}
    {e : ExecutionEvidence} (hdist : task.adapter.isDistributed = true)
    (h : verifyExecutionEvidence cfg w id taskId actor status evidenceFile plan task = .ok e) :
    ∃ evidenceDir artifacts, CheckedEvidence cfg w evidenceFile evidenceDir e.document artifacts := by
  rw [verifyExecutionEvidence, bind_ok] at h
  obtain ⟨content, hfile, h⟩ := h
  rw [bind_ok] at h
  obtain ⟨j, hj, h⟩ := h
  rw [ensure_bind_ok, ensure_bind_ok, ensure_bind_ok, check_bind_ok, check_bind_ok, bind_ok] at h
  obtain ⟨_, _, hcontent, _, _, record, _, h⟩ := h
  rw [bind_ok] at h
  obtain ⟨sealedDir, hdir, h⟩ := h
  rw [check_bind_ok, check_bind_ok, check_bind_ok, check_bind_ok, Except.ok.injEq] at h
  obtain ⟨_, _, hlogs, hafter, rfl⟩ := h
  rw [distributedBefore, if_pos hdist, bind_ok] at hdir
  obtain ⟨⟨evidenceDir, artifacts⟩, hsealed, hsome⟩ := hdir
  obtain rfl := Except.ok.inj hsome
  obtain ⟨hentries, hmanifest, hreal, hall⟩ := sealedArtifacts_ok hsealed
  -- for a distributed adapter the logs lie beside the evidence, and nothing else does
  have hafter' : (do
      forEach (logInDirectory cfg w evidenceDir j) ["stdout", "stderr"]
      exactDirectory w evidenceDir (Shell.basename evidenceFile) j artifacts) = .ok () := hafter
  rw [check_bind_ok, forEach_ok] at hafter'
  rw [forEach_ok] at hlogs
  simp only [evidenceContent, Bool.and_eq_true] at hcontent
  obtain ⟨⟨⟨⟨-, houtPath⟩, houtSha⟩, herrPath⟩, herrSha⟩ := hcontent
  refine ⟨evidenceDir, artifacts, ⟨content, hfile⟩, hreal, hentries, ?_, ?_, exactDirectory_checked hafter'.2⟩
  · simp only [artifactManifest, Bool.and_eq_true, decide_eq_true_eq, Bool.not_eq_true', List.contains_eq_mem,
      decide_eq_false_iff_not] at hmanifest
    exact List.nodup_cons.mpr ⟨hmanifest.2, hmanifest.1.2⟩
  · intro file hmem
    unfold listedFiles at hmem
    simp only [List.cons_append, List.nil_append, List.mem_cons] at hmem
    -- the two logs and then the listed artifacts
    rcases hmem with rfl | rfl | hmem
    · obtain ⟨path, hpath⟩ := startsWithSlash_text houtPath
      obtain ⟨sha256, hsha256⟩ := testSha256_text houtSha
      exact log_checked hpath hsha256 (hlogs _ (by simp)) (hafter'.1 _ (by simp))
    · obtain ⟨path, hpath⟩ := startsWithSlash_text herrPath
      obtain ⟨sha256, hsha256⟩ := testSha256_text herrSha
      exact log_checked hpath hsha256 (hlogs _ (by simp)) (hafter'.1 _ (by simp))
    · exact sealedArtifact_checked (hall file hmem)

/-! ## Two lists of names

The names on disk and the names on the list: as many of the one as of the other, and each of the one among the
other. -/

/-- Distinct names among as many names are all of them. -/
theorem subset_of_count {xs ys : List String} (hxs : xs.Nodup) (hsub : xs ⊆ ys) (hlen : ys.length ≤ xs.length) :
    ys ⊆ xs := by
  have hperm := (hxs.subperm hsub).perm_of_length_le hlen
  exact fun name hname => hperm.mem_iff.mpr hname

/-- The entries that are compared with the listed names. -/
def otherEntries (w : World) (dir evidenceLeaf : String) : List String :=
  ((w.listing dir).filter fun entry => Shell.cmdSubst entry.1 != evidenceLeaf).map Prod.fst

/-- The entries besides the evidence itself. -/
theorem mem_otherEntries {evidenceLeaf name : String} : name ∈ otherEntries w dir evidenceLeaf ↔
    (∃ entry ∈ w.listing dir, entry.1 = name) ∧ Shell.cmdSubst name ≠ evidenceLeaf := by
  unfold otherEntries
  simp only [List.mem_map, List.mem_filter, bne_iff_ne]
  constructor
  · rintro ⟨entry, ⟨hentry, hne⟩, rfl⟩
    exact ⟨⟨entry, hentry, rfl⟩, hne⟩
  · rintro ⟨⟨entry, hentry, rfl⟩, hne⟩
    exact ⟨entry, ⟨hentry, hne⟩, rfl⟩

theorem otherEntries_nodup (hfs : FileSystem w physical) {evidenceLeaf : String} :
    (otherEntries w dir evidenceLeaf).Nodup :=
  (hfs.names dir).sublist (List.filter_sublist.map _)

/-- The evidence file is an entry of its directory, and its name goes through `$(…)` unchanged. -/
theorem CheckedEvidence.leaf (hfs : FileSystem w physical)
    (h : CheckedEvidence cfg w evidenceFile evidenceDir j artifacts) :
    ∃ dir, physical (Shell.dirname evidenceFile) = some dir ∧ evidenceDir = Shell.cmdSubst dir ∧
      (Shell.basename evidenceFile, true) ∈ w.listing dir ∧
      Shell.cmdSubst (Shell.basename evidenceFile) = Shell.basename evidenceFile := by
  obtain ⟨c, hfile⟩ := h.file
  obtain ⟨hvalid, hentry⟩ := requireFile_ok hfile
  obtain ⟨habs, hcontrol, -⟩ := opuValidateAbsolutePath_ok.mp hvalid
  obtain ⟨hslash, dir, hdir, hlisted, -⟩ := hfs.regular evidenceFile c habs hentry
  rw [← basename_lastSegment habs hslash] at hlisted
  have hreal := h.directory
  rw [hfs.resolved, hdir, Option.map_some, Option.some.injEq] at hreal
  refine ⟨dir, hdir, hreal.symm, hlisted, Shell.cmdSubst_of_line (hfs.nul dir _ hlisted) fun hline => ?_⟩
  have hno := List.any_eq_false.mp hcontrol _ (mem_basename (by decide) hline)
  exact hno (by decide)

/-- **Tidy names are enough.** -/
theorem CheckedEvidence.closed (hfs : FileSystem w physical)
    (h : CheckedEvidence cfg w evidenceFile evidenceDir j artifacts)
    (hdir : physical (Shell.dirname evidenceFile) = some dir)
    (htidy : Tidy cfg w physical dir (Shell.basename evidenceFile) (listedFiles j artifacts)) :
    ClosedWorld cfg w dir (Shell.basename evidenceFile) (listedFiles j artifacts) := by
  obtain ⟨dir', hdir', hreal, hevidence, -⟩ := h.leaf hfs
  obtain rfl : dir = dir' := Option.some.inj (hdir.symm.trans hdir')
  obtain rfl : evidenceDir = dir := hreal.trans htidy.directory
  have hfiles : ∀ file ∈ listedFiles j artifacts, HoldsFile cfg w evidenceDir (lastSegment file.1) file.2 := by
    intro file hfile
    obtain ⟨habs, -, c, hentry, hsha⟩ := h.files file hfile
    rw [htidy.digests file hfile] at hsha
    by_cases hcut : Shell.cmdSubst file.1 ≠ file.1 ∨ physical (Shell.dirname file.1) ≠ some evidenceDir
    · rw [← hsha]
      exact htidy.paths file hfile hcut c hentry
    · rw [not_or, Classical.not_not, Classical.not_not] at hcut
      obtain ⟨hpath, hphysical⟩ := hcut
      rw [hpath] at hentry habs
      obtain ⟨-, dir', hdir', hlisted, hjoin⟩ := hfs.regular file.1 c habs hentry
      obtain rfl : evidenceDir = dir' := Option.some.inj (hphysical.symm.trans hdir')
      exact ⟨hlisted, c, hjoin, hsha⟩
  obtain ⟨hnot, hleaves⟩ := List.nodup_cons.mp h.once
  -- every listed name is an entry, and there are as many of them as there are entries
  have hall : otherEntries w evidenceDir (Shell.basename evidenceFile) ⊆ manifestLeaves j artifacts := by
    refine subset_of_count hleaves (fun leaf hleaf => ?_) (by
      unfold otherEntries
      rw [List.length_map, h.exact.count])
    have hmem := hleaf
    rw [manifestLeaves_eq] at hmem
    obtain ⟨file, hfile, rfl⟩ := List.mem_map.mp hmem
    have hentry := (hfiles file hfile).1
    refine mem_otherEntries.mpr ⟨⟨_, hentry, rfl⟩, fun hcut => hnot ?_⟩
    have heq : lastSegment file.1 = Shell.basename evidenceFile := htidy.evidence _ hentry hcut
    exact heq ▸ hleaf
  refine ⟨fun entry hentry => ⟨h.exact.regular entry hentry, ?_⟩, hevidence, hfiles, manifestLeaves_eq ▸ h.once⟩
  by_cases heq : entry.1 = Shell.basename evidenceFile
  · exact .inl heq
  · have hother := mem_otherEntries.mpr ⟨⟨entry, hentry, rfl⟩, fun hcut => heq (htidy.evidence entry hentry hcut)⟩
    have hleaf := hall hother
    rw [manifestLeaves_eq] at hleaf
    obtain ⟨file, hfile, hname⟩ := List.mem_map.mp hleaf
    exact .inr ⟨file, hfile, hname⟩

/-- **And they are needed**, where the directory's own name is not cut. -/
theorem CheckedEvidence.tidy (hfs : FileSystem w physical)
    (h : CheckedEvidence cfg w evidenceFile evidenceDir j artifacts)
    (hdir : physical (Shell.dirname evidenceFile) = some dir) (hclean : Shell.cmdSubst dir = dir)
    (hclosed : ClosedWorld cfg w dir (Shell.basename evidenceFile) (listedFiles j artifacts)) :
    Tidy cfg w physical dir (Shell.basename evidenceFile) (listedFiles j artifacts) := by
  obtain ⟨dir', hdir', hreal, -, hleaf⟩ := h.leaf hfs
  obtain rfl : dir = dir' := Option.some.inj (hdir.symm.trans hdir')
  obtain rfl : evidenceDir = dir := hreal.trans hclean
  have hdigests : ∀ file ∈ listedFiles j artifacts, Shell.cmdSubst file.2 = file.2 := by
    intro file hfile
    obtain ⟨-, c, -, hsha⟩ := hclosed.files file hfile
    rw [← hsha]
    exact cmdSubst_hex _
  have hentries : ∀ entry ∈ w.listing evidenceDir, entry.1 ≠ Shell.basename evidenceFile →
      entry.1 ∈ manifestLeaves j artifacts := by
    intro entry hentry hne
    rcases (hclosed.entries entry hentry).2 with heq | ⟨file, hfile, hname⟩
    · exact absurd heq hne
    · rw [manifestLeaves_eq]
      exact List.mem_map.mpr ⟨file, hfile, hname⟩
  -- the count of the entries is that of the leaves, so every leaf is among the entries
  have hall : manifestLeaves j artifacts ⊆ otherEntries w evidenceDir (Shell.basename evidenceFile) := by
    refine subset_of_count (otherEntries_nodup hfs) (fun name hname => ?_) (by
      unfold otherEntries
      rw [List.length_map, h.exact.count])
    obtain ⟨⟨entry, hentry, rfl⟩, hne⟩ := mem_otherEntries.mp hname
    exact hentries entry hentry fun heq => hne (heq ▸ hleaf)
  refine ⟨hclean, fun entry hentry hcut => ?_, hdigests, fun file hfile _ c hc => ?_⟩
  · -- an entry that passes for the evidence file is missing from the count
    by_contra hne
    exact (mem_otherEntries.mp (hall (hentries entry hentry hne))).2 hcut
  · obtain ⟨-, -, c', hc', hsha⟩ := h.files file hfile
    rw [hdigests file hfile] at hsha
    obtain rfl : c = c' := by
      have heq := hc.symm.trans hc'
      simpa using heq
    rw [hsha]
    exact hclosed.files file hfile

end

/-- **Closed world of RAC and Grid evidence.** Whatever the names in its directory are, accepted evidence of a
    distributed adapter stands in a directory that holds it, the files it lists and nothing else, each a regular file of
    the listed digest, if every name is tidy; and only then, unless `$(…)` cuts the name of the directory itself. -/
theorem evidence_closed_world {cfg : Config} {w : World} {physical : String → Option String}
    (hfs : FileSystem w physical) {id taskId actor status evidenceFile : String} {plan : Plan} {task : Task}
    {e : ExecutionEvidence} (hdist : task.adapter.isDistributed = true)
    (h : verifyExecutionEvidence cfg w id taskId actor status evidenceFile plan task = .ok e) :
    ∃ dir artifacts, physical (Shell.dirname evidenceFile) = some dir ∧ artifactEntries e.document = some artifacts ∧
      (Tidy cfg w physical dir (Shell.basename evidenceFile) (listedFiles e.document artifacts) →
        ClosedWorld cfg w dir (Shell.basename evidenceFile) (listedFiles e.document artifacts)) ∧
      (Shell.cmdSubst dir = dir →
        ClosedWorld cfg w dir (Shell.basename evidenceFile) (listedFiles e.document artifacts) →
        Tidy cfg w physical dir (Shell.basename evidenceFile) (listedFiles e.document artifacts)) := by
  obtain ⟨evidenceDir, artifacts, hchecked⟩ := verifyExecutionEvidence_checked hdist h
  obtain ⟨dir, hdir, -⟩ := hchecked.leaf hfs
  exact ⟨dir, artifacts, hdir, hchecked.entries, hchecked.closed hfs hdir, hchecked.tidy hfs hdir⟩

/-! ## A RAC precheck -/

def racPlan : Plan :=
  { labPlan with adapter := .databaseRollingOpatch, target := ⟨"ORCL", "/u01/home", "oracle", "/u01/grid", "n1"⟩ }

def racTask : Task := writeTask lab (taskIdOf 1 "rac_precheck" "n1") racPlan "rac_precheck" "n1" (checksum []) (checksum [])

def racReport : List (String × Json) :=
  (labReport racPlan racTask.taskId racTask.stage "dee" .succeeded 0).filter (fun field => field.1 != "target") ++
    [("target", .obj [("database_unique_name", .str "ORCL"), ("oracle_home", .str "/u01/home"),
        ("grid_home", .str "/u01/grid"), ("owner", .str "oracle"), ("topology", .str "rac"),
        ("coordinator_node", .str "n1"), ("node", .str "n1")]),
      ("source_documents", .obj (racPlan.sourceDocuments.texts.map fun p => (p.1, .str p.2))),
      ("artifacts", .arr [.obj [("path", .str "/e/inventory"), ("sha256", .str (checksum [""]).hex)]])]

def racDocument : Json := .obj (racReport ++ [("record_sha256", .str (lab.hashString (.json (.obj racReport))).hex)])

/-- The evidence directory `/e`, with files nobody listed. -/
def racFiles (unlisted : List String) : List (String × Content) :=
  [("doc", .supplied "doc" (some racDocument))] ++
    (["stdout", "stderr", "inventory"] ++ unlisted).map fun leaf => (leaf, .supplied "" none)

def racWorld (unlisted : List String) : World :=
  { labWorld ((racFiles unlisted).map fun file => (Shell.join "/e" file.1, file.2)) with
    realDir := fun path => some (Shell.cmdSubst path)
    listing := fun dir => if dir = "/e" then (racFiles unlisted).map fun file => (file.1, true) else [] }

def racVerified (unlisted : List String) : Ctl ExecutionEvidence :=
  verifyExecutionEvidence lab (racWorld unlisted) "p1" racTask.taskId "dee" "succeeded" "/e/doc" racPlan racTask

/-- Different file names make a directory. -/
theorem racFileSystem {unlisted : List String} (hnodup : ((racFiles unlisted).map Prod.fst).Nodup)
    (hleaves : ∀ leaf ∈ (racFiles unlisted).map Prod.fst,
      leaf ≠ "" ∧ '/' ∉ leaf.toList ∧ Char.ofNat 0 ∉ leaf.toList) : FileSystem (racWorld unlisted) some := by
  refine ⟨fun path => rfl, fun path c _ hentry => ?_, fun dir => ?_, fun dir entry hentry => ?_⟩
  · have hlookup : ∃ file ∈ racFiles unlisted, path = Shell.join "/e" file.1 := by
      obtain ⟨content, hfound, -⟩ := Option.map_eq_some_iff.mp hentry
      obtain ⟨before, behind, hsplit, -⟩ := List.lookup_eq_some_iff.mp hfound
      have hmem : (path, content) ∈ (racFiles unlisted).map fun file => (Shell.join "/e" file.1, file.2) := by
        rw [hsplit]
        exact List.mem_append_right before List.mem_cons_self
      obtain ⟨file, hfile, heq⟩ := List.mem_map.mp hmem
      exact ⟨file, hfile, (Prod.mk.inj heq).1.symm⟩
    obtain ⟨⟨leaf, content⟩, hfile, rfl⟩ := hlookup
    have hmem : leaf ∈ (racFiles unlisted).map Prod.fst := List.mem_map.mpr ⟨_, hfile, rfl⟩
    obtain ⟨hne, hslash, -⟩ := hleaves leaf hmem
    have hlast : lastSegment (Shell.join "/e" leaf) = leaf := by
      unfold lastSegment
      rw [Shell.segments_join, Shell.segments_leaf hslash, List.getLastD_concat, String.ofList_toList]
    have hdir : Shell.dirname (Shell.join "/e" leaf) = "/e" :=
      Shell.dirname_join (d := ['/']) (c := 'e') hne hslash rfl (by decide)
    refine ⟨fun hend => ?_, "/e", by rw [hdir], ?_, by rw [hlast]; exact hentry⟩
    · have hl : leaf.toList ≠ [] := fun hnil => hne (String.toList_inj.mp (by simpa using hnil))
      rw [Shell.join_toList, List.getLast?_append_of_ne_nil _ (List.cons_ne_nil _ _),
        List.getLast?_cons_of_ne_nil hl] at hend
      exact hslash (List.mem_of_getLast? hend)
    · rw [hlast]
      exact List.mem_map.mpr ⟨_, hfile, rfl⟩
  · show (List.map Prod.fst (if dir = "/e" then _ else [])).Nodup
    split
    · rw [List.map_map]
      exact hnodup
    · exact List.nodup_nil
  · have hlisting : entry ∈ if dir = "/e" then (racFiles unlisted).map fun file => (file.1, true) else [] := hentry
    split at hlisting
    · obtain ⟨file, hfile, rfl⟩ := List.mem_map.mp hlisting
      exact (hleaves file.1 (List.mem_map.mpr ⟨file, hfile, rfl⟩)).2.2
    · exact absurd hlisting List.not_mem_nil

/-- The precheck is accepted, and so it is with an entry `doc⏎` beside the evidence file. -/
theorem racVerified_ok :
    (racVerified []).isOk = true ∧ (racVerified ["doc\n"]).isOk = true ∧
      artifactEntries racDocument = some [("/e/inventory", (checksum [""]).hex)] := by
  decide +kernel

/-- The document that is read is the one in the directory. -/
theorem racVerified_document {unlisted : List String} {e : ExecutionEvidence} (h : racVerified unlisted = .ok e) :
    e.document = racDocument := by
  have hacc := verifyExecutionEvidence_ok h
  obtain ⟨-, hentry⟩ := requireFile_ok hacc.file
  have hdoc : (racWorld unlisted).entry "/e/doc" = some (.regular (.supplied "doc" (some racDocument))) := rfl
  have hcontent : e.content = .supplied "doc" (some racDocument) := by
    have heq := hentry.symm.trans hdoc
    simpa using heq
  have hreading := hacc.reading
  rw [hcontent] at hreading
  exact (Option.some.inj hreading).symm

/-- The law at the first of the two. -/
theorem evidence_closed_world_rac : ∃ e, racVerified [] = .ok e ∧
    ClosedWorld lab (racWorld []) "/e" "doc" (listedFiles e.document [("/e/inventory", (checksum [""]).hex)]) := by
  obtain ⟨hok, -, hartifacts⟩ := racVerified_ok
  cases hrun : racVerified [] with
  | error _ => rw [hrun] at hok; exact absurd hok (by simp [Except.isOk, Except.toBool])
  | ok e =>
      have hdoc := racVerified_document hrun
      obtain ⟨dir, artifacts, hdir, hentries, htidy, -⟩ :=
        evidence_closed_world (racFileSystem (by decide) (by decide)) (by decide) hrun
      rw [hdoc, hartifacts] at hentries
      obtain rfl := Option.some.inj hentries
      obtain rfl : "/e" = dir := Option.some.inj hdir
      refine ⟨e, rfl, htidy ⟨by decide, ?_, ?_, ?_⟩⟩
      · decide
      · rw [hdoc]
        decide +kernel
      · have hplain : ∀ file ∈ listedFiles racDocument [("/e/inventory", (checksum [""]).hex)],
            Shell.cmdSubst file.1 = file.1 ∧ Shell.dirname file.1 = "/e" := by decide +kernel
        intro file hfile hcut
        rw [hdoc] at hfile
        obtain ⟨hpath, hparent⟩ := hplain file hfile
        rcases hcut with hcut | hcut
        · exact absurd hpath hcut
        · exact absurd (congrArg some hparent) hcut

/-- The entry `doc⏎` is neither listed nor seen. -/
theorem evidence_unlisted : ∃ e, FileSystem (racWorld ["doc\n"]) some ∧ racVerified ["doc\n"] = .ok e ∧
    ∀ artifacts, artifactEntries e.document = some artifacts →
      ¬ ClosedWorld lab (racWorld ["doc\n"]) "/e" "doc" (listedFiles e.document artifacts) := by
  obtain ⟨-, hok, hartifacts⟩ := racVerified_ok
  cases hrun : racVerified ["doc\n"] with
  | error _ => rw [hrun] at hok; exact absurd hok (by simp [Except.isOk, Except.toBool])
  | ok e =>
      have hdoc := racVerified_document hrun
      refine ⟨e, racFileSystem (by decide) (by decide), rfl, fun artifacts hentries hclosed => ?_⟩
      rw [hdoc, hartifacts] at hentries
      obtain rfl := Option.some.inj hentries
      have hentry : ("doc\n", true) ∈ (racWorld ["doc\n"]).listing "/e" := by decide
      have hunlisted : ∀ file ∈ listedFiles racDocument [("/e/inventory", (checksum [""]).hex)],
          lastSegment file.1 ≠ "doc\n" := by decide +kernel
      rcases (hclosed.entries _ hentry).2 with heq | ⟨file, hfile, heq⟩
      · exact absurd heq (by decide)
      · rw [hdoc] at hfile
        exact hunlisted file hfile heq

end OraclePatching
