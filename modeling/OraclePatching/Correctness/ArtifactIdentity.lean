import Mathlib.Data.List.Induction
import OraclePatching.Artifact.Digest

/-!
# `Correctness.ArtifactIdentity` — what the digest of a patch tree identifies

The listing that is hashed can be read back: validated names have no NUL and no line break, and the line of a file is
its hash, behind a backslash if `sha256sum` had to escape the name it was given. That name is the whole path. So the
listing is determined by the map from relative paths to contents and, for every file that can be read, by whether the
*whole* path has a backslash. Trees under one root, or under roots that agree on that, are identified by their
digests; the same tree under `/stage/p` and under `/stage\p` has two (`artifact_identity`).
-/

namespace OraclePatching

open Listing (Bytes Plain sortBy)

/-! ## The hash

`sha256sum` is a parameter. What is asked of it is the shape of its output, and for one direction that it has no
collision among the contents at hand. -/

/-- `[0-9a-f]`. -/
def hexByte (b : UInt8) : Bool :=
  (decide (48 ≤ b.toNat) && decide (b.toNat < 58)) || (decide (97 ≤ b.toNat) && decide (b.toNat < 103))

/-- A hash is written in hexadecimal digits. -/
def HexHash (sha256 : Bytes → Bytes) : Prop := ∀ data, sha256 data ≠ [] ∧ ∀ b ∈ sha256 data, hexByte b = true

/-- No two of the inputs have one hash. -/
def NoCollision (sha256 : Bytes → Bytes) (inputs : List Bytes) : Prop :=
  ∀ x ∈ inputs, ∀ y ∈ inputs, sha256 x = sha256 y → x = y

/-! ## Trees as maps -/

/-- The file system has this content, or nothing that can be read, in a file of this relative path. -/
def MediaTree.Holds (t : MediaTree) (name : Bytes) (content : Option Bytes) : Prop :=
  ∃ e ∈ findFiles t, e.name = name ∧ e.content = content

/-- The same map from relative paths to contents. -/
def SameMap (s t : MediaTree) : Prop := ∀ name content, s.Holds name content ↔ t.Holds name content

/-- What `sha256sum` reads while the digest is computed. -/
def hashed (sha256 : Bytes → Bytes) (root : MediaRoot) (t : MediaTree) : List Bytes :=
  digestListing (sha256sumAwk sha256) root t :: (findFiles t).filterMap MediaEntry.content

/-- A path has a byte that `sha256sum` escapes. -/
def marked (path : Bytes) : Bool := path.any escapedByte

/-- One root has a byte to escape and the other has none, and some file can be read whose relative path has none. -/
def RootsShow (r r' : MediaRoot) (t : MediaTree) : Prop :=
  marked r.path ≠ marked r'.path ∧ ∃ e ∈ findFiles t, e.content.isSome = true ∧ marked e.name = false

/-! ## Names -/

section
variable {t : MediaTree} {e : MediaEntry} {root : MediaRoot}

/-- The files that `find` lists are the regular ones on the device of the root. -/
theorem mem_findFiles : e ∈ findFiles t ↔ e ∈ t.entries ∧ e.kind = .regular ∧ e.device = t.device := by
  unfold findFiles
  rw [List.mem_filter, Bool.and_eq_true, beq_iff_eq, beq_iff_eq]

/-- Every name on a path was checked: it is the last name of an entry. -/
theorem validateTree_path (h : validateTree t = true) {path : List Bytes} (hpath : ∃ e ∈ t.entries, e.path = path) :
    ∀ name ∈ path, name.any controlByte = false := by
  induction path using List.reverseRecOn with
  | nil => exact fun name hname => absurd hname List.not_mem_nil
  | append_singleton above leaf ih =>
      obtain ⟨e, he, hpath⟩ := hpath
      intro name hname
      rcases List.mem_append.mp hname with hname | hname
      · have hne : above ≠ [] := List.ne_nil_of_mem hname
        exact ih (t.closed e he above leaf hpath hne) name hname
      · unfold validateTree at h
        have hvalid := List.all_eq_true.mp h e he
        rw [validEntry, Bool.and_eq_true, Bool.not_eq_true', hpath, List.getLast?_concat] at hvalid
        rw [List.mem_singleton.mp hname]
        exact hvalid.2

/-- A byte of a joined path is the separator or one of a name. -/
theorem mem_intercalate {b c : UInt8} {path : List Bytes} (h : b ∈ [c].intercalate path) :
    b = c ∨ ∃ name ∈ path, b ∈ name := by
  induction path with
  | nil => exact absurd h (by simp)
  | cons name path ih =>
      cases path with
      | nil => exact .inr ⟨name, List.mem_cons_self, by simpa using h⟩
      | cons other path =>
          rw [List.intercalate_cons_of_ne_nil (List.cons_ne_nil _ _), List.mem_append, List.mem_append] at h
          rcases h with (h | h) | h
          · exact .inr ⟨name, List.mem_cons_self, h⟩
          · exact .inl (List.mem_singleton.mp h)
          · exact (ih h).imp_right fun ⟨n, hn, hb⟩ => ⟨n, List.mem_cons_of_mem name hn, hb⟩

/-- **Validated names are plain.** -/
theorem name_plain (h : validateTree t = true) (he : e ∈ t.entries) : Plain e.name := by
  have hcontrol : ∀ b ∈ e.name, controlByte b = false := by
    intro b hb
    rcases mem_intercalate hb with rfl | ⟨name, hname, hb⟩
    · decide
    · have hplain := List.any_eq_false.mp (validateTree_path h ⟨e, he, rfl⟩ name hname) b hb
      simpa using hplain
  exact ⟨fun hmem => absurd (hcontrol 0 hmem) (by decide), fun hmem => absurd (hcontrol 10 hmem) (by decide)⟩

/-- The relative path determines the entry. -/
theorem name_inj {d : MediaEntry} (he : e ∈ t.entries) (hd : d ∈ t.entries) (h : e.name = d.name) : e = d := by
  have hsplit : ∀ x ∈ t.entries, x.name.splitOn 47 = x.path := fun x hx =>
    List.splitOn_intercalate 47 (fun name hname => ((t.named x hx).2 name hname).2.2) (t.named x hx).1
  have hpath : e.path = d.path := by rw [← hsplit e he, ← hsplit d hd, h]
  exact List.inj_on_of_nodup_map t.distinct he hd hpath

/-- A path is marked for a backslash in the root or in the name. -/
theorem fullPath_marked (root : MediaRoot) (e : MediaEntry) :
    marked (e.fullPath root) = (marked root.path || marked e.name) := by
  unfold marked MediaEntry.fullPath
  rw [List.any_append, List.any_cons]
  rfl

/-- Without the root a path is the name. -/
theorem removePrefix_fullPath (root : MediaRoot) (e : MediaEntry) :
    removePrefix (root.path ++ [47]) (e.fullPath root) = e.name := by
  have hpath : e.fullPath root = root.path ++ [47] ++ e.name := by simp [MediaEntry.fullPath]
  unfold removePrefix
  rw [hpath, if_pos (List.isPrefixOf_iff_prefix.mpr (List.prefix_append _ _)), List.drop_left]

end

/-! ## Lines

`sha256sum` marks the line of a path with a backslash in it, and `awk` takes the mark along with the hash. That is
how the root of a tree comes into its digest. -/

/-- The mark `sha256sum` puts in front of a hash. -/
def markOf (path : Bytes) : Bytes := if marked path then [92] else []

section
variable {sha256 : Bytes → Bytes} {b : UInt8} {path path' data : Bytes} {content content' : Option Bytes}

/-- A hexadecimal digit is neither the mark nor a separator. -/
theorem hexByte_ne (h : hexByte b = true) : b ≠ 92 ∧ b ≠ 32 ∧ b ≠ 9 ∧ b ≠ 10 ∧ b ≠ 0 := by
  refine ⟨?_, ?_, ?_, ?_, ?_⟩
  all_goals
    rintro rfl
    exact absurd h (by decide)

theorem markOf_mem (h : b ∈ markOf path) : b = 92 := by
  unfold markOf at h
  split at h
  · exact List.mem_singleton.mp h
  · exact absurd h List.not_mem_nil

/-- A mark and a hash have no blank, no NUL and no line break. -/
theorem mem_markedHash (hhex : HexHash sha256) (h : b ∈ markOf path ++ sha256 data) :
    b ≠ 32 ∧ b ≠ 9 ∧ b ≠ 10 ∧ b ≠ 0 := by
  rcases List.mem_append.mp h with h | h
  · rw [markOf_mem h]
    decide
  · exact (hexByte_ne ((hhex data).2 b h)).2

/-- **`awk` prints the hash with its mark.** -/
theorem awkFirst_line (hhex : HexHash sha256) (path data : Bytes) :
    awkFirst (sha256sumLine sha256 path data) = markOf path ++ sha256 data := by
  have hline : sha256sumLine sha256 path data =
      (markOf path ++ sha256 data) ++ 32 :: (32 :: (path.flatMap escapeByte ++ [10])) := by
    simp [sha256sumLine, markOf, marked]
  have hword : ∀ b ∈ markOf path ++ sha256 data, (!(b == 32 || b == 9 || b == 10)) = true := by
    intro b hb
    obtain ⟨h1, h2, h3, -⟩ := mem_markedHash hhex hb
    simp [h1, h2, h3]
  have hfirst : ∀ rest, ((markOf path ++ sha256 data) ++ rest).dropWhile (fun b => b == 32 || b == 9) =
      (markOf path ++ sha256 data) ++ rest := by
    intro rest
    cases hcase : markOf path ++ sha256 data with
    | nil => exact absurd (List.append_eq_nil_iff.mp hcase).2 (hhex data).1
    | cons c cs =>
        obtain ⟨h1, h2, -, -⟩ := mem_markedHash hhex (b := c) (by rw [hcase]; exact List.mem_cons_self)
        rw [List.cons_append, List.dropWhile_cons_of_neg (by simp [h1, h2])]
  unfold awkFirst
  rw [hline, hfirst, List.takeWhile_append_of_pos hword]
  simp

/-- The line of a file that can be read. -/
theorem sha256sumAwk_some (hhex : HexHash sha256) (path data : Bytes) :
    sha256sumAwk sha256 path (some data) = markOf path ++ sha256 data ++ [10] := by
  unfold sha256sumAwk
  dsimp only
  rw [awkFirst_line hhex]

/-- What comes out for a file is nothing, or one plain line. -/
theorem sha256sumAwk_line (hhex : HexHash sha256) (path : Bytes) (content : Option Bytes) :
    sha256sumAwk sha256 path content = [] ∨
      ∃ text, sha256sumAwk sha256 path content = text ++ [10] ∧ Plain text := by
  cases content with
  | none => exact .inl rfl
  | some data =>
      refine .inr ⟨_, sha256sumAwk_some hhex path data, fun h => ?_, fun h => ?_⟩
      · exact (mem_markedHash hhex h).2.2.2 rfl
      · exact (mem_markedHash hhex h).2.2.1 rfl

/-- A hash does not begin like a mark. -/
theorem markedHash_inj (hhex : HexHash sha256) {data data' : Bytes}
    (h : markOf path ++ sha256 data = markOf path' ++ sha256 data') :
    marked path = marked path' ∧ sha256 data = sha256 data' := by
  have hne : ∀ x y : Bytes, 92 :: sha256 x ≠ sha256 y := by
    intro x y heq
    have hhead := (hhex y).2 92 (by rw [← heq]; exact List.mem_cons_self)
    exact absurd hhead (by decide)
  unfold markOf at h
  by_cases hp : marked path = true <;> by_cases hp' : marked path' = true
  · rw [if_pos hp, if_pos hp', List.append_cancel_left_eq] at h
    exact ⟨hp.trans hp'.symm, h⟩
  · rw [if_pos hp, if_neg hp', List.nil_append] at h
    exact absurd h (hne data data')
  · rw [if_neg hp, if_pos hp', List.nil_append] at h
    exact absurd h.symm (hne data' data)
  · rw [if_neg hp, if_neg hp'] at h
    rw [Bool.not_eq_true] at hp hp'
    exact ⟨hp.trans hp'.symm, by simpa using h⟩

/-- **What a line tells**: whether the file could be read, its hash, and whether the whole path is marked. -/
theorem line_eq (hhex : HexHash sha256) (h : sha256sumAwk sha256 path content = sha256sumAwk sha256 path' content') :
    (content = none ∧ content' = none) ∨ ∃ data data', content = some data ∧ content' = some data' ∧
      marked path = marked path' ∧ sha256 data = sha256 data' := by
  cases content with
  | none =>
      cases content' with
      | none => exact .inl ⟨rfl, rfl⟩
      | some data' =>
          rw [sha256sumAwk_some hhex] at h
          exact absurd (congrArg List.length h) (by simp [sha256sumAwk])
  | some data =>
      cases content' with
      | none =>
          rw [sha256sumAwk_some hhex] at h
          exact absurd (congrArg List.length h) (by simp [sha256sumAwk])
      | some data' =>
          rw [sha256sumAwk_some hhex, sha256sumAwk_some hhex, List.append_cancel_right_eq] at h
          exact .inr ⟨data, data', rfl, rfl, markedHash_inj hhex h⟩

end

/-! ## Listings

The loop prints a line for each file, in the order of the names. A listing of plain lines determines its records. -/

/-- The record of a file in the listing. -/
def MediaEntry.record (sha256 : Bytes → Bytes) (root : MediaRoot) (e : MediaEntry) : Bytes × Bytes :=
  (e.name, sha256sumAwk sha256 (e.fullPath root) e.content)

section
variable {sha256 : Bytes → Bytes} {s t : MediaTree} {r r' root : MediaRoot}

/-- The loop prints the records of the entries. -/
theorem digestLoop_eq (sha256 : Bytes → Bytes) (root : MediaRoot) (es : List MediaEntry) :
    digestLoop (sha256sumAwk sha256) root es = Listing.listing (es.map (MediaEntry.record sha256 root)) := by
  induction es with
  | nil => rfl
  | cons e es ih =>
      rw [digestLoop, ih, removePrefix_fullPath, List.map_cons]
      simp [Listing.listing, Listing.entry, MediaEntry.record]

/-- **The pipeline writes the sorted listing of its records.** The order of whole paths is that of relative ones. -/
theorem digestListing_eq (sha256 : Bytes → Bytes) (root : MediaRoot) (t : MediaTree) :
    digestListing (sha256sumAwk sha256) root t =
      Listing.listing (sortBy Prod.fst ((findFiles t).map (MediaEntry.record sha256 root))) := by
  have horder : sortBy (MediaEntry.fullPath root) (findFiles t) = sortBy MediaEntry.name (findFiles t) := by
    refine Listing.sortBy_congr (fun a b => ?_) _
    have hpath : ∀ e : MediaEntry, e.fullPath root = root.path ++ [47] ++ e.name := fun e => by
      simp [MediaEntry.fullPath]
    rw [hpath, hpath, Listing.before_append]
  unfold digestListing
  rw [horder, digestLoop_eq, ← Listing.map_sortBy]
  rfl

theorem record_wellFormed (hhex : HexHash sha256) (ht : validateTree t = true) :
    ∀ x ∈ (findFiles t).map (MediaEntry.record sha256 root), Listing.WellFormed x := by
  intro x hx
  obtain ⟨e, he, rfl⟩ := List.mem_map.mp hx
  exact ⟨name_plain ht (mem_findFiles.mp he).1, sha256sumAwk_line hhex _ _⟩

theorem record_nodup : (((findFiles t).map (MediaEntry.record sha256 root)).map Prod.fst).Nodup := by
  rw [List.map_map]
  refine List.Nodup.map_on (fun e he d hd h => ?_) (t.distinct.of_map.filter _)
  exact name_inj (mem_findFiles.mp he).1 (mem_findFiles.mp hd).1 h

/-- Listings of validated trees are equal exactly if their records are the same. -/
theorem digestListing_eq_iff (hhex : HexHash sha256) (hs : validateTree s = true) (ht : validateTree t = true) :
    digestListing (sha256sumAwk sha256) r s = digestListing (sha256sumAwk sha256) r' t ↔
      ∀ x, x ∈ (findFiles s).map (MediaEntry.record sha256 r) ↔ x ∈ (findFiles t).map (MediaEntry.record sha256 r') := by
  rw [digestListing_eq, digestListing_eq]
  exact Listing.listing_eq_iff (record_wellFormed hhex hs) (record_wellFormed hhex ht) record_nodup record_nodup

/-! ## Maps -/

/-- One direction of `SameMap`: without collisions, records that are found again hold the same contents. -/
theorem holds_of_records (hhex : HexHash sha256)
    (hno : ∀ x ∈ hashed sha256 r s, ∀ y ∈ hashed sha256 r' t, sha256 x = sha256 y → x = y)
    (h : ∀ x, x ∈ (findFiles s).map (MediaEntry.record sha256 r) → x ∈ (findFiles t).map (MediaEntry.record sha256 r'))
    {name : Bytes} {content : Option Bytes} (hs : s.Holds name content) : t.Holds name content := by
  obtain ⟨e, he, rfl, rfl⟩ := hs
  obtain ⟨d, hd, hrecord⟩ := List.mem_map.mp (h _ (List.mem_map_of_mem he))
  obtain ⟨hname, hline⟩ := Prod.mk.inj hrecord
  refine ⟨d, hd, hname, ?_⟩
  rcases line_eq hhex hline with ⟨h1, h2⟩ | ⟨data, data', h1, h2, -, hsha⟩
  · rw [h1, h2]
  · have hmem : ∀ (u : MediaRoot) (v : MediaTree) (x : MediaEntry) (bytes : Bytes), x ∈ findFiles v →
        x.content = some bytes → bytes ∈ hashed sha256 u v := fun u v x bytes hx hbytes =>
      List.mem_cons_of_mem _ (List.mem_filterMap.mpr ⟨x, hx, hbytes⟩)
    rw [h1, h2, hno data' (hmem r s e data' he h2) data (hmem r' t d data hd h1) hsha.symm]

/-- The other direction: where the roots do not show, equal contents have equal records. -/
theorem records_of_holds (hhex : HexHash sha256) (hmap : SameMap s t) (hroots : ¬ RootsShow r r' s) :
    ∀ x, x ∈ (findFiles s).map (MediaEntry.record sha256 r) → x ∈ (findFiles t).map (MediaEntry.record sha256 r') := by
  intro x hx
  obtain ⟨e, he, rfl⟩ := List.mem_map.mp hx
  obtain ⟨d, hd, hname, hcontent⟩ := (hmap e.name e.content).mp ⟨e, he, rfl, rfl⟩
  refine List.mem_map.mpr ⟨d, hd, ?_⟩
  unfold MediaEntry.record
  rw [hname, hcontent]
  cases hdata : e.content with
  | none => rfl
  | some data =>
      -- the whole paths are marked alike: by their roots, or both by the name
      have hmark : marked (d.fullPath r') = marked (e.fullPath r) := by
        rw [fullPath_marked, fullPath_marked, hname]
        by_cases hsame : marked r.path = marked r'.path
        · rw [hsame]
        · have hnamed : marked e.name = true := by
            by_contra hnot
            exact hroots ⟨hsame, e, he, by rw [hdata]; rfl, by simpa using hnot⟩
          rw [hnamed, Bool.or_true, Bool.or_true]
      have hsame : markOf (d.fullPath r') = markOf (e.fullPath r) := by
        unfold markOf
        rw [hmark]
      rw [sha256sumAwk_some hhex, sha256sumAwk_some hhex, hsame]

/-- Where the roots show, some record is not found again. -/
theorem not_records_of_roots (hhex : HexHash sha256) (hroots : RootsShow r r' s) :
    ¬ ∀ x, x ∈ (findFiles s).map (MediaEntry.record sha256 r) → x ∈ (findFiles t).map (MediaEntry.record sha256 r') := by
  obtain ⟨hne, e, he, hread, hplain⟩ := hroots
  intro h
  obtain ⟨d, hd, hrecord⟩ := List.mem_map.mp (h _ (List.mem_map_of_mem he))
  obtain ⟨hname, hline⟩ := Prod.mk.inj hrecord
  rcases line_eq hhex hline with ⟨-, hnone⟩ | ⟨_, _, -, -, hmark, -⟩
  · rw [hnone] at hread
    exact absurd hread (by simp)
  · rw [fullPath_marked, fullPath_marked, hname, hplain, Bool.or_false, Bool.or_false] at hmark
    exact hne hmark.symm

/-- Whether the roots show does not depend on which of two equal maps is looked at. -/
theorem RootsShow.symm (hmap : SameMap s t) (h : RootsShow r' r t) : RootsShow r r' s := by
  obtain ⟨hne, e, he, hread, hplain⟩ := h
  obtain ⟨d, hd, hname, hcontent⟩ := (hmap e.name e.content).mpr ⟨e, he, rfl, rfl⟩
  exact ⟨hne.symm, d, hd, by rw [hcontent]; exact hread, by rw [hname]; exact hplain⟩

end

/-- **The digest identifies the tree, as long as the roots do not show.** For validated trees under any two roots, in
    whatever order they are enumerated, and without collisions among what is hashed: the digests are equal exactly if
    the trees are the same map from relative paths to contents, unless they are the same map while one root has a
    backslash, the other has none, and some readable file has none in its relative path. On a validated tree the
    inspector and both executors compute one digest. -/
theorem artifact_identity {sha256 : Bytes → Bytes} (hhex : HexHash sha256) {s t : MediaTree} {r r' : MediaRoot}
    (hs : validateTree s = true) (ht : validateTree t = true)
    (hno : NoCollision sha256 (hashed sha256 r s ++ hashed sha256 r' t)) :
    ((inspectDigest sha256 r s = inspectDigest sha256 r' t ↔ SameMap s t) ↔ ¬ (SameMap s t ∧ RootsShow r r' s)) ∧
      ∀ (root : MediaRoot) (u : MediaTree), validateTree u = true →
        inspectDigest sha256 root u = some (singleInstanceDigest sha256 root u) ∧
          racDigest sha256 root u = singleInstanceDigest sha256 root u := by
  have hcross : ∀ x ∈ hashed sha256 r s, ∀ y ∈ hashed sha256 r' t, sha256 x = sha256 y → x = y := fun x hx y hy =>
    hno x (List.mem_append_left _ hx) y (List.mem_append_right _ hy)
  have hdigest : inspectDigest sha256 r s = inspectDigest sha256 r' t ↔
      digestListing (sha256sumAwk sha256) r s = digestListing (sha256sumAwk sha256) r' t := by
    unfold inspectDigest
    rw [if_pos hs, if_pos ht, Option.some.injEq]
    exact ⟨fun h => hcross _ List.mem_cons_self _ List.mem_cons_self h, fun h => by rw [h]⟩
  have hrecords := @digestListing_eq_iff sha256 s t r r' hhex hs ht
  have hmap : inspectDigest sha256 r s = inspectDigest sha256 r' t → SameMap s t := by
    intro h name content
    have hboth := hrecords.mp (hdigest.mp h)
    exact ⟨holds_of_records hhex hcross fun x => (hboth x).mp,
      holds_of_records hhex (fun x hx y hy hxy => (hcross y hy x hx hxy.symm).symm) fun x => (hboth x).mpr⟩
  refine ⟨?_, fun root u hu => ⟨?_, rfl⟩⟩
  · constructor
    · rintro h ⟨hsame, hroots⟩
      exact not_records_of_roots hhex hroots fun x => (hrecords.mp (hdigest.mp (h.mpr hsame)) x).mp
    · intro hcond
      refine ⟨hmap, fun hsame => hdigest.mpr (hrecords.mpr fun x => ?_)⟩
      have hback : SameMap t s := fun name content => (hsame name content).symm
      exact ⟨records_of_holds hhex hsame (fun hroots => hcond ⟨hsame, hroots⟩) x,
        records_of_holds hhex hback (fun hroots => hcond ⟨hsame, hroots.symm hsame⟩) x⟩
  · unfold inspectDigest
    rw [if_pos hu]
    rfl

/-! ## A hash without collisions

A hash that spells its input out satisfies what is asked of `sha256sum`; with it the law can be evaluated. -/

def hexDigitOf (n : Nat) : UInt8 := if n < 10 then UInt8.ofNat (48 + n) else UInt8.ofNat (87 + n)

/-- The bytes themselves, in hexadecimal digits. -/
def spelledOut (data : Bytes) : Bytes := 97 :: data.flatMap fun b => [hexDigitOf (b.toNat / 16), hexDigitOf (b.toNat % 16)]

theorem spelledOut_hex : HexHash spelledOut := by
  have hdigit : ∀ n < 16, hexByte (hexDigitOf n) = true := by decide
  intro data
  refine ⟨List.cons_ne_nil _ _, fun b hb => ?_⟩
  rcases List.mem_cons.mp hb with rfl | hb
  · decide
  · obtain ⟨c, -, hc⟩ := List.mem_flatMap.mp hb
    have hlt := UInt8.toNat_lt c
    rcases List.mem_cons.mp hc with rfl | hc
    · exact hdigit _ (by omega)
    · rw [List.mem_singleton.mp hc]
      exact hdigit _ (by omega)

theorem spelledOut_injective : Function.Injective spelledOut := by
  have hdigit : ∀ m < 16, ∀ n < 16, hexDigitOf m = hexDigitOf n → m = n := by decide
  intro as bs h
  have hbody := (List.cons.inj h).2
  clear h
  induction as generalizing bs with
  | nil =>
      cases bs with
      | nil => rfl
      | cons b bs => exact absurd hbody (by simp)
  | cons a as ih =>
      cases bs with
      | nil => exact absurd hbody (by simp)
      | cons b bs =>
          simp only [List.flatMap_cons, List.cons_append, List.nil_append, List.cons.injEq] at hbody
          obtain ⟨hhigh, hlow, hrest⟩ := hbody
          have ha := UInt8.toNat_lt a
          have hb := UInt8.toNat_lt b
          have h1 := hdigit _ (by omega) _ (by omega) hhigh
          have h2 := hdigit _ (by omega) _ (by omega) hlow
          have hab : a = b := UInt8.toNat_inj.mp (by omega)
          rw [hab, ih hrest]

/-- Every entry is in the root or its directory is there. -/
theorem closed_of_parents {entries : List MediaEntry}
    (h : (entries.all fun e => decide (e.path.length < 2) || entries.any fun d => d.path == e.path.dropLast) = true) :
    ∀ e ∈ entries, ∀ above leaf, e.path = above ++ [leaf] → above ≠ [] → ∃ d ∈ entries, d.path = above := by
  intro e he above leaf hpath hne
  have hparent := List.all_eq_true.mp h e he
  rw [hpath, List.dropLast_concat, Bool.or_eq_true, decide_eq_true_iff, List.length_append, List.length_singleton,
    List.any_eq_true] at hparent
  have hlength := List.length_pos_iff.mpr hne
  rcases hparent with hlt | ⟨d, hd, heq⟩
  · omega
  · exact ⟨d, hd, by simpa using heq⟩

/-- `f/a` and `b`. -/
def sampleTree : MediaTree where
  device := 1
  entries := [⟨[[102]], .directory, 1, 2, none⟩, ⟨[[102], [97]], .regular, 1, 1, some [1]⟩,
    ⟨[[98]], .regular, 1, 1, some [2, 3]⟩]
  distinct := by decide
  named := by decide
  closed := closed_of_parents (by decide)

/-- The same tree, enumerated in another order. -/
def reorderedTree : MediaTree where
  device := 2
  entries := [⟨[[98]], .regular, 2, 1, some [2, 3]⟩, ⟨[[102]], .directory, 2, 2, none⟩,
    ⟨[[102], [97]], .regular, 2, 1, some [1]⟩]
  distinct := by decide
  named := by decide
  closed := closed_of_parents (by decide)

/-- `/p`, `/q` and `/\p`. -/
def rootP : MediaRoot := ⟨[47, 112], by decide, by decide⟩

def rootQ : MediaRoot := ⟨[47, 113], by decide, by decide⟩

def rootBackslash : MediaRoot := ⟨[47, 92, 112], by decide, by decide⟩

/-- A tree and the same tree in another order. -/
theorem sample_sameMap : SameMap sampleTree reorderedTree := by
  have hholds : ∀ (t : MediaTree) (name : Bytes) (content : Option Bytes),
      t.Holds name content ↔ (name, content) ∈ (findFiles t).map fun e => (e.name, e.content) := by
    intro t name content
    rw [List.mem_map]
    exact exists_congr fun e => and_congr_right fun _ => by rw [Prod.mk.injEq]
  intro name content
  rw [hholds, hholds, show (findFiles sampleTree).map (fun e => (e.name, e.content)) =
      [([102, 47, 97], some [1]), ([98], some [2, 3])] by decide,
    show (findFiles reorderedTree).map (fun e => (e.name, e.content)) =
      [([98], some [2, 3]), ([102, 47, 97], some [1])] by decide]
  exact (List.Perm.swap _ _ _).mem_iff

/-- The law at these two trees, under two roots. -/
theorem artifact_identity_reordered :
    inspectDigest spelledOut rootP sampleTree = inspectDigest spelledOut rootQ reorderedTree :=
  ((@artifact_identity spelledOut spelledOut_hex sampleTree reorderedTree rootP rootQ (by decide) (by decide)
    fun _ _ _ _ h => spelledOut_injective h).1.mpr fun h => absurd h.2.1 (by decide)).mpr sample_sameMap

/-- One tree under `/p` and under `/\p`: the same map, and two digests. -/
theorem digest_of_backslash :
    Function.Injective spelledOut ∧ validateTree sampleTree = true ∧ SameMap sampleTree sampleTree ∧
      inspectDigest spelledOut rootP sampleTree ≠ inspectDigest spelledOut rootBackslash sampleTree := by
  refine ⟨spelledOut_injective, ?_, fun name content => Iff.rfl, ?_⟩
  all_goals decide +kernel

end OraclePatching
