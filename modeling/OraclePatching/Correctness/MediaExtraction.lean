import Mathlib.Algebra.Order.BigOperators.Group.List
import Mathlib.Algebra.Ring.Int.Defs
import OraclePatching.Media.Archive

/-!
# `Correctness.MediaExtraction` — nothing is written before all of it is checked, and then exactly that

The first loop of `extract` goes over all members and writes nothing; it comes to its end exactly for an archive that
keeps the rules (`preflight_ok_iff`), so a member that breaks one costs no file. The second loop only adds: below the
destination it makes directories where there was nothing and files under names that were free. What it has done after
some members is `Extracting`, which speaks of the members done and of all paths; `extractEntry_ensures` is the step.
-/

open FileTree Effect

namespace OraclePatching.Media

/-! ## The rules

The rules of the first loop, without the loop: what a lawful list of members is, and what a further member has to
satisfy. -/

/-- A member of a type that may be extracted. -/
def Plain (m : Member) : Prop := m.unsafeDirectory = false ∧ (m.directory = true ∨ m.regular = true)

/-- The normalised path of a member. -/
def Member.rel (m : Member) : List String := pathParts m.name

/-- **The rules of an archive**: path, type, duplicates, sizes and counts. -/
structure Lawful (limits : Limits) (expected : String) (members : List Member) : Prop where
  paths : ∀ m ∈ members, SafePath expected m.name
  types : ∀ m ∈ members, Plain m
  distinct : (members.map Member.rel).Nodup
  sizes : ∀ m ∈ members, 0 ≤ m.size
  count : (members.length : Int) ≤ limits.maxFiles
  total : (members.map Member.size).sum ≤ limits.maxBytes

def Member.entry (m : Member) : Entry := ⟨m.payload, m.rel, m.directory, m.mode, m.size⟩

/-- The variables of the first loop when the members `done` are done. -/
def Scan.of (done : List Member) : Scan :=
  ⟨done.map Member.entry, done.map Member.rel, (done.map Member.size).sum⟩

section
variable {host : Host} {limits : Limits} {expected : String} {done rest : List Member} {m : Member}

/-- What one more member has to keep. -/
structure Next (limits : Limits) (expected : String) (done : List Member) (m : Member) : Prop where
  path : SafePath expected m.name
  type : Plain m
  unseen : m.rel ∉ done.map Member.rel
  size : 0 ≤ m.size
  count : (done.length + 1 : Int) ≤ limits.maxFiles
  total : (done.map Member.size).sum + m.size ≤ limits.maxBytes

/-- One member passes exactly if it may follow the ones before it. -/
theorem scan_next {s : Scan} :
    scanMember host limits expected (Scan.of done) m = .ok s ↔
      Next limits expected done m ∧ s = Scan.of (done ++ [m]) := by
  have hof : Scan.of (done ++ [m]) = ⟨done.map Member.entry ++ [m.entry], done.map Member.rel ++ [m.rel],
      (done.map Member.size).sum + m.size⟩ := by
    simp [Scan.of]
  unfold scanMember memberPath
  -- the checks in the order of the scan: the path, the kind, the first occurrence and the size, the limits
  by_cases hpath : SafePath expected m.name
  · rw [if_pos hpath]
    dsimp only
    by_cases hname : m.unsafeDirectory = true
    · rw [if_pos hname]
      refine iff_of_false (by simp) fun h => absurd h.1.type.1 (by simp [hname])
    rw [if_neg hname]
    by_cases htype : ¬ m.directory = true ∧ ¬ m.regular = true
    · rw [if_pos htype]
      refine iff_of_false (by simp) fun h => ?_
      rcases h.1.type.2 with hdir | hreg
      · exact htype.1 hdir
      · exact htype.2 hreg
    rw [if_neg htype]
    by_cases hseen : pathParts m.name ∈ (Scan.of done).seen ∨ m.size < 0
    · rw [if_pos hseen]
      refine iff_of_false (by simp) fun h => ?_
      rcases hseen with hseen | hsize
      · exact h.1.unseen hseen
      · exact absurd h.1.size (by omega)
    rw [if_neg hseen]
    have hlength : (Scan.of done).seen.length = done.length := List.length_map _
    have htotal : (Scan.of done).total = (done.map Member.size).sum := rfl
    rw [hlength, htotal]
    -- the counter is raised before it is compared, so the bound is on what was read and this member
    by_cases hlimits : (done.length + 1 : Int) > limits.maxFiles ∨
        (done.map Member.size).sum + m.size > limits.maxBytes
    · rw [if_pos hlimits]
      refine iff_of_false (by simp) fun h => ?_
      have hcount := h.1.count
      have htotal := h.1.total
      omega
    rw [if_neg hlimits, Except.ok.injEq, hof]
    rw [not_or] at hseen hlimits
    have hplain : Plain m := ⟨by simpa using hname, by
      by_cases hdir : m.directory = true
      · exact .inl hdir
      · exact .inr (by_contra fun hreg => htype ⟨hdir, hreg⟩)⟩
    constructor
    · intro h
      exact ⟨⟨hpath, hplain, hseen.1, by omega, by omega, by omega⟩, h.symm⟩
    · exact fun h => h.2.symm
  · rw [if_neg hpath]
    exact iff_of_false (by simp) fun h => hpath h.1.path

/-- One more member. -/
theorem lawful_snoc (h : Lawful limits expected done) (hm : Next limits expected done m) :
    Lawful limits expected (done ++ [m]) := by
  refine ⟨?_, ?_, ?_, ?_, ?_, ?_⟩
  · intro a ha
    rcases List.mem_append.mp ha with ha | ha
    · exact h.paths a ha
    · exact List.mem_singleton.mp ha ▸ hm.path
  · intro a ha
    rcases List.mem_append.mp ha with ha | ha
    · exact h.types a ha
    · exact List.mem_singleton.mp ha ▸ hm.type
  · rw [List.map_append, List.map_singleton, List.nodup_append]
    refine ⟨h.distinct, by simp, ?_⟩
    rintro p hp _ hq rfl
    exact hm.unseen (List.mem_singleton.mp hq ▸ hp)
  · intro a ha
    rcases List.mem_append.mp ha with ha | ha
    · exact h.sizes a ha
    · exact List.mem_singleton.mp ha ▸ hm.size
  · rw [List.length_append, List.length_singleton]
    have hcount := hm.count
    omega
  · have htotal := hm.total
    simpa using htotal

/-- Sizes add up to no less than zero. -/
theorem sizes_nonneg {members : List Member} (h : ∀ m ∈ members, 0 ≤ m.size) : 0 ≤ (members.map Member.size).sum := by
  refine List.sum_nonneg fun n hn => ?_
  obtain ⟨m, hm, rfl⟩ := List.mem_map.mp hn
  exact h m hm

/-- What comes first in a lawful archive leaves room for the next member. -/
theorem next_of_lawful (h : Lawful limits expected (done ++ m :: rest)) : Next limits expected done m := by
  have hm : m ∈ done ++ m :: rest := List.mem_append_right done List.mem_cons_self
  have hnonneg : 0 ≤ (rest.map Member.size).sum :=
    sizes_nonneg fun a ha => h.sizes a (List.mem_append_right done (List.mem_cons_of_mem m ha))
  have hcount := h.count
  have htotal := h.total
  rw [List.length_append, List.length_cons] at hcount
  rw [List.map_append, List.sum_append, List.map_cons, List.sum_cons] at htotal
  refine ⟨h.paths m hm, h.types m hm, fun hseen => ?_, h.sizes m hm, by omega, by omega⟩
  have hdistinct := h.distinct
  rw [List.map_append, List.map_cons, List.nodup_append] at hdistinct
  exact hdistinct.2.2 _ hseen _ List.mem_cons_self rfl

/-- **The first loop comes to its end for the archives that keep the rules.** -/
theorem scan_iff {s : Scan} (rest : List Member) : ∀ done, Lawful limits expected done →
    (rest.foldlM (scanMember host limits expected) (Scan.of done) = .ok s ↔
      Lawful limits expected (done ++ rest) ∧ s = Scan.of (done ++ rest)) := by
  induction rest with
  | nil =>
      intro done hdone
      rw [List.append_nil, List.foldlM_nil]
      constructor
      · intro h
        exact ⟨hdone, (Except.ok.inj h).symm⟩
      · rintro ⟨-, rfl⟩
        rfl
  | cons m rest ih =>
      -- one member more is lawful exactly when the scan takes it
      intro done hdone
      rw [List.foldlM_cons]
      have happ : done ++ m :: rest = (done ++ [m]) ++ rest := by simp
      constructor
      · intro h
        cases hstep : scanMember host limits expected (Scan.of done) m with
        | error e =>
            rw [hstep] at h
            exact absurd h (by simp [bind, Except.bind])
        | ok s₁ =>
            rw [hstep] at h
            obtain ⟨hnext, rfl⟩ := scan_next.mp hstep
            rw [happ]
            exact (ih (done ++ [m]) (lawful_snoc hdone hnext)).mp h
      · intro h
        have hnext := next_of_lawful h.1
        rw [happ] at h
        rw [scan_next.mpr ⟨hnext, rfl⟩]
        exact (ih (done ++ [m]) (lawful_snoc hdone hnext)).mpr h

/-- **The first loop accepts the lawful archives**, and lists their members. -/
theorem preflight_ok_iff {archive : Archive} {entries : List Entry} (hlimits : 0 < limits.maxBytes ∧ 0 < limits.maxFiles) :
    preflight host limits expected archive = .ok entries ↔
      Lawful limits expected archive.members ∧ archive.members ≠ [] ∧ entries = archive.members.map Member.entry := by
  have hempty : Lawful limits expected [] :=
    ⟨by simp, by simp, by simp, by simp, by simpa using hlimits.2.le, by simpa using hlimits.1.le⟩
  have hscan := @scan_iff host limits expected
  unfold preflight
  constructor
  · intro h
    cases hfold : archive.members.foldlM (scanMember host limits expected) (Scan.of []) with
    | error e =>
        rw [show (⟨[], [], 0⟩ : Scan) = Scan.of [] from rfl, hfold] at h
        exact absurd h (by simp)
    | ok s =>
        rw [show (⟨[], [], 0⟩ : Scan) = Scan.of [] from rfl, hfold] at h
        obtain ⟨hlawful, rfl⟩ := (hscan archive.members [] hempty).mp hfold
        rw [List.nil_append] at hlawful h
        dsimp only at h
        by_cases hnil : (Scan.of archive.members).entries = []
        · rw [if_pos hnil] at h
          exact absurd h (by simp)
        · rw [if_neg hnil] at h
          refine ⟨hlawful, fun hmembers => hnil ?_, (Except.ok.inj h).symm⟩
          rw [hmembers]
          rfl
  · rintro ⟨hlawful, hne, rfl⟩
    have hfold := (hscan (s := Scan.of archive.members) archive.members [] hempty).mpr ⟨hlawful, rfl⟩
    rw [show (⟨[], [], 0⟩ : Scan) = Scan.of [] from rfl, hfold]
    dsimp only
    have hentries : (Scan.of archive.members).entries = archive.members.map Member.entry := rfl
    rw [hentries, if_neg fun hnil => hne (List.map_eq_nil_iff.mp hnil)]

end

/-! ## The second loop

The second loop writes what the first one listed. What was in the tree before is untouched, and what has been
extracted so far is as the archive has it. -/

/-- The bytes that come out of the member. -/
def Entry.content (e : Entry) : List UInt8 :=
  match e.payload with
  | .ok (some stream) => stream.data
  | _ => []

/-- Nothing outside the destination is created or changed. -/
def Untouched (before : Tree) (destination : Location) (t : Tree) : Prop :=
  ∀ p, ¬ Below destination p → node? t p = node? before p

/-- What is there when the members `done` have been extracted. -/
structure Extracting (before : Tree) (destination : Location) (done : List Entry) (t : Tree) : Prop where
  outside : Untouched before destination t
  inside : ∀ p n, Below destination p → node? t p = some n → n.kind = .directory ∨
    ∃ e ∈ done, e.directory = false ∧ p = e.target destination ∧ n.kind = .regular e.content 1
  files : ∀ e ∈ done, e.directory = false →
    ∃ n, node? t (e.target destination) = some n ∧ n.kind = .regular e.content 1 ∧ (e.content.length : Int) = e.size

/-- The file of a member while it is written: the tree without it keeps `I`. -/
def Writing (I : Tree → Prop) (target : Location) (kind : Kind) (t : Tree) : Prop :=
  ∃ t₀ n, I t₀ ∧ node? t₀ target = none ∧ node? t target = some n ∧ n.kind = kind ∧
    ∀ p, p ≠ target → node? t p = node? t₀ p

section
variable {host : Host} {before : Tree} {destination target : Location} {done : List Entry} {e : Entry} {t : Tree}
  {I : Tree → Prop} {kind kind' : Kind}

/-- A member goes below the destination. -/
theorem below_target (h : e.rel ≠ []) : Below destination (e.target destination) :=
  ⟨e.rel.reverse, by simpa using h, rfl⟩

/-- Making directories on the way disturbs nothing that was extracted. -/
theorem extracting_grows (hfresh : (node? before destination).isSome = true) :
    Grows destination (Extracting before destination done) := by
  refine ⟨fun t ht => ?_, fun t p mode device ht hbelow hnone => ⟨?_, ?_, ?_⟩⟩
  · have hnot : ¬ Below destination destination := by
      rintro ⟨names, hne, heq⟩
      have hlen := congrArg List.length heq
      rw [List.length_append] at hlen
      exact hne (List.length_eq_zero_iff.mp (by omega))
    rw [ht.outside destination hnot]
    exact hfresh
  · intro q hq
    rw [node?_add_ne _ _ fun heq : q = p => hq (heq.symm ▸ hbelow)]
    exact ht.outside q hq
  · intro q n hq hnode
    by_cases heq : q = p
    · rw [heq, node?_add_self] at hnode
      obtain rfl := Option.some.inj hnode
      exact .inl rfl
    · rw [node?_add_ne _ _ heq] at hnode
      exact ht.inside q n hq hnode
  · intro e he hfile
    obtain ⟨n, hnode, hkind⟩ := ht.files e he hfile
    refine ⟨n, ?_, hkind⟩
    rw [node?_add_ne, hnode]
    intro heq
    rw [heq, hnone] at hnode
    exact absurd hnode (by simp)

/-- Another node for the file that is being written. -/
theorem writing_add {n : Node} (h : Writing I target kind t) : Writing I target n.kind (add t target n) := by
  obtain ⟨t₀, n₀, hI, hnone, -, -, hrest⟩ := h
  refine ⟨t₀, n, hI, hnone, node?_add_self t target n, rfl, fun p hp => ?_⟩
  rw [node?_add_ne _ _ hp]
  exact hrest p hp

/-- A file that is being written disturbs nothing that was there before. -/
theorem writing_untouched (hrel : e.rel ≠ [])
    (h : Writing (Extracting before destination done) (e.target destination) kind t) :
    Untouched before destination t := by
  obtain ⟨t₀, -, hI, -, -, -, hrest⟩ := h
  intro p hp
  rw [hrest p fun heq => hp (heq ▸ below_target hrel)]
  exact hI.outside p hp

/-- The member whose file is complete is done. -/
theorem extracting_snoc (hfile : e.directory = false) (hsize : (e.content.length : Int) = e.size) (hrel : e.rel ≠ [])
    (h : Writing (Extracting before destination done) (e.target destination) (.regular e.content 1) t) :
    Extracting before destination (done ++ [e]) t := by
  have huntouched := writing_untouched hrel h
  obtain ⟨t₀, n, hI, hnone, hnode, hkind, hrest⟩ := h
  refine ⟨huntouched, fun p n' hp hnode' => ?_, fun a ha hafile => ?_⟩
  · by_cases heq : p = e.target destination
    · rw [heq, hnode] at hnode'
      obtain rfl := Option.some.inj hnode'
      exact .inr ⟨e, by simp, hfile, heq, hkind⟩
    · rw [hrest p heq] at hnode'
      refine (hI.inside p n' hp hnode').imp_right fun ⟨a, ha, hrest⟩ => ⟨a, ?_, hrest⟩
      exact List.mem_append_left _ ha
  · by_cases heq : a.target destination = e.target destination
    · -- a member done before has its file already
      rcases List.mem_append.mp ha with ha | ha
      · obtain ⟨n', hnode', -⟩ := hI.files a ha hafile
        rw [heq, hnone] at hnode'
        exact absurd hnode' (by simp)
      · obtain rfl := List.mem_singleton.mp ha
        exact ⟨n, hnode, hkind, hsize⟩
    · rcases List.mem_append.mp ha with ha | ha
      · rw [hrest _ heq]
        exact hI.files a ha hafile
      · exact absurd (congrArg (Entry.target · destination) (List.mem_singleton.mp ha)) heq

/-- A directory member adds nothing to what has to be there. -/
theorem extracting_directory (hdir : e.directory = true) (h : Extracting before destination done t) :
    Extracting before destination (done ++ [e]) t := by
  refine ⟨h.outside, fun p n hp hnode => ?_, fun a ha hafile => ?_⟩
  · refine (h.inside p n hp hnode).imp_right fun ⟨a, ha, hrest⟩ => ⟨a, ?_, hrest⟩
    exact List.mem_append_left _ ha
  · rcases List.mem_append.mp ha with ha | ha
    · exact h.files a ha hafile
    · rw [List.mem_singleton.mp ha, hdir] at hafile
      exact absurd hafile (by simp)

/-! ### The calls for one file -/

/-- A system call that fails ends the extraction. -/
theorem os_ensures {P : Tree → Prop} {call : Call Unit} {Q : Unit → Tree → Prop} {E : Tree → Prop}
    (h : Ensures P call Q fun _ => E) : Ensures P (os call) Q fun _ => E := h.adaptExcept

theorem create_ensures {mode : Nat} : Ensures I (os (FileTree.create host.kernel mode target))
    (fun _ => Writing I target (.regular [] 1)) fun _ => I := by
  refine os_ensures (make_ensures.weaken (fun _ h => h) ?_ (fun _ _ h => h))
  rintro - t' ⟨t, ht, hnone, -, rfl⟩
  exact ⟨t, _, ht, hnone, node?_add_self _ _ _, rfl, fun p hp => node?_add_ne _ _ hp⟩

/-- The stream of a member has its content. -/
theorem openMember_ensures : Ensures I (openMember e) (fun stream t => I t ∧ stream.data = e.content)
    fun _ => I := by
  intro t ht
  unfold openMember Entry.content
  cases e.payload with
  | error text => exact ht
  | ok opened =>
      cases opened with
      | none => exact ht
      | some stream => exact ⟨ht, rfl⟩

/-- The content is copied, or the copy stops somewhere. -/
theorem copyStream_ensures {stream : Stream} :
    Ensures (Writing I target (.regular [] 1)) (copyStream host stream target)
      (fun _ => Writing I target (.regular stream.data 1)) (fun _ t => ∃ kind, Writing I target kind t) := by
  have hwrite : Ensures (Writing I target (.regular [] 1)) (os (write host.kernel target stream.data))
      (fun _ => Writing I target (.regular stream.data 1)) (fun _ t => ∃ kind, Writing I target kind t) := by
    refine os_ensures (write_ensures.weaken (fun _ h => h) ?_ ?_)
    · rintro - t' ⟨t, old, links, mode, device, ht, hnode, rfl⟩
      have hadd := writing_add (n := ⟨.regular (old ++ stream.data) links, mode, device⟩) ht
      obtain ⟨-, n, -, -, hn, hkind, -⟩ := ht
      rw [hnode] at hn
      obtain rfl := Option.some.inj hn
      obtain ⟨rfl, rfl⟩ := Kind.regular.inj hkind
      exact hadd
    · rintro - t' (ht | ⟨t, n, ht, -, rfl⟩)
      · exact ⟨_, ht⟩
      · exact ⟨_, writing_add ht⟩
  unfold copyStream
  refine hwrite.bind fun _ => ?_
  cases stream.fault with
  | some text => exact Ensures.throw fun t ht => ⟨_, ht⟩
  | none => exact Ensures.pure fun t ht => ht

theorem checkSize_ensures {data : List UInt8} : Ensures (Writing I target (.regular data 1)) (checkSize e target)
    (fun _ t => Writing I target (.regular data 1) t ∧ (data.length : Int) = e.size)
    (fun _ => Writing I target (.regular data 1)) := by
  unfold checkSize
  refine Ensures.get_bind fun t ht => ?_
  have hsize : fileSize t target = data.length := by
    obtain ⟨-, ⟨kind, mode, device⟩, -, -, hnode, hkind, -⟩ := ht
    obtain rfl : kind = .regular data 1 := hkind
    unfold fileSize
    rw [hnode]
  rw [hsize]
  refine Ensures.ite (fun _ => Ensures.throw ?_) fun hne => Ensures.pure ?_
  · rintro _ rfl
    exact ht
  · rintro _ rfl
    exact ⟨ht, not_ne_iff.mp hne⟩

theorem chmod_writing {mode : Nat} : Ensures (Writing I target kind) (os (chmod host.kernel target mode))
    (fun _ => Writing I target kind) (fun _ => Writing I target kind) := by
  refine os_ensures (chmod_ensures.weaken (fun _ h => h) ?_ (fun _ _ h => h))
  rintro - t' ⟨t, n, ht, hnode, rfl⟩
  have hadd := writing_add (n := { n with mode := mode }) ht
  obtain ⟨-, n', -, -, hn, hkind, -⟩ := ht
  rw [hnode] at hn
  obtain rfl := Option.some.inj hn
  exact hkind ▸ hadd

/-- **The step**: one more member is done, or the program ends with nothing touched outside. -/
theorem extractEntry_ensures (hfresh : (node? before destination).isSome = true) (hrel : e.rel ≠ []) :
    Ensures (Extracting before destination done) (extractEntry host destination e)
      (fun _ => Extracting before destination (done ++ [e])) (fun _ => Untouched before destination) := by
  have hgrows : Grows destination (Extracting before destination done) := extracting_grows hfresh
  have houtside : ∀ (e : Raised) t, Extracting before destination done t → Untouched before destination t :=
    fun _ t ht => ht.outside
  have hwriting : ∀ kind (_ : Raised) t, Writing (Extracting before destination done) (e.target destination) kind t →
      Untouched before destination t := fun kind _ t ht => writing_untouched hrel ht
  unfold extractEntry
  by_cases hdir : e.directory = true
  · rw [if_pos hdir]
    refine (os_ensures (makeDirs_keeps hgrows e.rel.reverse 0o700)).weaken (fun _ h => h) ?_ houtside
    exact fun _ t ht => extracting_directory hdir ht
  rw [if_neg hdir]
  have hfile : e.directory = false := by simpa using hdir
  have hparent : (e.target destination).tail = e.rel.reverse.tail ++ destination := by
    unfold Entry.target
    exact List.tail_append_of_ne_nil (by simpa using hrel)
  -- a file: its parents, the member's stream, a new file, the copy, the size, the mode
  rw [hparent]
  refine ((os_ensures (makeDirs_keeps hgrows e.rel.reverse.tail 0o700)).weaken (fun _ h => h) (fun _ _ h => h)
    houtside).bind fun _ => ?_
  refine (openMember_ensures.weaken (fun _ h => h) (fun _ _ h => h) houtside).bind fun stream => ?_
  by_cases hdata : stream.data = e.content
  · refine ((create_ensures (I := Extracting before destination done)).weaken (fun _ h => h.1) (fun _ _ h => h)
      houtside).bind fun _ => ?_
    refine (copyStream_ensures.weaken (fun _ h => h) (fun _ _ h => h) fun e t ⟨kind, ht⟩ => hwriting kind e t ht).bind
      fun _ => ?_
    rw [hdata]
    refine (checkSize_ensures.weaken (fun _ h => h) (fun _ _ h => h) (hwriting _)).bind fun _ => ?_
    by_cases hsize : (e.content.length : Int) = e.size
    · exact chmod_writing.weaken (fun _ h => h.1) (fun _ t h => extracting_snoc hfile hsize hrel h) (hwriting _)
    · exact fun t ht => absurd ht.2 hsize
  -- another stream than the member's is not opened
  · exact fun t ht => absurd ht.2 hdata

theorem extracting_nil (hfresh : ∀ p, Below destination p → node? before p = none) :
    Extracting before destination [] before := by
  refine ⟨fun p _ => rfl, fun p n hp hnode => ?_, by simp⟩
  rw [hfresh p hp] at hnode
  exact absurd hnode (by simp)

/-- The extracted tree is there, and it is a directory. -/
theorem validateTree_ok {root : Location} {t' : Tree} (h : validateTree root t = .ok () t') :
    t' = t ∧ ∃ n, node? t root = some n ∧ n.kind = .directory := by
  unfold validateTree at h
  cases hroot : node? t root with
  | none =>
      rw [hroot] at h
      exact absurd h (by simp)
  | some n =>
      rw [hroot] at h
      obtain ⟨kind, mode, device⟩ := n
      cases kind with
      | regular | other => exact absurd h (by simp)
      | directory =>
          dsimp only at h
          split at h
          · injection h with _ ht
            exact ⟨ht.symm, _, rfl, rfl⟩
          · exact absurd h (by simp)

end

/-! ## The result -/

/-- A directory with nothing in it. -/
structure Fresh (before : Tree) (destination : Location) : Prop where
  directory : isDirectory before destination = true
  empty : ∀ p, Below destination p → node? before p = none

/-- **A faithful extraction**: below the expected root are the regular members under their normalised paths, with the
    bytes that came out of them, as many as declared; there is nothing but files of one name and directories; and all
    else is as it was. -/
structure Faithful (before : Tree) (destination : Location) (expected : String) (archive : Archive) (t : Tree) :
    Prop where
  files : ∀ p data, (Below (expected :: destination) p ∧ ∃ n links, node? t p = some n ∧ n.kind = .regular data links) ↔
    ∃ m ∈ archive.members, m.directory = false ∧ p = m.entry.target destination ∧ data = m.entry.content
  sizes : ∀ m ∈ archive.members, m.directory = false → (m.entry.content.length : Int) = m.size
  plain : ∀ p n, Below destination p → node? t p = some n → n.kind = .directory ∨ ∃ data, n.kind = .regular data 1
  outside : Untouched before destination t

section
variable {host : Host} {limits : Limits} {archive : Archive} {before t : Tree} {destination : Location}
  {expected : String}

/-- A safe path begins with the expected root. -/
theorem rel_of_safe {m : Member} (h : SafePath expected m.name) : ∃ rest, m.rel = expected :: rest := by
  obtain ⟨-, -, -, -, hhead, -⟩ := h
  unfold Member.rel
  cases hparts : pathParts m.name with
  | nil =>
      rw [hparts] at hhead
      exact absurd hhead (by simp)
  | cons part rest =>
      rw [hparts] at hhead
      exact ⟨rest, by rw [Option.some.inj hhead]⟩

/-- An extracted archive is a faithful tree. -/
theorem faithful_of_extracting (hlawful : Lawful limits expected archive.members)
    (hroot : ∃ n, node? t (expected :: destination) = some n ∧ n.kind = .directory)
    (h : Extracting before destination (archive.members.map Member.entry) t) :
    Faithful before destination expected archive t := by
  have hbelow : ∀ p, Below (expected :: destination) p → Below destination p := by
    rintro p ⟨names, -, rfl⟩
    exact ⟨names ++ [expected], by simp, by simp⟩
  refine ⟨fun p data => ⟨?_, ?_⟩, fun m hm hfile => ?_, fun p n hp hnode => ?_, h.outside⟩
  · rintro ⟨hp, n, links, hnode, hkind⟩
    rcases h.inside p n (hbelow p hp) hnode with hdir | ⟨e, he, hfile, rfl, hkind'⟩
    · rw [hkind] at hdir
      exact absurd hdir (by simp)
    · obtain ⟨m, hm, rfl⟩ := List.mem_map.mp he
      rw [hkind] at hkind'
      exact ⟨m, hm, hfile, rfl, (Kind.regular.inj hkind').1⟩
  · rintro ⟨m, hm, hfile, rfl, rfl⟩
    obtain ⟨n, hnode, hkind, -⟩ := h.files m.entry (List.mem_map_of_mem hm) hfile
    refine ⟨?_, n, 1, hnode, hkind⟩
    obtain ⟨rest, hrel⟩ := rel_of_safe (hlawful.paths m hm)
    have htarget : m.entry.target destination = rest.reverse ++ expected :: destination := by
      show m.rel.reverse ++ destination = _
      rw [hrel]
      simp
    refine ⟨rest.reverse, fun hnil => ?_, htarget⟩
    -- a file in the place of the root is no directory
    rw [hnil, List.nil_append] at htarget
    rw [htarget] at hnode
    obtain ⟨n', hnode', hdir⟩ := hroot
    obtain rfl := Option.some.inj (hnode.symm.trans hnode')
    rw [hkind] at hdir
    exact absurd hdir (by simp)
  · obtain ⟨n, -, -, hsize⟩ := h.files m.entry (List.mem_map_of_mem hm) hfile
    exact hsize
  · rcases h.inside p n hp hnode with hdir | ⟨e, -, -, -, hkind⟩
    · exact .inl hdir
    · exact .inr ⟨_, hkind⟩

/-- What the program has done when it returns, and when it raises. -/
theorem extract_ensures (hfresh : Fresh before destination) :
    Ensures (· = before) (extract host limits archive destination expected)
      (fun _ => Faithful before destination expected archive) (fun _ => Untouched before destination) := by
  have hnothing : ∀ t, t = before → Untouched before destination t := by
    rintro _ rfl p -
    rfl
  unfold extract
  -- refused limits and a refused listing raise before any file operation
  refine Ensures.ite (fun _ => Ensures.throw hnothing) fun hlimits => ?_
  rw [not_or, Int.not_le, Int.not_le] at hlimits
  cases hpreflight : preflight host limits expected archive with
  | error text => exact Ensures.throw hnothing
  | ok entries =>
      obtain ⟨hlawful, -, rfl⟩ := (preflight_ok_iff hlimits).mp hpreflight
      have hsome : (node? before destination).isSome = true := by
        obtain ⟨n, hn, -⟩ := isDirectory_iff.mp hfresh.directory
        rw [hn]
        rfl
      -- entry by entry: what is extracted so far is an extraction of the entries so far
      have hloop : Ensures (· = before) ((archive.members.map Member.entry).forM (extractEntry host destination))
          (fun _ => Extracting before destination (archive.members.map Member.entry))
          (fun _ => Untouched before destination) := by
        refine Ensures.weaken (Ensures.forM fun done e rest hsplit => extractEntry_ensures hsome ?_) ?_
          (fun _ _ h => h) fun _ _ h => h
        · have he : e ∈ archive.members.map Member.entry := hsplit ▸ List.mem_append_right done List.mem_cons_self
          obtain ⟨m, hm, rfl⟩ := List.mem_map.mp he
          obtain ⟨rest, hrel⟩ := rel_of_safe (hlawful.paths m hm)
          show m.rel ≠ []
          rw [hrel]
          exact List.cons_ne_nil _ _
        · rintro _ rfl
          exact extracting_nil hfresh.empty
      refine hloop.bind fun _ t ht => ?_
      -- the last check reads the tree and changes nothing in it
      cases hvalid : validateTree (expected :: destination) t with
      | ok _ t' =>
          obtain ⟨rfl, hroot⟩ := validateTree_ok hvalid
          exact faithful_of_extracting hlawful hroot ht
      | error e t' =>
          have hsame : t' = t := by
            unfold validateTree at hvalid
            split at hvalid
            · split at hvalid
              · exact absurd hvalid (by simp)
              · injection hvalid with _ hsame
                exact hsame.symm
            · injection hvalid with _ hsame
              exact hsame.symm
          show Untouched before destination t'
          rw [hsame]
          exact ht.outside

/-- **Extraction is checked before it writes, and faithful when it returns.** For every archive and every fresh
    destination: an archive that breaks a rule raises with the tree as it was; a return leaves a faithful extraction;
    and whatever raises later has touched nothing outside. -/
theorem extract_checked (host : Host) (limits : Limits) (archive : Archive) (expected : String)
    (hfresh : Fresh before destination) :
    (¬ Lawful limits expected archive.members →
      ∃ e, extract host limits archive destination expected before = .error e before) ∧
    (∀ t, extract host limits archive destination expected before = .ok () t →
      Faithful before destination expected archive t) ∧
    ∀ e t, extract host limits archive destination expected before = .error e t → Untouched before destination t := by
  refine ⟨fun hunlawful => ?_, fun t h => (extract_ensures hfresh).ok rfl h,
    fun e t h => (extract_ensures hfresh).error rfl h⟩
  unfold extract
  by_cases hlimits : limits.maxBytes ≤ 0 ∨ limits.maxFiles ≤ 0
  · rw [if_pos hlimits]
    exact ⟨_, rfl⟩
  · rw [if_neg hlimits]
    rw [not_or, Int.not_le, Int.not_le] at hlimits
    cases hpreflight : preflight host limits expected archive with
    | error text => exact ⟨_, rfl⟩
    | ok entries => exact absurd ((preflight_ok_iff hlimits).mp hpreflight).1 hunlawful

end

/-- A private directory as `mktemp -d` leaves it. -/
def privateDirectory : Tree := add Directory.empty ["work"] ⟨.directory, 0o700, 1⟩

/-- A private working directory is fresh. -/
theorem privateDirectory_fresh : Fresh privateDirectory ["work"] := by
  refine ⟨by decide, fun p hp => ?_⟩
  obtain ⟨names, hne, rfl⟩ := hp
  unfold privateDirectory
  rw [node?_add_ne]
  · rfl
  · intro heq
    have hlen := congrArg List.length heq
    rw [List.length_append] at hlen
    exact hne (List.length_eq_zero_iff.mp (by simpa using hlen))

/-- A kernel that takes every call. -/
def willing : Host := ⟨fun name => "'" ++ name ++ "'", ⟨0o022, fun _ _ => false, fun _ _ data => data.length⟩⟩

/-- A patch of one file, whose name takes a detour. -/
def detour : Archive := .tar [⟨"38291812/./files//payload", false, true, 0o755, 2, .ok (some ⟨[120, 10], none⟩)⟩]

/-- The archive of the detour is extracted; one with a link behind its file leaves the directory empty. -/
theorem extract_checked_detour :
    (∃ t, extract willing {} detour ["work"] "38291812" privateDirectory = .ok () t ∧
      Faithful privateDirectory ["work"] "38291812" detour t) ∧
    ∀ file, ∃ e, extract willing {} (.tar [file, ⟨"38291812/link", false, false, 0o777, 0, .ok none⟩]) ["work"] "38291812"
      privateDirectory = .error e privateDirectory := by
  refine ⟨?_, fun file => ?_⟩
  · have hreturns : (match extract willing {} detour ["work"] "38291812" privateDirectory with
        | .ok _ _ => true
        | .error _ _ => false) = true := by decide +kernel
    cases hextract : extract willing {} detour ["work"] "38291812" privateDirectory with
    | ok _ t => exact ⟨t, rfl, (extract_checked willing {} detour "38291812" privateDirectory_fresh).2.1 t hextract⟩
    | error e t =>
        rw [hextract] at hreturns
        exact absurd hreturns (by simp)
  · refine (extract_checked willing {} _ "38291812" privateDirectory_fresh).1 fun hlawful => ?_
    have hlink := hlawful.types (.tar ⟨"38291812/link", false, false, 0o777, 0, .ok none⟩) (by simp [Archive.members])
    exact absurd hlink.2 (by decide)

end OraclePatching.Media
