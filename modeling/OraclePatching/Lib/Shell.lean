import Mathlib.Data.List.TakeWhile
import OraclePatching.Lib.Characters

/-!
# `Lib.Shell` — path names and command substitution as a POSIX shell has them

`basename`, `dirname`, `$(…)` and the splitting of a path into its segments, with the facts that say how
they act on a path built as `directory/leaf`. Nothing here knows what the paths are for.
-/

namespace Shell

/-! ## Definitions -/

/-- A path without its trailing slashes. -/
def stripSlashes (p : List Char) : List Char := (p.reverse.dropWhile (· == '/')).reverse

/-- `basename -- p`. -/
def basename (p : String) : String :=
  if p = "" then ""
  else
    match stripSlashes p.characters with
    | [] => "/"
    | q => String.ofList ((q.reverse.takeWhile (· != '/')).reverse)

/-- `dirname -- p`. -/
def dirname (p : String) : String :=
  match stripSlashes p.characters with
  | [] => if p = "" then "." else "/"
  | q =>
      match (q.reverse.dropWhile (· != '/')).reverse with
      | [] => "."
      | r =>
          match stripSlashes r with
          | [] => "/"
          | d => String.ofList d

/-- What `$(…)` makes of an output: NUL bytes are dropped and trailing newlines are cut. -/
def cmdSubst (s : String) : String :=
  String.ofList (((s.characters.filter (· != Char.ofNat 0)).reverse.dropWhile (· == '\n')).reverse)

/-- The lines `while IFS= read -r line` sees of a text that is printed with a newline after it. -/
def lines (s : String) : List String :=
  ((s.characters.filter (· != Char.ofNat 0)).splitOn '\n').map String.ofList

/-- The text between slashes, in order. -/
def segments (p : String) : List (List Char) := p.characters.splitOn '/'

/-- `dir/leaf`. -/
def join (dir leaf : String) : String := dir ++ "/" ++ leaf

/-! ## `directory/leaf` -/

theorem join_toList (dir leaf : String) : (join dir leaf).toList = dir.toList ++ '/' :: leaf.toList := by
  simp [join, String.toList_append]

theorem join_ne_empty (dir leaf : String) : join dir leaf ≠ "" := by
  intro h
  have := congrArg String.toList h
  rw [join_toList] at this
  simp at this

theorem stripSlashes_snoc {p : List Char} {c : Char} (hc : c ≠ '/') :
    stripSlashes (p ++ [c]) = p ++ [c] := by
  simp [stripSlashes, hc]

/-- A list of characters without a slash that is not empty keeps its last character when stripped. -/
theorem stripSlashes_append {p l : List Char} (hl : l ≠ []) (hs : '/' ∉ l) :
    stripSlashes (p ++ l) = p ++ l := by
  obtain ⟨q, c, rfl⟩ : ∃ q c, l = q ++ [c] :=
    ⟨l.dropLast, l.getLast hl, (List.dropLast_concat_getLast hl).symm⟩
  rw [← List.append_assoc]
  exact stripSlashes_snoc (fun h => hs (by simp [h]))

theorem takeWhile_reverse_join {p l : List Char} (hs : '/' ∉ l) :
    (p ++ '/' :: l).reverse.takeWhile (· != '/') = l.reverse := by
  have hall : ∀ c ∈ l.reverse, (c != '/') = true := by
    intro c hc
    have hne : c ≠ '/' := fun h => hs (h ▸ List.mem_reverse.mp hc)
    simpa using hne
  rw [List.reverse_append, List.reverse_cons, List.append_assoc, List.takeWhile_append_of_pos hall]
  simp

theorem dropWhile_reverse_join {p l : List Char} (hs : '/' ∉ l) :
    (p ++ '/' :: l).reverse.dropWhile (· != '/') = '/' :: p.reverse := by
  have hall : ∀ c ∈ l.reverse, (c != '/') = true := by
    intro c hc
    have hne : c ≠ '/' := fun h => hs (h ▸ List.mem_reverse.mp hc)
    simpa using hne
  rw [List.reverse_append, List.reverse_cons, List.append_assoc, List.dropWhile_append_of_pos hall]
  simp

/-- `basename` of `dir/leaf` is `leaf`. -/
theorem basename_join {dir leaf : String} (hne : leaf ≠ "") (hs : '/' ∉ leaf.toList) :
    basename (join dir leaf) = leaf := by
  have hl : leaf.toList ≠ [] := fun h => hne (String.toList_inj.mp (by simpa using h))
  have hstrip : stripSlashes (join dir leaf).toList = dir.toList ++ '/' :: leaf.toList := by
    rw [join_toList, show dir.toList ++ '/' :: leaf.toList = (dir.toList ++ ['/']) ++ leaf.toList by simp,
      stripSlashes_append hl hs]
  rw [basename, if_neg (join_ne_empty dir leaf), String.characters_eq, hstrip]
  split
  · rename_i heq; exact absurd heq (by simp)
  · rw [takeWhile_reverse_join hs]; simp

/-- `dirname` of `dir/leaf` is `dir`, for a directory that does not end in a slash. -/
theorem dirname_join {dir leaf : String} (hne : leaf ≠ "") (hs : '/' ∉ leaf.toList) {c : Char}
    {d : List Char} (hd : dir.toList = d ++ [c]) (hc : c ≠ '/') :
    dirname (join dir leaf) = dir := by
  have hl : leaf.toList ≠ [] := fun h => hne (String.toList_inj.mp (by simpa using h))
  have hstrip : stripSlashes (join dir leaf).toList = dir.toList ++ '/' :: leaf.toList := by
    rw [join_toList, show dir.toList ++ '/' :: leaf.toList = (dir.toList ++ ['/']) ++ leaf.toList by simp,
      stripSlashes_append hl hs]
  have hup : ((dir.toList ++ '/' :: leaf.toList).reverse.dropWhile (· != '/')).reverse
      = dir.toList ++ ['/'] := by
    rw [dropWhile_reverse_join hs]; simp
  have hslash : stripSlashes (dir.toList ++ ['/']) = dir.toList := by
    rw [hd]; simp [stripSlashes, hc]
  rw [dirname, String.characters_eq, hstrip]
  split
  · rename_i heq; exact absurd heq (by simp)
  · rw [hup]
    split
    · rename_i heq; exact absurd heq (by simp)
    · rw [hslash]
      split
      · rename_i heq; rw [hd] at heq; exact absurd heq (by simp)
      · exact String.ofList_toList

/-- What `basename` returns has no slash in it, unless it is the root. -/
theorem basename_no_slash {p : String} (hroot : basename p ≠ "/") : '/' ∉ (basename p).toList := by
  unfold basename at hroot ⊢
  split
  · simp
  · split
    · rename_i hne _ heq
      rw [if_neg hne, heq] at hroot
      exact absurd rfl hroot
    · rw [String.toList_ofList, List.mem_reverse]
      intro hmem
      have := List.mem_takeWhile_imp hmem
      simp at this

theorem segments_join (dir leaf : String) :
    segments (join dir leaf) = segments dir ++ segments leaf := by
  rw [segments, String.characters_eq, join_toList, List.splitOn_eq_splitOnP,
    List.splitOnP_append_cons _ _ (by simp), segments, segments, List.splitOn_eq_splitOnP,
    List.splitOn_eq_splitOnP, String.characters_eq, String.characters_eq]

theorem segments_leaf {leaf : String} (hs : '/' ∉ leaf.toList) : segments leaf = [leaf.toList] := by
  rw [segments, String.characters_eq, List.splitOn_eq_splitOnP]
  refine List.splitOnP_eq_singleton (fun c hc => ?_)
  have : c ≠ '/' := fun h => hs (h ▸ hc)
  simpa using this

/-! ## Command substitution -/

theorem cmdSubst_sub {s : String} {c : Char} (h : c ∈ (cmdSubst s).toList) : c ∈ s.toList := by
  rw [cmdSubst, String.characters_eq, String.toList_ofList, List.mem_reverse] at h
  have h1 := (List.dropWhile_sublist _).subset h
  rw [List.mem_reverse] at h1
  exact (List.mem_filter.mp h1).1

/-- A text of one line without NUL bytes comes out as it is. -/
theorem cmdSubst_of_line {s : String} (hnul : Char.ofNat 0 ∉ s.toList) (hline : '\n' ∉ s.toList) :
    cmdSubst s = s := by
  have hkeep : s.toList.filter (· != Char.ofNat 0) = s.toList := by
    refine List.filter_eq_self.mpr fun c hc => bne_iff_ne.mpr ?_
    rintro rfl
    exact hnul hc
  have hlast : s.toList.reverse.dropWhile (· == '\n') = s.toList.reverse := by
    cases hrev : s.toList.reverse with
    | nil => rfl
    | cons c cs =>
        have hc : c ≠ '\n' := by
          rintro rfl
          exact hline (List.mem_reverse.mp (hrev ▸ List.mem_cons_self))
        rw [List.dropWhile_cons_of_neg (by simpa using hc)]
  unfold cmdSubst
  rw [String.characters_eq, hkeep, hlast, List.reverse_reverse, String.ofList_toList]

end Shell
