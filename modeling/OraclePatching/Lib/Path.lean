import Mathlib.Data.List.Infix

/-!
# `Lib.Path` — the tests a router makes on the path of a URL

`startswith`, `endswith`, `in`, the slice between a prefix and a suffix, and `partition`, with what they say about a
path that begins and ends in a given way. Nothing here knows which routes there are.
-/

namespace Path

/-! ## Definitions -/

def startsWith (path pre : String) : Bool := pre.toList.isPrefixOf path.toList

def endsWith (path suf : String) : Bool := suf.toList.isSuffixOf path.toList

/-- `word in path`. -/
def contains (path word : String) : Bool := decide (word.toList <:+: path.toList)

/-- `path[len(pre):-len(suf)]`: nothing where the two overlap. -/
def between (path pre suf : String) : String :=
  String.ofList ((path.toList.take (path.toList.length - suf.toList.length)).drop pre.toList.length)

/-- `path[len(pre):]`. -/
def after (path pre : String) : String := String.ofList (path.toList.drop pre.toList.length)

/-- What stands before and after the first `word`; all of it is before when there is none. -/
def splitAt (word : List Char) : List Char → List Char × List Char
  | [] => ([], [])
  | c :: cs =>
      if word.isPrefixOf (c :: cs) then ([], (c :: cs).drop word.length)
      else
        let rest := splitAt word cs
        (c :: rest.1, rest.2)

/-- `text.partition(word)` without the separator. -/
def partition (text word : String) : String × String :=
  let parts := splitAt word.toList text.toList
  (String.ofList parts.1, String.ofList parts.2)

/-! ## Prefixes and suffixes -/

section
variable {path pre pre' suf suf' : String}

theorem startsWith_iff : startsWith path pre = true ↔ pre.toList <+: path.toList := by
  unfold startsWith
  exact List.isPrefixOf_iff_prefix

theorem endsWith_iff : endsWith path suf = true ↔ suf.toList <:+ path.toList := by
  unfold endsWith
  exact List.isSuffixOf_iff_suffix

theorem contains_iff {word : String} : contains path word = true ↔ word.toList <:+: path.toList := by
  unfold contains
  exact decide_eq_true_iff

/-- Two prefixes of one path: one is a prefix of the other. -/
theorem startsWith_comparable (h : startsWith path pre = true) (h' : startsWith path pre' = true) :
    pre.toList <+: pre'.toList ∨ pre'.toList <+: pre.toList :=
  List.prefix_or_prefix_of_prefix (startsWith_iff.mp h) (startsWith_iff.mp h')

/-- Two suffixes of one path: one is a suffix of the other. -/
theorem endsWith_comparable (h : endsWith path suf = true) (h' : endsWith path suf' = true) :
    suf.toList <:+ suf'.toList ∨ suf'.toList <:+ suf.toList :=
  List.suffix_or_suffix_of_suffix (endsWith_iff.mp h) (endsWith_iff.mp h')

/-- A slice that is not empty puts the path together again. -/
theorem between_eq (hpre : startsWith path pre = true) (hsuf : endsWith path suf = true)
    (hne : between path pre suf ≠ "") :
    path.toList = pre.toList ++ ((between path pre suf).toList ++ suf.toList) := by
  obtain ⟨rest, hrest⟩ := startsWith_iff.mp hpre
  obtain ⟨front, hfront⟩ := endsWith_iff.mp hsuf
  have htake : path.toList.take (path.toList.length - suf.toList.length) = front := by
    rw [← hfront, List.length_append, Nat.add_sub_cancel, List.take_left]
  have hbetween : (between path pre suf).toList = front.drop pre.toList.length := by
    unfold between
    rw [String.toList_ofList, htake]
  -- a slice that is not empty means that the suffix starts behind the prefix
  have hlen : pre.toList.length ≤ front.length := by
    apply Nat.le_of_lt
    apply Nat.lt_of_not_le
    intro hle
    have hnil : (between path pre suf).toList = [] := by rw [hbetween, List.drop_eq_nil_of_le hle]
    exact hne (String.toList_inj.mp (by simp [hnil]))
  have hfrontPre : pre.toList <+: front := by
    apply List.prefix_of_prefix_length_le (startsWith_iff.mp hpre) ⟨_, hfront⟩ hlen
  obtain ⟨mid, hmid⟩ := hfrontPre
  rw [hbetween, ← hmid, List.drop_left, ← List.append_assoc, hmid, hfront]

end

end Path
