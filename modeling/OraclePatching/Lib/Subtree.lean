import Mathlib.Data.List.Infix

/-!
# `Lib.Subtree` — moving, copying and removing whole trees

Files are what is under each path, a path is the list of its names with the last one first, and a tree is what is
inside a path. `mv` and `cp -a` put a tree where they are told to, or, when there is a directory already, inside it under
its own name (`landing`): that is what makes an undo that is a plain `mv` depend on what the failed command has left.

Two paths are apart when neither is inside the other; what is put at one of them leaves the other alone
(`tree_put_apart`). With that the laws of `move` and `copy` are those of memory cells.
-/

namespace Subtree

variable {ν : Type}

/-! ## Definitions

A file tree is a function on locations, and a location is written from the leaf to the root. A subtree is what a
tree has below a location. -/

abbrev Location := List String

/-- What is under each path. -/
abbrev Files (ν : Type) := Location → Option ν

/-- What is inside a path, by the names that lead there. -/
def tree (fs : Files ν) (p : Location) : Files ν := fun names => fs (names ++ p)

def nothing : Files ν := fun _ => none

/-- The tree goes under the path, in place of what was inside. -/
def put (fs : Files ν) (p : Location) (t : Files ν) : Files ν := fun q =>
  if p <:+ q then t (q.take (q.length - p.length)) else fs q

/-- Neither path is inside the other. -/
def Apart (p q : Location) : Prop := ¬ p <:+ q ∧ ¬ q <:+ p

/-- What is in the tree goes over what is inside the path already. -/
def overlay (fs : Files ν) (p : Location) (t : Files ν) : Files ν := fun q =>
  if p <:+ q then (t (q.take (q.length - p.length))).or (fs q) else fs q

section
variable (isDir : ν → Bool)

def isDirectory (fs : Files ν) (p : Location) : Bool := ((fs p).map isDir).getD false

/-- Where a tree called `name` lands that is moved or copied to `dst`. -/
def landing (fs : Files ν) (name : Option String) (dst : Location) : Location :=
  if isDirectory isDir fs dst then name.toList ++ dst else dst

/-- Why a tree cannot go from `src` to `target`: there is none, it would go into itself, there is no directory to put it
    in, or the target is a directory and the source is not, or the other way round. -/
def Blocked (fs : Files ν) (src target : Location) : Prop :=
  (fs src).isNone = true ∨ src <:+ target ∨ isDirectory isDir fs target.tail = false ∨
    ((fs target).isSome = true ∧ isDirectory isDir fs target ≠ isDirectory isDir fs src)

instance (fs : Files ν) (src target : Location) : Decidable (Blocked isDir fs src target) := by
  unfold Blocked
  infer_instance

/-- `mv`. -/
def move (fs : Files ν) (src dst : Location) : Option (Files ν) :=
  let target := landing isDir fs src.head? dst
  if Blocked isDir fs src target then none else some (put (put fs src nothing) target (tree fs src))

/-- `cp -a`. -/
def copy (fs : Files ν) (src dst : Location) : Option (Files ν) :=
  let target := landing isDir fs src.head? dst
  if Blocked isDir fs src target then none else some (overlay fs target (tree fs src))

end

/-! ## Reading what was put -/

section
variable {fs : Files ν} {p q : Location} {t : Files ν}

theorem Apart.symm (h : Apart p q) : Apart q p := ⟨h.2, h.1⟩

theorem put_append (fs : Files ν) (p : Location) (t : Files ν) (names : List String) :
    put fs p t (names ++ p) = t names := by
  unfold put
  rw [if_pos (List.suffix_append names p), List.length_append, Nat.add_sub_cancel, List.take_left]

theorem put_of_not (h : ¬ p <:+ q) : put fs p t q = fs q := if_neg h

/-- The subtree is read where it was put. -/
@[simp] theorem tree_put_self (fs : Files ν) (p : Location) (t : Files ν) : tree (put fs p t) p = t := by
  funext names
  exact put_append fs p t names

/-- Paths that are apart have nothing inside both. -/
theorem Apart.not_suffix (h : Apart p q) (names : List String) : ¬ p <:+ names ++ q := by
  intro hp
  rcases List.suffix_or_suffix_of_suffix hp (List.suffix_append names q) with hpq | hqp
  · exact h.1 hpq
  · exact h.2 hqp

/-- What is inside a path that is apart is apart. -/
theorem Apart.inside (h : Apart p q) (names : List String) : Apart p (names ++ q) :=
  ⟨h.not_suffix names, fun hq => h.2 ((List.suffix_append names q).trans hq)⟩

/-- A subtree apart from it is as it was. -/
theorem tree_put_apart (h : Apart p q) : tree (put fs p t) q = tree fs q := by
  funext names
  exact put_of_not (h.not_suffix names)

/-- Over a place with nothing inside, a tree is put as it is. -/
theorem tree_overlay_nothing (h : tree fs p = nothing) : tree (overlay fs p t) p = t := by
  funext names
  have hnone : fs (names ++ p) = none := congrFun h names
  show overlay fs p t (names ++ p) = t names
  unfold overlay
  rw [if_pos (List.suffix_append names p), List.length_append, Nat.add_sub_cancel, List.take_left, hnone, Option.or_none]

/-- The same for a subtree that is laid over what is there. -/
theorem tree_overlay_apart (h : Apart p q) : tree (overlay fs p t) q = tree fs q := by
  funext names
  exact if_neg (h.not_suffix names)

/-- A path whose tree is nothing is free. -/
theorem none_of_tree (h : tree fs p = nothing) : fs p = none := congrFun h []

end

/-! ## Moving and copying -/

section
variable {isDir : ν → Bool} {fs fs' : Files ν} {src dst p : Location}

theorem isDirectory_none (h : fs p = none) : isDirectory isDir fs p = false := by
  unfold isDirectory
  rw [h]
  rfl

theorem landing_of_not_directory (name : Option String) (h : isDirectory isDir fs dst = false) :
    landing isDir fs name dst = dst := by
  unfold landing
  rw [h]
  rfl

theorem landing_free (name : Option String) (h : fs dst = none) : landing isDir fs name dst = dst :=
  landing_of_not_directory name (isDirectory_none h)

/-- A tree lands at the place or inside it. -/
theorem suffix_landing (name : Option String) : dst <:+ landing isDir fs name dst := by
  unfold landing
  split
  · exact List.suffix_append _ dst
  · exact List.suffix_refl dst

/-- A location apart from the destination is apart from where the source lands. -/
theorem Apart.landing (h : Apart p dst) (name : Option String) : Apart p (landing isDir fs name dst) := by
  unfold Subtree.landing
  split
  · exact h.inside _
  · exact h

theorem move_some (h : move isDir fs src dst = some fs') :
    fs' = put (put fs src nothing) (landing isDir fs src.head? dst) (tree fs src) := by
  unfold move at h
  by_cases hblocked : Blocked isDir fs src (landing isDir fs src.head? dst)
  · rw [if_pos hblocked] at h
    exact absurd h (by simp)
  · rw [if_neg hblocked] at h
    exact (Option.some.inj h).symm

/-- A tree is moved away from its place, wherever it lands; what is apart from both places is as it was, and so is what
    the places are in. -/
theorem move_apart (hapart : Apart src dst) (h : move isDir fs src dst = some fs') :
    tree fs' src = nothing ∧ (∀ p, Apart src p → Apart dst p → tree fs' p = tree fs p) ∧
      ∀ q, ¬ src <:+ q → ¬ dst <:+ q → fs' q = fs q := by
  obtain rfl := move_some h
  refine ⟨?_, fun p hsrc hdst => ?_, fun q hsrc hdst => ?_⟩
  · rw [tree_put_apart (hapart.landing _).symm, tree_put_self]
  · rw [tree_put_apart (hdst.symm.landing _).symm, tree_put_apart hsrc]
  · rw [put_of_not fun hq => hdst ((suffix_landing _).trans hq), put_of_not hsrc]

/-- A tree that is moved where no directory is lands there. -/
theorem move_free (hdst : isDirectory isDir fs dst = false) (h : move isDir fs src dst = some fs') :
    tree fs' dst = tree fs src := by
  obtain rfl := move_some h
  rw [landing_of_not_directory src.head? hdst]
  exact tree_put_self _ _ _

/-- **A move to a free place in a directory is carried out.** -/
theorem move_carried (hsrc : (fs src).isSome = true) (hinside : ¬ src <:+ dst) (hdst : fs dst = none)
    (hparent : isDirectory isDir fs dst.tail = true) : move isDir fs src dst ≠ none := by
  have hclear : ¬ Blocked isDir fs src dst := by
    rintro (h | h | h | h)
    · rw [Option.isNone_iff_eq_none] at h
      rw [h] at hsrc
      exact absurd hsrc (by simp)
    · exact hinside h
    · rw [hparent] at h
      exact absurd h (by simp)
    · rw [hdst] at h
      exact absurd h.1 (by simp)
  unfold move
  rw [landing_free src.head? hdst, if_neg hclear]
  simp

/-- A copy to a place where nothing was. -/
theorem copy_nothing (hdst : tree fs dst = nothing) (h : copy isDir fs src dst = some fs') :
    tree fs' dst = tree fs src ∧ ∀ p, Apart dst p → tree fs' p = tree fs p := by
  unfold copy at h
  rw [landing_free src.head? (none_of_tree hdst)] at h
  by_cases hblocked : Blocked isDir fs src dst
  · rw [if_pos hblocked] at h
    exact absurd h (by simp)
  · rw [if_neg hblocked] at h
    obtain rfl := Option.some.inj h
    exact ⟨tree_overlay_nothing hdst, fun p hp => tree_overlay_apart hp⟩

end

end Subtree
