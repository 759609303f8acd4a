import OraclePatching.Lib.Directory
import OraclePatching.Lib.Effect

/-!
# `Lib.FileTree` — files and directories under their paths

A file tree keeps one node for every path; a path is the list of its names, the last one first, so that the parent of
`name :: parent` is `parent`. The calls are those of a kernel: `mkdir`, an exclusive `create`, `write`, `chmod`. Each
says no with an `Errno`, for the reasons that the tree gives and for reasons of its own (`Kernel.refuses`: a name too
long, a full disk), and `makeDirs` is the recursive form that makes the missing parents.

What is proved is what a caller needs who only adds: a call that adds a node found none there (`make_ensures`), and
`makeDirs` below a directory that exists adds directories below it and nothing else (`makeDirs_keeps`). Links are not
followed: a node of the kind `other` is no directory here.
-/

namespace FileTree

open Effect

/-! ## Definitions -/

/-- The names of a path, the last one first. -/
abbrev Location := List String

/-- `links` counts the names that a file has; `other` is a symbolic link or a special file. -/
inductive Kind where
  | regular (data : List UInt8) (links : Nat)
  | directory
  | other
  deriving DecidableEq, Repr

structure Node where
  kind : Kind
  mode : Nat
  device : Nat
  deriving DecidableEq, Repr

/-- One node for every path. -/
abbrev Tree := Directory (Prod.fst : Location × Node → Location)

inductive Errno where
  | alreadyExists
  | missing
  | notDirectory
  | refused
  deriving DecidableEq, Repr

/-- What a kernel decides beyond the tree: the bits of a mode that it clears, the calls that it refuses, and how many
    bytes of a write it takes. -/
structure Kernel where
  umask : Nat
  refuses : Tree → Location → Bool
  accepts : Tree → Location → List UInt8 → Nat

/-- A command on the tree. -/
abbrev Call := EStateM Errno Tree

def node? (t : Tree) (p : Location) : Option Node := (t.get? p).map Prod.snd

def isDirectory (t : Tree) (p : Location) : Bool :=
  match node? t p with
  | some n => n.kind = .directory
  | none => false

/-- The node goes under the path. -/
def add (t : Tree) (p : Location) (n : Node) : Tree := t.put (p, n)

/-- `p` is inside the directory `d`. -/
def Below (d p : Location) : Prop := ∃ names, names ≠ [] ∧ p = names ++ d

/-- Why a new node cannot go under the path; `none` when it can. -/
def obstacle (kernel : Kernel) (t : Tree) : Location → Option Errno
  | [] => some .alreadyExists
  | name :: parent =>
      if kernel.refuses t (name :: parent) then some .refused
      else if (node? t (name :: parent)).isSome then some .alreadyExists
      else
        match node? t parent with
        | none => some .missing
        | some n => if n.kind = .directory then none else some .notDirectory

/-- The node of a kind and a mode that the kernel makes under the path: on the device of the directory. -/
def fresh (kernel : Kernel) (t : Tree) (p : Location) (kind : Kind) (mode : Nat) : Node where
  kind := kind
  mode := mode &&& (0o7777 ^^^ kernel.umask)
  device := ((node? t p.tail).map Node.device).getD 0

/-- A call that adds a node. -/
def make (kernel : Kernel) (kind : Kind) (mode : Nat) (p : Location) : Call Unit := fun t =>
  match obstacle kernel t p with
  | some e => .error e t
  | none => .ok () (add t p (fresh kernel t p kind mode))

def mkdir (kernel : Kernel) (mode : Nat) (p : Location) : Call Unit := make kernel .directory mode p

/-- `open` with `O_CREAT | O_EXCL`. -/
def create (kernel : Kernel) (mode : Nat) (p : Location) : Call Unit := make kernel (.regular [] 1) mode p

/-- Append to the file; the kernel may stop in the middle. -/
def write (kernel : Kernel) (p : Location) (data : List UInt8) : Call Unit := fun t =>
  match node? t p with
  | some ⟨.regular old links, mode, device⟩ =>
      let t' := add t p ⟨.regular (old ++ data.take (kernel.accepts t p data)) links, mode, device⟩
      if data.length ≤ kernel.accepts t p data then .ok () t' else .error .refused t'
  | _ => .error .missing t

def chmod (kernel : Kernel) (p : Location) (mode : Nat) : Call Unit := fun t =>
  match node? t p with
  | some n => if kernel.refuses t p then .error .refused t else .ok () (add t p { n with mode := mode })
  | none => .error .missing t

/-- A directory that may be there already; its parents must be. -/
def makeDir (kernel : Kernel) (mode : Nat) (p : Location) : Call Unit := fun t =>
  match mkdir kernel mode p t with
  | .error .missing t' => .error .missing t'
  | .error e t' => if isDirectory t' p then .ok () t' else .error e t'
  | .ok _ t' => .ok () t'

/-- A directory that may be there already, with the parents that are missing. -/
def makeDirs (kernel : Kernel) (mode : Nat) : Location → Call Unit
  | [] => makeDir kernel mode []
  | name :: parent => fun t =>
      match makeDir kernel mode (name :: parent) t with
      | .error .missing t' => (makeDirs kernel 0o777 parent >>= fun _ => makeDir kernel mode (name :: parent)) t'
      | r => r

/-! ## Reading what was written -/

section
variable {t : Tree} {p q d : Location} {n : Node} {kernel : Kernel} {kind : Kind} {mode : Nat}

@[simp] theorem node?_add_self (t : Tree) (p : Location) (n : Node) : node? (add t p n) p = some n := by
  have hput : (t.put (p, n)).get? p = some (p, n) := Directory.get?_put_self t (p, n)
  unfold node? add
  rw [hput]
  rfl

theorem node?_add_ne (t : Tree) (n : Node) (h : q ≠ p) : node? (add t p n) q = node? t q := by
  unfold node? add
  rw [Directory.get?_put_ne t (show q ≠ Prod.fst (p, n) from h)]

theorem isDirectory_iff : isDirectory t p = true ↔ ∃ n, node? t p = some n ∧ n.kind = .directory := by
  unfold isDirectory
  cases node? t p with
  | none => simp
  | some n => simp

/-! ## Adding nodes -/

theorem obstacle_none (h : obstacle kernel t p = none) : node? t p = none ∧ isDirectory t p.tail = true := by
  cases p with
  | nil => exact absurd h (by simp [obstacle])
  | cons name parent =>
      rw [obstacle] at h
      by_cases hrefused : kernel.refuses t (name :: parent) = true
      · rw [if_pos hrefused] at h
        exact absurd h (by simp)
      rw [if_neg hrefused] at h
      by_cases hsome : (node? t (name :: parent)).isSome = true
      · rw [if_pos hsome] at h
        exact absurd h (by simp)
      rw [if_neg hsome] at h
      refine ⟨by simpa using hsome, ?_⟩
      rw [List.tail_cons, isDirectory_iff]
      cases hparent : node? t parent with
      | none =>
          rw [hparent] at h
          exact absurd h (by simp)
      | some n =>
          rw [hparent] at h
          refine ⟨n, rfl, ?_⟩
          by_contra hkind
          exact absurd h (by simp [hkind])

/-- Where a node is, the kernel does not miss a parent. -/
theorem obstacle_of_some (h : (node? t p).isSome = true) : ∃ e, obstacle kernel t p = some e ∧ e ≠ .missing := by
  cases p with
  | nil => exact ⟨_, rfl, by decide⟩
  | cons name parent =>
      rw [obstacle]
      by_cases hrefused : kernel.refuses t (name :: parent) = true
      · exact ⟨.refused, by rw [if_pos hrefused], by decide⟩
      · exact ⟨.alreadyExists, by rw [if_neg hrefused, if_pos h], by decide⟩

/-- **A call that adds a node found none there.** -/
theorem make_ensures {P : Tree → Prop} : Ensures P (make kernel kind mode p)
    (fun _ t' => ∃ t, P t ∧ node? t p = none ∧ isDirectory t p.tail = true ∧ t' = add t p (fresh kernel t p kind mode))
    (fun _ => P) := by
  intro t ht
  unfold make
  cases hobstacle : obstacle kernel t p with
  | some e => exact ht
  | none =>
      obtain ⟨hnone, hdir⟩ := obstacle_none hobstacle
      exact ⟨t, ht, hnone, hdir, rfl⟩

/-- A write that returns has appended all of the data. -/
theorem write_ensures {P : Tree → Prop} {data : List UInt8} : Ensures P (write kernel p data)
    (fun _ t' => ∃ t old links mode device, P t ∧ node? t p = some ⟨.regular old links, mode, device⟩ ∧
      t' = add t p ⟨.regular (old ++ data) links, mode, device⟩)
    (fun _ t' => P t' ∨ ∃ t n, P t ∧ (node? t p).isSome = true ∧ t' = add t p n) := by
  intro t ht
  unfold write
  cases hnode : node? t p with
  | none => exact .inl ht
  | some n =>
      obtain ⟨kind, mode, device⟩ := n
      cases kind with
      | directory | other => exact .inl ht
      | regular old links =>
          dsimp only
          by_cases hall : data.length ≤ kernel.accepts t p data
          · rw [if_pos hall, List.take_of_length_le hall]
            exact ⟨t, old, links, mode, device, ht, hnode, rfl⟩
          · rw [if_neg hall]
            exact .inr ⟨t, _, ht, by rw [hnode]; rfl, rfl⟩

theorem chmod_ensures {P : Tree → Prop} : Ensures P (chmod kernel p mode)
    (fun _ t' => ∃ t n, P t ∧ node? t p = some n ∧ t' = add t p { n with mode := mode }) (fun _ => P) := by
  intro t ht
  unfold chmod
  cases hnode : node? t p with
  | none => exact ht
  | some n =>
      dsimp only
      by_cases hrefused : kernel.refuses t p = true
      · rw [if_pos hrefused]
        exact ht
      · rw [if_neg hrefused]
        exact ⟨t, n, ht, hnode, rfl⟩

/-- Directories that may be added to a tree below `d` without breaking `I`. -/
structure Grows (d : Location) (I : Tree → Prop) : Prop where
  root : ∀ t, I t → (node? t d).isSome = true
  add : ∀ t p mode device, I t → Below d p → node? t p = none → I (add t p ⟨.directory, mode, device⟩)

section
variable {I : Tree → Prop} (hI : Grows d I)
include hI

theorem makeDir_keeps (names : List String) : Keeps I (makeDir kernel mode (names ++ d)) := by
  intro t ht
  have hmkdir : Keeps I (mkdir kernel mode (names ++ d)) := by
    refine make_ensures.weaken (fun _ h => h) ?_ (fun _ _ h => h)
    rintro - t' ⟨t, ht, hnone, -, rfl⟩
    have hnames : names ≠ [] := by
      rintro rfl
      rw [List.nil_append] at hnone
      exact absurd (hI.root t ht) (by simp [hnone])
    exact hI.add t _ _ _ ht ⟨names, hnames, rfl⟩ hnone
  have hpost := hmkdir t ht
  unfold makeDir
  cases hcall : mkdir kernel mode (names ++ d) t with
  | ok a t' =>
      rw [hcall] at hpost
      exact hpost
  | error e t' =>
      rw [hcall] at hpost
      cases e with
      | missing => exact hpost
      | alreadyExists | notDirectory | refused =>
          dsimp only
          by_cases hdir : isDirectory t' (names ++ d) = true
          · rw [if_pos hdir]
            exact hpost
          · rw [if_neg hdir]
            exact hpost

/-- Where `d` is there already, no parent of it is made. -/
theorem makeDir_root (t t' : Tree) (ht : I t) : makeDir kernel mode d t ≠ .error .missing t' := by
  obtain ⟨e, hobstacle, he⟩ : ∃ e, obstacle kernel t d = some e ∧ e ≠ .missing := obstacle_of_some (hI.root t ht)
  unfold makeDir mkdir make
  rw [hobstacle]
  cases e with
  | missing => exact absurd rfl he
  | alreadyExists | notDirectory | refused =>
      dsimp only
      split <;> simp

/-- **`makeDirs` below a directory that is there adds directories below it, and nothing else.** -/
theorem makeDirs_keeps (names : List String) : ∀ mode, Keeps I (makeDirs kernel mode (names ++ d)) := by
  induction names with
  | nil =>
      intro mode t ht
      have hkeeps : Keeps I (makeDir kernel mode ([] ++ d)) := makeDir_keeps hI []
      have hpost := hkeeps t ht
      rw [List.nil_append] at hpost ⊢
      cases d with
      | nil => exact hpost
      | cons name parent =>
          unfold makeDirs
          cases hcall : makeDir kernel mode (name :: parent) t with
          | ok a t' =>
              rw [hcall] at hpost
              exact hpost
          | error e t' =>
              rw [hcall] at hpost
              cases e with
              -- the parents are made and the call is repeated
              | missing => exact absurd hcall (makeDir_root hI t t' ht)
              | alreadyExists | notDirectory | refused => exact hpost
  | cons name names ih =>
      intro mode t ht
      have hkeeps : Keeps I (makeDir kernel mode (name :: names ++ d)) := makeDir_keeps hI (name :: names)
      have hpost := hkeeps t ht
      rw [List.cons_append] at hpost ⊢
      unfold makeDirs
      cases hcall : makeDir kernel mode (name :: (names ++ d)) t with
      | ok a t' =>
          rw [hcall] at hpost
          exact hpost
      | error e t' =>
          rw [hcall] at hpost
          cases e with
          | missing =>
              have hagain : Keeps I (makeDirs kernel 0o777 (names ++ d) >>= fun _ =>
                  makeDir kernel mode (name :: (names ++ d))) :=
                (ih 0o777).bind fun _ => makeDir_keeps hI (name :: names)
              exact hagain t' hpost
          | alreadyExists | notDirectory | refused => exact hpost

end

end

end FileTree
