import OraclePatching.Lib.Shell

/-!
# `Common` — refusals and the shared validators of `lib/opu/common.sh`

A controller command either is refused, with an exit code and a message, or goes on. `Ctl` is that outcome.
`ensure` is the guard `[ test ] || { opu_error message; exit code; }` of the scripts, and the lemmas about it
turn an accepted command into the list of guards that held.
-/

namespace OraclePatching

/-- What a refused command leaves behind: its exit code and the line it wrote to standard error. -/
structure Refusal where
  code : Nat
  message : String
  deriving DecidableEq, Repr

/-- The outcome of a check or of a command. -/
abbrev Ctl (α : Type) := Except Refusal α

def refuse {α : Type} (code : Nat) (message : String) : Ctl α := .error ⟨code, message⟩

def ensure (c : Prop) [Decidable c] (code : Nat) (message : String) : Ctl Unit :=
  if c then .ok () else refuse code message

/-- A value that has to be there. -/
def need {α : Type} (x : Option α) (code : Nat) (message : String) : Ctl α :=
  match x with
  | some a => .ok a
  | none => refuse code message

/-- Run a check on every element, stopping at the first refusal. -/
def forEach {α : Type} (check : α → Ctl Unit) : List α → Ctl Unit
  | [] => .ok ()
  | x :: xs => do check x; forEach check xs

/-- Whether a command was accepted. -/
def Accepted {α : Type} : Ctl α → Bool
  | .ok _ => true
  | .error _ => false

/-! ## Inversion of accepted outcomes

A command is a sequence of checks. Its success says that each of them has passed, and these lemmas take it apart
check by check. -/

section
variable {α β : Type}

theorem bind_ok {x : Ctl α} {f : α → Ctl β} {b : β} :
    (x >>= f) = .ok b ↔ ∃ a, x = .ok a ∧ f a = .ok b := by
  cases x with
  | error e => simp [bind, Except.bind]
  | ok a => simp [bind, Except.bind]

/-- A condition that was checked holds. -/
@[simp] theorem ensure_ok {c : Prop} [Decidable c] {code : Nat} {message : String} {u : Unit} :
    ensure c code message = .ok u ↔ c := by
  unfold ensure
  split <;> simp_all [refuse]

@[simp] theorem refuse_ne_ok {code : Nat} {message : String} {a : α} :
    (refuse code message : Ctl α) ≠ .ok a := by simp [refuse]

/-- A value that was needed is there. -/
@[simp] theorem need_ok {x : Option α} {code : Nat} {message : String} {a : α} :
    need x code message = .ok a ↔ x = some a := by
  cases x <;> simp [need]

/-- A guard in front of a computation, read backwards. -/
theorem ensure_bind_ok {c : Prop} [Decidable c] {code : Nat} {message : String} {f : Unit → Ctl β}
    {b : β} : (ensure c code message >>= f) = .ok b ↔ c ∧ f () = .ok b := by
  rw [bind_ok]
  constructor
  · rintro ⟨u, h1, h2⟩; exact ⟨ensure_ok.mp h1, h2⟩
  · rintro ⟨h1, h2⟩; exact ⟨(), ensure_ok.mpr h1, h2⟩

/-- An earlier check of any kind, read backwards. -/
theorem check_bind_ok {x : Ctl Unit} {f : Unit → Ctl β} {b : β} :
    (x >>= f) = .ok b ↔ x = .ok () ∧ f () = .ok b := by
  rw [bind_ok]
  constructor
  · rintro ⟨_, h1, h2⟩; exact ⟨h1, h2⟩
  · rintro ⟨h1, h2⟩; exact ⟨(), h1, h2⟩

/-- A value that has to be there, in front of a computation. -/
theorem need_bind_ok {x : Option α} {code : Nat} {message : String} {f : α → Ctl β} {b : β} :
    (need x code message >>= f) = .ok b ↔ ∃ a, x = some a ∧ f a = .ok b := by
  rw [bind_ok]
  exact exists_congr fun a => and_congr_left fun _ => need_ok

/-- A check on every element of a list. -/
theorem forEach_ok {check : α → Ctl Unit} {xs : List α} :
    forEach check xs = .ok () ↔ ∀ x ∈ xs, check x = .ok () := by
  induction xs with
  | nil => simp [forEach]
  | cons x xs ih => rw [forEach, check_bind_ok, ih]; simp

/-- A call is accepted if it has a result. -/
theorem accepted_iff {x : Ctl α} : Accepted x = true ↔ ∃ a, x = .ok a := by
  cases x <;> simp [Accepted]

end

/-! ## Identifiers -/

/-- `[A-Za-z0-9._:-]` in the C locale. -/
def identifierChar (c : Char) : Bool :=
  c.isAlphanum || c == '.' || c == '_' || c == ':' || c == '-'

/-- Neither `*[!A-Za-z0-9._:-]*` nor `[!A-Za-z0-9]*`. -/
def identifierShape (value : String) : Bool :=
  match value.characters with
  | [] => false
  | c :: cs => c.isAlphanum && (c :: cs).all identifierChar

def opuValidateIdentifier (value label : String) : Ctl Unit := do
  ensure (value ≠ "" ∧ value.characters.length ≤ 128) 64 (label ++ " must contain between 1 and 128 characters")
  ensure (identifierShape value = true) 64 (label ++ " contains unsupported characters")

theorem opuValidateIdentifier_ok {value label : String} :
    opuValidateIdentifier value label = .ok () ↔
      (value ≠ "" ∧ value.length ≤ 128) ∧ identifierShape value = true := by
  rw [opuValidateIdentifier, ensure_bind_ok, ensure_ok, String.characters_eq, String.length_toList]

/-- Every character is an identifier character. -/
theorem identifierShape_mem {value : String} (h : identifierShape value = true) {c : Char}
    (hc : c ∈ value.toList) : identifierChar c = true := by
  unfold identifierShape at h
  rw [String.characters_eq] at h
  split at h
  · exact absurd h (by simp)
  · rename_i heq
    rw [Bool.and_eq_true, List.all_eq_true] at h
    rw [heq] at hc
    exact h.2 c hc

/-- An identifier has none of the characters that would matter in a path. -/
theorem identifier_not_mem {value : String} (h : identifierShape value = true) {c : Char}
    (hc : identifierChar c = false) : c ∉ value.toList := by
  intro hmem
  rw [identifierShape_mem h hmem] at hc
  exact absurd hc (by simp)

/-! ## Absolute paths -/

/-- Newline, carriage return and tab are the control characters the path rule names. -/
def pathControl (c : Char) : Bool := c == '\n' || c == '\r' || c == '\t'

/-- `*/../*`, `*/..`, `*/./*` or `*/.`: some segment after a slash is a dot segment. -/
def hasDotSegment (value : String) : Bool :=
  (Shell.segments value).tail.any fun s => s == ['.', '.'] || s == ['.']

def opuValidateAbsolutePath (value label : String) : Ctl Unit := do
  ensure (value.characters.head? = some '/') 64 (label ++ " must be an absolute path")
  ensure (value.characters.any pathControl = false) 64 (label ++ " contains a control character")
  ensure (hasDotSegment value = false) 64
    (label ++ " must be normalized and cannot contain dot path segments")

theorem opuValidateAbsolutePath_ok {value label : String} :
    opuValidateAbsolutePath value label = .ok () ↔
      value.toList.head? = some '/' ∧ value.toList.any pathControl = false ∧
        hasDotSegment value = false := by
  rw [opuValidateAbsolutePath, ensure_bind_ok, ensure_bind_ok, ensure_ok, String.characters_eq]

/-- A leaf that may follow a slash in a valid path. -/
def leafOk (leaf : String) : Bool :=
  !leaf.toList.any pathControl && leaf != "." && leaf != ".."

/-- **A valid directory extended by a leaf is valid exactly when the leaf is.** -/
theorem opuValidateAbsolutePath_join (leaf label' : String) {dir label : String}
    (hdir : opuValidateAbsolutePath dir label = .ok ()) (hs : '/' ∉ leaf.toList) :
    opuValidateAbsolutePath (Shell.join dir leaf) label' = .ok () ↔ leafOk leaf = true := by
  obtain ⟨hhead, hctl, hdot⟩ := opuValidateAbsolutePath_ok.mp hdir
  have hcons : ∃ c cs, dir.toList = c :: cs := by
    cases hd : dir.toList with
    | nil => rw [hd] at hhead; exact absurd hhead (by simp)
    | cons c cs => exact ⟨c, cs, rfl⟩
  obtain ⟨c, cs, hcs⟩ := hcons
  have hhead' : (Shell.join dir leaf).toList.head? = some '/' := by
    rw [hcs] at hhead; rw [Shell.join_toList, hcs]; simpa using hhead
  have hctl' : (Shell.join dir leaf).toList.any pathControl = leaf.toList.any pathControl := by
    rw [Shell.join_toList, List.any_append, List.any_cons, hctl]
    simp [pathControl]
  have htail : (Shell.segments dir ++ [leaf.toList]).tail = (Shell.segments dir).tail ++ [leaf.toList] := by
    cases hseg : Shell.segments dir with
    | nil => exact absurd hseg (by simp [Shell.segments])
    | cons a as => simp
  have hdot' : hasDotSegment (Shell.join dir leaf) = (leaf == ".." || leaf == ".") := by
    unfold hasDotSegment at hdot ⊢
    have h1 : (leaf.toList == ['.', '.']) = (leaf == "..") := by
      rw [Bool.eq_iff_iff, beq_iff_eq, beq_iff_eq, ← String.toList_inj]; rfl
    have h2 : (leaf.toList == ['.']) = (leaf == ".") := by
      rw [Bool.eq_iff_iff, beq_iff_eq, beq_iff_eq, ← String.toList_inj]; rfl
    rw [Shell.segments_join, Shell.segments_leaf hs, htail, List.any_append, hdot]
    simp [h1, h2]
  rw [opuValidateAbsolutePath_ok, hctl', hdot']
  simp only [hhead', true_and, leafOk, Bool.and_eq_true, Bool.not_eq_true', Bool.or_eq_false_iff,
    bne, beq_eq_false_iff_ne, ne_eq]
  constructor
  · rintro ⟨h1, h2, h3⟩; exact ⟨⟨h1, h3⟩, h2⟩
  · rintro ⟨⟨h1, h3⟩, h2⟩; exact ⟨h1, h2, h3⟩

end OraclePatching
