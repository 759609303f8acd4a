import Mathlib.Data.List.Infix

/-!
# `Lib.Regex` — patterns as a backtracking engine runs them

From a place in a text a pattern leads to the places where a match of it may end, the preferred one first. Repetition
is greedy, and so is an optional part. `fullmatch` takes the first match that ends with the text, `search` asks for a
match anywhere. One group is captured.

Whatever a pattern matches is a part of the text it stands in, and so is what it captures (`run_inside`).
-/

namespace Regex

/-! ## Patterns -/

/-- A place in a text: what lies before it, read backwards, what lies after it, and what has been captured. -/
structure Place where
  before : List Char
  after : List Char
  capture : Option (List Char)

inductive Pattern where
  | empty
  | one (p : Char → Bool)
  | seq (a b : Pattern)
  | alt (a b : Pattern)
  | opt (a : Pattern)
  | many (a : Pattern) (least : Nat) (most : Option Nat)
  | edge (word : Char → Bool)
  | notAhead (a : Pattern)
  | group (a : Pattern)

/-- Repeat a move, `least` times at least and `most` times at most; a move goes on by a character, so the text bounds
    the number of moves. -/
def iterate (move : Place → List Place) : Nat → Nat → Option Nat → Place → List Place
  | 0, least, _, x => if least = 0 then [x] else []
  | fuel + 1, least, most, x =>
      (if most = some 0 then [] else (move x).flatMap (iterate move fuel (least - 1) (most.map (· - 1)))) ++
        (if least = 0 then [x] else [])

/-- There is a word on one side and none on the other. -/
def atEdge (word : Char → Bool) (x : Place) : Bool := x.before.head?.any word != x.after.head?.any word

/-- What lies between two places. -/
def between (x y : Place) : List Char := x.after.take (x.after.length - y.after.length)

/-- Where a match of the pattern that begins at a place may end. -/
def run : Pattern → Place → List Place
  | .empty, x => [x]
  | .one p, x =>
      match x.after with
      | [] => []
      | c :: cs => if p c then [{ x with before := c :: x.before, after := cs }] else []
  | .seq a b, x => (run a x).flatMap (run b)
  | .alt a b, x => run a x ++ run b x
  | .opt a, x => run a x ++ [x]
  | .many a least most, x => iterate (run a) x.after.length least most x
  | .edge word, x => if atEdge word x then [x] else []
  | .notAhead a, x => if (run a x).isEmpty then [x] else []
  | .group a, x => (run a x).map fun y => { y with capture := some (between x y) }

def fullmatch (a : Pattern) (text : List Char) : Option Place :=
  (run a ⟨[], text, none⟩).find? fun y => y.after.isEmpty

def searchFrom (a : Pattern) : List Char → List Char → Bool
  | before, [] => !(run a ⟨before, [], none⟩).isEmpty
  | before, c :: cs => !(run a ⟨before, c :: cs, none⟩).isEmpty || searchFrom a (c :: before) cs

def search (a : Pattern) (text : List Char) : Bool := searchFrom a [] text

/-! ## Building patterns -/

/-- One after the other. -/
def chain : List Pattern → Pattern
  | [] => .empty
  | a :: as => .seq a (chain as)

/-- The first that leads to a match. -/
def either : List Pattern → Pattern
  | [] => .one fun _ => false
  | [a] => a
  | a :: as => .alt a (either as)

/-- A letter, ignoring case as Unicode does: besides capital letters, dotted and dotless i, the long s and the Kelvin
    sign. -/
def foldCase (c : Char) : Char :=
  if c = '\u0130' ∨ c = '\u0131' then 'i' else if c = '\u017f' then 's' else if c = '\u212a' then 'k' else c.toLower

/-- These characters, ignoring case. -/
def literal (text : String) : Pattern := chain (text.toList.map fun c => .one fun d => foldCase d == foldCase c)

def char (c : Char) : Pattern := .one (· == c)

/-! ## Inside the text -/

section
variable {text : List Char} {x y : Place} {a : Pattern}

/-- The place is one of the text, and what has been captured is a part of it. -/
structure Inside (text : List Char) (x : Place) : Prop where
  split : x.before.reverse ++ x.after = text
  capture : ∀ w, x.capture = some w → w <:+: text

theorem between_infix (hx : Inside text x) : between x y <:+: text := by
  have hafter : x.after <:+ text := ⟨x.before.reverse, hx.split⟩
  exact (List.take_prefix _ _).isInfix.trans hafter.isInfix

theorem iterate_inside {move : Place → List Place}
    (hmove : ∀ x, Inside text x → ∀ y ∈ move x, Inside text y) {fuel least : Nat} {most : Option Nat}
    (hx : Inside text x) (hy : y ∈ iterate move fuel least most x) : Inside text y := by
  induction fuel generalizing least most x with
  | zero =>
      unfold iterate at hy
      split at hy
      · rwa [List.mem_singleton.mp hy]
      · exact absurd hy List.not_mem_nil
  | succ fuel ih =>
      unfold iterate at hy
      rcases List.mem_append.mp hy with hy | hy
      · split at hy
        · exact absurd hy List.not_mem_nil
        · obtain ⟨z, hz, hyz⟩ := List.mem_flatMap.mp hy
          exact ih (hmove x hx z hz) hyz
      · split at hy
        · rwa [List.mem_singleton.mp hy]
        · exact absurd hy List.not_mem_nil

/-- **A match stays inside the text, and so does what it captures.** -/
theorem run_inside (hx : Inside text x) (hy : y ∈ run a x) : Inside text y := by
  induction a generalizing x y with
  | empty => rwa [List.mem_singleton.mp hy]
  | one p =>
      -- a character moves from the rest to the part that is read
      unfold run at hy
      split at hy
      · exact absurd hy List.not_mem_nil
      · rename_i c cs hafter
        split at hy
        · obtain rfl := List.mem_singleton.mp hy
          refine ⟨?_, hx.capture⟩
          rw [← hx.split, hafter]
          simp
        · exact absurd hy List.not_mem_nil
  | seq a b iha ihb =>
      obtain ⟨z, hz, hyz⟩ := List.mem_flatMap.mp hy
      exact ihb (iha hx hz) hyz
  | alt a b iha ihb =>
      rcases List.mem_append.mp hy with hy | hy
      · exact iha hx hy
      · exact ihb hx hy
  | opt a iha =>
      rcases List.mem_append.mp hy with hy | hy
      · exact iha hx hy
      · rwa [List.mem_singleton.mp hy]
  | many a least most iha =>
      -- a repetition is a number of such steps
      exact iterate_inside (fun z hz w hw => iha hz hw) hx hy
  | edge word =>
      unfold run at hy
      split at hy
      · rwa [List.mem_singleton.mp hy]
      · exact absurd hy List.not_mem_nil
  | notAhead a _ =>
      unfold run at hy
      split at hy
      · rwa [List.mem_singleton.mp hy]
      · exact absurd hy List.not_mem_nil
  | group a iha =>
      -- the capture lies between where the group began and where it ended
      obtain ⟨z, hz, rfl⟩ := List.mem_map.mp hy
      refine ⟨(iha hx hz).split, fun w hw => ?_⟩
      rw [← Option.some.inj hw]
      exact between_infix hx

theorem fullmatch_capture {w : List Char} (h : fullmatch a text = some y) (hw : y.capture = some w) : w <:+: text := by
  have hstart : Inside text ⟨[], text, none⟩ := ⟨rfl, fun w hw => absurd hw (by simp)⟩
  exact (run_inside hstart (List.mem_of_find?_eq_some h)).capture w hw

end

end Regex
