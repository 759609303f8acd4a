import OraclePatching.Lib.Characters

/-!
# `Lib.Json` — JSON values and the jq access forms used on them

A filter that can fail has result `Option`: `none` is jq's error, which makes `jq -e` exit nonzero just as a
`false` result does. Objects are association lists with the keys in document order (a repeated key has been
resolved by the parser). Numbers are exact rationals.
-/

/-- A JSON value. -/
inductive Json where
  | null
  | bool (b : Bool)
  | num (q : Rat)
  | str (s : String)
  | arr (items : List Json)
  | obj (fields : List (String × Json))

namespace Json

/-- `.key`: a missing key of an object is `null`, `null` has every key, other values are an error. -/
def field (key : String) : Json → Option Json
  | .obj fields => some ((fields.lookup key).getD .null)
  | .null => some .null
  | _ => none

/-- `.k1.k2…`. -/
def at' (j : Json) : List String → Option Json
  | [] => some j
  | k :: ks => (field k j).bind fun v => v.at' ks

/-- Only `false` and `null` are false to jq. -/
def truthy : Json → Bool
  | .null => false
  | .bool b => b
  | _ => true

/-- `a // b`: an error, `null` or `false` on the left gives the right. -/
def orElse (a : Option Json) (b : Json) : Json :=
  match a with
  | some v => if v.truthy then v else b
  | none => b

/-- `a == "text"`. -/
def isStr (a : Option Json) (text : String) : Bool :=
  match a with
  | some (.str t) => t == text
  | _ => false

/-- `a == n`. -/
def isNum (a : Option Json) (n : Rat) : Bool :=
  match a with
  | some (.num q) => q == n
  | _ => false

/-- The text of a value that is a string. -/
def text? : Option Json → Option String
  | some (.str t) => some t
  | _ => none

/-- `a | type == "number"`. -/
def isNumber : Option Json → Bool
  | some (.num _) => true
  | _ => false

/-- `.[]` on the value: the items of an array, the values of an object, an error (no output) otherwise. -/
def iter : Json → List Json
  | .arr items => items
  | .obj fields => fields.map Prod.snd
  | _ => []

/-- `a | type == "array"`, with the items. -/
def items? : Option Json → Option (List Json)
  | some (.arr items) => some items
  | _ => none

/-- `del(.key)` on an object; other values but `null` are an error. -/
def del (key : String) : Json → Option Json
  | .obj fields => some (.obj (fields.filter fun p => p.1 != key))
  | .null => some .null
  | _ => none

/-- `. == {k1:"v1",…}`: the same keys with these texts. -/
def isTexts (a : Option Json) (texts : List (String × String)) : Bool :=
  match a with
  | some (.obj fields) =>
      fields.length == texts.length && texts.all fun p => isStr (fields.lookup p.1) p.2
  | _ => false

/-- The part of a text that `^…$` has to match: a final newline may stay outside. -/
def anchored (s : String) : List Char :=
  match s.characters.reverse with
  | '\n' :: cs => cs.reverse
  | _ => s.characters

/-- `(a | length) > 0`. -/
def nonEmpty : Json → Bool
  | .str s => s.length != 0
  | .arr items => !items.isEmpty
  | .obj fields => !fields.isEmpty
  | .num q => q != 0
  | _ => false

theorem isStr_iff {a : Option Json} {s : String} : isStr a s = true ↔ a = some (.str s) := by
  unfold isStr
  split
  · simp
  · rename_i hne
    constructor
    · intro h; exact absurd h (by simp)
    · intro h; exact absurd h (hne s)

theorem isNum_iff {a : Option Json} {n : Rat} : isNum a n = true ↔ a = some (.num n) := by
  unfold isNum
  split
  · simp
  · rename_i hne
    constructor
    · intro h; exact absurd h (by simp)
    · intro h; exact absurd h (hne n)

/-- A value equals at most one string. -/
theorem isStr_unique {a : Option Json} {s t : String} (hs : isStr a s = true) (ht : isStr a t = true) :
    s = t := by
  rw [isStr_iff] at hs ht
  rw [hs] at ht
  injection ht with ht
  injection ht

/-- A value equals at most one number. -/
theorem isNum_unique {a : Option Json} {m n : Rat} (hm : isNum a m = true) (hn : isNum a n = true) :
    m = n := by
  rw [isNum_iff] at hm hn
  rw [hm] at hn
  injection hn with hn
  injection hn

/-! ## Equality -/

mutual

/-- The values print the same: they are equal, with the keys of objects in one order. -/
def same : Json → Json → Bool
  | .null, .null => true
  | .bool a, .bool b => a == b
  | .num p, .num q => p == q
  | .str s, .str t => s == t
  | .arr xs, .arr ys => sameItems xs ys
  | .obj xs, .obj ys => sameFields xs ys
  | _, _ => false

def sameItems : List Json → List Json → Bool
  | [], [] => true
  | x :: xs, y :: ys => same x y && sameItems xs ys
  | _, _ => false

def sameFields : List (String × Json) → List (String × Json) → Bool
  | [], [] => true
  | (k, x) :: xs, (l, y) :: ys => k == l && same x y && sameFields xs ys
  | _, _ => false

end

mutual

theorem same_iff : ∀ {a b : Json}, same a b = true ↔ a = b
  | .arr xs, .arr ys => by
      rw [same, Json.arr.injEq]
      exact sameItems_iff
  | .obj xs, .obj ys => by
      rw [same, Json.obj.injEq]
      exact sameFields_iff
  | .null, b => by cases b <;> simp [same]
  | .bool _, b => by cases b <;> simp [same]
  | .num _, b => by cases b <;> simp [same]
  | .str _, b => by cases b <;> simp [same]
  | .arr _, .null => by simp [same]
  | .arr _, .bool _ => by simp [same]
  | .arr _, .num _ => by simp [same]
  | .arr _, .str _ => by simp [same]
  | .arr _, .obj _ => by simp [same]
  | .obj _, .null => by simp [same]
  | .obj _, .bool _ => by simp [same]
  | .obj _, .num _ => by simp [same]
  | .obj _, .str _ => by simp [same]
  | .obj _, .arr _ => by simp [same]

theorem sameItems_iff : ∀ {xs ys : List Json}, sameItems xs ys = true ↔ xs = ys
  | [], [] => by simp [sameItems]
  | [], _ :: _ => by simp [sameItems]
  | _ :: _, [] => by simp [sameItems]
  | x :: xs, y :: ys => by
      rw [sameItems, Bool.and_eq_true, same_iff, sameItems_iff, List.cons.injEq]

theorem sameFields_iff : ∀ {xs ys : List (String × Json)}, sameFields xs ys = true ↔ xs = ys
  | [], [] => by simp [sameFields]
  | [], _ :: _ => by simp [sameFields]
  | _ :: _, [] => by simp [sameFields]
  | (k, x) :: xs, (l, y) :: ys => by
      rw [sameFields, Bool.and_eq_true, Bool.and_eq_true, beq_iff_eq, same_iff, sameFields_iff, List.cons.injEq,
        Prod.mk.injEq]

end
instance : DecidableEq Json := fun a b => decidable_of_iff (same a b = true) same_iff

end Json
