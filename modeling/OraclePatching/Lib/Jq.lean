import Mathlib.Algebra.Group.Int.Defs
import Mathlib.Algebra.Group.Nat.Defs
import Mathlib.Data.List.Sort
import OraclePatching.Lib.Json
import OraclePatching.Lib.Shell

/-!
# `Lib.Jq` — jq programs with several outputs, and the shell around them

A program over `.[]` prints outputs one after another and may stop with an error. What the shell sees depends on how
it runs the program: `jq -e` tests the last output, `$(…)` takes all outputs and fails with the program, and a loop
over `< <(…)` reads the lines printed before the error and never learns of it.

`@tsv` escapes the characters that would break a row, and `IFS=$'\t' read -r` splits a row again. Tab is white space
to `read`, so an empty first field is lost.
-/

namespace Jq

/-! ## Streams of outputs

A `jq` program has a stream of outputs and may end with an error in the middle of it. What a shell captures is the
whole stream, and only if no error ended it. -/

/-- The outputs of a program and whether it stopped with an error. -/
structure Stream (α : Type) where
  out : List α
  failed : Bool

section
variable {α β : Type}

/-- `.[] | f` on the items of a value. -/
def each (f : α → Option (List β)) : List α → Stream β
  | [] => ⟨[], false⟩
  | x :: xs =>
      match f x with
      | none => ⟨[], true⟩
      | some ys => ⟨ys ++ (each f xs).out, (each f xs).failed⟩

/-- An error before the first output. -/
def failure : Stream β := ⟨[], true⟩

/-- `x | f` where `x` is an array or an object. -/
def eachOf (f : Json → Option (List β)) : Option Json → Stream β
  | some (.arr items) => each f items
  | some (.obj fields) => each f (fields.map Prod.snd)
  | _ => failure

/-- `$(…)`: all outputs, if there was no error. -/
def Stream.captured (s : Stream α) : Option (List α) := if s.failed then none else some s.out

/-- `jq -e`: the last output is neither `false` nor `null`. -/
def Stream.exitZero (s : Stream Json) : Bool := !s.failed && s.out.getLast?.any Json.truthy

/-- `select(p)`. -/
def select (p : Json → Option Bool) (x : Json) : Option (List Json) := (p x).map fun b => if b then [x] else []

/-- `a and b and …`: the first operand that is false or an error decides. -/
def allOf : List (Option Bool) → Option Bool
  | [] => some true
  | none :: _ => none
  | some false :: _ => some false
  | some true :: rest => allOf rest

/-- `a or b or …`: the first operand that is true or an error decides. -/
def anyOf : List (Option Bool) → Option Bool
  | [] => some false
  | none :: _ => none
  | some true :: _ => some true
  | some false :: rest => anyOf rest

/-- `any` is false when every condition was decided, and decided as false. -/
theorem anyOf_false {cs : List (Option Bool)} : anyOf cs = some false ↔ ∀ c ∈ cs, c = some false := by
  induction cs with
  | nil => simp [anyOf]
  | cons c cs ih =>
      cases c with
      | none => simp [anyOf]
      | some b => cases b <;> simp [anyOf, ih]

/-- What an item prints is among the outputs when nothing before it failed. -/
theorem mem_each_out {f : α → Option (List β)} {pre suf : List α} {x : α} {ys : List β} {y : β}
    (hpre : ∀ w ∈ pre, f w ≠ none) (hx : f x = some ys) (hy : y ∈ ys) : y ∈ (each f (pre ++ x :: suf)).out := by
  induction pre with
  | nil =>
      rw [List.nil_append, each, hx]
      exact List.mem_append_left _ hy
  | cons w ws ih =>
      obtain ⟨zs, hw⟩ := Option.ne_none_iff_exists'.mp (hpre w List.mem_cons_self)
      rw [List.cons_append, each, hw]
      exact List.mem_append_right _ (ih fun v hv => hpre v (List.mem_cons_of_mem _ hv))

/-- A program that fails on no item prints what each item prints. -/
theorem captured_each {f : α → Option (List β)} {g : α → List β} {xs : List α} (h : ∀ x ∈ xs, f x = some (g x)) :
    (each f xs).captured = some (xs.flatMap g) := by
  have hout : each f xs = ⟨xs.flatMap g, false⟩ := by
    induction xs with
    | nil => rfl
    | cons x xs ih =>
        rw [each, h x List.mem_cons_self, ih fun w hw => h w (List.mem_cons_of_mem _ hw)]
        rfl
  rw [hout]
  rfl

/-- `[.[] | select(p)]`, where `p` fails on no item. -/
theorem captured_select {p : Json → Option Bool} {b : Json → Bool} {xs : List Json} (h : ∀ x ∈ xs, p x = some (b x)) :
    (each (select p) xs).captured = some (xs.filter b) := by
  have hsel : ∀ x ∈ xs, select p x = some (if b x then [x] else []) := by
    intro x hx
    unfold select
    rw [h x hx]
    rfl
  rw [captured_each hsel]
  congr 1
  induction xs with
  | nil => rfl
  | cons x xs ih =>
      rw [List.flatMap_cons, ih (fun w hw => h w (List.mem_cons_of_mem _ hw))
        (fun w hw => hsel w (List.mem_cons_of_mem _ hw)), List.filter_cons]
      by_cases hb : b x = true
      · simp [hb]
      · simp [hb]

end

/-! ## Decoding a list

The same for a list of values decoded one by one: decoding all of them succeeds when each of them decodes. -/

/-- What `mapM` makes of an item. -/
theorem mem_mapM {α β : Type} {f : α → Option β} {xs : List α} {ys : List β} {x : α} (h : xs.mapM f = some ys)
    (hx : x ∈ xs) : ∃ y ∈ ys, f x = some y := by
  induction xs generalizing ys with
  | nil => exact absurd hx List.not_mem_nil
  | cons w ws ih =>
      rw [List.mapM_cons] at h
      simp only [Option.bind_eq_bind, Option.bind_eq_some_iff, Option.pure_def, Option.some.injEq] at h
      obtain ⟨y, hy, zs, hzs, rfl⟩ := h
      rcases List.mem_cons.mp hx with rfl | hx
      · exact ⟨y, List.mem_cons_self, hy⟩
      · obtain ⟨z, hz, hfz⟩ := ih hzs hx
        exact ⟨z, List.mem_cons_of_mem _ hz, hfz⟩

/-- An item of `mapM` and what it comes from. -/
theorem mem_of_mapM {α β : Type} {f : α → Option β} {xs : List α} {ys : List β} {y : β} (h : xs.mapM f = some ys)
    (hy : y ∈ ys) : ∃ x ∈ xs, f x = some y := by
  induction xs generalizing ys with
  | nil =>
      rw [List.mapM_nil] at h
      rw [← Option.some.inj h] at hy
      exact absurd hy List.not_mem_nil
  | cons x xs ih =>
      rw [List.mapM_cons] at h
      simp only [Option.bind_eq_bind, Option.bind_eq_some_iff, Option.pure_def, Option.some.injEq] at h
      obtain ⟨z, hz, zs, hzs, rfl⟩ := h
      rcases List.mem_cons.mp hy with rfl | hy
      · exact ⟨x, List.mem_cons_self, hz⟩
      · obtain ⟨w, hw, hfw⟩ := ih hzs hy
        exact ⟨w, List.mem_cons_of_mem _ hw, hfw⟩

/-- Two maps agree along `mapM`. -/
theorem map_of_mapM {α β γ : Type} {f : α → Option β} {g : α → γ} {k : β → γ} {xs : List α} {ys : List β}
    (hfg : ∀ x y, f x = some y → g x = k y) (h : xs.mapM f = some ys) : xs.map g = ys.map k := by
  induction xs generalizing ys with
  | nil =>
      rw [List.mapM_nil] at h
      rw [← Option.some.inj h]
      rfl
  | cons x xs ih =>
      rw [List.mapM_cons] at h
      simp only [Option.bind_eq_bind, Option.bind_eq_some_iff, Option.pure_def, Option.some.injEq] at h
      obtain ⟨y, hy, zs, hzs, rfl⟩ := h
      rw [List.map_cons, List.map_cons, hfg x y hy, ih hzs]

/-! ## Rows of `@tsv` -/

def escapeChar (c : Char) : List Char :=
  if c = '\t' then ['\\', 't']
  else if c = '\n' then ['\\', 'n']
  else if c = '\r' then ['\\', 'r']
  else if c = '\\' then ['\\', '\\']
  else [c]

def escape (s : String) : String := String.ofList (s.toList.flatMap escapeChar)

/-- A field of a row: arrays and objects are an error. `print` is how jq prints a number. -/
def tsvField (print : Rat → String) : Json → Option String
  | .str s => some (escape s)
  | .null => some ""
  | .bool b => some (toString b)
  | .num q => some (print q)
  | _ => none

/-- A row of two fields, as `read` gets it: without NUL bytes. -/
def tsvRow (a b : String) : String :=
  String.ofList ((a.toList ++ '\t' :: b.toList).filter (· != Char.ofNat 0))

def stripTabs (cs : List Char) : List Char :=
  ((cs.dropWhile (· == '\t')).reverse.dropWhile (· == '\t')).reverse

/-- `IFS=$'\t' read -r a b`. -/
def readTwo (row : String) : String × String :=
  let cs := stripTabs row.toList
  (String.ofList (cs.takeWhile (· != '\t')), String.ofList ((cs.dropWhile (· != '\t')).dropWhile (· == '\t')))

/-- A text that a row carries as it is. -/
def plain (s : String) : Bool :=
  s.toList.all fun c => c != '\t' && c != '\n' && c != '\r' && c != '\\' && c != Char.ofNat 0

/-- Plain text is escaped as itself. -/
theorem escape_plain {s : String} (h : plain s = true) : escape s = s := by
  unfold plain at h
  unfold escape
  rw [List.all_eq_true] at h
  have hid : s.toList.flatMap escapeChar = s.toList := by
    generalize s.toList = cs at h
    induction cs with
    | nil => rfl
    | cons c cs ih =>
        have hc := h c List.mem_cons_self
        simp only [Bool.and_eq_true, bne_iff_ne] at hc
        rw [List.flatMap_cons, ih fun d hd => h d (List.mem_cons_of_mem _ hd)]
        simp [escapeChar, hc.1.1.1.1, hc.1.1.1.2, hc.1.1.2, hc.1.2]
  rw [hid, String.ofList_toList]

/-! ## Rows of any width

A row is written with tabs between its fields and read back by `IFS=$'\t' read`, which drops empty fields. The
lemmas say which fields come back, and when all of them do. -/

/-- A shell text has no NUL bytes. -/
def dropNul (s : String) : String := String.ofList (s.toList.filter (· != Char.ofNat 0))

/-- A row, as `read` gets it. -/
def row (fields : List String) : String :=
  dropNul (String.ofList (['\t'].intercalate (fields.map String.toList)))

/-- What `IFS=$'\t' read -r` hands out, one after another, to as many names as the row has columns: tabs in a row
    separate once, so an empty field is lost. -/
def words (line : String) : List String := ((line.toList.splitOn '\t').filter (· ≠ [])).map String.ofList

/-- A filter goes through the separators. -/
theorem filter_intercalate {p : Char → Bool} {c : Char} (hc : p c = true) (segs : List (List Char)) :
    ([c].intercalate segs).filter p = [c].intercalate (segs.map (List.filter p)) := by
  induction segs with
  | nil => rfl
  | cons s ss ih =>
      cases ss with
      | nil => simp
      | cons t ts =>
          show _ = [c].intercalate (s.filter p :: (t :: ts).map (List.filter p))
          have hmap : (t :: ts).map (List.filter p) ≠ [] := List.cons_ne_nil _ _
          rw [List.intercalate_cons_of_ne_nil (List.cons_ne_nil t ts), List.filter_append, List.filter_append, ih,
            List.intercalate_cons_of_ne_nil hmap, List.filter_cons_of_pos hc, List.filter_nil]

/-- **A row is read as its fields that are not empty.** -/
theorem words_row {fields : List String} (hne : fields ≠ []) (htab : ∀ f ∈ fields, '\t' ∉ f.toList) :
    words (row fields) = (fields.map dropNul).filter (· ≠ "") := by
  have hsegs : ((row fields).toList.splitOn '\t') = fields.map fun f => f.toList.filter (· != Char.ofNat 0) := by
    unfold row dropNul
    rw [String.toList_ofList, String.toList_ofList, filter_intercalate (by decide), List.map_map,
      List.splitOn_intercalate]
    · rfl
    · intro seg hseg
      obtain ⟨f, hf, rfl⟩ := List.mem_map.mp hseg
      intro hmem
      exact htab f hf (List.mem_filter.mp hmem).1
    · simpa using hne
  have hempty : ∀ f : String, (f.toList.filter (· != Char.ofNat 0) ≠ []) ↔ dropNul f ≠ "" := by
    intro f
    unfold dropNul
    rw [not_iff_not, ← String.toList_inj, String.toList_ofList]
    rfl
  unfold words
  rw [hsegs, List.filter_map, List.map_map, List.filter_map]
  refine congrArg (List.map dropNul) (List.filter_congr fun f _ => ?_)
  simp only [Function.comp_apply, decide_eq_decide]
  exact hempty f

/-- Every column is a field. -/
theorem mem_words_row {fields : List String} {w : String} (hne : fields ≠ []) (htab : ∀ f ∈ fields, '\t' ∉ f.toList)
    (hw : w ∈ words (row fields)) : ∃ f ∈ fields, dropNul f = w := by
  rw [words_row hne htab] at hw
  exact List.mem_map.mp (List.mem_filter.mp hw).1

/-- **A row whose last column is there has all its columns.** -/
theorem words_full {fields : List String} (htab : ∀ f ∈ fields, '\t' ∉ f.toList) {k : Nat}
    (hlen : fields.length = k + 1) (h : (words (row fields)).getD k "" ≠ "") :
    words (row fields) = fields.map dropNul := by
  have hne : fields ≠ [] := by
    rintro rfl
    exact absurd hlen (by simp)
  have hk : k < (words (row fields)).length := by
    refine Decidable.byContradiction fun hk => h ?_
    rw [List.getD_eq_getElem?_getD, List.getElem?_eq_none (Nat.le_of_not_lt hk)]
    rfl
  rw [words_row hne htab] at hk ⊢
  refine List.filter_eq_self.mpr (List.length_filter_eq_length_iff.mp ?_)
  have hle := List.length_filter_le (fun f => decide (f ≠ "")) (fields.map dropNul)
  rw [List.length_map, hlen] at hle ⊢
  omega

/-- Only the null characters are lost. -/
theorem mem_dropNul {s : String} {c : Char} : c ∈ (dropNul s).toList ↔ c ∈ s.toList ∧ c ≠ Char.ofNat 0 := by
  unfold dropNul
  rw [String.toList_ofList, List.mem_filter, bne_iff_ne]

/-- Plain text has none of the characters that are escaped, and no null character. -/
theorem plain_iff {s : String} : plain s = true ↔
    ∀ c ∈ s.toList, c ≠ '\t' ∧ c ≠ '\n' ∧ c ≠ '\r' ∧ c ≠ '\\' ∧ c ≠ Char.ofNat 0 := by
  unfold plain
  simp only [List.all_eq_true, Bool.and_eq_true, bne_iff_ne, and_assoc]

theorem dropNul_plain {s : String} (h : plain s = true) : dropNul s = s := by
  unfold dropNul
  rw [List.filter_eq_self.mpr, String.ofList_toList]
  intro c hc
  exact bne_iff_ne.mpr (plain_iff.mp h c hc).2.2.2.2

/-- An escaped field has no tab and no line break. -/
theorem tab_escape (s : String) : '\t' ∉ (escape s).toList ∧ '\n' ∉ (escape s).toList := by
  unfold escape
  rw [String.toList_ofList]
  refine ⟨?_, ?_⟩ <;>
  · intro h
    obtain ⟨c, _, hc⟩ := List.mem_flatMap.mp h
    unfold escapeChar at hc
    split at hc
    · revert hc; decide
    · split at hc
      · revert hc; decide
      · split at hc
        · revert hc; decide
        · split at hc
          · revert hc; decide
          · rename_i h1 h2 h3 h4
            rw [List.mem_singleton] at hc
            subst hc
            contradiction

/-! ## Numbers -/

/-- `^[0-9]+$`, with the number. -/
def digits? (cs : List Char) : Option Nat :=
  if cs ≠ [] ∧ cs.all Char.isDigit = true then some (Nat.ofDigitChars 10 cs 0) else none

/-- `^-?[0-9]+$`, with the number. -/
def integer? (s : String) : Option Int :=
  match s.toList with
  | '-' :: cs => (digits? cs).map fun n : Nat => -(n : Int)
  | cs => (digits? cs).map fun n : Nat => (n : Int)

/-! ### Doubles

jq computes with binary floating point numbers of 53 bits. It reads a numeral as the nearest of them, and a sum is
rounded again. Integers below `2^53` are not changed by that. -/

/-- The nearest number of 53 significant bits; of two that are as near, the one with the even last bit. -/
def nearest (n : Nat) : Nat :=
  let unit := 2 ^ (n.log2 - 52)
  let mantissa := n / unit
  (if 2 * (n % unit) < unit ∨ 2 * (n % unit) = unit ∧ mantissa % 2 = 0 then mantissa else mantissa + 1) * unit

/-- The double that an integer is read as. -/
def double (n : Int) : Int := n.sign * nearest n.natAbs

/-- `$a + $b` on two numerals. -/
def plus (a b : Int) : Int := double (double a + double b)

/-- A whole number below `2 ^ 53` is a double. -/
theorem nearest_of_lt {n : Nat} (h : n < 2 ^ 53) : nearest n = n := by
  have hunit : n.log2 - 52 = 0 := by
    by_cases hn : n = 0
    · rw [hn]
      rfl
    · have hlog := (Nat.log2_lt hn).mpr h
      omega
  unfold nearest
  simp only [hunit, Nat.pow_zero, Nat.mod_one, Nat.div_one, Nat.mul_one]
  simp

/-- A number of more than 53 bits stays one. -/
theorem le_nearest {n : Nat} (h : 2 ^ 53 ≤ n) : 2 ^ 53 ≤ nearest n := by
  have hn : n ≠ 0 := by omega
  have hlog : 53 ≤ n.log2 := (Nat.le_log2 hn).mpr h
  have hpow : 2 ^ 52 * 2 ^ (n.log2 - 52) ≤ n := by
    rw [← Nat.pow_add, show 52 + (n.log2 - 52) = n.log2 by omega]
    exact Nat.log2_self_le hn
  have hmantissa : 2 ^ 52 ≤ n / 2 ^ (n.log2 - 52) := (Nat.le_div_iff_mul_le (Nat.two_pow_pos _)).mpr hpow
  have hunit : 2 ^ 1 ≤ 2 ^ (n.log2 - 52) := Nat.pow_le_pow_right (by decide) (by omega)
  unfold nearest
  dsimp only
  have hsplit : (2 : Nat) ^ 53 = 2 ^ 52 * 2 ^ 1 := by decide
  rw [hsplit]
  refine Nat.mul_le_mul ?_ hunit
  split
  · exact hmantissa
  · exact Nat.le_succ_of_le hmantissa

section
variable {n : Int}

/-- The sign is kept apart from the rounding. -/
theorem double_nonneg (h : 0 ≤ n) : double n = nearest n.toNat := by
  obtain ⟨k, rfl⟩ := Int.eq_ofNat_of_zero_le h
  cases k with
  | zero => rfl
  | succ k =>
      have hsign : (Int.ofNat (k + 1)).sign = 1 := rfl
      have habs : (Int.ofNat (k + 1)).natAbs = k + 1 := rfl
      show (Int.ofNat (k + 1)).sign * (nearest (Int.ofNat (k + 1)).natAbs : Int) = nearest (Int.ofNat (k + 1)).toNat
      rw [hsign, habs, Int.one_mul]
      rfl

theorem double_of_lt (h : 0 ≤ n) (hlt : n < 2 ^ 53) : double n = n := by
  rw [double_nonneg h, nearest_of_lt (by omega)]
  omega

theorem le_double (h : 2 ^ 53 ≤ n) : 2 ^ 53 ≤ double n := by
  have hle : 2 ^ 53 ≤ n.toNat := by omega
  have hnearest := le_nearest hle
  rw [double_nonneg (by omega)]
  omega

/-- A number that is read as one below `2^53` was not rounded. -/
theorem double_exact (h : 0 ≤ n) (hlt : double n < 2 ^ 53) : double n = n := by
  by_cases hn : n < 2 ^ 53
  · exact double_of_lt h hn
  · have := le_double (Int.not_lt.mp hn)
    omega

/-- Rounding is the same on both sides of zero. -/
theorem double_neg (n : Int) : double (-n) = -double n := by
  unfold double
  rw [Int.sign_neg, Int.natAbs_neg, Int.neg_mul]

/-- Rounding keeps the sign. -/
theorem double_sign : 0 ≤ double n ↔ 0 ≤ n := by
  have hpos : ∀ {k : Int}, 0 < k → 0 < double k := by
    intro k hk
    by_cases hlt : k < 2 ^ 53
    · rw [double_of_lt (by omega) hlt]
      exact hk
    · have := le_double (Int.not_lt.mp hlt)
      omega
  constructor
  · intro h
    by_contra hneg
    have := hpos (k := -n) (by omega)
    rw [double_neg] at this
    omega
  · intro h
    rcases Int.lt_or_eq_of_le h with h | rfl
    · exact (hpos h).le
    · exact Int.le_refl _

/-- **A sum that stays within a limit below `2^53` is exact.** -/
theorem plus_le {a b limit : Int} (ha : 0 ≤ a) (hb : 0 ≤ b) (hlt : limit < 2 ^ 53) (h : plus a b ≤ limit) :
    a + b ≤ limit := by
  have ha' := double_sign.mpr ha
  have hb' := double_sign.mpr hb
  have hsum : double (double a + double b) = double a + double b :=
    double_exact (by omega) (Int.lt_of_le_of_lt h hlt)
  unfold plus at h
  rw [hsum] at h
  rw [double_exact ha (by omega), double_exact hb (by omega)] at h
  exact h

end

/-- How jq prints a number: in one plain word. Where that word has the shape of an integer, the number is an integer,
    and the word is read as the same double: jq prints as many digits as that takes, which are not always all. Two
    words of that shape are in the order of their numbers. -/
structure NumberFormat where
  print : Rat → String
  plain : ∀ q, Jq.plain (print q) = true
  reads : ∀ {q : Rat} {n : Int}, integer? (print q) = some n → q.den = 1 ∧ double n = double q.num
  ordered : ∀ {p q : Rat} {m n : Int}, integer? (print p) = some m → integer? (print q) = some n → m ≤ n → p ≤ q

/-- What `jq -r` prints of a value; `document` is how it prints arrays and objects. -/
def raw (fmt : NumberFormat) (document : Json → String) : Json → String
  | .str s => s
  | .null => "null"
  | .bool b => toString b
  | .num q => fmt.print q
  | j => document j

/-- A field of a row has neither tabs nor line breaks. -/
theorem tsvField_line {fmt : NumberFormat} {j : Json} {f : String} (h : tsvField fmt.print j = some f) :
    '\t' ∉ f.toList ∧ '\n' ∉ f.toList := by
  unfold tsvField at h
  split at h
  · injection h with h
    rw [← h]
    exact tab_escape _
  · injection h with h
    rw [← h]
    decide
  · rename_i b
    injection h with h
    rw [← h]
    cases b <;> decide
  · rename_i q
    injection h with h
    rw [← h]
    have hplain := plain_iff.mp (fmt.plain q)
    exact ⟨fun hc => (hplain _ hc).1 rfl, fun hc => (hplain _ hc).2.1 rfl⟩
  · exact absurd h (by simp)

/-- `[ "$a" -le "$b" ]`: both texts have to be integers of 64 bits. -/
def shellInteger? (s : String) : Option Int :=
  (integer? s).filter fun n => decide (-9223372036854775808 ≤ n ∧ n < 9223372036854775808)

def testLe (a b : String) : Bool :=
  match shellInteger? a, shellInteger? b with
  | some m, some n => decide (m ≤ n)
  | _, _ => false

/-- `[ a -le b ]` succeeds on two texts that are integers to the shell, in order. -/
theorem testLe_iff {a b : String} :
    testLe a b = true ↔ ∃ m n, shellInteger? a = some m ∧ shellInteger? b = some n ∧ m ≤ n := by
  unfold testLe
  split
  · rename_i m n hm hn
    rw [hm, hn]
    simp
  · rename_i hno
    constructor
    · intro h
      exact absurd h Bool.false_ne_true
    · rintro ⟨m, n, hm, hn, _⟩
      exact absurd hn (hno m n hm)

/-- An integer to the shell is an integer. -/
theorem shellInteger_integer {s : String} {n : Int} (h : shellInteger? s = some n) : integer? s = some n := by
  unfold shellInteger? at h
  exact (Option.filter_eq_some_iff.mp h).1

/-- Digits after no sign. -/
theorem integer_of_digits {s : String} {n : Nat} (h : digits? s.toList = some n) : integer? s = some (n : Int) := by
  unfold integer?
  split
  · rename_i cs heq
    rw [heq] at h
    simp [digits?] at h
  · rw [h]
    rfl

/-- Decimal digits behind a sign. -/
def decimal : Int → String
  | .ofNat m => String.ofList (Nat.toDigits 10 m)
  | .negSucc m => String.ofList ('-' :: Nat.toDigits 10 (m + 1))

/-- The decimal digits of a number are digits. -/
theorem isDigit_of_mem {m : Nat} {c : Char} (h : c ∈ Nat.toDigits 10 m) : c.isDigit = true :=
  Nat.isDigit_of_mem_toDigits (by decide) (by decide) h

theorem digits_toDigits (m : Nat) : digits? (Nat.toDigits 10 m) = some m := by
  unfold digits?
  rw [if_pos ⟨Nat.toDigits_ne_nil, List.all_eq_true.mpr fun c hc => isDigit_of_mem hc⟩, Nat.ofDigitChars_ten_toDigits]

theorem integer_decimal (n : Int) : integer? (decimal n) = some n := by
  cases n with
  | ofNat m =>
      apply integer_of_digits
      show digits? (String.ofList (Nat.toDigits 10 m)).toList = some m
      rw [String.toList_ofList, digits_toDigits]
  | negSucc m =>
      unfold integer? decimal
      dsimp only
      rw [String.toList_ofList]
      simp only [digits_toDigits, Option.map_some]
      rfl

theorem plain_decimal (n : Int) : plain (decimal n) = true := by
  have hdigit : ∀ c : Char, c.isDigit = true →
      c ≠ '\t' ∧ c ≠ '\n' ∧ c ≠ '\r' ∧ c ≠ '\\' ∧ c ≠ Char.ofNat 0 := by
    intro c hc
    refine ⟨?_, ?_, ?_, ?_, ?_⟩ <;>
    · rintro rfl
      exact absurd hc (by decide)
  rw [plain_iff]
  cases n with
  | ofNat m =>
      intro c hc
      rw [decimal, String.toList_ofList] at hc
      exact hdigit c (isDigit_of_mem hc)
  | negSucc m =>
      intro c hc
      rw [decimal, String.toList_ofList] at hc
      rcases List.mem_cons.mp hc with rfl | hc
      · decide
      · exact hdigit c (isDigit_of_mem hc)

/-- Integers in decimal; `fraction` is how everything else is printed. -/
def NumberFormat.ofFraction (fraction : Rat → String) (hplain : ∀ q, Jq.plain (fraction q) = true)
    (hword : ∀ q, integer? (fraction q) = none) : NumberFormat where
  print q := if q.den = 1 then decimal q.num else fraction q
  plain q := by
    by_cases hq : q.den = 1
    · rw [if_pos hq]
      exact plain_decimal q.num
    · rw [if_neg hq]
      exact hplain q
  reads {q n} h := by
    by_cases hq : q.den = 1
    · rw [if_pos hq, integer_decimal] at h
      exact ⟨hq, congrArg double (Option.some.inj h).symm⟩
    · rw [if_neg hq, hword q] at h
      exact absurd h (by simp)
  ordered {p q m n} hp hq hle := by
    have hinteger : ∀ {r : Rat} {k : Int}, integer? (if r.den = 1 then decimal r.num else fraction r) = some k →
        r = k := by
      intro r k hr
      by_cases hden : r.den = 1
      · rw [if_pos hden, integer_decimal] at hr
        rw [← Option.some.inj hr]
        exact Rat.ext (Rat.num_intCast _).symm (hden.trans (Rat.den_intCast _).symm)
      · rw [if_neg hden, hword r] at hr
        exact absurd hr (by simp)
    rw [hinteger hp, hinteger hq]
    exact Rat.intCast_le_intCast.mpr hle

/-- A fraction is printed as one word, and not as an integer. -/
theorem plain_half : plain "0.5" = true := by decide

/-- A fraction is no integer to the shell. -/
theorem integer_half : integer? "0.5" = none := by decide

/-! ## Order -/

/-- jq's order of values, as far as sorting by numbers needs it: total, transitive, and `≤` on numbers. -/
structure Order where
  le : Json → Json → Bool
  total : ∀ a b, le a b = true ∨ le b a = true
  trans : ∀ a b c, le a b = true → le b c = true → le a c = true
  num : ∀ p q, le (.num p) (.num q) = decide (p ≤ q)

/-- `sort_by(key)`, which keeps the order of items with equal keys. -/
def sortBy (order : Order) (key : Json → Json) (items : List Json) : List Json :=
  items.insertionSort fun a b => order.le (key a) (key b) = true

theorem sortBy_perm (order : Order) (key : Json → Json) (items : List Json) : (sortBy order key items).Perm items :=
  List.perm_insertionSort _ _

theorem sortBy_pairwise (order : Order) (key : Json → Json) (items : List Json) :
    (sortBy order key items).Pairwise fun a b => order.le (key a) (key b) = true := by
  have : Std.Total fun a b : Json => order.le (key a) (key b) = true := ⟨fun a b => order.total _ _⟩
  have : IsTrans Json fun a b => order.le (key a) (key b) = true := ⟨fun a b c => order.trans _ _ _⟩
  exact List.pairwise_insertionSort _ _

/-- What `unique` keeps behind `a` of a sorted list: the first of each run of equal values. -/
def firstsAfter (order : Order) : Json → List Json → List Json
  | _, [] => []
  | a, b :: rest => if order.le b a then firstsAfter order a rest else b :: firstsAfter order b rest

def firsts (order : Order) : List Json → List Json
  | [] => []
  | a :: rest => a :: firstsAfter order a rest

/-- `unique`. -/
def unique (order : Order) (xs : List Json) : List Json := firsts order (sortBy order id xs)

/-- Numbers by size, behind everything else. -/
def Order.numbers : Order where
  le a b :=
    match a, b with
    | .num p, .num q => decide (p ≤ q)
    | .num _, _ => false
    | _, _ => true
  total a b := by
    cases a <;> cases b <;> simp
    exact Rat.le_total
  trans a b c := by
    cases a <;> cases b <;> cases c <;> simp
    exact Rat.le_trans
  num _ _ := rfl

end Jq
