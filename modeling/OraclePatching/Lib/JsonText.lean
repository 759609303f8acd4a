import Mathlib.Data.List.TakeWhile
import OraclePatching.Lib.Decimal
import OraclePatching.Lib.Json

/-!
# `Lib.JsonText` — JSON texts

A JSON text is read in two passes. The scanner goes from character to character and cuts the text into tokens; where
it stands between two characters is a `Scan`. The grammar then reads a value off the tokens. A control character other
than white space is refused in whatever state the scanner is, so no text that contains one is read at all
(`parse_forbidden`).

For programs that print JSON piece by piece there is `Document`, a value whose strings are left to a printer of
string literals. If the literals of all its strings are read back, so is the whole text (`parse_render`).
-/

namespace JsonText

/-! ## Characters -/

/-- White space between tokens. -/
def space (c : Char) : Bool := c == ' ' || c == '\t' || c == '\n' || c == '\r'

/-- The structural characters. -/
def mark (c : Char) : Bool := c == '[' || c == ']' || c == '\x7b' || c == '\x7d' || c == ',' || c == ':'

/-- What numbers and the three names are made of. -/
def wordChar (c : Char) : Bool := c.isAlphanum || c == '+' || c == '-' || c == '.'

/-- A control character that stands nowhere in a JSON text. -/
def forbidden (c : Char) : Bool := decide (c.toNat < 32) && !space c

/-- The character a backslash and this character stand for. -/
def unescape (c : Char) : Option Char :=
  if c = '"' then some '"'
  else if c = '\\' then some '\\'
  else if c = '/' then some '/'
  else if c = 'b' then some '\x08'
  else if c = 'f' then some '\x0c'
  else if c = 'n' then some '\n'
  else if c = 'r' then some '\r'
  else if c = 't' then some '\t'
  else none

def hexDigit? (c : Char) : Option Nat :=
  if c.isDigit then some (c.toNat - '0'.toNat)
  else if 'a'.toNat ≤ c.toNat ∧ c.toNat ≤ 'f'.toNat then some (c.toNat - 'a'.toNat + 10)
  else if 'A'.toNat ≤ c.toNat ∧ c.toNat ≤ 'F'.toNat then some (c.toNat - 'A'.toNat + 10)
  else none

/-! ## Tokens

The scanner reads a text once, from left to right, and keeps the token it is in. A text that no token can be read
from has no scan. -/

inductive Token where
  | mark (c : Char)
  | text (cs : List Char)
  | word (cs : List Char)
  deriving DecidableEq, Repr

/-- Where the scanner stands: between tokens, in a word, or in a string. In a string it has just read a character, a
    backslash, some digits of `\uXXXX`, or the first half of a surrogate pair. -/
inductive Scan where
  | between (out : List Token)
  | word (out : List Token) (cs : List Char)
  | text (out : List Token) (cs : List Char)
  | escape (out : List Token) (cs : List Char) (high : Option Nat)
  | unicode (out : List Token) (cs : List Char) (high : Option Nat) (digits : List Nat)
  | half (out : List Token) (cs : List Char) (high : Nat)

/-- A character that no word goes on with. -/
def start (out : List Token) (c : Char) : Option Scan :=
  if space c then some (.between out)
  else if mark c then some (.between (out ++ [.mark c]))
  else if c = '"' then some (.text out [])
  else if wordChar c then some (.word out [c])
  else none

/-- The end of `\uXXXX`. Half of a surrogate pair is no character by itself. -/
def codeUnit (out : List Token) (cs : List Char) (high : Option Nat) (n : Nat) : Option Scan :=
  match high with
  | some h =>
      if 0xdc00 ≤ n ∧ n < 0xe000 then
        some (.text out (cs ++ [Char.ofNat (0x10000 + (h - 0xd800) * 1024 + (n - 0xdc00))]))
      else none
  | none =>
      if 0xd800 ≤ n ∧ n < 0xdc00 then some (.half out cs n)
      else if 0xdc00 ≤ n ∧ n < 0xe000 then none
      else some (.text out (cs ++ [Char.ofNat n]))

/-- One character. -/
def step : Scan → Char → Option Scan
  | .between out, c => start out c
  | .word out cs, c => if wordChar c then some (.word out (cs ++ [c])) else start (out ++ [.word cs]) c
  | .text out cs, c =>
      if c = '"' then some (.between (out ++ [.text cs]))
      else if c = '\\' then some (.escape out cs none)
      else if c.toNat < 32 then none
      else some (.text out (cs ++ [c]))
  | .escape out cs high, c =>
      if c = 'u' then some (.unicode out cs high [])
      else if high.isSome then none
      else (unescape c).map fun d => .text out (cs ++ [d])
  | .unicode out cs high digits, c =>
      (hexDigit? c).bind fun d =>
        if digits.length < 3 then some (.unicode out cs high (digits ++ [d]))
        else codeUnit out cs high ((digits ++ [d]).foldl (fun n d => 16 * n + d) 0)
  | .half out cs high, c => if c = '\\' then some (.escape out cs (some high)) else none

/-- The tokens at the end of a text. -/
def finish : Scan → Option (List Token)
  | .between out => some out
  | .word out cs => some (out ++ [.word cs])
  | _ => none

def lex (cs : List Char) : Option (List Token) := (cs.foldlM step (.between [])).bind finish

/-! ## Values

The grammar on tokens. The fuel bounds the depth and the length of what is read; the length of the token list is
enough. -/

/-- Digits, at least one. -/
def digits? (cs : List Char) : Option (List Char) := if cs ≠ [] ∧ cs.all Char.isDigit = true then some cs else none

/-- `["+" / "-"] 1*DIGIT`, with the sign. -/
def exponent? : List Char → Option (Bool × Nat)
  | '+' :: cs => (digits? cs).map fun ds => (false, Decimal.value ds 0)
  | '-' :: cs => (digits? cs).map fun ds => (true, Decimal.value ds 0)
  | cs => (digits? cs).map fun ds => (false, Decimal.value ds 0)

/-- What follows the digits before the point: the digits behind it, and the exponent. -/
def tail? (cs : List Char) : Option (List Char × Bool × Nat) :=
  let mantissa := cs.takeWhile fun c => !(c == 'e' || c == 'E')
  let fraction :=
    match mantissa with
    | [] => some []
    | '.' :: ds => digits? ds
    | _ => none
  let exponent :=
    match cs.drop mantissa.length with
    | [] => some (false, 0)
    | _ :: es => exponent? es
  fraction.bind fun ds => exponent.map fun e => (ds, e)

/-- A number without its sign. -/
def unsigned? (cs : List Char) : Option Rat :=
  let whole := cs.takeWhile Char.isDigit
  if whole = [] ∨ (whole.head? = some '0' ∧ whole ≠ ['0']) then none
  else
    (tail? (cs.drop whole.length)).map fun t =>
      let n := Decimal.value (whole ++ t.1) 0
      if t.2.1 then mkRat n (Nat.pow 10 (t.1.length + t.2.2))
      else mkRat (n * Nat.pow 10 t.2.2 : Nat) (Nat.pow 10 t.1.length)

def number? : List Char → Option Rat
  | '-' :: cs => (unsigned? cs).map Rat.neg
  | cs => unsigned? cs

def word? (cs : List Char) : Option Json :=
  if cs = "null".toList then some .null
  else if cs = "true".toList then some (.bool true)
  else if cs = "false".toList then some (.bool false)
  else (number? cs).map .num

mutual

/-- One value, and the tokens behind it. -/
def value : Nat → List Token → Option (Json × List Token)
  | _ + 1, .text cs :: ts => some (.str (String.ofList cs), ts)
  | _ + 1, .word cs :: ts => (word? cs).map fun j => (j, ts)
  | n + 1, .mark c :: ts =>
      if c = '[' then
        if ts.head? = some (.mark ']') then some (.arr [], ts.tail)
        else (items n ts).map fun r => (.arr r.1, r.2)
      else if c = '\x7b' then
        if ts.head? = some (.mark '\x7d') then some (.obj [], ts.tail)
        else (members n ts).map fun r => (.obj r.1, r.2)
      else none
  | _, _ => none

/-- The values of an array, up to its end. -/
def items : Nat → List Token → Option (List Json × List Token)
  | n + 1, ts =>
      (value n ts).bind fun r =>
        match r.2 with
        | .mark c :: ts =>
            if c = ']' then some ([r.1], ts)
            else if c = ',' then (items n ts).map fun s => (r.1 :: s.1, s.2)
            else none
        | _ => none
  | 0, _ => none

/-- The members of an object, up to its end; a name may occur twice. -/
def members : Nat → List Token → Option (List (String × Json) × List Token)
  | n + 1, .text key :: .mark colon :: ts =>
      if colon = ':' then
        (value n ts).bind fun r =>
          match r.2 with
          | .mark c :: ts =>
              if c = '\x7d' then some ([(String.ofList key, r.1)], ts)
              else if c = ',' then (members n ts).map fun s => ((String.ofList key, r.1) :: s.1, s.2)
              else none
          | _ => none
      else none
  | _, _ => none

end

/-- A whole text. -/
def parse (cs : List Char) : Option Json :=
  (lex cs).bind fun ts =>
    match value ts.length ts with
    | some (j, []) => some j
    | _ => none

/-! ## What no text contains

Below the space a JSON text has tabs, line feeds and carriage returns between its tokens, and nothing else. A text
with any other such character is no JSON, wherever it stands. -/

section
variable {c : Char} {s : Scan} {out : List Token} {cs ds : List Char}

/-- A digit is a character of a word. -/
theorem digit_wordChar (h : c.isDigit = true) : wordChar c = true := by
  have halphanum : c.isAlphanum = true := by
    show (c.isAlpha || c.isDigit) = true
    rw [h, Bool.or_true]
  rw [wordChar, halphanum]
  rfl

theorem wordChar_ge (h : wordChar c = true) : 32 ≤ c.toNat := by
  rw [wordChar, Bool.or_eq_true, Bool.or_eq_true, Bool.or_eq_true, beq_iff_eq, beq_iff_eq, beq_iff_eq] at h
  rcases h with ((h | rfl) | rfl) | rfl
  · -- an upper-case letter, a lower-case letter or a digit
    have h : ((decide (c.val ≥ 'A'.val ∧ c.val ≤ 'Z'.val) || (decide (c.val ≥ 'a'.val) && decide (c.val ≤ 'z'.val))) ||
      (decide (c.val ≥ '0'.val) && decide (c.val ≤ '9'.val))) = true := h
    simp only [Bool.or_eq_true, Bool.and_eq_true, decide_eq_true_eq, UInt32.le_iff_toNat_le, ge_iff_le] at h
    have hval : c.toNat = c.val.toNat := rfl
    have hlow : 'A'.val.toNat = 65 ∧ 'a'.val.toNat = 97 ∧ '0'.val.toNat = 48 := ⟨rfl, rfl, rfl⟩
    omega
  all_goals decide

theorem mark_ge (h : mark c = true) : 32 ≤ c.toNat := by
  simp only [mark, Bool.or_eq_true, beq_iff_eq] at h
  rcases h with ((((rfl | rfl) | rfl) | rfl) | rfl) | rfl <;> decide

theorem unescape_ge {d : Char} (h : unescape c = some d) : 32 ≤ c.toNat := by
  by_contra hlt
  have hne : ∀ e : Char, 32 ≤ e.toNat → c ≠ e := by
    rintro e he rfl
    exact hlt he
  unfold unescape at h
  simp only [hne '"' (by decide), hne '\\' (by decide), hne '/' (by decide), hne 'b' (by decide), hne 'f' (by decide),
    hne 'n' (by decide), hne 'r' (by decide), hne 't' (by decide), if_false] at h
  exact absurd h (by simp)

theorem hexDigit_ge {n : Nat} (h : hexDigit? c = some n) : 32 ≤ c.toNat := by
  unfold hexDigit? at h
  have hlow : 'a'.toNat = 97 ∧ 'A'.toNat = 65 := ⟨rfl, rfl⟩
  split at h
  · rename_i hdigit
    exact wordChar_ge (digit_wordChar hdigit)
  · split at h
    · omega
    · split at h
      · omega
      · exact absurd h (by simp)

/-- Outside strings, a control character is white space. -/
theorem start_forbidden (h : forbidden c = true) : start out c = none := by
  rw [forbidden, Bool.and_eq_true, decide_eq_true_iff, Bool.not_eq_true'] at h
  obtain ⟨hlt, hspace⟩ := h
  have hmark : mark c ≠ true := fun hm => absurd (mark_ge hm) (by omega)
  have hword : wordChar c ≠ true := fun hw => absurd (wordChar_ge hw) (by omega)
  have hquote : c ≠ '"' := by
    rintro rfl
    exact absurd hlt (by decide)
  unfold start
  rw [if_neg (by simp [hspace]), if_neg hmark, if_neg hquote, if_neg hword]

/-- **No state goes on with a forbidden character.** -/
theorem step_forbidden (h : forbidden c = true) : step s c = none := by
  have hlt : c.toNat < 32 := by
    rw [forbidden, Bool.and_eq_true, decide_eq_true_iff] at h
    exact h.1
  have hne : ∀ e : Char, 32 ≤ e.toNat → c ≠ e := by
    rintro e he rfl
    omega
  cases s with
  | between out => exact start_forbidden h
  | word out cs =>
      have hword : wordChar c ≠ true := fun hw => absurd (wordChar_ge hw) (by omega)
      rw [step, if_neg hword]
      exact start_forbidden h
  | text out cs => rw [step, if_neg (hne '"' (by decide)), if_neg (hne '\\' (by decide)), if_pos hlt]
  | escape out cs high =>
      rw [step, if_neg (hne 'u' (by decide))]
      cases hd : unescape c with
      | none => simp
      | some d => exact absurd (unescape_ge hd) (by omega)
  | unicode out cs high digits =>
      rw [step]
      cases hd : hexDigit? c with
      | none => rfl
      | some d => exact absurd (hexDigit_ge hd) (by omega)
  | half out cs high => rw [step, if_neg (hne '\\' (by decide))]

/-- A text with a forbidden character in it has no scan. -/
theorem scan_forbidden (hmem : c ∈ cs) (h : forbidden c = true) : cs.foldlM step s = none := by
  induction cs generalizing s with
  | nil => exact absurd hmem List.not_mem_nil
  | cons d cs ih =>
      rw [List.foldlM_cons]
      rcases List.mem_cons.mp hmem with rfl | hmem
      · rw [step_forbidden h]
        rfl
      · cases hstep : step s d with
        | none => rfl
        | some t => exact ih hmem

/-- **A text with a forbidden character is not JSON.** -/
theorem parse_forbidden (hmem : c ∈ cs) (h : forbidden c = true) : parse cs = none := by
  unfold parse lex
  rw [scan_forbidden hmem h]
  rfl

end

/-! ## String literals -/

/-- In a string, the characters `e` stand for `c`. -/
def Spells (e : List Char) (c : Char) : Prop := ∀ out cs, e.foldlM step (.text out cs) = some (.text out (cs ++ [c]))

/-- The literal is read as the text. -/
def Reads (literal cs : List Char) : Prop :=
  ∀ out, literal.foldlM step (.between out) = some (.between (out ++ [.text cs]))

section
variable {c d : Char} {cs : List Char}

/-- A character that needs no escape spells itself. -/
theorem spells_self (hquote : c ≠ '"') (hslash : c ≠ '\\') (hc : 32 ≤ c.toNat) : Spells [c] c := by
  intro out cs
  rw [List.foldlM_cons]
  show (step (.text out cs) c >>= fun s => [].foldlM step s) = _
  rw [step, if_neg hquote, if_neg hslash, if_neg (by omega)]
  rfl

/-- An escape spells the character it stands for. -/
theorem spells_escape (h : unescape c = some d) : Spells ['\\', c] d := by
  intro out cs
  have hu : c ≠ 'u' := by
    rintro rfl
    have hnone : unescape 'u' = none := by decide
    rw [hnone] at h
    exact absurd h (by simp)
  have hslash : step (.text out cs) '\\' = some (.escape out cs none) := by
    rw [step, if_neg (by decide), if_pos rfl]
  have hescape : step (.escape out cs none) c = some (.text out (cs ++ [d])) := by
    rw [step, if_neg hu, if_neg (by simp), h]
    rfl
  rw [List.foldlM_cons, hslash]
  show (step (.escape out cs none) c >>= fun s => [].foldlM step s) = _
  rw [hescape]
  rfl

/-- **Literals are read back** if every character is spelt in a way that is. -/
theorem reads_of_spells {f : Char → List Char} (h : ∀ c ∈ cs, Spells (f c) c) :
    Reads ('"' :: (cs.flatMap f ++ ['"'])) cs := by
  -- the scanner has read `ds` and goes on with `cs`
  have hbody : ∀ out ds, (cs.flatMap f).foldlM step (.text out ds) = some (.text out (ds ++ cs)) := by
    intro out ds
    induction cs generalizing ds with
    | nil => rw [List.append_nil]; rfl
    | cons c cs ih =>
        rw [List.flatMap_cons, List.foldlM_append, h c List.mem_cons_self out ds]
        show (cs.flatMap f).foldlM step (.text out (ds ++ [c])) = _
        rw [ih (fun e he => h e (List.mem_cons_of_mem c he)), List.append_assoc, List.singleton_append]
  intro out
  have hopen : step (.between out) '"' = some (.text out []) := by
    show start out '"' = _
    unfold start
    rw [if_neg (by decide), if_neg (by decide), if_pos rfl]
  have hclose : step (.text out cs) '"' = some (.between (out ++ [.text cs])) := by rw [step, if_pos rfl]
  rw [List.foldlM_cons, hopen]
  show (cs.flatMap f ++ ['"']).foldlM step (.text out []) = _
  rw [List.foldlM_append, hbody out []]
  show (step (.text out cs) '"' >>= fun s => [].foldlM step s) = _
  rw [hclose]
  rfl

end

/-! ## Documents

A document says what is written, without saying how strings are written: that is a parameter, since a program may
get it wrong. -/

/-- A value whose strings are printed by a printer of literals. -/
inductive Document where
  | null
  | text (s : String)
  | number (n : Nat)
  | list (items : List Document)
  | record (fields : List (String × Document))

/-- What goes before an item: nothing before the first, else a comma. -/
def comma (first : Bool) : List Char := if first then [] else [',']

section
variable (literal : List Char → List Char)

mutual

def Document.render : Document → List Char
  | .null => "null".toList
  | .text s => literal s.toList
  | .number n => Nat.toDigits 10 n
  | .list ds => '[' :: (renderItems true ds ++ [']'])
  | .record fs => '\x7b' :: (renderMembers true fs ++ ['\x7d'])

def renderItems : Bool → List Document → List Char
  | _, [] => []
  | first, d :: ds => comma first ++ (d.render ++ renderItems false ds)

def renderMembers : Bool → List (String × Document) → List Char
  | _, [] => []
  | first, (key, d) :: fs => comma first ++ (literal key.toList ++ ':' :: (d.render ++ renderMembers false fs))

end

end

mutual

/-- The value a document is. -/
def Document.json : Document → Json
  | .null => .null
  | .text s => .str s
  | .number n => .num (mkRat n 1)
  | .list ds => .arr (jsonItems ds)
  | .record fs => .obj (jsonMembers fs)

def jsonItems : List Document → List Json
  | [] => []
  | d :: ds => d.json :: jsonItems ds

def jsonMembers : List (String × Document) → List (String × Json)
  | [] => []
  | (key, d) :: fs => (key, d.json) :: jsonMembers fs

end

mutual

/-- The strings of a document. -/
def Document.strings : Document → List String
  | .text s => [s]
  | .list ds => itemStrings ds
  | .record fs => memberStrings fs
  | _ => []

def itemStrings : List Document → List String
  | [] => []
  | d :: ds => d.strings ++ itemStrings ds

def memberStrings : List (String × Document) → List String
  | [] => []
  | (key, d) :: fs => key :: (d.strings ++ memberStrings fs)

end

/-- The comma before an item, as a token. -/
def commaToken (first : Bool) : List Token := if first then [] else [.mark ',']

mutual

def Document.tokens : Document → List Token
  | .null => [.word "null".toList]
  | .text s => [.text s.toList]
  | .number n => [.word (Nat.toDigits 10 n)]
  | .list ds => .mark '[' :: (itemTokens true ds ++ [.mark ']'])
  | .record fs => .mark '\x7b' :: (memberTokens true fs ++ [.mark '\x7d'])

def itemTokens : Bool → List Document → List Token
  | _, [] => []
  | first, d :: ds => commaToken first ++ (d.tokens ++ itemTokens false ds)

def memberTokens : Bool → List (String × Document) → List Token
  | _, [] => []
  | first, (key, d) :: fs => commaToken first ++ (.text key.toList :: .mark ':' :: (d.tokens ++ memberTokens false fs))

end

/-! ## The scanner on documents

What the scanner has after a rendered document. A number or a word at the end of the text is still open, so the
state is described by what it ends as. -/

/-- The tokens are `out`, though the scanner may still be at the end of a word. -/
def Ends (s : Scan) (out : List Token) : Prop :=
  s = .between out ∨ ∃ before cs, s = .word before cs ∧ out = before ++ [.word cs]

section
variable {c : Char} {s : Scan} {out : List Token} {cs : List Char}

/-- An open word ends at any character that is not of a word. -/
theorem Ends.step (h : Ends s out) (hc : wordChar c = false) : JsonText.step s c = start out c := by
  rcases h with rfl | ⟨before, cs, rfl, rfl⟩
  · rfl
  · rw [JsonText.step, if_neg (by simp [hc])]

/-- An open word ends with the text. -/
theorem Ends.finish (h : Ends s out) : JsonText.finish s = some out := by
  rcases h with rfl | ⟨before, cs, rfl, rfl⟩ <;> rfl

/-- A structural character is a token by itself. -/
theorem Ends.mark (h : Ends s out) (hc : JsonText.mark c = true) (rest : List Char) :
    (c :: rest).foldlM JsonText.step s = rest.foldlM JsonText.step (.between (out ++ [.mark c])) := by
  have hplain : space c = false ∧ wordChar c = false := by
    simp only [JsonText.mark, Bool.or_eq_true, beq_iff_eq] at hc
    rcases hc with ((((rfl | rfl) | rfl) | rfl) | rfl) | rfl <;> decide
  rw [List.foldlM_cons, h.step hplain.2]
  unfold start
  rw [if_neg (by simp [hplain.1]), if_pos hc]
  rfl

/-- White space ends a word and changes nothing else. -/
theorem Ends.space (h : Ends s out) (hcs : ∀ c ∈ cs, JsonText.space c = true) :
    ∃ t, cs.foldlM JsonText.step s = some t ∧ Ends t out := by
  induction cs generalizing s with
  | nil => exact ⟨s, rfl, h⟩
  | cons c cs ih =>
      have hc := hcs c List.mem_cons_self
      have hword : wordChar c = false := by
        simp only [JsonText.space, Bool.or_eq_true, beq_iff_eq] at hc
        rcases hc with ((rfl | rfl) | rfl) | rfl <;> decide
      rw [List.foldlM_cons, h.step hword]
      unfold start
      rw [if_pos hc]
      exact ih (.inl rfl) fun d hd => hcs d (List.mem_cons_of_mem c hd)

/-- A word is read up to its end. -/
theorem scan_word (hne : cs ≠ []) (hcs : ∀ c ∈ cs, wordChar c = true) :
    ∃ t, cs.foldlM step (.between out) = some t ∧ Ends t (out ++ [.word cs]) := by
  have hrest : ∀ before ds : List Char, (∀ c ∈ ds, wordChar c = true) →
      ds.foldlM step (.word out before) = some (.word out (before ++ ds)) := by
    intro before ds hds
    induction ds generalizing before with
    | nil => rw [List.append_nil]; rfl
    | cons d ds ih =>
        rw [List.foldlM_cons, step, if_pos (hds d List.mem_cons_self)]
        show ds.foldlM step (.word out (before ++ [d])) = _
        rw [ih _ fun e he => hds e (List.mem_cons_of_mem d he), List.append_assoc, List.singleton_append]
  cases cs with
  | nil => exact absurd rfl hne
  | cons c cs =>
      have hc := hcs c List.mem_cons_self
      have hmark : ¬ mark c = true := by
        intro h
        simp only [mark, Bool.or_eq_true, beq_iff_eq] at h
        rcases h with ((((rfl | rfl) | rfl) | rfl) | rfl) | rfl <;> exact absurd hc (by decide)
      have hspace : ¬ space c = true := by
        intro h
        simp only [space, Bool.or_eq_true, beq_iff_eq] at h
        rcases h with ((rfl | rfl) | rfl) | rfl <;> exact absurd hc (by decide)
      have hquote : c ≠ '"' := by
        rintro rfl
        exact absurd hc (by decide)
      have hfirst : step (.between out) c = some (.word out [c]) := by
        show start out c = _
        unfold start
        rw [if_neg hspace, if_neg hmark, if_neg hquote, if_pos hc]
      rw [List.foldlM_cons, hfirst]
      exact ⟨_, hrest [c] cs fun d hd => hcs d (List.mem_cons_of_mem c hd), .inr ⟨out, c :: cs, rfl, rfl⟩⟩

/-- The separator in front of an element, if there is one. -/
theorem comma_scan (first : Bool) (h : Ends s out) (hfirst : first = true → s = .between out) (rest : List Char) :
    ∃ t, (comma first ++ rest).foldlM step s = rest.foldlM step t ∧ t = .between (out ++ commaToken first) := by
  cases first with
  | true => exact ⟨s, rfl, by rw [hfirst rfl]; exact congrArg Scan.between (List.append_nil out).symm⟩
  | false => exact ⟨_, h.mark (by decide) rest, rfl⟩

variable {literal : List Char → List Char}

mutual

/-- **The scanner reads a document's tokens off its text**, if it reads the literals of its strings. -/
theorem Document.scan (d : Document) (out : List Token)
    (h : ∀ t ∈ d.strings, Reads (literal t.toList) t.toList) :
    ∃ s, (d.render literal).foldlM step (.between out) = some s ∧ Ends s (out ++ d.tokens) :=
  match d with
  | .null => by
      rw [Document.render, Document.tokens]
      have hword : ("null".toList.all wordChar) = true := by decide
      exact scan_word (by decide) (List.all_eq_true.mp hword)
  | .text t => by
      rw [Document.render, Document.tokens]
      exact ⟨_, h t (by rw [Document.strings]; exact List.mem_cons_self) out, .inl rfl⟩
  | .number n => by
      rw [Document.render, Document.tokens]
      exact scan_word Nat.toDigits_ne_nil fun c hc => digit_wordChar (Nat.isDigit_of_mem_toDigits (by decide) (by decide) hc)
  -- the opening mark, the items by their own induction, the closing mark
  | .list ds => by
      rw [Document.strings] at h
      rw [Document.render, Document.tokens]
      obtain ⟨s, hs, hends⟩ := items_scan true ds (.between (out ++ [.mark '['])) (out ++ [.mark '[']) (.inl rfl)
        (fun _ => rfl) h
      refine ⟨.between (out ++ [.mark '['] ++ itemTokens true ds ++ [.mark ']']), ?_, .inl ?_⟩
      · rw [(Ends.mark (.inl rfl) (by decide) _ : (_ : List Char).foldlM step (.between out) = _),
          List.foldlM_append, hs]
        exact hends.mark (by decide) []
      · simp
  | .record fs => by
      rw [Document.strings] at h
      rw [Document.render, Document.tokens]
      obtain ⟨s, hs, hends⟩ := members_scan true fs (.between (out ++ [.mark '\x7b'])) (out ++ [.mark '\x7b'])
        (.inl rfl) (fun _ => rfl) h
      refine ⟨.between (out ++ [.mark '\x7b'] ++ memberTokens true fs ++ [.mark '\x7d']), ?_, .inl ?_⟩
      · rw [(Ends.mark (.inl rfl) (by decide) _ : (_ : List Char).foldlM step (.between out) = _),
          List.foldlM_append, hs]
        exact hends.mark (by decide) []
      · simp

theorem items_scan (first : Bool) (ds : List Document) (s : Scan) (out : List Token) (hs : Ends s out)
    (hfirst : first = true → s = .between out) (h : ∀ t ∈ itemStrings ds, Reads (literal t.toList) t.toList) :
    ∃ t, (renderItems literal first ds).foldlM step s = some t ∧ Ends t (out ++ itemTokens first ds) :=
  match ds with
  | [] => by
      rw [renderItems, itemTokens, List.append_nil]
      exact ⟨s, rfl, hs⟩
  | d :: ds => by
      rw [itemStrings] at h
      rw [renderItems, itemTokens]
      obtain ⟨t, ht, rfl⟩ := comma_scan first hs hfirst (d.render literal ++ renderItems literal false ds)
      obtain ⟨u, hu, huends⟩ := d.scan (out ++ commaToken first) fun x hx => h x (List.mem_append_left _ hx)
      obtain ⟨v, hv, hvends⟩ := items_scan false ds u _ huends (fun hc => absurd hc (by simp))
        fun x hx => h x (List.mem_append_right _ hx)
      refine ⟨v, ?_, ?_⟩
      · rw [ht, List.foldlM_append, hu]
        exact hv
      · simpa using hvends

theorem members_scan (first : Bool) (fs : List (String × Document)) (s : Scan) (out : List Token) (hs : Ends s out)
    (hfirst : first = true → s = .between out) (h : ∀ t ∈ memberStrings fs, Reads (literal t.toList) t.toList) :
    ∃ t, (renderMembers literal first fs).foldlM step s = some t ∧ Ends t (out ++ memberTokens first fs) :=
  match fs with
  | [] => by
      rw [renderMembers, memberTokens, List.append_nil]
      exact ⟨s, rfl, hs⟩
  | (key, d) :: fs => by
      rw [memberStrings] at h
      rw [renderMembers, memberTokens]
      obtain ⟨t, ht, rfl⟩ := comma_scan first hs hfirst
        (literal key.toList ++ ':' :: (d.render literal ++ renderMembers literal false fs))
      have hkey := h key List.mem_cons_self (out ++ commaToken first)
      obtain ⟨u, hu, huends⟩ := d.scan (out ++ commaToken first ++ [.text key.toList] ++ [.mark ':']) fun x hx =>
        h x (List.mem_cons_of_mem key (List.mem_append_left _ hx))
      obtain ⟨v, hv, hvends⟩ := members_scan false fs u _ huends (fun hc => absurd hc (by simp))
        fun x hx => h x (List.mem_cons_of_mem key (List.mem_append_right _ hx))
      refine ⟨v, ?_, ?_⟩
      · rw [ht, List.foldlM_append, hkey]
        show (':' :: _).foldlM step (.between (out ++ commaToken first ++ [.text key.toList])) = _
        rw [Ends.mark (.inl rfl) (by decide), List.foldlM_append, hu]
        exact hv
      · simpa using hvends

end

end

/-! ## The grammar on documents -/

/-- Only the number zero begins with a zero. -/
theorem head_toDigits {n : Nat} (h : 0 < n) : (Nat.toDigits 10 n).head? ≠ some '0' := by
  induction n using Nat.strong_induction_on with
  | _ n ih =>
      rw [Nat.toDigits_eq_if (by decide)]
      by_cases hn : n < 10
      · have hdigit : ∀ m < 10, 0 < m → Nat.digitChar m ≠ '0' := by decide
        rw [if_pos hn, List.head?_cons]
        exact fun hc => hdigit n hn h (Option.some.inj hc)
      · rw [if_neg hn]
        have hhead := ih (n / 10) (by omega) (by omega)
        cases hds : Nat.toDigits 10 (n / 10) with
        | nil => exact absurd hds Nat.toDigits_ne_nil
        | cons d ds =>
            rw [hds] at hhead
            exact hhead

/-- A number is read back from its digits. -/
theorem word_toDigits (n : Nat) : word? (Nat.toDigits 10 n) = some (.num (mkRat n 1)) := by
  have hdigits : ∀ c ∈ Nat.toDigits 10 n, c.isDigit = true := fun c hc =>
    Nat.isDigit_of_mem_toDigits (by decide) (by decide) hc
  have hname : ∀ c cs, c.isDigit = false → Nat.toDigits 10 n ≠ c :: cs := by
    intro c cs hc heq
    have hdigit := hdigits c (by rw [heq]; exact List.mem_cons_self)
    rw [hc] at hdigit
    exact absurd hdigit (by simp)
  have hwhole : (Nat.toDigits 10 n).takeWhile Char.isDigit = Nat.toDigits 10 n :=
    List.takeWhile_eq_self_iff.mpr hdigits
  have hzero : ¬ (Nat.toDigits 10 n = [] ∨ ((Nat.toDigits 10 n).head? = some '0' ∧ Nat.toDigits 10 n ≠ ['0'])) := by
    rintro (hnil | ⟨hhead, hne⟩)
    · exact Nat.toDigits_ne_nil hnil
    · rcases Nat.eq_zero_or_pos n with rfl | hpos
      · exact hne (Nat.toDigits_zero 10)
      · exact head_toDigits hpos hhead
  have hunsigned : unsigned? (Nat.toDigits 10 n) = some (mkRat n 1) := by
    unfold unsigned?
    rw [hwhole, if_neg hzero, List.drop_length]
    show some (mkRat ((Decimal.value (Nat.toDigits 10 n ++ []) 0 * Nat.pow 10 0 : Nat) : Int) (Nat.pow 10 0)) = _
    rw [List.append_nil, Decimal.value, Nat.ofDigitChars_ten_toDigits]
    show some (mkRat ((n * 1 : Nat) : Int) 1) = _
    rw [Nat.mul_one]
  have hnumber : number? (Nat.toDigits 10 n) = some (mkRat n 1) := by
    unfold number?
    split
    · rename_i heq
      exact absurd heq (hname _ _ (by decide))
    · exact hunsigned
  have hnull : Nat.toDigits 10 n ≠ "null".toList := hname 'n' ['u', 'l', 'l'] (by decide)
  have htrue : Nat.toDigits 10 n ≠ "true".toList := hname 't' ['r', 'u', 'e'] (by decide)
  have hfalse : Nat.toDigits 10 n ≠ "false".toList := hname 'f' ['a', 'l', 's', 'e'] (by decide)
  unfold word?
  rw [if_neg hnull, if_neg htrue, if_neg hfalse, hnumber]
  rfl

/-- A document does not begin with the end of a list. -/
theorem Document.tokens_head (d : Document) : ∃ t ts, d.tokens = t :: ts ∧ t ≠ .mark ']' := by
  cases d with
  | null => exact ⟨_, _, by rw [tokens], by simp⟩
  | text s => exact ⟨_, _, by rw [tokens], by simp⟩
  | number n => exact ⟨_, _, by rw [tokens], by simp⟩
  | list ds => exact ⟨_, _, by rw [tokens], by simp⟩
  | record fs => exact ⟨_, _, by rw [tokens], by simp⟩

mutual

/-- **The grammar reads a document's value off its tokens.** -/
theorem Document.value_tokens (d : Document) (n : Nat) (rest : List Token) (hn : d.tokens.length ≤ n) :
    value n (d.tokens ++ rest) = some (d.json, rest) :=
  match d, n with
  | .null, n + 1 => by
      rw [Document.tokens, Document.json]
      rfl
  | .text s, n + 1 => by
      rw [Document.tokens, Document.json]
      show some (Json.str (String.ofList s.toList), rest) = _
      rw [String.ofList_toList]
  | .number m, n + 1 => by
      rw [Document.tokens, Document.json]
      show (word? (Nat.toDigits 10 m)).map (fun j => (j, rest)) = _
      rw [word_toDigits]
      rfl
  | .list [], n + 1 => by
      rw [Document.tokens, Document.json]
      rfl
  -- the first item's token is not the closing mark, so the items are read
  | .list (d :: ds), n + 1 => by
      rw [Document.tokens, List.length_cons, List.length_append, List.length_singleton] at hn
      have hitems := items_tokens d ds n rest (by omega)
      rw [Document.tokens, Document.json, List.cons_append, value, if_pos rfl, List.append_assoc, List.singleton_append]
      obtain ⟨t, ts, htokens, hne⟩ := d.tokens_head
      have hhead : (itemTokens true (d :: ds) ++ .mark ']' :: rest).head? ≠ some (.mark ']') := by
        rw [itemTokens, htokens]
        exact fun h => hne (Option.some.inj h)
      rw [if_neg hhead, hitems]
      rfl
  | .record [], n + 1 => by
      rw [Document.tokens, Document.json]
      rfl
  | .record ((key, d) :: fs), n + 1 => by
      rw [Document.tokens, List.length_cons, List.length_append, List.length_singleton] at hn
      have hmembers := members_tokens key d fs n rest (by omega)
      rw [Document.tokens, Document.json, List.cons_append, value, if_neg (by decide), if_pos rfl, List.append_assoc,
        List.singleton_append]
      have hhead : (memberTokens true ((key, d) :: fs) ++ .mark '\x7d' :: rest).head? ≠ some (.mark '\x7d') := by
        rw [memberTokens]
        exact fun h => Token.noConfusion (Option.some.inj h)
      rw [if_neg hhead, hmembers]
      rfl
  | .null, 0 | .text _, 0 | .number _, 0 | .list _, 0 | .record _, 0 => by
      rw [Document.tokens] at hn
      exact absurd hn (by simp)

theorem items_tokens (d : Document) (ds : List Document) (n : Nat) (rest : List Token)
    (hn : (itemTokens true (d :: ds)).length + 1 ≤ n) :
    items n (itemTokens true (d :: ds) ++ .mark ']' :: rest) = some (jsonItems (d :: ds), rest) :=
  match ds, n with
  | [], n + 1 => by
      rw [itemTokens, itemTokens, commaToken, if_pos rfl, List.nil_append, List.append_nil] at hn ⊢
      rw [items, d.value_tokens n _ (by omega), jsonItems, jsonItems]
      rw [Option.bind_some]
      dsimp only
      rw [if_pos rfl]
  | e :: es, n + 1 => by
      rw [itemTokens, commaToken, if_pos rfl, List.nil_append, List.length_append] at hn
      have hrest : (itemTokens false (e :: es)).length = 1 + (itemTokens true (e :: es)).length := by
        rw [itemTokens, itemTokens, commaToken, commaToken, if_neg (by decide), if_pos rfl]
        simp only [List.length_append, List.length_singleton, List.length_nil]
        omega
      have hitems := items_tokens e es n rest (by omega)
      have hfront : itemTokens false (e :: es) = .mark ',' :: itemTokens true (e :: es) := by
        rw [itemTokens, itemTokens]
        rfl
      rw [itemTokens, commaToken, if_pos rfl, List.nil_append, List.append_assoc, items,
        d.value_tokens n _ (by omega), hfront, jsonItems]
      rw [Option.bind_some, List.cons_append]
      dsimp only
      rw [if_neg (by decide), if_pos rfl, hitems]
      rfl
  | _, 0 => absurd hn (by omega)

theorem members_tokens (key : String) (d : Document) (fs : List (String × Document)) (n : Nat) (rest : List Token)
    (hn : (memberTokens true ((key, d) :: fs)).length + 1 ≤ n) :
    members n (memberTokens true ((key, d) :: fs) ++ .mark '\x7d' :: rest) =
      some (jsonMembers ((key, d) :: fs), rest) :=
  match fs, n with
  | [], n + 1 => by
      rw [memberTokens, memberTokens, commaToken, if_pos rfl, List.nil_append, List.append_nil] at hn ⊢
      rw [List.length_cons, List.length_cons] at hn
      rw [List.cons_append, List.cons_append, members, if_pos rfl, d.value_tokens n _ (by omega), jsonMembers,
        jsonMembers]
      rw [Option.bind_some]
      dsimp only
      rw [if_pos rfl, String.ofList_toList]
  | (key', e) :: fs, n + 1 => by
      rw [memberTokens, commaToken, if_pos rfl, List.nil_append, List.length_cons, List.length_cons,
        List.length_append] at hn
      have hrest : (memberTokens false ((key', e) :: fs)).length = 1 + (memberTokens true ((key', e) :: fs)).length := by
        rw [memberTokens, memberTokens, commaToken, commaToken, if_neg (by decide), if_pos rfl]
        simp only [List.length_append, List.length_singleton, List.length_nil]
        omega
      have hmembers := members_tokens key' e fs n rest (by omega)
      have hfront : memberTokens false ((key', e) :: fs) = .mark ',' :: memberTokens true ((key', e) :: fs) := by
        rw [memberTokens, memberTokens]
        rfl
      rw [memberTokens, commaToken, if_pos rfl, List.nil_append, List.cons_append, List.cons_append, List.append_assoc,
        members, if_pos rfl, d.value_tokens n _ (by omega), hfront, jsonMembers]
      rw [Option.bind_some, List.cons_append]
      dsimp only
      rw [if_neg (by decide), if_pos rfl, hmembers, String.ofList_toList]
      rfl
  | _, 0 => absurd hn (by omega)

end

/-! ## Texts of documents -/

section
variable {literal : List Char → List Char}

/-- **A document is read back**, with white space behind it, if the literals of its strings are. -/
theorem parse_render {d : Document} (h : ∀ t ∈ d.strings, Reads (literal t.toList) t.toList) {after : List Char}
    (hafter : ∀ c ∈ after, space c = true) : parse (d.render literal ++ after) = some d.json := by
  obtain ⟨s, hs, hends⟩ := d.scan [] h
  obtain ⟨t, ht, htends⟩ := hends.space hafter
  have hlex : lex (d.render literal ++ after) = some d.tokens := by
    unfold lex
    rw [List.foldlM_append, hs]
    show (after.foldlM step s).bind finish = _
    rw [ht]
    exact htends.finish
  have hvalue := d.value_tokens d.tokens.length [] (Nat.le_refl _)
  rw [List.append_nil] at hvalue
  unfold parse
  rw [hlex, Option.bind_some, hvalue]

mutual

/-- The literals of a document's strings are parts of its text. -/
theorem Document.mem_render (d : Document) (t : String) (c : Char) (ht : t ∈ d.strings)
    (hc : c ∈ literal t.toList) : c ∈ d.render literal :=
  match d with
  | .null | .number _ => by
      rw [Document.strings] at ht
      · exact absurd ht List.not_mem_nil
      all_goals simp
  | .text s => by
      rw [Document.strings, List.mem_singleton] at ht
      rw [Document.render, ← ht]
      exact hc
  | .list ds => by
      rw [Document.strings] at ht
      rw [Document.render]
      exact List.mem_cons_of_mem _ (List.mem_append_left _ (mem_renderItems true ds t c ht hc))
  | .record fs => by
      rw [Document.strings] at ht
      rw [Document.render]
      exact List.mem_cons_of_mem _ (List.mem_append_left _ (mem_renderMembers true fs t c ht hc))

theorem mem_renderItems (first : Bool) (ds : List Document) (t : String) (c : Char) (ht : t ∈ itemStrings ds)
    (hc : c ∈ literal t.toList) : c ∈ renderItems literal first ds :=
  match ds with
  | [] => by
      rw [itemStrings] at ht
      exact absurd ht List.not_mem_nil
  | d :: ds => by
      rw [itemStrings] at ht
      rw [renderItems]
      rcases List.mem_append.mp ht with ht | ht
      · exact List.mem_append_right _ (List.mem_append_left _ (d.mem_render t c ht hc))
      · exact List.mem_append_right _ (List.mem_append_right _ (mem_renderItems false ds t c ht hc))

theorem mem_renderMembers (first : Bool) (fs : List (String × Document)) (t : String) (c : Char)
    (ht : t ∈ memberStrings fs) (hc : c ∈ literal t.toList) : c ∈ renderMembers literal first fs :=
  match fs with
  | [] => by
      rw [memberStrings] at ht
      exact absurd ht List.not_mem_nil
  | (key, d) :: fs => by
      rw [memberStrings] at ht
      rw [renderMembers]
      refine List.mem_append_right _ ?_
      rcases List.mem_cons.mp ht with rfl | ht
      · exact List.mem_append_left _ hc
      · rcases List.mem_append.mp ht with ht | ht
        · exact List.mem_append_right _ (List.mem_cons_of_mem _ (List.mem_append_left _ (d.mem_render t c ht hc)))
        · exact List.mem_append_right _
            (List.mem_cons_of_mem _ (List.mem_append_right _ (mem_renderMembers false fs t c ht hc)))

end

/-- **A document is not read** if the literal of one of its strings has a forbidden character. -/
theorem parse_render_forbidden {d : Document} {t : String} {c : Char} (ht : t ∈ d.strings)
    (hc : c ∈ literal t.toList) (h : forbidden c = true) (after : List Char) :
    parse (d.render literal ++ after) = none :=
  parse_forbidden (List.mem_append_left _ (d.mem_render t c ht hc)) h

end

end JsonText
