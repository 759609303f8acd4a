import OraclePatching.Lib.Cut
import OraclePatching.Lib.JsonText

/-!
# `Records.Escape` — the JSON texts that `lib/opu/common.sh` and `lib/opu/journal.sh` print

`opu_json_escape` is a chain of global substitutions, each of one character by two. The scripts put its result between
quotes and print the documents around it piece by piece. A shell value has no NUL; nothing here depends on that.
-/

namespace OraclePatching

/-! ## Escapes -/

/-- `${value//c/text}`. -/
def substitute (c : Char) (text value : List Char) : List Char := value.flatMap fun d => if d = c then text else [d]

def opuJsonEscape (value : List Char) : List Char :=
  let value := substitute '\\' ['\\', '\\'] value
  let value := substitute '"' ['\\', '"'] value
  let value := substitute '\x08' ['\\', 'b'] value
  let value := substitute '\x0c' ['\\', 'f'] value
  let value := substitute '\n' ['\\', 'n'] value
  let value := substitute '\r' ['\\', 'r'] value
  substitute '\t' ['\\', 't'] value

/-- `$(opu_json_escape "$1")`. -/
def escaped (value : String) : List Char := CutText.chomp (opuJsonEscape value.toList)

def opuJsonString (value : List Char) : List Char := '"' :: (CutText.chomp (opuJsonEscape value) ++ ['"'])

def opuJsonNullableString (value : String) : List Char :=
  if value ≠ "" then opuJsonString value.toList else "null".toList

/-! ## Events -/

/-- `opu_append_event`: the line it appends. -/
def opuAppendEvent (timestamp event status : String) : List Char :=
  "\x7b\"schema_version\":\"1.0\",\"time\":\"".toList ++ escaped timestamp ++ "\",\"event\":\"".toList ++
    escaped event ++ "\",\"status\":\"".toList ++ escaped status ++ "\"\x7d\n".toList

/-- `event` of `opu-patch-plan`. -/
def planEvent (time id name state actor detail : String) : List Char :=
  "\x7b\"schema_version\":\"1.0\",\"time\":".toList ++ opuJsonString time.toList ++ ",\"plan_id\":".toList ++
    opuJsonString id.toList ++ ",\"event\":".toList ++ opuJsonString name.toList ++ ",\"state\":".toList ++
    opuJsonString state.toList ++ ",\"actor\":".toList ++ opuJsonString actor.toList ++ ",\"detail\":".toList ++
    opuJsonString detail.toList ++ "\x7d\n".toList

/-! ## What the chain does -/

/-- What becomes of one character. -/
def escapeChar (c : Char) : List Char :=
  if c = '\\' then ['\\', '\\']
  else if c = '"' then ['\\', '"']
  else if c = '\x08' then ['\\', 'b']
  else if c = '\x0c' then ['\\', 'f']
  else if c = '\n' then ['\\', 'n']
  else if c = '\r' then ['\\', 'r']
  else if c = '\t' then ['\\', 't']
  else [c]

section
variable {c : Char} {cs : List Char}

theorem substitute_append (d : Char) (text as bs : List Char) :
    substitute d text (as ++ bs) = substitute d text as ++ substitute d text bs := List.flatMap_append

theorem substitute_ne {d : Char} (text : List Char) (h : c ≠ d) : substitute d text [c] = [c] := by
  simp [substitute, h]

theorem opuJsonEscape_append (as bs : List Char) : opuJsonEscape (as ++ bs) = opuJsonEscape as ++ opuJsonEscape bs := by
  simp only [opuJsonEscape, substitute_append]

/-- No substitution touches what an earlier one has put in. -/
theorem opuJsonEscape_singleton (c : Char) : opuJsonEscape [c] = escapeChar c := by
  unfold escapeChar
  by_cases h1 : c = '\\'
  · rw [if_pos h1, h1]; decide
  by_cases h2 : c = '"'
  · rw [if_neg h1, if_pos h2, h2]; decide
  by_cases h3 : c = '\x08'
  · rw [if_neg h1, if_neg h2, if_pos h3, h3]; decide
  by_cases h4 : c = '\x0c'
  · rw [if_neg h1, if_neg h2, if_neg h3, if_pos h4, h4]; decide
  by_cases h5 : c = '\n'
  · rw [if_neg h1, if_neg h2, if_neg h3, if_neg h4, if_pos h5, h5]; decide
  by_cases h6 : c = '\r'
  · rw [if_neg h1, if_neg h2, if_neg h3, if_neg h4, if_neg h5, if_pos h6, h6]; decide
  by_cases h7 : c = '\t'
  · rw [if_neg h1, if_neg h2, if_neg h3, if_neg h4, if_neg h5, if_neg h6, if_pos h7, h7]; decide
  rw [if_neg h1, if_neg h2, if_neg h3, if_neg h4, if_neg h5, if_neg h6, if_neg h7]
  unfold opuJsonEscape
  dsimp only
  rw [substitute_ne _ h1, substitute_ne _ h2, substitute_ne _ h3, substitute_ne _ h4, substitute_ne _ h5,
    substitute_ne _ h6, substitute_ne _ h7]

/-- **The chain is a map of characters.** -/
theorem opuJsonEscape_eq (cs : List Char) : opuJsonEscape cs = cs.flatMap escapeChar := by
  induction cs with
  | nil => rfl
  | cons c cs ih =>
      show opuJsonEscape ([c] ++ cs) = _
      rw [opuJsonEscape_append, opuJsonEscape_singleton, ih, List.flatMap_cons]

/-- A control character in the result is there because it was left as it is. -/
theorem eq_of_mem_escapeChar {d : Char} (h : d ∈ escapeChar c) (hd : d.toNat < 32) : d = c := by
  have hne : ∀ e : Char, 32 ≤ e.toNat → d ≠ e := by
    rintro e he rfl
    omega
  have htwo : ∀ e : Char, 32 ≤ e.toNat → d ∉ ['\\', e] := fun e he => by
    simp [hne '\\' (by decide), hne e he]
  unfold escapeChar at h
  split_ifs at h
  · exact absurd h (htwo '\\' (by decide))
  · exact absurd h (htwo '"' (by decide))
  · exact absurd h (htwo 'b' (by decide))
  · exact absurd h (htwo 'f' (by decide))
  · exact absurd h (htwo 'n' (by decide))
  · exact absurd h (htwo 'r' (by decide))
  · exact absurd h (htwo 't' (by decide))
  · exact List.mem_singleton.mp h

/-- The command substitution finds no line break to cut. -/
theorem chomp_escape (cs : List Char) : CutText.chomp (opuJsonEscape cs) = cs.flatMap escapeChar := by
  rw [opuJsonEscape_eq]
  refine CutText.chomp_of_no_break fun h => ?_
  obtain ⟨c, -, hc⟩ := List.mem_flatMap.mp h
  by_cases hbreak : c = '\n'
  · rw [hbreak] at hc
    exact absurd hc (by decide)
  · exact hbreak (eq_of_mem_escapeChar hc (by decide)).symm

theorem opuJsonString_eq (cs : List Char) : opuJsonString cs = '"' :: (cs.flatMap escapeChar ++ ['"']) := by
  unfold opuJsonString
  rw [chomp_escape]

end

end OraclePatching
