import Mathlib.Data.List.Basic

/-!
# `Lib.ShellWords` — how a shell splits a command line, and a quoting that survives it

Token recognition of the POSIX shell: a character outside quotes either ends the word under construction or joins it,
a single quote protects everything up to the next one, a double quote everything but a few characters. Each character
of a word keeps the protection it was read under, because the expansions that come later act on the unprotected ones
only; a word without such a character is `inert` and denotes the text it is made of.

`quote` is the usual quoting with single quotes. Reading a quoted value adds the value to the word under construction
and leaves the reader where it was (`run_quote`), so the values of a template never change how the rest of the
template is read (`run_render`), and a list of quoted words is read back as itself (`simpleCommand_joinQuoted`).
-/

namespace ShellWords

/-! ## Tokens -/

/-- The protection a character was read under. -/
inductive Quoting where
  | bare
  | double
  | single
  deriving DecidableEq

/-- A character of a word. -/
structure Mark where
  char : Char
  quoting : Quoting
  deriving DecidableEq

/-- A word, or a character between words: a blank or a part of an operator. -/
inductive Token where
  | word (marks : List Mark)
  | sep (c : Char)
  deriving DecidableEq

inductive Mode where
  | outside
  | escape
  | single
  | double
  | doubleEscape
  deriving DecidableEq

/-- The reader: what it is inside of, the word under construction and the tokens before it. -/
structure State where
  mode : Mode
  word : Option (List Mark)
  tokens : List Token
  deriving DecidableEq

/-- Blanks and the metacharacters of operators. -/
def isSep (c : Char) : Bool :=
  c == ' ' || c == '\t' || c == '\n' || c == ';' || c == '&' || c == '|' || c == '<' || c == '>' || c == '(' || c == ')'

/-- The characters that double quotes do not protect. -/
def isDoubleSpecial (c : Char) : Bool := c == '$' || c == Char.ofNat 96 || c == '"' || c == '\\'

def State.extend (s : State) (marks : List Mark) : State := { s with word := some (s.word.getD [] ++ marks) }

def State.enter (s : State) (mode : Mode) : State := { s with mode := mode }

/-- The tokens read so far, the word under construction included. -/
def State.read (s : State) : List Token := s.tokens ++ (s.word.map Token.word).toList

def State.separate (s : State) (c : Char) : State := ⟨s.mode, none, s.read ++ [.sep c]⟩

def step (s : State) (c : Char) : State :=
  match s.mode with
  | .outside =>
      if c = '\'' then (s.extend []).enter .single
      else if c = '"' then (s.extend []).enter .double
      else if c = '\\' then s.enter .escape
      else if isSep c then s.separate c
      else s.extend [⟨c, .bare⟩]
  | .escape => if c = '\n' then s.enter .outside else (s.extend [⟨c, .single⟩]).enter .outside
  | .single => if c = '\'' then s.enter .outside else s.extend [⟨c, .single⟩]
  | .double =>
      if c = '"' then s.enter .outside
      else if c = '\\' then s.enter .doubleEscape
      else s.extend [⟨c, .double⟩]
  | .doubleEscape =>
      if c = '\n' then s.enter .double
      else if isDoubleSpecial c then (s.extend [⟨c, .single⟩]).enter .double
      else (s.extend [⟨'\\', .single⟩, ⟨c, .double⟩]).enter .double

def run (s : State) (text : List Char) : State := text.foldl step s

def start : State := ⟨.outside, none, []⟩

/-- The tokens of a command line; none when a quote is left open. -/
def lex (text : List Char) : Option (List Token) :=
  let s := run start text
  if s.mode = .outside then some s.read else none

/-! ## What a word denotes

Quote removal, for words in which nothing is expanded. A word that could be expanded, or that is an assignment or a
keyword in the place of a command, denotes nothing here. -/

/-- `[-A-Za-z0-9_@%+=:,./]`. -/
def isSafe (c : Char) : Bool :=
  c.isAlphanum || c == '_' || c == '@' || c == '%' || c == '+' || c == '=' || c == ':' || c == ',' || c == '.' ||
    c == '/' || c == '-'

/-- No expansion acts on the character. -/
def Mark.inert (m : Mark) : Bool :=
  match m.quoting with
  | .single => true
  | .double => !isDoubleSpecial m.char
  | .bare => isSafe m.char

/-- The text of a word without expansions. -/
def denote (marks : List Mark) : Option (List Char) :=
  if marks.all Mark.inert then some (marks.map Mark.char) else none

def reserved : List String :=
  ["!", "case", "coproc", "do", "done", "elif", "else", "esac", "fi", "for", "function", "if", "in", "select", "then",
    "time", "until", "while", "[[", "]]", "\x7b", "\x7d"]

/-- A text that stands for the name of a command when nothing protects it. -/
def isCommandName (text : List Char) : Bool := !text.contains '=' && !reserved.contains (String.ofList text)

/-- A first word that is neither an assignment nor a reserved word. -/
def commandWord (marks : List Mark) : Bool :=
  marks.any (fun m => m.quoting != .bare) || isCommandName (marks.map Mark.char)

/-- The words of a command line that has nothing else but single spaces. -/
def Token.wordOrSpace : Token → Bool
  | .word _ => true
  | .sep c => c == ' '

def Token.marks? : Token → Option (List Mark)
  | .word marks => some marks
  | .sep _ => none

/-- The argument vector of a line that is one command without expansions, redirections or operators. -/
def simpleCommand (tokens : List Token) : Option (List (List Char)) :=
  if tokens.all Token.wordOrSpace && (tokens.filterMap Token.marks?).head?.any commandWord then
    (tokens.filterMap Token.marks?).mapM denote
  else none

/-! ## Quoting

The quoting function of the Python standard library: safe words stay bare, and any other word is put between single
quotes. -/

/-- `s.replace("'", "'\"'\"'")`. -/
def protect (value : List Char) : List Char :=
  value.flatMap fun c => if c = '\'' then ['\'', '"', '\'', '"', '\''] else [c]

def quote (value : List Char) : List Char :=
  if value = [] then ['\'', '\'']
  else if value.all isSafe then value
  else '\'' :: (protect value ++ ['\''])

/-- How the characters of a quoted value are read. -/
def quoteMarks (value : List Char) : List Mark :=
  if value.all isSafe then value.map fun c => ⟨c, .bare⟩
  else value.map fun c => ⟨c, if c = '\'' then .double else .single⟩

/-- Quoted words with a space between them. -/
def joinQuoted : List (List Char) → List Char
  | [] => []
  | [word] => quote word
  | word :: words => quote word ++ ' ' :: joinQuoted words

/-! ## Reading a quoted value

The reader is followed through the characters of one quoted value. It ends outside of quotes, with the characters
of the value at the end of its word. -/

section
variable {s : State}

@[simp] theorem run_nil : run s [] = s := rfl

@[simp] theorem run_cons (c : Char) (cs : List Char) : run s (c :: cs) = run (step s c) cs := rfl

/-- Reading two texts is reading one after the other. -/
theorem run_append (cs ds : List Char) : run s (cs ++ ds) = run (run s cs) ds := List.foldl_append

/-- More characters in a word change no mode. -/
@[simp] theorem extend_mode (marks : List Mark) : (s.extend marks).mode = s.mode := rfl

@[simp] theorem extend_extend (a b : List Mark) : (s.extend a).extend b = s.extend (a ++ b) := by
  simp [State.extend, List.append_assoc]

/-- A safe character is no quote, no backslash and no separator. -/
theorem isSafe_plain {c : Char} (h : isSafe c = true) : c ≠ '\'' ∧ c ≠ '"' ∧ c ≠ '\\' ∧ isSep c = false := by
  have hne : ∀ d, isSafe d = false → c ≠ d := by
    intro d hd heq
    rw [heq, hd] at h
    exact absurd h (by simp)
  refine ⟨hne _ (by decide), hne _ (by decide), hne _ (by decide), ?_⟩
  simp only [isSep, Bool.or_eq_false_iff, beq_eq_false_iff_ne, ne_eq]
  exact ⟨⟨⟨⟨⟨⟨⟨⟨⟨hne _ (by decide), hne _ (by decide)⟩, hne _ (by decide)⟩, hne _ (by decide)⟩, hne _ (by decide)⟩,
    hne _ (by decide)⟩, hne _ (by decide)⟩, hne _ (by decide)⟩, hne _ (by decide)⟩, hne _ (by decide)⟩

/-- A safe character is a bare one of the word. -/
theorem step_safe {c : Char} (hmode : s.mode = .outside) (h : isSafe c = true) : step s c = s.extend [⟨c, .bare⟩] := by
  obtain ⟨h1, h2, h3, h4⟩ := isSafe_plain h
  simp [step, hmode, h1, h2, h3, h4]

/-- Safe characters join the word as they are. -/
theorem run_safe {value : List Char} (hmode : s.mode = .outside) (h : value.all isSafe = true) (hne : value ≠ []) :
    run s value = s.extend (value.map fun c => ⟨c, .bare⟩) := by
  induction value generalizing s with
  | nil => exact absurd rfl hne
  | cons c cs ih =>
      rw [List.all_cons, Bool.and_eq_true] at h
      rw [run_cons, step_safe hmode h.1]
      cases cs with
      | nil => rfl
      | cons d ds =>
          have hrest := ih (s := s.extend [⟨c, .bare⟩]) hmode h.2 (List.cons_ne_nil d ds)
          rw [hrest, extend_extend]
          rfl

/-- Inside single quotes a protected value is read as itself. -/
theorem run_protect (value : List Char) (hmode : s.mode = .single) :
    run s (protect value) = s.extend (value.map fun c => ⟨c, if c = '\'' then .double else .single⟩) ∨ value = [] := by
  induction value generalizing s with
  | nil => exact .inr rfl
  | cons c cs ih =>
      refine .inl ?_
      have hfirst : run s (protect [c]) = s.extend [⟨c, if c = '\'' then .double else .single⟩] := by
        by_cases hc : c = '\''
        · -- the quote is closed, the character is put between double quotes, and the quote is opened again
          subst hc
          show step (step (step (step (step s '\'') '"') '\'') '"') '\'' = _
          simp [step, hmode, State.enter, State.extend]
        · have hprotect : protect [c] = [c] := by simp [protect, hc]
          rw [hprotect, run_cons, run_nil, step, hmode]
          simp [hc]
      have hsplit : protect (c :: cs) = protect [c] ++ protect cs := by
        show List.flatMap _ ([c] ++ cs) = _
        rw [List.flatMap_append]
        rfl
      rw [hsplit, run_append, hfirst]
      rcases ih (s := s.extend [⟨c, if c = '\'' then .double else .single⟩]) hmode with h | h
      · rw [h, extend_extend]
        rfl
      · subst h
        rfl

/-- **Reading a quoted value** adds the value to the word and changes nothing else. -/
theorem run_quote (value : List Char) (hmode : s.mode = .outside) : run s (quote value) = s.extend (quoteMarks value) := by
  unfold quote quoteMarks
  by_cases hnil : value = []
  · subst hnil
    show step (step s '\'') '\'' = _
    simp [step, hmode, State.enter, State.extend]
  rw [if_neg hnil]
  by_cases hsafe : value.all isSafe = true
  · rw [if_pos hsafe, if_pos hsafe, run_safe hmode hsafe hnil]
  · rw [if_neg hsafe, if_neg hsafe, run_cons, run_append]
    have hopen : step s '\'' = (s.extend []).enter .single := by simp [step, hmode]
    rw [hopen]
    rcases run_protect (s := (s.extend []).enter .single) value rfl with h | h
    · rw [h, run_cons, run_nil]
      simp [step, State.enter, State.extend, hmode]
    · exact absurd h hnil

end

/-! ## What a quoted value denotes -/

/-- The marks are on the characters of the value. -/
theorem quoteMarks_chars (value : List Char) : (quoteMarks value).map Mark.char = value := by
  unfold quoteMarks
  split <;> simp [List.map_map, Function.comp_def]

/-- No character of a quoted value is expanded. -/
theorem quoteMarks_inert (value : List Char) : (quoteMarks value).all Mark.inert = true := by
  rw [List.all_eq_true]
  intro m hm
  unfold quoteMarks at hm
  split at hm
  · rename_i hsafe
    obtain ⟨c, hc, rfl⟩ := List.mem_map.mp hm
    exact List.all_eq_true.mp hsafe c hc
  · obtain ⟨c, _, rfl⟩ := List.mem_map.mp hm
    by_cases hc : c = '\''
    · subst hc
      decide
    · simp [Mark.inert, hc]

/-- A quoted value denotes itself. -/
@[simp] theorem denote_quoteMarks (value : List Char) : denote (quoteMarks value) = some value := by
  rw [denote, if_pos (quoteMarks_inert value), quoteMarks_chars]

/-- A name of a command stays one when it is quoted. -/
theorem commandWord_quoteMarks {value : List Char} (h : isCommandName value = true) : commandWord (quoteMarks value) = true := by
  rw [commandWord, quoteMarks_chars, h, Bool.or_true]

/-! ## Lists of words

Quoted words with spaces between them read as these words: a simple command, when the first of them can name one. -/

/-- The tokens of words with a space between them. -/
def spaced : List (List Mark) → List Token
  | [] => []
  | [word] => [.word word]
  | word :: words => .word word :: .sep ' ' :: spaced words

theorem separate_extend {s : State} (marks : List Mark) (c : Char) (h : s.word = none) :
    (s.extend marks).separate c = ⟨s.mode, none, s.tokens ++ [.word marks, .sep c]⟩ := by
  simp [State.separate, State.extend, State.read, h]

/-- Reading words between two blanks. -/
theorem run_joinQuoted {words : List (List Char)} {s : State} (hmode : s.mode = .outside) (hword : s.word = none)
    (hne : words ≠ []) :
    (run s (joinQuoted words)).mode = .outside ∧ (run s (joinQuoted words)).word ≠ none ∧
      (run s (joinQuoted words)).read = s.tokens ++ spaced (words.map quoteMarks) := by
  induction words generalizing s with
  | nil => exact absurd rfl hne
  | cons word words ih =>
      cases words with
      | nil =>
          rw [joinQuoted, run_quote word hmode]
          refine ⟨hmode, by simp [State.extend], ?_⟩
          simp [State.read, State.extend, hword, spaced]
      | cons next rest =>
          rw [joinQuoted, run_append, run_quote word hmode, run_cons]
          · have hsep : step (s.extend (quoteMarks word)) ' ' = ⟨.outside, none, s.tokens ++ [.word (quoteMarks word), .sep ' ']⟩ := by
              have : step (s.extend (quoteMarks word)) ' ' = (s.extend (quoteMarks word)).separate ' ' := by
                simp [step, hmode, isSep]
              rw [this, separate_extend _ _ hword, hmode]
            rw [hsep]
            obtain ⟨h1, h2, h3⟩ := ih (s := ⟨.outside, none, s.tokens ++ [.word (quoteMarks word), .sep ' ']⟩) rfl rfl
              (List.cons_ne_nil next rest)
            refine ⟨h1, h2, ?_⟩
            rw [h3]
            simp [spaced]
          · exact fun h => absurd h (List.cons_ne_nil next rest)

/-- Such a list has words and spaces in it, and no other token. -/
theorem spaced_wordOrSpace (words : List (List Mark)) : (spaced words).all Token.wordOrSpace = true := by
  induction words with
  | nil => rfl
  | cons word words ih =>
      cases words with
      | nil => rfl
      | cons next rest => simpa [spaced, Token.wordOrSpace] using ih

theorem spaced_marks (words : List (List Mark)) : (spaced words).filterMap Token.marks? = words := by
  induction words with
  | nil => rfl
  | cons word words ih =>
      cases words with
      | nil => rfl
      | cons next rest =>
          show word :: (spaced (next :: rest)).filterMap Token.marks? = word :: next :: rest
          rw [ih]

/-- They denote the values that were quoted. -/
theorem mapM_denote (words : List (List Char)) : (words.map quoteMarks).mapM denote = some words := by
  induction words with
  | nil => rfl
  | cons word words ih => simp [List.mapM_cons, ih]

/-- The tokens of quoted words denote the words. -/
theorem simpleCommand_spaced {words : List (List Char)} (hname : words.head?.any isCommandName = true) :
    simpleCommand (spaced (words.map quoteMarks)) = some words := by
  cases words with
  | nil => exact absurd hname (by simp)
  | cons word rest =>
      have hcommand : ((word :: rest).map quoteMarks).head?.any commandWord = true := commandWord_quoteMarks hname
      rw [simpleCommand, spaced_wordOrSpace, spaced_marks, hcommand]
      exact mapM_denote (word :: rest)

/-- **A list of quoted words is read back as itself.** -/
theorem simpleCommand_joinQuoted {words : List (List Char)} (hname : words.head?.any isCommandName = true) :
    (lex (joinQuoted words)).bind simpleCommand = some words := by
  have hne : words ≠ [] := by
    rintro rfl
    exact absurd hname (by simp)
  obtain ⟨hmode, _, hread⟩ := run_joinQuoted (s := start) rfl rfl hne
  rw [lex, if_pos hmode, Option.bind_some, hread]
  exact simpleCommand_spaced hname

/-! ## Templates

Most commands are a fixed text with a few values in it. A template alternates the two; its tokens do not depend on
the values. -/

/-- A template is text with values in it. -/
inductive Piece where
  | text (cs : List Char)
  | value (v : List Char)

/-- The command line of a template, its values quoted. -/
def render : List Piece → List Char
  | [] => []
  | .text cs :: ps => cs ++ render ps
  | .value v :: ps => quote v ++ render ps

/-- Reading a piece; a value joins the word under construction. -/
def State.take (s : State) : Piece → State
  | .text cs => run s cs
  | .value v => s.extend (quoteMarks v)

/-- The tokens of a template. -/
def templateTokens (ps : List Piece) : List Token := (ps.foldl State.take start).read

def modeStep (m : Mode) (c : Char) : Mode := (step ⟨m, none, []⟩ c).mode

/-- A text that closes the quotes it opens. -/
def Piece.closed : Piece → Bool
  | .text cs => decide (cs.foldl modeStep .outside = .outside)
  | .value _ => true

section
variable {s : State} {ps : List Piece}

theorem step_mode (s : State) (c : Char) : (step s c).mode = modeStep s.mode c := by
  obtain ⟨mode, word, tokens⟩ := s
  cases mode <;> simp only [step, modeStep] <;> repeat' split
  all_goals rfl

theorem run_mode (s : State) (cs : List Char) : (run s cs).mode = cs.foldl modeStep s.mode := by
  induction cs generalizing s with
  | nil => rfl
  | cons c cs ih => rw [run_cons, ih, step_mode, List.foldl_cons]

/-- A closed piece is read from outside of quotes to outside of quotes. -/
theorem take_mode {p : Piece} (hp : p.closed = true) (hmode : s.mode = .outside) : (s.take p).mode = .outside := by
  cases p with
  | text cs =>
      show (run s cs).mode = .outside
      rw [run_mode, hmode]
      exact of_decide_eq_true hp
  | value v => exact hmode

theorem foldl_take_mode (hclosed : ∀ p ∈ ps, p.closed = true) (hmode : s.mode = .outside) :
    (ps.foldl State.take s).mode = .outside := by
  induction ps generalizing s with
  | nil => exact hmode
  | cons p ps ih =>
      rw [List.foldl_cons]
      exact ih (fun q hq => hclosed q (List.mem_cons_of_mem p hq)) (take_mode (hclosed p List.mem_cons_self) hmode)

/-- **The values of a template do not change how the rest is read.** -/
theorem run_render (hclosed : ∀ p ∈ ps, p.closed = true) (hmode : s.mode = .outside) :
    run s (render ps) = ps.foldl State.take s := by
  induction ps generalizing s with
  | nil => rfl
  | cons p ps ih =>
      have hrest : run (s.take p) (render ps) = ps.foldl State.take (s.take p) :=
        ih (fun q hq => hclosed q (List.mem_cons_of_mem p hq)) (take_mode (hclosed p List.mem_cons_self) hmode)
      rw [List.foldl_cons, ← hrest]
      cases p with
      | text cs => exact run_append cs (render ps)
      | value v =>
          rw [render, run_append, run_quote v hmode]
          rfl

/-- A rendered template reads as the tokens of the template. -/
theorem lex_render (hclosed : ∀ p ∈ ps, p.closed = true) : lex (render ps) = some (templateTokens ps) := by
  have hmode : (ps.foldl State.take start).mode = .outside := foldl_take_mode hclosed rfl
  rw [lex, run_render hclosed rfl, if_pos hmode]
  rfl

/-! ## Reading on -/

/-- The reader with tokens in front of its own. -/
def State.after (ts : List Token) (s : State) : State := { s with tokens := ts ++ s.tokens }

/-- The tokens in front stay in front. -/
theorem read_after (ts : List Token) (s : State) : (s.after ts).read = ts ++ s.read := by
  simp [State.read, State.after, List.append_assoc]

theorem step_after (ts : List Token) (s : State) (c : Char) : step (s.after ts) c = (step s c).after ts := by
  cases hmode : s.mode <;> simp only [step, State.after, hmode] <;>
    repeat' split
  all_goals simp_all [State.extend, State.enter, State.separate, State.read, List.append_assoc]

/-- What was read before does not change how the rest is read. -/
theorem run_after (ts : List Token) (s : State) (cs : List Char) : run (s.after ts) cs = (run s cs).after ts := by
  induction cs generalizing s with
  | nil => rfl
  | cons c cs ih => rw [run_cons, run_cons, step_after, ih]

theorem foldl_take_after (ts : List Token) (s : State) (ps : List Piece) :
    ps.foldl State.take (s.after ts) = (ps.foldl State.take s).after ts := by
  induction ps generalizing s with
  | nil => rfl
  | cons p ps ih =>
      have htake : (s.after ts).take p = (s.take p).after ts := by
        cases p with
        | text cs => exact run_after ts s cs
        | value v => rfl
      rw [List.foldl_cons, List.foldl_cons, htake, ih]

/-- A separator ends the word before it: what follows is read as if it stood alone. -/
theorem run_separated {c : Char} (hmode : s.mode = .outside) (hsep : isSep c = true) (cs : List Char) :
    run s (c :: cs) = (run start (c :: cs)).after s.read := by
  have hplain : ∀ d, isSep d = false → c ≠ d := by
    rintro d hd rfl
    rw [hd] at hsep
    exact absurd hsep (by simp)
  have h1 := hplain '\'' (by decide)
  have h2 := hplain '"' (by decide)
  have h3 := hplain '\\' (by decide)
  have hstep : step s c = (step start c).after s.read := by
    simp [step, start, hmode, h1, h2, h3, hsep, State.separate, State.after, State.read]
  rw [run_cons, run_cons, hstep, run_after]

/-- The same for a template. -/
theorem foldl_take_separated {cs : List Char} (hmode : s.mode = .outside) (hsep : cs.head?.any isSep = true)
    (ps : List Piece) :
    (Piece.text cs :: ps).foldl State.take s = ((Piece.text cs :: ps).foldl State.take start).after s.read := by
  cases cs with
  | nil => exact absurd hsep (by simp)
  | cons c cs =>
      have hrun : s.take (.text (c :: cs)) = (start.take (.text (c :: cs))).after s.read := run_separated hmode hsep cs
      rw [List.foldl_cons, List.foldl_cons, hrun, foldl_take_after]

/-- Between words the reader is where it started. -/
theorem eq_after (hmode : s.mode = .outside) (hword : s.word = none) : s = start.after s.tokens := by
  obtain ⟨mode, word, tokens⟩ := s
  simp only at hmode hword
  simp [State.after, start, hmode, hword]

/-- After a blank the reader is between words. -/
theorem run_blank (cs : List Char) (hmode : (run s cs).mode = .outside) : (run s (cs ++ [' '])).word = none := by
  rw [run_append, run_cons, run_nil]
  simp [step, hmode, isSep, State.separate]

end

end ShellWords
