import OraclePatching.Lib.Regex

/-!
# `Hints.Readme` — `_extract_requirement` of `procedure_hints.py`

A README is read as the calls `HTMLParser` makes for it: `_ReadmeText` keeps the text of blocks outside examples, the
blocks are cut into sentences, and each sentence is compared with the four ways to state a requirement. What `HTMLParser`
makes of a text is left open: any sequence of calls is a README.
-/

namespace OraclePatching.Hints

open Regex

/-- The character classes of Python: `\s`, `\d` and `\w`. On ASCII they are what they look like. -/
structure Unicode where
  space : Char → Bool
  digit : Char → Bool
  word : Char → Bool
  ascii_space : ∀ c, c.val < 128 → space c = (c.isWhitespace || c.val.toNat ∈ [11, 12, 28, 29, 30, 31])
  ascii_digit : ∀ c, c.val < 128 → digit c = c.isDigit
  ascii_word : ∀ c, c.val < 128 → word c = (c.isAlphanum || c == '_')

/-! ## Patterns -/

section
variable (u : Unicode)

/-- `\s+`. -/
def spaces : Pattern := .many (.one u.space) 1 none

/-- `\b(?:…)\b`. -/
def wordOf (words : List String) : Pattern := chain [.edge u.word, either (words.map literal), .edge u.word]

def decimals : Pattern := .many (.one Char.isDigit) 1 none

/-- `_VERSION`. -/
def version : Pattern :=
  chain [.group (chain [decimals, .many (chain [char '.', decimals]) 2 (some 4)]),
    .notAhead (either [.one u.digit, chain [char '.', .one u.digit]])]

/-- `_OPATCH`. -/
def opatch : Pattern :=
  chain [.opt (chain [literal "the", spaces u]), literal "OPatch", spaces u, .opt (chain [literal "utility", spaces u]),
    .opt (chain [literal "version", spaces u])]

/-- `_MINIMUM`. -/
def minimum : Pattern :=
  either [chain [literal "or", spaces u, either [literal "later", literal "higher", literal "newer"]],
    chain [literal "and", spaces u, either [literal "above", literal "later"]]]

/-- `_APPLY`. -/
def apply : Pattern :=
  chain [literal "to", spaces u, either [literal "apply", literal "install"], spaces u,
    either [literal "this", literal "the"], spaces u, literal "patch"]

/-- `[.!]?`. -/
def stop : Pattern := .opt (.one fun c => c == '.' || c == '!')

/-- `_REQUIREMENTS`. -/
def requirements : List Pattern :=
  [chain [.opt (chain [literal "You", spaces u]), literal "must", spaces u, literal "use", spaces u, opatch u, version u,
      spaces u, minimum u, .opt (chain [spaces u, apply u]), stop],
    chain [literal "Use", spaces u, opatch u, version u, spaces u, minimum u, spaces u, apply u, stop],
    chain [opatch u, version u, spaces u, minimum u, spaces u, literal "is", spaces u, literal "required",
      .opt (chain [spaces u, apply u]), stop],
    chain [.opt (chain [literal "The", spaces u]), literal "minimum", spaces u, .opt (chain [literal "required", spaces u]),
      literal "OPatch", spaces u, .opt (chain [literal "utility", spaces u]), literal "version",
      either [chain [spaces u, either [literal "is", chain [literal "must", spaces u, literal "be"]]],
        chain [.many (.one u.space) 0 none, char ':']],
      .many (.one u.space) 0 none, version u, stop]]

/-- `_NON_REQUIREMENT`. -/
def nonRequirement : Pattern :=
  either [chain [.edge u.word,
      either [literal "example", literal "examples", literal "sample", literal "illustration", literal "installed",
        literal "output", literal "rollback", chain [literal "rolling", spaces u, literal "back"], literal "uninstall",
        literal "previous", literal "previously", literal "formerly"],
      .edge u.word],
    chain [.edge u.word, literal "e.g."]]

/-- The title of a section of examples. -/
def exampleTitle : Pattern :=
  chain [.edge u.word,
    either (["example", "sample", "illustration"].map fun noun => chain [literal noun, .opt (literal "s")]), .edge u.word]

/-- `\d+(?:\.\d+){2,}`. -/
def dotted : Pattern :=
  chain [.many (.one u.digit) 1 none, .many (chain [char '.', .many (.one u.digit) 1 none]) 2 none]

/-! ## White space -/

/-- `text.split()`. -/
def splitWords (text : List Char) : List (List Char) := (text.splitOnP u.space).filter (· ≠ [])

/-- `" ".join(text.split())`. -/
def normalise (text : List Char) : List Char := [' '].intercalate (splitWords u text)

/-- `re.split(r"(?<=[.!?])\s+", text)`; `skipping` says that white space of the separator is being skipped. -/
def splitSentences (sentence : List Char) (skipping : Bool) : List Char → List (List Char)
  | [] => [sentence.reverse]
  | c :: cs =>
      if skipping && u.space c then splitSentences sentence true cs
      else if u.space c && sentence.head?.any (fun d => d == '.' || d == '!' || d == '?') then
        sentence.reverse :: splitSentences [] true cs
      else splitSentences (c :: sentence) false cs

/-! ## The text of the document -/

/-- A call of `HTMLParser`. -/
inductive Event where
  | starttag (tag : String)
  | endtag (tag : String)
  | data (text : String)

/-- `_ReadmeText`; the last of `omitted` is the first here. -/
structure ReadmeText where
  parts : List String
  omitted : List String
  heading : Option String
  headingParts : List String
  exampleHeadingLevel : Option Nat

def ReadmeText.init : ReadmeText := ⟨[], [], none, [], none⟩

/-- `_BLOCKS`. -/
def blocks : List String :=
  ["address", "article", "aside", "blockquote", "br", "dd", "div", "dl", "dt", "fieldset", "figcaption", "figure",
    "footer", "form", "h1", "h2", "h3", "h4", "h5", "h6", "header", "hr", "li", "main", "nav", "ol", "p", "section",
    "table", "tbody", "td", "th", "thead", "tr", "ul"]

/-- `_OMIT`. -/
def omits : List String := ["script", "style", "template", "pre", "samp"]

/-- `h[1-6]`, with the level. -/
def headingLevel (tag : String) : Option Nat :=
  (["h1", "h2", "h3", "h4", "h5", "h6"].idxOf? tag).map (· + 1)

def separator : String := "\x1e"

def handleStarttag (t : ReadmeText) (tag : String) : ReadmeText :=
  if !t.omitted.isEmpty then if tag ∈ omits then { t with omitted := tag :: t.omitted } else t
  else
    let t :=
      if tag ∈ omits then { t with omitted := [tag], parts := t.parts ++ [separator] }
      else if tag ∈ blocks then { t with parts := t.parts ++ [separator] }
      else t
    if (headingLevel tag).isSome then { t with heading := some tag, headingParts := [] } else t

/-- What the end of a heading of this level says about the text that follows. -/
def exampleLevel (t : ReadmeText) (level : Nat) : Option Nat :=
  if search (exampleTitle u) (normalise u (t.headingParts.flatMap String.toList)) then
    some (min (t.exampleHeadingLevel.getD level) level)
  else if t.exampleHeadingLevel.any (level ≤ ·) then none
  else t.exampleHeadingLevel

def handleEndtag (t : ReadmeText) (tag : String) : ReadmeText :=
  match t.omitted with
  | top :: rest => if tag == top then { t with omitted := rest } else t
  | [] =>
      let t :=
        if some tag == t.heading then
          { t with exampleHeadingLevel := exampleLevel u t ((headingLevel tag).getD 0), heading := none, headingParts := [] }
        else t
      if tag ∈ blocks then { t with parts := t.parts ++ [separator] } else t

def handleData (t : ReadmeText) (text : String) : ReadmeText :=
  if !t.omitted.isEmpty then t
  else
    let t := if t.heading.isSome then { t with headingParts := t.headingParts ++ [text] } else t
    if t.exampleHeadingLevel.isNone then { t with parts := t.parts ++ [text] } else t

def handle (t : ReadmeText) : Event → ReadmeText
  | .starttag tag => handleStarttag t tag
  | .endtag tag => handleEndtag u t tag
  | .data text => handleData t text

/-- `parser.feed(…)`, `parser.close()`. -/
def feed (events : List Event) : ReadmeText := events.foldl (handle u) ReadmeText.init

/-- The sentences of all blocks, in order. -/
def sentences (events : List Event) : List (List Char) :=
  (((feed u events).parts.flatMap String.toList).splitOn '\x1e').flatMap fun block =>
    splitSentences u [] false (normalise u block)

/-! ## The requirement -/

/-- The version of the first pattern that matches the sentence. -/
def requirement (sentence : List Char) : Option (List Char) :=
  (requirements u).findSome? fun pattern => (fullmatch pattern sentence).map fun y => y.capture.getD []

/-- `_NON_REQUIREMENT.search`. -/
def excluded (sentence : List Char) : Bool := search (nonRequirement u) sentence

/-- OPatch, a word of requirement and a dotted version. -/
def mentions (sentence : List Char) : Bool :=
  search (wordOf u ["OPatch"]) sentence && search (wordOf u ["must", "minimum", "required"]) sentence &&
    search (dotted u) sentence

structure Reading where
  matched : List (List Char × List Char)
  unclear : Bool

/-- One turn of the loop over the sentences. -/
def readSentence (r : Reading) (sentence : List Char) : Reading :=
  if sentence.isEmpty || decide (400 < sentence.length) || excluded u sentence then r
  else
    match requirement u sentence with
    | some v => { r with matched := r.matched ++ [(v, sentence)] }
    | none => if mentions u sentence then { r with unclear := true } else r

structure Extraction where
  version : Option (List Char)
  evidence : Option (List Char)
  warnings : List String

/-- `_extract_requirement`. -/
def extractRequirement (events : List Event) : Extraction :=
  let r := (sentences u events).foldl (readSentence u) ⟨[], false⟩
  if r.unclear then
    ⟨none, none, ["The selected README contains a conditional or unclear OPatch requirement. Review the " ++
      "applicable requirement and enter it manually."]⟩
  else
    match r.matched with
    | [] =>
        ⟨none, none, ["No unambiguous explicit minimum OPatch requirement was found. Review the selected " ++
          "README and enter the requirement manually."]⟩
    | (v, sentence) :: rest =>
        if rest.any (·.1 != v) then
          ⟨none, none, ["The selected README states different minimum OPatch versions. Review the applicable " ++
            "requirement and enter it manually."]⟩
        else ⟨some v, some sentence, []⟩

end

end OraclePatching.Hints
