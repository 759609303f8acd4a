import OraclePatching.Hints.Readme

/-!
# `Hints.Outside` — the text of a README outside its examples

What counts as text outside `script`, `style`, `template`, `pre` and `samp` elements and outside sections of examples
is said here without the parser class: by where a piece of text stands (`Standing`). A section of examples ends where
the next heading of its level, or of a higher one, begins. `_ReadmeText` lets it go on to the end of that heading, and
of a heading that is never closed to the end of the document, so it keeps less. `kept_outside` says that it keeps
nothing else: every sentence of its text is one of the text outside.
-/

namespace OraclePatching.Hints

/-! ## Where a piece of text stands

The position is carried along the calls of `HTMLParser`. An excluded element lasts until its end tag; what is tagged
inside it does not count. A heading has a title, which is known when it is closed. -/

/-- The excluded elements around a piece of text, innermost first, its heading with the title so far, and the level of
    the section of examples it is in. -/
structure Standing where
  elements : List String
  heading : Option (String × List String)
  examples : Option Nat

def Standing.start : Standing := ⟨[], none, none⟩

/-- The text stands in no excluded element and in no section of examples. -/
def Standing.outside (p : Standing) : Bool := p.elements.isEmpty && p.examples.isNone

section
variable (u : Unicode)

/-- The title announces examples. -/
def announcesExamples (title : List String) : Bool :=
  Regex.search (exampleTitle u) (normalise u (title.flatMap String.toList))

def Standing.next (p : Standing) : Event → Standing
  | .starttag tag =>
      if p.elements = [] then
        match headingLevel tag with
        -- a section of this level, or of a lower one, ends where the heading begins
        | some level => { p with heading := some (tag, []), examples := p.examples.filter (· < level) }
        | none => if tag ∈ omits then { p with elements := [tag] } else p
      else if tag ∈ omits then { p with elements := tag :: p.elements }
      else p
  | .endtag tag =>
      match p.elements, p.heading with
      | innermost :: around, _ => if tag = innermost then { p with elements := around } else p
      | [], some (name, title) =>
          if tag = name then
            { p with
              heading := none
              examples :=
                if announcesExamples u title then some (p.examples.getD ((headingLevel tag).getD 0)) else p.examples }
          else p
      | [], none => p
  | .data text =>
      if p.elements = [] then { p with heading := p.heading.map fun h => (h.1, h.2 ++ [text]) } else p

/-- The text of one call: text that stands outside, and a separator where a block begins or ends. -/
def Standing.text (p : Standing) : Event → List Char
  | .starttag tag => if p.elements = [] ∧ (tag ∈ omits ∨ tag ∈ blocks) then separator.toList else []
  | .endtag tag => if p.elements = [] ∧ tag ∈ blocks then separator.toList else []
  | .data text => if p.outside then text.toList else []

/-- The text outside, from a piece that stands at `p` on. -/
def outsideText (p : Standing) : List Event → List Char
  | [] => []
  | e :: es => p.text e ++ outsideText (p.next u e) es

/-- The sentences of the blocks of a text. -/
def sentencesOf (text : List Char) : List (List Char) :=
  (text.splitOn '\x1e').flatMap fun block => splitSentences u [] false (normalise u block)

/-- The sentences of the text outside. -/
def outsideSentences (events : List Event) : List (List Char) := sentencesOf u (outsideText u Standing.start events)

end

/-! ## Blocks of a text that grows

A text is cut into the blocks that are finished and the one at its end, which further text may still extend. -/

def cutChar (b : List (List Char) × List Char) (c : Char) : List (List Char) × List Char :=
  if c = '\x1e' then (b.1 ++ [b.2], []) else (b.1, b.2 ++ [c])

/-- The finished blocks, and the last one. -/
def cut (text : List Char) : List (List Char) × List Char := text.foldl cutChar ([], [])

section
variable {b : List (List Char) × List Char} {text more : List Char}

theorem cut_append : cut (text ++ more) = more.foldl cutChar (cut text) := List.foldl_append

/-- Further text extends the last block and adds blocks behind it, whatever was finished before. -/
theorem foldl_cutChar (more : List Char) : ∀ b : List (List Char) × List Char,
    more.foldl cutChar b = (b.1 ++ (more.foldl cutChar ([], b.2)).1, (more.foldl cutChar ([], b.2)).2) := by
  induction more with
  | nil => intro b; simp
  | cons c cs ih =>
      intro b
      rw [List.foldl_cons, List.foldl_cons]
      by_cases hc : c = '\x1e'
      · have hcut : ∀ d : List (List Char), cutChar (d, b.2) c = (d ++ [b.2], []) := fun _ => if_pos hc
        rw [show cutChar b c = (b.1 ++ [b.2], []) from hcut b.1, hcut, ih (b.1 ++ [b.2], []), ih ([] ++ [b.2], [])]
        simp
      · have hcut : ∀ d : List (List Char), cutChar (d, b.2) c = (d, b.2 ++ [c]) := fun _ => if_neg hc
        rw [show cutChar b c = (b.1, b.2 ++ [c]) from hcut b.1, hcut, ih (b.1, b.2 ++ [c])]

/-- The blocks are those that `split` makes. -/
theorem splitOn_eq_cut (text : List Char) : text.splitOn '\x1e' = (cut text).1 ++ [(cut text).2] := by
  have hgo : ∀ (text : List Char) (last : List Char), (text.splitOn '\x1e').modifyHead (last ++ ·) =
      (text.foldl cutChar ([], last)).1 ++ [(text.foldl cutChar ([], last)).2] := by
    intro text
    induction text with
    | nil => intro last; simp
    | cons c cs ih =>
        intro last
        rw [List.splitOn_cons_eq_if_modifyHead, List.foldl_cons]
        by_cases hc : c = '\x1e'
        · have hcut : cutChar ([], last) c = ([last], []) := if_pos hc
          have hrest := ih []
          rw [show (([] : List Char) ++ ·) = id from rfl, List.modifyHead_id, id] at hrest
          rw [if_pos (beq_iff_eq.mpr hc), hcut, foldl_cutChar, List.modifyHead_cons, List.append_nil, hrest]
          rfl
        · have hcut : cutChar ([], last) c = ([], last ++ [c]) := if_neg hc
          have hhead : (last ++ ·) ∘ List.cons c = (last ++ [c] ++ ·) := by
            funext rest
            simp
          rw [if_neg (by simpa using hc), hcut, List.modifyHead_modifyHead, hhead]
          exact ih (last ++ [c])
  have hcut := hgo text []
  cases hsplit : text.splitOn '\x1e' with
  | nil => exact absurd hsplit (List.splitOn_ne_nil _ _)
  | cons first rest =>
      rw [hsplit] at hcut
      exact hcut

end

/-! ## What the parser class keeps

The parser class agrees with the position on the excluded elements and on the headings. Its level of examples may
outlast the section, never the other way round, and while it lasts the class adds nothing to its last block. -/

def ReadmeText.text (t : ReadmeText) : List Char := t.parts.flatMap String.toList

/-- The blocks that are kept under this level are blocks of the text outside, but for empty ones. -/
structure Kept (level : Option Nat) (kept outside : List Char) : Prop where
  done : ∀ b ∈ (cut kept).1, b ≠ [] → b ∈ (cut outside).1
  last : (cut kept).2 = if level.isNone then (cut outside).2 else []

section
variable {level : Option Nat} {l : Nat} {kept outside : List Char}

/-- A separator finishes both last blocks, and the level may change with it. -/
theorem Kept.separated (h : Kept level kept outside) (level' : Option Nat) :
    Kept level' (kept ++ separator.toList) (outside ++ separator.toList) := by
  have hcut : ∀ text, cut (text ++ separator.toList) = ((cut text).1 ++ [(cut text).2], []) := by
    intro text
    rw [cut_append, show separator.toList = ['\x1e'] by decide]
    show cutChar (cut text) '\x1e' = _
    exact if_pos rfl
  refine ⟨fun b hb hne => ?_, ?_⟩
  · rw [hcut] at hb ⊢
    rcases List.mem_append.mp hb with hb | hb
    · exact List.mem_append_left _ (h.done b hb hne)
    · obtain rfl := List.mem_singleton.mp hb
      refine List.mem_append_right _ (List.mem_singleton.mpr ?_)
      have hlast := h.last
      split at hlast
      · exact hlast
      · exact absurd hlast hne
  · rw [hcut, hcut]
    simp

/-- Text that is kept. -/
theorem Kept.both (h : Kept none kept outside) (more : List Char) : Kept none (kept ++ more) (outside ++ more) := by
  have hlast : (cut kept).2 = (cut outside).2 := h.last
  have hcut : ∀ text, cut (text ++ more) =
      ((cut text).1 ++ (more.foldl cutChar ([], (cut text).2)).1, (more.foldl cutChar ([], (cut text).2)).2) := by
    intro text
    rw [cut_append, foldl_cutChar]
  refine ⟨fun b hb hne => ?_, ?_⟩
  · rw [hcut] at hb ⊢
    rcases List.mem_append.mp hb with hb | hb
    · exact List.mem_append_left _ (h.done b hb hne)
    · exact List.mem_append_right _ (hlast ▸ hb)
  · rw [hcut, hcut, hlast]
    rfl

/-- Text outside that is not kept. -/
theorem Kept.dropped (h : Kept (some l) kept outside) (more : List Char) : Kept (some l) kept (outside ++ more) := by
  refine ⟨fun b hb hne => ?_, h.last⟩
  rw [cut_append, foldl_cutChar]
  exact List.mem_append_left _ (h.done b hb hne)

end

/-- The parser class after the calls that lead to a position, and the text outside before it. -/
structure Follows (t : ReadmeText) (p : Standing) (outside : List Char) : Prop where
  elements : p.elements = t.omitted
  heading : p.heading = t.heading.map fun name => (name, t.headingParts)
  isHeading : ∀ name, t.heading = some name → ∃ level, headingLevel name = some level
  level : ∀ a, p.examples = some a → ∃ l, t.exampleHeadingLevel = some l ∧ l ≤ a
  below : ∀ name level a, t.heading = some name → headingLevel name = some level → p.examples = some a → a < level
  kept : Kept t.exampleHeadingLevel t.text outside

theorem headingLevel_mem {tag : String} {level : Nat} (h : headingLevel tag = some level) :
    tag ∈ blocks ∧ tag ∉ omits := by
  have hmem : tag ∈ ["h1", "h2", "h3", "h4", "h5", "h6"] := by
    obtain ⟨k, hk, -⟩ := Option.map_eq_some_iff.mp h
    exact List.isSome_idxOf?.mp (by rw [hk]; rfl)
  have hall : ∀ tag ∈ ["h1", "h2", "h3", "h4", "h5", "h6"], tag ∈ blocks ∧ tag ∉ omits := by decide
  exact hall tag hmem

section
variable {u : Unicode} {t : ReadmeText} {p : Standing} {outside : List Char} {tag text : String}

theorem follows_start : Follows ReadmeText.init Standing.start [] := by
  refine ⟨rfl, rfl, fun _ h => ?_, fun _ h => ?_, fun _ _ _ h => ?_, ⟨fun b hb => ?_, rfl⟩⟩
  · exact absurd h (by simp [ReadmeText.init])
  · exact absurd h (by simp [Standing.start])
  · exact absurd h (by simp [ReadmeText.init])
  · exact absurd hb (by simp [ReadmeText.text, ReadmeText.init, cut])

theorem text_append (t : ReadmeText) (part : String) :
    (t.parts ++ [part]).flatMap String.toList = t.text ++ part.toList := by
  rw [List.flatMap_append, List.flatMap_singleton]
  rfl

/-- A start tag. The start of a heading ends sections for the position, and for the class only its end does. -/
theorem follows_starttag (h : Follows t p outside) :
    Follows (handleStarttag t tag) (p.next u (.starttag tag)) (outside ++ p.text (.starttag tag)) := by
  have hseparated := h.kept.separated t.exampleHeadingLevel
  rw [← text_append t separator] at hseparated
  unfold handleStarttag Standing.next Standing.text
  dsimp only
  rw [h.elements]
  by_cases homitted : t.omitted = []
  -- outside excluded elements a heading starts, an element is excluded or a block separates
  · have hopen : ¬ (!t.omitted.isEmpty) = true := by simp [homitted]
    rw [if_neg hopen, if_pos homitted]
    cases hlevel : headingLevel tag with
    | some level =>
        -- a heading: the class remembers it, the position ends the sections that it closes
        obtain ⟨hblock, homit⟩ := headingLevel_mem hlevel
        have hpiece : t.omitted = [] ∧ (tag ∈ omits ∨ tag ∈ blocks) := ⟨homitted, .inr hblock⟩
        rw [if_pos Option.isSome_some, if_neg homit, if_pos hblock, if_pos hpiece]
        refine ⟨rfl, rfl, ?_, ?_, ?_, hseparated⟩
        · rintro name hname
          obtain rfl := Option.some.inj hname
          exact ⟨level, hlevel⟩
        · intro a ha
          exact h.level a (Option.filter_eq_some_iff.mp ha).1
        · intro name level' a hname hlevel' ha
          obtain rfl := Option.some.inj hname
          obtain rfl := Option.some.inj (hlevel.symm.trans hlevel')
          exact of_decide_eq_true (Option.filter_eq_some_iff.mp ha).2
    | none =>
        rw [if_neg (by simp)]
        by_cases homit : tag ∈ omits
        · have hpiece : t.omitted = [] ∧ (tag ∈ omits ∨ tag ∈ blocks) := ⟨homitted, .inl homit⟩
          rw [if_pos homit, if_pos homit, if_pos hpiece]
          exact ⟨rfl, h.heading, h.isHeading, h.level, h.below, hseparated⟩
        · rw [if_neg homit, if_neg homit]
          by_cases hblock : tag ∈ blocks
          · have hpiece : t.omitted = [] ∧ (tag ∈ omits ∨ tag ∈ blocks) := ⟨homitted, .inr hblock⟩
            rw [if_pos hblock, if_pos hpiece]
            exact ⟨h.elements, h.heading, h.isHeading, h.level, h.below, hseparated⟩
          · rw [if_neg hblock, if_neg (by simp [homit, hblock]), List.append_nil]
            exact h
  · -- inside an excluded element only further excluded elements count
    have hclosed : (!t.omitted.isEmpty) = true := by simp [homitted]
    have hpiece : ¬ (t.omitted = [] ∧ (tag ∈ omits ∨ tag ∈ blocks)) := fun hc => homitted hc.1
    rw [if_pos hclosed, if_neg homitted, if_neg hpiece, List.append_nil]
    by_cases homit : tag ∈ omits
    · rw [if_pos homit, if_pos homit]
      exact ⟨rfl, h.heading, h.isHeading, h.level, h.below, h.kept⟩
    · rw [if_neg homit, if_neg homit]
      exact h

/-- The level of examples after a heading lasts at least as long as the section it stands for. -/
theorem exampleLevel_lasts (h : Follows t p outside) {level : Nat} (hheading : t.heading = some tag)
    (hlevel : headingLevel tag = some level) {a : Nat}
    (ha : (if announcesExamples u t.headingParts then some (p.examples.getD level) else p.examples) = some a) :
    ∃ l, exampleLevel u t level = some l ∧ l ≤ a := by
  unfold announcesExamples at ha
  unfold exampleLevel
  by_cases htitle : Regex.search (exampleTitle u) (normalise u (t.headingParts.flatMap String.toList)) = true
  · rw [if_pos htitle] at ha ⊢
    refine ⟨_, rfl, ?_⟩
    cases hexamples : p.examples with
    | none =>
        rw [hexamples] at ha
        obtain rfl : level = a := Option.some.inj ha
        exact Nat.min_le_right _ _
    | some b =>
        rw [hexamples] at ha
        obtain rfl : b = a := Option.some.inj ha
        obtain ⟨l, hl, hle⟩ := h.level b hexamples
        rw [hl]
        exact Nat.le_trans (Nat.min_le_left _ _) hle
  · rw [if_neg htitle] at ha ⊢
    -- the heading is below the section it stands in, so it does not end it
    obtain ⟨l, hl, hle⟩ := h.level a ha
    have hbelow := h.below tag level a hheading hlevel ha
    rw [if_neg]
    · exact ⟨l, hl, hle⟩
    · rw [hl]
      simp only [Option.any_some, decide_eq_true_eq]
      omega

/-- A separator behind a block, or nothing behind another element. -/
theorem follows_block (h : Follows t p outside) (helements : t.omitted = []) :
    Follows (if tag ∈ blocks then { t with parts := t.parts ++ [separator] } else t) p
      (outside ++ p.text (.endtag tag)) := by
  have hseparated := h.kept.separated t.exampleHeadingLevel
  rw [← text_append t separator] at hseparated
  unfold Standing.text
  by_cases hblock : tag ∈ blocks
  · rw [if_pos hblock]
    dsimp only
    rw [if_pos ⟨h.elements.trans helements, hblock⟩]
    exact ⟨h.elements, h.heading, h.isHeading, h.level, h.below, hseparated⟩
  · rw [if_neg hblock]
    dsimp only
    rw [if_neg fun hc => hblock hc.2, List.append_nil]
    exact h

/-- The end of the heading: the title is known, and the level of the class follows the section. -/
theorem follows_heading (h : Follows t p outside) (hheading : t.heading = some tag) {level : Nat}
    (hlevel : headingLevel tag = some level) :
    Follows
      { t with
        parts := t.parts ++ [separator]
        exampleHeadingLevel := exampleLevel u t level
        heading := none
        headingParts := [] }
      { p with
        heading := none
        examples := if announcesExamples u t.headingParts then some (p.examples.getD level) else p.examples }
      (outside ++ separator.toList) := by
  have hseparated := h.kept.separated (exampleLevel u t level)
  rw [← text_append t separator] at hseparated
  refine ⟨h.elements, rfl, ?_, ?_, ?_, hseparated⟩
  · intro _ hname
    exact absurd hname (by simp)
  · intro a ha
    exact exampleLevel_lasts h hheading hlevel ha
  · intro _ _ _ hname
    exact absurd hname (by simp)

/-- An end tag. -/
theorem follows_endtag (h : Follows t p outside) :
    Follows (handleEndtag u t tag) (p.next u (.endtag tag)) (outside ++ p.text (.endtag tag)) := by
  obtain ⟨parts, omitted, heading, headingParts, examplesOf⟩ := t
  obtain ⟨elements, standing, examples⟩ := p
  obtain rfl : elements = omitted := h.elements
  obtain rfl : standing = heading.map fun name => (name, headingParts) := h.heading
  unfold handleEndtag Standing.next
  cases elements with
  | cons innermost around =>
      -- inside an excluded element only its own end counts
      have hpiece : ¬ (innermost :: around = [] ∧ tag ∈ blocks) := fun hc => absurd hc.1 (List.cons_ne_nil _ _)
      dsimp only [Standing.text]
      rw [if_neg hpiece, List.append_nil]
      by_cases hsame : tag = innermost
      · rw [if_pos hsame, if_pos (beq_iff_eq.mpr hsame)]
        exact ⟨rfl, rfl, h.isHeading, h.level, h.below, h.kept⟩
      · rw [if_neg hsame, if_neg fun hc => hsame (beq_iff_eq.mp hc)]
        exact h
  | nil =>
      cases heading with
      | none => exact follows_block h rfl
      | some name =>
          by_cases hsame : tag = name
          -- the end of the open heading: its title decides whether a section of examples begins
          · subst hsame
            obtain ⟨level, hlevel⟩ := h.isHeading tag rfl
            have hblock := (headingLevel_mem hlevel).1
            have hpiece : ([] : List String) = [] ∧ tag ∈ blocks := ⟨rfl, hblock⟩
            have hsame : (some tag == some tag) = true := beq_iff_eq.mpr rfl
            dsimp only [Standing.text, Option.map_some]
            rw [if_pos hsame, if_pos rfl, if_pos hblock, if_pos hpiece, hlevel]
            exact follows_heading h rfl hlevel
          · dsimp only [Option.map_some]
            rw [if_neg hsame, if_neg fun hc => hsame (Option.some.inj (beq_iff_eq.mp hc))]
            exact follows_block h rfl

/-- Text is added to the title of the heading it stands in. -/
theorem follows_title (text : String) (h : Follows t p outside) :
    Follows (if t.heading.isSome then { t with headingParts := t.headingParts ++ [text] } else t)
      { p with heading := p.heading.map fun h => (h.1, h.2 ++ [text]) } outside := by
  obtain ⟨parts, omitted, heading, headingParts, level⟩ := t
  cases heading with
  | none => exact ⟨h.elements, by rw [h.heading]; rfl, h.isHeading, h.level, h.below, h.kept⟩
  | some name => exact ⟨h.elements, by rw [h.heading]; rfl, h.isHeading, h.level, h.below, h.kept⟩

/-- Text. The class leaves out what the position does, and more when its level outlasts the section. -/
theorem follows_data (h : Follows t p outside) :
    Follows (handleData t text) (p.next u (.data text)) (outside ++ p.text (.data text)) := by
  have htitle := follows_title text h
  unfold handleData Standing.next Standing.text Standing.outside
  dsimp only
  by_cases homitted : t.omitted = []
  · have hopen : ¬ (!t.omitted.isEmpty) = true := by simp [homitted]
    rw [if_neg hopen, if_pos (h.elements.trans homitted)]
    generalize (if t.heading.isSome = true then { t with headingParts := t.headingParts ++ [text] } else t) = t'
      at htitle ⊢
    have hkept := htitle.kept
    cases hlevel : t'.exampleHeadingLevel with
    | none =>
        have hexamples : p.examples = none := Option.eq_none_iff_forall_ne_some.mpr fun a ha => by
          obtain ⟨l, hl, -⟩ := htitle.level a ha
          exact absurd (hlevel.symm.trans hl) (by simp)
        rw [hlevel] at hkept
        have hboth := hkept.both text.toList
        rw [← text_append t' text] at hboth
        rw [if_pos Option.isNone_none, if_pos (by simp [h.elements, homitted, hexamples])]
        exact ⟨htitle.elements, htitle.heading, htitle.isHeading,
          fun a ha => absurd (hexamples.symm.trans ha) (by simp), htitle.below, hboth⟩
    | some l =>
        rw [hlevel] at hkept
        rw [if_neg (by simp)]
        split
        · have hdropped := hkept.dropped text.toList
          rw [← hlevel] at hdropped
          exact ⟨htitle.elements, htitle.heading, htitle.isHeading, htitle.level, htitle.below, hdropped⟩
        · rw [List.append_nil]
          exact htitle
  · have hclosed : (!t.omitted.isEmpty) = true := by simp [homitted]
    rw [if_pos hclosed, if_neg (by simp [h.elements, homitted]), if_neg (by simp [h.elements, homitted]),
      List.append_nil]
    exact h

/-- **Step lemma.** A call keeps the class behind the position. -/
theorem follows_next (h : Follows t p outside) (e : Event) :
    Follows (handle u t e) (p.next u e) (outside ++ p.text e) := by
  cases e with
  | starttag tag => exact follows_starttag h
  | endtag tag => exact follows_endtag h
  | data text => exact follows_data h

/-- **Run lemma.** So do the calls of a whole document. -/
theorem follows_feed (events : List Event) : ∀ {t : ReadmeText} {p : Standing} {outside : List Char},
    Follows t p outside →
      ∃ level, Kept level (events.foldl (handle u) t).text (outside ++ outsideText u p events) := by
  induction events with
  | nil =>
      intro t p outside h
      exact ⟨_, (List.append_nil outside).symm ▸ h.kept⟩
  | cons e es ih =>
      intro t p outside h
      rw [List.foldl_cons, outsideText, ← List.append_assoc]
      exact ih (follows_next h e)

/-- The sentences the loop of `_extract_requirement` goes over are those of the text the class keeps. -/
theorem sentences_eq (events : List Event) : sentences u events = sentencesOf u (feed u events).text := rfl

/-- **What the parser class keeps stands outside the examples**: every sentence but the empty one. -/
theorem kept_outside {events : List Event} {s : List Char} (hs : s ∈ sentences u events) (hne : s ≠ []) :
    s ∈ outsideSentences u events := by
  obtain ⟨level, hkept⟩ := follows_feed (u := u) events follows_start
  rw [sentences_eq, sentencesOf, splitOn_eq_cut] at hs
  obtain ⟨block, hblock, hmem⟩ := List.mem_flatMap.mp hs
  have hfull : block ≠ [] := by
    rintro rfl
    exact hne (List.mem_singleton.mp hmem)
  refine List.mem_flatMap.mpr ⟨block, ?_, hmem⟩
  rw [splitOn_eq_cut]
  rcases List.mem_append.mp hblock with hdone | hlast
  · exact List.mem_append_left _ (hkept.done block hdone hfull)
  · obtain rfl := List.mem_singleton.mp hlast
    have hlast := hkept.last
    split at hlast
    · exact List.mem_append_right _ (List.mem_singleton.mpr hlast)
    · exact absurd hlast hfull

end

end OraclePatching.Hints
