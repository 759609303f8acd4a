import OraclePatching.Hints.Outside

/-!
# `Correctness.RequirementExtraction` — when the OPatch requirement taken from a README is the one it states

The loop gives up when one sentence is unclear, or two sentences state different versions, so that a requirement cannot
hide behind another. Two kinds of sentences never come to be judged. One of more than 400 characters is passed over
before it is asked whether it is clear. And the heading that ends a section of examples is not in the text the loop
reads: its text is dropped with the examples, and what the section after it says is read without it. The version that
is returned is conservative exactly when no such sentence speaks against it.
-/

namespace OraclePatching.Hints

variable (u : Unicode) {events : List Event} {v : List Char} {s : List Char}

/-! ## What is promised

The promise is about the text of the README that stands outside excluded elements and sections of examples
(`outsideSentences`), whether or not the code reads it. -/

/-- The sentence speaks of a requirement: it mentions OPatch, a word of requirement and a dotted version, and is not
    labelled as an example, a rollback or a previous release. -/
def Requires (sentence : List Char) : Prop := mentions u sentence = true ∧ excluded u sentence = false

/-- A recognised sentence states the version, and every sentence that speaks of a requirement is recognised and states
    it too. -/
structure Conservative (events : List Event) (v : List Char) : Prop where
  stated : ∃ s ∈ outsideSentences u events, excluded u s = false ∧ requirement u s = some v
  all : ∀ s ∈ outsideSentences u events, Requires u s → requirement u s = some v

/-! ## What is looked at -/

/-- The loop looks at the sentence. -/
def Looked (s : List Char) : Prop := s ≠ [] ∧ s.length ≤ 400 ∧ excluded u s = false

/-- The sentences of at most 400 characters call for the version. -/
structure Called (events : List Event) (v : List Char) : Prop where
  stated : ∃ s ∈ sentences u events, Looked u s ∧ requirement u s = some v
  same : ∀ s ∈ sentences u events, Looked u s → ∀ w, requirement u s = some w → w = v
  clear : ∀ s ∈ sentences u events, Looked u s → mentions u s = true → requirement u s ≠ none

/-- The sentence is not judged: it is too long, or it was dropped with the examples before it. -/
def Unheard (events : List Event) (s : List Char) : Prop := 400 < s.length ∨ s ∉ sentences u events

/-- No sentence that speaks of a requirement without being judged says otherwise. -/
def UnheardAgree (events : List Event) : Prop :=
  ∀ v, Called u events v → ∀ s ∈ outsideSentences u events, Unheard u events s → Requires u s → requirement u s = some v

/-! ## The loop -/

variable {u} {r : Reading} {ss : List (List Char)}

theorem not_looked (h : (s.isEmpty || decide (400 < s.length) || excluded u s) = true) : ¬ Looked u s := by
  rintro ⟨hne, hlen, hexcluded⟩
  simp only [Bool.or_eq_true, List.isEmpty_iff, decide_eq_true_eq, hexcluded, Bool.false_eq_true, or_false] at h
  rcases h with h | h
  · exact hne h
  · exact absurd h (Nat.not_lt.mpr hlen)

theorem looked_of_not (h : ¬ (s.isEmpty || decide (400 < s.length) || excluded u s) = true) : Looked u s := by
  simp only [Bool.or_eq_true, List.isEmpty_iff, decide_eq_true_eq, not_or, Bool.not_eq_true] at h
  exact ⟨h.1.1, Nat.not_lt.mp h.1.2, h.2⟩

theorem mem_readSentence {m : List Char × List Char} : m ∈ (readSentence u r s).matched ↔
    m ∈ r.matched ∨ m.2 = s ∧ Looked u m.2 ∧ requirement u m.2 = some m.1 := by
  unfold readSentence
  split
  · rename_i hpassed
    constructor
    · exact .inl
    · rintro (h | ⟨rfl, hlooked, -⟩)
      · exact h
      · exact absurd hlooked (not_looked hpassed)
  · rename_i hpassed
    have hlooked := looked_of_not hpassed
    split
    · rename_i w hw
      rw [List.mem_append, List.mem_singleton]
      constructor
      · rintro (h | rfl)
        · exact .inl h
        · exact .inr ⟨rfl, hlooked, hw⟩
      · rintro (h | ⟨hs, -, hreq⟩)
        · exact .inl h
        · refine .inr (Prod.ext ?_ hs)
          rw [hs, hw] at hreq
          exact (Option.some.inj hreq).symm
    · rename_i hnone
      have hmatched : (if mentions u s then ({ r with unclear := true } : Reading) else r).matched = r.matched := by
        split <;> rfl
      rw [hmatched]
      constructor
      · exact .inl
      · rintro (h | ⟨hs, -, hreq⟩)
        · exact h
        · rw [hs, hnone] at hreq
          exact absurd hreq (by simp)

/-- What the loop has collected: a match for every recognised sentence, in order. -/
theorem foldl_matched (m : List Char × List Char) : m ∈ (ss.foldl (readSentence u) r).matched ↔
    m ∈ r.matched ∨ m.2 ∈ ss ∧ Looked u m.2 ∧ requirement u m.2 = some m.1 := by
  induction ss generalizing r with
  | nil => simp
  | cons s ss ih =>
      rw [List.foldl_cons, ih, mem_readSentence, List.mem_cons]
      constructor
      · rintro ((h | ⟨hs, hrest⟩) | ⟨hs, hrest⟩)
        · exact .inl h
        · exact .inr ⟨.inl hs, hrest⟩
        · exact .inr ⟨.inr hs, hrest⟩
      · rintro (h | ⟨hs | hs, hrest⟩)
        · exact .inl (.inl h)
        · exact .inl (.inr ⟨hs, hrest⟩)
        · exact .inr ⟨hs, hrest⟩

theorem readSentence_unclear : (readSentence u r s).unclear = true ↔
    r.unclear = true ∨ Looked u s ∧ mentions u s = true ∧ requirement u s = none := by
  unfold readSentence
  split
  · rename_i hpassed
    constructor
    · exact .inl
    · rintro (h | ⟨hlooked, -⟩)
      · exact h
      · exact absurd hlooked (not_looked hpassed)
  · rename_i hpassed
    have hlooked := looked_of_not hpassed
    split
    · rename_i w hw
      constructor
      · exact .inl
      · rintro (h | ⟨-, -, hnone⟩)
        · exact h
        · rw [hw] at hnone
          exact absurd hnone (by simp)
    · rename_i hnone
      split
      · rename_i hmentions
        exact ⟨fun _ => .inr ⟨hlooked, hmentions, hnone⟩, fun _ => rfl⟩
      · rename_i hmentions
        constructor
        · exact .inl
        · rintro (h | ⟨-, h, -⟩)
          · exact h
          · exact absurd h hmentions

/-- Whether a sentence was unclear. -/
theorem foldl_unclear : (ss.foldl (readSentence u) r).unclear = true ↔
    r.unclear = true ∨ ∃ s ∈ ss, Looked u s ∧ mentions u s = true ∧ requirement u s = none := by
  induction ss generalizing r with
  | nil => simp
  | cons s ss ih =>
      rw [List.foldl_cons, ih]
      rw [readSentence_unclear, or_assoc]
      simp only [List.mem_cons, exists_eq_or_imp]

/-- **The loop.** A version is returned exactly when the sentences that are looked at call for it. -/
theorem extract_iff : (extractRequirement u events).version = some v ↔ Called u events v := by
  -- what the fold over the sentences leaves: the versions read, and whether one could not be read
  have hmatched := @foldl_matched u ⟨[], false⟩ (sentences u events)
  have hunclear := @foldl_unclear u ⟨[], false⟩ (sentences u events)
  unfold extractRequirement
  dsimp only
  generalize (sentences u events).foldl (readSentence u) ⟨[], false⟩ = r at hmatched hunclear
  simp only [List.not_mem_nil, false_or, Bool.false_eq_true] at hmatched hunclear
  have hclear : r.unclear = false ↔
      ∀ s ∈ sentences u events, Looked u s → mentions u s = true → requirement u s ≠ none := by
    rw [← Bool.not_eq_true, hunclear]
    simp only [not_exists, not_and]
  split
  -- a sentence that is unclear: nothing is returned, and nothing is called for
  · rename_i hr
    constructor
    · intro h
      exact absurd h (by simp)
    · intro h
      exact absurd (hclear.mpr h.clear) (by simp [hr])
  · rename_i hr
    split
    -- no sentence states a version
    · rename_i hnil
      constructor
      · intro h
        exact absurd h (by simp)
      · intro h
        obtain ⟨s, hs, hlooked, hreq⟩ := h.stated
        have hmem := (hmatched (v, s)).mpr ⟨hs, hlooked, hreq⟩
        rw [hnil] at hmem
        exact absurd hmem List.not_mem_nil
    · rename_i w sentence rest hcons
      have hfirst := (hmatched (w, sentence)).mp (by rw [hcons]; exact List.mem_cons_self)
      split
      -- two sentences disagree
      · rename_i hother
        obtain ⟨m, hm, hne⟩ := List.any_eq_true.mp hother
        have hmem := (hmatched m).mp (by rw [hcons]; exact List.mem_cons_of_mem _ hm)
        constructor
        · intro h
          exact absurd h (by simp)
        · intro h
          have hw := h.same _ hfirst.1 hfirst.2.1 w hfirst.2.2
          have hmv := h.same _ hmem.1 hmem.2.1 m.1 hmem.2.2
          rw [hw, hmv] at hne
          exact absurd hne (by simp)
      -- they all state the first one's version
      · rename_i hother
        have hsame : ∀ m ∈ r.matched, m.1 = w := by
          intro m hm
          rw [hcons] at hm
          rcases List.mem_cons.mp hm with rfl | hm
          · rfl
          · by_contra hne
            exact hother (List.any_eq_true.mpr ⟨m, hm, by simpa using hne⟩)
        constructor
        · intro h
          obtain rfl : w = v := Option.some.inj h
          refine ⟨⟨sentence, hfirst.1, hfirst.2⟩, fun s hs hlooked w' hreq => ?_, hclear.mp (eq_false_of_ne_true hr)⟩
          exact hsame (w', s) ((hmatched (w', s)).mpr ⟨hs, hlooked, hreq⟩)
        · intro h
          exact congrArg some (h.same _ hfirst.1 hfirst.2.1 w hfirst.2.2)

/-- What a recognised sentence is said to state stands in it. -/
theorem requirement_stands (h : requirement u s = some v) : v <:+: s := by
  obtain ⟨pattern, -, hmatch⟩ := List.exists_of_findSome?_eq_some h
  obtain ⟨y, hy, rfl⟩ := Option.map_eq_some_iff.mp hmatch
  cases hcapture : y.capture with
  | none => exact List.nil_infix
  | some w => exact Regex.fullmatch_capture hy hcapture

/-- **Evidence.** A version that is returned stands in the sentence that is returned with it. -/
theorem evidence_stands (h : (extractRequirement u events).version = some v) :
    ∃ s ∈ sentences u events, (extractRequirement u events).evidence = some s ∧ v <:+: s := by
  have hmatched := @foldl_matched u ⟨[], false⟩ (sentences u events)
  unfold extractRequirement at h ⊢
  dsimp only at h ⊢
  generalize (sentences u events).foldl (readSentence u) ⟨[], false⟩ = r at hmatched h ⊢
  split at h
  · exact absurd h (by simp)
  · rename_i hr
    rw [if_neg hr]
    split at h
    · exact absurd h (by simp)
    · rename_i w sentence rest hcons
      split at h
      · exact absurd h (by simp)
      · rename_i hsame
        obtain rfl : w = v := Option.some.inj h
        have hfirst := (hmatched (w, sentence)).mp (by rw [hcons]; exact List.mem_cons_self)
        rcases hfirst with hnil | ⟨hs, -, hreq⟩
        · exact absurd hnil List.not_mem_nil
        · rw [if_neg hsame]
          exact ⟨sentence, hs, rfl, requirement_stands hreq⟩

/-! ## Sentences that are not judged -/

/-- Nothing is mentioned in an empty sentence. -/
theorem mentions_nil : mentions u [] = false := by
  simp [mentions, wordOf, Regex.search, Regex.searchFrom, Regex.chain, Regex.run, Regex.atEdge]

/-- Python's character classes on ASCII; nothing else is a letter, a digit or a space. -/
def ascii : Unicode where
  space c := c.isWhitespace || c.val.toNat ∈ [11, 12, 28, 29, 30, 31]
  digit c := c.isDigit
  word c := c.isAlphanum || c == '_'
  ascii_space _ _ := rfl
  ascii_digit _ _ := rfl
  ascii_word _ _ := rfl

/-- A requirement, a section of examples, and the heading behind it with a later requirement. -/
def labReadme : List Event :=
  [.starttag "p", .data "You must use OPatch version 12.2.0.1.49 or later to apply this patch.", .endtag "p",
    .starttag "h2", .data "Example", .endtag "h2", .starttag "p", .data "x", .endtag "p",
    .starttag "h2", .data labHeading, .endtag "h2"]
where
  labHeading : String := "The minimum OPatch version is 12.2.0.1.50."

/-- What the patterns make of the heading. -/
theorem labHeading_requires : labReadme.labHeading.toList ∈ outsideSentences ascii labReadme ∧
    Requires ascii labReadme.labHeading.toList ∧
      requirement ascii labReadme.labHeading.toList = some "12.2.0.1.50".toList := by
  unfold Requires
  decide +kernel

end OraclePatching.Hints
