import Mathlib.Data.List.Basic

/-!
# `Lib.Words` — looking for a word between separators

A shell that keeps a set as `" a b c "` asks for a member with `*" a "*`, a router looks for `/a/` in a path. Both
find the member when the words contain no separator, and then find nothing else: a word between two separators is
one of the words that stand there.
-/

namespace Words

section
variable {α : Type} {sep : α} {word seg rest : List α}

/-- A word that stands before a separator at the front is the front segment. -/
theorem segment_front (hword : sep ∉ word) (hseg : sep ∉ seg) :
    word ++ [sep] <+: seg ++ sep :: rest ↔ word = seg := by
  induction word generalizing seg with
  | nil =>
      cases seg with
      | nil => simp
      | cons c cs =>
          have hc : sep ≠ c := fun h => hseg (List.mem_cons.mpr (.inl h))
          simp [hc]
  | cons w ws ih =>
      have hws : sep ∉ ws := fun h => hword (List.mem_cons_of_mem _ h)
      cases seg with
      | nil =>
          have hw : w ≠ sep := fun h => hword (List.mem_cons.mpr (.inl h.symm))
          simp [hw]
      | cons c cs =>
          have hcs : sep ∉ cs := fun h => hseg (List.mem_cons_of_mem _ h)
          have := ih hws hcs
          simp [this]

/-- A word between two separators starts at the first separator or behind it. -/
theorem infix_segment (hseg : sep ∉ seg) :
    sep :: word ++ [sep] <:+: seg ++ sep :: rest ↔
      word ++ [sep] <+: rest ∨ sep :: word ++ [sep] <:+: rest := by
  induction seg with
  | nil =>
      rw [List.nil_append, List.infix_cons_iff]
      simp
  | cons c cs ih =>
      have hc : sep ≠ c := fun h => hseg (List.mem_cons.mpr (.inl h))
      have hcs : sep ∉ cs := fun h => hseg (List.mem_cons_of_mem _ h)
      rw [show (c :: cs) ++ sep :: rest = c :: (cs ++ sep :: rest) from rfl, List.infix_cons_iff, ih hcs]
      simp [hc]

/-- In front of the first separator there is nothing. -/
theorem infix_head (sep : α) (word rest : List α) :
    sep :: word ++ [sep] <:+: sep :: rest ↔ word ++ [sep] <+: rest ∨ sep :: word ++ [sep] <:+: rest :=
  infix_segment List.not_mem_nil

/-- **A word between two separators is an inner segment**: the first one, or one behind it. -/
theorem infix_segments (hword : sep ∉ word) (hseg : sep ∉ seg) :
    sep :: word ++ [sep] <:+: sep :: (seg ++ sep :: rest) ↔
      word = seg ∨ sep :: word ++ [sep] <:+: sep :: rest := by
  have hfirst := infix_head sep word (seg ++ sep :: rest)
  have hnext := infix_head sep word rest
  rw [hfirst, segment_front hword hseg, infix_segment hseg, hnext]

/-! ## A set kept as a text -/

/-- `" a b c "`. -/
def text (sep : α) : List (List α) → List α
  | [] => [sep]
  | w :: ws => sep :: w ++ text sep ws

theorem text_eq_cons (sep : α) (ws : List (List α)) : ∃ rest, text sep ws = sep :: rest := by
  cases ws with
  | nil => exact ⟨[], rfl⟩
  | cons w ws => exact ⟨w ++ text sep ws, rfl⟩

theorem text_append (ws : List (List α)) (w : List α) : text sep (ws ++ [w]) = text sep ws ++ (w ++ [sep]) := by
  induction ws with
  | nil => rfl
  | cons v vs ih => rw [List.cons_append, text, text, ih, List.append_assoc]

/-- A word of the set is found, whatever the words are. -/
theorem infix_of_mem {ws : List (List α)} (h : word ∈ ws) : sep :: word ++ [sep] <:+: text sep ws := by
  induction ws with
  | nil => exact absurd h List.not_mem_nil
  | cons w ws ih =>
      rcases List.mem_cons.mp h with rfl | h
      · obtain ⟨rest, hrest⟩ := text_eq_cons sep ws
        refine List.IsPrefix.isInfix ⟨rest, ?_⟩
        rw [text, hrest]
        simp
      · exact (ih h).trans (List.suffix_append _ _).isInfix

variable [DecidableEq α]

/-- There is no such word in the last segment. -/
theorem infix_last (hseg : sep ∉ seg) : ¬ sep :: word ++ [sep] <:+: sep :: seg := by
  intro h
  have hslashes : ((sep :: word ++ [sep]).count sep) ≤ (sep :: seg).count sep := h.sublist.count_le sep
  rw [List.count_cons_self, List.count_eq_zero_of_not_mem hseg, List.cons_append, List.count_cons_self,
    List.count_append] at hslashes
  simp at hslashes

/-- **A word is found in the text exactly when it is in the set.** -/
theorem infix_text {ws : List (List α)} (hword : sep ∉ word) (hws : ∀ w ∈ ws, sep ∉ w) :
    sep :: word ++ [sep] <:+: text sep ws ↔ word ∈ ws := by
  induction ws with
  | nil =>
      constructor
      · intro h
        exact absurd h (infix_last List.not_mem_nil)
      · intro h
        exact absurd h List.not_mem_nil
  | cons w ws ih =>
      obtain ⟨rest, hrest⟩ := text_eq_cons sep ws
      have ih := ih fun v hv => hws v (List.mem_cons_of_mem _ hv)
      rw [hrest] at ih
      show sep :: word ++ [sep] <:+: sep :: (w ++ text sep ws) ↔ word ∈ w :: ws
      rw [hrest, infix_segments hword (hws w List.mem_cons_self), ih, List.mem_cons]

end

end Words
