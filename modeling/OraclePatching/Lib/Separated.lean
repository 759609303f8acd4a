import OraclePatching.Lib.Decimal

/-!
# `Lib.Separated` — fields between separators

A text that is put together from fields with a separator after each can be taken apart again, as long as no field
contains the separator. Likewise the last field of a text, when that one does not contain it.

Where the fields may contain the separator, two pairs of fields have the same text only if one first field goes on
with the separator into the other second field. `double_inj_iff` says so for a separator of two equal characters.
-/

namespace Separated

/-- **Separator rule.** The field before the first separator is determined by the text. -/
theorem append_inj {α : Type} {sep : α} {field field' rest rest' : List α} (h : sep ∉ field) (h' : sep ∉ field')
    (heq : field ++ sep :: rest = field' ++ sep :: rest') : field = field' ∧ rest = rest' := by
  induction field generalizing field' with
  | nil =>
      cases field' with
      | nil => exact ⟨rfl, by simpa using heq⟩
      | cons d field' =>
          rw [List.nil_append, List.cons_append, List.cons.injEq] at heq
          exact absurd (heq.1 ▸ List.mem_cons_self) h'
  | cons c field ih =>
      cases field' with
      | nil =>
          rw [List.nil_append, List.cons_append, List.cons.injEq] at heq
          exact absurd (heq.1 ▸ List.mem_cons_self) h
      | cons d field' =>
          rw [List.cons_append, List.cons_append, List.cons.injEq] at heq
          obtain ⟨rfl, heq⟩ := heq
          obtain ⟨h1, h2⟩ := ih (fun hm => h (List.mem_cons_of_mem _ hm)) (fun hm => h' (List.mem_cons_of_mem _ hm)) heq
          exact ⟨by rw [h1], h2⟩

/-- The field after the last separator is determined as well. -/
theorem append_inj_right {α : Type} {sep : α} {field field' rest rest' : List α} (h : sep ∉ field) (h' : sep ∉ field')
    (heq : rest ++ sep :: field = rest' ++ sep :: field') : rest = rest' ∧ field = field' := by
  have hrev := congrArg List.reverse heq
  simp only [List.reverse_append, List.reverse_cons, List.append_assoc, List.singleton_append] at hrev
  obtain ⟨h1, h2⟩ := append_inj (by simpa using h) (by simpa using h') hrev
  exact ⟨List.reverse_injective h2, List.reverse_injective h1⟩

/-- One first field is the other, the separator and more, and the other second field begins with that. -/
def Shifted {α : Type} (sep first second first' second' : List α) : Prop :=
  ∃ middle, first' = first ++ sep ++ middle ∧ second = middle ++ sep ++ second'

/-- **Doubled separator.** Two fields around a doubled character, the second not beginning with it, have one text
    only in the ways a shift allows. -/
theorem double_inj_iff {α : Type} {c : α} {first second first' second' : List α} (h : second.head? ≠ some c)
    (h' : second'.head? ≠ some c) :
    first ++ [c, c] ++ second = first' ++ [c, c] ++ second' ↔ (first = first' ∧ second = second') ∨
      Shifted [c, c] first second first' second' ∨ Shifted [c, c] first' second' first second := by
  -- what the longer first field has beyond the shorter one is nothing, or begins with the whole separator
  have hlonger : ∀ {p t t' x : List α}, t.head? ≠ some c → [c, c] ++ t = x ++ ([c, c] ++ t') →
      (x = [] ∧ t = t') ∨ Shifted [c, c] p t (p ++ x) t' := by
    intro p t t' x ht heq
    match x with
    | [] => exact .inl ⟨rfl, by simpa using heq⟩
    | [d] =>
        simp only [List.cons_append, List.nil_append, List.cons.injEq] at heq
        rw [heq.2.2] at ht
        exact absurd rfl ht
    | d :: e :: s =>
        simp only [List.cons_append, List.nil_append, List.cons.injEq] at heq
        obtain ⟨rfl, rfl, heq⟩ := heq
        exact .inr ⟨s, by simp, by simpa using heq⟩
  rw [List.append_assoc, List.append_assoc, List.append_eq_append_iff]
  constructor
  · rintro (⟨x, rfl, heq⟩ | ⟨x, rfl, heq⟩)
    · rcases hlonger h heq with ⟨rfl, rfl⟩ | hshift
      · exact .inl ⟨by simp, rfl⟩
      · exact .inr (.inl hshift)
    · rcases hlonger h' heq with ⟨rfl, rfl⟩ | hshift
      · exact .inl ⟨by simp, rfl⟩
      · exact .inr (.inr hshift)
  · rintro (⟨rfl, rfl⟩ | ⟨s, rfl, rfl⟩ | ⟨s, rfl, rfl⟩)
    · exact .inl ⟨[], by simp⟩
    · exact .inl ⟨[c, c] ++ s, by simp⟩
    · exact .inr ⟨[c, c] ++ s, by simp⟩

/-- A number that ends a text after a separator can be read back. -/
theorem number_inj {sep : Char} (hsep : sep.isDigit = false) {s s' : String} {m n : Nat}
    (h : s.toList ++ sep :: (toString m).toList = s'.toList ++ sep :: (toString n).toList) : s = s' ∧ m = n := by
  have hdigits : ∀ k : Nat, (toString k).toList = Decimal.padded 0 k := fun k => by simp [Decimal.padded]
  have hnot : ∀ k : Nat, sep ∉ (toString k).toList := by
    intro k hmem
    rw [hdigits] at hmem
    exact absurd (Decimal.isDigit_of_mem_padded hmem) (by simp [hsep])
  obtain ⟨h1, h2⟩ := append_inj_right (hnot m) (hnot n) h
  exact ⟨String.toList_inj.mp h1, Decimal.padded_injective (by rw [← hdigits, ← hdigits, h2])⟩

end Separated
