import Mathlib.Data.List.Basic

/-!
# `Lib.Characters` — the characters of a text, read off its bytes

`String.toList` decodes a text from one position to the next. A text of ASCII characters has one byte for each of
them, so it can be read off its bytes; `characters` does that where it can and decodes the other texts. It is
`toList` (`characters_eq`), and definitions that have to be evaluated on paths and digests are written with it.
-/

namespace String

/-! ## One character -/

section
variable {c : Char}

/-- The first byte of an encoding says how many follow; it is ASCII only if none does. -/
theorem not_ascii {n : Nat} (h : 128 ≤ n) (hlt : n < 256) : ¬ UInt8.ofNat n < 128 := by
  rw [UInt8.lt_iff_toNat_lt, UInt8.toNat_ofNat', Nat.mod_eq_of_lt hlt]
  exact Nat.not_lt.mpr h

theorem utf8EncodeChar_of_ascii (h : ∀ b ∈ utf8EncodeChar c, b < 128) :
    utf8EncodeChar c = [UInt8.ofNat c.val.toNat] ∧ c.val.toNat < 128 := by
  by_cases hone : c.val.toNat ≤ 0x7f
  · exact ⟨if_pos hone, by omega⟩
  · -- two, three or four bytes
    have hmany : ∃ b ∈ utf8EncodeChar c, ¬ b < 128 := by
      unfold utf8EncodeChar
      dsimp only
      rw [if_neg hone]
      split
      · exact ⟨_, List.mem_cons_self, not_ascii (by omega) (by omega)⟩
      · split
        · exact ⟨_, List.mem_cons_self, not_ascii (by omega) (by omega)⟩
        · exact ⟨_, List.mem_cons_self, not_ascii (by omega) (by omega)⟩
    obtain ⟨b, hb, hnot⟩ := hmany
    exact absurd (h b hb) hnot

theorem ofNat_byte (h : c.val.toNat < 128) : Char.ofNat (UInt8.ofNat c.val.toNat).toNat = c := by
  rw [UInt8.toNat_ofNat', Nat.mod_eq_of_lt (by omega)]
  exact Char.ofNat_toNat c

end

/-! ## Texts -/

/-- The characters of a text. -/
def characters (s : String) : List Char :=
  let bytes := s.toByteArray.data.toList
  if bytes.all (· < 128) then bytes.map fun b => Char.ofNat b.toNat else s.toList

theorem map_bytes {cs : List Char} (h : ∀ b ∈ cs.flatMap utf8EncodeChar, b < 128) :
    (cs.flatMap utf8EncodeChar).map (fun b => Char.ofNat b.toNat) = cs := by
  induction cs with
  | nil => rfl
  | cons c cs ih =>
      rw [List.flatMap_cons] at h ⊢
      obtain ⟨hone, hlt⟩ := utf8EncodeChar_of_ascii fun b hb => h b (List.mem_append_left _ hb)
      rw [List.map_append, ih fun b hb => h b (List.mem_append_right _ hb), hone, List.map_singleton, ofNat_byte hlt]
      rfl

/-- **The characters of a text are its list of characters.** -/
@[simp] theorem characters_eq (s : String) : s.characters = s.toList := by
  have hbytes : s.toByteArray.data.toList = s.toList.flatMap utf8EncodeChar := by
    conv_lhs => rw [← String.ofList_toList (s := s)]
    rw [String.toByteArray_ofList, List.utf8Encode, List.data_toByteArray]
  unfold characters
  dsimp only
  split
  · rename_i hall
    rw [hbytes] at hall ⊢
    refine map_bytes fun b hb => ?_
    exact of_decide_eq_true (List.all_eq_true.mp hall b hb)
  · rfl

end String
