import Mathlib.Data.List.TakeWhile

/-!
# `Lib.Cut` — records kept as delimited text and taken apart with `cut`

A shell that has no records keeps `a|b|c` in one text. `${text%%|*}` takes the first field, `$(cut -d'|' -f2)` the
second and `$(cut -d'|' -f3-)` the rest. `cut` works line by line, and hands a line without a delimiter through whole;
so the record is read back exactly when its last field has no line break. A shell text has no NUL bytes, so all that
`$(…)` does to it is to cut trailing line breaks.
-/

namespace CutText

/-! ## Definitions

A record is one line with two separators in it, and `cut -d'|'` reads its fields. A line without a separator is
printed whole by `cut`, and that is why a line break in a field matters. -/

/-- `$(…)`. -/
def chomp (cs : List Char) : List Char := (cs.reverse.dropWhile (· == '\n')).reverse

/-- `cut -d'|' -f2` on one line. -/
def second (line : List Char) : List Char :=
  match line.splitOn '|' with
  | _ :: f :: _ => f
  | _ => line

/-- `cut -d'|' -f3-` on one line. -/
def fromThird (line : List Char) : List Char :=
  match line.splitOn '|' with
  | _ :: _ :: rest => ['|'].intercalate rest
  | _ => line

def joinLines (lines : List (List Char)) : List Char := ['\n'].intercalate lines

/-- A filter that works line by line. -/
def perLine (f : List Char → List Char) (text : List Char) : List Char := joinLines ((text.splitOn '\n').map f)

/-- `${text%%|*}`. -/
def field1 (text : List Char) : List Char := text.takeWhile (· != '|')

/-- `$(cut -d'|' -f2 <<<"$text")`. -/
def field2 (text : List Char) : List Char := chomp (perLine second text)

/-- `$(cut -d'|' -f3- <<<"$text")`. -/
def field3 (text : List Char) : List Char := chomp (perLine fromThird text)

/-- `"$a|$b|$c"`. -/
def record (a b c : List Char) : List Char := a ++ '|' :: (b ++ '|' :: c)

/-! ## `$(…)` -/

section
variable {a b c cs line : List Char}

theorem chomp_isPrefix (cs : List Char) : chomp cs <+: cs := by
  unfold chomp
  rw [← List.reverse_suffix, List.reverse_reverse]
  exact List.dropWhile_suffix _

theorem chomp_of_no_break (h : '\n' ∉ cs) : chomp cs = cs := by
  unfold chomp
  cases hrev : cs.reverse with
  | nil => rw [List.dropWhile_nil, ← hrev, List.reverse_reverse]
  | cons d ds =>
      have hd : d ≠ '\n' := by
        rintro rfl
        apply h
        rw [← List.mem_reverse, hrev]
        exact List.mem_cons_self
      rw [List.dropWhile_cons_of_neg (by simpa using hd), ← hrev, List.reverse_reverse]

/-- A text that ends in another character is kept. -/
theorem chomp_snoc {d : Char} (hd : d ≠ '\n') : chomp (cs ++ [d]) = cs ++ [d] := by
  unfold chomp
  rw [List.reverse_append, List.reverse_singleton, List.singleton_append,
    List.dropWhile_cons_of_neg (by simpa using hd), List.reverse_cons, List.reverse_reverse]

/-- What `$(…)` returns does not end in a line break. -/
theorem chomp_getLast {d : Char} (h : chomp cs = a ++ [d]) : d ≠ '\n' := by
  unfold chomp at h
  rw [List.reverse_eq_iff, List.reverse_append, List.reverse_singleton, List.singleton_append] at h
  intro hd
  have hhead := List.dropWhile_get_zero_not (· == '\n') cs.reverse (by rw [h]; exact Nat.succ_pos _)
  simp [h, hd] at hhead

/-! ## One line -/

theorem second_record (ha : '|' ∉ a) (hb : '|' ∉ b) : second (record a b c) = b := by
  unfold second record
  rw [List.splitOn_append_cons_self_of_not_mem ha, List.splitOn_append_cons_self_of_not_mem hb]

theorem fromThird_record (ha : '|' ∉ a) (hb : '|' ∉ b) : fromThird (record a b c) = c := by
  unfold fromThird record
  rw [List.splitOn_append_cons_self_of_not_mem ha, List.splitOn_append_cons_self_of_not_mem hb]
  exact List.intercalate_splitOn '|'

/-- A line without a delimiter passes whole. -/
theorem second_whole (h : '|' ∉ line) : second line = line := by
  unfold second
  rw [List.splitOn_eq_singleton h]

/-- A line with a delimiter loses its first field at least. -/
theorem length_fromThird_lt (h : '|' ∈ line) : (fromThird line).length < line.length := by
  obtain ⟨x, y, rfl, hx⟩ := List.eq_append_cons_of_mem h
  by_cases hy : '|' ∈ y
  · obtain ⟨u, v, rfl, hu⟩ := List.eq_append_cons_of_mem hy
    have hv : fromThird (record x u v) = v := fromThird_record hx hu
    show (fromThird (record x u v)).length < (record x u v).length
    rw [hv]
    unfold record
    simp only [List.length_append, List.length_cons]
    omega
  · unfold fromThird
    rw [List.splitOn_append_cons_self_of_not_mem hx, List.splitOn_eq_singleton hy]
    show 0 < (x ++ '|' :: y).length
    simp only [List.length_append, List.length_cons]
    omega

/-- The third field is no longer than the line. -/
theorem length_fromThird_le (line : List Char) : (fromThird line).length ≤ line.length := by
  by_cases h : '|' ∈ line
  · exact Nat.le_of_lt (length_fromThird_lt h)
  · unfold fromThird
    rw [List.splitOn_eq_singleton h]

/-- It has no character that the line has not. -/
theorem second_subset (line : List Char) : second line ⊆ line := by
  by_cases h : '|' ∈ line
  · obtain ⟨x, y, rfl, hx⟩ := List.eq_append_cons_of_mem h
    intro d hd
    by_cases hy : '|' ∈ y
    · obtain ⟨u, v, rfl, hu⟩ := List.eq_append_cons_of_mem hy
      have hsecond : second (record x u v) = u := second_record hx hu
      have hdu : d ∈ u := by
        rw [← hsecond]
        exact hd
      simp [hdu]
    · unfold second at hd
      rw [List.splitOn_append_cons_self_of_not_mem hx, List.splitOn_eq_singleton hy] at hd
      exact List.mem_append_right _ (List.mem_cons_of_mem _ hd)
  · rw [second_whole h]
    exact fun d hd => hd

/-! ## Several lines -/

theorem joinLines_cons {lines : List (List Char)} (hne : lines ≠ []) :
    joinLines (line :: lines) = line ++ '\n' :: joinLines lines := by
  unfold joinLines
  rw [List.intercalate_cons_of_ne_nil hne]
  simp

theorem joinLines_snoc {lines : List (List Char)} (hne : lines ≠ []) :
    joinLines (lines ++ [line]) = joinLines lines ++ '\n' :: line := by
  induction lines with
  | nil => exact absurd rfl hne
  | cons l ls ih =>
      cases ls with
      | nil =>
          show joinLines (l :: [line]) = joinLines [l] ++ '\n' :: line
          rw [joinLines_cons (List.cons_ne_nil _ _)]
          simp [joinLines]
      | cons m ms =>
          rw [List.cons_append, joinLines_cons (by simp), ih (List.cons_ne_nil m ms),
            joinLines_cons (List.cons_ne_nil m ms), List.append_assoc, List.cons_append]

theorem joinLines_splitOn (cs : List Char) : joinLines (cs.splitOn '\n') = cs := List.intercalate_splitOn '\n'

/-- A filter that lengthens no line lengthens no text. -/
theorem length_joinLines_map_le {f : List Char → List Char} (lines : List (List Char))
    (hle : ∀ l ∈ lines, (f l).length ≤ l.length) : (joinLines (lines.map f)).length ≤ (joinLines lines).length := by
  induction lines with
  | nil => exact Nat.le_refl _
  | cons l ls ih =>
      have hl := hle l List.mem_cons_self
      have hls := ih fun m hm => hle m (List.mem_cons_of_mem _ hm)
      cases ls with
      | nil => simpa [joinLines] using hl
      | cons m ms =>
          rw [List.map_cons, joinLines_cons (by simp), joinLines_cons (List.cons_ne_nil m ms)]
          simp only [List.length_append, List.length_cons]
          omega

/-- The parts of a split have no separator in them. -/
theorem not_mem_of_mem_splitOn {d : Char} (h : line ∈ cs.splitOn d) : d ∉ line := by
  induction cs generalizing line with
  | nil =>
      rw [List.splitOn_nil, List.mem_singleton] at h
      rw [h]
      exact List.not_mem_nil
  | cons e es ih =>
      rw [List.splitOn_cons_eq_if_modifyHead] at h
      by_cases he : (e == d) = true
      · rw [if_pos he] at h
        rcases List.mem_cons.mp h with rfl | h
        · exact List.not_mem_nil
        · exact ih h
      · rw [if_neg he] at h
        cases hsplit : es.splitOn d with
        | nil => exact absurd hsplit (List.splitOn_ne_nil d es)
        | cons l ls =>
            rw [hsplit, List.modifyHead_cons] at h
            rw [hsplit] at ih
            rcases List.mem_cons.mp h with rfl | h
            · intro hd
              rcases List.mem_cons.mp hd with rfl | hd
              · exact he (beq_self_eq_true _)
              · exact ih List.mem_cons_self hd
            · exact ih (List.mem_cons_of_mem _ h)

/-! ## The round trip -/

theorem field1_record (ha : '|' ∉ a) : field1 (record a b c) = a := by
  unfold field1 record
  rw [List.takeWhile_append_of_pos (fun d hd => by simpa using fun h : d = '|' => ha (h ▸ hd))]
  simp

/-- A record of three such fields is one line. -/
theorem record_no_break (ha : '\n' ∉ a) (hb : '\n' ∉ b) (hc : '\n' ∉ c) : '\n' ∉ record a b c := by
  unfold record
  simp [ha, hb, hc]

/-- Without a line break the record comes back. -/
theorem fields_of_no_break (ha : '|' ∉ a) (ha' : '\n' ∉ a) (hb : '|' ∉ b) (hb' : '\n' ∉ b) (hc : '\n' ∉ c) :
    field2 (record a b c) = b ∧ field3 (record a b c) = c := by
  have hlines : (record a b c).splitOn '\n' = [record a b c] := List.splitOn_eq_singleton (record_no_break ha' hb' hc)
  unfold field2 field3 perLine joinLines
  rw [hlines, List.map_singleton, List.map_singleton, List.intercalate_singleton, List.intercalate_singleton,
    second_record ha hb, fromThird_record ha hb, chomp_of_no_break hb', chomp_of_no_break hc]
  exact ⟨rfl, rfl⟩

/-- With a line break it does not: the last line would have to vanish from the second field, so it has a delimiter, so
    the third field loses something. -/
theorem fields_of_break (ha : '|' ∉ a) (ha' : '\n' ∉ a) (hb : '|' ∉ b) (hb' : '\n' ∉ b) (hc : '\n' ∈ c) :
    ¬ (field2 (record a b c) = b ∧ field3 (record a b c) = c) := by
  rintro ⟨h2, h3⟩
  obtain ⟨d, c', hcd, hd⟩ := List.eq_append_cons_of_mem hc
  obtain ⟨ls, l, hl⟩ : ∃ ls l, c'.splitOn '\n' = ls ++ [l] :=
    ⟨_, _, (List.dropLast_concat_getLast (List.splitOn_ne_nil '\n' c')).symm⟩
  have hlbreak : '\n' ∉ l := @not_mem_of_mem_splitOn c' l '\n' (by rw [hl]; simp)
  have hrecord : (record a b c).splitOn '\n' = (record a b d :: ls) ++ [l] := by
    have hfront : record a b c = record a b d ++ '\n' :: c' := by
      rw [hcd]
      simp [record]
    rw [hfront, List.splitOn_append_cons_self_of_not_mem (record_no_break ha' hb' hd), hl, List.cons_append]
  have hcjoin : c = joinLines (d :: ls) ++ '\n' :: l := by
    have hcs : c.splitOn '\n' = (d :: ls) ++ [l] := by
      rw [hcd, List.splitOn_append_cons_self_of_not_mem hd, hl, List.cons_append]
    rw [← joinLines_snoc (List.cons_ne_nil _ _), ← hcs, joinLines_splitOn]
  -- the second field is one line, so nothing of the last line is in it
  have hsecond : second l = [] := by
    cases hrev : (second l).reverse with
    | nil => exact List.reverse_eq_nil_iff.mp hrev
    | cons e es =>
        exfalso
        have hsnoc : second l = es.reverse ++ [e] := by rw [← List.reverse_reverse (second l), hrev, List.reverse_cons]
        have he : e ≠ '\n' := by
          rintro rfl
          exact hlbreak (second_subset l (by rw [hsnoc]; simp))
        unfold field2 perLine at h2
        rw [hrecord, List.map_append, List.map_singleton, joinLines_snoc (by simp), hsnoc, ← List.cons_append,
          ← List.append_assoc, chomp_snoc he] at h2
        apply hb'
        rw [← h2]
        simp
  -- the third field does not end in a line break, so the last line is not empty
  have hlne : l ≠ [] := by
    rintro rfl
    exact chomp_getLast (h3.trans hcjoin) rfl
  have hbar : '|' ∈ l := by
    refine Decidable.byContradiction fun hbar => hlne ?_
    rw [← second_whole hbar, hsecond]
  have hlen : (field3 (record a b c)).length < c.length := by
    have hprefix := (chomp_isPrefix (perLine fromThird (record a b c))).length_le
    have hlast := length_fromThird_lt hbar
    have hmiddle : (joinLines (d :: ls.map fromThird)).length ≤ (joinLines (d :: ls)).length := by
      have hls := length_joinLines_map_le ls fun m _ => length_fromThird_le m
      cases ls with
      | nil => exact Nat.le_refl _
      | cons m ms =>
          rw [joinLines_cons (by simp), joinLines_cons (List.cons_ne_nil m ms)]
          simp only [List.length_append, List.length_cons]
          omega
    have htext : perLine fromThird (record a b c) = joinLines (d :: ls.map fromThird) ++ '\n' :: fromThird l := by
      unfold perLine
      rw [hrecord, List.map_append, List.map_singleton, List.map_cons, fromThird_record ha hb,
        joinLines_snoc (List.cons_ne_nil _ _)]
    have hclen : c.length = (joinLines (d :: ls) ++ '\n' :: l).length := congrArg List.length hcjoin
    rw [htext] at hprefix
    unfold field3
    rw [htext, hclen]
    simp only [List.length_append, List.length_cons] at hprefix ⊢
    omega
  rw [h3] at hlen
  exact Nat.lt_irrefl _ hlen

/-- **A record comes back from its text exactly when its last field has no line break.** -/
theorem fields_iff (ha : '|' ∉ a) (ha' : '\n' ∉ a) (hb : '|' ∉ b) (hb' : '\n' ∉ b) :
    (field2 (record a b c) = b ∧ field3 (record a b c) = c) ↔ '\n' ∉ c := by
  constructor
  · intro h hc
    exact fields_of_break ha ha' hb hb' hc h
  · exact fields_of_no_break ha ha' hb hb'

end

end CutText
