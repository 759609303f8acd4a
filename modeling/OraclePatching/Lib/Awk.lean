import OraclePatching.Lib.Cut

/-!
# `Lib.Awk` — records and fields as awk reads and prints them

awk reads a text line by line, takes a line apart at a separator, and puts it together again with the same separator
when a field is assigned. What it prints of a text whose last line is ended is that text, changed only where a field was
assigned (`render_records`), and an assignment to the second field leaves the others alone (`fields_setSecond`).

What two texts are to each other depends on whether they look like numbers, and a text handed over with `-v` goes through
escape processing; both are given by an `Interpreter`.
-/

namespace Awk

/-! ## Definitions -/

/-- `assign` is the value of a variable set with `-v`, `number` the number a text looks like. -/
structure Interpreter where
  assign : List Char → List Char
  number : List Char → Option Rat

/-- `==` of two texts from outside: as numbers if both look like numbers. -/
def Interpreter.equal (awk : Interpreter) (a b : List Char) : Bool :=
  match awk.number a, awk.number b with
  | some x, some y => x == y
  | _, _ => a == b

/-- The lines of a text; the last one may lack its line break. -/
def records : List Char → List (List Char)
  | [] => []
  | c :: cs =>
      if c = '\n' then [] :: records cs
      else
        match records cs with
        | [] => [[c]]
        | r :: rs => (c :: r) :: rs

/-- `{print}` of every line. -/
def render (rs : List (List Char)) : List Char := rs.flatMap fun r => r ++ ['\n']

/-- Every line is ended. -/
def Ended (text : List Char) : Prop := text = [] ∨ text.getLast? = some '\n'

variable (sep : Char)

/-- `$1`. -/
def first (r : List Char) : List Char := (r.splitOn sep).headD []

/-- `$2`. -/
def second (r : List Char) : List Char := (r.splitOn sep).tail.headD []

/-- The line after `$2 = v`. -/
def setSecond (v r : List Char) : List Char :=
  [sep].intercalate ((r.splitOn sep).headD [] :: v :: (r.splitOn sep).tail.tail)

/-- The line has a second field. -/
def HasSecond (r : List Char) : Prop := (r.splitOn sep).tail ≠ []

/-! ## Lines -/

section
variable {r text rest : List Char} {rs : List (List Char)}

/-- The first record ends at the first line break. -/
theorem records_append (h : '\n' ∉ r) : records (r ++ '\n' :: rest) = r :: records rest := by
  induction r with
  | nil => rfl
  | cons c r ih =>
      rw [List.mem_cons, not_or] at h
      rw [List.cons_append, records, if_neg fun hc => h.1 hc.symm, ih h.2]

/-- No record has a line break in it. -/
theorem records_no_break (text : List Char) : ∀ r ∈ records text, '\n' ∉ r := by
  induction text with
  | nil => exact fun r hr => absurd hr List.not_mem_nil
  | cons c cs ih =>
      intro r hr
      unfold records at hr
      split at hr
      · rcases List.mem_cons.mp hr with rfl | hr
        · exact List.not_mem_nil
        · exact ih r hr
      · rename_i hc
        split at hr
        · obtain rfl := List.mem_singleton.mp hr
          exact fun hmem => hc (List.mem_singleton.mp hmem).symm
        · rename_i s rs heq
          rcases List.mem_cons.mp hr with rfl | hr
          · intro hmem
            rcases List.mem_cons.mp hmem with hbreak | hmem
            · exact hc hbreak.symm
            · exact ih s (heq ▸ List.mem_cons_self) hmem
          · exact ih r (heq ▸ List.mem_cons_of_mem s hr)

/-- Only the empty text has no records. -/
theorem records_eq_nil (h : records text = []) : text = [] := by
  cases text with
  | nil => rfl
  | cons c cs =>
      unfold records at h
      split at h
      · exact absurd h (by simp)
      · split at h <;> exact absurd h (by simp)

/-- The first line. -/
theorem records_head (h : text ≠ []) :
    ∃ rs, records text = text.takeWhile (· != '\n') :: rs := by
  induction text with
  | nil => exact absurd rfl h
  | cons c cs ih =>
      unfold records
      by_cases hc : c = '\n'
      · rw [if_pos hc, List.takeWhile_cons_of_neg (by simp [hc])]
        exact ⟨_, rfl⟩
      · rw [if_neg hc, List.takeWhile_cons_of_pos (by simp [hc])]
        by_cases hcs : cs = []
        · rw [hcs]
          exact ⟨[], rfl⟩
        · obtain ⟨rs, hrs⟩ := ih hcs
          rw [hrs]
          exact ⟨rs, rfl⟩

/-- **A text whose lines are ended is printed as it was read.** -/
theorem render_records (h : Ended text) : render (records text) = text := by
  induction text with
  | nil => rfl
  | cons c cs ih =>
      have hcs : c = '\n' ∨ cs ≠ [] := by
        rcases h with h | h
        · exact absurd h (by simp)
        · by_cases hnil : cs = []
          · rw [hnil] at h
            exact .inl (Option.some.inj h)
          · exact .inr hnil
      have hended : Ended cs := by
        rcases h with h | h
        · exact absurd h (by simp)
        · by_cases hnil : cs = []
          · exact .inl hnil
          · rw [List.getLast?_cons_of_ne_nil hnil] at h
            exact .inr h
      unfold records
      split
      · rename_i hc
        show '\n' :: render (records cs) = _
        rw [ih hended, hc]
      · rename_i hc
        split
        · rename_i heq
          exact absurd (records_eq_nil heq) (hcs.resolve_left hc)
        · rename_i s rs heq
          show c :: render (s :: rs) = _
          rw [← heq, ih hended]

/-- Two lists of records, one after the other. -/
theorem render_append (rs ss : List (List Char)) : render (rs ++ ss) = render rs ++ render ss := List.flatMap_append

theorem records_render_append (h : ∀ r ∈ rs, '\n' ∉ r) (rest : List Char) :
    records (render rs ++ rest) = rs ++ records rest := by
  induction rs with
  | nil => rfl
  | cons r rs ih =>
      have hsplit : render (r :: rs) ++ rest = r ++ '\n' :: (render rs ++ rest) := by
        show (r ++ ['\n'] ++ render rs) ++ rest = _
        simp
      rw [hsplit, records_append (h r List.mem_cons_self), ih fun s hs => h s (List.mem_cons_of_mem r hs)]
      rfl

theorem records_render (h : ∀ r ∈ rs, '\n' ∉ r) : records (render rs) = rs := by
  have happ := records_render_append h []
  rwa [List.append_nil, show records [] = [] from rfl, List.append_nil] at happ

end

/-! ## Fields -/

section
variable {sep} {r v v' : List Char}

theorem splitOn_cases (sep : Char) (r : List Char) : ∃ f fs, r.splitOn sep = f :: fs :=
  List.exists_cons_of_ne_nil (List.splitOn_ne_nil sep r)

/-- The first field. -/
theorem takeWhile_splitOn (sep : Char) (cs : List Char) : (cs.splitOn sep).headD [] = cs.takeWhile (· != sep) := by
  induction cs with
  | nil => rfl
  | cons c cs ih =>
      rw [List.splitOn_cons_eq_if_modifyHead]
      by_cases hc : c = sep
      · subst hc
        simp
      · obtain ⟨f, fs, hsplit⟩ := splitOn_cases sep cs
        rw [hsplit] at ih ⊢
        have hne : (c == sep) = false := by simpa using hc
        rw [if_neg (by simp [hne]), List.takeWhile_cons_of_pos (by simp [hc]), ← ih]
        rfl

theorem no_sep (h : v ∈ r.splitOn sep) : sep ∉ v := CutText.not_mem_of_mem_splitOn h

/-- **An assignment to the second field leaves the others alone.** -/
theorem fields_setSecond (hv : sep ∉ v) :
    (setSecond sep v r).splitOn sep = first sep r :: v :: (r.splitOn sep).tail.tail := by
  obtain ⟨f, fs, hsplit⟩ := splitOn_cases sep r
  unfold setSecond first
  refine List.splitOn_intercalate sep (fun l hl => ?_) (by simp)
  rw [hsplit] at hl
  rcases List.mem_cons.mp hl with rfl | hl
  · exact no_sep (hsplit ▸ List.mem_cons_self)
  · rcases List.mem_cons.mp hl with rfl | hl
    · exact hv
    · exact no_sep (hsplit ▸ List.mem_cons_of_mem f (List.mem_of_mem_tail hl))

theorem first_setSecond (hv : sep ∉ v) : first sep (setSecond sep v r) = first sep r := by
  rw [first, fields_setSecond hv]
  rfl

theorem setSecond_setSecond (hv : sep ∉ v) : setSecond sep v' (setSecond sep v r) = setSecond sep v' r := by
  rw [setSecond, fields_setSecond hv]
  rfl

/-- What an assignment makes of a line. -/
theorem setSecond_eq (sep : Char) (v r : List Char) :
    ∃ tail, setSecond sep v r = first sep r ++ sep :: (v ++ tail) ∧ (tail = [] ∨ ∃ rest, tail = sep :: rest) ∧
      ∀ c ∈ tail, c = sep ∨ c ∈ r := by
  obtain ⟨f, fs, hsplit⟩ := splitOn_cases sep r
  have hr : [sep].intercalate (r.splitOn sep) = r := List.intercalate_splitOn sep
  unfold setSecond first
  rw [hsplit] at hr ⊢
  match fs with
  | [] | [_] =>
      refine ⟨[], ?_, .inl rfl, fun c hc => absurd hc List.not_mem_nil⟩
      show f ++ ([sep] ++ (v ++ [])) = _
      simp
  | g :: k :: ks =>
      refine ⟨sep :: [sep].intercalate (k :: ks), ?_, .inr ⟨_, rfl⟩, fun c hc => ?_⟩
      · show f ++ ([sep] ++ (v ++ ([sep] ++ [sep].intercalate (k :: ks)))) = _
        simp
      · rcases List.mem_cons.mp hc with hsep | hc
        · exact .inl hsep
        · right
          rw [← hr]
          show c ∈ f ++ ([sep] ++ (g ++ ([sep] ++ [sep].intercalate (k :: ks))))
          simp [hc]

theorem no_sep_first (r : List Char) : sep ∉ first sep r := by
  obtain ⟨f, fs, hsplit⟩ := splitOn_cases sep r
  unfold first
  rw [hsplit]
  exact no_sep (hsplit ▸ List.mem_cons_self)

theorem mem_first {c : Char} (h : c ∈ first sep r) : c ∈ r := by
  unfold first at h
  rw [takeWhile_splitOn] at h
  exact (List.takeWhile_sublist _).subset h

/-- An assignment of what is there changes nothing. -/
theorem setSecond_self (h : HasSecond sep r) : setSecond sep (second sep r) r = r := by
  obtain ⟨f, fs, hsplit⟩ := splitOn_cases sep r
  have hr : [sep].intercalate (r.splitOn sep) = r := List.intercalate_splitOn sep
  unfold HasSecond at h
  unfold setSecond second
  rw [hsplit] at h hr ⊢
  obtain ⟨g, gs, rfl⟩ := List.exists_cons_of_ne_nil h
  exact hr

/-- A line that an assignment does not change has the value already. -/
theorem of_setSecond_eq (h : setSecond sep v r = r) : HasSecond sep r ∧ second sep r = v := by
  obtain ⟨f, fs, hsplit⟩ := splitOn_cases sep r
  have hr : [sep].intercalate (r.splitOn sep) = r := List.intercalate_splitOn sep
  unfold setSecond at h
  unfold HasSecond second
  rw [hsplit] at h hr ⊢
  have hsame := h.trans hr.symm
  cases fs with
  | nil =>
      -- a line of one field has no separator
      have hf : sep ∉ f := no_sep (hsplit ▸ List.mem_cons_self)
      have hmem : sep ∈ [sep].intercalate [f, v] := by
        show sep ∈ f ++ ([sep] ++ (v ++ []))
        simp
      rw [show [sep].intercalate [f, v] = [sep].intercalate [f] from hsame] at hmem
      exact absurd (by simpa [List.intercalate] using hmem) hf
  | cons g gs =>
      refine ⟨List.cons_ne_nil g gs, ?_⟩
      show g = v
      have htails : [sep].intercalate (f :: v :: gs) = [sep].intercalate (f :: g :: gs) := hsame
      cases gs with
      | nil =>
          have hlists : f ++ ([sep] ++ (v ++ [])) = f ++ ([sep] ++ (g ++ [])) := htails
          simpa using hlists.symm
      | cons k ks =>
          have hlists : f ++ ([sep] ++ (v ++ ([sep] ++ [sep].intercalate (k :: ks)))) =
            f ++ ([sep] ++ (g ++ ([sep] ++ [sep].intercalate (k :: ks)))) := htails
          have hmiddle := List.append_cancel_left (List.append_cancel_left hlists)
          exact (List.append_cancel_right hmiddle).symm

end

end Awk
