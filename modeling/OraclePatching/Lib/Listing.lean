import Mathlib.Data.List.Sort
import OraclePatching.Lib.Separated

/-!
# `Lib.Listing` — sorted listings of names with a line each

A listing goes through records sorted by name and writes every name, a NUL, and a line or nothing. Names and lines
have no NUL and no line break inside, so the records can be read off the text (`listing_inj`), and since the names are
distinct, sorting makes the text independent of the order in which the records were met (`listing_eq_iff`).
-/

namespace Listing

abbrev Bytes := List UInt8

/-! ## The order of names -/

/-- The order of `sort` in the C locale. -/
def before : Bytes → Bytes → Bool
  | [], _ => true
  | _ :: _, [] => false
  | a :: as, b :: bs => if a = b then before as bs else decide (a.toNat < b.toNat)

section
variable {as bs cs : Bytes}

theorem before_total (as bs : Bytes) : before as bs = true ∨ before bs as = true := by
  induction as generalizing bs with
  | nil => exact .inl rfl
  | cons a as ih =>
      cases bs with
      | nil => exact .inr rfl
      | cons b bs =>
          rw [before, before]
          by_cases hab : a = b
          · rw [if_pos hab, if_pos hab.symm]
            exact ih bs
          · have hne : a.toNat ≠ b.toNat := fun h => hab (UInt8.toNat_inj.mp h)
            rw [if_neg hab, if_neg (Ne.symm hab), decide_eq_true_iff, decide_eq_true_iff]
            omega

theorem before_antisymm (h : before as bs = true) (h' : before bs as = true) : as = bs := by
  induction as generalizing bs with
  | nil =>
      cases bs with
      | nil => rfl
      | cons b bs => exact absurd h' (by simp [before])
  | cons a as ih =>
      cases bs with
      | nil => exact absurd h (by simp [before])
      | cons b bs =>
          rw [before] at h h'
          by_cases hab : a = b
          · rw [if_pos hab] at h
            rw [if_pos hab.symm] at h'
            rw [hab, ih h h']
          · rw [if_neg hab, decide_eq_true_iff] at h
            rw [if_neg (Ne.symm hab), decide_eq_true_iff] at h'
            omega

theorem before_trans (h : before as bs = true) (h' : before bs cs = true) : before as cs = true := by
  induction as generalizing bs cs with
  | nil => rfl
  | cons a as ih =>
      cases bs with
      | nil => exact absurd h (by simp [before])
      | cons b bs =>
          cases cs with
          | nil => exact absurd h' (by simp [before])
          | cons c cs =>
              rw [before] at h h' ⊢
              by_cases hab : a = b
              · rw [if_pos hab] at h
                subst hab
                by_cases hac : a = c
                · rw [if_pos hac] at h' ⊢
                  exact ih h h'
                · rw [if_neg hac] at h' ⊢
                  exact h'
              · rw [if_neg hab, decide_eq_true_iff] at h
                by_cases hbc : b = c
                · subst hbc
                  rw [if_neg hab, decide_eq_true_iff]
                  exact h
                · rw [if_neg hbc, decide_eq_true_iff] at h'
                  have hac : a ≠ c := by
                    rintro rfl
                    omega
                  rw [if_neg hac, decide_eq_true_iff]
                  omega

/-- A common beginning does not matter. -/
theorem before_append (pre as bs : Bytes) : before (pre ++ as) (pre ++ bs) = before as bs := by
  induction pre with
  | nil => rfl
  | cons c pre ih =>
      rw [List.cons_append, List.cons_append, before, if_pos rfl, ih]

end

/-! ## Sorting -/

section
variable {α β : Type}

/-- `sort`, by a key. -/
def sortBy (key : α → Bytes) (xs : List α) : List α := xs.insertionSort fun a b => before (key a) (key b) = true

variable {key : α → Bytes} {xs ys : List α}

theorem sortBy_perm (key : α → Bytes) (xs : List α) : (sortBy key xs).Perm xs := List.perm_insertionSort _ xs

theorem mem_sortBy {x : α} : x ∈ sortBy key xs ↔ x ∈ xs := (sortBy_perm key xs).mem_iff

theorem sortBy_pairwise (key : α → Bytes) (xs : List α) :
    (sortBy key xs).Pairwise fun a b => before (key a) (key b) = true := by
  have : Std.Total fun a b : α => before (key a) (key b) = true := ⟨fun a b => before_total (key a) (key b)⟩
  have : IsTrans α fun a b => before (key a) (key b) = true := ⟨fun _ _ _ => before_trans⟩
  exact List.pairwise_insertionSort _ xs

/-- Only the order of the keys matters. -/
theorem sortBy_congr {key' : α → Bytes} (h : ∀ a b, before (key a) (key b) = before (key' a) (key' b)) (xs : List α) :
    sortBy key xs = sortBy key' xs := by
  unfold sortBy
  simp only [h]

/-- Sorting by what a map keeps. -/
theorem map_sortBy (f : α → β) {key : β → Bytes} (xs : List α) :
    (sortBy (key ∘ f) xs).map f = sortBy key (xs.map f) := by
  unfold sortBy
  exact List.map_insertionSort _ _ f xs fun _ _ _ _ => Iff.rfl

/-- **Sorting forgets the order in which the records came.** -/
theorem sortBy_eq_of_perm (hkeys : (xs.map key).Nodup) (h : xs.Perm ys) : sortBy key xs = sortBy key ys := by
  have hperm : (sortBy key xs).Perm (sortBy key ys) := (sortBy_perm key xs).trans (h.trans (sortBy_perm key ys).symm)
  refine List.Perm.eq_of_pairwise (fun a b ha hb hab hba => ?_) (sortBy_pairwise key xs) (sortBy_pairwise key ys) hperm
  have hb' : b ∈ xs := h.mem_iff.mpr (mem_sortBy.mp hb)
  exact List.inj_on_of_nodup_map hkeys (mem_sortBy.mp ha) hb' (before_antisymm hab hba)

end

/-! ## The text of a listing -/

/-- A name, a NUL and a line. -/
def entry (r : Bytes × Bytes) : Bytes := r.1 ++ 0 :: r.2

def listing (rs : List (Bytes × Bytes)) : Bytes := rs.flatMap entry

/-- No NUL and no line break. -/
def Plain (bs : Bytes) : Prop := 0 ∉ bs ∧ 10 ∉ bs

/-- A plain name with a plain line, or with none. -/
structure WellFormed (r : Bytes × Bytes) : Prop where
  name : Plain r.1
  line : r.2 = [] ∨ ∃ text, r.2 = text ++ [10] ∧ Plain text

section
variable {rs rs' : List (Bytes × Bytes)}

/-- A NUL and a line break that come first are not confused. -/
theorem nul_ne_break {as bs xs ys : Bytes} (ha : Plain as) (hb : Plain bs) : as ++ 0 :: xs ≠ bs ++ 10 :: ys := by
  intro h
  rcases List.append_eq_append_iff.mp h with ⟨u, rfl, hu⟩ | ⟨u, rfl, hu⟩
  · cases u with
    | nil => exact absurd (List.cons.inj hu).1 (by decide)
    | cons c u =>
        rw [List.cons_append, List.cons.injEq] at hu
        exact hb.1 (by rw [hu.1]; simp)
  · cases u with
    | nil => exact absurd (List.cons.inj hu).1 (by decide)
    | cons c u =>
        rw [List.cons_append, List.cons.injEq] at hu
        exact ha.2 (by rw [hu.1]; simp)

/-- A listing does not begin with a line. -/
theorem listing_ne_line (hrs : ∀ r ∈ rs, WellFormed r) {text rest : Bytes} (htext : Plain text) :
    listing rs ≠ text ++ 10 :: rest := by
  cases rs with
  | nil =>
      intro h
      have hlength := congrArg List.length h
      simp [listing] at hlength
  | cons r rs =>
      unfold listing entry
      rw [List.flatMap_cons, List.append_assoc, List.cons_append]
      exact nul_ne_break (hrs r List.mem_cons_self).name htext

/-- **The records can be read off a listing.** -/
theorem listing_inj (hrs : ∀ r ∈ rs, WellFormed r) (hrs' : ∀ r ∈ rs', WellFormed r)
    (h : listing rs = listing rs') : rs = rs' := by
  induction rs generalizing rs' with
  | nil =>
      cases rs' with
      | nil => rfl
      | cons r rs' =>
          have hlength := congrArg List.length h
          simp [listing, entry] at hlength
  | cons r rs ih =>
      cases rs' with
      | nil =>
          have hlength := congrArg List.length h
          simp [listing, entry] at hlength
      | cons r' rs' =>
          obtain ⟨name, line⟩ := r
          obtain ⟨name', line'⟩ := r'
          have hr := hrs _ List.mem_cons_self
          have hr' := hrs' _ List.mem_cons_self
          have hrest := fun x hx => hrs x (List.mem_cons_of_mem _ hx)
          have hrest' := fun x hx => hrs' x (List.mem_cons_of_mem _ hx)
          have hsplit : name ++ 0 :: (line ++ listing rs) = name' ++ 0 :: (line' ++ listing rs') := by
            simpa [listing, entry] using h
          obtain ⟨rfl, hlines⟩ := Separated.append_inj hr.name.1 hr'.name.1 hsplit
          -- a line is empty or ends in its line break, and after an empty one the next name follows
          have hboth : line = line' ∧ listing rs = listing rs' := by
            rcases hr.line with hnil | ⟨text, htext, hplain⟩ <;> rcases hr'.line with hnil' | ⟨text', htext', hplain'⟩
            · dsimp only at hnil hnil'
              subst hnil hnil'
              exact ⟨rfl, hlines⟩
            · dsimp only at hnil htext'
              subst hnil htext'
              rw [List.nil_append, List.append_assoc, List.singleton_append] at hlines
              exact absurd hlines (listing_ne_line hrest hplain')
            · dsimp only at htext hnil'
              subst htext hnil'
              rw [List.nil_append, List.append_assoc, List.singleton_append] at hlines
              exact absurd hlines.symm (listing_ne_line hrest' hplain)
            · dsimp only at htext htext'
              subst htext htext'
              rw [List.append_assoc, List.append_assoc, List.singleton_append, List.singleton_append] at hlines
              obtain ⟨h1, h2⟩ := Separated.append_inj hplain.2 hplain'.2 hlines
              exact ⟨by rw [h1], h2⟩
          rw [hboth.1, ih hrest hrest' hboth.2]

/-- **Sorted listings are equal exactly if the records are the same**, in whatever order they came. -/
theorem listing_eq_iff (hrs : ∀ r ∈ rs, WellFormed r) (hrs' : ∀ r ∈ rs', WellFormed r)
    (hnames : (rs.map Prod.fst).Nodup) (hnames' : (rs'.map Prod.fst).Nodup) :
    listing (sortBy Prod.fst rs) = listing (sortBy Prod.fst rs') ↔ ∀ r, r ∈ rs ↔ r ∈ rs' := by
  constructor
  · intro h r
    have heq := listing_inj (fun x hx => hrs x (mem_sortBy.mp hx)) (fun x hx => hrs' x (mem_sortBy.mp hx)) h
    rw [← @mem_sortBy _ Prod.fst rs r, heq, mem_sortBy]
  · intro h
    have hperm : rs.Perm rs' := (List.perm_ext_iff_of_nodup hnames.of_map hnames'.of_map).mpr h
    rw [sortBy_eq_of_perm hnames hperm]

end

end Listing
