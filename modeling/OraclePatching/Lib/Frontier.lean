import Mathlib.Data.List.Pairwise

/-!
# `Lib.Frontier` — records under unique keys, worked off one at a time

A list of records with distinct keys, and the discipline of working it off in order: a front part is done, at
most one record is in hand, the rest is still to do. `Serial` says so pairwise: of two records, either the
earlier one is done or the later one is to do. In that form the discipline is kept by replacing one record when
the replacement is compared with its neighbours only (`Serial.replace`), and `Serial.start` is the step that takes
the first record still to do.
-/

namespace Frontier

variable {α κ : Type} [DecidableEq κ] {key : α → κ}

/-! ## Replacing the record under a key -/

/-- Replace the record that has the key of `x` by `x`. -/
def replace (key : α → κ) (x : α) (xs : List α) : List α :=
  xs.map fun y => if key y = key x then x else y

@[simp] theorem map_key_replace (x : α) (xs : List α) : (replace key x xs).map key = xs.map key := by
  rw [replace, List.map_map]
  refine List.map_congr_left fun y _ => ?_
  by_cases h : key y = key x <;> simp [h]

/-- A record of the new list is the new record or an old one with another key. -/
theorem mem_replace {x y : α} {xs : List α} (h : y ∈ replace key x xs) :
    y = x ∨ (y ∈ xs ∧ key y ≠ key x) := by
  obtain ⟨z, hz, rfl⟩ := List.mem_map.mp h
  by_cases hk : key z = key x
  · exact .inl (by simp [hk])
  · exact .inr ⟨by simpa [hk] using hz, by simp [hk]⟩

theorem mem_replace_self {x y : α} {xs : List α} (hy : y ∈ xs) (hk : key y = key x) :
    x ∈ replace key x xs :=
  List.mem_map.mpr ⟨y, hy, by simp [hk]⟩

theorem mem_replace_of_ne {x y : α} {xs : List α} (hy : y ∈ xs) (hk : key y ≠ key x) :
    y ∈ replace key x xs :=
  List.mem_map.mpr ⟨y, hy, by simp [hk]⟩

omit [DecidableEq κ] in
/-- Distinct keys identify records. -/
theorem eq_of_key {x y : α} {xs : List α} (hnd : (xs.map key).Nodup) (hx : x ∈ xs) (hy : y ∈ xs)
    (hk : key x = key y) : x = y := by
  induction xs with
  | nil => exact absurd hx (by simp)
  | cons z zs ih =>
      rw [List.map_cons, List.nodup_cons] at hnd
      rcases List.mem_cons.mp hx with rfl | hx' <;> rcases List.mem_cons.mp hy with rfl | hy'
      · rfl
      · exact absurd (List.mem_map.mpr ⟨y, hy', hk.symm⟩) hnd.1
      · exact absurd (List.mem_map.mpr ⟨x, hx', hk⟩) hnd.1
      · exact ih hnd.2 hx' hy'

/-! ## Looking a key up -/

/-- The record under a key. -/
def lookup (key : α → κ) (k : κ) (xs : List α) : Option α := xs.find? fun y => key y = k

theorem lookup_mem {k : κ} {x : α} {xs : List α} (h : lookup key k xs = some x) : x ∈ xs ∧ key x = k := by
  have h1 := List.mem_of_find?_eq_some h
  have h2 := List.find?_some h
  exact ⟨h1, by simpa using h2⟩

theorem lookup_of_mem {x : α} {xs : List α} (hnd : (xs.map key).Nodup) (hx : x ∈ xs) :
    lookup key (key x) xs = some x := by
  cases h : lookup key (key x) xs with
  | none =>
      have := List.find?_eq_none.mp h x hx
      simp at this
  | some y =>
      obtain ⟨hy, hk⟩ := lookup_mem h
      rw [eq_of_key hnd hy hx hk]

theorem lookup_replace_self {x y : α} {xs : List α} (h : lookup key (key x) xs = some y) :
    lookup key (key x) (replace key x xs) = some x := by
  induction xs with
  | nil => exact absurd h (by simp [lookup])
  | cons z zs ih =>
      by_cases hz : key z = key x
      · simp [lookup, replace, hz]
      · have h' : lookup key (key x) zs = some y := by simpa [lookup, hz] using h
        have := ih h'
        simpa [lookup, replace, hz] using this

/-- A later replacement under the same key is the one that counts. -/
theorem replace_replace {x y : α} (xs : List α) (hk : key x = key y) :
    replace key y (replace key x xs) = replace key y xs := by
  rw [replace, replace, replace, List.map_map]
  refine List.map_congr_left fun z _ => ?_
  by_cases hz : key z = key x
  · simp [hz, hk]
  · simp [hz, ← hk]

/-! ## The front of the work -/

section
variable (done todo : α → Prop)

/-- Of two records, either the earlier one is done or the later one is to do. -/
def Serial (xs : List α) : Prop := xs.Pairwise fun a b => done a ∨ todo b

variable {done todo}

/-- Records that are all still to do are in order. -/
theorem Serial.of_todo {xs : List α} (h : ∀ x ∈ xs, todo x) : Serial done todo xs :=
  List.Pairwise.imp_of_mem (R := fun _ _ => True) (fun _ hb _ => .inr (h _ hb))
    (List.pairwise_of_forall fun _ _ => trivial)

/-- **Replacement rule.** Replacing a record keeps the order if what was done stays done and the new record may
    come after whatever the old one came after. `Q` is what is known of every earlier and later record. -/
theorem Serial.replace_of {Q : α → α → Prop} {x : α} {xs : List α} (hnd : (xs.map key).Nodup)
    (hQ : xs.Pairwise Q) (hdone : ∀ y ∈ xs, key y = key x → done y → done x)
    (hafter : ∀ a ∈ xs, ∀ y ∈ xs, key y = key x → Q a y → (done a ∨ todo y) → (done a ∨ todo x))
    (h : Serial done todo xs) : Serial done todo (Frontier.replace key x xs) := by
  have hne : xs.Pairwise fun a b => key a ≠ key b := List.pairwise_map.mp hnd
  rw [Serial, Frontier.replace, List.pairwise_map]
  refine List.Pairwise.imp_of_mem ?_ (List.Pairwise.and hne (List.Pairwise.and hQ h))
  rintro a b ha hb ⟨hab, hq, hor⟩
  by_cases h1 : key a = key x
  · have h2 : key b ≠ key x := fun h2 => hab (h1.trans h2.symm)
    rw [if_pos h1, if_neg h2]
    exact hor.imp (hdone a ha h1) id
  · rw [if_neg h1]
    by_cases h2 : key b = key x
    · rw [if_pos h2]
      exact hafter a ha b hb h2 hq hor
    · rw [if_neg h2]
      exact hor

/-- A record that is not still to do may be replaced by anything that is not less done. -/
theorem Serial.replace {x : α} {xs : List α} (hnd : (xs.map key).Nodup)
    (hold : ∀ y ∈ xs, key y = key x → ¬ todo y ∧ (done y → done x))
    (h : Serial done todo xs) : Serial done todo (Frontier.replace key x xs) := by
  refine h.replace_of (Q := fun _ _ => True) hnd (List.pairwise_of_forall fun _ _ => trivial)
    (fun y hy hk => (hold y hy hk).2) ?_
  intro a _ y hy hk _ hor
  exact .inl (hor.resolve_right (hold y hy hk).1)

omit [DecidableEq κ] in
/-- Before the first record that passes a test, none does. -/
theorem pairwise_of_find? {p : α → Bool} {y : α} {xs : List α} (hnd : (xs.map key).Nodup)
    (hfind : xs.find? p = some y) : xs.Pairwise fun a b => key b = key y → p a = false := by
  obtain ⟨_, as, bs, rfl, has⟩ := List.find?_eq_some_iff_append.mp hfind
  rw [List.map_append, List.map_cons, List.nodup_append, List.nodup_cons] at hnd
  obtain ⟨_, ⟨hy, _⟩, _⟩ := hnd
  have hbs : ∀ b ∈ bs, key b ≠ key y := fun b hb h => hy (List.mem_map.mpr ⟨b, hb, h⟩)
  rw [List.pairwise_append, List.pairwise_cons]
  refine ⟨?_, ⟨fun b hb h => absurd h (hbs b hb), ?_⟩, ?_⟩
  · exact List.Pairwise.imp_of_mem (R := fun _ _ => True)
      (fun ha _ _ _ => by simpa using has _ ha) (List.pairwise_of_forall fun _ _ => trivial)
  · exact List.Pairwise.imp_of_mem (R := fun _ _ => True)
      (fun _ hb _ h => absurd h (hbs _ hb)) (List.pairwise_of_forall fun _ _ => trivial)
  · exact fun a ha _ _ _ => by simpa using has a ha

/-- **Start rule.** When every record is done or still to do, the first one still to do may be taken in hand. -/
theorem Serial.start {p : α → Bool} {x y : α} {xs : List α} (hnd : (xs.map key).Nodup)
    (hp : ∀ a ∈ xs, p a = true ↔ todo a) (hall : ∀ a ∈ xs, done a ∨ todo a) (hdis : ¬ done y)
    (hfind : xs.find? p = some y) (hk : key x = key y) (h : Serial done todo xs) :
    Serial done todo (Frontier.replace key x xs) := by
  have hy := List.mem_of_find?_eq_some hfind
  refine h.replace_of hnd (pairwise_of_find? hnd hfind) ?_ ?_
  · intro z hz hzk hd
    rw [eq_of_key hnd hz hy (hzk.trans hk)] at hd
    exact absurd hd hdis
  · intro a ha z _ hzk hq _
    refine .inl ((hall a ha).resolve_right fun ht => ?_)
    rw [(hp a ha).mpr ht] at hq
    exact absurd (hq (hzk.trans hk)) (by simp)

/-- Beside a record in hand, every record is done or still to do. -/
theorem Serial.settled {x y : α} {xs : List α} (hy : y ∈ xs) (hd : ¬ done y) (ht : ¬ todo y) (hx : x ∈ xs)
    (hne : x ≠ y) (h : Serial done todo xs) : done x ∨ todo x := by
  have hsym : xs.Pairwise fun a b => (done a ∨ todo b) ∨ (done b ∨ todo a) := h.imp .inl
  have : Std.Symm fun a b : α => (done a ∨ todo b) ∨ (done b ∨ todo a) := ⟨fun _ _ => Or.symm⟩
  rcases hsym.forall hx hy hne with h1 | h1
  · exact .inl (h1.resolve_right ht)
  · exact .inr (h1.resolve_left hd)

/-- What the discipline says of a whole list: done records, at most one in hand, records still to do. -/
theorem Serial.shape {xs : List α} [DecidablePred done] [DecidablePred todo] (h : Serial done todo xs) :
    ∃ front hand rest, xs = front ++ hand ++ rest ∧ (∀ x ∈ front, done x) ∧ hand.length ≤ 1 ∧
      (∀ x ∈ hand, ¬ done x ∧ ¬ todo x) ∧ ∀ x ∈ rest, todo x := by
  induction xs with
  | nil => exact ⟨[], [], [], by simp⟩
  | cons x xs ih =>
      obtain ⟨hx, hxs⟩ := List.pairwise_cons.mp h
      by_cases hd : done x
      · obtain ⟨front, hand, rest, rfl, h1, h2, h3, h4⟩ := ih hxs
        refine ⟨x :: front, hand, rest, by simp, ?_, h2, h3, h4⟩
        intro y hy
        rcases List.mem_cons.mp hy with rfl | hy
        · exact hd
        · exact h1 y hy
      · have hrest : ∀ y ∈ xs, todo y := fun y hy => (hx y hy).resolve_left hd
        by_cases ht : todo x
        · refine ⟨[], [], x :: xs, by simp, by simp, by simp, by simp, ?_⟩
          intro y hy
          rcases List.mem_cons.mp hy with rfl | hy
          · exact ht
          · exact hrest y hy
        · exact ⟨[], [x], xs, by simp, by simp, by simp, by simp [hd, ht], hrest⟩

end

end Frontier
