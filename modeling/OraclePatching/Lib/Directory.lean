import OraclePatching.Lib.Frontier

/-!
# `Lib.Directory` — one file per record, and records that exclude each other

A directory holds records under distinct keys; writing a record replaces the file of its key or adds one. On top of
it stands one notion: records that are `active` exclude each other when they share a tag. Two records with one tag
(one node, one plan) are then never active together. The rules say what a write and a change of all records must
check to keep that: a record that is not active is harmless, one that was active already under the same tag may stay
so, and one that becomes active needs a tag that no active record has.
-/

/-- Records under distinct keys. -/
structure Directory {α κ : Type} (key : α → κ) where
  files : List α
  distinct : (files.map key).Nodup

namespace Directory

variable {α κ : Type} {key : α → κ}

/-! ## Reading and writing

A directory is a list of files with different keys. It is written by replacing a file or adding one, and read by
key. -/

def empty : Directory key := ⟨[], List.nodup_nil⟩

instance : Membership α (Directory key) := ⟨fun d x => x ∈ d.files⟩

/-- A directory has the files of its list. -/
theorem mem_def {d : Directory key} {x : α} : x ∈ d ↔ x ∈ d.files := Iff.rfl

@[simp] theorem not_mem_empty (x : α) : x ∉ (empty : Directory key) := by simp [mem_def, empty]

theorem eq_of_key {d : Directory key} {x y : α} (hx : x ∈ d) (hy : y ∈ d) (h : key x = key y) : x = y :=
  Frontier.eq_of_key d.distinct hx hy h

/-- Change every record, each under its key. -/
def modify (d : Directory key) (f : α → α) (hf : ∀ x, key (f x) = key x) : Directory key where
  files := d.files.map f
  distinct := by
    rw [List.map_map, show key ∘ f = key from funext hf]
    exact d.distinct

theorem mem_modify {d : Directory key} {f : α → α} {hf : ∀ x, key (f x) = key x} {y : α} :
    y ∈ d.modify f hf ↔ ∃ x ∈ d, f x = y := List.mem_map

/-- Keep some of the records. -/
def keep (d : Directory key) (p : α → Bool) : Directory key where
  files := d.files.filter p
  distinct := d.distinct.sublist (List.filter_sublist.map key)

theorem mem_keep {d : Directory key} {p : α → Bool} {x : α} : x ∈ d.keep p ↔ x ∈ d ∧ p x = true := List.mem_filter

section
variable [DecidableEq κ]

def get? (d : Directory key) (k : κ) : Option α := Frontier.lookup key k d.files

theorem get?_eq_some {d : Directory key} {k : κ} {x : α} : d.get? k = some x ↔ x ∈ d ∧ key x = k := by
  constructor
  · exact fun h => Frontier.lookup_mem h
  · rintro ⟨hx, rfl⟩; exact Frontier.lookup_of_mem d.distinct hx

theorem get?_eq_none {d : Directory key} {k : κ} : d.get? k = none ↔ ∀ x ∈ d, key x ≠ k := by
  rw [get?, Frontier.lookup, List.find?_eq_none]
  exact forall_congr' fun x => forall_congr' fun _ => by simp

/-- A file that is kept is read as before. -/
theorem get?_keep {d : Directory key} {p : α → Bool} {k : κ} (h : ∀ x ∈ d, key x = k → p x = true) :
    (d.keep p).get? k = d.get? k := by
  cases hk : d.get? k with
  | some x =>
      obtain ⟨hx, hxk⟩ := get?_eq_some.mp hk
      exact get?_eq_some.mpr ⟨mem_keep.mpr ⟨hx, h x hx hxk⟩, hxk⟩
  | none => exact get?_eq_none.mpr fun x hx => get?_eq_none.mp hk x (mem_keep.mp hx).1

/-- Write a record to the file of its key. -/
def put (d : Directory key) (x : α) : Directory key where
  files := if key x ∈ d.files.map key then Frontier.replace key x d.files else d.files ++ [x]
  distinct := by
    split
    · rw [Frontier.map_key_replace]; exact d.distinct
    · rename_i hx
      rw [List.map_append, List.nodup_append]
      refine ⟨d.distinct, by simp, ?_⟩
      rintro k hk _ hk' rfl
      rw [List.map_singleton, List.mem_singleton] at hk'
      exact hx (hk' ▸ hk)

/-- After a write there is the new file, and the others. -/
theorem mem_put {d : Directory key} {x y : α} : y ∈ d.put x ↔ y = x ∨ (y ∈ d ∧ key y ≠ key x) := by
  change y ∈ (if key x ∈ d.files.map key then Frontier.replace key x d.files else d.files ++ [x]) ↔ _
  by_cases hx : key x ∈ d.files.map key
  · rw [if_pos hx]
    constructor
    · exact Frontier.mem_replace
    · rintro (rfl | ⟨hy, hne⟩)
      · obtain ⟨z, hz, hk⟩ := List.mem_map.mp hx
        exact Frontier.mem_replace_self hz hk
      · exact Frontier.mem_replace_of_ne hy hne
  · rw [if_neg hx, List.mem_append, List.mem_singleton]
    constructor
    · rintro (hy | rfl)
      · exact .inr ⟨hy, fun h => hx (h ▸ List.mem_map_of_mem hy)⟩
      · exact .inl rfl
    · rintro (rfl | ⟨hy, _⟩)
      · exact .inr rfl
      · exact .inl hy

theorem mem_put_self (d : Directory key) (x : α) : x ∈ d.put x := mem_put.mpr (.inl rfl)

theorem get?_put_self (d : Directory key) (x : α) : (d.put x).get? (key x) = some x :=
  get?_eq_some.mpr ⟨mem_put_self d x, rfl⟩

theorem get?_put_ne (d : Directory key) {x : α} {k : κ} (h : k ≠ key x) : (d.put x).get? k = d.get? k := by
  cases hk : d.get? k with
  | some y =>
      obtain ⟨hy, rfl⟩ := get?_eq_some.mp hk
      exact get?_eq_some.mpr ⟨mem_put.mpr (.inr ⟨hy, h⟩), rfl⟩
  | none =>
      refine get?_eq_none.mpr fun y hy hyk => ?_
      rcases mem_put.mp hy with rfl | ⟨hy, _⟩
      · exact h hyk.symm
      · exact get?_eq_none.mp hk y hy hyk

end

/-! ## Exclusion

At most one active file for each tag. What keeps this is the same for every kind of active file and of tag. -/

section
variable {τ : Type}

/-- Of the records with one tag at most one is active. -/
def Exclusive (active : α → Prop) (tag : α → τ) (d : Directory key) : Prop :=
  ∀ x ∈ d, ∀ y ∈ d, active x → active y → tag x = tag y → x = y

variable {active : α → Prop} {tag : α → τ} {d : Directory key}

/-- Nothing is active in an empty directory. -/
theorem Exclusive.empty : Exclusive active tag (empty : Directory key) :=
  fun x hx => absurd hx (not_mem_empty x)

/-- **Change rule.** Changes that keep the tags and make no record active keep the exclusion. -/
theorem Exclusive.modify {f : α → α} {hf : ∀ x, key (f x) = key x} (h : Exclusive active tag d)
    (hactive : ∀ x ∈ d, active (f x) → active x) (htag : ∀ x ∈ d, tag (f x) = tag x) :
    Exclusive active tag (d.modify f hf) := by
  intro x' hx' y' hy' ax ay hxy
  obtain ⟨x, hx, rfl⟩ := mem_modify.mp hx'
  obtain ⟨y, hy, rfl⟩ := mem_modify.mp hy'
  rw [htag x hx, htag y hy] at hxy
  rw [h x hx y hy (hactive x hx ax) (hactive y hy ay) hxy]

variable [DecidableEq κ]

/-- **Write rule.** A record may be written when no other active record has its tag, or when it is not active. -/
theorem Exclusive.put {x : α} (h : Exclusive active tag d)
    (hx : active x → ∀ y ∈ d, key y ≠ key x → active y → tag y ≠ tag x) : Exclusive active tag (d.put x) := by
  intro y hy z hz ay az hyz
  rcases mem_put.mp hy with rfl | ⟨hy', hyk⟩ <;> rcases mem_put.mp hz with rfl | ⟨hz', hzk⟩
  · rfl
  · exact absurd hyz.symm (hx ay z hz' hzk az)
  · exact absurd hyz (hx az y hy' hyk ay)
  · exact h y hy' z hz' ay az hyz

/-- **Rewrite rule.** Writing over a record keeps the exclusion if the tag stays and activity does not begin. -/
theorem Exclusive.put_over {x old : α} (h : Exclusive active tag d) (hold : old ∈ d) (hk : key old = key x)
    (htag : tag old = tag x) (hactive : active x → active old) : Exclusive active tag (d.put x) := by
  refine h.put fun ax y hy hyk ay hyx => hyk ?_
  rw [h y hy old hold ay (hactive ax) (hyx.trans htag.symm), hk]

end

end Directory
