import Mathlib.Data.List.Basic
import Mathlib.Data.List.Lex
import Mathlib.Data.Char

/-!
# `Lib.Decimal` — zero-padded decimals and their lexicographic order

`printf '%0wd'` pads a number to `w` digits and prints it in full when it has more. A list of labels that begin
with such a number therefore sorts numerically as long as no number outgrows the width, and the number can
always be read back off the label.
-/

namespace Decimal

/-- `printf '%0wd' n`. -/
def padded (w n : Nat) : List Char :=
  List.replicate (w - (Nat.toDigits 10 n).length) '0' ++ Nat.toDigits 10 n

/-- The number a list of digits denotes, continuing from `init`. -/
abbrev value (ds : List Char) (init : Nat) : Nat := Nat.ofDigitChars 10 ds init

theorem value_padded (w n : Nat) : value (padded w n) 0 = n := by
  rw [value, padded, Nat.ofDigitChars_append, Nat.ofDigitChars_replicate_zero, Nat.mul_zero,
    Nat.ofDigitChars_ten_toDigits]

theorem padded_injective {w m n : Nat} (h : padded w m = padded w n) : m = n := by
  have := congrArg (fun ds => value ds 0) h
  simpa only [value_padded] using this

theorem isDigit_of_mem_padded {w n : Nat} {c : Char} (h : c ∈ padded w n) : c.isDigit = true := by
  rcases List.mem_append.mp h with h | h
  · rw [List.eq_of_mem_replicate h]; rfl
  · exact Nat.isDigit_of_mem_toDigits (by decide) (by decide) h

theorem padded_ne_nil (w n : Nat) : padded w n ≠ [] := by
  intro h
  exact Nat.toDigits_ne_nil (List.append_eq_nil_iff.mp h).2

/-! ## Width -/

/-- A number below `10 ^ w` fills exactly `w` places. -/
theorem length_padded {w n : Nat} (hw : 0 < w) (h : n < Nat.pow 10 w) : (padded w n).length = w := by
  have := (Nat.length_toDigits_le_iff (b := 10) (n := n) (by decide) hw).mpr h
  rw [padded, List.length_append, List.length_replicate]
  omega

/-! ## Order -/

theorem digit_bounds {c : Char} (h : c.isDigit = true) : c.toNat - '0'.toNat < 10 ∧ '0'.toNat ≤ c.toNat := by
  simp only [Char.isDigit, Bool.and_eq_true, decide_eq_true_eq] at h
  have h1 : '0'.toNat ≤ c.toNat := h.1
  have h2 : c.toNat ≤ '9'.toNat := h.2
  refine ⟨?_, h1⟩
  have h3 : '0'.toNat = 48 := rfl
  have h4 : '9'.toNat = 57 := rfl
  omega

/-- A smaller start stays smaller under digits of the same number. -/
theorem value_lt_of_init_lt {as bs : List Char} (hlen : as.length = bs.length)
    (ha : ∀ c ∈ as, c.isDigit = true) {i j : Nat} (hij : i < j) : value as i < value bs j := by
  induction as generalizing bs i j with
  | nil =>
      cases bs with
      | nil => exact hij
      | cons b bs => exact absurd hlen (by simp)
  | cons a as ih =>
      cases bs with
      | nil => exact absurd hlen (by simp)
      | cons b bs =>
          rw [value, Nat.ofDigitChars_cons, value, Nat.ofDigitChars_cons]
          have hd := (digit_bounds (ha a List.mem_cons_self)).1
          exact ih (by simpa using hlen) (fun c hc => ha c (List.mem_cons_of_mem a hc)) (by omega)

/-- Digits of the same number, lexicographically smaller, denote a smaller number. -/
theorem value_lt_of_lt {as bs : List Char} (hlen : as.length = bs.length)
    (ha : ∀ c ∈ as, c.isDigit = true) (hb : ∀ c ∈ bs, c.isDigit = true) (i : Nat) (h : as < bs) :
    value as i < value bs i := by
  induction as generalizing bs i with
  | nil =>
      cases bs with
      | nil => exact absurd h (List.lt_irrefl [])
      | cons b bs => exact absurd hlen (by simp)
  | cons a as ih =>
      cases bs with
      | nil => exact absurd hlen (by simp)
      | cons b bs =>
          have hlen' : as.length = bs.length := by simpa using hlen
          have ha' := fun c hc => ha c (List.mem_cons_of_mem a hc)
          have hb' := fun c hc => hb c (List.mem_cons_of_mem b hc)
          rw [value, Nat.ofDigitChars_cons, value, Nat.ofDigitChars_cons]
          rcases List.cons_lt_cons_iff.mp h with hab | ⟨rfl, hlt⟩
          · have h1 := (digit_bounds (ha a List.mem_cons_self)).2
            have h2 : a.toNat < b.toNat := hab
            exact value_lt_of_init_lt hlen' ha' (by omega)
          · exact ih hlen' ha' hb' _ hlt

/-- **Padded numbers that fit the width are ordered as numbers are.** -/
theorem padded_lt {w m n : Nat} (hw : 0 < w) (hn : n < Nat.pow 10 w) (h : m < n) : padded w m < padded w n := by
  have hm : m < Nat.pow 10 w := Nat.lt_trans h hn
  have hlen : (padded w m).length = (padded w n).length := by rw [length_padded hw hm, length_padded hw hn]
  have hdm := fun c (hc : c ∈ padded w m) => isDigit_of_mem_padded hc
  have hdn := fun c (hc : c ∈ padded w n) => isDigit_of_mem_padded hc
  rcases lt_trichotomy (padded w m) (padded w n) with hlt | heq | hgt
  · exact hlt
  · exact absurd (padded_injective heq) (Nat.ne_of_lt h)
  · have := value_lt_of_lt hlen.symm hdn hdm 0 hgt
    rw [value_padded, value_padded] at this
    omega

/-- What follows two unequal lists of one length does not change their order. -/
theorem append_lt_append {as bs xs ys : List Char} (hlen : as.length = bs.length) (h : as < bs) :
    as ++ xs < bs ++ ys := by
  induction as generalizing bs with
  | nil =>
      cases bs with
      | nil => exact absurd h (List.lt_irrefl [])
      | cons b bs => exact absurd hlen (by simp)
  | cons a as ih =>
      cases bs with
      | nil => exact absurd hlen (by simp)
      | cons b bs =>
          rw [List.cons_append, List.cons_append]
          rcases List.cons_lt_cons_iff.mp h with hab | ⟨rfl, hlt⟩
          · exact List.cons_lt_cons_iff.mpr (.inl hab)
          · exact List.cons_lt_cons_iff.mpr (.inr ⟨rfl, ih (by simpa using hlen) hlt⟩)

/-- **Numbered labels sort by their numbers**, whatever follows the number. -/
theorem label_lt {w m n : Nat} (hw : 0 < w) (hn : n < Nat.pow 10 w) (h : m < n) (xs ys : List Char) :
    padded w m ++ xs < padded w n ++ ys := by
  refine append_lt_append ?_ (padded_lt hw hn h)
  rw [length_padded hw hn, length_padded hw (Nat.lt_trans h hn)]

/-- The number in front of a separator can be read back. -/
theorem takeWhile_label {w n : Nat} {sep : Char} (hsep : sep.isDigit = false) (xs : List Char) :
    (padded w n ++ sep :: xs).takeWhile (· != sep) = padded w n := by
  have hall : ∀ c ∈ padded w n, (c != sep) = true := by
    intro c hc
    have hd := isDigit_of_mem_padded hc
    have hne : c ≠ sep := by
      intro h
      rw [h, hsep] at hd
      exact absurd hd (by simp)
    simpa using hne
  rw [List.takeWhile_append_of_pos hall]
  simp

end Decimal
