/-!
# `Lib.Effect` — commands that change a state and may fail on the way

A command either returns or fails, and a failure leaves the state as far as the command had got. `Ensures P x Q E` says
of a command `x` started in a state with `P` that it returns a value and a state with `Q`, or fails with an error and a
state with `E`.
There is one rule for each way of building a command; the rule for a loop (`Ensures.forM`) asks for an invariant that
speaks of the part of the list that is done.

A frame condition is the case where `P`, `Q` and `E` are the same (`Keeps`). A `Trail` remembers the states that were
passed on the way, which is where a process can be killed.
-/

namespace Effect

variable {ε ε' σ α β : Type}

/-- What a command started in `P` has done when it returns, and when it fails. -/
def Ensures (P : σ → Prop) (x : EStateM ε σ α) (Q : α → σ → Prop) (E : ε → σ → Prop) : Prop :=
  ∀ s, P s → match x s with
    | .ok a s' => Q a s'
    | .error e s' => E e s'

/-- A command that keeps `I`, however it ends. -/
def Keeps (I : σ → Prop) (x : EStateM ε σ α) : Prop := Ensures I x (fun _ => I) (fun _ => I)

section
variable {P P' : σ → Prop} {Q Q' : α → σ → Prop} {R : β → σ → Prop} {E E' : ε → σ → Prop} {x : EStateM ε σ α}

theorem Ensures.ok (h : Ensures P x Q E) {s s' : σ} {a : α} (hs : P s) (hx : x s = .ok a s') : Q a s' := by
  have hpost := h s hs
  rw [hx] at hpost
  exact hpost

theorem Ensures.error (h : Ensures P x Q E) {s s' : σ} {e : ε} (hs : P s) (hx : x s = .error e s') : E e s' := by
  have hpost := h s hs
  rw [hx] at hpost
  exact hpost

theorem Ensures.weaken (h : Ensures P x Q E) (hP : ∀ s, P' s → P s) (hQ : ∀ a s, Q a s → Q' a s)
    (hE : ∀ e s, E e s → E' e s) : Ensures P' x Q' E' := by
  intro s hs
  have hpost := h s (hP s hs)
  cases hx : x s with
  | ok a s' =>
      rw [hx] at hpost
      exact hQ a s' hpost
  | error e s' =>
      rw [hx] at hpost
      exact hE e s' hpost

theorem Ensures.pure {a : α} (h : ∀ s, P s → Q a s) : Ensures P (pure a : EStateM ε σ α) Q E := fun s hs => h s hs

theorem Ensures.throw {e : ε} (h : ∀ s, P s → E e s) : Ensures P (throw e : EStateM ε σ α) Q E := fun s hs => h s hs

/-- One command after another: what the first has done when it returns is what the second starts from. -/
theorem Ensures.bind {f : α → EStateM ε σ β} (hx : Ensures P x Q E) (hf : ∀ a, Ensures (Q a) (f a) R E) :
    Ensures P (x >>= f) R E := by
  intro s hs
  have hpost := hx s hs
  show match (match x s with
    | .ok a s' => f a s'
    | .error e s' => .error e s') with
    | .ok b s' => R b s'
    | .error e s' => E e s'
  cases hxs : x s with
  | ok a s' =>
      rw [hxs] at hpost
      exact hf a s' hpost
  | error e s' =>
      rw [hxs] at hpost
      exact hpost

/-- A command that looks at the state first. -/
theorem Ensures.get_bind {f : σ → EStateM ε σ α} (h : ∀ s₀, P s₀ → Ensures (· = s₀) (f s₀) Q E) :
    Ensures P (get >>= f) Q E := fun s hs => h s hs s rfl

/-- A failure under another name. -/
theorem Ensures.adaptExcept {f : ε → ε'} {F : ε' → σ → Prop} (h : Ensures P x Q fun e => F (f e)) :
    Ensures P (x.adaptExcept f) Q F := by
  intro s hs
  have hpost := h s hs
  unfold EStateM.adaptExcept
  cases hx : x s with
  | ok a s' =>
      rw [hx] at hpost
      exact hpost
  | error e s' =>
      rw [hx] at hpost
      exact hpost

theorem Ensures.ite {c : Prop} [Decidable c] {y : EStateM ε σ α} (hthen : c → Ensures P x Q E)
    (helse : ¬ c → Ensures P y Q E) : Ensures P (if c then x else y) Q E := by
  by_cases hc : c
  · rw [if_pos hc]
    exact hthen hc
  · rw [if_neg hc]
    exact helse hc

/-- **The loop rule.** `I done` holds when the elements of `done` are done. -/
theorem Ensures.forM {l : List α} {f : α → EStateM ε σ PUnit} {I : List α → σ → Prop}
    (hbody : ∀ done a rest, l = done ++ a :: rest → Ensures (I done) (f a) (fun _ => I (done ++ [a])) E) :
    Ensures (I []) (l.forM f) (fun _ => I l) E := by
  have hloop : ∀ rest done, l = done ++ rest → Ensures (I done) (rest.forM f) (fun _ => I l) E := by
    intro rest
    induction rest with
    | nil =>
        intro done hl
        rw [List.append_nil] at hl
        exact Ensures.pure fun s hs => hl ▸ hs
    | cons a rest ih =>
        intro done hl
        refine (hbody done a rest hl).bind fun _ => ih (done ++ [a]) ?_
        rw [hl, List.append_assoc]
        rfl
  exact hloop l [] rfl

end

section
variable {I : σ → Prop}

theorem Keeps.bind {x : EStateM ε σ α} {f : α → EStateM ε σ β} (hx : Keeps I x) (hf : ∀ a, Keeps I (f a)) :
    Keeps I (x >>= f) := Ensures.bind hx hf

theorem Keeps.throw {e : ε} : Keeps I (throw e : EStateM ε σ α) := Ensures.throw fun _ hs => hs

theorem Keeps.pure {a : α} : Keeps I (pure a : EStateM ε σ α) := Ensures.pure fun _ hs => hs

end

/-! ## Trails -/

/-- A state with the states that were passed before it, the last one first. -/
structure Trail (σ : Type) where
  now : σ
  passed : List σ

/-- The states in which a process that has left this trail can have been killed. -/
def Trail.visited (t : Trail σ) : List σ := t.now :: t.passed

/-- One durable change. -/
def visit (f : σ → σ) : EStateM ε (Trail σ) Unit := fun t => .ok () ⟨f t.now, t.visited⟩

/-- A durable change: what holds of every state passed must hold of the new one. -/
theorem visit_ensures {P Q : Trail σ → Prop} {E : ε → Trail σ → Prop} {f : σ → σ} (h : ∀ t, P t → Q ⟨f t.now, t.visited⟩) :
    Ensures P (visit f : EStateM ε (Trail σ) Unit) (fun _ => Q) E := fun t ht => h t ht

end Effect
