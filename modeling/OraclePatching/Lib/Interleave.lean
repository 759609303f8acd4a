import Mathlib.Logic.Function.Basic
import OraclePatching.Lib.Trace

/-!
# `Lib.Interleave` — processes that take turns on one store, one lock holder for each key

A command is decided in one look at the store and then carried out as a script of single writes. The commands on one
key exclude each other; between two writes of a command any process on another key may write, and a process may die.
`Kept` is the proof obligation of an invariant that speaks of one key, the store and the rest of that key's script:
its own writes keep it, the writes of the others do not disturb it. `Kept.reached` is the induction over runs.
-/

namespace Interleave

variable {σ κ ι ω : Type} [DecidableEq κ]

/-- The commands, the key each of them locks, and the effect of a write of the holder of a key. -/
structure System (σ κ ι ω : Type) where
  key : ι → κ
  script : σ → ι → Option (List ω)
  exec : κ → σ → ω → Option σ

/-- The store, and what the holder of each key still has to write. -/
structure State (σ κ ω : Type) where
  store : σ
  pending : κ → List ω

inductive Action (κ ι : Type) where
  | start (i : ι)
  | write (k : κ)
  | kill (k : κ)

def State.put (s : State σ κ ω) (k : κ) (ws : List ω) : State σ κ ω :=
  { s with pending := Function.update s.pending k ws }

/-- A command starts when its key is free and it is not refused. A write that the store refuses ends its script. -/
def step (sys : System σ κ ι ω) (s : State σ κ ω) : Action κ ι → Option (State σ κ ω)
  | .start i =>
      match s.pending (sys.key i) with
      | [] => (sys.script s.store i).map (s.put (sys.key i))
      | _ :: _ => none
  | .write k =>
      match s.pending k with
      | [] => none
      | w :: ws =>
          match sys.exec k s.store w with
          | some store => some ({ s with store := store }.put k ws)
          | none => some (s.put k [])
  | .kill k => some (s.put k [])

/-- Runs from a store with no command under way. -/
def Reached (sys : System σ κ ι ω) (start : σ → Prop) : List (Action κ ι) → State σ κ ω → Prop :=
  Trace.Run (step sys) (fun s => start s.store ∧ ∀ k, s.pending k = []) fun _ _ => True

/-- What an invariant of each key has to keep up with. -/
structure Kept (sys : System σ κ ι ω) (I : κ → σ → List ω → Prop) : Prop where
  start : ∀ s i ws, I (sys.key i) s [] → sys.script s i = some ws → I (sys.key i) s ws
  own : ∀ k s w ws s', I k s (w :: ws) → sys.exec k s w = some s' → I k s' ws
  other : ∀ k j s w vs s' ws, j ≠ k → I j s (w :: vs) → sys.exec j s w = some s' → I k s ws → I k s' ws
  stop : ∀ k s ws, I k s ws → I k s []

section
variable {sys : System σ κ ι ω} {I : κ → σ → List ω → Prop} {s s' : State σ κ ω}

@[simp] theorem put_store (k : κ) (ws : List ω) : (s.put k ws).store = s.store := rfl

@[simp] theorem put_self (k : κ) (ws : List ω) : (s.put k ws).pending k = ws := Function.update_self ..

theorem put_ne {k j : κ} (ws : List ω) (h : j ≠ k) : (s.put k ws).pending j = s.pending j := Function.update_of_ne h ..

/-- Changing the script of one key. -/
theorem put_kept {k : κ} {ws : List ω} (h : ∀ j, I j s.store (s.pending j)) (hk : I k s.store ws) :
    ∀ j, I j (s.put k ws).store ((s.put k ws).pending j) := by
  intro j
  rw [put_store]
  by_cases hj : j = k
  · rw [hj, put_self]
    exact hk
  · rw [put_ne ws hj]
    exact h j

theorem Kept.step (hI : Kept sys I) {a : Action κ ι} (h : ∀ k, I k s.store (s.pending k))
    (hs : Interleave.step sys s a = some s') : ∀ k, I k s'.store (s'.pending k) := by
  cases a with
  | start i =>
      simp only [Interleave.step] at hs
      split at hs
      · rename_i hfree
        obtain ⟨ws, hws, rfl⟩ := Option.map_eq_some_iff.mp hs
        have hnone : I (sys.key i) s.store [] := hfree ▸ h (sys.key i)
        exact put_kept h (hI.start s.store i ws hnone hws)
      · exact absurd hs (by simp)
  | write k =>
      simp only [Interleave.step] at hs
      split at hs
      · exact absurd hs (by simp)
      · rename_i w ws hpending
        have hk : I k s.store (w :: ws) := hpending ▸ h k
        split at hs
        · rename_i store hexec
          obtain rfl := Option.some.inj hs
          intro j
          -- the key's own invariant by its own write, another key's because it is not disturbed
          show I j store _
          by_cases hj : j = k
          · rw [hj, put_self]
            exact hI.own k s.store w ws store hk hexec
          · rw [put_ne ws hj]
            exact hI.other j k s.store w ws store _ (Ne.symm hj) hk hexec (h j)
        · obtain rfl := Option.some.inj hs
          exact put_kept h (hI.stop k s.store _ hk)
  | kill k =>
      obtain rfl := Option.some.inj hs
      exact put_kept h (hI.stop k s.store _ (h k))

/-- **Ownership rule.** An invariant of each key that its own writes keep and the others do not disturb holds in every
    state of every interleaving, whichever processes are killed. -/
theorem Kept.reached (hI : Kept sys I) {start : σ → Prop} (hstart : ∀ s k, start s → I k s [])
    {as : List (Action κ ι)} (h : Reached sys start as s) : ∀ k, I k s.store (s.pending k) := by
  refine Trace.Run.invariant (I := fun _ s => ∀ k, I k s.store (s.pending k)) ?_ ?_ h
  · rintro s ⟨hs, hfree⟩ k
    rw [hfree k]
    exact hstart s.store k hs
  · intro as s a s' _ ih _ hs
    exact hI.step ih hs

end

end Interleave
