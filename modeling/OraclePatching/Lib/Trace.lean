import Mathlib.Data.List.Induction

/-!
# `Lib.Trace` — runs of a guarded step function, and scripts of durable writes

Two general notions the development is built on.

* **Runs.** `Run step start allowed as s` says that `s` is reached from a start state by the actions `as`
  (oldest first), each of them allowed in the state it was taken in. The actions are kept, so that a result
  may speak of the history of a run. `Run.invariant` is the one induction over runs.
* **Scripts.** A program that changes a store by a sequence of durable writes is its list of writes.
  `perform` carries the list out and stops at the first write the store refuses; a process killed after `k`
  writes has performed `take k`.
-/

namespace Trace

variable {σ α ω : Type}

/-! ## Runs -/

/-- `s` is reached from a start state by the actions `as`, oldest first, each allowed where it was taken. -/
inductive Run (step : σ → α → Option σ) (start : σ → Prop) (allowed : σ → α → Prop) :
    List α → σ → Prop
  | nil {s : σ} : start s → Run step start allowed [] s
  | snoc {as : List α} {s s' : σ} {a : α} : Run step start allowed as s → allowed s a →
      step s a = some s' → Run step start allowed (as ++ [a]) s'

section
variable {step : σ → α → Option σ} {start : σ → Prop} {allowed allowed' : σ → α → Prop}

/-- **Invariant rule.** A property of history and state that holds at the start and is kept by every
    allowed step holds in every state a run reaches. -/
theorem Run.invariant {I : List α → σ → Prop} (hstart : ∀ s, start s → I [] s)
    (hstep : ∀ as s a s', Run step start allowed as s → I as s → allowed s a → step s a = some s' →
      I (as ++ [a]) s')
    {as : List α} {s : σ} (h : Run step start allowed as s) : I as s := by
  induction h with
  | nil hs => exact hstart _ hs
  | snoc hr ha hs ih => exact hstep _ _ _ _ hr ih ha hs

/-- Allowing more steps keeps the runs there were. -/
theorem Run.mono (hall : ∀ s a, allowed s a → allowed' s a) {as : List α} {s : σ}
    (h : Run step start allowed as s) : Run step start allowed' as s := by
  induction h with
  | nil hs => exact .nil hs
  | snoc _ ha hs ih => exact .snoc ih (hall _ _ ha) hs

/-- **Replay rule.** Folding a total step over a list of actions is a run, if each action is allowed where it is
    taken. -/
theorem Run.of_foldl {f : σ → α → σ} {s₀ : σ} {as : List α} (hstart : start s₀)
    (hall : ∀ pre a, pre ++ [a] <+: as → allowed (pre.foldl f s₀) a) :
    Run (fun s a => some (f s a)) start allowed as (as.foldl f s₀) := by
  induction as using List.reverseRecOn with
  | nil => exact .nil hstart
  | append_singleton as a ih =>
      rw [List.foldl_append]
      refine .snoc (ih fun pre b hpre => ?_) (hall as a (List.prefix_refl _)) rfl
      exact hall pre b (hpre.trans (List.prefix_append as [a]))

/-- Take a step if it passes a check. -/
def guarded (step : σ → α → Option σ) (check : σ → α → Bool) (s : σ) (a : α) : Option σ :=
  if check s a then step s a else none

/-- **Guarded replay rule.** Actions that are replayed under a check are a run, if the check is enough for a step to
    be allowed. -/
theorem Run.of_foldlM {check : σ → α → Bool} {s₀ s : σ} {as : List α} (hstart : start s₀)
    (hcheck : ∀ s a, check s a = true → allowed s a) (h : as.foldlM (guarded step check) s₀ = some s) :
    Run step start allowed as s := by
  induction as using List.reverseRecOn generalizing s with
  | nil => exact Option.some.inj h ▸ .nil hstart
  | append_singleton as a ih =>
      rw [List.foldlM_append, Option.bind_eq_bind, Option.bind_eq_some_iff] at h
      obtain ⟨t, ht, hs⟩ := h
      have hstep : guarded step check t a = some s := by simpa using hs
      unfold guarded at hstep
      split at hstep
      · rename_i hca
        exact .snoc (ih ht) (hcheck t a hca) hstep
      · exact absurd hstep (by simp)

end

/-! ## Scripts -/

/-- Carry out a script; the flag tells whether every write was accepted. -/
def perform (exec : σ → ω → Option σ) : σ → List ω → σ × Bool
  | s, [] => (s, true)
  | s, w :: ws =>
      match exec s w with
      | some s' => perform exec s' ws
      | none => (s, false)

section
variable {exec : σ → ω → Option σ}

@[simp] theorem perform_nil (s : σ) : perform exec s [] = (s, true) := rfl

theorem perform_cons_some {s s' : σ} {w : ω} (ws : List ω) (h : exec s w = some s') :
    perform exec s (w :: ws) = perform exec s' ws := by simp [perform, h]

theorem perform_cons_none {s : σ} {w : ω} (ws : List ω) (h : exec s w = none) :
    perform exec s (w :: ws) = (s, false) := by simp [perform, h]

/-- **Script rule.** What every write keeps, a script keeps, wherever it stops. -/
theorem perform_invariant {I : σ → Prop} {ws : List ω}
    (hw : ∀ s s' w, w ∈ ws → I s → exec s w = some s' → I s') {s : σ} (hs : I s) :
    I (perform exec s ws).1 := by
  induction ws generalizing s with
  | nil => exact hs
  | cons w ws ih =>
      cases h : exec s w with
      | none => rw [perform_cons_none ws h]; exact hs
      | some s' =>
          rw [perform_cons_some ws h]
          exact ih (fun t t' v hv => hw t t' v (List.mem_cons_of_mem w hv))
            (hw s s' w List.mem_cons_self hs h)

/-- Performing a script in two parts. -/
theorem perform_append (s : σ) (ws vs : List ω) (h : (perform exec s ws).2 = true) :
    perform exec s (ws ++ vs) = perform exec (perform exec s ws).1 vs := by
  induction ws generalizing s with
  | nil => rfl
  | cons w ws ih =>
      cases hw : exec s w with
      | none => rw [perform_cons_none ws hw] at h; exact absurd h (by simp)
      | some s' =>
          rw [perform_cons_some ws hw] at h ⊢
          rw [List.cons_append, perform_cons_some _ hw]
          exact ih s' h

/-- A script is carried out when its two parts are. -/
theorem perform_append_ok {s s' : σ} {ws vs : List ω} :
    perform exec s (ws ++ vs) = (s', true) ↔
      ∃ t, perform exec s ws = (t, true) ∧ perform exec t vs = (s', true) := by
  induction ws generalizing s with
  | nil => simp
  | cons w ws ih =>
      cases hw : exec s w with
      | none => simp [perform_cons_none _ hw]
      | some t => rw [List.cons_append, perform_cons_some _ hw, perform_cons_some _ hw, ih]

/-- A write that has taken effect: doing it again changes nothing. -/
def Settled (exec : σ → ω → Option σ) (s : σ) (w : ω) : Prop := exec s w = some s

theorem perform_settled {s : σ} {ws : List ω} (h : ∀ w ∈ ws, Settled exec s w) :
    perform exec s ws = (s, true) := by
  induction ws with
  | nil => rfl
  | cons w ws ih =>
      rw [perform_cons_some ws (h w List.mem_cons_self)]
      exact ih fun v hv => h v (List.mem_cons_of_mem w hv)

/-- What `perform_redo` asks of the writes of a script: each settles when it is done and stays settled while the
    others are done. -/
structure Redoable (exec : σ → ω → Option σ) (ws : List ω) : Prop where
  settles : ∀ w ∈ ws, ∀ s s', exec s w = some s' → Settled exec s' w
  stays : ∀ w ∈ ws, ∀ v ∈ ws, ∀ s s', Settled exec s w → exec s v = some s' → Settled exec s' w

/-- What a part of a redoable script has written is settled, and so is what was settled before. -/
theorem Redoable.settled {ws us : List ω} (h : Redoable exec ws) (hsub : us ⊆ ws) {s t : σ}
    (hp : perform exec s us = (t, true)) : ∀ w ∈ ws, Settled exec s w ∨ w ∈ us → Settled exec t w := by
  induction us generalizing s with
  | nil =>
      rw [perform_nil, Prod.mk.injEq] at hp
      rintro w _ (hw | hw)
      · exact hp.1 ▸ hw
      · exact absurd hw (by simp)
  | cons v us ih =>
      cases hv : exec s v with
      | none => rw [perform_cons_none us hv] at hp; exact absurd hp (by simp)
      | some s' =>
          rw [perform_cons_some us hv] at hp
          have hvws : v ∈ ws := hsub List.mem_cons_self
          intro w hw hcase
          refine ih (fun u hu => hsub (List.mem_cons_of_mem v hu)) hp w hw ?_
          rcases hcase with h1 | h1
          · exact .inl (h.stays w hw v hvws s s' h1 hv)
          · rcases List.mem_cons.mp h1 with rfl | h1
            · exact .inl (h.settles w hw s s' hv)
            · exact .inr h1

/-- **Redo rule.** A redoable script may be stopped anywhere and started over. -/
theorem perform_redo {ws : List ω} (hws : Redoable exec ws) {s t : σ} {k : Nat}
    (h : perform exec s (ws.take k) = (t, true)) : perform exec t ws = perform exec s ws := by
  have hsettled : perform exec t (ws.take k) = (t, true) := perform_settled fun w hw =>
    hws.settled (List.take_subset k ws) h w (List.mem_of_mem_take hw) (.inr hw)
  have hparts := List.take_append_drop k ws
  rw [← hparts, perform_append t _ _ (by rw [hsettled]), hsettled, perform_append s _ _ (by rw [h]), h]

end

end Trace
