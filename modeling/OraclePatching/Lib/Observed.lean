import Mathlib.Data.List.DropRight
import OraclePatching.Lib.Trace

/-!
# `Lib.Observed` — scripts with the answers they meet, and accounts of them

A script of durable steps says what a program does and leaves out what it is told. `observed` puts the answers back:
each step is followed by what it makes the program see. A process may stop between any two events, and has then done
a prefix of its steps (`steps_take`).

An account goes through the events with a ledger. `Accounted` says that every event fits the ledger it meets; accounts
are put together by `accounted_append` and by `accounted_of_keeps`, the rule for a stretch with an invariant.
-/

namespace Trace

/-! ## Events -/

/-- A step of a script, or an answer to it. -/
inductive Event (ω β : Type) where
  | step (w : ω)
  | answer (b : β)

section
variable {ω β : Type}

def Event.step? : Event ω β → Option ω
  | .step w => some w
  | .answer _ => none

/-- The script, each step followed by its answers. -/
def observed (answers : ω → List β) (ws : List ω) : List (Event ω β) :=
  ws.flatMap fun w => .step w :: (answers w).map .answer

variable {answers : ω → List β} {ws vs : List ω}

@[simp] theorem observed_nil : observed answers [] = [] := rfl

theorem observed_append : observed answers (ws ++ vs) = observed answers ws ++ observed answers vs :=
  List.flatMap_append

/-- The steps of an observed script are the script. -/
theorem steps_observed (answers : ω → List β) (ws : List ω) : (observed answers ws).filterMap Event.step? = ws := by
  induction ws with
  | nil => rfl
  | cons w ws ih =>
      have hanswers : ((answers w).map Event.answer).filterMap (Event.step? (ω := ω)) = [] := by
        rw [List.filterMap_eq_nil_iff]
        intro e he
        obtain ⟨b, -, rfl⟩ := List.mem_map.mp he
        rfl
      have hstep : (Event.step w : Event ω β).step? = some w := rfl
      show (Event.step w :: (answers w).map .answer ++ observed answers ws).filterMap Event.step? = w :: ws
      rw [List.filterMap_append, List.filterMap_cons_some hstep, hanswers, ih, List.singleton_append]

/-- A process that is stopped between two events has done a prefix of its steps. -/
theorem steps_take (answers : ω → List β) (ws : List ω) (k : Nat) :
    ∃ j, ((observed answers ws).take k).filterMap Event.step? = ws.take j := by
  have hprefix := (List.take_prefix k (observed answers ws)).filterMap Event.step?
  rw [steps_observed] at hprefix
  exact ⟨_, List.prefix_iff_eq_take.mp hprefix⟩

theorem mem_observed {e : Event ω β} : e ∈ observed answers ws ↔
    ∃ w ∈ ws, e = .step w ∨ ∃ b ∈ answers w, e = .answer b := by
  unfold observed
  rw [List.mem_flatMap]
  refine exists_congr fun w => and_congr_right fun _ => ?_
  rw [List.mem_cons, List.mem_map]
  exact or_congr_right (exists_congr fun b => and_congr_right fun _ => eq_comm)

theorem mem_observed_step {w : ω} : Event.step w ∈ observed answers ws ↔ w ∈ ws := by
  simp [mem_observed]

theorem mem_observed_answer {b : β} : Event.answer b ∈ observed answers ws ↔ ∃ w ∈ ws, b ∈ answers w := by
  simp [mem_observed]

end

/-! ## Accounts -/

section
variable {L E : Type} {enter : L → E → L} {fit : L → E → Prop} {l : L} {es fs : List E}

/-- Every event fits the ledger it meets. -/
def Accounted (enter : L → E → L) (fit : L → E → Prop) : L → List E → Prop
  | _, [] => True
  | l, e :: es => fit l e ∧ Accounted enter fit (enter l e) es

theorem accounted_append :
    Accounted enter fit l (es ++ fs) ↔ Accounted enter fit l es ∧ Accounted enter fit (es.foldl enter l) fs := by
  induction es generalizing l with
  | nil => simp [Accounted]
  | cons e es ih =>
      show fit l e ∧ Accounted enter fit (enter l e) (es ++ fs) ↔
        (fit l e ∧ Accounted enter fit (enter l e) es) ∧ Accounted enter fit (es.foldl enter (enter l e)) fs
      rw [ih, and_assoc]

/-- An account covers wherever the process stops. -/
theorem Accounted.take (h : Accounted enter fit l es) (k : Nat) : Accounted enter fit l (es.take k) := by
  rw [← List.take_append_drop k es, accounted_append] at h
  exact h.1

/-- **Stretch rule.** Where an invariant makes each event fit and is kept by it, the stretch is accounted for and ends
    in the invariant. -/
theorem accounted_of_keeps {I : L → Prop} (hkeeps : ∀ l e, e ∈ es → I l → fit l e ∧ I (enter l e)) (hl : I l) :
    Accounted enter fit l es ∧ I (es.foldl enter l) := by
  induction es generalizing l with
  | nil => exact ⟨trivial, hl⟩
  | cons e es ih =>
      obtain ⟨hfit, hnext⟩ := hkeeps l e List.mem_cons_self hl
      obtain ⟨hrest, hend⟩ := ih (fun l' e' he' => hkeeps l' e' (List.mem_cons_of_mem e he')) hnext
      exact ⟨⟨hfit, hrest⟩, hend⟩

end

end Trace
