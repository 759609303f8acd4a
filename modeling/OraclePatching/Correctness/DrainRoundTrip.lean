import OraclePatching.Rac.Services
import OraclePatching.Controller.Control

/-!
# `Correctness.DrainRoundTrip` — which services are back on the instance once its node is patched

`drain_services` records the services that its own attempt relocated. An attempt that fails after a relocation still
reports `no_mutation` (`failed_drain_retryable`), so its services are off the instance when the next attempt looks,
and no record names them. `drain_round_trip` says exactly when the placement comes back: it compares what ran on the
instance before the first attempt with what the successful attempt still found there.
-/

namespace OraclePatching.Rac

/-! ## Runs -/

/-- The placement after attempts that all fail. -/
def failedDrains (localInst : String) : List Drain → Placement → Option Placement
  | [], p => some p
  | a :: attempts, p =>
      match stageRacDrain localInst a p with
      | (p', none) => failedDrains localInst attempts p'
      | (_, some _) => none

/-- A node from the first attempt to drain it to the success of `rac_start`. -/
structure NodeRun (localInst : String) (auto : String → Bool) where
  initial : Placement
  failed : List Drain
  before : Placement
  last : Drain
  drained : Placement
  file : DrainState
  stopSurvivors : List String
  stopped : Placement
  patched : Placement
  replies : List Reply
  final : Placement
  fails : failedDrains localInst failed initial = some before
  drains : stageRacDrain localInst last before = (drained, some file)
  stops : stageRacStop localInst stopSurvivors file drained = some stopped
  applies : stageRacOpatchApply localInst file stopped = some patched
  starts : stageRacStart auto localInst file replies patched = some final

/-- The services on the local instance are those that ran there before the first attempt. -/
def NodeRun.RoundTrip {localInst : String} {auto : String → Bool} (r : NodeRun localInst auto) : Prop :=
  ∀ s ∈ r.initial.services, localInst ∈ r.final.on s ↔ localInst ∈ r.initial.on s

/-- A service that ran on the instance either comes up with it, or is still there, and not on the survivor as well,
    when the successful attempt begins; and no other service comes up with the instance. -/
def NodeRun.Restorable {localInst : String} {auto : String → Bool} (r : NodeRun localInst auto) : Prop :=
  ∀ s ∈ r.initial.services,
    (localInst ∈ r.initial.on s → auto s = true ∨
      (localInst ∈ r.before.on s ∧ ∀ survivor, r.last.survivors.head? = some survivor → survivor ∉ r.before.on s)) ∧
      (auto s = true → localInst ∈ r.initial.on s)

/-! ## Draining -/

section
variable {localInst survivor : String} {p p' : Placement}

@[simp] theorem place_services (service : String) (instances : List String) :
    (p.place service instances).services = p.services := rfl

theorem place_on_self (service : String) (instances : List String) :
    (p.place service instances).on service = instances := if_pos rfl

theorem place_on_ne {service other : String} (instances : List String) (h : other ≠ service) :
    (p.place service instances).on other = p.on other := if_neg h

theorem mem_rows {row : String × List String} : row ∈ p.rows ↔ row.1 ∈ p.services ∧ row.2 = p.on row.1 := by
  unfold Placement.rows
  rw [List.mem_map]
  constructor
  · rintro ⟨s, hs, rfl⟩
    exact ⟨hs, rfl⟩
  · rintro ⟨hs, hon⟩
    exact ⟨row.1, hs, Prod.ext rfl hon.symm⟩

/-- A row that `drain_services` relocates. -/
def Moves (localInst survivor : String) (row : String × List String) : Prop :=
  localInst ∈ row.2 ∧ survivor ∉ row.2

instance (row : String × List String) : Decidable (Moves localInst survivor row) := by
  unfold Moves
  infer_instance

/-- **What a drain loop leaves**, however it ends: the rows it does not relocate stay where they are. -/
theorem drainLoop_frame {rows : List (String × List String)} {replies : List Reply} {relocated : List String}
    {out : Option (List String)} (h : drainLoop localInst survivor rows replies p relocated = (p', out)) :
    p'.services = p.services ∧
      ∀ s, (∀ row ∈ rows, row.1 = s → ¬ Moves localInst survivor row) → p'.on s = p.on s := by
  induction rows generalizing replies p relocated with
  | nil =>
      rw [drainLoop, Prod.mk.injEq] at h
      rw [h.1]
      exact ⟨rfl, fun _ _ => rfl⟩
  | cons row rows ih =>
      obtain ⟨service, instances⟩ := row
      unfold drainLoop at h
      split at h
      · injection h with h _
        rw [h]
        exact ⟨rfl, fun _ _ => rfl⟩
      split at h
      -- a row that moves touches its own service only
      · rename_i hmoves
        have hne : ∀ s, (∀ row ∈ (service, instances) :: rows, row.1 = s → ¬ Moves localInst survivor row) →
            s ≠ service := fun s hs he => hs (service, instances) List.mem_cons_self he.symm hmoves
        split at h
        · injection h with h _
          rw [h]
          exact ⟨rfl, fun _ _ => rfl⟩
        · injection h with h _
          rw [← h]
          exact ⟨rfl, fun s hs => place_on_ne _ (hne s hs)⟩
        · obtain ⟨hserv, hon⟩ := ih h
          refine ⟨hserv, fun s hs => ?_⟩
          rw [hon s fun row hrow => hs row (List.mem_cons_of_mem _ hrow)]
          exact place_on_ne _ (hne s hs)
      · obtain ⟨hserv, hon⟩ := ih h
        exact ⟨hserv, fun s hs => hon s fun row hrow => hs row (List.mem_cons_of_mem _ hrow)⟩

/-- A loop that comes to its end brings nothing back to the local instance. -/
theorem drainLoop_off {rows : List (String × List String)} {replies : List Reply} {relocated m : List String}
    (hne : survivor ≠ localInst) (h : drainLoop localInst survivor rows replies p relocated = (p', some m)) {s : String}
    (hoff : localInst ∉ p.on s) : localInst ∉ p'.on s := by
  induction rows generalizing replies p relocated with
  | nil =>
      rw [drainLoop, Prod.mk.injEq] at h
      rwa [← h.1]
  | cons row rows ih =>
      obtain ⟨service, instances⟩ := row
      unfold drainLoop at h
      split at h
      · exact absurd (congrArg Prod.snd h) (by simp)
      split at h
      · split at h
        · exact absurd (congrArg Prod.snd h) (by simp)
        · exact absurd (congrArg Prod.snd h) (by simp)
        · refine ih h ?_
          unfold Placement.relocate
          by_cases hs : s = service
          · rw [hs, place_on_self]
            simp [hne.symm]
          · rwa [place_on_ne _ hs]
      · exact ih h hoff

/-- **What a finished drain loop records**: the services of the rows it relocates, which are off the instance. -/
theorem drainLoop_done {rows : List (String × List String)} {replies : List Reply} {relocated m : List String}
    (h : drainLoop localInst survivor rows replies p relocated = (p', some m)) :
    ∃ new, m = relocated ++ new ∧ (∀ s, s ∈ new ↔ ∃ row ∈ rows, row.1 = s ∧ Moves localInst survivor row) ∧
      ∀ s ∈ new, localInst ∉ p'.on s := by
  induction rows generalizing replies p relocated with
  | nil =>
      rw [drainLoop, Prod.mk.injEq, Option.some.injEq] at h
      exact ⟨[], by rw [h.2, List.append_nil], by simp, by simp⟩
  | cons row rows ih =>
      obtain ⟨service, instances⟩ := row
      unfold drainLoop at h
      split at h
      · exact absurd (congrArg Prod.snd h) (by simp)
      split at h
      · rename_i hmoves
        have hne : survivor ≠ localInst := fun he => hmoves.2 (he ▸ hmoves.1)
        split at h
        · exact absurd (congrArg Prod.snd h) (by simp)
        · exact absurd (congrArg Prod.snd h) (by simp)
        -- the row is relocated: its service is recorded, and no later row brings it back
        · obtain ⟨new, hm, hnew, hoff⟩ := ih h
          refine ⟨service :: new, by rw [hm, List.append_assoc]; rfl, fun s => ?_, fun s hs => ?_⟩
          · rw [List.mem_cons, hnew s]
            constructor
            · rintro (rfl | ⟨row, hrow, hs⟩)
              · exact ⟨(s, instances), List.mem_cons_self, rfl, hmoves⟩
              · exact ⟨row, List.mem_cons_of_mem _ hrow, hs⟩
            · rintro ⟨row, hrow, hs, hmv⟩
              rcases List.mem_cons.mp hrow with rfl | hrow
              · exact .inl hs.symm
              · exact .inr ⟨row, hrow, hs, hmv⟩
          · rcases List.mem_cons.mp hs with rfl | hs
            · refine drainLoop_off hne h ?_
              unfold Placement.relocate
              rw [place_on_self]
              simp [hne.symm]
            · exact hoff s hs
      -- the row stays where it is and is not recorded
      · rename_i hstays
        obtain ⟨new, hm, hnew, hoff⟩ := ih h
        refine ⟨new, hm, fun s => ?_, hoff⟩
        rw [hnew s]
        constructor
        · rintro ⟨row, hrow, hs⟩
          exact ⟨row, List.mem_cons_of_mem _ hrow, hs⟩
        · rintro ⟨row, hrow, hs, hmv⟩
          rcases List.mem_cons.mp hrow with rfl | hrow
          · exact absurd hmv hstays
          · exact ⟨row, hrow, hs, hmv⟩

/-- No attempt brings a service to the local instance that was not there. -/
theorem stageRacDrain_frame {a : Drain} {out : Option DrainState} (h : stageRacDrain localInst a p = (p', out)) :
    p'.services = p.services ∧ ∀ s, localInst ∈ p'.on s → s ∈ p.services → localInst ∈ p.on s := by
  have hsame : p = p' → p'.services = p.services ∧
      ∀ s, localInst ∈ p'.on s → s ∈ p.services → localInst ∈ p.on s := by
    rintro rfl
    exact ⟨rfl, fun _ hs _ => hs⟩
  unfold stageRacDrain at h
  split at h
  · rename_i survivor _ _ _
    unfold drainServices at h
    split at h
    · have hloop : ∃ out, drainLoop localInst survivor p.rows a.replies p [] = (p', out) := by
        split at h
        · rename_i q heq
          exact ⟨none, by rw [heq, (Prod.mk.inj h).1]⟩
        · rename_i q relocated heq
          refine ⟨some relocated, ?_⟩
          split at h <;> rw [heq, (Prod.mk.inj h).1]
      obtain ⟨_, hloop⟩ := hloop
      obtain ⟨hserv, hon⟩ := drainLoop_frame hloop
      refine ⟨hserv, fun s hs hmem => ?_⟩
      -- a service that is not on the instance is in no row that moves
      by_contra hoff
      refine hoff ?_
      rw [← hon s fun row hrow hname hmoves => ?_]
      · exact hs
      · obtain ⟨_, hinst⟩ := mem_rows.mp hrow
        rw [hname] at hinst
        exact hoff (hinst ▸ hmoves.1)
    · exact hsame (Prod.mk.inj h).1
  · exact hsame (Prod.mk.inj h).1

theorem failedDrains_frame {attempts : List Drain} (h : failedDrains localInst attempts p = some p') :
    p'.services = p.services ∧ ∀ s, localInst ∈ p'.on s → s ∈ p.services → localInst ∈ p.on s := by
  induction attempts generalizing p with
  | nil =>
      rw [failedDrains, Option.some.injEq] at h
      rw [h]
      exact ⟨rfl, fun _ hs _ => hs⟩
  | cons a attempts ih =>
      rw [failedDrains] at h
      split at h
      · rename_i q heq
        obtain ⟨hserv, hon⟩ := stageRacDrain_frame heq
        obtain ⟨hserv', hon'⟩ := ih h
        refine ⟨hserv'.trans hserv, fun s hs hmem => hon s (hon' s hs ?_) hmem⟩
        rw [hserv]
        exact hmem
      · exact absurd h (by simp)

/-- **What a successful drain has recorded.** -/
theorem stageRacDrain_done {a : Drain} {file : DrainState} (h : stageRacDrain localInst a p = (p', some file)) :
    a.survivors.head? = some file.survivor ∧
      (∀ s, s ∈ file.relocatedServices ↔ s ∈ p.services ∧ localInst ∈ p.on s ∧ file.survivor ∉ p.on s) := by
  unfold stageRacDrain at h
  split at h
  · rename_i survivor rest _ hsurv
    unfold drainServices at h
    split at h
    · split at h
      · exact absurd (congrArg Prod.snd h) (by simp)
      · rename_i q relocated heq
        split at h
        · have hfile := Option.some.inj (Prod.mk.inj h).2
          obtain ⟨new, hm, hnew, _⟩ := drainLoop_done heq
          rw [List.nil_append] at hm
          rw [← hfile, hsurv]
          refine ⟨rfl, fun s => ?_⟩
          show s ∈ relocated ↔ _
          rw [hm, hnew s]
          constructor
          · rintro ⟨row, hrow, rfl, hmoves⟩
            obtain ⟨hmem, hinst⟩ := mem_rows.mp hrow
            rw [← hinst]
            exact ⟨hmem, hmoves⟩
          · rintro ⟨hmem, hmoves⟩
            exact ⟨(s, p.on s), mem_rows.mpr ⟨hmem, rfl⟩, rfl, hmoves⟩
        · exact absurd (congrArg Prod.snd h) (by simp)
    · exact absurd (congrArg Prod.snd h) (by simp)
  · exact absurd (congrArg Prod.snd h) (by simp)

/-! ## Stopping, starting and restoring -/

theorem stageRacStop_off {survivors : List String} {file : DrainState}
    (h : stageRacStop localInst survivors file p = some p') (s : String) : localInst ∉ p'.on s := by
  unfold stageRacStop at h
  split at h
  · exact absurd h (by simp)
  · split at h
    · dsimp only at h
      split at h
      · rw [← Option.some.inj h]
        simp [Placement.stopInstance]
      · exact absurd h (by simp)
    · exact absurd h (by simp)

theorem stageRacOpatchApply_same {file : DrainState} (h : stageRacOpatchApply localInst file p = some p') : p' = p := by
  unfold stageRacOpatchApply at h
  split at h
  · exact (Option.some.inj h).symm
  · exact absurd h (by simp)

theorem restoreLoop_on {services : List String} {replies : List Reply}
    (h : restoreLoop localInst survivor services replies p = some p') {s : String} (hs : s ∉ services) :
    p'.on s = p.on s := by
  induction services generalizing replies p with
  | nil =>
      rw [restoreLoop, Option.some.injEq] at h
      rw [h]
  | cons service services ih =>
      rw [List.mem_cons, not_or] at hs
      unfold restoreLoop at h
      split at h
      · rename_i heq
        exact absurd heq (by simp)
      · rename_i heq
        obtain ⟨rfl, rfl⟩ := List.cons.inj heq
        split at h
        · rw [ih h hs.2]
          exact place_on_ne _ hs.1
        · exact absurd h (by simp)
      · exact absurd h (by simp)

/-- **What runs on the instance after `rac_start`**: the recorded services, and what Clusterware brought up. -/
theorem stageRacStart_on {auto : String → Bool} {file : DrainState} {replies : List Reply}
    (h : stageRacStart auto localInst file replies p = some p') (hoff : ∀ s, localInst ∉ p.on s) (s : String) :
    localInst ∈ p'.on s ↔ s ∈ file.relocatedServices ∨ auto s = true := by
  unfold stageRacStart at h
  split at h
  · split at h
    · exact absurd h (by simp)
    · rename_i restored hrestored
      split at h
      · obtain rfl := Option.some.inj h
        unfold restoreDrainedServices at hrestored
        split at hrestored
        · split at hrestored
          · exact absurd hrestored (by simp)
          · rename_i q hloop
            split at hrestored
            · rename_i hall
              obtain rfl := Option.some.inj hrestored
              -- a recorded service is checked after the loop; any other is placed by the start alone
              by_cases hs : s ∈ file.relocatedServices
              · have hthere := List.all_eq_true.mp hall s hs
                exact ⟨fun _ => .inl hs, fun _ => by simpa using hthere⟩
              · rw [restoreLoop_on hloop hs]
                simp only [Placement.startInstance]
                split
                · rename_i hauto
                  simp [hauto]
                · rename_i hauto
                  exact ⟨fun hin => absurd hin (hoff s), fun hor => absurd hor (by simp [hs, hauto])⟩
            · exact absurd hrestored (by simp)
        · exact absurd hrestored (by simp)
      · exact absurd h (by simp)
  · exact absurd h (by simp)

end

/-! ## The round trip -/

/-- A failed drain writes no marker, so its evidence reports `no_mutation` and `retry-task` takes it. -/
theorem failed_drain_retryable {j : Json} {marker : String → Bool} (hmarker : ∀ name, marker name = false)
    (hpost : Json.isStr (j.at' ["postcondition", "status"]) "failed" = true)
    (hexit : Json.isNum (j.at' ["exit_code"]) 0 = false)
    (houtcome : Json.isStr (j.at' ["outcome_class"]) (deriveOutcome "rac_drain" marker) = true) :
    retrySafe j = true := by
  have hclass : deriveOutcome "rac_drain" marker = "no_mutation" := by
    simp [deriveOutcome, hmarker]
  rw [hclass] at houtcome
  simp [retrySafe, hpost, hexit, houtcome]

/-- **Where a service ends.** The final restore leaves on the instance what the successful attempt moved off it, and
    what comes up with the instance. -/
theorem NodeRun.final_on {localInst : String} {auto : String → Bool} (r : NodeRun localInst auto) {s : String}
    (hs : s ∈ r.initial.services) :
    localInst ∈ r.final.on s ↔ (localInst ∈ r.before.on s ∧
      ∀ survivor, r.last.survivors.head? = some survivor → survivor ∉ r.before.on s) ∨ auto s = true := by
  obtain ⟨hserv, -⟩ := failedDrains_frame r.fails
  obtain ⟨hsurvivor, hrecorded⟩ := stageRacDrain_done r.drains
  have hoff : ∀ s, localInst ∉ r.patched.on s := by
    rw [stageRacOpatchApply_same r.applies]
    exact stageRacStop_off r.stops
  rw [stageRacStart_on r.starts hoff s, hrecorded s, hserv]
  refine or_congr_left ⟨?_, ?_⟩
  · rintro ⟨_, hlocal, haway⟩
    refine ⟨hlocal, fun survivor hsurv => ?_⟩
    obtain rfl := Option.some.inj (hsurvivor.symm.trans hsurv)
    exact haway
  · rintro ⟨hlocal, haway⟩
    exact ⟨hs, hlocal, haway _ hsurvivor⟩

/-- **Drain and restore.** Over all failed attempts, the successful one and the stages after it, the services on the
    instance are the ones that ran there before the first attempt if and only if each of them comes up with the
    instance or is still there, and not on the survivor as well, when the successful attempt begins, and nothing else
    comes up with the instance. -/
theorem drain_round_trip {localInst : String} {auto : String → Bool} (r : NodeRun localInst auto) :
    r.RoundTrip ↔ r.Restorable := by
  -- a failed attempt only takes services off the instance
  obtain ⟨-, hnever⟩ := failedDrains_frame r.fails
  unfold NodeRun.RoundTrip NodeRun.Restorable
  refine forall_congr' fun s => forall_congr' fun hs => ?_
  rw [r.final_on hs]
  constructor
  · intro hback
    exact ⟨fun hlocal => (hback.mpr hlocal).symm, fun hauto => hback.mp (.inr hauto)⟩
  · rintro ⟨hthere, hauto⟩
    refine ⟨?_, fun hlocal => (hthere hlocal).symm⟩
    rintro (⟨hlocal, _⟩ | h)
    · exact hnever s hlocal hs
    · exact hauto h

/-! ### A retry that restores everything -/

/-- Two services on `db1`, and one that runs on both instances and comes up with either. The first attempt has failed
    on `app` and left it where it was. -/
def stillLocal : Placement :=
  (Placement.mk ["app", "batch", "report"] fun s => if s = "report" then ["db1", "db2"] else ["db1"]).place "app" ["db1"]

/-- After an attempt that relocated `app` and `batch`. -/
def allMoved : Placement := (stillLocal.relocate "app" "db1" "db2").relocate "batch" "db1" "db2"

def allStarted : Placement := (allMoved.stopInstance "db1").startInstance (· == "report") "db1"

/-- The first attempt fails on `app`, the second is killed before it moves a service, and the third relocates both. -/
def retriedDrain : NodeRun "db1" (· == "report") where
  initial := ⟨["app", "batch", "report"], fun s => if s = "report" then ["db1", "db2"] else ["db1"]⟩
  failed := [⟨true, ["db2"], true, [.broken ["db1"]], true⟩, ⟨true, ["db2"], true, [], true⟩]
  before := stillLocal
  last := ⟨true, ["db2"], true, [.done, .done], true⟩
  drained := allMoved
  file := ⟨"db1", "db2", ["app", "batch"]⟩
  stopSurvivors := ["db2"]
  stopped := allMoved.stopInstance "db1"
  patched := allMoved.stopInstance "db1"
  replies := [.done, .done]
  final := (allStarted.relocate "app" "db2" "db1").relocate "batch" "db2" "db1"
  fails := rfl
  drains := rfl
  stops := rfl
  applies := rfl
  starts := rfl

/-- Every service is back, `report` because it came up with the instance. -/
theorem retried_drain_restored : retriedDrain.Restorable ∧ retriedDrain.RoundTrip ∧
    retriedDrain.final.rows = [("app", ["db1"]), ("batch", ["db1"]), ("report", ["db2", "db1"])] := by
  have hrestorable : retriedDrain.Restorable := by
    unfold NodeRun.Restorable
    simp only [show retriedDrain.last.survivors.head? = some "db2" from rfl, Option.some.injEq, forall_eq']
    decide
  exact ⟨hrestorable, (drain_round_trip retriedDrain).mpr hrestorable, by decide⟩

/-! ## A service that stays on the survivor -/

/-- Both services on `db1`. -/
def bothLocal : Placement := ⟨["app", "batch"], fun _ => ["db1"]⟩

/-- After an attempt that relocated `app` and failed on `batch`. -/
def appMoved : Placement := (bothLocal.relocate "app" "db1" "db2").place "batch" ["db1"]

/-- After an attempt that relocated `batch`. -/
def bothMoved : Placement := appMoved.relocate "batch" "db1" "db2"

/-- The first attempt relocates `app` and fails on `batch`, the second relocates `batch`. -/
def splitDrain : NodeRun "db1" fun _ => false where
  initial := bothLocal
  failed := [⟨true, ["db2"], true, [.done, .broken ["db1"]], true⟩]
  before := appMoved
  last := ⟨true, ["db2"], true, [.done], true⟩
  drained := bothMoved
  file := ⟨"db1", "db2", ["batch"]⟩
  stopSurvivors := ["db2"]
  stopped := bothMoved.stopInstance "db1"
  patched := bothMoved.stopInstance "db1"
  replies := [.done]
  final := ((bothMoved.stopInstance "db1").startInstance (fun _ => false) "db1").relocate "batch" "db2" "db1"
  fails := rfl
  drains := rfl
  stops := rfl
  applies := rfl
  starts := rfl

/-- `app` ran on `db1`, and every stage reported success; it is not there any more. -/
theorem split_drain_lost : ¬ splitDrain.RoundTrip ∧ "app" ∈ splitDrain.initial.services ∧
    "db1" ∈ splitDrain.initial.on "app" ∧ splitDrain.final.on "app" = ["db2"] := by
  have hfinal : splitDrain.final.on "app" = ["db2"] := by decide
  refine ⟨fun h => ?_, by decide, by decide, hfinal⟩
  have hback := (h "app" (by decide)).mpr (by decide)
  rw [hfinal] at hback
  exact absurd hback (by decide)

end OraclePatching.Rac
