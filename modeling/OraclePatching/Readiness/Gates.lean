import OraclePatching.Common
import OraclePatching.Lib.Cut

/-!
# `Readiness.Gates` — how the evaluators keep what they recorded

`opu-readiness-evaluate`, `opu-dataguard-evaluate` and `opu-snapshot-reconcile` record what they find as texts
`name|status|detail` in an array, and take each text apart again: once for the verdict (`has_blocker`), once for the
JSON they emit. The three differ in their names and in the words of the verdict only.
-/

namespace OraclePatching.Readiness

open CutText

/-! ## Entries -/

inductive Status where
  | pass
  | warning
  | blocker
  deriving DecidableEq, Repr

def Status.name : Status → String
  | .pass => "pass"
  | .warning => "warning"
  | .blocker => "blocker"

inductive Tool where
  | readinessEvaluate
  | dataguardEvaluate
  | snapshotReconcile

/-- The names a tool records entries under. -/
def Tool.names : Tool → List String
  | .readinessEvaluate =>
      ["artifact", "topology", "snapshot_contract", "snapshot_duplicate", "snapshot_membership", "snapshot_freshness",
        "grid_runtime", "home_inventory", "platform_inventory", "authoritative_inventory", "patch_not_installed",
        "database_runtime", "dataguard_standby_first", "dataguard_unsupported", "dataguard_primary", "database_open",
        "database_invalid_objects", "database_sql_state", "recovery_backup", "recovery_fra", "recovery_restore_point",
        "snapshot_missing", "snapshot_binding", "compatibility_contract", "compatibility_home"]
  | .dataguardEvaluate =>
      ["observation_freshness", "sample_freshness", "role", "broker", "members", "member_status", "lag"]
  | .snapshotReconcile =>
      ["SNAPSHOT_UNAVAILABLE", "SNAPSHOT_INVALID", "CLUSTER_MEMBERSHIP_MISMATCH", "GRID_INVENTORY_MISMATCH",
        "ORACLE_HOME_INVENTORY_MISMATCH", "DATABASE_CONFIGURATION_MISMATCH", "SNAPSHOT_HOST_NOT_ACTIVE",
        "ORACLE_HOME_PLATFORM_UNAVAILABLE", "DISCOVERY_WARNING", "SNAPSHOT_MISSING", "NO_VALID_SNAPSHOTS"]

/-- The status of a result without a blocker. -/
def Tool.clear : Tool → String
  | .readinessEvaluate => "ready_for_approval"
  | .dataguardEvaluate => "ready_for_standby_first"
  | .snapshotReconcile => "consistent"

/-- What one call of `gate` or `add_finding` records. -/
structure Gate where
  name : String
  status : Status
  detail : String

/-! ## The array of texts -/

/-- `gate`, `add_finding`: the text that is appended. -/
def Gate.item (g : Gate) : List Char := record g.name.toList g.status.name.toList g.detail.toList

/-- `has_blocker`. -/
def hasBlocker (gates : List Gate) : Bool := gates.any fun g => field2 g.item == "blocker".toList

/-- An object of the emitted array: `{name,status,detail}`, for the reconciler `{code,severity,message}`. -/
structure Emitted where
  name : String
  status : String
  detail : String
  deriving DecidableEq

/-- `gate_json`. -/
def gateJson (gates : List Gate) : List Emitted :=
  gates.map fun g => ⟨String.ofList (field1 g.item), String.ofList (field2 g.item), String.ofList (field3 g.item)⟩

/-- The status `emit` writes. -/
def Tool.status (tool : Tool) (gates : List Gate) : String := if hasBlocker gates then "blocked" else tool.clear

/-! ## Reading an entry back -/

/-- The object that says what was recorded. -/
def Gate.emitted (g : Gate) : Emitted := ⟨g.name, g.status.name, g.detail⟩

/-- A name that the delimiter and the line breaks leave alone. -/
def shortName (name : String) : Bool := !name.toList.contains '|' && !name.toList.contains '\n'

theorem shortName_iff {name : String} : shortName name = true ↔ '|' ∉ name.toList ∧ '\n' ∉ name.toList := by
  unfold shortName
  simp

theorem Status.shortName (s : Status) : shortName s.name = true := by
  cases s <;> decide

theorem Tool.shortNames (tool : Tool) : ∀ name ∈ tool.names, shortName name = true := by
  cases tool <;> decide

theorem Tool.clear_ne_blocked (tool : Tool) : tool.clear ≠ "blocked" := by
  cases tool <;> decide

theorem Status.name_blocker (s : Status) : s.name.toList = "blocker".toList ↔ s = .blocker := by
  cases s <;> decide

section
variable {g : Gate} (hname : Readiness.shortName g.name = true)
include hname

/-- **An entry is emitted as it was recorded exactly when its detail is one line.** -/
theorem emitted_iff :
    (⟨String.ofList (field1 g.item), String.ofList (field2 g.item), String.ofList (field3 g.item)⟩ : Emitted) = g.emitted
      ↔ '\n' ∉ g.detail.toList := by
  obtain ⟨hbar, hbreak⟩ := shortName_iff.mp hname
  obtain ⟨hsbar, hsbreak⟩ := shortName_iff.mp g.status.shortName
  have hfirst : field1 g.item = g.name.toList := field1_record hbar
  rw [← fields_iff (c := g.detail.toList) hbar hbreak hsbar hsbreak]
  show _ = Emitted.mk g.name g.status.name g.detail ↔ field2 g.item = _ ∧ field3 g.item = _
  rw [hfirst, Emitted.mk.injEq, String.ofList_toList]
  constructor
  · rintro ⟨_, h2, h3⟩
    exact ⟨by rw [← h2, String.toList_ofList], by rw [← h3, String.toList_ofList]⟩
  · rintro ⟨h2, h3⟩
    exact ⟨rfl, by rw [h2, String.ofList_toList], by rw [h3, String.ofList_toList]⟩

/-- A detail of one line does not hide the status. -/
theorem field2_item (h : '\n' ∉ g.detail.toList) : field2 g.item = g.status.name.toList := by
  obtain ⟨hbar, hbreak⟩ := shortName_iff.mp hname
  obtain ⟨hsbar, hsbreak⟩ := shortName_iff.mp g.status.shortName
  exact ((fields_iff hbar hbreak hsbar hsbreak).mpr h).1

end

/-- **Without line breaks the verdict is right**: it blocks exactly when an entry does. -/
theorem hasBlocker_iff {gates : List Gate} (hname : ∀ g ∈ gates, shortName g.name = true)
    (hline : ∀ g ∈ gates, '\n' ∉ g.detail.toList) :
    hasBlocker gates = true ↔ ∃ g ∈ gates, g.status = .blocker := by
  unfold hasBlocker
  rw [List.any_eq_true]
  constructor
  · rintro ⟨g, hg, hfield⟩
    rw [field2_item (hname g hg) (hline g hg), beq_iff_eq, Status.name_blocker] at hfield
    exact ⟨g, hg, hfield⟩
  · rintro ⟨g, hg, hstatus⟩
    refine ⟨g, hg, ?_⟩
    rw [field2_item (hname g hg) (hline g hg), beq_iff_eq, Status.name_blocker]
    exact hstatus

end OraclePatching.Readiness
