import OraclePatching.Readiness.Gates

/-!
# `Correctness.GateEncoding` — what an evaluator recorded and what it says

The law has two halves: the verdict blocks exactly when a recorded entry does, and the emitted array is the list of
recorded entries. Both rest on reading `name|status|detail` back, which `cut` does line by line. So the law holds as
long as no detail has a line break; a detail takes texts of the documents over as they are, and there it may have one.
-/

namespace OraclePatching.Readiness

/-- The law for one sequence of entries. -/
def EncodingLaw (tool : Tool) (gates : List Gate) : Prop :=
  (tool.status gates = "blocked" ↔ ∃ g ∈ gates, g.status = .blocker) ∧ gateJson gates = gates.map Gate.emitted

/-- **The verdict and the array say what was recorded, exactly when no detail has a line break.** -/
theorem gate_encoding (tool : Tool) (gates : List Gate) (hnames : ∀ g ∈ gates, g.name ∈ tool.names) :
    EncodingLaw tool gates ↔ ∀ g ∈ gates, '\n' ∉ g.detail.toList := by
  have hshort : ∀ g ∈ gates, shortName g.name = true := fun g hg => tool.shortNames g.name (hnames g hg)
  constructor
  · rintro ⟨_, hjson⟩ g hg
    unfold gateJson at hjson
    exact (emitted_iff (hshort g hg)).mp (List.map_inj_left.mp hjson g hg)
  · intro hline
    refine ⟨?_, ?_⟩
    · rw [← hasBlocker_iff hshort hline]
      unfold Tool.status
      by_cases hblock : hasBlocker gates = true
      · simp [hblock]
      · simp [hblock, tool.clear_ne_blocked]
    · unfold gateJson
      exact List.map_inj_left.mpr fun g hg => (emitted_iff (hshort g hg)).mpr (hline g hg)

/-- What an evaluation of two nodes records: the topology agrees, a snapshot is stale, and the path of a home has the
    delimiter in it. -/
def staleNode : List Gate :=
  [⟨"topology", .pass, "All supplied topology snapshots reconcile."⟩,
    ⟨"snapshot_freshness", .blocker, "Snapshot for node2 is stale or future-dated (2026-01-01T00:00:00Z)."⟩,
    ⟨"home_inventory", .blocker, "node2 lacks complete Oracle inventory for /u01/app|19c."⟩,
    ⟨"recovery_backup", .pass, "node1 database orcl: backup not required by sealed policy (customer waiver)."⟩]

theorem gate_encoding_stale : EncodingLaw .readinessEvaluate staleNode ∧
    Tool.status .readinessEvaluate staleNode = "blocked" ∧
    (gateJson staleNode).map (·.status) = ["pass", "blocker", "blocker", "pass"] :=
  ⟨(gate_encoding .readinessEvaluate staleNode (by decide)).mpr (by decide), by decide +kernel, by decide +kernel⟩

/-- The details that a host name with a line break gives a blocker. -/
def brokenHost : Gate := ⟨"snapshot_membership", .blocker, "Snapshot node a\nb is not in reconciled active membership."⟩

/-- **A blocker that does not block**: the second line of its detail hides its status. -/
theorem blocker_unseen :
    Tool.status .readinessEvaluate [brokenHost] = "ready_for_approval" ∧ ¬ EncodingLaw .readinessEvaluate [brokenHost] := by
  have hstatus : Tool.status .readinessEvaluate [brokenHost] = "ready_for_approval" := by decide +kernel
  refine ⟨hstatus, ?_⟩
  rintro ⟨hverdict, _⟩
  have hblocked := hverdict.mpr ⟨brokenHost, List.mem_singleton.mpr rfl, rfl⟩
  rw [hstatus] at hblocked
  exact absurd hblocked (by decide)

end OraclePatching.Readiness
