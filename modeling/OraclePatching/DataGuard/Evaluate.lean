import OraclePatching.DataGuard.Observation
import OraclePatching.Lib.Path
import OraclePatching.Readiness.Gates

/-!
# `DataGuard.Evaluate` — `opu-dataguard-evaluate`

The evaluator records gates: the age of the observation, the clocks of each sample, role, broker, and for each member
its status and its two lags. Members and samples come to the shell as rows of `@tsv`, numbers as texts. The verdict is
`Tool.status` of the gates.
-/

namespace OraclePatching.DataGuard

open Jq Readiness

/-! ## Gates of one row -/

/-- The gate of `check_freshness` on the whole observation. -/
def observationFreshness (age maximum : String) : Gate :=
  if testLe "0" age && testLe age maximum then
    ⟨"observation_freshness", .pass, "Observation is " ++ age ++ "s old (maximum " ++ maximum ++ "s)."⟩
  else ⟨"observation_freshness", .blocker, "Observation age " ++ age ++ "s is outside 0.." ++ maximum ++ "s."⟩

/-- Both ages are digits, and `$age >= 0 and ($computed + $age) <= $maximum and ($datum + $age) <= $maximum`. -/
def sampleFresh (computed datum : String) (age : Int) (maximum : Nat) : Bool :=
  match digits? computed.toList, digits? datum.toList with
  | some c, some d => decide (0 ≤ double age ∧ plus c age ≤ double maximum ∧ plus d age ≤ double maximum)
  | _, _ => false

/-- One turn of the loop over the samples. -/
def sampleGates (age : Int) (ageText : String) (maximum : Nat) (maximumText line : String) : List Gate :=
  let columns := words line
  let name := columns.getD 0 ""
  let kind := columns.getD 1 ""
  let status := columns.getD 2 ""
  let computed := columns.getD 3 ""
  let datum := columns.getD 4 ""
  if name = "" then []
  else if status = "collected" ∧ sampleFresh computed datum age maximum = true then
    [⟨"sample_freshness", .pass, name ++ " " ++ kind ++ " computation/data ages at collection " ++ computed ++ "/" ++
      datum ++ "s plus observation age " ++ ageText ++ "s are within " ++ maximumText ++ "s."⟩]
  else
    [⟨"sample_freshness", .blocker, name ++ " " ++ kind ++
      " metric has missing, future or stale TIME_COMPUTED/DATUM_TIME (status=" ++ status ++ "; computed=" ++ computed ++
      "; datum=" ++ datum ++ "; max=" ++ maximumText ++ "s)."⟩]

/-- The statuses `evaluate` accepts of a member. -/
def applyCapable : List String :=
  ["APPLYING_LOG", "applying_log", "WAIT_FOR_LOG", "wait_for_log", "ENABLED", "enabled", "VALID", "valid"]

def statusGate (name status : String) : Gate :=
  if status ∈ applyCapable then ⟨"member_status", .pass, name ++ " status is " ++ status ++ "."⟩
  else ⟨"member_status", .blocker, name ++ " status is " ++ status ++ "; expected apply-capable."⟩

/-- The gate of one lag; `kind` is `transport` or `apply`. -/
def lagGate (kind name lag maximum : String) : Gate :=
  if (integer? lag).isSome && testLe "0" lag && testLe lag maximum then
    ⟨"lag", .pass, name ++ " " ++ kind ++ " lag " ++ lag ++ "s within " ++ maximum ++ "s."⟩
  else
    ⟨"lag", .blocker, name ++ " " ++ kind ++ " lag " ++ lag ++ "s is unknown or exceeds policy " ++ maximum ++ "s."⟩

/-- One turn of the loop over the members. -/
def memberGates (maxTransport maxApply line : String) : List Gate :=
  let columns := words line
  let name := columns.getD 0 ""
  let status := columns.getD 1 ""
  let transport := columns.getD 2 ""
  let apply := columns.getD 3 ""
  if name = "" then []
  else [statusGate name status, lagGate "transport" name transport maxTransport, lagGate "apply" name apply maxApply]

def roleGate (role : String) : Gate :=
  if role = "PRIMARY" then ⟨"role", .pass, "Observed role is PRIMARY; standby-first order is applicable."⟩
  else if Path.contains role "STANDBY" = true then
    ⟨"role", .pass, "Observed role is " ++ role ++ "; evaluation may authorize standby-side work."⟩
  else ⟨"role", .blocker, "Unsupported database role: " ++ role⟩

def brokerGate (requireBroker : Bool) (broker : String) : Gate :=
  if requireBroker then
    if broker ∈ ["configured", "enabled", "ENABLED"] then ⟨"broker", .pass, "Broker status is " ++ broker ++ "."⟩
    else ⟨"broker", .blocker, "Broker is required but status is " ++ broker ++ "."⟩
  else ⟨"broker", .pass, "Broker requirement disabled by policy (status=" ++ broker ++ ")."⟩

def membersGate (count : Nat) (countText : String) : Gate :=
  if count < 1 then
    ⟨"members", .blocker,
      "Data Guard observation has no members; cannot evaluate lag or standby-first readiness."⟩
  else ⟨"members", .pass, "Observed " ++ countText ++ " Data Guard member(s)."⟩

/-! ## Rows -/

section
variable (env : Env)

/-- `[$name,$kind,($sample.status // …),…] | @tsv` for one sample. -/
def sampleFields (m : Member) (kind : String) : Option (List String) := do
  let sample := Json.orElse (m.lagSamples.field kind) (.obj [])
  let status ← tsvField env.number.print (Json.orElse (sample.field "status") (.str "unavailable"))
  let computed ← tsvField env.number.print (Json.orElse (sample.field "time_computed_age_seconds") (.num (-1)))
  let datum ← tsvField env.number.print (Json.orElse (sample.field "datum_age_seconds") (.num (-1)))
  some [escape m.dbUniqueName, kind, status, computed, datum]

/-- `.members[] as $name | ["transport","apply"][] as $kind`. -/
def samples (members : List Member) : List (Member × String) :=
  members.flatMap fun m => ["transport", "apply"].map fun kind => (m, kind)

/-- `$(jq -r …)` over the samples; an error of the filter is `none`. -/
def sampleRows (members : List Member) : Option (List String) :=
  (samples members).mapM fun s => (sampleFields env s.1 s.2).map row

/-- `(.lag // -1 | tostring)`. -/
def lagText (lag : Option Int) : String := env.number.print ((lag.getD (-1) : Int) : Rat)

def memberRow (m : Member) : String :=
  row [escape m.dbUniqueName, escape m.status, escape (lagText env m.transportLagSeconds),
    escape (lagText env m.applyLagSeconds)]

/-! ## The evaluation -/

/-- `(now - (.collected_at | fromdateiso8601)) | floor`. Two times of an age are small against `2^53` seconds, and their
    difference is taken as exact. -/
def age? (observation : Observation) (now : Rat) : Option Int :=
  (env.fromdateiso8601 observation.collectedAt).map fun collected : Int => (now - (collected : Rat)).floor

/-- The gates of the samples. Evidence that is not live has no clocks. -/
def sampleFreshness (observation : Observation) (policy : Policy) (age : Int) : Option (List Gate) :=
  if isVersion2 observation.document || sampledLive observation.document then
    (sampleRows env observation.members).map fun rows =>
      rows.flatMap (sampleGates age (env.number.print age) policy.maximumSampleAgeSeconds
        (env.number.print policy.maximumSampleAgeSeconds))
  else
    some [⟨"sample_freshness", .warning,
      "Legacy v1 evidence has no native sample clocks; only collection freshness can be checked."⟩]

def checkFreshness (observation : Observation) (policy : Policy) (now : Rat) : Ctl (List Gate) := do
  let age ← need (age? env observation now) 65 "invalid Data Guard observation collection timestamp"
  let sampleGates ← need (sampleFreshness env observation policy age) 65
    "could not inspect Data Guard sample clocks"
  .ok (observationFreshness (env.number.print age) (env.number.print policy.maximumObservationAgeSeconds) :: sampleGates)

/-- `.broker.status // "unavailable"`. -/
def broker (observation : Observation) : String :=
  Shell.cmdSubst (raw env.number env.document
    (Json.orElse (observation.document.at' ["broker", "status"]) (.str "unavailable")))

/-- The gates `evaluate` records. -/
def gates (observation : Observation) (policy : Policy) (now : Rat) : Ctl (List Gate) := do
  let freshness ← checkFreshness env observation policy now
  .ok (freshness ++
    [roleGate (Shell.cmdSubst observation.databaseRole), brokerGate policy.requireBroker (broker env observation),
      membersGate observation.members.length (env.number.print observation.members.length)] ++
    (observation.members.map (memberRow env)).flatMap
      (memberGates (env.number.print policy.maxTransportLagSeconds) (env.number.print policy.maxApplyLagSeconds)))

def emittedJson (e : Emitted) : Json := .obj [("name", .str e.name), ("status", .str e.status), ("detail", .str e.detail)]

/-- A document with its digest as the last field. -/
def sealRecord (fields : List (String × Json)) : Json :=
  .obj (fields ++ [("record_sha256", .str (env.hashString (.obj fields)).hex)])

def emit (gates : List Gate) (observe policy : File) (evaluatedAt : String) : Json :=
  sealRecord env
    [("schema_version", .str "1.0"), ("status", .str (Tool.dataguardEvaluate.status gates)),
      ("evaluated_at", .str evaluatedAt), ("gates", .arr ((gateJson gates).map emittedJson)),
      ("evidence",
        .obj [("observe_sha256", .str observe.sha256.hex), ("policy_sha256", .str policy.sha256.hex)])]

/-- `opu-dataguard-evaluate --observe … --policy …` at `now`; exit 0 and exit 2 emit a document. -/
def evaluate (observe policy : File) (now : Rat) (evaluatedAt : String) : Ctl Json := do
  let contracts ← checkContracts env observe policy
  let gates ← gates env contracts.1 contracts.2 now
  .ok (emit env gates observe policy evaluatedAt)

end

/-- `.status == "ready_for_standby_first"`. -/
def isReady (evaluation : Json) : Bool := Json.isStr (evaluation.field "status") "ready_for_standby_first"

/-! ## What an evaluation that is ready went through -/

section
variable {env : Env} {observe policyFile : File} {now : Rat} {evaluatedAt : String} {evaluation : Json}
  {observation : Observation} {policy : Policy} {all : List Gate}

theorem gates_ok (h : gates env observation policy now = .ok all) :
    ∃ age samples, age? env observation now = some age ∧ sampleFreshness env observation policy age = some samples ∧
      all = (observationFreshness (env.number.print age) (env.number.print policy.maximumObservationAgeSeconds) :: samples) ++
        [roleGate (Shell.cmdSubst observation.databaseRole), brokerGate policy.requireBroker (broker env observation),
          membersGate observation.members.length (env.number.print observation.members.length)] ++
        (observation.members.map (memberRow env)).flatMap
          (memberGates (env.number.print policy.maxTransportLagSeconds) (env.number.print policy.maxApplyLagSeconds)) := by
  unfold gates at h
  obtain ⟨freshness, hfresh, h⟩ := bind_ok.mp h
  unfold checkFreshness at hfresh
  obtain ⟨age, hage, hfresh⟩ := need_bind_ok.mp hfresh
  obtain ⟨samples, hsamples, hfresh⟩ := need_bind_ok.mp hfresh
  injection h with h
  injection hfresh with hfresh
  exact ⟨age, samples, hage, hsamples, by rw [← h, ← hfresh]⟩

theorem evaluate_ok (h : evaluate env observe policyFile now evaluatedAt = .ok evaluation) :
    ∃ observation policy all, observation? observe.json = some observation ∧ policy? policyFile.json = some policy ∧
      gates env observation policy now = .ok all ∧ evaluation = emit env all observe policyFile evaluatedAt := by
  unfold evaluate at h
  obtain ⟨⟨observation, policy⟩, hcontracts, h⟩ := bind_ok.mp h
  obtain ⟨all, hgates, h⟩ := bind_ok.mp h
  injection h with h
  obtain ⟨hobservation, hpolicy⟩ := checkContracts_ok hcontracts
  exact ⟨observation, policy, all, hobservation, hpolicy, hgates, h.symm⟩

theorem emit_ready : isReady (emit env all observe policyFile evaluatedAt) = true ↔ hasBlocker all = false := by
  have hfield : (emit env all observe policyFile evaluatedAt).field "status" =
      some (.str (Tool.dataguardEvaluate.status all)) := rfl
  unfold isReady
  rw [hfield, Json.isStr_iff]
  unfold Tool.status
  cases hblock : hasBlocker all with
  | true => simp
  | false => simp [Tool.clear]

/-- An entry of one line that a clear verdict passed over is no blocker. -/
theorem no_blocker {g : Gate} (hclear : hasBlocker all = false) (hg : g ∈ all) (hname : shortName g.name = true)
    (hline : '\n' ∉ g.detail.toList) : g.status ≠ .blocker := by
  intro hblocker
  have hmember := List.any_eq_false.mp hclear g hg
  rw [field2_item hname hline, hblocker] at hmember
  exact hmember (by decide)

end

/-! ## Documents for runs on fixed inputs -/

/-- The digest `0…0`. -/
def zeroDigest : Digest := ⟨0, by decide⟩

/-- An environment in which every text has the digest `0…0` and `2026-01-01T00:00:00Z` is the one time known. -/
def fixedEnv : Env where
  hashString _ := zeroDigest
  fromdateiso8601 text := if text = "2026-01-01T00:00:00Z" then some 1767225600 else none
  order := .numbers
  number := .ofFraction (fun _ => "0.5") (fun _ => Jq.plain_half) (fun _ => Jq.integer_half)
  document _ := "document"

def fixedFile (json : Json) : File := ⟨json, zeroDigest⟩

/-- A policy with limits of a minute that asks for no broker. -/
def fixedPolicy : Json :=
  .obj [("schema_version", .str "1.0"),
    ("dataguard", .obj [("max_transport_lag_seconds", .num 60), ("max_apply_lag_seconds", .num 60),
      ("require_broker", .bool false)])]

/-- A member of a version 1 observation that applies its log, `lag` seconds behind. -/
def fixedMember (name : String) (lag : Rat) : Json :=
  .obj [("db_unique_name", .str name), ("status", .str "APPLYING_LOG"), ("transport_lag_seconds", .num lag),
    ("apply_lag_seconds", .num lag)]

/-- A version 1 observation of the database `name` in the role `role`. -/
def fixedObservation (name role : String) (members : List Json) : Json :=
  .obj [("schema_version", .str "1.0"),
    ("collector", .obj [("name", .str "oracle.dataguard.observe"), ("version", .str "1")]),
    ("target", .obj [("db_unique_name", .str name)]),
    ("primary", .obj [("db_unique_name", .str name), ("database_role", .str role)]),
    ("collected_at", .str "2026-01-01T00:00:00Z"), ("members", .arr members),
    ("record_sha256", .str zeroDigest.hex)]

/-- Whether a run ended with a document that `p` accepts. -/
def endsWith (x : Ctl Json) (p : Json → Bool) : Bool :=
  match x with
  | .ok j => p j
  | .error _ => false

theorem endsWith_iff {x : Ctl Json} {p : Json → Bool} : endsWith x p = true ↔ ∃ j, x = .ok j ∧ p j = true := by
  cases x with
  | ok j => simp [endsWith]
  | error e => simp [endsWith]

end OraclePatching.DataGuard
