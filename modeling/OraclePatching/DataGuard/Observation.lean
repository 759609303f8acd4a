import Mathlib.Data.List.Nodup
import OraclePatching.Lib.Jq
import OraclePatching.Controller.Records

/-!
# `DataGuard.Observation` — the documents of the Data Guard tools and their contracts

`check_contracts` of `opu-dataguard-evaluate` reads an observation and a policy. What it lets through is an
`Observation` and a `Policy`; the document stays with the observation, because the tools that come after read it
again without the contract.
-/

namespace OraclePatching.DataGuard

open Jq

/-! ## Files -/

/-- A JSON file: the value in it and the SHA-256 of its bytes. -/
structure File where
  json : Json
  sha256 : Digest

/-- What the tools use and do not define: the digest of the text `jq -cS` prints of a value, `fromdateiso8601`, jq's
    order of values, and how jq prints numbers, arrays and objects. -/
structure Env where
  hashString : Json → Digest
  fromdateiso8601 : String → Option Int
  order : Jq.Order
  number : NumberFormat
  document : Json → String

/-- `die`. -/
def die {α : Type} (message : String) : Ctl α := refuse 65 message

/-! ## The observation -/

/-- `[A-Za-z0-9._$#-]`. -/
def nameChar (c : Char) : Bool := c.isAlphanum || c == '.' || c == '_' || c == '$' || c == '#' || c == '-'

/-- `^[A-Za-z0-9][A-Za-z0-9._$#-]{0,127}$`. -/
def validName (name : String) : Bool :=
  match Json.anchored name with
  | [] => false
  | c :: cs => c.isAlphanum && cs.all nameChar && decide (cs.length ≤ 127)

/-- `. == null or (type == "number" and . == floor)`, with the value. -/
def lag? : Option Json → Option (Option Int)
  | some .null => some none
  | some (.num q) => if q.den = 1 then some (some q.num) else none
  | _ => none

/-- A member the contract admits. -/
structure Member where
  dbUniqueName : String
  status : String
  transportLagSeconds : Option Int
  applyLagSeconds : Option Int
  lagSamples : Json
  valid : validName dbUniqueName = true

def member? (j : Json) : Option Member := do
  let dbUniqueName ← Json.text? (j.field "db_unique_name")
  let status ← Json.text? (j.field "status")
  let transport ← lag? (j.field "transport_lag_seconds")
  let apply ← lag? (j.field "apply_lag_seconds")
  let lagSamples ← j.field "lag_samples"
  if h : validName dbUniqueName = true then some ⟨dbUniqueName, status, transport, apply, lagSamples, h⟩ else none

/-- A lag and the seconds of its sample: `a == b`. -/
def sameLag (lag : Option Int) (seconds : Option Json) : Bool :=
  match lag, seconds with
  | none, some .null => true
  | some n, some (.num q) => q == n
  | _, _ => false

/-- `(.lag_samples | type == "object") and …`. -/
def samplesMatch (m : Member) : Bool :=
  match m.lagSamples with
  | .obj _ =>
      sameLag m.transportLagSeconds (m.lagSamples.at' ["transport", "seconds"]) &&
        sameLag m.applyLagSeconds (m.lagSamples.at' ["apply", "seconds"])
  | _ => false

/-- `.collector.version == "2"`. -/
def isVersion2 (j : Json) : Bool := Json.isStr (j.at' ["collector", "version"]) "2"

/-- `.sampling.source == "live_sql"`. -/
def sampledLive (j : Json) : Bool := Json.isStr (j.at' ["sampling", "source"]) "live_sql"

/-- What the contract asks of a live observation. -/
def liveContract (j : Json) (members : List Member) : Bool :=
  match j.at' ["target", "db_unique_name"] with
  | some (.str name) =>
      validName name && Json.isStr (j.at' ["primary", "db_unique_name"]) name && sampledLive j && members.all samplesMatch
  | _ => false

/-- An observation the contract admits: `databaseRole` is `.primary.database_role`, and no two members have one name. -/
structure Observation where
  document : Json
  databaseRole : String
  collectedAt : String
  members : List Member
  nodup : (members.map (·.dbUniqueName)).Nodup
  live : isVersion2 document = true → liveContract document members = true

/-- The first filter of `check_contracts`. An error of the filter and a `false` are one refusal. -/
def observation? (j : Json) : Option Observation := do
  guard (Json.isStr (j.field "schema_version") "1.0")
  guard (Json.isStr (j.at' ["collector", "name"]) "oracle.dataguard.observe")
  let role ← Json.text? (j.at' ["primary", "database_role"])
  guard (role ≠ "")
  let collectedAt ← Json.text? (j.field "collected_at")
  guard (collectedAt ≠ "")
  let items ← Json.items? (j.field "members")
  let members ← items.mapM member?
  if hnodup : (members.map (·.dbUniqueName)).Nodup then
    if hlive : isVersion2 j = true → liveContract j members = true then
      some ⟨j, role, collectedAt, members, hnodup, hlive⟩
    else none
  else none

/-! ## The policy -/

/-- `type == "number" and . >= 0 and . == floor`, with the value. -/
def natural? : Option Json → Option Nat
  | some (.num q) => if q.den = 1 ∧ 0 ≤ q.num then some q.num.toNat else none
  | _ => none

structure Policy where
  maxTransportLagSeconds : Nat
  maxApplyLagSeconds : Nat
  requireBroker : Bool
  maximumObservationAgeSeconds : Nat
  maximumSampleAgeSeconds : Nat

/-- `type == "boolean"`. -/
def boolean? : Option Json → Option Bool
  | some (.bool b) => some b
  | _ => none

/-- The last filter of `check_contracts`. -/
def policy? (j : Json) : Option Policy := do
  guard (Json.isStr (j.field "schema_version") "1.0")
  let transport ← natural? (j.at' ["dataguard", "max_transport_lag_seconds"])
  let apply ← natural? (j.at' ["dataguard", "max_apply_lag_seconds"])
  let requireBroker ← boolean? (j.at' ["dataguard", "require_broker"])
  let observationAge ← natural? (some (Json.orElse (j.at' ["dataguard", "maximum_observation_age_seconds"]) (.num 300)))
  guard (0 < observationAge)
  let sampleAge ← natural? (some (Json.orElse (j.at' ["dataguard", "maximum_sample_age_seconds"]) (.num 60)))
  guard (0 < sampleAge)
  some ⟨transport, apply, requireBroker, observationAge, sampleAge⟩

/-! ## `check_contracts` -/

/-- `$(jq -cS 'del(.record_sha256)' FILE)`, hashed. -/
def canonicalHash (env : Env) (j : Json) : String :=
  (env.hashString ((j.del "record_sha256").getD .null)).hex

def checkContracts (env : Env) (observe policy : File) : Ctl (Observation × Policy) := do
  let observation ← need (observation? observe.json) 65 "observe evidence violates the Data Guard v1 contract"
  let expected := Shell.cmdSubst
    (raw env.number env.document (Json.orElse (observe.json.field "record_sha256") (.str "")))
  ensure (expected = canonicalHash env observe.json) 65 "observe record checksum does not match its content"
  let policy ← need (policy? policy.json) 65 "Data Guard policy violates the v1 contract"
  .ok (observation, policy)

/-! ## What the contract establishes -/

section
variable {env : Env} {observe policy : File} {observation : Observation} {p : Policy} {j : Json}

/-- Where the fields of an observation stand in its document. -/
theorem observation_some (h : observation? j = some observation) :
    observation.document = j ∧ j.at' ["primary", "database_role"] = some (.str observation.databaseRole) ∧
      ∃ items, j.field "members" = some (.arr items) ∧ items.mapM member? = some observation.members := by
  unfold observation? at h
  simp only [Option.bind_eq_bind, Option.bind_eq_some_iff] at h
  obtain ⟨_, _, _, _, role, hrole, _, _, collectedAt, hcollected, _, _, items, hitems, members, hmembers, h⟩ := h
  have hroleAt : j.at' ["primary", "database_role"] = some (.str role) := by
    unfold Json.text? at hrole
    split at hrole
    · rename_i heq
      rw [heq, Option.some.inj hrole]
    · exact absurd hrole (by simp)
  have hitemsAt : j.field "members" = some (.arr items) := by
    unfold Json.items? at hitems
    split at hitems
    · rename_i heq
      rw [heq, Option.some.inj hitems]
    · exact absurd hitems (by simp)
  split at h
  · split at h
    · injection h with h
      rw [← h]
      exact ⟨rfl, hroleAt, items, hitemsAt, hmembers⟩
    · exact absurd h (by simp)
  · exact absurd h (by simp)

/-- Where the fields of a member stand in its document. -/
theorem member_some {m : Member} (h : member? j = some m) :
    j.field "db_unique_name" = some (.str m.dbUniqueName) ∧ lag? (j.field "apply_lag_seconds") = some m.applyLagSeconds := by
  unfold member? at h
  simp only [Option.bind_eq_bind, Option.bind_eq_some_iff] at h
  obtain ⟨name, hname, _, _, _, _, apply, happly, _, _, h⟩ := h
  have hnameAt : j.field "db_unique_name" = some (.str name) := by
    unfold Json.text? at hname
    split at hname
    · rename_i heq
      rw [heq, Option.some.inj hname]
    · exact absurd hname (by simp)
  split at h
  · injection h with h
    rw [← h]
    exact ⟨hnameAt, happly⟩
  · exact absurd h (by simp)

theorem checkContracts_ok (h : checkContracts env observe policy = .ok (observation, p)) :
    observation? observe.json = some observation ∧ policy? policy.json = some p := by
  unfold checkContracts at h
  obtain ⟨o, ho, h⟩ := need_bind_ok.mp h
  obtain ⟨_, h⟩ := ensure_bind_ok.mp h
  obtain ⟨q, hq, h⟩ := need_bind_ok.mp h
  injection h with h
  injection h with h1 h2
  exact ⟨h1 ▸ ho, h2 ▸ hq⟩

end

end OraclePatching.DataGuard
