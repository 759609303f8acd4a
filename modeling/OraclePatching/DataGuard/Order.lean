import OraclePatching.DataGuard.Evaluate
import OraclePatching.Controller.Evidence

/-!
# `DataGuard.Order` — the patching order and its two readers

`opu-dataguard-plan-order` derives the order from the observation itself, without the contract of the evaluator; it
trusts an evaluation that names the digest of the same file. `verify_dataguard_order_input` of `opu-patch-plan` and
`opu-dataguard-orchestrate` read the order.
-/

namespace OraclePatching.DataGuard

open Jq

/-! ## `opu-dataguard-plan-order` -/

/-- `a // b` where `b` may be an error. -/
def alternative (a b : Option Json) : Option Json :=
  match a with
  | some v => if v.truthy then some v else b
  | none => b

/-- `.target.db_unique_name // .primary.db_unique_name // .target.oracle_sid`. -/
def localName (observe : Json) : Option Json :=
  alternative (observe.at' ["target", "db_unique_name"])
    (alternative (observe.at' ["primary", "db_unique_name"]) (observe.at' ["target", "oracle_sid"]))

/-- An entry of `.order`. -/
structure Entry where
  dbUniqueName : Json
  role : String
  applyLagSeconds : Json

def Entry.json (e : Entry) : Json :=
  .obj [("db_unique_name", e.dbUniqueName), ("role", .str e.role), ("apply_lag_seconds", e.applyLagSeconds)]

/-- `.apply_lag_seconds // 0`. -/
def applyLag (member : Json) : Json := Json.orElse (member.field "apply_lag_seconds") (.num 0)

/-- `.db_unique_name != null`. -/
def isNamed (member : Json) : Option Bool :=
  (member.field "db_unique_name").map fun name =>
    match name with
    | .null => false
    | _ => true

/-- `{db_unique_name,role:"STANDBY",apply_lag_seconds:(.apply_lag_seconds // 0)}`. -/
def standbyEntry (member : Json) : Entry :=
  ⟨(member.field "db_unique_name").getD .null, "STANDBY", applyLag member⟩

/-- `(.members // []) | map(select(.db_unique_name != null)) | sort_by(.apply_lag_seconds // 0)`. -/
def sortedStandbys (env : Env) (observe : Json) : Option (List Json) :=
  (eachOf (select isNamed) (some (Json.orElse (observe.field "members") (.arr [])))).captured.map
    (sortBy env.order applyLag)

/-- `test("STANDBY$")`. -/
def endsStandby (role : String) : Bool := "STANDBY".toList.isSuffixOf (Json.anchored role)

/-- The order the filter of `main` derives; an error of the filter is `none`. -/
def order? (env : Env) (observe : Json) : Option (List Entry) :=
  match localName observe with
  | some (.str name) =>
      if name = "" then none
      else
        match observe.at' ["primary", "database_role"] with
        | some (.str role) =>
            if role = "PRIMARY" then
              (sortedStandbys env observe).map fun standbys =>
                standbys.map standbyEntry ++ [⟨.str name, "PRIMARY", .num 0⟩]
            else if endsStandby role = true then some [⟨.str name, role, .num 0⟩]
            else none
        | _ => none
  | _ => none

/-- `if .collector.version == "2" or .sampling.source == "live_sql" then … else true end`. -/
def nativeIdentity (observe : Json) : Bool :=
  let version := (observe.at' ["collector", "version"]).map fun v => Json.isStr (some v) "2"
  let sampled := (observe.at' ["sampling", "source"]).map fun v => Json.isStr (some v) "live_sql"
  match version.bind fun b => if b then some true else sampled with
  | some false => true
  | some true =>
      match observe.at' ["target", "db_unique_name"] with
      | some (.str name) => name != "" && Json.isStr (observe.at' ["primary", "db_unique_name"]) name
      | _ => false
  | none => false

def orderRecord (env : Env) (order : List Entry) (observe evaluation : File) : Json :=
  sealRecord env
    [("schema_version", .str "1.0"), ("strategy", .str "standby_first"), ("order", .arr (order.map Entry.json)),
      ("evidence",
        .obj [("evaluation_sha256", .str evaluation.sha256.hex), ("observe_sha256", .str observe.sha256.hex)])]

/-- `opu-dataguard-plan-order --observe … --evaluation …`. -/
def planOrder (env : Env) (observe evaluation : File) : Ctl Json := do
  ensure (isReady evaluation.json = true) 65 "Data Guard evaluation is not ready_for_standby_first"
  ensure (Json.isStr (evaluation.json.at' ["evidence", "observe_sha256"]) observe.sha256.hex = true) 65
    "evaluation does not bind the supplied observe evidence"
  ensure (nativeIdentity observe.json = true) 65
    "live Data Guard observation lacks a consistent native database identity"
  let order ← need (order? env observe.json) 65 "could not derive standby-first order"
  .ok (orderRecord env order observe evaluation)

/-! ## `verify_dataguard_order_input` -/

/-- `$(jq -r '.record_sha256 // empty' FILE)`. -/
def recordDigest (env : Env) (record : Json) : String :=
  match record.field "record_sha256" with
  | some v => if v.truthy then Shell.cmdSubst (raw env.number env.document v) else ""
  | none => ""

def verifySealed (env : Env) (label : String) (record : Json) : Ctl Unit := do
  ensure (sha256Shape (recordDigest env record) = true) 74 (label ++ " has no valid record digest")
  ensure (canonicalHash env record = recordDigest env record) 74 (label ++ " record integrity verification failed")

/-- `type == "string" and length > 0`. -/
def isText (a : Option Json) : Bool :=
  match a with
  | some (.str s) => s != ""
  | _ => false

/-- `index("PRIMARY")` is `null` or the last position. -/
def primaryLast (roles : List (Option Json)) : Bool :=
  match roles.findIdx? fun role => Json.isStr role "PRIMARY" with
  | none => true
  | some k => k + 1 == roles.length

/-- The filter on the order file. -/
def standbyFirst (record : Json) : Bool :=
  Json.isStr (record.field "schema_version") "1.0" && Json.isStr (record.field "strategy") "standby_first" &&
    match record.field "order" with
    | some (.arr entries) =>
        !entries.isEmpty &&
          entries.all (fun e => isText (e.field "db_unique_name") && isText (e.field "role")) &&
          primaryLast (entries.map (Json.field "role")) &&
          testSha256 (record.at' ["evidence", "evaluation_sha256"]) && testSha256 (record.at' ["evidence", "observe_sha256"])
    | _ => false

/-- `any(.[]; p)` stops at the first item that passes, and at an error. -/
def anyItem (p : Json → Option Bool) : List Json → Option Bool
  | [] => some false
  | x :: xs =>
      match p x with
      | some false => anyItem p xs
      | decided => decided

/-- `.name == "dataguard_standby_first" and .status == "pass"`. -/
def isStandbyFirstPass (gate : Json) : Option Bool :=
  allOf [(gate.field "name").map fun v => Json.isStr (some v) "dataguard_standby_first",
    (gate.field "status").map fun v => Json.isStr (some v) "pass"]

/-- The filter on the readiness result. -/
def carriesStandbyFirst (readiness : Json) : Bool :=
  match readiness.field "gates" with
  | some gates => anyItem isStandbyFirstPass gates.iter == some true
  | none => false

def verifyDataguardOrderInput (env : Env) (order readiness : Json) : Ctl Unit := do
  verifySealed env "dataguard-order" order
  ensure (standbyFirst order = true) 65 "Data Guard order is not a sealed standby-first plan-order result"
  ensure (carriesStandbyFirst readiness = true) 65
    "readiness result does not carry a passing dataguard_standby_first gate"

/-! ## `opu-dataguard-orchestrate` -/

/-- `.role == text`. -/
def hasRole (text : String) (target : Json) : Option Bool := (target.field "role").map fun v => Json.isStr (some v) text

/-- `$targets | map(select(.role == text))`. -/
def withRole (text : String) (targets : Json) : Option (List Json) :=
  (eachOf (select (hasRole text)) (some targets)).captured

def switchoverStep (gate : Option File) : Json :=
  match gate with
  | some _ =>
      .obj [("step", .str "switchover"), ("kind", .str "mutation"), ("required", .bool false),
        ("operator_executed", .bool false), ("executor", .str "opu-dataguard-switchover"),
        ("mode", .str "test_mode_or_live")]
  | none =>
      .obj [("step", .str "switchover"), ("kind", .str "mutation"), ("required", .bool false),
        ("operator_executed", .bool true), ("note",
          .str "No sealed switchover gate supplied; live switchover remains operator/broker mediated.")]

def reinstateStep (gate : Option File) : Json :=
  match gate with
  | some _ =>
      .obj [("step", .str "reinstate_former_primary"), ("kind", .str "mutation"), ("required", .bool false),
        ("operator_executed", .bool false), ("executor", .str "opu-dataguard-reinstate"),
        ("mode", .str "test_mode_or_live")]
  | none =>
      .obj [("step", .str "reinstate_former_primary"), ("kind", .str "mutation"), ("required", .bool false),
        ("operator_executed", .bool true)]

/-- A step on a list of databases. -/
def patchStep (name : String) (targets : List Json) : Json :=
  .obj [("step", .str name), ("kind", .str "mutation"), ("required", .bool true),
    ("using_adapter", .str "database_or_grid_existing"), ("targets", .arr targets)]

def steps (targets : Json) (standbys primaries : List Json) (switchover reinstate : Option File) : List Json :=
  [.obj [("step", .str "observe_seal"), ("kind", .str "evidence"), ("required", .bool true)],
    .obj [("step", .str "evaluate_seal"), ("kind", .str "gate"), ("required", .bool true)],
    .obj [("step", .str "standby_first_order"), ("kind", .str "plan"), ("required", .bool true), ("targets", targets)],
    patchStep "patch_standbys" standbys,
    .obj [("step", .str "switchover_gate"), ("kind", .str "gate"), ("required", .bool false)],
    switchoverStep switchover,
    patchStep "patch_primary" primaries,
    .obj [("step", .str "reinstate_gate"), ("kind", .str "gate"), ("required", .bool false)],
    reinstateStep reinstate]

/-- The status an optional gate has to have. -/
def gateReady (status : String) (gate : Option File) : Bool :=
  match gate with
  | some file => Json.isStr (file.json.field "status") status
  | none => true

/-- The digest of an optional gate. -/
def gateSha (gate : Option File) : Json :=
  match gate with
  | some file => .str file.sha256.hex
  | none => .null

/-- `opu-dataguard-orchestrate`. -/
def orchestrate (env : Env) (observe evaluation order : File) (switchover reinstate : Option File)
    (evaluatedAt : String) : Ctl Json := do
  ensure (isReady evaluation.json = true) 65 "evaluation is not ready_for_standby_first"
  ensure (Json.isStr (evaluation.json.at' ["evidence", "observe_sha256"]) observe.sha256.hex = true) 65
    "evaluation does not bind observe evidence"
  ensure (Json.isStr (order.json.field "strategy") "standby_first" = true) 65 "order is not standby_first"
  ensure (Json.isStr (order.json.at' ["evidence", "evaluation_sha256"]) evaluation.sha256.hex = true) 65
    "order does not bind evaluation evidence"
  ensure (gateReady "ready_for_switchover" switchover = true) 65 "switchover gate is not ready_for_switchover"
  ensure (gateReady "ready_for_reinstate" reinstate = true) 65 "reinstate gate is not ready_for_reinstate"
  let targets := Json.orElse (order.json.field "order") (.arr [])
  -- under `set -e` a filter that fails ends the script without a message of its own
  let standbys ← need (withRole "STANDBY" targets) 5 ""
  let primaries ← need (withRole "PRIMARY" targets) 5 ""
  .ok (sealRecord env
    [("schema_version", .str "1.0"), ("status", .str "ready_for_orchestration"), ("evaluated_at", .str evaluatedAt),
      ("steps", .arr (steps targets standbys primaries switchover reinstate)),
      ("evidence",
        .obj [("observe_sha256", .str observe.sha256.hex), ("evaluation_sha256", .str evaluation.sha256.hex),
          ("order_sha256", .str order.sha256.hex), ("switchover_gate_sha256", gateSha switchover),
          ("reinstate_gate_sha256", gateSha reinstate)])])

/-! ## Reading the documents -/

/-- The entries of an order. -/
def entries (order : Json) : List Json := ((order.field "order").bind fun v => Json.items? (some v)).getD []

/-- The targets of a step, if it has the name. -/
def targetsOf (name : String) (step : Json) : List Json :=
  if Json.isStr (step.field "step") name then ((step.field "targets").bind fun v => Json.items? (some v)).getD [] else []

/-- The targets of the steps with a name. -/
def stepTargets (plan : Json) (name : String) : List Json :=
  (((plan.field "steps").bind fun v => Json.items? (some v)).getD []).flatMap (targetsOf name)

end OraclePatching.DataGuard
