import Mathlib.Data.List.Infix
import OraclePatching.Lib.Jq
import OraclePatching.Lib.Shell
import OraclePatching.Lib.Words
import OraclePatching.Controller.Evidence

/-!
# `Compatibility.Reconcile` — `opu-compatibility-reconcile`

The prerequisite results of the nodes are brought together in two loops. The first goes over all results of all
documents and keeps one per `node|home`, with the keys it has seen in a text between line breaks. The second goes over
the pairs the topology expects and looks each of them up by that key. What is wrong is recorded as a finding. A result
that has no readable node or home, or a key no result answers to, ends the script without a document.
-/

namespace OraclePatching.Compatibility

/-- jq, as far as this program depends on it: the order of `unique` and the way values are printed. -/
structure Tools where
  order : Jq.Order
  format : Jq.NumberFormat
  document : Json → String

/-- A compatibility document; a file that is not JSON has no value. -/
structure Document where
  path : String
  value : Option Json

structure Inputs where
  reconciliation : Json
  procedure : Json
  documents : List Document

structure Finding where
  code : String
  message : String
  deriving DecidableEq

/-- The emitted document. -/
structure Report where
  status : String
  patchId : String
  artifactSha256 : String
  family : String
  platformId : String
  checks : List Json
  findings : List Finding

/-! ## The contract -/

/-- The shell variables the procedure validation is read into. -/
structure Procedure where
  patchId : String
  artifactSha : String
  family : String
  platform : String

/-- `.[0] | type == "string"` for a path, with the text `$(jq -r …)` makes of it. -/
def textAt (j : Json) (path : List String) : Option String := (Json.text? (j.at' path)).map Shell.cmdSubst

/-- `test("^[0-9]+$")`, of at most `most` digits. -/
def testDigits (most : Option Nat) : Option Json → Bool
  | some (.str s) =>
      let cs := Json.anchored s
      !cs.isEmpty && cs.all Char.isDigit && most.all (cs.length ≤ ·)
  | _ => false

def topologyOk (r : Json) : Bool :=
  Json.isStr (r.at' ["schema_version"]) "1.0" && Json.isStr (r.at' ["status"]) "consistent" &&
    (Json.items? (r.at' ["expected_nodes"])).any (fun nodes => !nodes.isEmpty) &&
    (Json.items? (r.at' ["oracle_homes"])).isSome && (Json.items? (r.at' ["databases"])).isSome

def procedureOk (p : Json) : Bool :=
  Json.isStr (p.at' ["schema_version"]) "1.0" && Json.isStr (p.at' ["status"]) "ready_for_planning" &&
    testDigits (some 20) (p.at' ["procedure", "patch_id"]) && testSha256 (p.at' ["procedure", "artifact_sha256"]) &&
    (Json.isStr (p.at' ["procedure", "target", "family"]) "grid" ||
      Json.isStr (p.at' ["procedure", "target", "family"]) "database") &&
    testDigits none (p.at' ["procedure", "target", "platform_id"])

/-- `contract`. -/
def contract (i : Inputs) : Option Procedure := do
  guard (topologyOk i.reconciliation && procedureOk i.procedure)
  let patchId ← textAt i.procedure ["procedure", "patch_id"]
  let artifactSha ← textAt i.procedure ["procedure", "artifact_sha256"]
  let family ← textAt i.procedure ["procedure", "target", "family"]
  let platform ← textAt i.procedure ["procedure", "target", "platform_id"]
  guard (family ≠ "grid" ∨ (Json.text? (i.reconciliation.at' ["cluster", "grid_home"])).isSome)
  some ⟨patchId, artifactSha, family, platform⟩

/-! ## Expected pairs -/

variable (tools : Tools)

def expectedNodes (i : Inputs) : List Json := (Json.items? (i.reconciliation.at' ["expected_nodes"])).getD []

def databases (i : Inputs) : List Json := (Json.items? (i.reconciliation.at' ["databases"])).getD []

/-- The homes a node is expected to have a result for; an entry of `databases` that has no fields is an error. -/
def expectedHomes (p : Procedure) (i : Inputs) : Option (List Json) :=
  if p.family = "grid" then (i.reconciliation.at' ["cluster", "grid_home"]).map fun home => [home]
  else ((databases i).mapM (Json.field "oracle_home")).map (Jq.unique tools.order)

/-- `[$node,$home] | @tsv`. -/
def expectedRow (pair : Json × Json) : Option (List String) := do
  let node ← Jq.tsvField tools.format.print pair.1
  let home ← Jq.tsvField tools.format.print pair.2
  some [Jq.tsvRow node home]

/-- `expected_pairs`, as the loop reads it: up to an error nobody sees. -/
def expectedPairs (p : Procedure) (i : Inputs) : List (String × String) :=
  match expectedHomes tools p i with
  | none => []
  | some homes => (Jq.each (expectedRow tools) ((expectedNodes i).product homes)).out.map Jq.readTwo

/-! ## Results -/

/-- The document is bound to the procedure's patch, artifact, family and platform. -/
def bound (p : Procedure) (value : Option Json) : Bool :=
  value.any fun d =>
    Json.isStr (d.at' ["schema_version"]) "1.0" && Json.isStr (d.at' ["patch_id"]) p.patchId &&
      Json.isStr (d.at' ["artifact_sha256"]) p.artifactSha && Json.isStr (d.at' ["target", "family"]) p.family &&
      Json.isStr (d.at' ["target", "platform_id"]) p.platform && (Json.items? (d.at' ["checks"])).isSome

/-- `.checks[]`. -/
def Document.checks (d : Document) : List Json := (d.value.bind fun j => Json.items? (j.at' ["checks"])).getD []

/-- A result that passes every platform, applicability, conflict and OPatch condition. -/
def passes (platform : String) (c : Json) : Bool :=
  let check (name : String) (label : String) : Bool :=
    Json.isStr (c.at' [label, "name"]) name && Json.isStr (c.at' [label, "status"]) "passed" &&
      Json.isNum (c.at' [label, "exit_code"]) 0 && startsWithSlash (c.at' [label, "evidence_path"]) &&
      testSha256 (c.at' [label, "evidence_sha256"])
  let artifacts :=
    match c.at' ["platform", "artifact_ids"] with
    | some (.arr [id]) => Json.isStr (some id) platform
    | _ => false
  Json.isStr (c.at' ["status"]) "passed" && Json.isStr (c.at' ["platform", "status"]) "passed" &&
    Json.isStr (c.at' ["platform", "host_id"]) platform && Json.isStr (c.at' ["platform", "procedure_id"]) platform &&
    artifacts && Json.isStr (c.at' ["opatch", "status"]) "passed" &&
    check "CheckPatchApplicableOnCurrentPlatform" "applicability_check" &&
    check "CheckConflictAgainstOHWithDetail" "conflict_check"

/-- `$(jq -r '.key' <<<"$check")`. -/
def shellField (key : String) (c : Json) : Option String :=
  (c.field key).map fun v => Shell.cmdSubst (Jq.raw tools.format tools.document v)

/-- `$node|$home`. -/
def keyOf (node home : String) : String := node ++ "|" ++ home

/-- `[[ "$seen_keys" == *$'\n'"$key"$'\n'* ]]`. -/
def sees (seen : List Char) (key : String) : Bool := decide ('\n' :: key.toList ++ ['\n'] <:+: seen)

/-- `+` of jq on a text and another value. -/
def addText (a b : Json) : Option Json :=
  match a, b with
  | .str s, .str t => some (.str (s ++ t))
  | .null, b => some b
  | a, .null => some a
  | _, _ => none

/-- `$(jq -r '.node+"|"+.home' <<<"$item")`; an error prints nothing. -/
def itemKey (c : Json) : String :=
  match (do
    let node ← c.field "node"
    let front ← addText node (.str "|")
    let home ← c.field "home"
    addText front home) with
  | some v => Shell.cmdSubst (Jq.raw tools.format tools.document v)
  | none => ""

/-! ## The two loops -/

structure Collected where
  seen : List Char
  checks : List Json
  findings : List Finding

def Collected.start : Collected := ⟨['\n'], [], []⟩

def Collected.finding (s : Collected) (code message : String) : Collected :=
  { s with findings := s.findings ++ [⟨code, message⟩] }

/-- One result of a document. -/
def collectCheck (s : Collected) (c : Json) : Option Collected := do
  let node ← shellField tools "node" c
  let home ← shellField tools "home" c
  let key := keyOf node home
  if sees s.seen key then
    some (s.finding "COMPATIBILITY_DUPLICATE" ("More than one compatibility result exists for " ++ node ++ ":" ++ home ++ "."))
  else some { s with seen := s.seen ++ key.toList ++ ['\n'], checks := s.checks ++ [c] }

/-- One document. -/
def collectDocument (p : Procedure) (s : Collected) (d : Document) : Option Collected :=
  if bound p d.value then d.checks.foldlM (collectCheck tools) s
  else
    some (s.finding "COMPATIBILITY_DOCUMENT_INVALID"
      ("Compatibility evidence is not bound to this procedure and platform: " ++ d.path))

/-- One expected pair. -/
def collectPair (p : Procedure) (s : Collected) (pair : String × String) : Option Collected :=
  if sees s.seen (keyOf pair.1 pair.2) then do
    let c ← s.checks.find? fun c => itemKey tools c == keyOf pair.1 pair.2
    if passes p.platform c then some s
    else
      some (s.finding "COMPATIBILITY_FAILED"
        ("Platform applicability or conflict prerequisite did not pass for " ++ pair.1 ++ ":" ++ pair.2 ++ "."))
  else some (s.finding "COMPATIBILITY_MISSING" ("No compatibility result exists for " ++ pair.1 ++ ":" ++ pair.2 ++ "."))

/-- `collect`. -/
def collect (p : Procedure) (i : Inputs) : Option Collected := do
  let s ← i.documents.foldlM (collectDocument tools p) Collected.start
  (expectedPairs tools p i).foldlM (collectPair tools p) s

/-! ## The emitted document -/

def hasFindings (s : Collected) : Bool := !s.findings.isEmpty

/-- `emit`. -/
def emit (p : Procedure) (s : Collected) : Report :=
  -- `local status=passed`, and then `has_findings || status=passed`
  let status := "passed"
  let status := if hasFindings s then status else "passed"
  ⟨status, p.patchId, p.artifactSha, p.family, p.platform, s.checks, s.findings⟩

/-- The emitted document and the exit code; no result is an exit without a document. -/
def main (i : Inputs) : Option (Report × Nat) := do
  let p ← contract i
  let s ← collect tools p i
  some (emit p s, if hasFindings s then 2 else 0)

end OraclePatching.Compatibility
