import Mathlib.Data.List.Infix
import OraclePatching.Lib.Jq
import OraclePatching.Lib.Words
import OraclePatching.Controller.Seal
import OraclePatching.Readiness.Gates

/-!
# `Readiness.Snapshots` — `opu-snapshot-reconcile`

The snapshots of the hosts are gone over in the order they are given. The first valid one is the baseline: every later
one is compared with it. What a host says of its own homes is asked of jq in a process whose output is read line by
line and whose failure nobody sees. An error of jq anywhere else ends the script without a document.
-/

namespace OraclePatching.Readiness

/-- jq, as far as this program depends on it: the order of `sort`, in which no two texts are equal, and the way values
    are printed. -/
structure SnapshotTools where
  order : Jq.Order
  texts : ∀ a b : String, order.le (.str a) (.str b) = true → order.le (.str b) (.str a) = true → a = b
  format : Jq.NumberFormat
  document : Json → String

/-- A `--snapshot` argument, which `opu_validate_absolute_path` has let through, and what is at its path: a file that
    is not JSON has no value. -/
structure SnapshotFile where
  path : String
  line : '\n' ∉ path.toList
  regular : Bool
  value : Option Json
  sha256 : Option String

/-! ## One snapshot -/

/-- `valid_snapshot`. -/
def validSnapshot (value : Option Json) : Bool :=
  value.any fun j =>
    Json.isStr (j.at' ["schema_version"]) "1.0" && Json.isStr (j.at' ["collector", "name"]) "oracle.topology.discover" &&
      (match j.at' ["cluster"] with | some (.obj _) => true | _ => false) &&
      (Json.items? (j.at' ["oracle_homes"])).isSome && (Json.items? (j.at' ["databases"])).isSome

/-- `${1%%.*}`. -/
def shortHost (name : String) : String := String.ofList (name.toList.takeWhile (· != '.'))

/-- The values of these fields; a value that has no fields is an error. -/
def pick (keys : List String) (j : Json) : Option (List (String × Json)) :=
  keys.mapM fun key => (j.field key).map fun v => (key, v)

/-- What is read of a snapshot. -/
structure Reading where
  host : String
  expected : List Json
  grid : Json
  homes : List Json
  homesCompare : List Json
  databases : List Json

section
variable (tools : SnapshotTools)

/-- `$(jq -r …)`; an error prints nothing. -/
def SnapshotTools.text (v : Option Json) : String :=
  match v with
  | some v => Shell.cmdSubst (Jq.raw tools.format tools.document v)
  | none => ""

/-- `$(short_host "$(jq -r '.host.name' …)")`, where nobody sees the error of an inner command. -/
def hostOf (j : Json) : String := Shell.cmdSubst (shortHost (tools.text (j.at' ["host", "name"])))

/-- `.cluster.nodes[]`. -/
def clusterNodes (j : Json) : Option (List Json) :=
  match j.at' ["cluster", "nodes"] with
  | some (.arr items) => some items
  | some (.obj fields) => some (fields.map Prod.snd)
  | _ => none

/-- The names of the cluster's nodes, or the host alone where there are none. -/
def expectedOf (j : Json) : Option (List Json) := do
  let nodes ← clusterNodes j
  let names ← nodes.mapM (Json.field "name")
  let expected := Jq.unique tools.order (Jq.sortBy tools.order id names)
  some (if expected.isEmpty then [.str (hostOf tools j)] else expected)

/-- `{grid_home, runtime: {…}}`. -/
def gridOf (j : Json) : Option Json := do
  let cluster ← j.field "cluster"
  let home ← cluster.field "grid_home"
  let runtime ← cluster.field "runtime"
  let fields ← pick ["status", "active_version", "upgrade_state", "active_patch_level"] runtime
  some (.obj [("grid_home", home), ("runtime", .obj fields)])

/-- `{path,owner,version,opatch_version,platform:{…},patches}`, with these fields of the platform. -/
def homeOf (platformKeys : List String) (patches : Json → Option Json) (home : Json) : Option Json := do
  let fields ← pick ["path", "owner", "version", "opatch_version"] home
  let platform ← home.field "platform"
  let platformFields ← pick platformKeys platform
  let list ← home.field "patches"
  let list ← patches list
  some (.obj (fields ++ [("platform", .obj platformFields), ("patches", list)]))

/-- `sort`. -/
def sorted : Json → Option Json
  | .arr items => some (.arr (Jq.sortBy tools.order id items))
  | _ => none

def key (name : String) (j : Json) : Json := (j.field name).getD .null

def homesOf (j : Json) : Option (List Json) := do
  let items ← Json.items? (j.at' ["oracle_homes"])
  (Jq.sortBy tools.order (key "path") items).mapM (homeOf ["status", "id", "name", "source", "source_sha256"] (sorted tools))

/-- The homes without the digests, which differ from node to node. -/
def homesCompareOf (homes : List Json) : Option (List Json) :=
  homes.mapM (homeOf ["status", "id", "name", "source"] some)

def databasesOf (j : Json) : Option (List Json) := do
  let items ← Json.items? (j.at' ["databases"])
  (Jq.sortBy tools.order (key "db_unique_name") items).mapM fun d => (pick ["db_unique_name", "oracle_home"] d).map .obj

def readingOf (j : Json) : Option Reading := do
  let expected ← expectedOf tools j
  let grid ← gridOf j
  let homes ← homesOf tools j
  let homesCompare ← homesCompareOf homes
  let databases ← databasesOf tools j
  some ⟨hostOf tools j, expected, grid, homes, homesCompare, databases⟩

/-- `$(jq -r '.warnings[]?')`, read line by line. -/
def warningLines (j : Json) : List String :=
  let warnings := ((j.at' ["warnings"]).map Json.iter).getD []
  Shell.lines (Shell.cmdSubst (String.join (warnings.map fun w => Jq.raw tools.format tools.document w ++ "\n")))

/-! ## Hosts and homes -/

/-- The host is one of the cluster's nodes and active, if the cluster has nodes. -/
def hostActive (host : String) (nodes : List Json) : Bool :=
  nodes.isEmpty || nodes.any fun n => Json.isStr (n.field "name") host && Json.isStr (n.field "status") "Active"

/-- `(v // "") | test(re)`. -/
def testText (re : List Char → Bool) (v : Option Json) : Option Bool :=
  match Json.orElse v (.str "") with
  | .str s => some (re (Json.anchored s))
  | _ => none

def digits (cs : List Char) : Bool := !cs.isEmpty && cs.all Char.isDigit

def sha256 (cs : List Char) : Bool := sha256Chars cs

/-- `(v // "") | type != "string" or length == 0`. -/
def nameless (v : Option Json) : Bool :=
  match Json.orElse v (.str "") with
  | .str s => s.isEmpty
  | _ => true

/-- The condition of `select`: the platform of a home is not what OPatch says. -/
def unavailable (home : Json) : Option Bool :=
  let platform (name : String) : Option Json := home.at' ["platform", name]
  Jq.anyOf [(platform "status").map fun v => !Json.isStr (some v) "collected",
    (testText digits (platform "id")).map not,
    some (nameless (platform "name")),
    (platform "source").map fun v => !Json.isStr (some v) "opatch_lsinventory_xml",
    (testText sha256 (platform "source_sha256")).map not]

/-- `select(…) | .path`. -/
def unavailablePath (home : Json) : Option (List Json) := do
  let b ← unavailable home
  if b then (home.field "path").map fun path => [path] else some []

def homeItems (j : Json) : List Json := (Json.items? (j.at' ["oracle_homes"])).getD []

/-- The lines of the loop over the homes that are not empty. -/
def unavailableLines (j : Json) : List String :=
  ((Jq.each unavailablePath (homeItems j)).out.flatMap fun path =>
    Shell.lines (Jq.raw tools.format tools.document path)).filter (· ≠ "")

/-! ## The loop over the snapshots -/

structure SnapshotState where
  baseline : Option Reading
  captured : List String
  evidence : List (String × String)
  gates : List Gate

def SnapshotState.start : SnapshotState := ⟨none, [], [], []⟩

/-- `add_finding`. -/
def SnapshotState.add (s : SnapshotState) (gates : List Gate) : SnapshotState := { s with gates := s.gates ++ gates }

/-- A finding, unless the condition holds. -/
def gateUnless (ok : Bool) (name message : String) : List Gate := if ok then [] else [⟨name, .blocker, message⟩]

/-- What a snapshot has to have in common with the baseline. -/
def compareGates (b r : Reading) : List Gate :=
  gateUnless (decide (b.expected = r.expected)) "CLUSTER_MEMBERSHIP_MISMATCH"
      "Cluster node membership differs between snapshots." ++
    gateUnless (decide (b.grid = r.grid)) "GRID_INVENTORY_MISMATCH"
      "Grid home, active version, patch level, or upgrade state differs between snapshots." ++
    gateUnless (decide (b.homesCompare = r.homesCompare)) "ORACLE_HOME_INVENTORY_MISMATCH"
      "Oracle home owner, version, OPatch level, or patch inventory differs between snapshots." ++
    gateUnless (decide (b.databases = r.databases)) "DATABASE_CONFIGURATION_MISMATCH"
      "Registered database names or Oracle homes differ between snapshots."

/-- What is found in a snapshot that has been read. -/
def readingGates (baseline : Option Reading) (j : Json) (nodes : List Json) (r : Reading) : List Gate :=
  ((baseline.map fun b => compareGates b r).getD []) ++
    gateUnless (hostActive r.host nodes) "SNAPSHOT_HOST_NOT_ACTIVE"
      ("Snapshot host " ++ r.host ++ " is not an active Clusterware node.") ++
    (unavailableLines tools j).map (fun line => ⟨"ORACLE_HOME_PLATFORM_UNAVAILABLE", .blocker,
      r.host ++ ": Oracle home " ++ line ++ " has no authoritative OPatch platform evidence."⟩) ++
    ((warningLines tools j).filter (· ≠ "")).map (fun line => ⟨"DISCOVERY_WARNING", .warning, r.host ++ ": " ++ line⟩)

/-- One turn of the loop. -/
def snapshotStep (s : SnapshotState) (f : SnapshotFile) : Option SnapshotState :=
  if f.regular then
    if validSnapshot f.value then do
      let sha ← f.sha256
      let j ← f.value
      let r ← readingOf tools j
      let nodes ← clusterNodes j
      some { baseline := s.baseline.or (some r), captured := s.captured ++ [r.host],
             evidence := s.evidence ++ [(f.path, sha)], gates := s.gates ++ readingGates tools s.baseline j nodes r }
    else
      some (s.add [⟨"SNAPSHOT_INVALID", .blocker, "Snapshot does not satisfy the topology contract: " ++ f.path⟩])
  else some (s.add [⟨"SNAPSHOT_UNAVAILABLE", .blocker, "Snapshot is missing or a symbolic link: " ++ f.path⟩])

/-! ## Missing snapshots, and the document -/

/-- `jq -r '.[]' <<<"$baseline_expected"`, read line by line. -/
def expectedLines (r : Reading) : List String :=
  r.expected.flatMap fun v => Shell.lines (Jq.raw tools.format tools.document v)

/-- `" ${CAPTURED[*]} "`. -/
def capturedText (captured : List String) : List Char :=
  ' ' :: [' '].intercalate (captured.map String.toList) ++ [' ']

/-- `[[ " ${CAPTURED[*]} " == *" $node "* ]]`. -/
def isCaptured (captured : List String) (node : String) : Bool :=
  decide (' ' :: node.toList ++ [' '] <:+: capturedText captured)

/-- What is found when all snapshots have been read. -/
def missingGates (s : SnapshotState) : List Gate :=
  match s.baseline with
  | some r =>
      (expectedLines tools r).flatMap fun node =>
        gateUnless (isCaptured s.captured node) "SNAPSHOT_MISSING" ("No snapshot was supplied for active node " ++ node ++ ".")
  | none => [⟨"NO_VALID_SNAPSHOTS", .blocker, "No valid topology snapshot was supplied."⟩]

structure SnapshotReport where
  status : String
  expectedNodes : List Json
  capturedNodes : List Json
  cluster : Json
  oracleHomes : List Json
  databases : List Json
  evidence : List (String × String)
  findings : List Emitted

/-- `jq -cn '$ARGS.positional | sort | unique' --args "${xs[@]:-}"`. -/
def positional (xs : List String) : List Json :=
  let args := if xs.isEmpty then [""] else xs
  Jq.unique tools.order (Jq.sortBy tools.order id (args.map .str))

/-- `emit`. -/
def emitSnapshot (s : SnapshotState) (gates : List Gate) : SnapshotReport where
  status := Tool.snapshotReconcile.status gates
  expectedNodes := positional tools ((s.baseline.map (expectedLines tools)).getD [])
  capturedNodes := positional tools s.captured
  cluster := (s.baseline.map Reading.grid).getD .null
  oracleHomes := (s.baseline.map Reading.homes).getD []
  databases := (s.baseline.map Reading.databases).getD []
  evidence := s.evidence
  findings := gateJson gates

/-- The emitted document and the exit code; no result is an exit without a document. -/
def reconcile (files : List SnapshotFile) : Option (SnapshotReport × Nat) := do
  let s ← files.foldlM (snapshotStep tools) SnapshotState.start
  let gates := s.gates ++ missingGates tools s
  some (emitSnapshot tools s gates, if hasBlocker gates then 2 else 0)

end

end OraclePatching.Readiness
