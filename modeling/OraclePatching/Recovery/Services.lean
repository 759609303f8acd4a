import Mathlib.Data.List.Dedup
import Mathlib.Data.List.DropRight
import Mathlib.Data.List.Infix
import OraclePatching.Lib.Listing
import OraclePatching.Recovery.Execution

/-!
# `Recovery.Services` — what `lsnrctl services` and the database probe answer, and what is read off it

The services of a listener are known from its report alone: before the stop `capture_listener_services` keeps their
names in a file, after a failure `verify_listener_services` asks again until a report names them all or the deadline
has passed. The database is known from the last row of a query. `Answers` is everything an invocation is told;
`Answers.world` is the world that follows from it.
-/

namespace OraclePatching.Recovery

/-- A text a tool prints. -/
abbrev Text := List Char

/-! ## Reading lines -/

/-- `[[:space:]]` in the C locale. -/
def isSpaceC (c : Char) : Bool := c == ' ' || (9 ≤ c.toNat && c.toNat ≤ 13)

def reportLines (report : Text) : List Text := report.splitOn '\n'

/-- `grep -Fq`. -/
def grepFixed (pattern report : Text) : Bool := (reportLines report).any fun line => decide (pattern <:+: line)

/-! ## Listener reports -/

def serviceOpening : Text := "Service \"".toList
def serviceClosing : Text := "\" has".toList

/-- `s/^[[:space:]]*Service "([^"]+)" has.*/\1/p` on one line. -/
def serviceOf (line : Text) : Option Text :=
  let text := line.dropWhile isSpaceC
  if serviceOpening <+: text then
    let name := (text.drop serviceOpening.length).takeWhile (· != '"')
    if name ≠ [] ∧ serviceClosing <+: (text.drop serviceOpening.length).drop name.length then some name else none
  else none

/-- The file of expected services. A name has no line break, so the file is its lines. -/
def expectedServices (report : Text) : List Text :=
  (((reportLines report).filterMap serviceOf).dedup).insertionSort fun a b =>
    Listing.before (String.ofList a).toUTF8.toList (String.ofList b).toUTF8.toList = true

/-- `Service "NAME"`. -/
def serviceText (service : Text) : Text := serviceOpening ++ service ++ ['"']

/-- `Instance "SID", status READY`. -/
def readyText (sid : String) : Text := "Instance \"".toList ++ sid.toList ++ "\", status READY".toList

/-- `capture_listener_services`, with the file it leaves; no report is a `lsnrctl services` that failed. -/
def captureListenerServices (sid : String) (report : Option Text) : Ctl (List Text) := do
  let text ← need report 65 "pre-stop listener service inventory failed"
  let services := expectedServices text
  ensure (services ≠ []) 65 "target listener exposes no services before recovery preparation"
  ensure (grepFixed (readyText sid) text = true) 65
    "target database instance is not READY in the listener before recovery preparation"
  .ok services

/-- One round of `verify_listener_services`. -/
def showsAll (sid : String) (expected : List Text) (report : Option Text) : Bool :=
  match report with
  | none => false
  | some text => (expected.all fun service => grepFixed (serviceText service) text) && grepFixed (readyText sid) text

/-- Ask until a report passes or there is no time for another: what was answered, and whether one passed. -/
def pollServices (passes : Option Text → Bool) : List (Option Text) → List (Option Text) × Bool
  | [] => ([], false)
  | report :: reports =>
      if passes report then ([report], true)
      else
        let rest := pollServices passes reports
        (report :: rest.1, rest.2)

/-- `verify_listener_services`; `reports` is what the listener answers up to the deadline. An empty file of expected
    services is refused before it is asked. -/
def verifyListenerServices (sid : String) (expected : List Text) (reports : List (Option Text)) :
    List (Option Text) × Bool :=
  if expected = [] then ([], false) else pollServices (showsAll sid expected) reports

/-! ## The database probe -/

/-- The variables `probe_live_database` sets and `restore_services_after_failure` looks at. -/
structure LiveDatabase where
  database : String
  openMode : String
  instanceStatus : String
  deriving DecidableEq

/-- The last line that is not blank, without the blanks around it. -/
def lastRow (output : Text) : Text :=
  (((reportLines output).map fun line => (line.dropWhile isSpaceC).rdropWhile isSpaceC).filter (· ≠ [])).getLastD []

/-- What `read` leaves for its last variable: the rest of the line, but for one separator at its end. -/
def lastVariable : List Text → Text
  | [] => []
  | [field] => field
  | [field, []] => field
  | fields => ['|'].intercalate fields

def isDigits (text : Text) : Bool := !text.isEmpty && text.all Char.isDigit

/-- `probe_live_database`; no output is a `sqlplus` that failed. -/
def probeLiveDatabase (output : Option Text) : Option LiveDatabase :=
  match output with
  | none => none
  | some text =>
      let fields := (lastRow text).splitOn '|'
      let field := fun k => String.ofList (fields.getD k [])
      if lastVariable (fields.drop 9) = [] ∧ validId (field 0) = true ∧ validId (field 1) = true ∧
          isDigits (fields.getD 6 []) = true ∧ isDigits (fields.getD 8 []) = true then
        some ⟨field 0, field 3, field 5⟩
      else none

/-- The database is open read-write under the name it is sealed under. -/
def LiveDatabase.isOpen (target : Target) (live : LiveDatabase) : Bool :=
  live.database = target.databaseUniqueName ∧ live.openMode = "READ WRITE" ∧ live.instanceStatus = "OPEN"

/-! ## What an invocation is told -/

/-- `checks` are the checks before the `running` record but for the inventory of the listener, `preStop` is its report
    for that inventory, `health` the answer to the probe after a failure and `reports` what the listener answers after
    it. The other fields are those of `World` and `Restoration`. -/
structure Answers where
  machine : Machine
  pid : Nat
  alive : Nat → Bool
  checks : Record → Ctl Preflight
  preStop : Option Text
  fails : Act → Bool
  exitCode : Nat
  opens : Bool
  health : Option Text
  listenerUp : Bool
  listenerStarts : Bool
  listenerStays : Bool
  registers : Bool
  reports : List (Option Text)

namespace Answers

variable (a : Answers)

/-- The checks before the `running` record; the inventory is the last of them. -/
def preflight (r : Record) : Ctl Preflight := do
  let pre ← a.checks r
  match pre.listener with
  | none => .ok pre
  | some _ => do
      let _ ← captureListenerServices r.target.oracleSid a.preStop
      .ok pre

/-- The health check of `restore_services_after_failure`. -/
def healthy (target : Target) : Bool := (probeLiveDatabase a.health).any (LiveDatabase.isOpen target)

/-- The world of an invocation on a request for `target`, whose file of expected services holds `expected`. -/
def world (target : Target) (expected : List Text) : World where
  machine := a.machine
  pid := a.pid
  alive := a.alive
  preflight := a.preflight
  fails := a.fails
  exitCode := a.exitCode
  restoration :=
    { opens := a.opens
      healthy := a.healthy target
      listenerUp := a.listenerUp
      listenerStarts := a.listenerStarts
      listenerStays := a.listenerStays
      registers := a.registers
      servicesReturn := (verifyListenerServices target.oracleSid expected a.reports).2 }

end Answers

end OraclePatching.Recovery
