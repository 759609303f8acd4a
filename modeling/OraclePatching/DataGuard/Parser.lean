import Mathlib.Data.List.TakeWhile
import OraclePatching.Lib.Jq

/-!
# `DataGuard.Parser` — the standby mode of `dataguard_parse.jq`

The collector's SQL prints tagged rows: `DG_CLOCK`, `DG_APPLY` and one `DG_METRIC` for each lag. The filter cuts the
text into rows and fields, refuses every row it does not know, and reads each lag from its row. `error(…)` is
`Except.error` with the message.

`strptime`, `mktime` and `strftime` are taken as they are (`Calendar`); numbers are exact. A field has no line break, so
the `$` of a test is the end of the field.
-/

namespace OraclePatching.DataGuard.Parser

open Jq

/-! ## Rows -/

/-- `\s`. -/
def isSpace (c : Char) : Bool :=
  (9 ≤ c.toNat && c.toNat ≤ 13) ||
    [0x20, 0x85, 0xA0, 0x1680, 0x2028, 0x2029, 0x202F, 0x205F, 0x3000].contains c.toNat ||
    (0x2000 ≤ c.toNat && c.toNat ≤ 0x200A)

/-- `gsub("^\\s+|\\s+$"; "")`. -/
def trim (cs : List Char) : List Char := ((cs.dropWhile isSpace).reverse.dropWhile isSpace).reverse

/-- A row is the list of its fields. -/
abbrev Row := List String

/-- `split("|") | map(trim)`. -/
def fields (line : List Char) : Row := (line.splitOn '|').map fun f => String.ofList (trim f)

/-- `split("\n") | map(gsub("\r"; "") | trim | select(length > 0) | split("|") | map(trim))`. -/
def rows (text : String) : List Row :=
  (((text.toList.splitOn '\n').map fun line => trim (line.filter (· != '\r'))).filter (· ≠ [])).map fields

/-- `.[k]` of a row that is long enough. -/
def Row.get (row : Row) (k : Nat) : String := row.getD k ""

/-- `.[0] == tag`. -/
def Row.hasTag (row : Row) (tag : String) : Bool := row.head? == some tag

/-- `if . == "~" or . == "" then null else . end`. -/
def maybe (field : String) : Option String := if field = "~" ∨ field = "" then none else some field

/-! ## Timestamps -/

/-- `strptime(format) | mktime`, which may fail, and `strftime(format)`. -/
structure Calendar where
  epoch : String → String → Option Int
  print : String → Int → String

/-- A text of the form of `template`, where `0` stands for a digit. -/
def hasShape (template text : List Char) : Bool :=
  text.length == template.length &&
    (template.zip text).all fun p => if p.1 = '0' then p.2.isDigit else p.2 == p.1

/-- The format a timestamp has the shape of. -/
def timestampFormat? (value : String) : Option String :=
  if hasShape "00/00/0000 00:00:00".toList value.toList then some "%m/%d/%Y %H:%M:%S"
  else if hasShape "0000-00-00 00:00:00".toList value.toList then some "%Y-%m-%d %H:%M:%S"
  else none

def localEpoch (calendar : Calendar) (value : String) : Except String Int :=
  match timestampFormat? value with
  | none => .error "unsupported Data Guard local timestamp format"
  | some format =>
      match calendar.epoch format value with
      | none => .error ("date \"" ++ value ++ "\" does not match format \"" ++ format ++ "\"")
      | some epoch =>
          if calendar.print format epoch = value then .ok epoch
          else .error "invalid Data Guard local timestamp"

/-! ## Intervals -/

/-- `^\+?(?<d>[0-9]+) (?<h>[0-9]{2}):(?<m>[0-9]{2}):(?<s>[0-9]{2}(\.[0-9]+)?)$`, matched. -/
structure Interval where
  plus : Bool
  days : List Char
  hours : List Char
  minutes : List Char
  seconds : List Char
  fraction : Option (List Char)

/-- `[0-9]+`. -/
def isDigits (cs : List Char) : Bool := !cs.isEmpty && cs.all Char.isDigit

/-- `[0-9]{2}`. -/
def isTwoDigits (cs : List Char) : Bool := cs.length == 2 && cs.all Char.isDigit

def Interval.matched (i : Interval) : Bool :=
  isDigits i.days && isTwoDigits i.hours && isTwoDigits i.minutes && isTwoDigits i.seconds && i.fraction.all isDigits

/-- `(\.[0-9]+)?` -/
def dotted (fraction : Option (List Char)) : List Char :=
  match fraction with
  | some ds => '.' :: ds
  | none => []

/-- The text of the match. -/
def Interval.text (i : Interval) : List Char :=
  (if i.plus then ['+'] else []) ++
    (i.days ++ ' ' :: (i.hours ++ ':' :: (i.minutes ++ ':' :: (i.seconds ++ dotted i.fraction))))

/-- `\+?` -/
def sign (cs : List Char) : Bool × List Char :=
  match cs with
  | '+' :: rest => (true, rest)
  | rest => (false, rest)

def interval? (cs : List Char) : Option Interval :=
  match (sign cs).2.splitOn ' ' with
  | [days, time] =>
      match time.splitOn ':' with
      | [hours, minutes, rest] =>
          match rest.splitOn '.' with
          | [seconds] => some ⟨(sign cs).1, days, hours, minutes, seconds, none⟩
          | [seconds, fraction] => some ⟨(sign cs).1, days, hours, minutes, seconds, some fraction⟩
          | _ => none
      | _ => none
  | _ => none

/-- `tonumber` of a group of digits. -/
def number (ds : List Char) : Nat := Nat.ofDigitChars 10 ds 0

/-- `tonumber` of the group `s`. -/
def Interval.wholeSeconds (i : Interval) : Rat :=
  number i.seconds + match i.fraction with
    | some fraction => (number fraction : Rat) / 10 ^ fraction.length
    | none => 0

/-- `.d*86400 + .h*3600 + .m*60 + .s`. -/
def Interval.value (i : Interval) : Rat :=
  number i.days * 86400 + number i.hours * 3600 + number i.minutes * 60 + i.wholeSeconds

/-- `.h < 24 and .m < 60 and .s < 60`. -/
def Interval.inRange (i : Interval) : Bool := number i.hours < 24 && number i.minutes < 60 && decide (i.wholeSeconds < 60)

/-- `test(…) then capture(…)`. -/
def captureInterval (value : String) : Option Interval := (interval? value.toList).filter Interval.matched

def intervalSeconds (value : String) : Except String Int :=
  match captureInterval value with
  | none => .error "invalid Data Guard lag interval"
  | some i => if i.inRange then .ok i.value.ceil else .error "invalid Data Guard lag interval fields"

/-! ## Units -/

/-- What follows `pre`. -/
def after? (pre cs : List Char) : Option (List Char) := if pre.isPrefixOf cs then some (cs.drop pre.length) else none

/-- What follows `[0-9]+`. -/
def afterDigits? (cs : List Char) : Option (List Char) :=
  if (cs.takeWhile Char.isDigit).isEmpty then none else some (cs.dropWhile Char.isDigit)

/-- `test("^day\\([0-9]+\\) to second\\([0-9]+\\) interval$")`. -/
def isUnit (value : String) : Bool :=
  (do
    let rest ← after? "day(".toList value.toList
    let rest ← afterDigits? rest
    let rest ← after? ") to second(".toList rest
    let rest ← afterDigits? rest
    after? ") interval".toList rest) == some []

/-! ## Metrics -/

/-- What `metric` emits. -/
structure Metric where
  status : String
  name : String
  value : Option String
  unit : Option String
  timeComputed : Option String
  datumTime : Option String
  sourceDbUniqueName : Option String
  seconds : Int
  ages : Option (Int × Int)

/-- The rows of a metric. -/
def metricRows (rs : List Row) (name : String) : List Row :=
  rs.filter fun row => row.hasTag "DG_METRIC" && row.get 1 == name

/-- The metric of its one row. -/
def metricOfRow (calendar : Calendar) (name : String) (clock : Int) (row : Row) : Except String Metric :=
  match maybe (row.get 2), maybe (row.get 3), maybe (row.get 4), maybe (row.get 5), maybe (row.get 6) with
  | some value, some unit, some computed, some datum, some source =>
      if isUnit unit then do
        let seconds ← intervalSeconds value
        let computedEpoch ← localEpoch calendar computed
        let datumEpoch ← localEpoch calendar datum
        .ok ⟨"collected", name, some value, some unit, some computed, some datum, some source, seconds,
          some (clock - computedEpoch, clock - datumEpoch)⟩
      else .error "unsupported Data Guard lag unit"
  | value, unit, computed, datum, source =>
      .ok ⟨"unavailable", name, value, unit, computed, datum, source, -1, none⟩

def metric (calendar : Calendar) (rs : List Row) (name : String) (clock : Int) : Except String Metric :=
  match metricRows rs name with
  | [] => .ok ⟨"unavailable", name, none, none, none, none, none, -1, none⟩
  | [row] => metricOfRow calendar name clock row
  | _ => .error "duplicate Data Guard lag metric"

/-! ## Standby mode -/

/-- The member that standby mode emits, and the clock it read. -/
structure Standby where
  sampledAtLocal : String
  dbUniqueName : Json
  status : String
  applyProcess : Option String
  transport : Metric
  apply : Metric

/-- A row with a known tag and the length that goes with it. -/
def isTagged (row : Row) : Bool :=
  (row.hasTag "DG_CLOCK" && row.length == 2) || (row.hasTag "DG_APPLY" && row.length == 3) ||
    (row.hasTag "DG_METRIC" && row.length == 7)

/-- `.source_db_unique_name != null and .source_db_unique_name != $identity.primary_db_unique_name`. -/
def foreignSource (identity : Json) (m : Metric) : Except String Bool :=
  match m.sourceDbUniqueName with
  | none => .ok false
  | some source =>
      match identity.field "primary_db_unique_name" with
      | none => .error "Cannot index the identity with \"primary_db_unique_name\""
      | some primary => .ok (!Json.isStr (some primary) source)

/-- `$mode == "standby"`. -/
def standby (calendar : Calendar) (identity : Json) (text : String) : Except String Standby :=
  let rs := rows text
  if rs.any (fun row => !isTagged row) then .error "unexpected standby SQL output"
  else
    let clocks := rs.filter (·.hasTag "DG_CLOCK")
    let processes := rs.filter (·.hasTag "DG_APPLY")
    match clocks with
    | [clockRow] =>
        if 1 < processes.length then .error "ambiguous standby clock/apply process"
        else do
          let clock ← localEpoch calendar (clockRow.get 1)
          let transport ← metric calendar rs "transport lag" clock
          let apply ← metric calendar rs "apply lag" clock
          let foreignTransport ← foreignSource identity transport
          if foreignTransport then .error "lag metric source does not match native primary identity"
          else do
            let foreignApply ← foreignSource identity apply
            if foreignApply then .error "lag metric source does not match native primary identity"
            else
              match identity.field "db_unique_name" with
              | none => .error "Cannot index the identity with \"db_unique_name\""
              | some name =>
                  .ok ⟨clockRow.get 1, name, (processes.head?.map fun row => row.get 2).getD "unknown",
                    processes.head?.map fun row => row.get 1, transport, apply⟩
    | _ => .error "ambiguous standby clock/apply process"

end OraclePatching.DataGuard.Parser
