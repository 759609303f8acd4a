import OraclePatching.Common
import OraclePatching.Lib.Awk

/-!
# `OutOfPlace.Oratab` — the oratab of an out-of-place switch

`oratab_home_for_sid` and `rewrite_oratab` of `opu-database-out-of-place-patch`, and what the two stages that switch the
home do with the file. A stage that dies leaves the file as far as it had got.
-/

namespace OraclePatching.OutOfPlace

/-- `CLONE_HOME`. -/
def cloneHome (home patchId : String) : String := home ++ "-oop-" ++ patchId

variable (awk : Awk.Interpreter)

/-- `$1 == sid`, under `-F: -v sid="$sid"`. -/
def isEntry (sid : String) (r : List Char) : Bool := awk.equal (Awk.first ':' r) (awk.assign sid.toList)

/-- `$(oratab_home_for_sid "$sid")`. -/
def oratabHomeForSid (oratab sid : String) : String :=
  match (Awk.records oratab.toList).find? (isEntry awk sid) with
  | some r => Shell.cmdSubst (String.ofList (Awk.second ':' r))
  | none => ""

/-- A line of the rewritten file. -/
def rewriteLine (sid newHome : String) (r : List Char) : List Char :=
  if isEntry awk sid r then Awk.setSecond ':' (awk.assign newHome.toList) r else r

/-- What awk prints. -/
def rewritten (oratab sid newHome : String) : String :=
  String.ofList (Awk.render ((Awk.records oratab.toList).map (rewriteLine awk sid newHome)))

/-- `rewrite_oratab`, with the file it leaves. -/
def rewriteOratab (oratab sid newHome : String) : String × Ctl Unit :=
  (rewritten awk oratab sid newHome,
    ensure (oratabHomeForSid awk (rewritten awk oratab sid newHome) sid = newHome) 65
      "oratab does not reflect the requested home switch")

/-- A stage that rewrites the file when it names the home that the stage expects. -/
def switchStage (oratab sid expected newHome message : String) : String × Ctl Unit :=
  if oratabHomeForSid awk oratab sid = expected then rewriteOratab awk oratab sid newHome
  else (oratab, refuse 65 message)

/-- `stage_oop_switch_home`. -/
def stageOopSwitchHome (oratab sid home patchId : String) : String × Ctl Unit :=
  switchStage awk oratab sid home (cloneHome home patchId) "oratab no longer binds the SID to the sealed active home"

/-- `stage_oop_switch_back`. -/
def stageOopSwitchBack (oratab sid home patchId : String) : String × Ctl Unit :=
  switchStage awk oratab sid (cloneHome home patchId) home
    "oratab no longer binds the SID to the patched clone home"

end OraclePatching.OutOfPlace
