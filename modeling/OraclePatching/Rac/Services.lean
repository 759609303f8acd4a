import OraclePatching.Common

/-!
# `Rac.Services` — where the services of a RAC database run while a node is patched

The part of `opu-database-rac-node-patch` that moves services: `rac_drain` relocates them off the local instance
and records their names, `rac_stop` and `rac_start` stop and start the instance, and `rac_start` relocates the
recorded services back. `Placement` is what `srvctl status service` reports, one row for each service. Clusterware
is outside: its answer to each command is data of the attempt, and which services it brings up together with an
instance is a parameter.
-/

namespace OraclePatching.Rac

/-! ## Placement -/

/-- The services of the database in the order of the report, and the instances each one runs on. -/
structure Placement where
  services : List String
  on : String → List String

/-- `service_rows`: a service that is not running has no instance. -/
def Placement.rows (p : Placement) : List (String × List String) := p.services.map fun s => (s, p.on s)

def Placement.place (p : Placement) (service : String) (instances : List String) : Placement :=
  { p with on := fun s => if s = service then instances else p.on s }

/-- `srvctl relocate service -oldinst OLD -newinst NEW`, when it succeeds. -/
def Placement.relocate (p : Placement) (service old new : String) : Placement :=
  p.place service ((p.on service).filter (· ≠ old) ++ [new])

/-- `srvctl stop instance`, when it succeeds: nothing runs on the instance any more. -/
def Placement.stopInstance (p : Placement) (inst : String) : Placement :=
  { p with on := fun s => (p.on s).filter (· ≠ inst) }

/-- `srvctl start instance`, when it succeeds: Clusterware brings up the services of `auto` with the instance. -/
def Placement.startInstance (p : Placement) (auto : String → Bool) (inst : String) : Placement :=
  { p with on := fun s => if auto s then p.on s ++ [inst] else p.on s }

/-- `verify_services_available any`. -/
def Placement.available (p : Placement) : Bool := p.rows.all fun row => !row.2.isEmpty

/-- `verify_services_available away-from-local`. -/
def Placement.availableAway (p : Placement) (localInst survivor : String) : Bool :=
  p.rows.all fun row => !row.2.isEmpty && (!row.2.contains localInst || row.2.contains survivor)

/-! ## Draining -/

/-- How `srvctl relocate` ends: it succeeds, or the stage ends there and the service is left on some instances.
    The second covers a command that fails and a stage that is killed during it or before it is on record. -/
inductive Reply where
  | done
  | broken (left : List String)

/-- `drain-state.json`. -/
structure DrainState where
  inst : String
  survivor : String
  relocatedServices : List String

/-- What one attempt of `rac_drain` meets. `verified` stands for the checks of the stage before it looks at
    instances, `survivors` are the instances of the other nodes that report as running, in plan order; `listed` and
    `confirmed` tell whether the service query before the loop was answered, and whether the one after it was and the
    stage lived to write `drain-state.json`. -/
structure Drain where
  verified : Bool
  survivors : List String
  listed : Bool
  replies : List Reply
  confirmed : Bool

/-- The loop of `drain_services` over the rows read before it, with the list of relocated services. An attempt
    that has no reply left is killed there. -/
def drainLoop (localInst survivor : String) :
    List (String × List String) → List Reply → Placement → List String → Placement × Option (List String)
  | [], _, p, relocated => (p, some relocated)
  | (service, instances) :: rows, replies, p, relocated =>
      if Accepted (opuValidateIdentifier service "service") = false ∨ instances = [] then (p, none)
      else if localInst ∈ instances ∧ survivor ∉ instances then
        match replies with
        | [] => (p, none)
        | .broken left :: _ => (p.place service left, none)
        | .done :: replies =>
            drainLoop localInst survivor rows replies (p.relocate service localInst survivor) (relocated ++ [service])
      else drainLoop localInst survivor rows replies p relocated

def drainServices (localInst survivor : String) (a : Drain) (p : Placement) : Placement × Option DrainState :=
  if a.listed then
    match drainLoop localInst survivor p.rows a.replies p [] with
    | (p', none) => (p', none)
    | (p', some relocated) =>
        if a.confirmed && p'.availableAway localInst survivor then (p', some ⟨localInst, survivor, relocated⟩)
        else (p', none)
  else (p, none)

/-- `stage_rac_drain`: the placement it leaves, and the record it writes when it succeeds. -/
def stageRacDrain (localInst : String) (a : Drain) (p : Placement) : Placement × Option DrainState :=
  match a.verified, a.survivors with
  | true, survivor :: _ => drainServices localInst survivor a p
  | _, _ => (p, none)

/-! ## Stopping and starting -/

/-- `load_drain_state`. -/
def loadDrainState (localInst : String) (file : DrainState) : Bool := file.inst == localInst

/-- `stage_rac_stop`, when it succeeds. -/
def stageRacStop (localInst : String) (survivors : List String) (file : DrainState) (p : Placement) :
    Option Placement :=
  match survivors with
  | [] => none
  | survivor :: _ =>
      if loadDrainState localInst file && p.availableAway localInst survivor then
        let stopped := p.stopInstance localInst
        if stopped.available then some stopped else none
      else none

/-- `stage_rac_opatch_apply` does not move services. -/
def stageRacOpatchApply (localInst : String) (file : DrainState) (p : Placement) : Option Placement :=
  if loadDrainState localInst file && p.available then some p else none

/-- The loop of `restore_drained_services`; it ends with the first relocation that fails. -/
def restoreLoop (localInst survivor : String) : List String → List Reply → Placement → Option Placement
  | [], _, p => some p
  | service :: services, .done :: replies, p =>
      if Accepted (opuValidateIdentifier service "service") then
        restoreLoop localInst survivor services replies (p.relocate service survivor localInst)
      else none
  | _ :: _, _, _ => none

def restoreDrainedServices (localInst : String) (file : DrainState) (replies : List Reply) (p : Placement) :
    Option Placement :=
  if Accepted (opuValidateIdentifier file.survivor "survivor-instance") then
    match restoreLoop localInst file.survivor file.relocatedServices replies p with
    | none => none
    | some restored =>
        if file.relocatedServices.all fun s => (restored.on s).contains localInst then some restored else none
  else none

/-- `stage_rac_start`, when it succeeds. -/
def stageRacStart (auto : String → Bool) (localInst : String) (file : DrainState) (replies : List Reply)
    (p : Placement) : Option Placement :=
  if loadDrainState localInst file then
    match restoreDrainedServices localInst file replies (p.startInstance auto localInst) with
    | none => none
    | some restored => if restored.available then some restored else none
  else none

/-! ## The outcome a stage reports -/

/-- `derive_outcome`, of a stage that has failed, from the markers in its task directory. -/
def deriveOutcome (stage : String) (marker : String → Bool) : String :=
  if marker "binary-state-unknown" then "binary_state_unknown"
  else if marker "instance-down" then "database_down"
  else if marker "binary-state-known" ∨
      stage ∈ ["rac_start", "rac_node_validate", "cluster_datapatch", "cluster_final_validate"] then
    "binary_state_known"
  else "no_mutation"

end OraclePatching.Rac
