import OraclePatching.Lib.Path
import OraclePatching.Lib.Words
import OraclePatching.Queue.Jobs
import OraclePatching.Web.Principals

/-!
# `Web.Requests` — from a POST request to the operation it performs (`webapp/server.py`)

A request passes three tables. `pathAction` classifies its path as one of the actions of `ACTION_ROLES`, and the
principal of the credential must hold a role for it. The body is then read, its identity fields must name the
principal, and are filled in with it. Last `handle` finds the handler of the path, which passes what it reads to one
operation of the control modules (`planctl`, `recoveryctl`, `agent_queue`, `pipeline_runner`, `pipeline_steps`).

A request is either refused, with the HTTP status and the message, or performs one `Operation`. A run that is
started answers 202 at once; what it refuses later is a refusal with that status here.
-/

namespace OraclePatching.Web

open Path

/-! ## Bodies -/

abbrev Body := List (String × Value)

/-- `body.get(name)` of a field that `do_POST` has found to be a text. -/
def text (body : Body) (name : String) : Option String :=
  match body.lookup name with
  | some (.str s) => some s
  | _ => none

/-- `body[name]`. -/
def field (body : Body) (name : String) : Ctl String :=
  need (text body name) 400 ("Missing required field: " ++ quoted name)

/-- `int(body.get(name, default))`, after the field has been converted. -/
def integer (body : Body) (name : String) (default : Int) : Int :=
  match body.lookup name with
  | some (.int i) => i
  | _ => default

/-- `body[name] = v` on a field that is there. -/
def setField (body : Body) (name : String) (v : Value) : Body := body.map fun p => if p.1 = name then (name, v) else p

/-- `body.setdefault(name, v)`. -/
def setDefault (body : Body) (name : String) (v : Value) : Body :=
  match body.lookup name with
  | some _ => body
  | none => body ++ [(name, v)]

/-- `body.pop(name, None)`. -/
def pop (body : Body) (name : String) : Body := body.filter fun p => p.1 != name

/-! ## Operations -/

/-- The adapters of a demonstration plan. -/
inductive Demo where
  | standalone
  | rac
  | grid

/-- The calls into the control modules, with the identities they are given. -/
inductive Operation where
  | planCreate (planId requester hostId windowStart windowEnd : String)
  | planDemo (demo : Demo) (planId requester windowStart windowEnd : String)
  | planApprove (planId actor approvalTicket : String)
  | planAuthorize (planId actor : String)
  | planDispatch (planId actor : String)
  | planCreateRollback (planId requester sourcePlanId windowStart windowEnd : String)
  | retryTask (planId taskId actor : String)
  | executeNextTask (planId actor : String)
  | executeRemainingTasks (planId actor : String) (maxTasks : Int)
  | publishAgentQueue (planId : String)
  | recoveryCreate (requestId requester : String) (hostId : Option String)
  | recoveryAnalyze (requestId : String)
  | recoveryApprove (requestId actor approvalTicket : String)
  | recoveryAuthorize (requestId actor : String)
  | recoveryExecute (requestId actor : String)
  | recoveryReconcile (requestId actor : String)
  | queueClaim (node agentId : String) (leaseSeconds : Int) (agentToken : Option String)
  | queueComplete (jobId : Option Value) (agentId : String) (result : Option Value)
      (agentToken claimToken : Option String)
  | queueExtendLease (jobId : Option Value) (agentId : String) (seconds : Int) (agentToken claimToken : Option String)
  | queueReconcile (jobId : Option Value) (actor : String)
  | reconcileRun (runId actor : String) (confirmNoActiveExecution : Bool) (note : Option Value)
  | pipelineStep (hostId step : String) (body : Body)

/-! ## Deployment -/

/-- What the server finds around it. -/
structure Deployment where
  registry : Registry
  /-- The digest of a credential. -/
  sha256 : String → String
  /-- `int(text)`. -/
  int : String → Option Int
  /-- `hosts.json` configures the host. -/
  configured : String → Bool
  /-- The gate on change tickets; it lets everything through when it is off. -/
  validateTicket : String → Ctl Unit
  /-- A run is active under the key. -/
  busy : String → Bool
  /-- The fixture directory of a request is a symbolic link or resolves outside the root. -/
  escapes : String → Bool
  /-- The fixture of a request is there, with its environment. -/
  built : String → Bool
  /-- The fixture of a new request can be built. -/
  buildable : String → Bool
  validHostId : String → Bool

structure Request where
  path : String
  authorization : Option String
  /-- `X-OPU-Actor`. -/
  assertedActor : Option String
  /-- `none` when the body is too long, incomplete or no JSON. -/
  body : Option Value

/-! ## Authentication and the role of a path -/

/-- `_require_api_auth`. -/
def requirePrincipal (d : Deployment) (r : Request) : Ctl String := do
  let principal ← requireApiAuth d.sha256 d.registry r.authorization
  ensure (r.assertedActor ∈ [none, some "", some principal]) 403
    "X-OPU-Actor does not match the authenticated principal"
  .ok principal

/-- `_require_role`: what a field asserts must be the principal, who then needs a role. -/
def checkRole (d : Deployment) (principal : String) (actor : Option String) (action : Action) : Ctl Unit := do
  ensure (actor ∈ [none, some "", some principal]) 403 "actor does not match the authenticated principal"
  requireRole d.registry principal action

/-- The action `_authorize_path` selects for a POST. -/
def pathAction (path : String) : Action :=
  if startsWith path "/api/agent/" then .agent
  else if contains path "/pipeline/" || startsWith path "/api/runs/" then .execute
  else if ["/api/plans", "/api/plans/testmode-demo", "/api/recovery/testmode-demo"].contains path ||
      endsWith path "/create-rollback" then .create
  else if endsWith path "/approve" then .approve
  else if endsWith path "/authorize" then .authorize
  else if endsWith path "/dispatch" || endsWith path "/publish-agent-queue" then .dispatch
  else if endsWith path "/analyze" then .read
  else .execute

/-! ## Reading the body -/

/-- The fields that must be texts. -/
def textFields : List String :=
  ["actor", "requester", "plan_id", "request_id", "task_id", "host_id", "node", "agent_id", "approval_ticket",
    "source_plan_id", "window_start", "window_end", "adapter", "artifact_dir", "agent_token", "claim_token"]

def integerFields : List String := ["max_tasks", "lease_seconds", "seconds"]

def checkText (body : Body) (name : String) : Ctl Unit :=
  match body.lookup name with
  | none | some (.str _) => .ok ()
  | some _ => refuse 400 (name ++ " must be a string")

/-- `body[field] = int(value)`, for a field that is there. -/
def convertInteger (d : Deployment) (body : Body) (name : String) : Ctl Body :=
  match body.lookup name with
  | none => .ok body
  | some (.int _) => .ok body
  | some (.str s) => do
      let i ← need (d.int s) 400 (name ++ " must be an integer")
      .ok (setField body name (.int i))
  | some _ => refuse 400 (name ++ " must be an integer")

/-- `_read_json_body` and the types of the fields. -/
def readBody (d : Deployment) (r : Request) : Ctl Body := do
  let v ← need r.body 400 "invalid_body"
  match v with
  | .dict body => do
      forEach (checkText body) textFields
      integerFields.foldlM (convertInteger d) body
  | _ => refuse 400 "JSON body must be an object"

/-- An identity field that is there names the principal. -/
def checkIdentity (body : Body) (principal name : String) : Ctl Unit :=
  ensure (text body name ∈ [none, some principal]) 403 (name ++ " does not match the authenticated principal")

/-- The identity fields are the principal's, in the end. -/
def bindPrincipal (principal : String) (body : Body) : Ctl Body := do
  forEach (checkIdentity body principal) ["actor", "requester"]
  .ok (setDefault (setDefault body "actor" (.str principal)) "requester" (.str principal))

/-! ## Handlers -/

/-- `pipeline_runner.start_run`. -/
def startRun (d : Deployment) (key : String) (op : Ctl Operation) : Ctl Operation := do
  ensure (d.busy key = false) 409 ("A run is already active for " ++ key)
  op

inductive PlanAction where
  | create
  | approve
  | authorize
  | dispatch
  | createRollback

/-- `_post_plan_action`. -/
def postPlanAction (d : Deployment) (principal : String) (action : PlanAction) (planId : String) (body : Body) :
    Ctl Operation :=
  match action with
  | .create => do
      let planId ← field body "plan_id"
      let requester ← field body "requester"
      let hostId ← field body "host_id"
      let windowStart ← field body "window_start"
      let windowEnd ← field body "window_end"
      checkRole d principal (some requester) .create
      ensure (d.configured hostId = true) 404 ("No configured host: " ++ hostId)
      startRun d ("plan:" ++ planId ++ ":create") (.ok (.planCreate planId requester hostId windowStart windowEnd))
  | .approve => do
      let actor ← field body "actor"
      let approvalTicket ← field body "approval_ticket"
      checkRole d principal (some actor) .approve
      d.validateTicket approvalTicket
      startRun d ("plan:" ++ planId ++ ":approve") (.ok (.planApprove planId actor approvalTicket))
  | .authorize => do
      let actor ← field body "actor"
      checkRole d principal (some actor) .authorize
      startRun d ("plan:" ++ planId ++ ":authorize") (.ok (.planAuthorize planId actor))
  | .dispatch => do
      let actor ← field body "actor"
      checkRole d principal (some actor) .dispatch
      startRun d ("plan:" ++ planId ++ ":dispatch") (.ok (.planDispatch planId actor))
  | .createRollback => do
      let sourcePlanId := (text body "source_plan_id").getD planId
      ensure (sourcePlanId = planId) 400 ("URL source plan " ++ quoted planId ++
        " does not match body source_plan_id " ++ quoted sourcePlanId)
      let newPlanId ← field body "plan_id"
      let requester ← field body "requester"
      checkRole d principal (some requester) .create
      let windowStart ← field body "window_start"
      let windowEnd ← field body "window_end"
      startRun d ("plan:" ++ planId ++ ":create-rollback")
        (.ok (.planCreateRollback newPlanId requester sourcePlanId windowStart windowEnd))

/-- The demonstration plans by adapter. -/
def demos : List (String × Demo) := [("standalone", .standalone), ("rac", .rac), ("grid", .grid)]

def postDemoPlan (d : Deployment) (principal : String) (body : Body) : Ctl Operation := do
  let planId ← field body "plan_id"
  let requester ← field body "requester"
  let windowStart ← field body "window_start"
  let windowEnd ← field body "window_end"
  -- `body.get("adapter") or "standalone"`
  let adapter := match text body "adapter" with
    | none | some "" => "standalone"
    | some adapter => adapter
  let demo ← need (demos.lookup adapter) 400
    ("Unsupported demo adapter: " ++ quoted adapter ++ " (expected standalone, rac, or grid)")
  checkRole d principal (some requester) .create
  startRun d ("plan:" ++ planId ++ ":testmode-demo") (.ok (.planDemo demo planId requester windowStart windowEnd))

/-- `recoveryctl._fixture_path`. -/
def fixturePath (d : Deployment) (requestId : String) : Ctl Unit := do
  ensure (queueIdentifier requestId = true) 202 "request_id contains unsupported characters"
  ensure (d.escapes requestId = false) 202 "request_id escapes the recovery fixture root"

/-- `recoveryctl._run`: the tool runs in the environment of the fixture. -/
def runTool (d : Deployment) (requestId : String) (op : Operation) : Ctl Operation := do
  fixturePath d requestId
  ensure (d.built requestId = true) 202 "No fixture env recorded"
  .ok op

/-- `recoveryctl.create_testmode_demo`. -/
def createRecoveryDemo (d : Deployment) (requestId requester : String) (hostId : Option String) : Ctl Operation := do
  fixturePath d requestId
  ensure (queueIdentifier requester = true) 202 "requester contains unsupported characters"
  ensure (∀ h ∈ hostId, d.validHostId h = true) 202 "host_id contains unsupported characters"
  ensure (d.buildable requestId = true) 202 "fixture cannot be built"
  .ok (.recoveryCreate requestId requester hostId)

/-- A field that the body of a run reads: the run fails when it is missing. -/
def runField (body : Body) (name : String) : Ctl String := need (text body name) 202 (quoted name)

inductive RecoveryAction where
  | create
  | analyze
  | approve
  | authorize
  | execute
  | reconcile

/-- `_post_recovery_action`. -/
def postRecoveryAction (d : Deployment) (action : RecoveryAction) (requestId : String) (body : Body) :
    Ctl Operation :=
  match action with
  | .create => do
      let requestId ← field body "request_id"
      startRun d ("recovery:" ++ requestId ++ ":create") do
        let hostId := text body "host_id"
        ensure (∀ h ∈ hostId, h = "" ∨ d.configured h = true) 202 "Unknown recovery host_id"
        let requester ← runField body "requester"
        createRecoveryDemo d requestId requester hostId
  | .analyze => startRun d ("recovery:" ++ requestId ++ ":analyze") (runTool d requestId (.recoveryAnalyze requestId))
  | .approve => startRun d ("recovery:" ++ requestId ++ ":approve") do
      let actor ← runField body "actor"
      let approvalTicket ← runField body "approval_ticket"
      runTool d requestId (.recoveryApprove requestId actor approvalTicket)
  | .authorize => startRun d ("recovery:" ++ requestId ++ ":authorize") do
      let actor ← runField body "actor"
      runTool d requestId (.recoveryAuthorize requestId actor)
  | .execute => startRun d ("recovery:" ++ requestId ++ ":execute") do
      let actor ← runField body "actor"
      runTool d requestId (.recoveryExecute requestId actor)
  | .reconcile => startRun d ("recovery:" ++ requestId ++ ":reconcile") do
      let actor ← runField body "actor"
      runTool d requestId (.recoveryReconcile requestId actor)

/-- `pipeline_steps.STEPS`. -/
def steps : List String :=
  ["discovery", "reconcile", "artifact-inspect", "procedure-validate", "compatibility-collect",
    "compatibility-reconcile", "readiness-evaluate", "stage-artifact", "readiness-chain"]

/-- A pipeline step gets the body without the two fields that the server itself sets. -/
def postPipelineStep (d : Deployment) (path : String) (body : Body) : Ctl Operation := do
  let (hostId, step) := partition (Path.after path "/api/hosts/") "/pipeline/"
  ensure (d.configured hostId = true) 404 ("No configured host: " ++ hostId)
  ensure (step ∈ steps) 404 ("No such pipeline step: " ++ step)
  startRun d ("host:" ++ hostId ++ ":pipeline") (.ok (.pipelineStep hostId step (pop (pop body "_hosts") "_record")))

/-- `body.get("agent_id") or body.get("actor")`. -/
def agentOf (body : Body) : Option String :=
  match text body "agent_id" with
  | none | some "" => text body "actor"
  | some agentId => some agentId

def postRetryTask (d : Deployment) (principal planId : String) (body : Body) : Ctl Operation := do
  let actor ← field body "actor"
  let taskId ← field body "task_id"
  checkRole d principal (some actor) .execute
  startRun d ("plan:" ++ planId ++ ":retry-task") (.ok (.retryTask planId taskId actor))

def postExecuteNext (d : Deployment) (principal planId : String) (body : Body) : Ctl Operation := do
  let actor ← field body "actor"
  checkRole d principal (some actor) .execute
  startRun d ("plan:" ++ planId ++ ":execute") (.ok (.executeNextTask planId actor))

def postExecuteRemaining (d : Deployment) (principal planId : String) (body : Body) : Ctl Operation := do
  let actor ← field body "actor"
  checkRole d principal (some actor) .execute
  startRun d ("plan:" ++ planId ++ ":execute")
    (.ok (.executeRemainingTasks planId actor (integer body "max_tasks" 200)))

def postPublishAgentQueue (d : Deployment) (principal planId : String) (body : Body) : Ctl Operation := do
  checkRole d principal (text body "actor") .dispatch
  .ok (.publishAgentQueue planId)

/-- The lease is renewed for the `agent_id` of the body, which stands for itself. -/
def postAgentRenew (d : Deployment) (principal : String) (body : Body) : Ctl Operation := do
  checkRole d principal (text body "agent_id") .agent
  .ok (.queueExtendLease (body.lookup "job_id") ((text body "agent_id").getD "") (integer body "seconds" 120)
    (text body "agent_token") (text body "claim_token"))

def postAgentClaim (d : Deployment) (principal : String) (body : Body) : Ctl Operation := do
  checkRole d principal (agentOf body) .agent
  .ok (.queueClaim ((text body "node").getD "") ((agentOf body).getD "") (integer body "lease_seconds" 120)
    (text body "agent_token"))

def postAgentComplete (d : Deployment) (principal : String) (body : Body) : Ctl Operation := do
  checkRole d principal (agentOf body) .agent
  .ok (.queueComplete (body.lookup "job_id") ((agentOf body).getD "") (body.lookup "result")
    (text body "agent_token") (text body "claim_token"))

/-! ## `do_POST` -/

/-- The chain of tests on the path, in the order of the source. -/
def handle (d : Deployment) (principal path : String) (body : Body) : Ctl Operation :=
  let planId := fun suf => between path "/api/plans/" suf
  let requestId := fun suf => between path "/api/recovery/" suf
  if startsWith path "/api/runs/" && endsWith path "/reconcile" then
    .ok (.reconcileRun (between path "/api/runs/" "/reconcile") principal
      (match body.lookup "confirm_no_active_execution" with | some (.bool b) => b | _ => false) (body.lookup "note"))
  else if path = "/api/agent/renew" then postAgentRenew d principal body
  else if path = "/api/agent/reconcile" then .ok (.queueReconcile (body.lookup "job_id") principal)
  else if startsWith path "/api/hosts/" && contains path "/pipeline/" then postPipelineStep d path body
  else if path = "/api/plans" then postPlanAction d principal .create "" body
  else if path = "/api/plans/testmode-demo" then postDemoPlan d principal body
  else if startsWith path "/api/plans/" && endsWith path "/retry-task" then
    postRetryTask d principal (planId "/retry-task") body
  else if startsWith path "/api/plans/" && endsWith path "/execute-next" then
    postExecuteNext d principal (planId "/execute-next") body
  else if startsWith path "/api/plans/" && endsWith path "/execute-remaining" then
    postExecuteRemaining d principal (planId "/execute-remaining") body
  else if startsWith path "/api/plans/" && endsWith path "/publish-agent-queue" then
    postPublishAgentQueue d principal (planId "/publish-agent-queue") body
  else if path = "/api/agent/claim" then postAgentClaim d principal body
  else if path = "/api/agent/complete" then postAgentComplete d principal body
  else if startsWith path "/api/plans/" && endsWith path "/approve" then
    postPlanAction d principal .approve (planId "/approve") body
  else if startsWith path "/api/plans/" && endsWith path "/authorize" then
    postPlanAction d principal .authorize (planId "/authorize") body
  else if startsWith path "/api/plans/" && endsWith path "/dispatch" then
    postPlanAction d principal .dispatch (planId "/dispatch") body
  else if startsWith path "/api/plans/" && endsWith path "/create-rollback" then
    postPlanAction d principal .createRollback (planId "/create-rollback") body
  else if path = "/api/recovery/testmode-demo" then postRecoveryAction d .create "" body
  else if startsWith path "/api/recovery/" && endsWith path "/analyze" then
    postRecoveryAction d .analyze (requestId "/analyze") body
  else if startsWith path "/api/recovery/" && endsWith path "/approve" then
    postRecoveryAction d .approve (requestId "/approve") body
  else if startsWith path "/api/recovery/" && endsWith path "/authorize" then
    postRecoveryAction d .authorize (requestId "/authorize") body
  else if startsWith path "/api/recovery/" && endsWith path "/execute" then
    postRecoveryAction d .execute (requestId "/execute") body
  else if startsWith path "/api/recovery/" && endsWith path "/reconcile" then
    postRecoveryAction d .reconcile (requestId "/reconcile") body
  else refuse 404 "Not Found"

/-- What a request passes before it reaches its handler: the principal and the body with its identities bound. -/
def accept (d : Deployment) (r : Request) : Ctl (String × Body) := do
  let principal ← requirePrincipal d r
  checkRole d principal (some principal) (pathAction r.path)
  let body ← readBody d r
  let body ← bindPrincipal principal body
  .ok (principal, body)

/-- `do_POST`. Outside `/api/` nobody authenticates, and no path has a handler. -/
def doPost (d : Deployment) (r : Request) : Ctl Operation :=
  if startsWith r.path "/api/" then do
    let (principal, body) ← accept d r
    handle d principal r.path body
  else do
    let _ ← readBody d r
    refuse 404 "Not Found"

end OraclePatching.Web
