import OraclePatching.Web.Requests

/-!
# `Correctness.ActorAttribution` — the principal of a credential is who acts

A handler attributes what it does when every identity it passes on is the principal and the principal holds a role
for what the operation does. The handlers of plans and of the agent check the role themselves. Those of runs,
pipelines and recovery requests rely on the classification of the path, so for them the argument is about words
between slashes: `pathAction` looks for `/pipeline/` anywhere in the path before it looks at its end, and a recovery
request may itself be called `pipeline`. That is the one identifier for which the two readings of a path differ.
-/

namespace OraclePatching.Web

open Path Words

/-! ## What an operation does, and in whose name

An operation carries the identities it will be recorded under. Attributed: they are the principal of the
credential, and the role of the action is among the principal's. -/

/-- The identities an operation is given. -/
def Operation.identities : Operation → List String
  | .planCreate _ requester _ _ _ | .planDemo _ _ requester _ _ | .planCreateRollback _ requester _ _ _ => [requester]
  | .planApprove _ actor _ | .planAuthorize _ actor | .planDispatch _ actor => [actor]
  | .retryTask _ _ actor | .executeNextTask _ actor | .executeRemainingTasks _ actor _ => [actor]
  | .publishAgentQueue _ => []
  | .recoveryCreate _ requester _ => [requester]
  | .recoveryAnalyze _ => []
  | .recoveryApprove _ actor _ | .recoveryAuthorize _ actor => [actor]
  | .recoveryExecute _ actor | .recoveryReconcile _ actor => [actor]
  | .queueClaim _ agentId _ _ | .queueComplete _ agentId _ _ _ | .queueExtendLease _ agentId _ _ _ => [agentId]
  | .queueReconcile _ actor => [actor]
  | .reconcileRun _ actor _ _ => [actor]
  | .pipelineStep _ _ body => (text body "actor").toList ++ (text body "requester").toList

/-- The action an operation performs. -/
def Operation.action : Operation → Action
  | .planCreate .. | .planDemo .. | .planCreateRollback .. | .recoveryCreate .. => .create
  | .planApprove .. | .recoveryApprove .. => .approve
  | .planAuthorize .. | .recoveryAuthorize .. => .authorize
  | .planDispatch .. | .publishAgentQueue .. => .dispatch
  | .retryTask .. | .executeNextTask .. | .executeRemainingTasks .. => .execute
  | .recoveryExecute .. | .recoveryReconcile .. | .reconcileRun .. | .pipelineStep .. => .execute
  | .recoveryAnalyze .. => .read
  | .queueClaim .. | .queueComplete .. | .queueExtendLease .. | .queueReconcile .. => .agent

/-- The action a recovery handler performs. -/
def RecoveryAction.action : RecoveryAction → Action
  | .create => .create
  | .analyze => .read
  | .approve => .approve
  | .authorize => .authorize
  | .execute | .reconcile => .execute

/-- **The operation is the principal's**: it acts in no other name, and a role of the principal permits it. -/
def Attributed (registry : Registry) (principal : String) (op : Operation) : Prop :=
  (∀ who ∈ op.identities, who = principal) ∧ Holds registry principal op.action

/-- The identity fields of the body name the principal. -/
structure Bound (principal : String) (body : Body) : Prop where
  actor : text body "actor" = some principal
  requester : text body "requester" = some principal

/-! ## Bodies

A body is changed in three ways on its way to a handler: defaults are set, fields are taken out and put in. What a
handler reads under a name depends on the changes under that name. -/

section
variable {body : Body} {name other : String} {v : Value}

/-- A default that agrees with what is there is what is read. -/
theorem lookup_setDefault_self (h : ∀ w, body.lookup name = some w → w = v) :
    (setDefault body name v).lookup name = some v := by
  unfold setDefault
  split
  · rename_i w hw
    rw [hw, h w hw]
  · rename_i hnone
    rw [List.lookup_append, hnone]
    simp

theorem lookup_setDefault_ne (hne : other ≠ name) : (setDefault body name v).lookup other = body.lookup other := by
  unfold setDefault
  split
  · rfl
  · have hbeq : (other == name) = false := beq_eq_false_iff_ne.mpr hne
    rw [List.lookup_append]
    rw [List.lookup_cons, hbeq, List.lookup_nil, Option.or_none]

theorem lookup_pop_ne (hne : other ≠ name) : (pop body name).lookup other = body.lookup other := by
  unfold pop
  induction body with
  | nil => rfl
  | cons p ps ih =>
      by_cases hname : p.1 = name
      · have hother : (other == p.1) = false := beq_eq_false_iff_ne.mpr (hname ▸ hne)
        rw [List.filter_cons_of_neg (by simp [hname]), ih, List.lookup_cons, hother]
      · rw [List.filter_cons_of_pos (by simp [hname]), List.lookup_cons, List.lookup_cons, ih]

theorem lookup_setField_ne (hne : other ≠ name) : (setField body name v).lookup other = body.lookup other := by
  unfold setField
  induction body with
  | nil => rfl
  | cons p ps ih =>
      rw [List.map_cons, List.lookup_cons, List.lookup_cons, ih]
      by_cases hname : p.1 = name
      · simp [hname, beq_eq_false_iff_ne.mpr hne]
      · simp [hname]

theorem text_of_lookup {body' : Body} (h : body'.lookup name = body.lookup name) : text body' name = text body name := by
  unfold text
  rw [h]

theorem field_ok {s : String} : field body name = .ok s ↔ text body name = some s := need_ok

theorem runField_ok {s : String} : runField body name = .ok s ↔ text body name = some s := need_ok

end

/-- A text of the body that must be the principal or absent, whatever its type was. -/
theorem lookup_of_checked {body : Body} {name principal : String} (htext : checkText body name = .ok ())
    (hid : checkIdentity body principal name = .ok ()) :
    ∀ w, body.lookup name = some w → w = .str principal := by
  intro w hw
  unfold checkText at htext
  unfold checkIdentity text at hid
  rw [ensure_ok] at hid
  rw [hw] at htext hid
  cases w with
  | str s => simpa using hid
  | _ => exact absurd htext refuse_ne_ok

/-- A conversion of numbers leaves the identity fields as they are. -/
theorem convertInteger_lookup {d : Deployment} {body body' : Body} {name other : String}
    (h : convertInteger d body name = .ok body') (hne : other ≠ name) : body'.lookup other = body.lookup other := by
  unfold convertInteger at h
  split at h
  · injection h with h; rw [h]
  · injection h with h; rw [h]
  · obtain ⟨i, _, h⟩ := need_bind_ok.mp h
    injection h with h
    rw [← h, lookup_setField_ne hne]
  · exact absurd h refuse_ne_ok

/-- **A body that is accepted is bound**: both identity fields are the principal. -/
theorem bound_of_accept {d : Deployment} {r : Request} {principal : String} {body : Body}
    (h : accept d r = .ok (principal, body)) : Bound principal body := by
  unfold accept at h
  obtain ⟨p, _, h⟩ := bind_ok.mp h
  obtain ⟨_, h⟩ := check_bind_ok.mp h
  obtain ⟨read, hread, h⟩ := bind_ok.mp h
  obtain ⟨bound, hbound, h⟩ := bind_ok.mp h
  injection h with h
  injection h with hp hb
  subst hp hb
  -- the identity fields of the body that was read are texts: the types were checked before the numbers
  have htext : ∀ name ∈ ["actor", "requester"], checkText read name = .ok () := by
    intro name hname
    unfold readBody at hread
    obtain ⟨v, _, hread⟩ := need_bind_ok.mp hread
    cases v with
    | dict raw =>
        obtain ⟨hchecked, hconv⟩ := check_bind_ok.mp hread
        have hraw : checkText raw name = .ok () := by
          apply forEach_ok.mp hchecked
          rw [List.mem_cons, List.mem_singleton] at hname
          rcases hname with rfl | rfl <;> decide
        have hsame : read.lookup name = raw.lookup name := by
          obtain ⟨b₁, h₁, hconv⟩ := bind_ok.mp hconv
          obtain ⟨b₂, h₂, hconv⟩ := bind_ok.mp hconv
          obtain ⟨b₃, h₃, hconv⟩ := bind_ok.mp hconv
          injection hconv with hconv
          rw [List.mem_cons, List.mem_singleton] at hname
          rcases hname with rfl | rfl <;>
            rw [← hconv, convertInteger_lookup h₃ (by decide), convertInteger_lookup h₂ (by decide),
              convertInteger_lookup h₁ (by decide)]
        unfold checkText
        rw [hsame]
        exact hraw
    | _ => exact absurd hread refuse_ne_ok
  unfold bindPrincipal at hbound
  obtain ⟨hids, hbound⟩ := check_bind_ok.mp hbound
  injection hbound with hbound
  have hid := forEach_ok.mp hids
  have hactor := lookup_of_checked (htext "actor" (by simp)) (hid "actor" (by simp))
  have hrequester := lookup_of_checked (htext "requester" (by simp)) (hid "requester" (by simp))
  have hkeep : ("requester" : String) ≠ "actor" := by decide
  have hkeep' : ("actor" : String) ≠ "requester" := by decide
  rw [← hbound]
  constructor
  · unfold text
    rw [lookup_setDefault_ne hkeep', lookup_setDefault_self hactor]
  · unfold text
    rw [lookup_setDefault_self]
    intro w hw
    rw [lookup_setDefault_ne hkeep] at hw
    exact hrequester w hw

/-! ## Checks -/

section
variable {d : Deployment} {principal : String} {actor : Option String} {action : Action} {body : Body}

/-- A run is started when its key is not busy. -/
theorem startRun_ok {key : String} {x : Ctl Operation} {op : Operation} :
    startRun d key x = .ok op ↔ d.busy key = false ∧ x = .ok op := by
  unfold startRun
  rw [ensure_bind_ok]

/-- A role that was checked is held, and the name it was checked for is the principal or nothing. -/
theorem checkRole_ok (hstrip : strip principal = principal) (h : checkRole d principal actor action = .ok ()) :
    actor ∈ [none, some "", some principal] ∧ Holds d.registry principal action := by
  unfold checkRole at h
  obtain ⟨hname, hrole⟩ := ensure_bind_ok.mp h
  exact ⟨hname, hstrip ▸ requireRole_holds hrole⟩

/-- What `_require_role` says does not depend on how the principal was named. -/
theorem checkRole_unnamed {named : Option String} (hnamed : named ∈ [none, some "", some principal])
    (h : checkRole d principal actor action = .ok ()) : checkRole d principal named action = .ok () := by
  unfold checkRole at h ⊢
  rw [ensure_bind_ok] at h ⊢
  exact ⟨hnamed, h.2⟩

/-- The agent of a bound body is the principal, unless the body names somebody else. -/
theorem agentOf_eq (hb : Bound principal body) (hname : agentOf body ∈ [none, some "", some principal]) :
    agentOf body = some principal := by
  unfold agentOf at hname ⊢
  split
  · exact hb.actor
  · exact hb.actor
  · rename_i agentId hnone hagent
    rw [hagent] at hname
    simp only [List.mem_cons, List.not_mem_nil, or_false, reduceCtorEq, false_or, Option.some.injEq] at hname
    rcases hname with hempty | hsame
    · exact absurd hempty hnone
    · exact congrArg some hsame

/-! ## The handlers of plans and of the agent check the role themselves

Each handler asks for the role of its own action and takes the actor from the body, which the server has bound to
the principal. -/

/-- An operation in the principal's name that checks the role of its action is attributed. -/
theorem attributed_of_role {op : Operation} (hnames : op.identities = [principal])
    (hrole : Holds d.registry principal op.action) : Attributed d.registry principal op := by
  refine ⟨?_, hrole⟩
  intro who hwho
  rw [hnames] at hwho
  exact List.mem_singleton.mp hwho

/-- A run whose role was checked, in the principal's name. -/
theorem attributed_of_start {key : String} {op op' : Operation} (hstrip : strip principal = principal)
    (h : startRun d key (.ok op') = .ok op) (hnames : op'.identities = [principal])
    (hrole : checkRole d principal actor op'.action = .ok ()) : Attributed d.registry principal op := by
  obtain ⟨_, h⟩ := startRun_ok.mp h
  injection h with h
  exact h ▸ attributed_of_role hnames (checkRole_ok hstrip hrole).2

/-- A bound field names the principal. -/
theorem field_principal {name s : String} (hb : text body name = some principal) (h : field body name = .ok s) :
    s = principal :=
  Option.some.inj ((field_ok.mp h).symm.trans hb)

theorem postPlanAction_attributed {a : PlanAction} {planId : String} {op : Operation}
    (hstrip : strip principal = principal) (hb : Bound principal body)
    (h : postPlanAction d principal a planId body = .ok op) : Attributed d.registry principal op := by
  unfold postPlanAction at h
  cases a with
  | create =>
      -- every action reads its actor, checks that actor's role and then starts the tool with it
      obtain ⟨planId, _, h⟩ := bind_ok.mp h
      obtain ⟨requester, hwho, h⟩ := bind_ok.mp h
      obtain ⟨hostId, _, h⟩ := bind_ok.mp h
      obtain ⟨ws, _, h⟩ := bind_ok.mp h
      obtain ⟨we, _, h⟩ := bind_ok.mp h
      obtain ⟨hrole, h⟩ := check_bind_ok.mp h
      obtain ⟨_, h⟩ := check_bind_ok.mp h
      rw [field_principal hb.requester hwho] at hrole h
      exact attributed_of_start hstrip h rfl hrole
  | approve =>
      obtain ⟨actor, hwho, h⟩ := bind_ok.mp h
      obtain ⟨ticket, _, h⟩ := bind_ok.mp h
      obtain ⟨hrole, h⟩ := check_bind_ok.mp h
      obtain ⟨_, h⟩ := check_bind_ok.mp h
      rw [field_principal hb.actor hwho] at hrole h
      exact attributed_of_start hstrip h rfl hrole
  | authorize =>
      obtain ⟨actor, hwho, h⟩ := bind_ok.mp h
      obtain ⟨hrole, h⟩ := check_bind_ok.mp h
      rw [field_principal hb.actor hwho] at hrole h
      exact attributed_of_start hstrip h rfl hrole
  | dispatch =>
      obtain ⟨actor, hwho, h⟩ := bind_ok.mp h
      obtain ⟨hrole, h⟩ := check_bind_ok.mp h
      rw [field_principal hb.actor hwho] at hrole h
      exact attributed_of_start hstrip h rfl hrole
  | createRollback =>
      obtain ⟨_, h⟩ := check_bind_ok.mp h
      obtain ⟨newPlanId, _, h⟩ := bind_ok.mp h
      obtain ⟨requester, hwho, h⟩ := bind_ok.mp h
      obtain ⟨hrole, h⟩ := check_bind_ok.mp h
      obtain ⟨ws, _, h⟩ := bind_ok.mp h
      obtain ⟨we, _, h⟩ := bind_ok.mp h
      rw [field_principal hb.requester hwho] at hrole h
      exact attributed_of_start hstrip h rfl hrole

theorem postDemoPlan_attributed {op : Operation} (hstrip : strip principal = principal) (hb : Bound principal body)
    (h : postDemoPlan d principal body = .ok op) : Attributed d.registry principal op := by
  unfold postDemoPlan at h
  obtain ⟨planId, _, h⟩ := bind_ok.mp h
  obtain ⟨requester, hwho, h⟩ := bind_ok.mp h
  obtain ⟨ws, _, h⟩ := bind_ok.mp h
  obtain ⟨we, _, h⟩ := bind_ok.mp h
  obtain ⟨demo, _, h⟩ := bind_ok.mp h
  obtain ⟨hrole, h⟩ := check_bind_ok.mp h
  rw [field_principal hb.requester hwho] at hrole h
  exact attributed_of_start hstrip h rfl hrole

theorem postRetryTask_attributed {planId : String} {op : Operation} (hstrip : strip principal = principal)
    (hb : Bound principal body) (h : postRetryTask d principal planId body = .ok op) :
    Attributed d.registry principal op := by
  unfold postRetryTask at h
  obtain ⟨who, hwho, h⟩ := bind_ok.mp h
  obtain ⟨taskId, _, h⟩ := bind_ok.mp h
  obtain ⟨hrole, h⟩ := check_bind_ok.mp h
  rw [field_principal hb.actor hwho] at hrole h
  exact attributed_of_start hstrip h rfl hrole

theorem postExecuteNext_attributed {planId : String} {op : Operation} (hstrip : strip principal = principal)
    (hb : Bound principal body) (h : postExecuteNext d principal planId body = .ok op) :
    Attributed d.registry principal op := by
  unfold postExecuteNext at h
  obtain ⟨who, hwho, h⟩ := bind_ok.mp h
  obtain ⟨hrole, h⟩ := check_bind_ok.mp h
  rw [field_principal hb.actor hwho] at hrole h
  exact attributed_of_start hstrip h rfl hrole

theorem postExecuteRemaining_attributed {planId : String} {op : Operation} (hstrip : strip principal = principal)
    (hb : Bound principal body) (h : postExecuteRemaining d principal planId body = .ok op) :
    Attributed d.registry principal op := by
  unfold postExecuteRemaining at h
  obtain ⟨who, hwho, h⟩ := bind_ok.mp h
  obtain ⟨hrole, h⟩ := check_bind_ok.mp h
  rw [field_principal hb.actor hwho] at hrole h
  exact attributed_of_start hstrip h rfl hrole

/-- Publishing passes no identity on, so only the role matters. -/
theorem postPublishAgentQueue_attributed {planId : String} {op : Operation} (hstrip : strip principal = principal)
    (h : postPublishAgentQueue d principal planId body = .ok op) : Attributed d.registry principal op := by
  unfold postPublishAgentQueue at h
  obtain ⟨hrole, h⟩ := check_bind_ok.mp h
  injection h with h
  subst h
  exact ⟨fun who hwho => absurd hwho List.not_mem_nil, (checkRole_ok hstrip hrole).2⟩

theorem postAgentClaim_attributed {op : Operation} (hstrip : strip principal = principal) (hb : Bound principal body)
    (h : postAgentClaim d principal body = .ok op) : Attributed d.registry principal op := by
  unfold postAgentClaim at h
  obtain ⟨hrole, h⟩ := check_bind_ok.mp h
  obtain ⟨hname, hholds⟩ := checkRole_ok hstrip hrole
  injection h with h
  subst h
  exact attributed_of_role (by rw [agentOf_eq hb hname]; rfl) hholds

theorem postAgentComplete_attributed {op : Operation} (hstrip : strip principal = principal)
    (hb : Bound principal body) (h : postAgentComplete d principal body = .ok op) :
    Attributed d.registry principal op := by
  unfold postAgentComplete at h
  obtain ⟨hrole, h⟩ := check_bind_ok.mp h
  obtain ⟨hname, hholds⟩ := checkRole_ok hstrip hrole
  injection h with h
  subst h
  exact attributed_of_role (by rw [agentOf_eq hb hname]; rfl) hholds

/-- A renewal stands for the `agent_id` of the body, so the body has to carry one. -/
theorem postAgentRenew_attributed {op : Operation} (hstrip : strip principal = principal)
    (hagent : text body "agent_id" ∉ [none, some ""]) (h : postAgentRenew d principal body = .ok op) :
    Attributed d.registry principal op := by
  unfold postAgentRenew at h
  obtain ⟨hrole, h⟩ := check_bind_ok.mp h
  obtain ⟨hname, hholds⟩ := checkRole_ok hstrip hrole
  have hsame : text body "agent_id" = some principal := by
    simp only [List.mem_cons, List.not_mem_nil, or_false, not_or] at hname hagent
    rcases hname with hnone | hempty | hsame
    · exact absurd hnone hagent.1
    · exact absurd hempty hagent.2
    · exact hsame
  injection h with h
  subst h
  exact attributed_of_role (by rw [hsame]; rfl) hholds

/-! ## The handlers of pipelines and recovery requests rely on the path -/

/-- A step of a pipeline asks for no more than to execute. -/
theorem postPipelineStep_attributed {path : String} {op : Operation} (hb : Bound principal body)
    (hrole : Holds d.registry principal .execute) (h : postPipelineStep d path body = .ok op) :
    Attributed d.registry principal op := by
  unfold postPipelineStep at h
  obtain ⟨_, h⟩ := check_bind_ok.mp h
  obtain ⟨_, h⟩ := check_bind_ok.mp h
  obtain ⟨_, h⟩ := startRun_ok.mp h
  injection h with h
  subst h
  refine ⟨?_, hrole⟩
  have hkeep : ∀ name, name ≠ "_hosts" → name ≠ "_record" →
      text (pop (pop body "_hosts") "_record") name = text body name := by
    intro name hhosts hrecord
    exact text_of_lookup ((lookup_pop_ne hrecord).trans (lookup_pop_ne hhosts))
  intro who hwho
  simp only [Operation.identities] at hwho
  rw [hkeep "actor" (by decide) (by decide), hkeep "requester" (by decide) (by decide), hb.actor, hb.requester] at hwho
  simpa using hwho

/-- The recovery tool is started for an identifier that stays in its directory. -/
theorem runTool_ok {requestId : String} {op op' : Operation} (h : runTool d requestId op = .ok op') :
    op' = op ∧ queueIdentifier requestId = true ∧ d.escapes requestId = false ∧ d.built requestId = true := by
  unfold runTool fixturePath at h
  obtain ⟨hpath, h⟩ := check_bind_ok.mp h
  obtain ⟨hid, hesc⟩ := ensure_bind_ok.mp hpath
  obtain ⟨hbuilt, h⟩ := ensure_bind_ok.mp h
  injection h with h
  exact ⟨h.symm, hid, ensure_ok.mp hesc, hbuilt⟩

/-- A bound field names the principal here, too. -/
theorem runField_principal {name s : String} (hb : text body name = some principal)
    (h : runField body name = .ok s) : s = principal :=
  Option.some.inj ((runField_ok.mp h).symm.trans hb)

/-- A recovery operation is the principal's when a role permits the action of its handler. -/
theorem postRecoveryAction_attributed {a : RecoveryAction} {requestId : String} {op : Operation}
    (hb : Bound principal body) (h : postRecoveryAction d a requestId body = .ok op)
    (hrole : Holds d.registry principal a.action) : Attributed d.registry principal op := by
  unfold postRecoveryAction at h
  cases a with
  | create =>
      obtain ⟨requestId, _, h⟩ := bind_ok.mp h
      obtain ⟨_, h⟩ := startRun_ok.mp h
      obtain ⟨_, h⟩ := check_bind_ok.mp h
      obtain ⟨requester, hwho, h⟩ := bind_ok.mp h
      unfold createRecoveryDemo at h
      obtain ⟨_, h⟩ := check_bind_ok.mp h
      obtain ⟨_, h⟩ := check_bind_ok.mp h
      obtain ⟨_, h⟩ := check_bind_ok.mp h
      obtain ⟨_, h⟩ := check_bind_ok.mp h
      injection h with h
      subst h
      exact attributed_of_role (by rw [runField_principal hb.requester hwho]; rfl) hrole
  | analyze =>
      -- the only action that passes on no identity
      obtain ⟨_, h⟩ := startRun_ok.mp h
      obtain ⟨rfl, _⟩ := runTool_ok h
      exact ⟨fun who hwho => absurd hwho List.not_mem_nil, hrole⟩
  | approve =>
      obtain ⟨_, h⟩ := startRun_ok.mp h
      obtain ⟨actor, hwho, h⟩ := bind_ok.mp h
      obtain ⟨ticket, _, h⟩ := bind_ok.mp h
      obtain ⟨rfl, _⟩ := runTool_ok h
      exact attributed_of_role (by rw [runField_principal hb.actor hwho]; rfl) hrole
  | authorize =>
      obtain ⟨_, h⟩ := startRun_ok.mp h
      obtain ⟨actor, hwho, h⟩ := bind_ok.mp h
      obtain ⟨rfl, _⟩ := runTool_ok h
      exact attributed_of_role (by rw [runField_principal hb.actor hwho]; rfl) hrole
  | execute =>
      obtain ⟨_, h⟩ := startRun_ok.mp h
      obtain ⟨actor, hwho, h⟩ := bind_ok.mp h
      obtain ⟨rfl, _⟩ := runTool_ok h
      exact attributed_of_role (by rw [runField_principal hb.actor hwho]; rfl) hrole
  | reconcile =>
      obtain ⟨_, h⟩ := startRun_ok.mp h
      obtain ⟨actor, hwho, h⟩ := bind_ok.mp h
      obtain ⟨rfl, _⟩ := runTool_ok h
      exact attributed_of_role (by rw [runField_principal hb.actor hwho]; rfl) hrole

end

/-! ## Words between the slashes of a path

Paths are compared by their beginning, their end and words in them, and one path can answer to several of these
tests. This is where the role that is checked and the action that is taken part. -/

section
variable {path : String}

theorem not_startsWith {pre other : String} (h : startsWith path pre = true)
    (hne : ¬ pre.toList <+: other.toList ∧ ¬ other.toList <+: pre.toList) : startsWith path other = false := by
  apply Bool.eq_false_iff.mpr
  intro hother
  rcases startsWith_comparable h hother with hpre | hpre
  · exact hne.1 hpre
  · exact hne.2 hpre

theorem not_endsWith {suf other : String} (h : endsWith path suf = true)
    (hne : ¬ suf.toList <:+ other.toList ∧ ¬ other.toList <:+ suf.toList) : endsWith path other = false := by
  apply Bool.eq_false_iff.mpr
  intro hother
  rcases endsWith_comparable h hother with hsuf | hsuf
  · exact hne.1 hsuf
  · exact hne.2 hsuf

theorem pathAction_runs (h : startsWith path "/api/runs/" = true) : pathAction path = .execute := by
  have hagent : startsWith path "/api/agent/" = false := not_startsWith h (by decide)
  simp [pathAction, h, hagent]

theorem pathAction_pipeline (h : startsWith path "/api/hosts/" = true) (hword : contains path "/pipeline/" = true) :
    pathAction path = .execute := by
  have hagent : startsWith path "/api/agent/" = false := not_startsWith h (by decide)
  simp [pathAction, hword, hagent]

/-- The three paths that are compared whole do not end like a handler of a request. -/
theorem not_create {suf : String} (hsuf : endsWith path suf = true)
    (hne : ∀ p ∈ ["/api/plans", "/api/plans/testmode-demo", "/api/recovery/testmode-demo"], ¬ suf.toList <:+ p.toList) :
    ["/api/plans", "/api/plans/testmode-demo", "/api/recovery/testmode-demo"].contains path = false := by
  apply Bool.eq_false_iff.mpr
  intro hmem
  exact hne path (List.contains_iff_mem.mp hmem) (endsWith_iff.mp hsuf)

/-- The end of the path of each recovery handler. -/
def RecoveryAction.suffix : RecoveryAction → String
  | .create => "/testmode-demo"
  | .analyze => "/analyze"
  | .approve => "/approve"
  | .authorize => "/authorize"
  | .execute => "/execute"
  | .reconcile => "/reconcile"

/-- **A recovery path is classified by its end**, unless `/pipeline/` occurs in it. -/
theorem pathAction_recovery {a : RecoveryAction} (hcreate : a ≠ .create) (hpre : startsWith path "/api/recovery/" = true)
    (hsuf : endsWith path a.suffix = true) :
    pathAction path = if contains path "/pipeline/" then .execute else a.action := by
  have hagent : startsWith path "/api/agent/" = false := not_startsWith hpre (by decide)
  have hruns : startsWith path "/api/runs/" = false := not_startsWith hpre (by decide)
  have hnot : ∀ other : String, ¬ a.suffix.toList <:+ other.toList ∧ ¬ other.toList <:+ a.suffix.toList →
      endsWith path other = false := fun other hne => not_endsWith hsuf hne
  unfold pathAction
  rw [hagent, hruns, Bool.or_false]
  by_cases hword : contains path "/pipeline/" = true
  · simp [hword]
  · cases a with
    | create => exact absurd rfl hcreate
    | analyze =>
        rw [not_create hsuf (by decide), hnot "/create-rollback" (by decide), hnot "/approve" (by decide),
          hnot "/authorize" (by decide), hnot "/dispatch" (by decide), hnot "/publish-agent-queue" (by decide),
          show endsWith path "/analyze" = true from hsuf]
        simp [hword, RecoveryAction.action]
    | approve =>
        rw [not_create hsuf (by decide), hnot "/create-rollback" (by decide),
          show endsWith path "/approve" = true from hsuf]
        simp [hword, RecoveryAction.action]
    | authorize =>
        rw [not_create hsuf (by decide), hnot "/create-rollback" (by decide), hnot "/approve" (by decide),
          show endsWith path "/authorize" = true from hsuf]
        simp [hword, RecoveryAction.action]
    | execute =>
        rw [not_create hsuf (by decide), hnot "/create-rollback" (by decide), hnot "/approve" (by decide),
          hnot "/authorize" (by decide), hnot "/dispatch" (by decide), hnot "/publish-agent-queue" (by decide),
          hnot "/analyze" (by decide)]
        simp [RecoveryAction.action]
    | reconcile =>
        rw [not_create hsuf (by decide), hnot "/create-rollback" (by decide), hnot "/approve" (by decide),
          hnot "/authorize" (by decide), hnot "/dispatch" (by decide), hnot "/publish-agent-queue" (by decide),
          hnot "/analyze" (by decide)]
        simp [RecoveryAction.action]

/-- An identifier has no slash. -/
theorem queueIdentifier_slash {value : String} (h : queueIdentifier value = true) : '/' ∉ value.toList := by
  unfold queueIdentifier at h
  intro hslash
  cases hcs : value.toList with
  | nil => rw [hcs] at hslash; exact List.not_mem_nil hslash
  | cons c cs =>
      rw [hcs] at h hslash
      simp only [Bool.and_eq_true, List.all_eq_true, decide_eq_true_eq] at h
      obtain ⟨⟨halnum, hall⟩, _⟩ := h
      rcases List.mem_cons.mp hslash with rfl | hmem
      · exact absurd halnum (by decide)
      · exact absurd (hall '/' hmem) (by decide)

/-- **`/pipeline/` occurs in the path of a recovery request only when the request is called `pipeline`.** -/
theorem requestId_pipeline (hpre : startsWith path "/api/recovery/" = true) (hsuf : endsWith path "/approve" = true)
    (hid : queueIdentifier (between path "/api/recovery/" "/approve") = true)
    (hword : contains path "/pipeline/" = true) : path = "/api/recovery/pipeline/approve" := by
  have hslash := queueIdentifier_slash hid
  have hne : between path "/api/recovery/" "/approve" ≠ "" := by
    intro hnil
    rw [hnil] at hid
    exact absurd hid (by decide)
  have hpath := between_eq hpre hsuf hne
  generalize hrid : between path "/api/recovery/" "/approve" = rid at hslash hpath
  have hsegments : path.toList = '/' :: ("api".toList ++ '/' :: ("recovery".toList ++ '/' :: (rid.toList ++ '/' ::
      "approve".toList))) := by
    rw [hpath]
    simp
  have hinfix := contains_iff.mp hword
  rw [hsegments, show "/pipeline/".toList = '/' :: "pipeline".toList ++ ['/'] by decide,
    infix_segments (by decide) (by decide), infix_segments (by decide) (by decide),
    infix_segments (by decide) hslash] at hinfix
  have hrid' : "pipeline".toList = rid.toList := by
    rcases hinfix with h | h | h | h
    · exact absurd h (by decide)
    · exact absurd h (by decide)
    · exact h
    · exact absurd h (infix_last (by decide))
  apply String.toList_inj.mp
  rw [hsegments, ← hrid']
  decide

end

/-! ## The whole request

The handlers are put together under the checks of `do_POST`. What is left over are the paths whose role is not that
of the action. -/

/-- What an approval of the recovery request `pipeline` needs besides a role: no run under its key, a ticket, and a
    fixture in its place. -/
def ApprovalRuns (d : Deployment) (body : Body) : Prop :=
  d.busy "recovery:pipeline:approve" = false ∧ text body "approval_ticket" ≠ none ∧ d.escapes "pipeline" = false ∧
    d.built "pipeline" = true

/-- A test of the chain that answers: it matched, or a later one did. -/
theorem ite_ok {α : Type} {c : Prop} [Decidable c] {x y : Ctl α} {a : α} (h : (if c then x else y) = .ok a) :
    (c ∧ x = .ok a) ∨ y = .ok a := by
  by_cases hc : c
  · rw [if_pos hc] at h
    exact .inl ⟨hc, h⟩
  · rw [if_neg hc] at h
    exact .inr h

section
variable {d : Deployment} {principal path : String} {body : Body} {op : Operation}

/-- A recovery request other than an approval under `/pipeline/`: the role of the path permits the action. -/
theorem recovery_attributed {a : RecoveryAction} {requestId : String} (hb : Bound principal body)
    (hrole : Holds d.registry principal (pathAction path)) (hcreate : a ≠ .create)
    (hsub : actionRoles .execute ⊆ actionRoles a.action) (hpre : startsWith path "/api/recovery/" = true)
    (hsuf : endsWith path a.suffix = true) (h : postRecoveryAction d a requestId body = .ok op) :
    Attributed d.registry principal op := by
  apply postRecoveryAction_attributed hb h
  rw [pathAction_recovery hcreate hpre hsuf] at hrole
  by_cases hword : contains path "/pipeline/" = true
  · rw [if_pos hword] at hrole
    exact hrole.mono hsub
  · rw [if_neg hword] at hrole
    exact hrole

/-- The approval of a recovery request: the word `/pipeline/` in its path is its name. -/
theorem approval_attributed (hb : Bound principal body) (hrole : Holds d.registry principal (pathAction path))
    (happrove : path = "/api/recovery/pipeline/approve" → ApprovalRuns d body →
      Holds d.registry principal .approve)
    (hpre : startsWith path "/api/recovery/" = true) (hsuf : endsWith path "/approve" = true)
    (h : postRecoveryAction d .approve (between path "/api/recovery/" "/approve") body = .ok op) :
    Attributed d.registry principal op := by
  apply postRecoveryAction_attributed hb h
  show Holds d.registry principal .approve
  rw [pathAction_recovery (a := .approve) (fun h => nomatch h) hpre hsuf] at hrole
  by_cases hword : contains path "/pipeline/" = true
  · unfold postRecoveryAction at h
    obtain ⟨hbusy, h⟩ := startRun_ok.mp h
    obtain ⟨actor, _, h⟩ := bind_ok.mp h
    obtain ⟨ticket, hticket, h⟩ := bind_ok.mp h
    obtain ⟨_, hid, hescapes, hbuilt⟩ := runTool_ok h
    have hpath := requestId_pipeline hpre hsuf hid hword
    have hrid : between path "/api/recovery/" "/approve" = "pipeline" := by
      rw [hpath]
      decide
    rw [hrid] at hbusy hescapes hbuilt
    apply happrove hpath
    refine ⟨hbusy, ?_, hescapes, hbuilt⟩
    rw [runField_ok.mp hticket]
    exact Option.some_ne_none ticket
  · rw [if_neg hword] at hrole
    exact hrole

/-- **One request**: what `handle` performs is the principal's, but for a renewal without an agent and an approval of
    the recovery request `pipeline`. -/
theorem handle_attributed (hstrip : strip principal = principal) (hb : Bound principal body)
    (hrole : Holds d.registry principal (pathAction path))
    (hrenew : path = "/api/agent/renew" → text body "agent_id" ∉ [none, some ""])
    (happrove : path = "/api/recovery/pipeline/approve" → ApprovalRuns d body →
      Holds d.registry principal .approve)
    (h : handle d principal path body = .ok op) : Attributed d.registry principal op := by
  unfold handle at h
  dsimp only at h
  rcases ite_ok h with ⟨hpath, h⟩ | h
  · -- reconcile a run
    rw [Bool.and_eq_true] at hpath
    injection h with h
    subst h
    rw [pathAction_runs hpath.1] at hrole
    exact attributed_of_role rfl hrole
  -- from here in the order of `do_POST`: the renewal, whose body need not name an agent
  rcases ite_ok h with ⟨hpath, h⟩ | h
  · exact postAgentRenew_attributed hstrip (hrenew hpath) h
  rcases ite_ok h with ⟨hpath, h⟩ | h
  · -- reconcile a job of the queue
    have haction : pathAction "/api/agent/reconcile" = .agent := by decide
    injection h with h
    subst h
    rw [hpath, haction] at hrole
    exact attributed_of_role rfl hrole
  -- a pipeline step, which takes its action from the path
  rcases ite_ok h with ⟨hpath, h⟩ | h
  · rename_i hpath
    rw [Bool.and_eq_true] at hpath
    rw [pathAction_pipeline hpath.1 hpath.2] at hrole
    exact postPipelineStep_attributed hb hrole h
  -- the plans and the queue: each handler checks the actor that its body carries
  rcases ite_ok h with ⟨hpath, h⟩ | h
  · exact postPlanAction_attributed hstrip hb h
  rcases ite_ok h with ⟨hpath, h⟩ | h
  · exact postDemoPlan_attributed hstrip hb h
  rcases ite_ok h with ⟨hpath, h⟩ | h
  · exact postRetryTask_attributed hstrip hb h
  rcases ite_ok h with ⟨hpath, h⟩ | h
  · exact postExecuteNext_attributed hstrip hb h
  rcases ite_ok h with ⟨hpath, h⟩ | h
  · exact postExecuteRemaining_attributed hstrip hb h
  rcases ite_ok h with ⟨hpath, h⟩ | h
  · exact postPublishAgentQueue_attributed hstrip h
  rcases ite_ok h with ⟨hpath, h⟩ | h
  · exact postAgentClaim_attributed hstrip hb h
  rcases ite_ok h with ⟨hpath, h⟩ | h
  · exact postAgentComplete_attributed hstrip hb h
  rcases ite_ok h with ⟨hpath, h⟩ | h
  · exact postPlanAction_attributed hstrip hb h
  rcases ite_ok h with ⟨hpath, h⟩ | h
  · exact postPlanAction_attributed hstrip hb h
  rcases ite_ok h with ⟨hpath, h⟩ | h
  · exact postPlanAction_attributed hstrip hb h
  rcases ite_ok h with ⟨hpath, h⟩ | h
  · exact postPlanAction_attributed hstrip hb h
  rcases ite_ok h with ⟨hpath, h⟩ | h
  · -- the demonstration of a recovery request
    have haction : pathAction "/api/recovery/testmode-demo" = .create := by decide +kernel
    rw [hpath, haction] at hrole
    exact postRecoveryAction_attributed hb h hrole
  -- the recovery actions, where only an approval of the request `pipeline` passes under another role
  rcases ite_ok h with ⟨hpath, h⟩ | h
  · rename_i hpath
    rw [Bool.and_eq_true] at hpath
    exact recovery_attributed (a := .analyze) hb hrole (fun h => nomatch h) (by decide) hpath.1 hpath.2 h
  rcases ite_ok h with ⟨hpath, h⟩ | h
  · rename_i hpath
    rw [Bool.and_eq_true] at hpath
    exact approval_attributed hb hrole happrove hpath.1 hpath.2 h
  rcases ite_ok h with ⟨hpath, h⟩ | h
  · rename_i hpath
    rw [Bool.and_eq_true] at hpath
    exact recovery_attributed (a := .authorize) hb hrole (fun h => nomatch h) (by decide) hpath.1 hpath.2 h
  rcases ite_ok h with ⟨hpath, h⟩ | h
  · rename_i hpath
    rw [Bool.and_eq_true] at hpath
    exact recovery_attributed (a := .execute) hb hrole (fun h => nomatch h) (by decide) hpath.1 hpath.2 h
  rcases ite_ok h with ⟨hpath, h⟩ | h
  · rename_i hpath
    rw [Bool.and_eq_true] at hpath
    exact recovery_attributed (a := .reconcile) hb hrole (fun h => nomatch h) (by decide) hpath.1 hpath.2 h
  · exact absurd h refuse_ne_ok

/-- A renewal that carries no agent is passed on with the empty name. -/
theorem handle_renew_unnamed (hcheck : checkRole d principal (some principal) .agent = .ok ())
    (hagent : text body "agent_id" ∈ [none, some ""]) :
    ∃ op, handle d principal "/api/agent/renew" body = .ok op ∧ op.identities = [""] := by
  have hunnamed : checkRole d principal (text body "agent_id") .agent = .ok () := by
    apply checkRole_unnamed _ hcheck
    simp only [List.mem_cons, List.not_mem_nil, or_false] at hagent ⊢
    rcases hagent with hnone | hempty
    · exact .inl hnone
    · exact .inr (.inl hempty)
  have hname : (text body "agent_id").getD "" = "" := by
    simp only [List.mem_cons, List.not_mem_nil, or_false] at hagent
    rcases hagent with h | h <;> rw [h] <;> rfl
  refine ⟨.queueExtendLease (body.lookup "job_id") "" (integer body "seconds" 120) (text body "agent_token")
    (text body "claim_token"), ?_, rfl⟩
  have hhandle : handle d principal "/api/agent/renew" body = postAgentRenew d principal body := by
    unfold handle
    rw [if_neg (by decide +kernel), if_pos rfl]
  rw [hhandle, postAgentRenew, hunnamed, hname]
  rfl

/-- The approval of the recovery request `pipeline` is performed whenever it can run. -/
theorem handle_approve_pipeline (hb : Bound principal body) (hruns : ApprovalRuns d body) :
    ∃ op, handle d principal "/api/recovery/pipeline/approve" body = .ok op ∧ op.action = .approve := by
  obtain ⟨hbusy, hticket, hescapes, hbuilt⟩ := hruns
  obtain ⟨ticket, hticket⟩ := Option.ne_none_iff_exists'.mp hticket
  refine ⟨.recoveryApprove "pipeline" principal ticket, ?_, rfl⟩
  have hhandle : handle d principal "/api/recovery/pipeline/approve" body =
      postRecoveryAction d .approve "pipeline" body := by
    have hid : between "/api/recovery/pipeline/approve" "/api/recovery/" "/approve" = "pipeline" := by decide +kernel
    unfold handle
    -- the eighteen tests before it fail on this path
    iterate 18 rw [if_neg (by decide +kernel)]
    rw [if_pos (by decide +kernel)]
    show postRecoveryAction d .approve (between "/api/recovery/pipeline/approve" "/api/recovery/" "/approve") body = _
    rw [hid]
  have hactor : runField body "actor" = .ok principal := runField_ok.mpr hb.actor
  have hticket' : runField body "approval_ticket" = .ok ticket := runField_ok.mpr hticket
  rw [hhandle, postRecoveryAction, startRun_ok]
  refine ⟨hbusy, ?_⟩
  rw [hactor, hticket']
  show runTool d "pipeline" _ = _
  unfold runTool fixturePath
  simp only [check_bind_ok, ensure_ok]
  exact ⟨⟨by decide, hescapes⟩, hbuilt, trivial⟩

/-- **A request acts as its principal, exactly when** it is no renewal without an agent, and no approval of the recovery
    request `pipeline` by a principal who may not approve.

    Whatever else the body says: every identity that reaches a control module is the authenticated principal, and the
    principal holds a role for what is done there. -/
theorem actor_attribution (d : Deployment) (r : Request) (principal : String) (body : Body)
    (haccept : accept d r = .ok (principal, body)) :
    (∀ op, doPost d r = .ok op → Attributed d.registry principal op) ↔
      (r.path = "/api/agent/renew" → text body "agent_id" ∉ [none, some ""]) ∧
      (r.path = "/api/recovery/pipeline/approve" → ApprovalRuns d body → Holds d.registry principal .approve) := by
  have hb := bound_of_accept haccept
  -- what `accept` has established before any handler runs
  obtain ⟨hactor, hcheck⟩ : (strip principal = principal ∧ principal ≠ "") ∧
      checkRole d principal (some principal) (pathAction r.path) = .ok () := by
    unfold accept at haccept
    obtain ⟨p, hp, h⟩ := bind_ok.mp haccept
    obtain ⟨hcheck, h⟩ := check_bind_ok.mp h
    obtain ⟨b, _, h⟩ := bind_ok.mp h
    obtain ⟨b', _, h⟩ := bind_ok.mp h
    injection h with h
    injection h with hp' _
    subst hp'
    unfold requirePrincipal at hp
    obtain ⟨p, hauth, hp⟩ := bind_ok.mp hp
    obtain ⟨_, hp⟩ := check_bind_ok.mp hp
    injection hp with hp
    exact ⟨hp ▸ requireApiAuth_actor hauth, hcheck⟩
  obtain ⟨hstrip, hne⟩ := hactor
  have hrole := (checkRole_ok hstrip hcheck).2
  have hpost : startsWith r.path "/api/" = true → doPost d r = handle d principal r.path body := by
    intro hapi
    unfold doPost
    rw [if_pos hapi, haccept]
    rfl
  constructor
  · intro hall
    refine ⟨?_, ?_⟩
    -- a renewal without an agent does pass, and acts under the empty name
    · intro hpath hagent
      rw [hpath] at hcheck hpost
      have haction : pathAction "/api/agent/renew" = .agent := by decide
      rw [haction] at hcheck
      obtain ⟨op, hop, hids⟩ := handle_renew_unnamed hcheck hagent
      have hattr := hall op ((hpost (by decide)).trans hop)
      exact hne (hattr.1 "" (by rw [hids]; exact List.mem_singleton.mpr rfl)).symm
    -- an approval of `pipeline` does pass, so its principal must be an approver
    · intro hpath hruns
      rw [hpath] at hpost
      obtain ⟨op, hop, haction⟩ := @handle_approve_pipeline d principal body hb hruns
      have hattr := hall op ((hpost (by decide)).trans hop)
      exact haction ▸ hattr.2
  · rintro ⟨hrenew, happrove⟩ op hop
    by_cases hapi : startsWith r.path "/api/" = true
    · rw [hpost hapi] at hop
      exact handle_attributed hstrip hb hrole hrenew happrove hop
    -- outside the API every path is refused
    · unfold doPost at hop
      rw [if_neg hapi] at hop
      obtain ⟨_, _, hop⟩ := bind_ok.mp hop
      exact absurd hop refuse_ne_ok

end

/-! ## A registry with an approver and an operator -/

/-- Bob approves and Carol operates; the fixture of every recovery request is in place. -/
def office : Deployment where
  registry := .document (.dict [("principals", .list [
    .dict [("actor", .str "bob"), ("roles", .list [.str "approver"]),
      ("token_sha256", .str "efbe0b2391685e0650995ea6164f06d9bb80b02a13c920a44fafc1218e01a689")],
    .dict [("actor", .str "carol"), ("roles", .list [.str "operator"]),
      ("token_sha256", .str "9251e1052a06c43b48d8e4ce2d28258e57235613fcd06e09e0993d0e3d39adf9")]])])
  sha256 := fun token =>
    if token = "bob-credential" then "efbe0b2391685e0650995ea6164f06d9bb80b02a13c920a44fafc1218e01a689"
    else if token = "carol-credential" then "9251e1052a06c43b48d8e4ce2d28258e57235613fcd06e09e0993d0e3d39adf9"
    else ""
  int := fun _ => none
  configured := fun _ => false
  validateTicket := fun _ => .ok ()
  busy := fun _ => false
  escapes := fun _ => false
  built := fun _ => true
  buildable := fun _ => true
  validHostId := fun _ => true

/-- Approve a recovery request with somebody's credential. -/
def approveRecovery (credential requestId : String) : Request where
  path := "/api/recovery/" ++ requestId ++ "/approve"
  authorization := some ("Bearer " ++ credential)
  assertedActor := none
  body := some (.dict [("approval_ticket", .str "CHG-1")])

/-- The principal of an accepted request. -/
def principalOf (x : Ctl (String × Body)) : Option String := x.toOption.map Prod.fst

/-- The principal of an accepted request. -/
theorem exists_of_principalOf {x : Ctl (String × Body)} {principal : String} (h : principalOf x = some principal) :
    ∃ body, x = .ok (principal, body) := by
  cases x with
  | error e => exact nomatch h
  | ok pair =>
      obtain ⟨p, body⟩ := pair
      refine ⟨body, ?_⟩
      rw [← Option.some.inj h]

theorem actor_attribution_approver : ∃ body, accept office (approveRecovery "bob-credential" "req-7") = .ok ("bob", body) ∧
    ∀ op, doPost office (approveRecovery "bob-credential" "req-7") = .ok op → Attributed office.registry "bob" op := by
  have hprincipal : principalOf (accept office (approveRecovery "bob-credential" "req-7")) = some "bob" := by
    decide +kernel
  obtain ⟨body, hbody⟩ := exists_of_principalOf hprincipal
  refine ⟨body, hbody, (actor_attribution _ _ _ _ hbody).mpr ⟨?_, ?_⟩⟩
  · intro hpath
    exact absurd hpath (by decide)
  · intro hpath
    exact absurd hpath (by decide)

/-- **An operator approves**: the request is called `pipeline`, so its path asks for the role of an execution. -/
theorem operator_approves_recovery : ¬ ∀ (d : Deployment) (r : Request) (principal : String) (body : Body),
    accept d r = .ok (principal, body) → ∀ op, doPost d r = .ok op → Attributed d.registry principal op := by
  intro hall
  have hprincipal : principalOf (accept office (approveRecovery "carol-credential" "pipeline")) = some "carol" := by
    decide +kernel
  have hop : (doPost office (approveRecovery "carol-credential" "pipeline")).toOption.map Operation.action =
      some .approve := by
    decide +kernel
  have hholds : ¬ Holds office.registry "carol" .approve := by decide +kernel
  obtain ⟨body, hbody⟩ := exists_of_principalOf hprincipal
  cases hpost : doPost office (approveRecovery "carol-credential" "pipeline") with
  | error e =>
      rw [hpost] at hop
      exact nomatch hop
  | ok op =>
      rw [hpost] at hop
      have haction : op.action = .approve := Option.some.inj hop
      have hattr := hall office _ "carol" body hbody op hpost
      exact hholds (haction ▸ hattr.2)

end OraclePatching.Web
