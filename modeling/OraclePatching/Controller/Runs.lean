import OraclePatching.Controller.Rollback

/-!
# `Controller.Runs` — invocations of the controller and what a sequence of them leaves behind

An invocation is a command on a plan, the world it finds, and the point at which it is killed, if it is. `after` is
the store it leaves: unchanged when the command is refused, else the writes it got to. `History` adds the record of
granted claims and sealed results, which the store itself keeps only in part.
-/

namespace OraclePatching

/-- The commands that write. -/
inductive Command where
  | create (requester windowStart windowEnd : String)
  | createRollback (requester sourceId windowStart windowEnd : String)
  | approve (actor ticket : String)
  | authorize (actor : String)
  | dispatch (actor : String)
  | claim (taskId actor lease : String)
  | renew (taskId actor lease : String)
  | complete (taskId actor status evidenceFile evidenceSha256 : String)
  | reconcile (actor : String)
  | retryTask (taskId actor : String)

/-- One process: `killedAfter k` has carried out `k` durable writes. -/
structure Invocation where
  id : String
  command : Command
  world : World
  killedAfter : Option Nat

variable (cfg : Config)

/-- What the command goes on to write. -/
def script (s : Store) (i : Invocation) : Ctl Script :=
  match i.command with
  | .create requester windowStart windowEnd => create cfg i.world s i.id requester windowStart windowEnd
  | .createRollback requester sourceId windowStart windowEnd =>
      createRollback cfg i.world s i.id requester sourceId windowStart windowEnd
  | .approve actor ticket => approve cfg i.world s i.id actor ticket
  | .authorize actor => authorize cfg i.world s i.id actor
  | .dispatch actor => dispatch cfg i.world s i.id actor
  | .claim taskId actor lease => claim cfg i.world s i.id taskId actor lease
  | .renew taskId actor lease => renew cfg i.world s i.id taskId actor lease
  | .complete taskId actor status evidenceFile evidenceSha256 =>
      complete cfg i.world s i.id taskId actor status evidenceFile evidenceSha256
  | .reconcile actor => reconcile cfg i.world s i.id actor
  | .retryTask taskId actor => retryTask cfg i.world s i.id taskId actor

/-- The writes the process gets to. -/
def Invocation.reached (i : Invocation) (ws : List Write) : List Write :=
  match i.killedAfter with
  | none => ws
  | some k => ws.take k

/-- The store an invocation leaves. -/
def after (s : Store) (i : Invocation) : Store :=
  match script cfg s i with
  | .error _ => s
  | .ok sc => (Trace.perform (exec cfg i.id) s (i.reached sc.writes)).1

/-- The store before anything was created. -/
def Store.empty : Store := ⟨fun _ => none, ∅⟩

/-- The store is reached from the empty one by allowed invocations. -/
def Reached (allowed : Store → Invocation → Prop) : List Invocation → Store → Prop :=
  Trace.Run (fun s i => some (after cfg s i)) (· = Store.empty) allowed

/-- Runs in which no process is killed. -/
def whole (_ : Store) (i : Invocation) : Prop := i.killedAfter = none

/-! ## The record of claims and results -/

/-- A granted claim or a sealed result, of one attempt of one task. -/
inductive Deed where
  | claimed (planId taskId : String) (generation : Nat) (actor : String)
  | recorded (planId taskId : String) (generation : Nat)
  deriving DecidableEq

/-- The generation of a task. -/
def Store.generation (s : Store) (id taskId : String) : Nat :=
  (((s.plans.lookup id).bind fun d => d.task? taskId).map (·.retryCount)).getD 0

/-- The deed of an accepted command that is not killed. -/
def deeds (s : Store) (i : Invocation) : List Deed :=
  match i.command, script cfg s i with
  | .claim taskId actor _, .ok _ => [.claimed i.id taskId (s.generation i.id taskId) actor]
  | .complete taskId .., .ok _ => [.recorded i.id taskId (s.generation i.id taskId)]
  | .reconcile _, .ok sc =>
      -- the second write seals the result `unknown` of a task that its worker left behind
      match sc.writes with
      | _ :: .task t :: _ => [.recorded i.id t.taskId t.retryCount]
      | _ => []
  | _, _ => []

structure History where
  store : Store
  deeds : List Deed

def History.after (h : History) (i : Invocation) : History :=
  ⟨OraclePatching.after cfg h.store i, h.deeds ++ OraclePatching.deeds cfg h.store i⟩

/-- The history is reached from nothing by whole invocations. -/
def Recorded : List Invocation → History → Prop :=
  Trace.Run (fun h i => some (h.after cfg i)) (· = ⟨Store.empty, []⟩) fun _ i => i.killedAfter = none

/-- The store of a history is reached by the same invocations. -/
theorem recorded_reached {cfg : Config} {as : List Invocation} {h : History} (hr : Recorded cfg as h) :
    Reached cfg whole as h.store := by
  unfold Recorded at hr
  induction hr with
  | nil hs => rw [hs]; exact .nil rfl
  | snoc _ ha hs ih =>
      injection hs with hs
      exact hs ▸ .snoc ih ha rfl

end OraclePatching
