import OraclePatching.Lib.Observed
import OraclePatching.Recovery.Runs
import OraclePatching.Recovery.Services

/-!
# `Recovery.Sites` — invocations that are answered, and the history they leave

`Recovery.Runs` takes the outcome of every tool as given. Here an invocation is told what the tools print, and its
world is computed from that. Each step is followed by what it makes the command see (`finds`), and a process may be
killed between any two events. A site is the state directory with the files of expected services, and the history of
all events on all requests. Without its evidence and its history a site is a store reached by invocations
(`observed_reached`).
-/

namespace OraclePatching.Recovery

/-! ## Findings -/

/-- What a command is told or keeps as evidence. -/
inductive Finding where
  /-- `lsnrctl services` before the stop -/
  | preStop (report : Option Text)
  /-- `listener-expected-services.txt` is written -/
  | expected (services : List Text)
  /-- the probe after a failure -/
  | health (output : Option Text)
  /-- `lsnrctl services` after a failure -/
  | services (report : Option Text)

abbrev Event := Trace.Event Write Finding

/-- The inventory of the listener; its names are kept whether or not there are any. -/
def Answers.inventory (a : Answers) : List Finding :=
  .preStop a.preStop :: match a.preStop with
    | none => []
    | some report => [.expected (expectedServices report)]

/-- A listener of the target home is running when the checks come to it. -/
def Answers.takesInventory (a : Answers) (r : Record) : Bool :=
  match a.checks r with
  | .ok pre => pre.listener.isSome
  | .error _ => false

/-- What the command sees after a step. The probe follows the attempt to open the database, or to start it; the
    listener is asked for its services once the database has registered. -/
def Answers.finds (a : Answers) (target : Target) (expected : List Text) (inventory : Bool) : Write → List Finding
  | .act .preflight => if inventory then a.inventory else []
  | .act .failureOpen => if a.opens then [.health a.health] else []
  | .act .failureStartup => [.health a.health]
  | .act .failureRegister =>
      if a.registers then (verifyListenerServices target.oracleSid expected a.reports).1.map .services else []
  | _ => []

/-! ## Sites -/

structure Site where
  store : Store
  expected : String → List Text
  history : List (String × Event)

def Site.empty : Site := ⟨Store.empty, fun _ => [], []⟩

/-- One event of an invocation on the request `id`. -/
def Site.exec (id : String) (site : Site) (e : Event) : Option Site :=
  match e with
  | .step w => (Recovery.exec site.store w).map fun s => ⟨s, site.expected, site.history ++ [(id, e)]⟩
  | .answer (.expected services) =>
      some ⟨site.store, setName site.expected id services, site.history ++ [(id, e)]⟩
  | .answer _ => some ⟨site.store, site.expected, site.history ++ [(id, e)]⟩

/-! ## Calls -/

/-- One process: `killedAfter k` has seen `k` events. -/
structure Call where
  id : String
  command : Command
  answers : Answers
  killedAfter : Option Nat

/-- The record the call works on. -/
def Site.record? (site : Site) (id : String) : Option Record :=
  match site.store.requests id with
  | some (.document r _) => some r
  | _ => none

def Site.target (site : Site) (id : String) : Target :=
  match site.record? id with
  | some r => r.target
  | none => ⟨"", "", "", ""⟩

/-- The file of expected services as the call finds it after a failure: `execute` has written it, `reconcile` reads
    what an earlier execution left. -/
def Call.expected (c : Call) (site : Site) : List Text :=
  match c.command with
  | .execute _ =>
      match c.answers.preStop with
      | some report => expectedServices report
      | none => []
  | _ => site.expected c.id

def Call.world (c : Call) (site : Site) : World := c.answers.world (site.target c.id) (c.expected site)

def Call.finds (c : Call) (site : Site) : Write → List Finding :=
  c.answers.finds (site.target c.id) (c.expected site) ((site.record? c.id).any c.answers.takesInventory)

def Call.invocation (c : Call) (site : Site) (killedAfter : Option Nat) : Invocation :=
  ⟨c.id, c.command, c.world site, killedAfter⟩

variable (tools : Tools)

/-- The events of an accepted command. -/
def Call.events (c : Call) (site : Site) : Ctl (List Event) := do
  let ws ← script tools site.store (c.invocation site none)
  .ok (Trace.observed (c.finds site) ws)

def Call.cut (c : Call) (es : List Event) : List Event :=
  match c.killedAfter with
  | none => es
  | some k => es.take k

/-- The site a call leaves. -/
def Site.after (site : Site) (c : Call) : Site :=
  match c.events tools site with
  | .error _ => site
  | .ok es => (Trace.perform (Site.exec c.id) site (c.cut es)).1

/-- The site is reached from the empty one by calls. -/
def Observed : List Call → Site → Prop :=
  Trace.Run (fun site c => some (site.after tools c)) (· = Site.empty) (fun _ _ => True)

/-! ## The store of a site -/

variable {tools} {site : Site} {c : Call}

/-- The answers change nothing in the store. -/
theorem exec_store {id : String} {e : Event} {site' : Site} (h : Site.exec id site e = some site') :
    match e with
    | .step w => exec site.store w = some site'.store
    | .answer _ => site'.store = site.store := by
  cases e with
  | step w =>
      obtain ⟨s, hs, rfl⟩ := Option.map_eq_some_iff.mp h
      exact hs
  | answer f =>
      cases f <;> cases h <;> rfl

theorem perform_store {id : String} (es : List Event) : ∀ site : Site,
    (Trace.perform (Site.exec id) site es).1.store =
      (Trace.perform exec site.store (es.filterMap Trace.Event.step?)).1 := by
  induction es with
  | nil => intro site; rfl
  | cons e es ih =>
      intro site
      cases h : Site.exec id site e with
      | none =>
          cases e with
          | step w =>
              have hw : exec site.store w = none := Option.map_eq_none_iff.mp h
              have hstep : (Trace.Event.step w : Event).step? = some w := rfl
              rw [Trace.perform_cons_none es h, List.filterMap_cons_some hstep, Trace.perform_cons_none _ hw]
          | answer f => cases f <;> exact absurd h (by simp [Site.exec])
      | some site' =>
          have hstore := exec_store h
          rw [Trace.perform_cons_some es h, ih site']
          cases e with
          | step w =>
              have hstep : (Trace.Event.step w : Event).step? = some w := rfl
              rw [List.filterMap_cons_some hstep, Trace.perform_cons_some _ hstore]
          | answer f =>
              have hanswer : (Trace.Event.answer f : Event).step? = none := rfl
              rw [List.filterMap_cons_none hanswer, hstore]

/-- **A call is an invocation** in the world its answers make, killed or not. -/
theorem after_store (site : Site) (c : Call) :
    ∃ killedAfter, (site.after tools c).store = after tools site.store (c.invocation site killedAfter) := by
  cases hscript : script tools site.store (c.invocation site none) with
  | error e =>
      have hevents : c.events tools site = .error e := by rw [Call.events, hscript]; rfl
      refine ⟨none, ?_⟩
      rw [Site.after, hevents, after, hscript]
  | ok ws =>
      have hevents : c.events tools site = .ok (Trace.observed (c.finds site) ws) := by
        rw [Call.events, hscript]; rfl
      have hany : ∀ killedAfter, script tools site.store (c.invocation site killedAfter) = .ok ws := fun _ => hscript
      cases hk : c.killedAfter with
      | none =>
          refine ⟨none, ?_⟩
          rw [Site.after, hevents, after, hany none]
          dsimp only
          rw [perform_store, Call.cut, hk]
          dsimp only
          rw [Trace.steps_observed]
          rfl
      | some k =>
          obtain ⟨j, hj⟩ := Trace.steps_take (c.finds site) ws k
          refine ⟨some j, ?_⟩
          rw [Site.after, hevents, after, hany (some j)]
          dsimp only
          rw [perform_store, Call.cut, hk]
          dsimp only
          rw [hj]
          rfl

/-- **Refinement.** The stores of observed runs are reached by invocations. -/
theorem observed_reached {calls : List Call} (h : Observed tools calls site) :
    ∃ as, Reached tools (fun _ _ => True) as site.store := by
  refine Trace.Run.invariant (I := fun _ site => ∃ as, Reached tools (fun _ _ => True) as site.store) ?_ ?_ h
  · rintro site rfl
    exact ⟨[], reached_nil⟩
  · rintro calls site c site' - ⟨as, has⟩ - hstep
    obtain ⟨killedAfter, hafter⟩ := @after_store tools site c
    obtain rfl : site.after tools c = site' := Option.some.inj hstep
    exact ⟨as ++ [c.invocation site killedAfter], hafter ▸ has.snoc trivial⟩

end OraclePatching.Recovery
