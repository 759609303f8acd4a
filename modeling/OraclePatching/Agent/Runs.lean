import OraclePatching.Agent.Journal
import OraclePatching.Lib.Trace

/-!
# `Agent.Runs` — agents side by side, and everything one action can do

`Effect` lists what the next file operation of an agent can come to, with the reason in each case; `Acts` adds the
arrivals, the end of an operation, the lock that does not come free in time and the crash. The invariants of the
journal go through these cases instead of through `step`.
-/

namespace OraclePatching.Agent

/-- Every state that some actions lead to, each allowed where it is taken. -/
def Reached (hash : String → String) (allowed : State → Action → Prop) : List Action → State → Prop :=
  Trace.Run (step hash) (· = State.empty) allowed

/-! ## Stages -/

/-- The agent has a temporary binding. -/
def Stage.isLinking : Stage → Bool
  | .link | .dropTemporary _ => true
  | _ => false

/-- The agent has bound its task. -/
def Stage.isBound : Stage → Bool
  | .writeTemporary | .link | .dropTemporary false | .readBinding => false
  | _ => true

/-- The agent holds the lock of its key. -/
def Stage.isLocked : Stage → Bool
  | .writeTemporary | .link | .dropTemporary _ | .readBinding | .acquireLock => false
  | _ => true

/-- The agent has begun its run. -/
def Stage.isRunning : Stage → Bool
  | .invoke | .operate | .clearDirectory .. | .makeDirectory .. | .fillDirectory .. | .renameDirectory .. | .report _ => true
  | _ => false

/-- The agent has found no completion and has not tried to publish its own. -/
def Stage.isUnpublished : Stage → Bool
  | .makeRun | .invoke | .operate | .clearDirectory .. | .makeDirectory .. | .fillDirectory .. | .renameDirectory .. => true
  | _ => false

/-- The agent's temporary directory is not anybody's completion. -/
def Stage.isFilling : Stage → Bool
  | .fillDirectory .. | .renameDirectory .. => true
  | _ => false

/-! ## What an action can do -/

section
variable (hash : String → String) (s : State) (pid : Nat) (p : Process)

inductive Effect : State → Prop
  | wrote {inode : Nat} : p.stage = .writeTemporary → s.links (p.temporary pid) = some inode →
      Effect ({ s with content := fun i => if i = inode then p.request.idempotencyKey else s.content i }.goto pid p .link)
  | created : p.stage = .writeTemporary → s.links (p.temporary pid) = none →
      Effect ({ s with links := setName s.links (p.temporary pid) (some s.inodes),
                       content := fun i => if i = s.inodes then p.request.idempotencyKey else s.content i,
                       inodes := s.inodes + 1 }.goto pid p .link)
  | linked {inode : Nat} : p.stage = .link → s.links (p.temporary pid) = some inode → s.links p.request.taskId = none →
      Effect ({ s with links := setName s.links p.request.taskId (some inode),
                       bound := (p.request.taskId, p.request.idempotencyKey) :: s.bound }.goto pid p (.dropTemporary true))
  | notLinked : p.stage = .link → Effect (s.goto pid p (.dropTemporary false))
  | dropped {linked : Bool} : p.stage = .dropTemporary linked →
      Effect ({ s with links := setName s.links (p.temporary pid) none }.goto pid p
        (if linked then .acquireLock else .readBinding))
  | matched {inode : Nat} : p.stage = .readBinding → s.links p.request.taskId = some inode →
      s.content inode = p.request.idempotencyKey → Effect (s.goto pid p .acquireLock)
  | unmatched {code : Nat} : p.stage = .readBinding →
      (∀ inode, s.links p.request.taskId = some inode → s.content inode ≠ p.request.idempotencyKey) →
      Effect (s.answer pid p (.refused code))
  | locked : p.stage = .acquireLock → s.locks p.request.idempotencyKey = none →
      Effect ({ s with locks := setName s.locks p.request.idempotencyKey (some pid) }.goto pid p .checkCompletion)
  | waits : Effect s
  | present : p.stage = .checkCompletion → Effect (s.goto pid p .replay)
  | absent : p.stage = .checkCompletion → (∀ d, s.results p.request.idempotencyKey ≠ some (some d)) →
      Effect (s.goto pid p .makeRun)
  | replayed {d : ResultDir} : p.stage = .replay → s.results p.request.idempotencyKey = some (some d) →
      d.requestSha256 = hash (fingerprint p.request) → Effect (s.answer pid p (.returned d.result d.exitCode))
  | unreplayed {code : Nat} : p.stage = .replay →
      (∀ d, s.results p.request.idempotencyKey = some (some d) → opuVerifyCompletedResult hash d ≠ .ok () ∨
        d.requestSha256 ≠ hash (fingerprint p.request)) → Effect (s.answer pid p (.refused code))
  | began : p.stage = .makeRun → s.runs p.request.taskId = none →
      Effect ({ s with runs := setName s.runs p.request.taskId (some (hash (fingerprint p.request))),
                       begun := s.begun ++ [p.request] }.goto pid p .invoke)
  | unfinished {code : Nat} : p.stage = .makeRun → s.runs p.request.taskId ≠ none →
      Effect (s.answer pid p (.refused code))
  | invoked : p.stage = .invoke →
      Effect ({ s with invocations := s.invocations ++ [p.request] }.goto pid { p with invoked := true } .operate)
  | cleared {result : String} {exitCode : Nat} : p.stage = .clearDirectory result exitCode →
      Effect ({ s with results := setName s.results (p.directory pid) none }.goto pid p (.makeDirectory result exitCode))
  | made {result : String} {exitCode : Nat} : p.stage = .makeDirectory result exitCode →
      s.results (p.directory pid) = none →
      Effect ({ s with results := setName s.results (p.directory pid) (some none) }.goto pid p
        (.fillDirectory result exitCode))
  | notMade {result : String} {exitCode code : Nat} : p.stage = .makeDirectory result exitCode →
      Effect (s.answer pid p (.refused code))
  | filled {result : String} {exitCode : Nat} : p.stage = .fillDirectory result exitCode →
      Effect ({ s with
        results := setName s.results (p.directory pid) (some (some (completionDir hash p.request result exitCode))) }.goto
          pid p (.renameDirectory result exitCode))
  | swallowed {result : String} {exitCode : Nat} : p.stage = .renameDirectory result exitCode →
      Effect ({ s with results := setName s.results (p.directory pid) none }.goto pid p (.report exitCode))
  | renamed {result : String} {exitCode : Nat} : p.stage = .renameDirectory result exitCode →
      s.results p.request.idempotencyKey = none →
      Effect ({ s with
        results := setName (setName s.results p.request.idempotencyKey (s.results (p.directory pid))) (p.directory pid) none,
        published := setName s.published p.request.idempotencyKey (some ⟨p.request, result, exitCode⟩) }.goto pid p
          (.report exitCode))
  | reported {result : String} {exitCode : Nat} : p.stage = .report exitCode →
      Effect (s.answer pid p (.returned result exitCode))

theorem move_effect : Effect hash s pid p (move hash s pid p) := by
  unfold move
  dsimp only
  split
  case h_1 hst =>
    -- write the temporary binding: through an inode that is there, or a new one
    split
    · exact .wrote hst (by assumption)
    · exact .created hst (by assumption)
  case h_2 hst =>
    -- link it under the task's name, which fails when the name is taken
    split
    · exact .linked hst (by assumption) (by assumption)
    · exact .notLinked hst
  case h_3 hst => exact .dropped hst
  case h_4 hst =>
    -- read the binding that was there first and compare its key
    split
    · rename_i hnone
      exact .unmatched hst fun inode h => absurd (hnone.symm.trans h) (by simp)
    · rename_i inode hsome
      split
      · exact .matched hst hsome (by assumption)
      · rename_i hne
        exact .unmatched hst fun other h => Option.some.inj (hsome.symm.trans h) ▸ hne
  case h_5 hst =>
    -- take the key's lock, or wait for it
    split
    · exact .locked hst (by assumption)
    · exact .waits
  case h_6 hst =>
    split
    · exact .present hst
    · rename_i hne
      exact .absent hst fun d h => hne d h
  case h_7 hst =>
    -- replay a published result that verifies and has this request's fingerprint
    split
    · rename_i d hd
      split
      · rename_i e he
        exact .unreplayed hst fun other h => .inl (by
          rw [← Option.some.inj (Option.some.inj (hd.symm.trans h)), he]; simp)
      · split
        · exact .replayed hst hd (by assumption)
        · rename_i hne
          exact .unreplayed hst fun other h => .inr (by rw [← Option.some.inj (Option.some.inj (hd.symm.trans h))]; exact hne)
    · rename_i hne
      exact .unreplayed hst fun d h => absurd h (hne d)
  case h_8 hst =>
    -- a run directory that is there stops the agent
    split
    · rename_i hsome
      exact .unfinished hst (by rw [hsome]; simp)
    · exact .began hst (by assumption)
  case h_9 hst => exact .invoked hst
  case h_10 => exact .waits
  case h_11 hst => exact .cleared hst
  case h_12 hst =>
    -- make the directory that is to be published
    split
    · exact .notMade hst
    · exact .made hst (by assumption)
  case h_13 hst => exact .filled hst
  case h_14 hst =>
    -- publish it: renamed to the key, or moved into a directory of that name
    split
    · exact .swallowed hst
    · exact .renamed hst (by assumption)
  case h_15 hst => split <;> exact .reported hst

end

/-- What an action can come to. -/
inductive Acts (hash : String → String) (s : State) : Action → State → Prop
  | arrived {pid : Nat} {r : Request} : s.processes pid = none → opuRunAdmission r = .ok () →
      Acts hash s (.arrive pid r) { s with
        processes := s.processes.update pid (some ⟨r, .writeTemporary, s.begun, s.published r.idempotencyKey, false⟩) }
  | rejected {pid : Nat} {r : Request} {code : Nat} : opuRunAdmission r ≠ .ok () →
      Acts hash s (.arrive pid r) { s with
        answers := s.answers ++ [⟨r, s.begun, s.published r.idempotencyKey, false, .refused code⟩] }
  | moved {pid : Nat} {p : Process} {s' : State} : s.processes pid = some p → Effect hash s pid p s' →
      Acts hash s (.step pid) s'
  | timedOut {pid : Nat} {p : Process} : s.processes pid = some p → p.stage = .acquireLock →
      Acts hash s (.timeOut pid) (s.answer pid p (.refused 75))
  | finished {pid : Nat} {p : Process} {result : String} {exitCode : Nat} : s.processes pid = some p →
      p.stage = .operate → Acts hash s (.finish pid result exitCode) (s.goto pid p (.clearDirectory result exitCode))
  | died {pid : Nat} {p : Process} : s.processes pid = some p →
      Acts hash s (.die pid) { s with processes := s.processes.update pid none, locks := s.unlocked pid }

theorem step_acts {hash : String → String} {s s' : State} {a : Action} (h : step hash s a = some s') :
    Acts hash s a s' := by
  cases a with
  | arrive pid r =>
      simp only [step] at h
      split at h
      · exact absurd h (by simp)
      · rename_i he
        obtain rfl := Option.some.inj h
        exact .rejected (by rw [he]; simp)
      · rename_i hnone hok
        obtain rfl := Option.some.inj h
        exact .arrived hnone hok
  | step pid =>
      obtain ⟨p, hp, rfl⟩ := Option.map_eq_some_iff.mp h
      exact .moved hp (move_effect hash s pid p)
  | timeOut pid =>
      -- only an agent that waits for the lock gives up
      simp only [step] at h
      split at h
      · rename_i p hp
        split at h
        · rename_i hst
          obtain rfl := Option.some.inj h
          exact .timedOut hp hst
        · exact absurd h (by simp)
      · exact absurd h (by simp)
  | finish pid result exitCode =>
      simp only [step] at h
      split at h
      · rename_i p hp
        split at h
        · rename_i hst
          obtain rfl := Option.some.inj h
          exact .finished hp hst
        · exact absurd h (by simp)
      · exact absurd h (by simp)
  | die pid =>
      obtain ⟨p, hp, rfl⟩ := Option.map_eq_some_iff.mp h
      exact .died hp

end OraclePatching.Agent
