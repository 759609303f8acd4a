import OraclePatching.Recovery.Execution

/-!
# `Recovery.Runs` — invocations of `opu-database-recovery-prepare`, and the points they can be killed at

An invocation is a command on a request, the world it meets, and how many of its steps it gets to. Three kinds of
points are told apart by the steps before and after them: a record is replaced and not sealed again, the home lock is
taken and nothing is on record yet, the terminal record is sealed and the lock is still there. `Stop` is what a process
leaves when it ends, at a point of these kinds or at another.
-/

namespace OraclePatching.Recovery

/-! ## Invocations

A run is a list of invocations from the empty store. One that is killed has carried out a prefix of its writes;
which invocations are allowed is left to the results. -/

inductive Command where
  | create (requester snapshotPath policyPath database backupParent opens closes : String)
  | approve (actor ticket : String)
  | authorize (actor : String)
  | execute (actor : String)
  | reconcile (actor : String)

def Command.isCreate : Command → Bool
  | .create .. => true
  | _ => false

/-- One process: `killedAfter k` has carried out `k` steps. -/
structure Invocation where
  id : String
  command : Command
  world : World
  killedAfter : Option Nat

variable (tools : Tools)

/-- The steps an accepted command goes through. -/
def script (s : Store) (i : Invocation) : Ctl (List Write) :=
  match i.command with
  | .create requester snapshotPath policyPath database backupParent opens closes =>
      create tools i.world s i.id requester snapshotPath policyPath database backupParent opens closes
  | .approve actor ticket => approve tools i.world s i.id actor ticket
  | .authorize actor => authorize tools i.world s i.id actor
  | .execute actor => execute tools i.world s i.id actor
  | .reconcile actor => reconcile tools i.world s i.id actor

/-- The steps the process gets to, and the ones it does not. -/
def Invocation.cut (i : Invocation) (ws : List Write) : List Write × List Write :=
  match i.killedAfter with
  | none => (ws, [])
  | some k => (ws.take k, ws.drop k)

/-- The store an invocation leaves. -/
def after (s : Store) (i : Invocation) : Store :=
  match script tools s i with
  | .error _ => s
  | .ok ws => (Trace.perform exec s (i.cut ws).1).1

/-- The store is reached from the empty one by allowed invocations. -/
def Reached (allowed : Store → Invocation → Prop) : List Invocation → Store → Prop :=
  Trace.Run (fun s i => some (after tools s i)) (· = Store.empty) allowed

section
variable {tools} {allowed : Store → Invocation → Prop} {as : List Invocation} {s : Store} {i : Invocation}

theorem reached_nil : Reached tools allowed [] Store.empty := Trace.Run.nil rfl

theorem Reached.snoc (h : Reached tools allowed as s) (hi : allowed s i) :
    Reached tools allowed (as ++ [i]) (after tools s i) := Trace.Run.snoc h hi rfl

end

/-! ## Crash points -/

def Write.file? : Write → Option RequestFile
  | .request _ file => some file
  | _ => none

/-- What the steps leave in the request file, if they write it. -/
def lastFile (ws : List Write) : Option RequestFile := (ws.filterMap Write.file?).getLast?

def Write.takesLock : Write → Bool
  | .mkdirLock _ => true
  | _ => false

def Write.freesLock : Write → Bool
  | .rmdirLock _ => true
  | _ => false

/-- The file is a record with its digest. -/
def RequestFile.isSealed : RequestFile → Bool
  | .torn => false
  | .document r digest => digest = some (tools.recordDigest r)

/-- Between the rename over `request.json` and the end of `seal_file`. -/
def resealing (done : List Write) : Bool := (lastFile done).any fun file => !file.isSealed tools

/-- The lock is taken and no record of it is written. -/
def claiming (done : List Write) : Bool :=
  done.any Write.takesLock && !done.any Write.freesLock && (lastFile done).isNone

def RequestFile.isTerminal : RequestFile → Bool
  | .torn => false
  | .document r _ => r.state.isTerminal

/-- The terminal record is written and the lock is still to be released. -/
def releasing (done rest : List Write) : Bool := rest.any Write.freesLock && (lastFile done).any RequestFile.isTerminal

def safeCut (done rest : List Write) : Bool := !resealing tools done && !claiming done && !releasing done rest

/-- Only `create` must come to its end; the other commands may be killed outside the three kinds of points. -/
def Invocation.isSafe (i : Invocation) (ws : List Write) : Bool :=
  match i.command with
  | .create .. => i.killedAfter.isNone
  | _ => safeCut tools (i.cut ws).1 (i.cut ws).2

/-- Every process that gets past its guards comes to its end or is killed at a safe point. -/
def safeStep (s : Store) (i : Invocation) : Prop := ∀ ws, script tools s i = .ok ws → i.isSafe tools ws = true

/-- A script in two parts that is stopped somewhere is stopped in the first part or in the second. -/
theorem take_append_cases {ω : Type} (ws vs : List ω) (k : Nat) :
    (∃ j, (ws ++ vs).take k = ws.take j ∧ (ws ++ vs).drop k = ws.drop j ++ vs) ∨
      ∃ j, (ws ++ vs).take k = ws ++ vs.take j ∧ (ws ++ vs).drop k = vs.drop j := by
  rcases Nat.le_total k ws.length with hk | hk
  · exact .inl ⟨k, List.take_append_of_le_length hk, List.drop_append_of_le_length hk⟩
  · refine .inr ⟨k - ws.length, ?_, ?_⟩
    · rw [List.take_append, List.take_of_length_le hk]
    · rw [List.drop_append, List.drop_of_length_le hk, List.nil_append]

/-! ## Steps on one request file

Most writes replace the request file of one ID. Such a list of writes comes down to the last file it writes,
wherever it is cut. -/

/-- The step leaves the locks alone and writes no other request file. -/
def Write.isLocal (id : String) : Write → Prop
  | .temporary | .act _ => True
  | .request id' _ => id' = id
  | _ => False

def Store.putFile (s : Store) (id : String) (file : RequestFile) : Store :=
  { s with requests := setName s.requests id (some file) }

section
variable {id id' key key' : String} {s : Store} {ws vs : List Write} {file file' : RequestFile}

/-- The files after a write: the new one under its own ID, the old ones under the others. -/
theorem putFile_eq_some : (s.putFile id file).requests id' = some file' ↔
    id' = id ∧ file' = file ∨ id' ≠ id ∧ s.requests id' = some file' := by
  unfold Store.putFile setName
  by_cases hid : id' = id <;> simp [hid, eq_comm]

@[simp] theorem putFile_self : (s.putFile id file).requests id = some file := putFile_eq_some.mpr (.inl ⟨rfl, rfl⟩)

@[simp] theorem putFile_locks : (s.putFile id file).locks = s.locks := rfl

@[simp] theorem putFile_sources : (s.putFile id file).sources = s.sources := rfl

@[simp] theorem setLock_requests {lock : Option (Option Owner)} : (s.setLock key lock).requests = s.requests := rfl

@[simp] theorem setLock_sources {lock : Option (Option Owner)} : (s.setLock key lock).sources = s.sources := rfl

@[simp] theorem setLock_self {lock : Option (Option Owner)} : (s.setLock key lock).locks key = lock := setName_self _ _

/-- A lock is changed under its own key only. -/
theorem setLock_ne {lock : Option (Option Owner)} (h : key' ≠ key) : (s.setLock key lock).locks key' = s.locks key' :=
  setName_ne _ _ h

@[simp] theorem lastFile_nil : lastFile [] = none := rfl

/-- The last file of two lists is that of the second, if that has one. -/
theorem lastFile_append : lastFile (ws ++ vs) = (lastFile vs).or (lastFile ws) := by
  unfold lastFile
  rw [List.filterMap_append, List.getLast?_append]

@[simp] theorem lastFile_update (r : Record) : lastFile (updateRequest tools id r) = some (sealFile tools r) := rfl

/-- The last file is one that was written. -/
theorem lastFile_mem (h : lastFile ws = some file) : ∃ id, Write.request id file ∈ ws := by
  obtain ⟨w, hw, hfile⟩ := List.mem_filterMap.mp (List.mem_of_getLast? h)
  cases w with
  | request id file' => exact ⟨id, Option.some.inj hfile ▸ hw⟩
  | _ => exact absurd hfile (by simp [Write.file?])

@[simp] theorem setName_setName {α : Type} (f : String → α) (name : String) (a b : α) :
    setName (setName f name a) name b = setName f name b := by
  funext x
  by_cases h : x = name <;> simp [setName, h]

/-- **Local rule.** Local steps are carried out, and leave the last file they write. -/
theorem perform_local (h : ∀ w ∈ ws, w.isLocal id) :
    Trace.perform exec s ws = ((lastFile ws).elim s (s.putFile id), true) := by
  induction ws using List.reverseRecOn with
  | nil => rfl
  | append_singleton ws w ih =>
      have hinit := ih fun v hv => h v (List.mem_append_left _ hv)
      have hw := h w (List.mem_append_right _ (List.mem_singleton_self w))
      rw [Trace.perform_append s ws [w] (by rw [hinit]), hinit, lastFile_append]
      cases w with
      | temporary => rfl
      | act a => rfl
      | request id' file =>
          obtain rfl : id' = id := hw
          cases hlast : lastFile ws with
          | none => rfl
          | some old =>
              show ((s.putFile id' old).putFile id' file, true) = (s.putFile id' file, true)
              simp [Store.putFile]
      | _ => exact False.elim hw

theorem local_takes (h : ∀ w ∈ ws, w.isLocal id) : ws.any Write.takesLock = false := by
  rw [List.any_eq_false]
  intro w hw
  have hlocal := h w hw
  cases w <;> simp_all [Write.isLocal, Write.takesLock]

theorem local_frees (h : ∀ w ∈ ws, w.isLocal id) : ws.any Write.freesLock = false := by
  rw [List.any_eq_false]
  intro w hw
  have hlocal := h w hw
  cases w <;> simp_all [Write.isLocal, Write.freesLock]

/-! ## Steps on the lock

The execution lock is a directory with an owner file in it, made and removed in several writes. Carried out whole,
they come down to one change. -/

/-- The steps of `execute` that take the lock. -/
def claimLock (key : String) (o : Owner) : List Write := [.temporary, .mkdirLock key, .owner key o]

@[simp] theorem setLock_setLock (a b : Option (Option Owner)) : (s.setLock key a).setLock key b = s.setLock key b := by
  simp [Store.setLock]

/-- Making the lock and naming its owner. -/
theorem perform_claimLock {o : Owner} (h : s.locks key = none) :
    Trace.perform exec s (claimLock key o) = (s.setLock key (some (some o)), true) := by
  simp [claimLock, Trace.perform, exec, h]

/-- Removing the owner and the lock. -/
theorem perform_cleanup {o : Owner} (h : s.locks key = some (some o)) :
    Trace.perform exec s (cleanupExecutionLock key) = (s.setLock key none, true) := by
  simp [cleanupExecutionLock, Trace.perform, exec, h, Store.setLock]

end

end OraclePatching.Recovery
