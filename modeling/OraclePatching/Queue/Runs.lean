import OraclePatching.Lib.Trace
import OraclePatching.Queue.Jobs

/-!
# `Queue.Runs` — agents and controllers working on one queue

The state of a run is the queue directory, the plan state directory the native verifier reads, and the calls that are
between their two sections. Any process may take any critical section at any time, with any reading of the clock; a
process may die between sections, which leaves its call open for good, or inside one (`killedSweep`,
`killedPublish`). What the plan controllers do meanwhile is arbitrary.

`claims` is a record of the granted claims, latest first. No operation reads it.

`Written` lists the reasons for which a job file is written, and `step_change` says that a step writes at most one
such file, after a sweep of expired leases. Every invariant of the queue is derived from these two.
-/

namespace OraclePatching.Queue

/-- A granted claim. -/
structure Claim where
  jobId : String
  agent : String
  token : String
  generation : Nat
  attempt : Nat

structure System where
  queue : QueueDir
  plans : Store
  calls : List Call
  claims : List Claim

/-- An empty queue beside some plan state directory. -/
def initial (s : System) : Prop :=
  s.queue.jobs = Directory.empty ∧ s.queue.history = Directory.empty ∧ s.calls = [] ∧ s.claims = []

inductive Action where
  | plans (plans : Store)
  | publish (planId taskId node adapter : String) (attempt now : Int)
  | killedPublish (planId taskId node adapter : String) (attempt : Int)
  | claim (node agent : String) (lease : Int) (enrolled : Bool) (token : String) (now : Int)
  | killedSweep (reached : String → Bool) (now : Int)
  | extend (jobId : String) (cred : Credentials) (seconds now now' : Int)
  | unreconcile (jobId : String) (cred : Credentials) (reason : String) (now now' : Int)
  | openCall (operation : Operation) (jobId : String) (now : Int)
  | verify (index : Nat)
  | close (index : Nat) (now now' : Int)

section
variable (cfg : Config) (sha256 : String → Digest) (testMode : Bool)

/-- `complete` in test mode does not ask the native controller. -/
def Call.unverified (call : Call) : Bool :=
  match call.operation with
  | .complete .. => testMode
  | _ => false

def step (s : System) : Action → System
  | .plans plans => { s with plans := plans }
  | .publish planId taskId node adapter attempt now =>
      { s with queue := (publishTask s.queue planId taskId node adapter attempt now).1 }
  | .killedPublish planId taskId node adapter attempt =>
      match publication s.queue planId taskId node adapter attempt.toNat with
      | .ok (.retry old) => { s with queue := archive s.queue old }
      | _ => s
  | .claim node agent lease enrolled token now =>
      match claim sha256 s.queue node agent lease enrolled token now with
      | (q, .ok (some job)) =>
          { s with queue := q, claims := ⟨job.jobId, agent, token, job.claimGeneration, job.attempt⟩ :: s.claims }
      | (q, _) => { s with queue := q }
  | .killedSweep reached now => { s with queue := { s.queue with jobs := sweepJobs s.queue.jobs reached now } }
  | .extend jobId cred seconds now now' =>
      { s with queue := (extendLease sha256 s.queue jobId cred seconds now now').1 }
  | .unreconcile jobId cred reason now now' =>
      { s with queue := (requireReconciliation sha256 s.queue jobId cred reason now now').1 }
  | .openCall operation jobId now =>
      match openCall sha256 s.queue operation jobId now with
      | (q, .ok job) => { s with queue := q, calls := s.calls ++ [⟨operation, jobId, job, none⟩] }
      | (q, .error _) => { s with queue := q }
  | .verify index =>
      match s.calls[index]? with
      | none => s
      | some call =>
          if call.unverified testMode then s
          else
            match verifyCall cfg s.plans call with
            | .ok t => { s with calls := s.calls.set index { call with proof := some t } }
            | .error _ => { s with calls := s.calls.eraseIdx index }
  | .close index now now' =>
      match s.calls[index]? with
      | none => s
      | some call =>
          if call.proof.isSome || call.unverified testMode then
            { s with queue := (closeCall sha256 s.queue call now now').1, calls := s.calls.eraseIdx index }
          else s

/-- Every system that some actions lead to. -/
def Reached (allowed : System → Action → Prop) : List Action → System → Prop :=
  Trace.Run (fun s a => some (step cfg sha256 testMode s a)) initial allowed

end

/-! ## Replaying -/

section
variable (cfg : Config) (sha256 : String → Digest) (testMode : Bool)

/-- An empty queue beside an empty plan state directory. -/
def emptySystem : System := ⟨⟨Directory.empty, Directory.empty⟩, ⟨fun _ => none, ∅⟩, [], []⟩

/-- The system after a list of actions. -/
def replay (as : List Action) : System := as.foldl (step cfg sha256 testMode) emptySystem

variable {cfg sha256 testMode}

/-- A replayed list is a run. -/
theorem replay_reached {allowed : System → Action → Prop} {as : List Action}
    (h : ∀ pre a, pre ++ [a] <+: as → allowed (replay cfg sha256 testMode pre) a) :
    Reached cfg sha256 testMode allowed as (replay cfg sha256 testMode as) :=
  Trace.Run.of_foldl ⟨rfl, rfl, rfl, rfl⟩ h

theorem replay_nil {allowed : System → Action → Prop} :
    Reached cfg sha256 testMode allowed [] (replay cfg sha256 testMode []) := .nil ⟨rfl, rfl, rfl, rfl⟩

theorem replay_snoc {allowed : System → Action → Prop} {as : List Action} {a : Action}
    (h : Reached cfg sha256 testMode allowed as (replay cfg sha256 testMode as))
    (ha : allowed (replay cfg sha256 testMode as) a) :
    Reached cfg sha256 testMode allowed (as ++ [a]) (replay cfg sha256 testMode (as ++ [a])) := by
  refine .snoc h ha ?_
  rw [replay, replay, List.foldl_append]
  rfl

end

/-! ## What a step writes

Every critical section of the queue changes the jobs in one of four ways: not at all, by a sweep, by one written
job, or by a sweep with a written job after it. Which jobs can be written is said once, for all calls. -/

section
variable (sha256 : String → Digest) (testMode : Bool)

/-- The agent and the token in `cred` are those of the job. -/
structure Presents (cred : Credentials) (job : Job) : Prop where
  enrolled : cred.enrolled = true
  agent : job.claimedBy = some cred.agent
  token : ∃ token, cred.claimToken = some token ∧ job.claimTokenSha256 = some (sha256 token)

/-- The agent that presents `cred` holds the job under a lease that lasts at `now`. -/
structure Held (cred : Credentials) (now : Int) (job : Job) : Prop extends Presents sha256 cred job where
  leased : job.status.leased = true
  lasts : now < job.leaseExpiresEpoch.getD 0

/-- What `claim` makes sure of before it grants a job. -/
structure Grantable (jobs : Jobs) (job : Job) : Prop where
  queued : job.status = .queued
  nodeFree : ∀ other ∈ jobs, other.status.active = true → other.node ≠ job.node
  planFree : ∀ other ∈ jobs, other.planId = job.planId → other.jobId ≠ job.jobId → other.status.active = false
  ordered : ∀ other ∈ jobs, other.planId = job.planId → other.jobId ≠ job.jobId → other.taskId < job.taskId →
    other.status = .completed ∧ outcomeSuccess other = .ok true

/-- The reasons for which a job file is written, with the claim that is granted. -/
inductive Written (jobs : Jobs) (calls : List Call) : Job → Option Claim → Prop
  | fresh {planId taskId node adapter : String} {attempt : Nat} {now : Int} :
      jobs.get? (jobIdOf planId taskId) = none →
      Written jobs calls (publishedJob planId taskId node adapter attempt 0 now) none
  | retried {old : Job} {now : Int} : old ∈ jobs → old.jobId = jobIdOf old.planId old.taskId →
      old.status = .completed →
      Written jobs calls
        (publishedJob old.planId old.taskId old.node old.adapter (old.attempt + 1) old.claimGeneration now) none
  | claimed {old : Job} {agent token : String} {lease now : Int} : old ∈ jobs → Grantable jobs old →
      Written jobs calls (claimedJob sha256 old agent token lease now)
        (some ⟨old.jobId, agent, token, old.claimGeneration + 1, old.attempt⟩)
  | expired {old : Job} {now : Int} : old ∈ jobs → old.lapsed now = true →
      Written jobs calls (old.expire now) none
  | extended {old : Job} {cred : Credentials} {seconds now now' : Int} : old ∈ jobs → Held sha256 cred now old →
      Written jobs calls (extendedJob seconds now' old) none
  | unreconciled {old : Job} {cred : Credentials} {reason : String} {now now' : Int} : old ∈ jobs →
      Held sha256 cred now old → Written jobs calls (unreconciledJob reason now' old) none
  | deferred {old : Job} {cred : Credentials} {reason : String} {call : Call} {now now' : Int} : old ∈ jobs →
      call ∈ calls → old.jobId = call.jobId → call.operation = .defer cred reason → Held sha256 cred now old →
      Written jobs calls (deferredJob reason now' old) none
  | completed {old : Job} {cred : Credentials} {result : List (String × Json)} {call : Call} {now now' : Int} :
      old ∈ jobs → call ∈ calls → old.jobId = call.jobId → call.operation = .complete cred result →
      (call.proof.isSome = true ∨ testMode = true) → Held sha256 cred now old →
      Written jobs calls (completedJob result call.proof now' old) none
  | reconciled {old : Job} {actor : String} {proof : Task} {call : Call} {now : Int} : old ∈ jobs →
      call ∈ calls → old.jobId = call.jobId → call.operation = .reconcile actor → call.proof = some proof →
      old.status = .reconciliationRequired → old.attempt = call.read.attempt →
      Written jobs calls (reconciledJob actor proof now old) none

/-- A sweep, or not, and then at most one write. -/
inductive Change (jobs : Jobs) (calls : List Call) : Jobs → Option Claim → Prop
  | same : Change jobs calls jobs none
  | swept (reached : String → Bool) (now : Int) : Change jobs calls (sweepJobs jobs reached now) none
  | wrote {job : Job} {grant : Option Claim} : Written sha256 testMode jobs calls job grant →
      Change jobs calls (jobs.put job) grant
  | sweptAndWrote (reached : String → Bool) (now : Int) {job : Job} {grant : Option Claim} :
      Written sha256 testMode (sweepJobs jobs reached now) calls job grant →
      Change jobs calls ((sweepJobs jobs reached now).put job) grant

end

/-! ## Every section is such a change -/

section
variable {sha256 : String → Digest} {testMode : Bool} {q : QueueDir} {calls : List Call}

/-- A claim is held by whoever presents it. -/
theorem holdsClaim_ok {cred : Credentials} {job : Job} :
    holdsClaim sha256 cred job = .ok () ↔ Presents sha256 cred job := by
  rw [holdsClaim, ensure_bind_ok, ensure_ok]
  constructor
  · rintro ⟨henrolled, hagent, htoken, hsha⟩
    obtain ⟨token, h⟩ := Option.isSome_iff_exists.mp htoken
    exact ⟨henrolled, hagent, token, h, by rw [hsha, h]; rfl⟩
  · rintro ⟨henrolled, hagent, token, h, hsha⟩
    exact ⟨henrolled, hagent, by rw [h]; rfl, by rw [hsha, h]; rfl⟩

/-- **What `_owned` can do**: refuse, refuse after an expiry, or hand out the job its caller holds. -/
theorem owned_cases (sha256 : String → Digest) (q : QueueDir) (jobId : String) (cred : Credentials) (now : Int) :
    (∃ e, owned sha256 q jobId cred now = (q, .error e)) ∨
    (∃ job ∈ q.jobs, ∃ e, job.jobId = jobId ∧ Presents sha256 cred job ∧ job.lapsed now = true ∧
      owned sha256 q jobId cred now = (q.put (job.expire now), .error e)) ∨
    (∃ job ∈ q.jobs, job.jobId = jobId ∧ Held sha256 cred now job ∧
      owned sha256 q jobId cred now = (q, .ok job)) := by
  unfold owned
  split
  · exact .inl ⟨_, rfl⟩
  · rename_i heq
    simp only [bind_ok, readJob, need_ok, Except.ok.injEq] at heq
    obtain ⟨_, _, job, hget, _, hholds, rfl⟩ := heq
    obtain ⟨hmem, hid⟩ := Directory.get?_eq_some.mp hget
    have hpresents := holdsClaim_ok.mp hholds
    split
    · rename_i hlapsed
      exact .inr (.inl ⟨job, hmem, _, hid, hpresents, hlapsed, rfl⟩)
    · rename_i hlapsed
      split
      · rename_i hleased
        have hlasts : ¬ job.leaseExpiresEpoch.getD 0 ≤ now := by simpa [Job.lapsed, hleased] using hlapsed
        exact .inr (.inr ⟨job, hmem, hid, ⟨hpresents, hleased, by omega⟩, rfl⟩)
      · exact .inl ⟨_, rfl⟩

/-- The same of a section that writes the job its caller holds. -/
theorem ownedUpdate_cases (sha256 : String → Digest) (q : QueueDir) (jobId : String) (cred : Credentials) (now : Int)
    (update : Job → Job) :
    (∃ e, ownedUpdate sha256 q jobId cred now update = (q, .error e)) ∨
    (∃ job ∈ q.jobs, ∃ e, job.jobId = jobId ∧ Presents sha256 cred job ∧ job.lapsed now = true ∧
      ownedUpdate sha256 q jobId cred now update = (q.put (job.expire now), .error e)) ∨
    (∃ job ∈ q.jobs, job.jobId = jobId ∧ Held sha256 cred now job ∧
      ownedUpdate sha256 q jobId cred now update = (q.put (update job), .ok (update job))) := by
  unfold ownedUpdate
  rcases owned_cases sha256 q jobId cred now with ⟨e, h⟩ | ⟨job, hmem, e, hid, hp, hl, h⟩ | ⟨job, hmem, hid, hh, h⟩
  · exact .inl ⟨e, by rw [h]⟩
  · exact .inr (.inl ⟨job, hmem, e, hid, hp, hl, by rw [h]⟩)
  · exact .inr (.inr ⟨job, hmem, hid, hh, by rw [h]⟩)

/-- An update of a held job is a change if writing the update is. -/
theorem ownedUpdate_change {jobId : String} {cred : Credentials} {now : Int} {update : Job → Job}
    (h : ∀ job ∈ q.jobs, job.jobId = jobId → Held sha256 cred now job →
      Written sha256 testMode q.jobs calls (update job) none) :
    Change sha256 testMode q.jobs calls (ownedUpdate sha256 q jobId cred now update).1.jobs none := by
  rcases ownedUpdate_cases sha256 q jobId cred now update with
    ⟨e, heq⟩ | ⟨job, hmem, e, _, _, hlapsed, heq⟩ | ⟨job, hmem, hid, hheld, heq⟩ <;> rw [heq]
  · exact .same
  · exact .wrote (.expired hmem hlapsed)
  · exact .wrote (h job hmem hid hheld)

/-- A call of an owner that goes no further has swept at most. -/
theorem owned_change {jobId : String} {cred : Credentials} {now : Int} :
    Change sha256 testMode q.jobs calls (owned sha256 q jobId cred now).1.jobs none := by
  rcases owned_cases sha256 q jobId cred now with
    ⟨e, heq⟩ | ⟨job, hmem, e, _, _, hlapsed, heq⟩ | ⟨job, _, _, _, heq⟩ <;> rw [heq]
  · exact .same
  · exact .wrote (.expired hmem hlapsed)
  · exact .same

/-- A call that fails its check changes nothing. -/
theorem checked_cases {α : Type} (check : Ctl Unit) (q : QueueDir) (critical : QueueDir × Ctl α) :
    (∃ e, checked check q critical = (q, .error e)) ∨ (check = .ok () ∧ checked check q critical = critical) := by
  unfold checked
  split
  · exact .inl ⟨_, rfl⟩
  · exact .inr ⟨rfl, rfl⟩

theorem publication_retry {planId taskId node adapter : String} {attempt : Nat} {old : Job}
    (h : publication q planId taskId node adapter attempt = .ok (.retry old)) :
    old ∈ q.jobs ∧ old.jobId = jobIdOf old.planId old.taskId ∧ old.status = .completed ∧ old.planId = planId ∧
      old.taskId = taskId ∧ old.node = node ∧ old.adapter = adapter ∧ attempt = old.attempt + 1 := by
  unfold publication at h
  split at h
  · exact absurd h (by simp)
  · rename_i old' hget
    rw [ensure_bind_ok] at h
    obtain ⟨⟨hnode, hadapter, hplan, htask⟩, h⟩ := h
    split at h
    · exact absurd h (by simp)
    · simp only [ensure_bind_ok, Except.ok.injEq, Publication.retry.injEq] at h
      obtain ⟨⟨hstatus, hattempt⟩, _, rfl⟩ := h
      obtain ⟨hmem, hid⟩ := Directory.get?_eq_some.mp hget
      exact ⟨hmem, by rw [hid, hplan, htask], hstatus, hplan, htask, hnode, hadapter, hattempt⟩

theorem publication_fresh {planId taskId node adapter : String} {attempt : Nat}
    (h : publication q planId taskId node adapter attempt = .ok .fresh) :
    q.jobs.get? (jobIdOf planId taskId) = none := by
  unfold publication at h
  split at h
  · assumption
  · rw [ensure_bind_ok] at h
    obtain ⟨_, h⟩ := h
    split at h
    · exact absurd h (by simp)
    · simp [ensure_bind_ok] at h

theorem publishTask_change {planId taskId node adapter : String} {attempt now : Int} :
    Change sha256 testMode q.jobs calls (publishTask q planId taskId node adapter attempt now).1.jobs none := by
  unfold publishTask
  rcases checked_cases (publishChecks planId taskId node adapter attempt) q _ with ⟨e, heq⟩ | ⟨_, heq⟩ <;> rw [heq]
  · exact .same
  · split
    · exact .same
    · exact .same
    · rename_i hfresh
      exact .wrote (.fresh (publication_fresh hfresh))
    · rename_i old hretry
      obtain ⟨hmem, hid, hstatus, rfl, rfl, rfl, rfl, hattempt⟩ := publication_retry hretry
      rw [hattempt]
      exact .wrote (.retried hmem hid hstatus)

/-- Nothing is outstanding when every earlier task of the plan has succeeded. -/
theorem outstanding_false {job : Job} {peers : List Job} (h : outstanding job peers = .ok false) :
    ∀ peer ∈ peers, peer.taskId < job.taskId → peer.status = .completed ∧ outcomeSuccess peer = .ok true := by
  induction peers with
  | nil => exact fun _ hp => absurd hp (by simp)
  | cons peer peers ih =>
      unfold outstanding at h
      intro other hother hlt
      rcases List.mem_cons.mp hother with rfl | hother
      · rw [if_pos hlt] at h
        split at h
        · rename_i hcompleted
          obtain ⟨success, hsuccess, h⟩ := bind_ok.mp h
          cases success with
          | false => exact absurd h (by simp)
          | true => exact ⟨hcompleted, hsuccess⟩
        · exact absurd h (by simp)
      · refine ih ?_ other hother hlt
        split at h
        · split at h
          · obtain ⟨success, _, h⟩ := bind_ok.mp h
            cases success with
            | false => exact absurd h (by simp)
            | true => exact h
          · exact absurd h (by simp)
        · exact h

/-- The job that is granted waits, for this node, and for nothing that is outstanding. -/
theorem firstClaimable_some {node : String} {all jobs : List Job} {job : Job}
    (h : firstClaimable node all jobs = .ok (some job)) :
    job ∈ jobs ∧ job.node = node ∧ job.status = .queued ∧ (peersOf all job).any (·.status.active) = false ∧
      outstanding job (peersOf all job) = .ok false := by
  induction jobs with
  | nil => exact absurd h (by simp [firstClaimable])
  | cons first jobs ih =>
      have hlater : firstClaimable node all jobs = .ok (some job) → job ∈ first :: jobs ∧ job.node = node ∧
          job.status = .queued ∧ (peersOf all job).any (·.status.active) = false ∧
            outstanding job (peersOf all job) = .ok false :=
        fun h => ⟨List.mem_cons_of_mem first (ih h).1, (ih h).2⟩
      unfold firstClaimable at h
      split at h
      · exact hlater h
      · rename_i hcandidate
        rw [not_or, Classical.not_not, Classical.not_not] at hcandidate
        split at h
        · exact hlater h
        · rename_i hfree
          obtain ⟨blocked, hblocked, h⟩ := bind_ok.mp h
          cases blocked with
          | true => exact hlater h
          | false =>
              obtain rfl : first = job := by simpa using h
              exact ⟨List.mem_cons_self, hcandidate.1, hcandidate.2, by simpa using hfree, hblocked⟩

/-- The peers of a job are the other jobs of its plan. -/
theorem mem_peersOf {all : List Job} {job other : Job} :
    other ∈ peersOf all job ↔ other ∈ all ∧ other.planId = job.planId ∧ other.jobId ≠ job.jobId := by
  simp [peersOf]

/-- A job that `claim` picks may be granted. -/
theorem firstClaimable_grantable {node : String} {jobs : Jobs} {job : Job}
    (hnode : (sortedJobs jobs).any (fun job => job.node == node && job.status.active) = false)
    (h : firstClaimable node (sortedJobs jobs) (sortedJobs jobs) = .ok (some job)) :
    job ∈ jobs ∧ Grantable jobs job := by
  obtain ⟨hmem, rfl, hqueued, hpeers, hordered⟩ := firstClaimable_some h
  refine ⟨mem_sortedJobs.mp hmem, hqueued, ?_, ?_, ?_⟩
  · intro other hother hactive hsame
    have := List.any_eq_false.mp hnode other (mem_sortedJobs.mpr hother)
    simp [hsame, hactive] at this
  · intro other hother hplan hid
    simpa using List.any_eq_false.mp hpeers other (mem_peersOf.mpr ⟨mem_sortedJobs.mpr hother, hplan, hid⟩)
  · intro other hother hplan hid hlt
    exact outstanding_false hordered other (mem_peersOf.mpr ⟨mem_sortedJobs.mpr hother, hplan, hid⟩) hlt

/-- **What `claim` can do**: refuse, sweep and grant nothing, or sweep and grant a job. -/
theorem claim_cases (sha256 : String → Digest) (q : QueueDir) (node agent : String) (lease : Int) (enrolled : Bool)
    (token : String) (now : Int) :
    (∃ e, claim sha256 q node agent lease enrolled token now = (q, .error e)) ∨
    (∃ r, (∀ job, r ≠ .ok (some job)) ∧ claim sha256 q node agent lease enrolled token now =
      ({ q with jobs := sweepJobs q.jobs (fun _ => true) now }, r)) ∨
    (∃ job ∈ sweepJobs q.jobs (fun _ => true) now, Grantable (sweepJobs q.jobs (fun _ => true) now) job ∧
      claim sha256 q node agent lease enrolled token now =
        ({ q with jobs := (sweepJobs q.jobs (fun _ => true) now).put (claimedJob sha256 job agent token lease now) },
          .ok (some (claimedJob sha256 job agent token lease now)))) := by
  unfold claim
  rcases checked_cases (claimChecks node agent lease enrolled) q _ with ⟨e, heq⟩ | ⟨_, heq⟩ <;> rw [heq]
  · exact .inl ⟨e, rfl⟩
  · dsimp only
    split
    · exact .inr (.inl ⟨_, by simp, rfl⟩)
    · rename_i hnode
      split
      · exact .inr (.inl ⟨_, by simp, rfl⟩)
      · exact .inr (.inl ⟨_, by simp, rfl⟩)
      · rename_i job hfirst
        obtain ⟨hmem, hgrantable⟩ := firstClaimable_grantable (by simpa using hnode) hfirst
        exact .inr (.inr ⟨job, hmem, hgrantable, rfl⟩)

theorem openCall_change {operation : Operation} {jobId : String} {now : Int} :
    Change sha256 testMode q.jobs calls (openCall sha256 q operation jobId now).1.jobs none := by
  unfold openCall
  split
  · exact owned_change
  · exact owned_change
  · split
    · exact .same
    · rename_i job heq
      have hexpiry : Change sha256 testMode q.jobs calls (if job.lapsed now then q.put (job.expire now) else q).jobs none := by
        split
        · rename_i hlapsed
          simp only [bind_ok, readJob, need_ok] at heq
          obtain ⟨_, _, _, _, hget⟩ := heq
          exact .wrote (.expired (Directory.get?_eq_some.mp hget).1 hlapsed)
        · exact .same
      dsimp only
      split <;> exact hexpiry

theorem closeCall_change {call : Call} {now now' : Int} (hcall : call ∈ calls)
    (hready : (call.proof.isSome || call.unverified testMode) = true) :
    Change sha256 testMode q.jobs calls (closeCall sha256 q call now now').1.jobs none := by
  unfold closeCall
  split
  · rename_i hop
    exact ownedUpdate_change fun job hmem hid hheld => .deferred hmem hcall hid hop hheld
  · rename_i hop
    have hproof : call.proof.isSome = true ∨ testMode = true := by
      simpa [Call.unverified, hop] using hready
    exact ownedUpdate_change fun job hmem hid hheld => .completed hmem hcall hid hop hproof hheld
  · rename_i actor proof hop hproof
    split
    · exact .same
    · rename_i job hread
      obtain ⟨hmem, hid⟩ := Directory.get?_eq_some.mp (need_ok.mp hread)
      split
      · exact .same
      · rename_i hsame
        rw [not_or, not_or, Classical.not_not, Classical.not_not, Classical.not_not] at hsame
        exact .wrote (.reconciled hmem hcall hid hop hproof hsame.1 hsame.2.2)
  · exact .same

end

/-- **What a step changes.** A sweep of expired leases, or none, and at most one job file, for one of the reasons in
    `Written`; and the claim it grants goes on record. -/
theorem step_change (cfg : Config) (sha256 : String → Digest) (testMode : Bool) (s : System) (a : Action) :
    ∃ grant, Change sha256 testMode s.queue.jobs s.calls (step cfg sha256 testMode s a).queue.jobs grant ∧
      (step cfg sha256 testMode s a).claims = grant.toList ++ s.claims ∧
      ∀ c, grant = some c → ∃ node agent lease enrolled now, a = .claim node agent lease enrolled c.token now := by
  cases a with
  | plans plans => exact ⟨none, .same, rfl, by simp⟩
  | publish planId taskId node adapter attempt now => exact ⟨none, publishTask_change, rfl, by simp⟩
  | killedPublish planId taskId node adapter attempt =>
      refine ⟨none, ?_, ?_, by simp⟩ <;> simp only [step] <;> split
      · exact .same
      · exact .same
      · rfl
      · rfl
  | claim node agent lease enrolled token now =>
      -- a refused claim may have swept already, since the sweep comes first
      rcases claim_cases sha256 s.queue node agent lease enrolled token now with
        ⟨e, heq⟩ | ⟨r, hr, heq⟩ | ⟨job, hmem, hgrantable, heq⟩ <;> simp only [step, heq]
      · exact ⟨none, .same, rfl, by simp⟩
      · exact ⟨none, .swept _ _, rfl, by simp⟩
      · refine ⟨_, .sweptAndWrote _ _ (.claimed hmem hgrantable), rfl, ?_⟩
        rintro _ ⟨⟩
        exact ⟨_, _, _, _, _, rfl⟩
  | killedSweep reached now => exact ⟨none, .swept reached now, rfl, by simp⟩
  | extend jobId cred seconds now now' =>
      refine ⟨none, ?_, rfl, by simp⟩
      simp only [step, extendLease]
      rcases checked_cases (ensure (30 ≤ seconds ∧ seconds ≤ 3600) 400 "seconds must be between 30 and 3600")
        s.queue (ownedUpdate sha256 s.queue jobId cred now (extendedJob seconds now')) with
        ⟨e, heq⟩ | ⟨_, heq⟩ <;> rw [heq]
      · exact .same
      · exact ownedUpdate_change fun job hmem _ hheld => .extended hmem hheld
  | unreconcile jobId cred reason now now' =>
      exact ⟨none, ownedUpdate_change fun job hmem _ hheld => .unreconciled hmem hheld, rfl, by simp⟩
  | openCall operation jobId now =>
      -- what a call does before the controller is asked
      have h := @openCall_change sha256 testMode s.queue s.calls operation jobId now
      refine ⟨none, ?_, ?_, by simp⟩ <;> simp only [step] <;> split
      · rename_i heq; rw [heq] at h; exact h
      · rename_i heq; rw [heq] at h; exact h
      · rfl
      · rfl
  | verify index =>
      -- the controller's answer is kept with the call, and no job file is written
      refine ⟨none, ?_, ?_, by simp⟩ <;> simp only [step] <;> split
      · exact .same
      · split_ifs
        · exact .same
        · split <;> exact .same
      · rfl
      · split_ifs
        · rfl
        · split <;> rfl
  | close index now now' =>
      -- the call goes on with the answer it has
      refine ⟨none, ?_, ?_, by simp⟩ <;> simp only [step] <;> split
      · exact .same
      · rename_i call hcall
        split
        · rename_i hready
          exact closeCall_change (List.mem_of_getElem? hcall) hready
        · exact .same
      · rfl
      · split_ifs <;> rfl

/-- **Invariant rule.** What a sweep and every write keep of the job files and the record of claims, a step keeps. -/
theorem Change.invariant (I : Jobs → List Claim → Prop) (claims : List Claim) {sha256 : String → Digest} {testMode : Bool}
    {jobs jobs' : Jobs} {calls : List Call} {grant : Option Claim} (h : Change sha256 testMode jobs calls jobs' grant)
    (hI : I jobs claims) (hsweep : ∀ reached now, I (sweepJobs jobs reached now) claims)
    (hwrite : ∀ jobs job, I jobs claims → Written sha256 testMode jobs calls job grant →
      I (jobs.put job) (grant.toList ++ claims)) : I jobs' (grant.toList ++ claims) := by
  cases h with
  | same => exact hI
  | swept reached now => exact hsweep reached now
  | wrote h => exact hwrite _ _ hI h
  | sweptAndWrote reached now h => exact hwrite _ _ (hsweep reached now) h

end OraclePatching.Queue
