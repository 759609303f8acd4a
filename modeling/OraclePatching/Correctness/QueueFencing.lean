import OraclePatching.Correctness.QueueOrder

/-!
# `Correctness.QueueFencing` — the token of the latest claim fences a job

A job file holds the digest of one claim token: that of its latest claim, or none. `Fencing` says so against the
record of granted claims, together with the generation and the attempt that this claim was granted for. It is kept
by every write because a file either takes its claim fields from the file it replaces, or clears the token, or is
the file of a new claim with a token nobody has drawn before (`Written.fields`).

A call between its two sections remembers the claim whose token it presented. When the second section accepts the
token again, that claim is still the latest one; so the job is still at the attempt whose native task the call has
verified, whatever happened in between.

Tokens are 32 random bytes and are compared by their SHA-256: `drawn` says that a claim draws a token no claim has
drawn before, and `hused` that no two tokens in use have the same digest.
-/

namespace OraclePatching.Queue

variable {cfg : Config} {sha256 : String → Digest} {testMode : Bool} {used : String → Prop} {jobs jobs' : Jobs}
  {calls : List Call} {claims : List Claim} {grant : Option Claim} {job : Job}

/-! ## Claims on record -/

/-- The latest claim of a job. -/
def lastClaim (claims : List Claim) (jobId : String) : Option Claim := claims.find? fun c => c.jobId = jobId

/-- The last claim of a job is a claim, and of that job. -/
theorem lastClaim_mem {jobId : String} {c : Claim} (h : lastClaim claims jobId = some c) :
    c ∈ claims ∧ c.jobId = jobId :=
  ⟨List.mem_of_find?_eq_some h, by simpa using List.find?_some h⟩

theorem lastClaim_cons_self (c : Claim) : lastClaim (c :: claims) c.jobId = some c := by simp [lastClaim]

theorem lastClaim_cons_ne {c : Claim} {jobId : String} (h : jobId ≠ c.jobId) :
    lastClaim (c :: claims) jobId = lastClaim claims jobId := by simp [lastClaim, Ne.symm h]

/-- The tokens an action presents are in use. -/
def presentsUsed (used : String → Prop) (cred : Credentials) : Prop :=
  ∀ token, cred.claimToken = some token → used token

/-- The credentials of a call. -/
def Operation.cred? : Operation → Option Credentials
  | .defer cred _ | .complete cred _ => some cred
  | .reconcile _ => none

/-- `secrets.token_urlsafe`: a claim draws a token that no claim has drawn; and what is presented is in use. -/
def drawn (used : String → Prop) (s : System) : Action → Prop
  | .claim _ _ _ _ token _ => used token ∧ ∀ c ∈ s.claims, c.token ≠ token
  | .extend _ cred .. | .unreconcile _ cred .. => presentsUsed used cred
  | .openCall operation .. => ∀ cred, operation.cred? = some cred → presentsUsed used cred
  | _ => True

/-- What the job files and the record of claims have to do with each other. -/
structure Fencing (sha256 : String → Digest) (used : String → Prop) (jobs : Jobs) (claims : List Claim) : Prop where
  generation : ∀ job ∈ jobs,
    job.claimGeneration = ((lastClaim claims job.jobId).map (·.generation)).getD 0
  token : ∀ job ∈ jobs, ∀ digest, job.claimTokenSha256 = some digest →
    ∃ c, lastClaim claims job.jobId = some c ∧ digest = sha256 c.token ∧ job.claimedBy = some c.agent ∧
      job.attempt = c.attempt
  known : ∀ c ∈ claims, ∃ job ∈ jobs, job.jobId = c.jobId
  increasing : claims.Pairwise fun later earlier => later.jobId = earlier.jobId → earlier.generation < later.generation
  used : ∀ c ∈ claims, used c.token
  distinct : (claims.map (·.token)).Nodup

/-- An empty queue that has granted nothing. -/
theorem Fencing.empty : Fencing sha256 used Directory.empty [] where
  generation job hjob := absurd hjob (Directory.not_mem_empty job)
  token job hjob := absurd hjob (Directory.not_mem_empty job)
  known c hc := absurd hc (by simp)
  increasing := .nil
  used c hc := absurd hc (by simp)
  distinct := List.nodup_nil

/-- No claim of a job has a higher generation than its latest one. -/
theorem Fencing.generation_le (h : Fencing sha256 used jobs claims) {jobId : String} {c : Claim}
    (hc : c ∈ claims) (hid : c.jobId = jobId) :
    c.generation ≤ ((lastClaim claims jobId).map (·.generation)).getD 0 := by
  have hinc := h.increasing
  clear h
  induction claims with
  | nil => exact absurd hc (by simp)
  | cons first claims ih =>
      obtain ⟨hfirst, hinc⟩ := List.pairwise_cons.mp hinc
      by_cases hf : jobId = first.jobId
      · rw [hf, lastClaim_cons_self]
        rcases List.mem_cons.mp hc with rfl | hc
        · exact Nat.le_refl _
        · exact Nat.le_of_lt (hfirst c hc (hf.symm.trans hid.symm))
      · rw [lastClaim_cons_ne hf]
        rcases List.mem_cons.mp hc with rfl | hc
        · exact absurd hid.symm hf
        · exact ih hc hinc

/-! ## What a write does to the claim fields

Three things can happen to the generation and the token of a job: it starts without them, it keeps them or loses
the token, or it is claimed and has new ones. The invariant is carried through each. -/

/-- An expiry changes the status and what goes with it, nothing of these. -/
theorem Job.expire_fields (now : Int) (job : Job) :
    (job.expire now).claimGeneration = job.claimGeneration ∧ (job.expire now).claimTokenSha256 = job.claimTokenSha256 ∧
      (job.expire now).claimedBy = job.claimedBy ∧ (job.expire now).attempt = job.attempt ∧
        (job.expire now).planId = job.planId ∧ (job.expire now).taskId = job.taskId ∧
          (job.expire now).adapter = job.adapter := by
  unfold Job.expire
  split <;> exact ⟨rfl, rfl, rfl, rfl, rfl, rfl, rfl⟩

/-- The new file takes its generation from the old one, and its token with all that belongs to it, or has none. -/
structure Inherits (old new : Job) : Prop where
  jobId : old.jobId = new.jobId
  generation : new.claimGeneration = old.claimGeneration
  token : new.claimTokenSha256 = none ∨
    (new.claimTokenSha256 = old.claimTokenSha256 ∧ new.claimedBy = old.claimedBy ∧ new.attempt = old.attempt)

theorem Inherits.expire (now : Int) (job : Job) : Inherits job (job.expire now) :=
  have h := job.expire_fields now
  ⟨(Job.expire_jobId now job).symm, h.1, .inr ⟨h.2.1, h.2.2.1, h.2.2.2.1⟩⟩

theorem Inherits.sweep (reached : String → Bool) (now : Int) (job : Job) : Inherits job (job.sweep reached now) := by
  unfold Job.sweep
  split
  · exact .expire now job
  · exact ⟨rfl, rfl, .inr ⟨rfl, rfl, rfl⟩⟩

/-- Every write is the first file of a job, inherits from a file it replaces, or grants a claim. -/
theorem Written.fields (h : Written sha256 testMode jobs calls job grant) :
    (grant = none ∧ jobs.get? job.jobId = none ∧ job.claimGeneration = 0 ∧ job.claimTokenSha256 = none) ∨
    (grant = none ∧ ∃ old ∈ jobs, Inherits old job) ∨
    ∃ c, grant = some c ∧ c.jobId = job.jobId ∧ (∃ old ∈ jobs, old.jobId = job.jobId ∧
      job.claimGeneration = old.claimGeneration + 1) ∧ c.generation = job.claimGeneration ∧
        job.claimTokenSha256 = some (sha256 c.token) ∧ job.claimedBy = some c.agent ∧ job.attempt = c.attempt := by
  cases h with
  | fresh hnone => exact .inl ⟨rfl, hnone, rfl, rfl⟩
  | retried hold hid _ => exact .inr (.inl ⟨rfl, _, hold, hid, rfl, .inl rfl⟩)
  | claimed hold _ => exact .inr (.inr ⟨_, rfl, rfl, ⟨_, hold, rfl, rfl⟩, rfl, rfl, rfl, rfl⟩)
  | @expired old now hold _ => exact .inr (.inl ⟨rfl, old, hold, .expire now old⟩)
  | extended hold _ => exact .inr (.inl ⟨rfl, _, hold, rfl, rfl, .inr ⟨rfl, rfl, rfl⟩⟩)
  | unreconciled hold _ => exact .inr (.inl ⟨rfl, _, hold, rfl, rfl, .inl rfl⟩)
  | deferred hold _ _ _ _ => exact .inr (.inl ⟨rfl, _, hold, rfl, rfl, .inl rfl⟩)
  | completed hold _ _ _ _ _ => exact .inr (.inl ⟨rfl, _, hold, rfl, rfl, .inr ⟨rfl, rfl, rfl⟩⟩)
  | reconciled hold _ _ _ _ _ _ => exact .inr (.inl ⟨rfl, _, hold, rfl, rfl, .inr ⟨rfl, rfl, rfl⟩⟩)

/-- What holds of a file holds of one that inherits from it. -/
theorem Fencing.inherit (h : Fencing sha256 used jobs claims) {old : Job} (hold : old ∈ jobs)
    (hnew : Inherits old job) :
    job.claimGeneration = ((lastClaim claims job.jobId).map (·.generation)).getD 0 ∧
      ∀ digest, job.claimTokenSha256 = some digest → ∃ c, lastClaim claims job.jobId = some c ∧
        digest = sha256 c.token ∧ job.claimedBy = some c.agent ∧ job.attempt = c.attempt := by
  refine ⟨by rw [hnew.generation, h.generation old hold, hnew.jobId], fun digest hdigest => ?_⟩
  rcases hnew.token with hnone | ⟨htoken, hby, hattempt⟩
  · exact absurd (hnone.symm.trans hdigest) (by simp)
  · obtain ⟨c, hc, h1, h2, h3⟩ := h.token old hold digest (htoken.symm.trans hdigest)
    exact ⟨c, hnew.jobId ▸ hc, h1, hby.trans h2, hattempt.trans h3⟩

/-- A sweep grants nothing and keeps the fields. -/
theorem Fencing.sweep (h : Fencing sha256 used jobs claims) (reached : String → Bool) (now : Int) :
    Fencing sha256 used (sweepJobs jobs reached now) claims where
  generation job hjob := by
    obtain ⟨old, hold, rfl⟩ := Directory.mem_modify.mp hjob
    exact (h.inherit hold (.sweep reached now old)).1
  token job hjob := by
    obtain ⟨old, hold, rfl⟩ := Directory.mem_modify.mp hjob
    exact (h.inherit hold (.sweep reached now old)).2
  known c hc := by
    obtain ⟨job, hjob, hid⟩ := h.known c hc
    exact ⟨_, Directory.mem_modify.mpr ⟨job, hjob, rfl⟩, (Job.sweep_jobId reached now job).trans hid⟩
  increasing := h.increasing
  used := h.used
  distinct := h.distinct

/-- Writing one file keeps what the others have to do with the record. -/
theorem Fencing.put (h : Fencing sha256 used jobs claims)
    (hjob : job.claimGeneration = ((lastClaim claims job.jobId).map (·.generation)).getD 0 ∧
      ∀ digest, job.claimTokenSha256 = some digest → ∃ c, lastClaim claims job.jobId = some c ∧
        digest = sha256 c.token ∧ job.claimedBy = some c.agent ∧ job.attempt = c.attempt) :
    Fencing sha256 used (jobs.put job) claims where
  generation other hother := by
    rcases Directory.mem_put.mp hother with rfl | ⟨hother, _⟩
    · exact hjob.1
    · exact h.generation other hother
  token other hother := by
    rcases Directory.mem_put.mp hother with rfl | ⟨hother, _⟩
    · exact hjob.2
    · exact h.token other hother
  known c hc := by
    obtain ⟨other, hother, hid⟩ := h.known c hc
    by_cases hsame : other.jobId = job.jobId
    · exact ⟨job, Directory.mem_put_self jobs job, hsame.symm.trans hid⟩
    · exact ⟨other, Directory.mem_put.mpr (.inr ⟨hother, hsame⟩), hid⟩
  increasing := h.increasing
  used := h.used
  distinct := h.distinct

/-- A granted claim with a new token goes on record. -/
theorem Fencing.granted (h : Fencing sha256 used jobs claims) {c : Claim} (hid : c.jobId = job.jobId) {old : Job}
    (hold : old ∈ jobs) (holdid : old.jobId = job.jobId) (hgen : job.claimGeneration = old.claimGeneration + 1)
    (hcgen : c.generation = job.claimGeneration) (htoken : job.claimTokenSha256 = some (sha256 c.token))
    (hby : job.claimedBy = some c.agent) (hattempt : job.attempt = c.attempt) (hused : used c.token)
    (hnew : ∀ other ∈ claims, other.token ≠ c.token) : Fencing sha256 used (jobs.put job) (c :: claims) where
  generation other hother := by
    rcases Directory.mem_put.mp hother with rfl | ⟨hother, hne⟩
    · rw [← hid, lastClaim_cons_self, ← hcgen]; rfl
    · rw [lastClaim_cons_ne (hid ▸ hne), h.generation other hother]
  token other hother digest hdigest := by
    rcases Directory.mem_put.mp hother with rfl | ⟨hother, hne⟩
    · rw [htoken] at hdigest
      exact ⟨c, hid ▸ lastClaim_cons_self c, (Option.some.inj hdigest).symm, hby, hattempt⟩
    · rw [lastClaim_cons_ne (hid ▸ hne)]
      exact h.token other hother digest hdigest
  known other hother := by
    rcases List.mem_cons.mp hother with rfl | hother
    · exact ⟨job, Directory.mem_put_self jobs job, hid.symm⟩
    · obtain ⟨found, hfound, hfid⟩ := h.known other hother
      by_cases hsame : found.jobId = job.jobId
      · exact ⟨job, Directory.mem_put_self jobs job, hsame.symm.trans hfid⟩
      · exact ⟨found, Directory.mem_put.mpr (.inr ⟨hfound, hsame⟩), hfid⟩
  increasing := by
    -- the generation of the job file is the last claim's, so the new one is above every claim of the job
    refine .cons (fun other hother hsame => ?_) h.increasing
    have hle := h.generation_le hother (hsame.symm.trans (hid.trans holdid.symm))
    rw [← h.generation old hold] at hle
    omega
  used other hother := by
    rcases List.mem_cons.mp hother with rfl | hother
    · exact hused
    · exact h.used other hother
  distinct := by
    rw [List.map_cons, List.nodup_cons, List.mem_map]
    exact ⟨fun ⟨other, hother, heq⟩ => hnew other hother heq, h.distinct⟩

/-- **One write**, in any of the three cases. -/
theorem Fencing.write (h : Fencing sha256 used jobs claims) (hw : Written sha256 testMode jobs calls job grant)
    (hgrant : ∀ c, grant = some c → used c.token ∧ ∀ other ∈ claims, other.token ≠ c.token) :
    Fencing sha256 used (jobs.put job) (grant.toList ++ claims) := by
  rcases hw.fields with ⟨rfl, hnone, hgen, htoken⟩ | ⟨rfl, old, hold, hinherits⟩ |
    ⟨c, rfl, hid, ⟨old, hold, holdid, hgen⟩, hcgen, htoken, hby, hattempt⟩
  · refine h.put ⟨?_, fun digest hdigest => absurd (htoken.symm.trans hdigest) (by simp)⟩
    -- a job that is not there has no claim on record
    cases hlast : lastClaim claims job.jobId with
    | none => exact hgen
    | some c =>
        obtain ⟨hmem, hid⟩ := lastClaim_mem hlast
        obtain ⟨other, hother, hoid⟩ := h.known c hmem
        exact absurd (hoid.trans hid) (Directory.get?_eq_none.mp hnone other hother)
  · exact h.put (h.inherit hold hinherits)
  · obtain ⟨hused, hnew⟩ := hgrant c rfl
    exact h.granted hid hold holdid hgen hcgen htoken hby hattempt hused hnew

/-- Whoever presents the token of a job presents that of its latest claim. -/
theorem Fencing.presented (h : Fencing sha256 used jobs claims)
    (hused : ∀ a b, used a → used b → sha256 a = sha256 b → a = b) {cred : Credentials} (hcred : presentsUsed used cred)
    (hjob : job ∈ jobs) (hp : Presents sha256 cred job) :
    ∃ c, lastClaim claims job.jobId = some c ∧ cred.agent = c.agent ∧ cred.claimToken = some c.token ∧
      job.attempt = c.attempt := by
  obtain ⟨token, htoken, hdigest⟩ := hp.token
  obtain ⟨c, hc, hsha, hby, hattempt⟩ := h.token job hjob _ hdigest
  have heq : token = c.token := hused _ _ (hcred token htoken) (h.used c (lastClaim_mem hc).1) hsha
  refine ⟨c, hc, ?_, heq ▸ htoken, hattempt⟩
  exact Option.some.inj (hp.agent.symm.trans hby)

/-! ## Calls between their sections

A call reads the job in one locked section and writes in a later one. In between anything may happen, so what the
call knows has to be of a kind that stays true: the task the job is about does not change, and a proof that was
found stays one. -/

/-- The same task of the same plan under the same adapter. -/
structure SameTask (a b : Job) : Prop where
  plan : a.planId = b.planId
  task : a.taskId = b.taskId
  adapter : a.adapter = b.adapter

/-- Being about one task carries over two steps. -/
theorem SameTask.trans {a b c : Job} (h : SameTask a b) (h' : SameTask b c) : SameTask a c :=
  ⟨h.plan.trans h'.plan, h.task.trans h'.task, h.adapter.trans h'.adapter⟩

theorem SameTask.expire (now : Int) (job : Job) : SameTask (job.expire now) job :=
  have h := job.expire_fields now
  ⟨h.2.2.2.2.1, h.2.2.2.2.2.1, h.2.2.2.2.2.2⟩

theorem SameTask.sweep (reached : String → Bool) (now : Int) (job : Job) : SameTask (job.sweep reached now) job := by
  unfold Job.sweep
  split
  · exact .expire now job
  · exact ⟨rfl, rfl, rfl⟩

/-- No write binds a job to another task. -/
theorem Written.sameTask (h : Written sha256 testMode jobs calls job grant) {old : Job} (hold : old ∈ jobs)
    (hid : old.jobId = job.jobId) : SameTask job old := by
  have hsame : ∀ {other : Job}, other ∈ jobs → other.jobId = job.jobId → other = old :=
    fun hother hoid => Directory.eq_of_key hother hold (hoid.trans hid.symm)
  cases h with
  | fresh hnone => exact absurd hid (Directory.get?_eq_none.mp hnone old hold)
  | retried hmem hname _ => exact hsame hmem hname ▸ ⟨rfl, rfl, rfl⟩
  | claimed hmem _ => exact hsame hmem rfl ▸ ⟨rfl, rfl, rfl⟩
  | @expired other now hmem _ => exact hsame hmem (Job.expire_jobId now other).symm ▸ .expire now other
  | extended hmem _ => exact hsame hmem rfl ▸ ⟨rfl, rfl, rfl⟩
  | unreconciled hmem _ => exact hsame hmem rfl ▸ ⟨rfl, rfl, rfl⟩
  | deferred hmem _ _ _ _ => exact hsame hmem rfl ▸ ⟨rfl, rfl, rfl⟩
  | completed hmem _ _ _ _ _ => exact hsame hmem rfl ▸ ⟨rfl, rfl, rfl⟩
  | reconciled hmem _ _ _ _ _ _ => exact hsame hmem rfl ▸ ⟨rfl, rfl, rfl⟩

/-- Every job stays, bound to its task. -/
theorem Change.persists (h : Change sha256 testMode jobs calls jobs' grant) {old : Job} (hold : old ∈ jobs) :
    ∃ job ∈ jobs', job.jobId = old.jobId ∧ SameTask job old := by
  refine h.invariant (fun jobs _ => ∃ job ∈ jobs, job.jobId = old.jobId ∧ SameTask job old) []
    ⟨old, hold, rfl, rfl, rfl, rfl⟩ (fun reached now => ?_) ?_
  · exact ⟨_, Directory.mem_modify.mpr ⟨old, hold, rfl⟩, Job.sweep_jobId reached now old, .sweep reached now old⟩
  · rintro jobs new ⟨job, hjob, hid, hsame⟩ hw
    by_cases hnew : job.jobId = new.jobId
    · exact ⟨new, Directory.mem_put_self jobs new, hnew.symm.trans hid, (hw.sameTask hjob hnew).trans hsame⟩
    · exact ⟨job, Directory.mem_put.mpr (.inr ⟨hjob, hnew⟩), hid, hsame⟩

/-- The task is what the native controller reported, at some point of the run, for the job's task at its attempt. -/
structure Certified (cfg : Config) (sha256 : String → Digest) (testMode : Bool) (used : String → Prop)
    (as : List Action) (job : Job) (t : Task) : Prop where
  plan : t.planId = job.planId
  task : t.taskId = job.taskId
  adapter : t.adapter.text = job.adapter
  attempt : t.retryCount = job.attempt
  reported : ∃ pre s, pre <+: as ∧ Reached cfg sha256 testMode (drawn used) pre s ∧
    taskStatus cfg s.plans job.planId job.taskId = .ok t

/-- A proof from a shorter run is one from a longer run. -/
theorem Certified.mono {as as' : List Action} {t : Task} (h : Certified cfg sha256 testMode used as job t)
    (hpre : as <+: as') : Certified cfg sha256 testMode used as' job t where
  plan := h.plan
  task := h.task
  adapter := h.adapter
  attempt := h.attempt
  reported := by
    obtain ⟨pre, s, hp, hr, ht⟩ := h.reported
    exact ⟨pre, s, hp.trans hpre, hr, ht⟩

/-- What was proved of a job holds of a later version of it in the same attempt. -/
theorem Certified.transfer {as : List Action} {t : Task} {a b : Job} (h : Certified cfg sha256 testMode used as a t)
    (hsame : SameTask b a) (hattempt : b.attempt = a.attempt) : Certified cfg sha256 testMode used as b t where
  plan := h.plan.trans hsame.plan.symm
  task := h.task.trans hsame.task.symm
  adapter := h.adapter.trans hsame.adapter.symm
  attempt := h.attempt.trans hattempt.symm
  reported := by rw [hsame.plan, hsame.task]; exact h.reported

/-- What is known of a call between its two sections. -/
structure Fenced (cfg : Config) (sha256 : String → Digest) (testMode : Bool) (used : String → Prop)
    (as : List Action) (jobs : Jobs) (claims : List Claim) (call : Call) : Prop where
  present : ∃ job ∈ jobs, job.jobId = call.jobId ∧ SameTask job call.read
  owner : ∀ cred, call.operation.cred? = some cred → presentsUsed used cred ∧
    ∃ c ∈ claims, cred.claimToken = some c.token ∧ c.attempt = call.read.attempt
  proof : ∀ t, call.proof = some t → Certified cfg sha256 testMode used as call.read t ∧
    ((∀ cred reason, call.operation ≠ .defer cred reason) → terminal t.status)

/-- A completed job reports the outcome of a native task of its attempt. -/
def Reports (text : String) (t : Task) : Prop :=
  (t.status = .succeeded ∧ (text = "success" ∨ text = "succeeded")) ∨ (t.status = .failed ∧ text = "failed")

structure Proven (cfg : Config) (sha256 : String → Digest) (testMode : Bool) (used : String → Prop)
    (as : List Action) (job : Job) : Prop where
  result : ∃ r text t, job.result = some r ∧ r.verified = some (text, t) ∧ Reports text t ∧
    Certified cfg sha256 testMode used as job t

theorem Fenced.mono {as as' : List Action} {claims' : List Claim} {call : Call}
    (h : Fenced cfg sha256 testMode used as jobs claims call) (hpre : as <+: as') (hclaims : claims ⊆ claims')
    (hpresent : ∃ job ∈ jobs', job.jobId = call.jobId ∧ SameTask job call.read) :
    Fenced cfg sha256 testMode used as' jobs' claims' call where
  present := hpresent
  owner cred hcred := by
    obtain ⟨hused, c, hc, h1, h2⟩ := h.owner cred hcred
    exact ⟨hused, c, hclaims hc, h1, h2⟩
  proof t ht := ⟨(h.proof t ht).1.mono hpre, (h.proof t ht).2⟩

theorem Fenced.change {as : List Action} {call : Call} (h : Fenced cfg sha256 testMode used as jobs claims call)
    (hchange : Change sha256 testMode jobs calls jobs' grant) :
    Fenced cfg sha256 testMode used as jobs' (grant.toList ++ claims) call := by
  refine h.mono (List.prefix_refl as) (List.subset_append_right _ _) ?_
  obtain ⟨job, hjob, hid, hsame⟩ := h.present
  obtain ⟨job', hjob', hid', hsame'⟩ := hchange.persists hjob
  exact ⟨job', hjob', hid'.trans hid, hsame'.trans hsame⟩

/-! ## Results -/

/-- The job that a call finds when it presents its token again is at the attempt the call has read. -/
theorem Fenced.current {as : List Action} {call : Call} {cred : Credentials} {now : Int}
    (hused : ∀ a b, used a → used b → sha256 a = sha256 b → a = b) (hf : Fencing sha256 used jobs claims)
    (h : Fenced cfg sha256 testMode used as jobs claims call) (hcred : call.operation.cred? = some cred)
    (hjob : job ∈ jobs) (hheld : Held sha256 cred now job) : job.attempt = call.read.attempt := by
  obtain ⟨hpresented, c, hc, htoken, hattempt⟩ := h.owner cred hcred
  obtain ⟨latest, hlatest, _, htoken', hattempt'⟩ := hf.presented hused hpresented hjob hheld.toPresents
  have hsame : latest = c := Frontier.eq_of_key hf.distinct (lastClaim_mem hlatest).1 hc
    (Option.some.inj (htoken'.symm.trans htoken))
  rw [hattempt', hsame, hattempt]

/-- A job file that a write completes reports a native task of its attempt. -/
theorem Written.proven {as : List Action} (hused : ∀ a b, used a → used b → sha256 a = sha256 b → a = b)
    (hf : Fencing sha256 used jobs claims) (hcalls : ∀ call ∈ calls, Fenced cfg sha256 testMode used as jobs claims call)
    (h : Written sha256 testMode jobs calls job grant) (htest : testMode = false) (hcompleted : job.status = .completed) :
    Proven cfg sha256 testMode used as job := by
  cases h with
  | fresh _ => exact absurd hcompleted (by simp [publishedJob])
  | retried _ _ _ => exact absurd hcompleted (by simp [publishedJob])
  | claimed _ _ => exact absurd hcompleted (by simp [claimedJob])
  | expired _ hlapsed => exact absurd hcompleted (by simp [Job.expire, hlapsed])
  | extended _ _ => exact absurd hcompleted (by simp [extendedJob])
  | unreconciled _ _ => exact absurd hcompleted (by simp [unreconciledJob])
  | deferred _ _ _ _ _ => exact absurd hcompleted (by simp [deferredJob])
  | @completed old cred result call now now' hold hcall hid hop hready hheld =>
      -- outside test mode a completion needs the controller's answer, which the open call carries
      obtain ⟨t, ht⟩ := Option.isSome_iff_exists.mp (hready.resolve_right (by simp [htest]))
      have hfenced := hcalls call hcall
      obtain ⟨hcertified, hterminal⟩ := hfenced.proof t ht
      obtain ⟨other, hother, hoid, hsame⟩ := hfenced.present
      obtain rfl := Directory.eq_of_key hother hold (hoid.trans hid.symm)
      have hattempt := hfenced.current hused hf (by rw [hop]; rfl) hold hheld
      refine ⟨_, _, t, rfl, by rw [ht]; rfl, ?_, hcertified.transfer ⟨hsame.plan, hsame.task, hsame.adapter⟩ hattempt⟩
      rcases hterminal (by simp [hop]) with hst | hst
      · exact .inl ⟨hst, .inl (by simp [hst])⟩
      · exact .inr ⟨hst, by simp [hst]⟩
  | @reconciled old actor t call now hold hcall hid hop ht _ hattempt =>
      -- a reconciliation completes the job with the answer alone, for the job's own attempt
      have hfenced := hcalls call hcall
      obtain ⟨hcertified, hterminal⟩ := hfenced.proof t ht
      obtain ⟨other, hother, hoid, hsame⟩ := hfenced.present
      obtain rfl := Directory.eq_of_key hother hold (hoid.trans hid.symm)
      refine ⟨_, _, t, rfl, rfl, ?_, hcertified.transfer ⟨hsame.plan, hsame.task, hsame.adapter⟩ hattempt⟩
      rcases hterminal (by simp [hop]) with hst | hst
      · exact .inl ⟨hst, .inr (by rw [hst]; rfl)⟩
      · exact .inr ⟨hst, by rw [hst]; rfl⟩

/-- What holds after the actions `as`. -/
structure Invariant (cfg : Config) (sha256 : String → Digest) (testMode : Bool) (used : String → Prop)
    (as : List Action) (jobs : Jobs) (claims : List Claim) (calls : List Call) : Prop where
  fencing : Fencing sha256 used jobs claims
  calls : ∀ call ∈ calls, Fenced cfg sha256 testMode used as jobs claims call
  results : testMode = false → ∀ job ∈ jobs, job.status = .completed → Proven cfg sha256 testMode used as job

/-- **One change of the queue**: fencing, open calls and results together. -/
theorem Invariant.change {as : List Action} (hused : ∀ a b, used a → used b → sha256 a = sha256 b → a = b)
    (h : Invariant cfg sha256 testMode used as jobs claims calls)
    (hchange : Change sha256 testMode jobs calls jobs' grant)
    (hgrant : ∀ c, grant = some c → used c.token ∧ ∀ other ∈ claims, other.token ≠ c.token) :
    Invariant cfg sha256 testMode used as jobs' (grant.toList ++ claims) calls := by
  refine hchange.invariant (fun jobs claims => Invariant cfg sha256 testMode used as jobs claims calls) claims h
    (fun reached now => ?_) ?_
  · have hsweep : Change sha256 testMode jobs calls (sweepJobs jobs reached now) none := .swept reached now
    refine ⟨h.fencing.sweep reached now, fun call hcall => (h.calls call hcall).change hsweep, ?_⟩
    intro htest job hjob hcompleted
    obtain ⟨old, hold, rfl⟩ := Directory.mem_modify.mp hjob
    rcases old.sweep_cases reached now with heq | ⟨_, hstatus⟩
    · rw [heq] at hcompleted ⊢
      exact h.results htest old hold hcompleted
    · exact absurd hcompleted (by simp [hstatus])
  · rintro jobs job ⟨hfencing, hcalls, hresults⟩ hw
    refine ⟨hfencing.write hw hgrant, fun call hcall => (hcalls call hcall).change (.wrote hw), ?_⟩
    intro htest other hother hcompleted
    rcases Directory.mem_put.mp hother with rfl | ⟨hother, _⟩
    · exact hw.proven hused hfencing hcalls htest hcompleted
    · exact hresults htest other hother hcompleted

/-! ## Calls after a step

Where the open calls of a step come from: they were open before, or were opened by it, or have just read the plan. -/

/-- The proof that a call reads is a task of the right plan, in the right attempt, and finished unless the call defers
    it. -/
theorem verifyCall_ok {plans : Store} {call : Call} {t : Task} (h : verifyCall cfg plans call = .ok t) :
    (t.planId = call.read.planId ∧ t.taskId = call.read.taskId ∧ t.adapter.text = call.read.adapter ∧
      t.retryCount = call.read.attempt) ∧ taskStatus cfg plans call.read.planId call.read.taskId = .ok t ∧
      ((∀ cred reason, call.operation ≠ .defer cred reason) → terminal t.status) := by
  unfold verifyCall at h
  obtain ⟨t', hnative, h⟩ := bind_ok.mp h
  unfold nativeTask at hnative
  split at hnative
  · exact absurd hnative refuse_ne_ok
  · rename_i t'' hstatus
    rw [ensure_bind_ok] at hnative
    obtain ⟨hmatch, hnative⟩ := hnative
    injection hnative with hnative
    subst hnative
    cases hop : call.operation <;> simp only [hop, ensure_bind_ok, Except.ok.injEq] at h <;>
      obtain ⟨hverdict, rfl⟩ := h
    · exact ⟨hmatch, hstatus, fun hne => absurd rfl (hne _ _)⟩
    · exact ⟨hmatch, hstatus, fun _ => hverdict⟩
    · exact ⟨hmatch, hstatus, fun _ => hverdict⟩

/-- A call that has passed its first section reads a job of the queue, and presents its claim if it has to. -/
theorem openCall_ok {q q' : QueueDir} {operation : Operation} {jobId : String} {now : Int} {read : Job}
    (h : openCall sha256 q operation jobId now = (q', .ok read)) :
    ∃ old ∈ q.jobs, old.jobId = jobId ∧ read.attempt = old.attempt ∧ SameTask old read ∧
      ∀ cred, operation.cred? = some cred → Presents sha256 cred old := by
  have howned : ∀ cred, owned sha256 q jobId cred now = (q', .ok read) → ∃ old ∈ q.jobs, old.jobId = jobId ∧
      read.attempt = old.attempt ∧ SameTask old read ∧ Presents sha256 cred old := by
    intro cred howned
    rcases owned_cases sha256 q jobId cred now with
      ⟨e, heq⟩ | ⟨job, _, e, _, _, _, heq⟩ | ⟨job, hmem, hid, hheld, heq⟩ <;> rw [howned] at heq
    · exact absurd (Prod.mk.inj heq).2 (by simp)
    · exact absurd (Prod.mk.inj heq).2 (by simp)
    · obtain rfl := Except.ok.inj (Prod.mk.inj heq).2
      exact ⟨read, hmem, hid, rfl, ⟨rfl, rfl, rfl⟩, hheld.toPresents⟩
  unfold openCall at h
  split at h
  · obtain ⟨old, hold, hid, hattempt, hsame, hp⟩ := howned _ h
    exact ⟨old, hold, hid, hattempt, hsame, fun cred hcred => Option.some.inj hcred ▸ hp⟩
  · obtain ⟨old, hold, hid, hattempt, hsame, hp⟩ := howned _ h
    exact ⟨old, hold, hid, hattempt, hsame, fun cred hcred => Option.some.inj hcred ▸ hp⟩
  · split at h
    · exact absurd (Prod.mk.inj h).2 (by simp)
    · rename_i job heq
      simp only [bind_ok, readJob, need_ok] at heq
      obtain ⟨_, _, _, _, hget⟩ := heq
      obtain ⟨hmem, hid⟩ := Directory.get?_eq_some.mp hget
      dsimp only at h
      split at h
      · obtain rfl := Except.ok.inj (Prod.mk.inj h).2
        have hsame := SameTask.expire now job
        exact ⟨job, hmem, hid, (job.expire_fields now).2.2.2.1, ⟨hsame.plan.symm, hsame.task.symm, hsame.adapter.symm⟩,
          fun cred hcred => absurd hcred (by simp [Operation.cred?])⟩
      · exact absurd (Prod.mk.inj h).2 (by simp)

/-- A call that is open after a step was open before, has just been opened, or has just been verified. -/
theorem step_calls (cfg : Config) (sha256 : String → Digest) (testMode : Bool) (s : System) (a : Action) {call : Call}
    (h : call ∈ (step cfg sha256 testMode s a).calls) :
    call ∈ s.calls ∨
    (∃ now q', a = .openCall call.operation call.jobId now ∧ call.proof = none ∧
      openCall sha256 s.queue call.operation call.jobId now = (q', .ok call.read)) ∨
    ∃ old ∈ s.calls, ∃ t, verifyCall cfg s.plans old = .ok t ∧ call = { old with proof := some t } := by
  cases a with
  | plans plans => exact .inl h
  | publish planId taskId node adapter attempt now => exact .inl h
  | killedPublish planId taskId node adapter attempt => simp only [step] at h; split at h <;> exact .inl h
  | claim node agent lease enrolled token now => simp only [step] at h; split at h <;> exact .inl h
  | killedSweep reached now => exact .inl h
  | extend jobId cred seconds now now' => exact .inl h
  | unreconcile jobId cred reason now now' => exact .inl h
  | openCall operation jobId now =>
      simp only [step] at h
      split at h
      -- an accepted call is the last one of the list, with what it read and no answer yet
      · rename_i q job heq
        rcases List.mem_append.mp h with h | h
        · exact .inl h
        · obtain rfl := List.mem_singleton.mp h
          exact .inr (.inl ⟨now, q, rfl, rfl, heq⟩)
      · exact .inl h
  | verify index =>
      simp only [step] at h
      split at h
      · exact .inl h
      · rename_i old hold
        split at h
        · exact .inl h
        · split at h
          -- the controller agreed, and its answer goes into the call
          · rename_i t ht
            rcases List.mem_or_eq_of_mem_set h with h | rfl
            · exact .inl h
            · exact .inr (.inr ⟨old, List.mem_of_getElem? hold, t, ht, rfl⟩)
          · exact .inl (List.mem_of_mem_eraseIdx h)
  | close index now now' =>
      simp only [step] at h
      split at h
      · exact .inl h
      · split at h
        · exact .inl (List.mem_of_mem_eraseIdx h)
        · exact .inl h

/-- **The fencing invariant.** -/
theorem invariant_reached (hused : ∀ a b, used a → used b → sha256 a = sha256 b → a = b) {as : List Action}
    {s : System} (h : Reached cfg sha256 testMode (drawn used) as s) :
    Invariant cfg sha256 testMode used as s.queue.jobs s.claims s.calls := by
  refine Trace.Run.invariant
    (I := fun as s => Invariant cfg sha256 testMode used as s.queue.jobs s.claims s.calls) ?_ ?_ h
  · rintro s ⟨hjobs, _, hcalls, hclaims⟩
    rw [hjobs, hcalls, hclaims]
    exact ⟨.empty, fun call hcall => absurd hcall (by simp),
      fun _ job hjob => absurd hjob (Directory.not_mem_empty job)⟩
  · rintro as s a s' hr ih hdrawn hstep
    obtain rfl := Option.some.inj hstep
    have hpre := List.prefix_append as [a]
    obtain ⟨grant, hchange, hclaims, hclaim⟩ := step_change cfg sha256 testMode s a
    have hafter := ih.change hused hchange fun c hc => by
      obtain ⟨node, agent, lease, enrolled, now, rfl⟩ := hclaim c hc
      exact hdrawn
    rw [hclaims]
    have hmono : ∀ {call : Call}, Fenced cfg sha256 testMode used as (step cfg sha256 testMode s a).queue.jobs
        (grant.toList ++ s.claims) call → Fenced cfg sha256 testMode used (as ++ [a])
        (step cfg sha256 testMode s a).queue.jobs (grant.toList ++ s.claims) call :=
      fun hcall => hcall.mono hpre (List.Subset.refl _) hcall.present
    refine ⟨hafter.fencing, fun call hcall => ?_, fun htest job hjob hcompleted => ?_⟩
    · rcases step_calls cfg sha256 testMode s a hcall with
        hold | ⟨now, q', rfl, hproof, hopen⟩ | ⟨old, hold, t, ht, rfl⟩
      · exact hmono (hafter.calls call hold)
      · -- opened: the job it read is there, with the claim it presented
        obtain ⟨old, hold, hid, hattempt, hsame, hpresents⟩ := openCall_ok hopen
        refine hmono (Fenced.change ?_ hchange)
        refine ⟨⟨old, hold, hid, hsame⟩, fun cred hcred => ?_, fun t ht => absurd (hproof.symm.trans ht) (by simp)⟩
        obtain ⟨c, hc, _, htoken, hat⟩ := ih.fencing.presented hused (hdrawn cred hcred) hold (hpresents cred hcred)
        exact ⟨hdrawn cred hcred, c, (lastClaim_mem hc).1, htoken, by rw [hattempt, hat]⟩
      · -- verified: by the plan state directory of this very state
        obtain ⟨⟨h1, h2, h3, h4⟩, hstatus, hterminal⟩ := verifyCall_ok ht
        have hfenced := hmono (hafter.calls old hold)
        refine ⟨hfenced.present, hfenced.owner, fun t' ht' => ?_⟩
        obtain rfl := Option.some.inj ht'
        exact ⟨⟨h1, h2, h3, h4, as, s, hpre, hr, hstatus⟩, hterminal⟩
    · obtain ⟨r, text, t, h1, h2, h3, h4⟩ := (hafter.results htest job hjob hcompleted).result
      exact ⟨r, text, t, h1, h2, h3, h4.mono hpre⟩

/-! ## Fencing -/

/-- The critical sections that ask for the claim. -/
inductive OwnersCall where
  | extend (seconds now' : Int)
  | unreconcile (reason : String) (now' : Int)
  | beginDefer (reason : String)
  | defer (reason : String) (read : Job) (proof : Option Task) (now' : Int)
  | beginComplete (result : List (String × Json))
  | complete (result : List (String × Json)) (read : Job) (proof : Option Task) (now' : Int)

def OwnersCall.run (sha256 : String → Digest) (q : QueueDir) (jobId : String) (cred : Credentials) (now : Int) :
    OwnersCall → QueueDir × Ctl Job
  | .extend seconds now' => extendLease sha256 q jobId cred seconds now now'
  | .unreconcile reason now' => requireReconciliation sha256 q jobId cred reason now now'
  | .beginDefer reason => openCall sha256 q (.defer cred reason) jobId now
  | .defer reason read proof now' => closeCall sha256 q ⟨.defer cred reason, jobId, read, proof⟩ now now'
  | .beginComplete result => openCall sha256 q (.complete cred result) jobId now
  | .complete result read proof now' => closeCall sha256 q ⟨.complete cred result, jobId, read, proof⟩ now now'

/-- Each of them refuses without the claim, and succeeds only under its lease. -/
theorem OwnersCall.run_cases (sha256 : String → Digest) (q : QueueDir) (jobId : String) (cred : Credentials) (now : Int)
    (call : OwnersCall) :
    (∃ e, call.run sha256 q jobId cred now = (q, .error e)) ∨
    ∃ job ∈ q.jobs, job.jobId = jobId ∧ Presents sha256 cred job ∧
      ((∃ e, (call.run sha256 q jobId cred now).2 = .error e) ∨ Held sha256 cred now job) := by
  -- both kinds of calls look the job up and check the claim before anything else
  have hupdate : ∀ update, (∃ e, ownedUpdate sha256 q jobId cred now update = (q, .error e)) ∨
      ∃ job ∈ q.jobs, job.jobId = jobId ∧ Presents sha256 cred job ∧
        ((∃ e, (ownedUpdate sha256 q jobId cred now update).2 = .error e) ∨ Held sha256 cred now job) := by
    intro update
    rcases ownedUpdate_cases sha256 q jobId cred now update with
      ⟨e, h⟩ | ⟨job, hmem, e, hid, hp, _, h⟩ | ⟨job, hmem, hid, hheld, _⟩
    · exact .inl ⟨e, h⟩
    · exact .inr ⟨job, hmem, hid, hp, .inl ⟨e, by rw [h]⟩⟩
    · exact .inr ⟨job, hmem, hid, hheld.toPresents, .inr hheld⟩
  have hread : (∃ e, owned sha256 q jobId cred now = (q, .error e)) ∨
      ∃ job ∈ q.jobs, job.jobId = jobId ∧ Presents sha256 cred job ∧
        ((∃ e, (owned sha256 q jobId cred now).2 = .error e) ∨ Held sha256 cred now job) := by
    rcases owned_cases sha256 q jobId cred now with
      ⟨e, h⟩ | ⟨job, hmem, e, hid, hp, _, h⟩ | ⟨job, hmem, hid, hheld, _⟩
    · exact .inl ⟨e, h⟩
    · exact .inr ⟨job, hmem, hid, hp, .inl ⟨e, by rw [h]⟩⟩
    · exact .inr ⟨job, hmem, hid, hheld.toPresents, .inr hheld⟩
  cases call with
  | extend seconds now' =>
      simp only [OwnersCall.run, extendLease]
      rcases checked_cases (ensure (30 ≤ seconds ∧ seconds ≤ 3600) 400 "seconds must be between 30 and 3600") q
        (ownedUpdate sha256 q jobId cred now (extendedJob seconds now')) with ⟨e, h⟩ | ⟨_, h⟩ <;> rw [h]
      · exact .inl ⟨e, rfl⟩
      · exact hupdate _
  | unreconcile reason now' => exact hupdate _
  | beginDefer reason => exact hread
  | defer reason read proof now' => exact hupdate _
  | beginComplete result => exact hread
  | complete result read proof now' => exact hupdate _

/-- The credentials are those of the latest claim of the job. -/
def HasLatestClaim (claims : List Claim) (jobId : String) (cred : Credentials) : Prop :=
  ∃ c, lastClaim claims jobId = some c ∧ cred.agent = c.agent ∧ cred.claimToken = some c.token

/-- The native task is one that the plan controller has verified, sealed result included, during the run. -/
def SealedReport (cfg : Config) (sha256 : String → Digest) (testMode : Bool) (used : String → Prop)
    (as : List Action) (job : Job) (t : Task) : Prop :=
  ∃ pre s d, pre <+: as ∧ Reached cfg sha256 testMode (drawn used) pre s ∧
    s.plans.plans.lookup job.planId = some d ∧ taskStatus cfg s.plans job.planId job.taskId = .ok t ∧
    Sealed cfg d.plan.planSha256 t ∧ t.taskResultSha256 = some (cfg.hashString (.result t.result))

structure QueueFenced (cfg : Config) (sha256 : String → Digest) (testMode : Bool) (used : String → Prop)
    (as : List Action) (s : System) : Prop where
  owner : ∀ (call : OwnersCall) jobId cred now q job, presentsUsed used cred →
    call.run sha256 s.queue jobId cred now = (q, .ok job) →
    HasLatestClaim s.claims jobId cred ∧
      ∃ current ∈ s.queue.jobs, current.jobId = jobId ∧ now < current.leaseExpiresEpoch.getD 0
  refused : ∀ (call : OwnersCall) jobId cred now, presentsUsed used cred → ¬ HasLatestClaim s.claims jobId cred →
    ∃ e, call.run sha256 s.queue jobId cred now = (s.queue, .error e)
  generation : ∀ node agent lease enrolled token now q job,
    claim sha256 s.queue node agent lease enrolled token now = (q, .ok (some job)) →
    ∀ c ∈ s.claims, c.jobId = job.jobId → c.generation < job.claimGeneration
  completed : testMode = false → ∀ job ∈ s.queue.jobs, job.status = .completed →
    ∃ r text t, job.result = some r ∧ r.verified = some (text, t) ∧ Reports text t ∧
      t.taskId = job.taskId ∧ t.retryCount = job.attempt ∧ SealedReport cfg sha256 testMode used as job t

/-- A task with a result has a sealed one. -/
theorem taskStatus_sealed {plans : Store} {id taskId : String} {t : Task} (h : taskStatus cfg plans id taskId = .ok t)
    (hresult : t.status.isResult = true) :
    ∃ d, plans.plans.lookup id = some d ∧ Sealed cfg d.plan.planSha256 t ∧
      t.taskResultSha256 = some (cfg.hashString (.result t.result)) := by
  simp only [taskStatus, bind_ok] at h
  obtain ⟨_, _, _, _, d, hd, t', ht, h⟩ := h
  have hsealed := (verifyTaskFile_ok.mp ht).2
  have heq : t' = t := by
    split at h
    · obtain ⟨_, _, h⟩ := bind_ok.mp h
      exact Except.ok.inj h
    · exact Except.ok.inj h
  exact ⟨d, (verifyPlan_ok.mp hd).1, heq ▸ hsealed, (heq ▸ hsealed).result hresult⟩

/-- **Fencing of the agent queue.** After any actions of any agents and controllers, with tokens of old claims in
    circulation or not: a job answers only to the agent and token of its latest claim, before that lease expires;
    anybody else is refused and changes nothing; a new claim has a higher generation than every earlier one of the
    job; and outside test mode a completed job carries the outcome of a task that the plan controller has verified
    with its result seal, at the job's attempt. -/
theorem queue_fenced {cfg : Config} {sha256 : String → Digest} {testMode : Bool} {used : String → Prop}
    (hused : ∀ a b, used a → used b → sha256 a = sha256 b → a = b) {as : List Action} {s : System}
    (h : Reached cfg sha256 testMode (drawn used) as s) : QueueFenced cfg sha256 testMode used as s := by
  obtain ⟨hfencing, _, hresults⟩ := invariant_reached hused h
  -- who presents the digest of a job's token has its latest claim, since digests do not collide
  have hlatest : ∀ {jobId : String} {cred : Credentials} {job : Job}, presentsUsed used cred → job ∈ s.queue.jobs →
      job.jobId = jobId → Presents sha256 cred job → HasLatestClaim s.claims jobId cred := by
    rintro _ cred job hcred hjob rfl hp
    obtain ⟨c, hc, hagent, htoken, _⟩ := hfencing.presented hused hcred hjob hp
    exact ⟨c, hc, hagent, htoken⟩
  refine ⟨?_, ?_, ?_, ?_⟩
  · intro call jobId cred now q job hcred hrun
    rcases call.run_cases sha256 s.queue jobId cred now with ⟨e, heq⟩ | ⟨current, hmem, hid, hp, ⟨e, he⟩ | hheld⟩
    · exact absurd (Prod.mk.inj (hrun.symm.trans heq)).2 (by simp)
    · exact absurd ((congrArg Prod.snd hrun).symm.trans he) (by simp)
    · exact ⟨hlatest hcred hmem hid hp, current, hmem, hid, hheld.lasts⟩
  · intro call jobId cred now hcred hnot
    rcases call.run_cases sha256 s.queue jobId cred now with heq | ⟨current, hmem, hid, hp, _⟩
    · exact heq
    · exact absurd (hlatest hcred hmem hid hp) hnot
  · intro node agent lease enrolled token now q job hclaim c hc hid
    rcases claim_cases sha256 s.queue node agent lease enrolled token now with
      ⟨e, heq⟩ | ⟨r, hr, heq⟩ | ⟨old, hold, _, heq⟩ <;> rw [hclaim] at heq
    · exact absurd (Prod.mk.inj heq).2 (by simp)
    · exact absurd (Prod.mk.inj heq).2.symm (hr job)
    · obtain rfl := Option.some.inj (Except.ok.inj (Prod.mk.inj heq).2)
      have hswept := hfencing.sweep (fun _ => true) now
      have hle := hswept.generation_le hc hid
      rw [show (claimedJob sha256 old agent token lease now).jobId = old.jobId from rfl,
        ← hswept.generation old hold] at hle
      exact Nat.lt_succ_of_le hle
  -- outside test mode a completed job carries the controller's answer about a state of this run
  · intro htest job hjob hcompleted
    obtain ⟨r, text, t, hr, hverified, hreports, hcertified⟩ := (hresults htest job hjob hcompleted).result
    obtain ⟨pre, s', hpre, hreached, hstatus⟩ := hcertified.reported
    have hresult : t.status.isResult = true := by
      rcases hreports with ⟨hst, _⟩ | ⟨hst, _⟩ <;> rw [hst] <;> rfl
    obtain ⟨d, hd, hsealed, hseal⟩ := taskStatus_sealed hstatus hresult
    exact ⟨r, text, t, hr, hverified, hreports, hcertified.task, hcertified.attempt, pre, s', d, hpre, hreached, hd,
      hstatus, hsealed, hseal⟩

/-! ## A token that is left behind

A claim that expires, the next claim by another agent, and the first agent coming back with its old token: it is
refused, and the second one completes. -/

/-- `drawn`, for the tokens in a list. -/
def drawnFrom (tokens : List String) (s : System) : Action → Bool
  | .claim _ _ _ _ token _ => tokens.contains token && s.claims.all fun c => c.token != token
  | .extend _ cred .. | .unreconcile _ cred .. => cred.claimToken.all tokens.contains
  | .openCall operation .. => operation.cred?.all fun cred => cred.claimToken.all tokens.contains
  | _ => true

/-- A drawing that can be checked is a drawing. -/
theorem drawn_of_drawnFrom {tokens : List String} {s : System} {a : Action} (h : drawnFrom tokens s a = true) :
    drawn (· ∈ tokens) s a := by
  have hpresents : ∀ cred : Credentials, cred.claimToken.all tokens.contains = true → presentsUsed (· ∈ tokens) cred := by
    intro cred hcred token htoken
    rw [htoken] at hcred
    exact List.contains_iff_mem.mp hcred
  cases a with
  | claim node agent lease enrolled token now =>
      unfold drawnFrom at h
      rw [Bool.and_eq_true, List.all_eq_true] at h
      exact ⟨List.contains_iff_mem.mp h.1, fun c hc => bne_iff_ne.mp (h.2 c hc)⟩
  | extend jobId cred seconds now now' => exact hpresents cred h
  | unreconcile jobId cred reason now now' => exact hpresents cred h
  | openCall operation jobId now =>
      intro cred hcred
      have h : (operation.cred?.all fun cred => cred.claimToken.all tokens.contains) = true := h
      rw [hcred] at h
      exact hpresents cred h
  | _ => trivial

/-- The first task of `p1` is pending, -/
def dispatchedPlans : Store := OraclePatching.replay lab labDispatched

/-- and has succeeded under its controller. -/
def precheckedPlans : Store := OraclePatching.replay lab
  (labDispatched ++ [labClaim 1 "dee", labComplete 1 "dee" .succeeded 0])

/-- An agent gives its job back; another claims it. The first comes again with its old token, and the second completes
    the job. -/
def handedOver : List Action :=
  let jobId := jobIdOf "p1" (labTask 1).1
  [.plans dispatchedPlans, .publish "p1" (labTask 1).1 "n1" labPlan.adapter.text 0 1000,
    .claim "n1" "agent1" 120 true "first" 1010, .openCall (.defer ⟨"agent1", some "first", true⟩ "busy") jobId 1020,
    .verify 0, .close 0 1021 1021, .claim "n1" "agent2" 120 true "second" 1030, .plans precheckedPlans,
    .openCall (.complete ⟨"agent1", some "first", true⟩ []) jobId 1040,
    .openCall (.complete ⟨"agent2", some "second", true⟩ []) jobId 1050, .verify 0, .close 0 1051 1051]

/-- The job was claimed twice and is completed for the second agent; the first has opened no call. -/
def completedForSecond (s : System) : Bool :=
  (s.queue.jobs.files.map fun job => (job.status, job.claimedBy)) == [(.completed, some "agent2")] &&
    (s.claims.map (·.generation)) == [2, 1] && s.calls.isEmpty

theorem queue_fenced_handedOver : ∃ s, completedForSecond s = true ∧
    QueueFenced lab (fun token => checksum [token]) false (· ∈ ["first", "second"]) handedOver s := by
  have hrun : ((handedOver.foldlM (Trace.guarded (fun s a => some (step lab (fun token => checksum [token]) false s a))
      (drawnFrom ["first", "second"])) emptySystem).any completedForSecond) = true := by decide +kernel
  obtain ⟨s, hs, hcompleted⟩ := (Option.any_eq_true _ _).mp hrun
  refine ⟨s, hcompleted, queue_fenced ?_ (Trace.Run.of_foldlM ⟨rfl, rfl, rfl, rfl⟩ (fun _ _ h => drawn_of_drawnFrom h) hs)⟩
  intro a b ha hb heq
  have hne : checksum ["first"] ≠ checksum ["second"] := by decide +kernel
  rw [List.mem_cons, List.mem_singleton] at ha hb
  rcases ha with rfl | rfl
  · rcases hb with rfl | rfl
    · rfl
    · exact absurd heq hne
  · rcases hb with rfl | rfl
    · exact absurd heq.symm hne
    · rfl

end OraclePatching.Queue
