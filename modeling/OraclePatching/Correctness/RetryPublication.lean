import OraclePatching.Correctness.QueueFencing

/-!
# `Correctness.RetryPublication` — publishing a retry again after a crash

`publish_task` archives the completed attempt and then replaces the job file, each by a temporary file and a rename.
The two renames are two durable writes, and the guard in front of them refuses when the archive is there. A publisher
that is killed between them leaves a completed job beside the archive of its attempt, and from then on every
publication of the next attempt is refused (`Archived.stuck`). Wherever else a publisher is killed, the same call
succeeds afterwards, whatever other publishers did meanwhile: `Publishable` is what all of them keep.
-/

namespace OraclePatching.Queue

/-! ## The writes of a publication

A retry is published by four writes in a row. The number of those that were made before the crash is the point at
which the publisher was killed. -/

/-- One durable write of `publish_task`. Nobody reads a temporary file: `jobs/*.json` does not match its name. -/
inductive PublishWrite where
  | temporary
  | history (old : Job)
  | job (new : Job)

def QueueDir.exec (q : QueueDir) : PublishWrite → QueueDir
  | .temporary => q
  | .history old => archive q old
  | .job new => q.put new

/-- A call of `publish_task`, with its reading of the clock. -/
structure Publisher where
  planId : String
  taskId : String
  node : String
  adapter : String
  attempt : Int
  now : Int

def Publisher.checks (p : Publisher) : Ctl Unit := publishChecks p.planId p.taskId p.node p.adapter p.attempt

def Publisher.publication (p : Publisher) (q : QueueDir) : Ctl Publication :=
  Queue.publication q p.planId p.taskId p.node p.adapter p.attempt.toNat

def Publisher.publishTask (p : Publisher) (q : QueueDir) : QueueDir × Ctl Job :=
  Queue.publishTask q p.planId p.taskId p.node p.adapter p.attempt p.now

/-- The job file the call writes. -/
def Publisher.newJob (p : Publisher) (generation : Nat) : Job :=
  publishedJob p.planId p.taskId p.node p.adapter p.attempt.toNat generation p.now

/-- The writes of the call, in the order of the source. -/
def Publisher.writes (p : Publisher) (q : QueueDir) : List PublishWrite :=
  match p.checks, p.publication q with
  | .ok (), .ok .fresh => [.temporary, .job (p.newJob 0)]
  | .ok (), .ok (.retry old) => [.temporary, .history old, .temporary, .job (p.newJob old.claimGeneration)]
  | _, _ => []

/-- The queue a call leaves that is killed after `k` writes. -/
def Publisher.killed (p : Publisher) (q : QueueDir) (k : Nat) : QueueDir := ((p.writes q).take k).foldl QueueDir.exec q

def PublishWrite.archives : PublishWrite → Bool
  | .history _ => true
  | _ => false

def PublishWrite.publishes : PublishWrite → Bool
  | .job _ => true
  | _ => false

/-- The call is killed after the archive and before the job. -/
def Publisher.cut (p : Publisher) (q : QueueDir) (k : Nat) : Bool :=
  ((p.writes q).take k).any PublishWrite.archives && !((p.writes q).take k).any PublishWrite.publishes

/-! ## Publishers after the crash -/

/-- The queue that publishers leave one after the other, each killed after so many of its writes. -/
def publishers : List (Publisher × Nat) → QueueDir → QueueDir
  | [], q => q
  | (p, k) :: rest, q => publishers rest (p.killed q k)

/-- None of the publishers of this job is killed between its two renames. -/
def Uncut (jobId : String) : List (Publisher × Nat) → QueueDir → Prop
  | [], _ => True
  | (p, k) :: rest, q => ¬ (p.cut q k = true ∧ jobId = jobIdOf p.planId p.taskId) ∧ Uncut jobId rest (p.killed q k)

/-- No publisher of this job was killed between its two renames in the run. -/
def uncutStep (jobId : String) (_ : System) : Action → Prop
  | .killedPublish planId taskId .. => jobIdOf planId taskId ≠ jobId
  | _ => True

/-- The call is the publication of the next attempt of the job. -/
structure Publisher.Retries (p : Publisher) (old : Job) : Prop where
  plan : p.planId = old.planId
  task : p.taskId = old.taskId
  node : p.node = old.node
  adapter : p.adapter = old.adapter
  attempt : p.attempt = old.attempt + 1
  accepted : p.checks = .ok ()

/-- The call succeeds with a queued job of the next attempt under the old generation, and the only record of the old
    attempt is the job as it was completed. -/
def Republishes (q : QueueDir) (old : Job) (p : Publisher) : Prop :=
  ∃ job, (p.publishTask q).2 = .ok job ∧ (p.publishTask q).1.jobs.get? old.jobId = some job ∧
    job.status = .queued ∧ job.attempt = old.attempt + 1 ∧ job.claimGeneration = old.claimGeneration ∧
      ∀ r, (r ∈ (p.publishTask q).1.history ∧ r.jobId = old.jobId ∧ r.attempt = old.attempt) ↔ r = old

/-! ## What a publisher does

Each outcome of a publication, cut anywhere: nothing is changed, a job is added, or an attempt is archived and
perhaps replaced. -/

section
variable {q : QueueDir} {old : Job} {p : Publisher} {k : Nat}

/-- A call that carries out all its writes is not killed between its renames. -/
theorem Publisher.cut_whole (p : Publisher) (q : QueueDir) {k : Nat} (hk : 4 ≤ k) : p.cut q k = false := by
  have hlength : (p.writes q).length ≤ 4 := by
    unfold Publisher.writes
    split <;> simp
  unfold Publisher.cut
  rw [List.take_of_length_le (by omega)]
  unfold Publisher.writes
  split <;> rfl

/-- **What a publisher can do**, wherever it is killed: nothing, archive a completed job, and then publish. -/
theorem Publisher.killed_cases (p : Publisher) (q : QueueDir) (k : Nat) :
    (p.killed q k = q ∧ p.cut q k = false) ∨
    (p.publication q = .ok .fresh ∧ p.killed q k = q.put (p.newJob 0) ∧ p.cut q k = false) ∨
    (∃ other, p.publication q = .ok (.retry other) ∧ p.killed q k = archive q other ∧ p.cut q k = true) ∨
    (∃ other, p.publication q = .ok (.retry other) ∧
      p.killed q k = (archive q other).put (p.newJob other.claimGeneration) ∧ p.cut q k = false) := by
  unfold Publisher.killed Publisher.cut Publisher.writes
  split
  · rename_i hfound
    -- a new job: one rename
    match k with
    | 0 | 1 => exact .inl ⟨rfl, rfl⟩
    | n + 2 => exact .inr (.inl ⟨hfound, by simp [QueueDir.exec], by simp [PublishWrite.archives]⟩)
  · rename_i other _ hfound
    match k with
    | 0 | 1 => exact .inl ⟨rfl, rfl⟩
    | 2 | 3 => exact .inr (.inr (.inl ⟨other, hfound, rfl, rfl⟩))
    | n + 4 => exact .inr (.inr (.inr ⟨other, hfound, by simp [QueueDir.exec], by simp [PublishWrite.publishes]⟩))
  · exact .inl ⟨by rw [List.take_nil]; rfl, by rw [List.take_nil]; rfl⟩

/-- A fresh publication is of a job that is not there. -/
theorem Publisher.fresh (h : p.publication q = .ok .fresh) : q.jobs.get? (jobIdOf p.planId p.taskId) = none := by
  unfold Publisher.publication Queue.publication at h
  split at h
  · assumption
  · rw [ensure_bind_ok] at h
    obtain ⟨_, h⟩ := h
    split at h
    · exact absurd h (by simp)
    · simp [ensure_bind_ok] at h

/-- What a call makes sure of before it archives a job. -/
structure Publisher.Archives (p : Publisher) (q : QueueDir) (other : Job) : Prop where
  found : q.jobs.get? other.jobId = some other
  name : other.jobId = jobIdOf p.planId p.taskId
  completed : other.status = .completed
  plan : other.planId = p.planId
  task : other.taskId = p.taskId
  node : other.node = p.node
  adapter : other.adapter = p.adapter
  attempt : p.attempt.toNat = other.attempt + 1
  unarchived : q.history.get? (other.jobId, other.attempt) = none

/-- A retry archives the job that is there. -/
theorem Publisher.retry {other : Job} (h : p.publication q = .ok (.retry other)) : p.Archives q other := by
  obtain ⟨hmem, hid, hstatus, hplan, htask, hnode, hadapter, hattempt⟩ := publication_retry h
  have hname : other.jobId = jobIdOf p.planId p.taskId := by rw [hid, hplan, htask]
  have hnone : q.history.get? (other.jobId, other.attempt) = none := by
    unfold Publisher.publication Queue.publication at h
    split at h
    · exact absurd h (by simp)
    · rw [ensure_bind_ok] at h
      obtain ⟨_, h⟩ := h
      split at h
      · exact absurd h (by simp)
      · simp only [ensure_bind_ok, Except.ok.injEq, Publication.retry.injEq] at h
        obtain ⟨_, hnone, rfl⟩ := h
        exact Option.isNone_iff_eq_none.mp hnone
  exact ⟨Directory.get?_eq_some.mpr ⟨hmem, rfl⟩, hname, hstatus, hplan, htask, hnode, hadapter, hattempt, hnone⟩

/-! ## What publishers keep

A publisher touches the job of its own plan and task, and the archive of that job's attempt. A job is beside the
others' publications, and what it needs to be published again is kept. -/

/-- The next attempt can be published, or has been: the completed job is not archived yet, or it is archived and the
    job of the next attempt has taken its place. -/
inductive Publishable (old : Job) (q : QueueDir) : Prop
  | completed : q.jobs.get? old.jobId = some old → q.history.get? (old.jobId, old.attempt) = none →
      Publishable old q
  | published {job : Job} : q.jobs.get? old.jobId = some job → job.status = .queued → job.planId = old.planId →
      job.taskId = old.taskId → job.node = old.node → job.adapter = old.adapter → job.attempt = old.attempt + 1 →
      job.claimGeneration = old.claimGeneration → q.history.get? (old.jobId, old.attempt) = some old →
      Publishable old q

/-- The completed job stands beside the archive of its attempt. -/
structure Archived (old : Job) (q : QueueDir) : Prop where
  job : q.jobs.get? old.jobId = some old
  record : q.history.get? (old.jobId, old.attempt) = some old

theorem put_jobs_ne {other : Job} (hne : old.jobId ≠ other.jobId) :
    (q.put other).jobs.get? old.jobId = q.jobs.get? old.jobId := Directory.get?_put_ne _ hne

theorem archive_history_ne {other : Job} (hne : (old.jobId, old.attempt) ≠ (other.jobId, other.attempt)) :
    (archive q other).history.get? (old.jobId, old.attempt) = q.history.get? (old.jobId, old.attempt) :=
  Directory.get?_put_ne _ hne

/-- A publisher of another job leaves this one alone. -/
theorem killed_beside (hne : old.jobId ≠ jobIdOf p.planId p.taskId) :
    (p.killed q k).jobs.get? old.jobId = q.jobs.get? old.jobId ∧
      (p.killed q k).history.get? (old.jobId, old.attempt) = q.history.get? (old.jobId, old.attempt) := by
  rcases p.killed_cases q k with ⟨heq, -⟩ | ⟨-, heq, -⟩ | ⟨other, hfound, heq, -⟩ | ⟨other, hfound, heq, -⟩ <;> rw [heq]
  · exact ⟨rfl, rfl⟩
  · exact ⟨put_jobs_ne hne, rfl⟩
  · have hother := p.retry hfound
    refine ⟨rfl, archive_history_ne fun hkey => hne ?_⟩
    rw [(Prod.mk.inj hkey).1, hother.name]
  · have hother := p.retry hfound
    refine ⟨put_jobs_ne hne, archive_history_ne fun hkey => hne ?_⟩
    rw [(Prod.mk.inj hkey).1, hother.name]

/-- **A publisher that is not killed between its renames keeps the next attempt publishable.** -/
theorem Publishable.killed (h : Publishable old q)
    (hcut : ¬ (p.cut q k = true ∧ old.jobId = jobIdOf p.planId p.taskId)) : Publishable old (p.killed q k) := by
  by_cases hname : old.jobId = jobIdOf p.planId p.taskId
  · rcases p.killed_cases q k with
      ⟨heq, -⟩ | ⟨hfound, -, -⟩ | ⟨other, hfound, -, hcut'⟩ | ⟨other, hfound, heq, -⟩
    · rw [heq]
      exact h
    · have hnone := p.fresh hfound
      rw [← hname] at hnone
      cases h with
      | completed hjob _ => exact absurd (hjob.symm.trans hnone) (by simp)
      | published hjob _ _ _ _ _ _ _ _ => exact absurd (hjob.symm.trans hnone) (by simp)
    · exact absurd ⟨hcut', hname⟩ hcut
    · have hother := p.retry hfound
      have hid : other.jobId = old.jobId := hother.name.trans hname.symm
      rw [heq]
      cases h with
      | completed hjob _ =>
          -- this publisher publishes the next attempt
          obtain rfl : old = other := Option.some.inj (hjob.symm.trans (hid ▸ hother.found))
          refine .published (show _ = some (p.newJob old.claimGeneration) from ?_) rfl hother.plan.symm hother.task.symm
            hother.node.symm hother.adapter.symm hother.attempt rfl ?_
          · rw [hname]
            exact Directory.get?_put_self _ _
          · exact Directory.get?_put_self _ _
      | published hjob hqueued _ _ _ _ _ _ _ =>
          obtain rfl := Option.some.inj (hjob.symm.trans (hid ▸ hother.found))
          exact absurd (hother.completed.symm.trans hqueued) (by simp)
  · obtain ⟨hjobs, hhistory⟩ := @killed_beside q old p k hname
    cases h with
    | completed hjob hnone => exact .completed (hjobs.trans hjob) (hhistory.trans hnone)
    | published hjob hqueued hplan htask hnode hadapter hattempt hgeneration hrecord =>
        exact .published (hjobs.trans hjob) hqueued hplan htask hnode hadapter hattempt hgeneration
          (hhistory.trans hrecord)

/-- **Nothing that a publisher does ends this state.** -/
theorem Archived.killed (h : Archived old q) : Archived old (p.killed q k) := by
  by_cases hname : old.jobId = jobIdOf p.planId p.taskId
  · have hstuck : ∀ other, p.publication q ≠ .ok (.retry other) := by
      intro other hfound
      have hother := p.retry hfound
      have hid : other.jobId = old.jobId := hother.name.trans hname.symm
      obtain rfl : old = other := Option.some.inj (h.job.symm.trans (hid ▸ hother.found))
      exact absurd (h.record.symm.trans hother.unarchived) (by simp)
    rcases p.killed_cases q k with ⟨heq, -⟩ | ⟨hfound, -, -⟩ | ⟨other, hfound, -, -⟩ | ⟨other, hfound, -, -⟩
    · rw [heq]
      exact h
    · have hnone := p.fresh hfound
      rw [← hname] at hnone
      exact absurd (h.job.symm.trans hnone) (by simp)
    · exact absurd hfound (hstuck other)
    · exact absurd hfound (hstuck other)
  · obtain ⟨hjobs, hhistory⟩ := @killed_beside q old p k hname
    exact ⟨hjobs.trans h.job, hhistory.trans h.record⟩

/-- An archived attempt stays in the way. -/
theorem Archived.publishers {others : List (Publisher × Nat)} (h : Archived old q) :
    Archived old (publishers others q) := by
  induction others generalizing q with
  | nil => exact h
  | cons first rest ih => exact ih h.killed

/-- **The kill that matters**: the job is archived and still there. -/
theorem Publishable.cut (h : Publishable old q) (hname : old.jobId = jobIdOf p.planId p.taskId)
    (hcut : p.cut q k = true) : Archived old (p.killed q k) := by
  rcases p.killed_cases q k with ⟨-, hno⟩ | ⟨-, -, hno⟩ | ⟨other, hfound, heq, -⟩ | ⟨other, -, -, hno⟩
  · exact absurd (hcut.symm.trans hno) (by simp)
  · exact absurd (hcut.symm.trans hno) (by simp)
  · have hother := p.retry hfound
    have hid : other.jobId = old.jobId := hother.name.trans hname.symm
    rw [heq]
    cases h with
    | completed hjob _ =>
        obtain rfl : old = other := Option.some.inj (hjob.symm.trans (hid ▸ hother.found))
        exact ⟨hjob, Directory.get?_put_self _ _⟩
    | published hjob hqueued _ _ _ _ _ _ _ =>
        obtain rfl := Option.some.inj (hjob.symm.trans (hid ▸ hother.found))
        exact absurd (hother.completed.symm.trans hqueued) (by simp)
  · exact absurd (hcut.symm.trans hno) (by simp)

/-- What any number of publishers leave, killed or not. -/
theorem Publishable.publishers {others : List (Publisher × Nat)} (h : Publishable old q) :
    (Uncut old.jobId others q ∧ Publishable old (publishers others q)) ∨
      (¬ Uncut old.jobId others q ∧ Archived old (Queue.publishers others q)) := by
  induction others generalizing q with
  | nil => exact .inl ⟨trivial, h⟩
  | cons first rest ih =>
      obtain ⟨p, k⟩ := first
      by_cases hcut : p.cut q k = true ∧ old.jobId = jobIdOf p.planId p.taskId
      · exact .inr ⟨fun huncut => huncut.1 hcut, (h.cut hcut.2 hcut.1).publishers⟩
      · rcases ih (h.killed hcut) with ⟨hrest, hq⟩ | ⟨hrest, hq⟩
        · exact .inl ⟨⟨hcut, hrest⟩, hq⟩
        · exact .inr ⟨fun huncut => hrest huncut.2, hq⟩

/-! ## The same call again

The retry that follows the crash finds either the job in the state it needs, or an archive that it refuses to
overwrite. -/

/-- What the call finds when the job of its name is its own. -/
theorem Publisher.Retries.publication {job : Job} (hp : p.Retries old) (hname : old.jobId = jobIdOf old.planId old.taskId)
    (hjob : q.jobs.get? old.jobId = some job) (hplan : job.planId = old.planId) (htask : job.taskId = old.taskId)
    (hnode : job.node = old.node) (hadapter : job.adapter = old.adapter) :
    p.publication q = if job.attempt = old.attempt + 1 then .ok (.kept job) else (do
      ensure (job.status = .completed ∧ old.attempt + 1 = job.attempt + 1) 409
        "reconcile previous attempt before publishing a retry"
      ensure ((q.history.get? (job.jobId, job.attempt)).isNone = true) 409 "queue attempt history already exists"
      .ok (.retry job)) := by
  have hattempt : p.attempt.toNat = old.attempt + 1 := by
    rw [hp.attempt]
    omega
  unfold Publisher.publication Queue.publication
  rw [hp.plan, hp.task, ← hname, hjob, hattempt, hp.node, hp.adapter]
  show (do
    ensure (job.node = old.node ∧ job.adapter = old.adapter ∧ job.planId = old.planId ∧ job.taskId = old.taskId) 409
      "existing job cannot be rebound"
    _ : Ctl Publication) = _
  rw [ensure, if_pos ⟨hnode, hadapter, hplan, htask⟩]
  rfl

/-- Without such a kill the call succeeds. -/
theorem Publishable.republishes (h : Publishable old q) (hp : p.Retries old) (hdone : old.status = .completed)
    (hname : old.jobId = jobIdOf old.planId old.taskId) : Republishes q old p := by
  have hchecks : publishChecks p.planId p.taskId p.node p.adapter p.attempt = .ok () := hp.accepted
  cases h with
  | completed hjob hnone =>
      -- the attempt is completed and not archived: it is archived now, and the next one takes its name
      have hfound := hp.publication hname hjob rfl rfl rfl rfl
      rw [if_neg (by omega)] at hfound
      simp only [hdone, hnone, ensure, Option.isNone_none, and_self, if_true] at hfound
      have hrun : p.publishTask q = ((archive q old).put (p.newJob old.claimGeneration), .ok (p.newJob old.claimGeneration)) := by
        unfold Publisher.publishTask Queue.publishTask checked
        rw [hchecks]
        unfold Publisher.publication at hfound
        rw [hfound]
        rfl
      have hid : (p.newJob old.claimGeneration).jobId = old.jobId := by
        rw [hname, ← hp.plan, ← hp.task]
        rfl
      have hattempt : p.attempt.toNat = old.attempt + 1 := by
        rw [hp.attempt]
        omega
      refine ⟨p.newJob old.claimGeneration, by rw [hrun], ?_, rfl, hattempt, rfl, ?_⟩
      · rw [hrun, ← hid]
        exact Directory.get?_put_self _ _
      · intro r
        rw [hrun]
        show (r ∈ (q.history.put old) ∧ _) ↔ _
        rw [Directory.mem_put]
        constructor
        -- the archive holds one record under this name and attempt, the old job
        · rintro ⟨rfl | ⟨-, hne⟩, hrid, hrattempt⟩
          · rfl
          · exact absurd (Prod.ext hrid hrattempt) hne
        · rintro rfl
          exact ⟨.inl rfl, rfl, rfl⟩
  | @published job hjob hqueued hplan htask hnode hadapter hattempt hgeneration hrecord =>
      -- the next attempt is queued already, and the publication answers with it
      have hfound := hp.publication hname hjob hplan htask hnode hadapter
      rw [if_pos hattempt] at hfound
      have hrun : p.publishTask q = (q, .ok job) := by
        unfold Publisher.publishTask Queue.publishTask checked
        rw [hchecks]
        unfold Publisher.publication at hfound
        rw [hfound]
      refine ⟨job, by rw [hrun], by rw [hrun]; exact hjob, hqueued, hattempt, hgeneration, ?_⟩
      intro r
      rw [hrun]
      obtain ⟨hmem, -⟩ := Directory.get?_eq_some.mp hrecord
      constructor
      · rintro ⟨hr, hrid, hrattempt⟩
        exact Directory.eq_of_key hr hmem (Prod.ext hrid hrattempt)
      · rintro rfl
        exact ⟨hmem, rfl, rfl⟩

/-- **Beside the archive of its attempt a completed job is never followed by another attempt.** -/
theorem Archived.stuck (h : Archived old q) (hp : p.Retries old)
    (hname : old.jobId = jobIdOf old.planId old.taskId) : ¬ Republishes q old p := by
  rintro ⟨job, hok, -⟩
  have hfound := hp.publication hname h.job rfl rfl rfl rfl
  rw [if_neg (by omega)] at hfound
  have herror : ∀ found, p.publication q ≠ .ok found := by
    intro found hok
    rw [hfound, ensure_bind_ok, ensure_bind_ok, h.record] at hok
    exact absurd hok.2.1 (by simp)
  unfold Publisher.publishTask Queue.publishTask checked at hok
  unfold Publisher.publication at herror
  split at hok
  · exact absurd hok (by simp)
  · split at hok
    · exact absurd hok (by simp)
    all_goals
      rename_i hf
      exact absurd hf (herror _)

end

/-! ## The queue of a run without such a kill

An archive of the current attempt is made by a publication that was cut. A run in which no publisher of the job was
cut has none, so its completed job can be published again. -/

section
variable {cfg : Config} {sha256 : String → Digest} {testMode : Bool} {jobs jobs' : Jobs} {calls : List Call} {job : Job}
  {grant : Option Claim} {q : QueueDir}

/-- A job file keeps the name of its task, and the attempts of this job are archived behind it. -/
structure Retained (jobId : String) (q : QueueDir) : Prop where
  name : ∀ job ∈ q.jobs, job.jobId = jobIdOf job.planId job.taskId
  behind : ∀ r ∈ q.history, r.jobId = jobId → ∃ job ∈ q.jobs, job.jobId = jobId ∧ r.attempt < job.attempt

theorem Job.expire_attempt (now : Int) (job : Job) : (job.expire now).attempt = job.attempt := by
  unfold Job.expire
  split <;> rfl

/-- Every write keeps the name of the task. -/
theorem Written.name (h : Written sha256 testMode jobs calls job grant)
    (hname : ∀ job ∈ jobs, job.jobId = jobIdOf job.planId job.taskId) :
    job.jobId = jobIdOf job.planId job.taskId := by
  have hover : ∀ {old : Job}, old ∈ jobs → old.jobId = job.jobId → job.jobId = jobIdOf job.planId job.taskId := by
    intro old hold hid
    have hsame := h.sameTask hold hid
    rw [hsame.plan, hsame.task, ← hid]
    exact hname old hold
  cases h with
  | fresh _ => rfl
  | retried _ _ _ => rfl
  | claimed hmem _ => exact hover hmem rfl
  | @expired old now hmem _ => exact hover hmem (Job.expire_jobId now old).symm
  | extended hmem _ => exact hover hmem rfl
  | unreconciled hmem _ => exact hover hmem rfl
  | deferred hmem _ _ _ _ => exact hover hmem rfl
  | completed hmem _ _ _ _ _ => exact hover hmem rfl
  | reconciled hmem _ _ _ _ _ _ => exact hover hmem rfl

/-- No write takes a job back to an earlier attempt. -/
theorem Written.attempt_le (h : Written sha256 testMode jobs calls job grant) {old : Job} (hold : old ∈ jobs)
    (hid : old.jobId = job.jobId) : old.attempt ≤ job.attempt := by
  have hsame : ∀ {other : Job}, other ∈ jobs → other.jobId = job.jobId → other = old :=
    fun hother hoid => Directory.eq_of_key hother hold (hoid.trans hid.symm)
  cases h with
  | fresh hnone => exact absurd hid (Directory.get?_eq_none.mp hnone old hold)
  | retried hmem hname _ =>
      have heq := hsame hmem hname
      show old.attempt ≤ _ + 1
      rw [heq]
      omega
  | claimed hmem _ => exact hsame hmem rfl ▸ Nat.le_refl _
  | @expired other now hmem _ =>
      rw [hsame hmem (Job.expire_jobId now other).symm, Job.expire_attempt]
  | extended hmem _ => exact hsame hmem rfl ▸ Nat.le_refl _
  | unreconciled hmem _ => exact hsame hmem rfl ▸ Nat.le_refl _
  | deferred hmem _ _ _ _ => exact hsame hmem rfl ▸ Nat.le_refl _
  | completed hmem _ _ _ _ _ => exact hsame hmem rfl ▸ Nat.le_refl _
  | reconciled hmem _ _ _ _ _ _ => exact hsame hmem rfl ▸ Nat.le_refl _

/-- A job is kept under the name of its plan and task. -/
theorem Change.name (h : Change sha256 testMode jobs calls jobs' grant)
    (hname : ∀ job ∈ jobs, job.jobId = jobIdOf job.planId job.taskId) :
    ∀ job ∈ jobs', job.jobId = jobIdOf job.planId job.taskId := by
  refine h.invariant (fun jobs _ => ∀ job ∈ jobs, job.jobId = jobIdOf job.planId job.taskId) [] hname
    (fun reached now => ?_) ?_
  · intro job hjob
    obtain ⟨old, hold, rfl⟩ := Directory.mem_modify.mp hjob
    have hsame := SameTask.sweep reached now old
    rw [hsame.plan, hsame.task, Job.sweep_jobId]
    exact hname old hold
  · intro jobs new hnames hw job hjob
    rcases Directory.mem_put.mp hjob with rfl | ⟨hjob, -⟩
    · exact hw.name hnames
    · exact hnames job hjob

theorem Change.attempt_le (h : Change sha256 testMode jobs calls jobs' grant) {old : Job} (hold : old ∈ jobs) :
    ∃ job ∈ jobs', job.jobId = old.jobId ∧ old.attempt ≤ job.attempt := by
  refine h.invariant (fun jobs _ => ∃ job ∈ jobs, job.jobId = old.jobId ∧ old.attempt ≤ job.attempt) []
    ⟨old, hold, rfl, Nat.le_refl _⟩ (fun reached now => ?_) ?_
  · refine ⟨_, Directory.mem_modify.mpr ⟨old, hold, rfl⟩, Job.sweep_jobId reached now old, ?_⟩
    unfold Job.sweep
    split
    · rw [Job.expire_attempt]
    · exact Nat.le_refl _
  · rintro jobs new ⟨job, hjob, hid, hle⟩ hw
    by_cases hnew : job.jobId = new.jobId
    · exact ⟨new, Directory.mem_put_self jobs new, hnew.symm.trans hid, hle.trans (hw.attempt_le hjob hnew)⟩
    · exact ⟨job, Directory.mem_put.mpr (.inr ⟨hjob, hnew⟩), hid, hle⟩

theorem owned_history (sha256 : String → Digest) (q : QueueDir) (jobId : String) (cred : Credentials) (now : Int) :
    (owned sha256 q jobId cred now).1.history = q.history := by
  rcases owned_cases sha256 q jobId cred now with ⟨e, heq⟩ | ⟨job, _, e, _, _, _, heq⟩ | ⟨job, _, _, _, heq⟩ <;> rw [heq]
  rfl

theorem ownedUpdate_history (sha256 : String → Digest) (q : QueueDir) (jobId : String) (cred : Credentials) (now : Int)
    (update : Job → Job) : (ownedUpdate sha256 q jobId cred now update).1.history = q.history := by
  rcases ownedUpdate_cases sha256 q jobId cred now update with
    ⟨e, heq⟩ | ⟨job, _, e, _, _, _, heq⟩ | ⟨job, _, _, _, heq⟩ <;> rw [heq] <;> rfl

theorem openCall_history (sha256 : String → Digest) (q : QueueDir) (operation : Operation) (jobId : String) (now : Int) :
    (openCall sha256 q operation jobId now).1.history = q.history := by
  unfold openCall
  split
  · exact owned_history ..
  · exact owned_history ..
  · split
    · rfl
    · dsimp only
      split <;> split <;> rfl

theorem closeCall_history (sha256 : String → Digest) (q : QueueDir) (call : Call) (now now' : Int) :
    (closeCall sha256 q call now now').1.history = q.history := by
  unfold closeCall
  split
  · exact ownedUpdate_history ..
  · exact ownedUpdate_history ..
  · split
    · rfl
    · split <;> rfl
  · rfl

/-- A publication archives the attempt it replaces, and no other. -/
theorem publishTask_history (q : QueueDir) (planId taskId node adapter : String) (attempt now : Int) :
    (publishTask q planId taskId node adapter attempt now).1.history = q.history ∨
    ∃ old ∈ q.jobs, ∃ new : Job, new.jobId = old.jobId ∧ new.attempt = old.attempt + 1 ∧
      (publishTask q planId taskId node adapter attempt now).1 = (archive q old).put new := by
  unfold publishTask
  rcases checked_cases (publishChecks planId taskId node adapter attempt) q _ with ⟨e, heq⟩ | ⟨_, heq⟩ <;> rw [heq]
  · exact .inl rfl
  · split
    · exact .inl rfl
    · exact .inl rfl
    · exact .inl rfl
    · rename_i old hfound
      obtain ⟨hmem, hid, -, hplan, htask, -, -, hattempt⟩ := publication_retry hfound
      refine .inr ⟨old, hmem, _, ?_, hattempt, rfl⟩
      rw [hid, hplan, htask]
      rfl

/-- **Only a publication writes the history**: it archives a completed job and puts the next attempt in its place,
    unless it is killed in between. -/
theorem step_history (s : System) (a : Action) :
    (step cfg sha256 testMode s a).queue.history = s.queue.history ∨
    (∃ old ∈ s.queue.jobs, ∃ new : Job, new.jobId = old.jobId ∧ new.attempt = old.attempt + 1 ∧
      (step cfg sha256 testMode s a).queue = (archive s.queue old).put new) ∨
    ∃ planId taskId node adapter attempt, a = .killedPublish planId taskId node adapter attempt ∧
      ∃ old ∈ s.queue.jobs, old.jobId = jobIdOf planId taskId ∧
        (step cfg sha256 testMode s a).queue = archive s.queue old := by
  cases a with
  | plans plans => exact .inl rfl
  | publish planId taskId node adapter attempt now =>
      exact (publishTask_history s.queue planId taskId node adapter attempt now).imp_right .inl
  | killedPublish planId taskId node adapter attempt =>
      -- killed between the archive and the new job: only the archive is there
      simp only [step]
      split
      · rename_i old hfound
        obtain ⟨hmem, hid, -, hplan, htask, -⟩ := publication_retry hfound
        exact .inr (.inr ⟨planId, taskId, node, adapter, attempt, rfl, old, hmem, by rw [hid, hplan, htask], rfl⟩)
      · exact .inl rfl
  | claim node agent lease enrolled token now =>
      -- the owners' calls write job files, never the history
      refine .inl ?_
      rcases claim_cases sha256 s.queue node agent lease enrolled token now with
        ⟨e, heq⟩ | ⟨r, hr, heq⟩ | ⟨job, _, _, heq⟩ <;> simp only [step, heq]
  | killedSweep reached now => exact .inl rfl
  | extend jobId cred seconds now now' =>
      refine .inl ?_
      simp only [step, extendLease]
      rcases checked_cases (ensure (30 ≤ seconds ∧ seconds ≤ 3600) 400 "seconds must be between 30 and 3600")
        s.queue (ownedUpdate sha256 s.queue jobId cred now (extendedJob seconds now')) with
        ⟨e, heq⟩ | ⟨_, heq⟩ <;> rw [heq]
      exact ownedUpdate_history ..
  | unreconcile jobId cred reason now now' => exact .inl (ownedUpdate_history ..)
  | openCall operation jobId now =>
      have h := openCall_history sha256 s.queue operation jobId now
      refine .inl ?_
      simp only [step]
      split
      · rename_i heq
        rw [heq] at h
        exact h
      · rename_i heq
        rw [heq] at h
        exact h
  | verify index =>
      refine .inl ?_
      simp only [step]
      split
      · rfl
      · split_ifs
        · rfl
        · split <;> rfl
  | close index now now' =>
      refine .inl ?_
      simp only [step]
      split
      · rfl
      · split_ifs
        · exact closeCall_history ..
        · rfl

/-- **Nothing is archived before its successor is published**, in a run where no publisher of the job is killed between
    its renames. -/
theorem retained_reached {jobId : String} {as : List Action} {s : System}
    (h : Reached cfg sha256 testMode (uncutStep jobId) as s) : Retained jobId s.queue := by
  refine Trace.Run.invariant (I := fun _ s => Retained jobId s.queue) ?_ ?_ h
  · rintro s ⟨hjobs, hhistory, -, -⟩
    refine ⟨fun job hjob => ?_, fun r hr => ?_⟩
    · rw [hjobs] at hjob
      exact absurd hjob (Directory.not_mem_empty job)
    · rw [hhistory] at hr
      exact absurd hr (Directory.not_mem_empty r)
  · rintro - s a _ - hI ha ⟨⟩
    obtain ⟨grant, hchange, -, -⟩ := step_change cfg sha256 testMode s a
    refine ⟨hchange.name hI.name, fun r hr hrid => ?_⟩
    rcases @step_history cfg sha256 testMode s a with
      hsame | ⟨old, hold, new, hid, hattempt, heq⟩ | ⟨planId, taskId, node, adapter, attempt, rfl, old, -, hid, heq⟩
    · rw [hsame] at hr
      obtain ⟨job, hjob, hjid, hlt⟩ := hI.behind r hr hrid
      obtain ⟨job', hjob', hid', hle⟩ := hchange.attempt_le hjob
      exact ⟨job', hjob', hid'.trans hjid, by omega⟩
    · rw [heq] at hr ⊢
      rcases Directory.mem_put.mp hr with rfl | ⟨hr, -⟩
      · -- the archived job lies behind the one that took its place
        exact ⟨new, Directory.mem_put_self _ _, hid.trans hrid, by omega⟩
      · obtain ⟨job, hjob, hjid, hlt⟩ := hI.behind r hr hrid
        by_cases hnew : job.jobId = new.jobId
        · obtain rfl : job = old := Directory.eq_of_key hjob hold (hnew.trans hid)
          exact ⟨new, Directory.mem_put_self _ _, hid.trans hjid, by omega⟩
        · exact ⟨job, Directory.mem_put.mpr (.inr ⟨hjob, hnew⟩), hjid, hlt⟩
    · -- a publisher of another job is killed
      rw [heq] at hr ⊢
      rcases Directory.mem_put.mp hr with rfl | ⟨hr, -⟩
      · exact absurd (hid.symm.trans hrid) ha
      · exact hI.behind r hr hrid

/-- The completed job of such a run can be published again. -/
theorem Retained.publishable {old : Job} (h : Retained old.jobId q) (hold : old ∈ q.jobs) : Publishable old q := by
  refine .completed (Directory.get?_eq_some.mpr ⟨hold, rfl⟩) (Directory.get?_eq_none.mpr fun r hr hkey => ?_)
  obtain ⟨hrid, hrattempt⟩ := Prod.mk.inj hkey
  obtain ⟨job, hjob, hid, hlt⟩ := h.behind r hr hrid
  obtain rfl : job = old := Directory.eq_of_key hjob hold hid
  omega

end

/-- **Publishing a retry again.** In any run without such a kill of this job before, let the publication of the next attempt of a
    completed job be killed anywhere, and other publishers be killed anywhere after it. Then the same call succeeds, with
    the job as it was completed for the only record of its attempt, exactly if none of them was killed after the
    archive of this job and before its new file. -/
theorem retry_publication {cfg : Config} {sha256 : String → Digest} {testMode : Bool} {as : List Action} {s : System}
    {old : Job} (h : Reached cfg sha256 testMode (uncutStep old.jobId) as s) (hold : old ∈ s.queue.jobs)
    (hdone : old.status = .completed) {p : Publisher} (hp : p.Retries old) (k : Nat) (others : List (Publisher × Nat))
    (now : Int) :
    Republishes (publishers ((p, k) :: others) s.queue) old { p with now := now } ↔
      Uncut old.jobId ((p, k) :: others) s.queue := by
  have hretained := retained_reached h
  have hname := hretained.name old hold
  have hagain : Publisher.Retries { p with now := now } old := ⟨hp.plan, hp.task, hp.node, hp.adapter, hp.attempt, hp.accepted⟩
  have hpublishers := @Publishable.publishers s.queue old ((p, k) :: others) (hretained.publishable hold)
  rcases hpublishers with ⟨huncut, hq⟩ | ⟨hcut, hq⟩
  · exact ⟨fun _ => huncut, fun _ => hq.republishes hagain hdone hname⟩
  · exact ⟨fun hrep => absurd hrep (hq.stuck hagain hname), fun huncut => absurd huncut hcut⟩

/-- The first task of `p1` has failed under its controller. -/
def failedPlans : Store := OraclePatching.replay lab
  (labDispatched ++ [labClaim 1 "dee", labComplete 1 "dee" .failed 0])

/-- The agent that worked on it completes the queue's job. -/
def failedQueue : List Action :=
  [.plans failedPlans, .publish "p1" (labTask 1).1 "n1" labPlan.adapter.text 0 1000,
    .claim "n1" "agent1" 120 true "first" 1010,
    .openCall (.complete ⟨"agent1", some "first", true⟩ []) (jobIdOf "p1" (labTask 1).1) 1020,
    .verify 0, .close 0 1021 1021]

def labSystem : System := replay lab (fun token => checksum [token]) false failedQueue

/-- The publication of its second attempt. -/
def labPublisher : Publisher := ⟨"p1", (labTask 1).1, "n1", labPlan.adapter.text, 1, 2000⟩

/-- The failed queue is reached by a run without such a kill. -/
theorem labSystem_reached (jobId : String) :
    Reached lab (fun token => checksum [token]) false (uncutStep jobId) failedQueue labSystem := by
  refine replay_reached fun pre a hpre => ?_
  have ha : a ∈ failedQueue := hpre.subset (List.mem_append_right pre List.mem_cons_self)
  simp only [failedQueue, List.mem_cons, List.not_mem_nil, or_false] at ha
  rcases ha with rfl | rfl | rfl | rfl | rfl | rfl <;> trivial

/-- Its job is completed, and a publisher of its retry can be cut. -/
theorem labSystem_job : ∃ old, labSystem.queue.jobs.files = [old] ∧ old.status = .completed ∧
    labPublisher.Retries old ∧ labPublisher.cut labSystem.queue 2 = true := by
  have hrun : labSystem.queue.jobs.files.map
        (fun job => (job.status, job.planId, job.taskId, job.node, job.adapter, job.attempt)) =
      [(.completed, labPublisher.planId, labPublisher.taskId, labPublisher.node, labPublisher.adapter, 0)] ∧
        labPublisher.cut labSystem.queue 2 = true := by decide +kernel
  obtain ⟨hfiles, hcut⟩ := hrun
  match hjobs : labSystem.queue.jobs.files with
  | [] => rw [hjobs] at hfiles; exact absurd hfiles (by simp)
  | _ :: _ :: _ => rw [hjobs] at hfiles; exact absurd hfiles (by simp)
  | [old] =>
      rw [hjobs] at hfiles
      simp only [List.map_cons, List.map_nil, List.cons.injEq, Prod.mk.injEq, and_true] at hfiles
      obtain ⟨hstatus, hplan, htask, hnode, hadapter, hattempt⟩ := hfiles
      exact ⟨old, rfl, hstatus, ⟨hplan.symm, htask.symm, hnode.symm, hadapter.symm, by rw [hattempt]; rfl, rfl⟩, hcut⟩

/-- The law at a publisher that makes its four writes. -/
theorem retry_publication_whole :
    ∃ old ∈ labSystem.queue.jobs, Republishes (publishers [(labPublisher, 4)] labSystem.queue) old labPublisher := by
  obtain ⟨old, hjobs, hdone, hretries, -⟩ := labSystem_job
  have hold : old ∈ labSystem.queue.jobs := Directory.mem_def.mpr (hjobs ▸ List.mem_cons_self)
  have huncut : Uncut old.jobId [(labPublisher, 4)] labSystem.queue :=
    ⟨fun hcut => absurd (hcut.1.symm.trans (labPublisher.cut_whole _ (Nat.le_refl 4))) (by simp), trivial⟩
  exact ⟨old, hold, (retry_publication (labSystem_reached old.jobId) hold hdone hretries 4 [] 2000).mpr huncut⟩

/-- Killed between its renames, the publication can never be repeated, whatever other publishers do. -/
theorem retry_lost : ∃ old ∈ labSystem.queue.jobs, old.status = .completed ∧ labPublisher.Retries old ∧
    ∀ others now, ¬ Republishes (publishers others (labPublisher.killed labSystem.queue 2)) old
      { labPublisher with now := now } := by
  obtain ⟨old, hjobs, hdone, hretries, hcut⟩ := labSystem_job
  have hold : old ∈ labSystem.queue.jobs := Directory.mem_def.mpr (hjobs ▸ List.mem_cons_self)
  have hretained := retained_reached (labSystem_reached old.jobId)
  have hname := hretained.name old hold
  refine ⟨old, hold, hdone, hretries, fun others now => ?_⟩
  have harchived := (hretained.publishable hold).cut (by rw [hname, ← hretries.plan, ← hretries.task]) hcut
  exact harchived.publishers.stuck ⟨hretries.plan, hretries.task, hretries.node, hretries.adapter, hretries.attempt,
    hretries.accepted⟩ hname

end OraclePatching.Queue
