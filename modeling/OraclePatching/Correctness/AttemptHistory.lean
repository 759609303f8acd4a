import OraclePatching.Correctness.SerialOrder

/-!
# `Correctness.AttemptHistory` — one result for each attempt, and nothing sealed is lost

A task file shows its current attempt only, so the statements here are about a store together with the record of
granted claims and sealed results. `Chronicle` relates the two for one plan: a running task was claimed in its
generation, a recorded result belongs to an attempt that is over, and every attempt before the current one is in the
archive. Evidence and archive are append-only (`Effect.keeps`): `complete` refuses a custody directory that exists,
and `retry-task` archives under the generation it leaves.
-/

namespace OraclePatching

/-! ## Names of custody directories

The name of a directory is made of the task and the attempt. Two attempts never share one, within a plan whose
tasks are numbered. -/

theorem custodyLeaf_toList (taskId : String) (retry : Nat) :
    ∃ suffix, (custodyLeaf taskId retry).toList = taskId.toList ++ suffix := by
  unfold custodyLeaf
  split
  · exact ⟨[], (List.append_nil _).symm⟩
  · exact ⟨("-retry" ++ toString retry).toList, by rw [String.append_assoc, String.toList_append]⟩

/-- The number of a task ID can be read off its custody directories. -/
theorem taskNumber_custodyLeaf {taskId : String} (hdash : '-' ∈ taskId.toList) (retry : Nat) :
    taskNumber (custodyLeaf taskId retry) = taskNumber taskId := by
  obtain ⟨suffix, h⟩ := custodyLeaf_toList taskId retry
  rw [taskNumber, h, taskNumber, List.takeWhile_append, if_neg]
  intro hlen
  have hall := (List.takeWhile_prefix (l := taskId.toList) (· != '-')).eq_of_length hlen
  rw [← hall] at hdash
  have := List.mem_takeWhile_imp hdash
  simp at this

/-- Two numbers are written in two ways. -/
theorem toString_nat_injective {m n : Nat} (h : toString m = toString n) : m = n := by
  have hdigits : Nat.toDigits 10 m = Nat.toDigits 10 n := String.ofList_injective h
  rw [← Nat.ofDigitChars_ten_toDigits (n := m), hdigits, Nat.ofDigitChars_ten_toDigits]

/-- Two attempts of a task have two leaves. -/
theorem custodyLeaf_injective {taskId : String} {m n : Nat} (h : custodyLeaf taskId m = custodyLeaf taskId n) :
    m = n := by
  have hleaf : ∀ k, custodyLeaf taskId k = taskId ++ (if k = 0 then "" else "-retry" ++ toString k) := fun k => by
    unfold custodyLeaf
    split
    · rw [String.append_empty]
    · rw [String.append_assoc]
  have hne : ∀ k : Nat, "-retry" ++ toString k ≠ "" := fun k hk => by
    have := congrArg String.toList hk
    rw [String.toList_append] at this
    exact absurd this (by simp)
  rw [hleaf, hleaf] at h
  have hsuffix := String.append_right_inj taskId |>.mp h
  by_cases hm : m = 0 <;> by_cases hn : n = 0
  · rw [hm, hn]
  · rw [if_pos hm, if_neg hn] at hsuffix
    exact absurd hsuffix.symm (hne n)
  · rw [if_neg hm, if_pos hn] at hsuffix
    exact absurd hsuffix (hne m)
  · rw [if_neg hm, if_neg hn] at hsuffix
    exact toString_nat_injective (String.append_right_inj _ |>.mp hsuffix)

/-- **Attempts of one plan have custody directories of their own.** -/
theorem custodyLeaf_distinct {ids : List String} (hnumbers : (ids.map taskNumber).Nodup)
    (hdash : ∀ id ∈ ids, '-' ∈ id.toList) {a b : String} (ha : a ∈ ids) (hb : b ∈ ids) {m n : Nat}
    (h : custodyLeaf a m = custodyLeaf b n) : a = b ∧ m = n := by
  have hnum : taskNumber a = taskNumber b := by
    rw [← taskNumber_custodyLeaf (hdash a ha) m, h, taskNumber_custodyLeaf (hdash b hb)]
  obtain rfl := Frontier.eq_of_key hnumbers ha hb hnum
  exact ⟨rfl, custodyLeaf_injective h⟩

/-! ## Append-only stores

Evidence and archived attempts are added and never changed. That is all the history needs to know of a command. -/

/-- Nothing sealed in the evidence and attempt directories is missing or different in `d'`. -/
def Keeps (d d' : PlanDir) : Prop :=
  (∀ leaf dir, d.evidence leaf = some dir → d'.evidence leaf = some dir) ∧
    ∀ taskId n a, d.attempts taskId n = some a → d'.attempts taskId n = some a

theorem Keeps.of_eq {d d' : PlanDir} (hevidence : d'.evidence = d.evidence) (hattempts : d'.attempts = d.attempts) :
    Keeps d d' :=
  ⟨fun _ _ h => hevidence ▸ h, fun _ _ _ h => hattempts ▸ h⟩

theorem Keeps.trans {d₁ d₂ d₃ : PlanDir} (h : Keeps d₁ d₂) (h' : Keeps d₂ d₃) : Keeps d₁ d₃ :=
  ⟨fun leaf dir he => h'.1 leaf dir (h.1 leaf dir he), fun taskId n a ha => h'.2 taskId n a (h.2 taskId n a ha)⟩

theorem keeps_putCustody {d : PlanDir} {leaf : String} {dir : CustodyDir} (h : d.evidence leaf = none) :
    Keeps d (d.putCustody leaf dir) := by
  refine ⟨fun l old hl => ?_, fun _ _ _ ha => ha⟩
  have hne : l ≠ leaf := fun he => by
    rw [he, h] at hl
    exact absurd hl (by simp)
  show (if l = leaf then some dir else d.evidence l) = some old
  rw [if_neg hne, hl]

theorem keeps_putAttempt {d : PlanDir} {taskId : String} {n : Nat} {t : Task}
    (h : d.attempts taskId n = none ∨ d.attempts taskId n = some t) : Keeps d (d.putAttempt taskId n t) := by
  refine ⟨fun _ _ he => he, fun id m a ha => ?_⟩
  show (if id = taskId ∧ m = n then some t else d.attempts id m) = some a
  split
  · rename_i heq
    obtain ⟨rfl, rfl⟩ := heq
    rcases h with h | h <;> rw [ha] at h
    · exact absurd h (by simp)
    · exact h.symm
  · exact ha

/-- A custody directory is new when it is put in place. -/
theorem custodyExecutionEvidence_fresh {cfg : Config} {w : World} {id taskId evidenceFile : String}
    {e : ExecutionEvidence} {retry : Nat} {d : PlanDir} {c : Custodied}
    (h : custodyExecutionEvidence cfg w id taskId evidenceFile e retry d = .ok c) :
    c.leaf = custodyLeaf taskId retry ∧ d.evidence c.leaf = none := by
  simp only [custodyExecutionEvidence, bind_ok, ensure_ok, Except.ok.injEq] at h
  obtain ⟨_, hnone, _, _, _, _, rfl⟩ := h
  exact ⟨rfl, by simpa using hnone⟩

/-- The end of a completion changes neither tasks nor archives. -/
theorem Concluded.same {d d' : PlanDir} {taskId actor : String} {status : TaskStatus} {late : Bool}
    (h : Concluded d taskId actor status late d') :
    d'.tasks = d.tasks ∧ d'.attempts = d.attempts ∧ d'.evidence = d.evidence := by
  cases h <;> exact ⟨rfl, rfl, rfl⟩

section
variable {cfg : Config} {s : Store} {i : Invocation} {d d' : PlanDir}

/-- **Step lemma.** No command touches a sealed custody directory or an archived attempt. -/
theorem Effect.keeps (hd : s.plans.lookup i.id = some d) (h : Effect cfg s i d') : Keeps d d' := by
  have hsame : ∀ {e : PlanDir}, verifyPlan cfg s i.id = .ok e → e = d := fun he =>
    Option.some.inj ((verifyPlan_ok.mp he).1.symm.trans hd)
  cases h with
  | created hcreate => exact absurd (hd.symm.trans hcreate.fresh) (by simp)
  | approved _ hacc => obtain rfl := hsame hacc.plan; exact .of_eq rfl rfl
  | authorized _ hacc => obtain rfl := hsame hacc.plan; exact .of_eq rfl rfl
  | undispatched _ hacc => obtain rfl := hsame hacc.plan; exact .of_eq rfl rfl
  | dispatched _ hacc => obtain rfl := hsame hacc.plan; exact .of_eq rfl rfl
  | claimed _ hacc => obtain rfl := hsame hacc.plan; exact .of_eq rfl rfl
  | renewed _ hacc => obtain rfl := hsame hacc.plan; exact .of_eq rfl rfl
  | completed _ hacc hc =>
      obtain rfl := hsame hacc.plan
      obtain ⟨_, hattempts, hevidence⟩ := hc.same
      exact (keeps_putCustody (custodyExecutionEvidence_fresh hacc.custody).2).trans (.of_eq hevidence hattempts)
  | released _ hd' =>
      obtain rfl := Option.some.inj (hd.symm.trans hd')
      exact .of_eq rfl rfl
  | expired _ _ _ hd' =>
      obtain rfl := Option.some.inj (hd.symm.trans hd')
      exact .of_eq rfl rfl
  | @retried taskId _ _ _ t _ _ hacc =>
      obtain rfl := hsame hacc.plan
      exact keeps_putAttempt (hacc.archived.imp And.left And.left)

end

/-! ## The invariant -/

/-- The attempts before the current one are in the archive, and the last of them is the one the task file names. -/
structure Archived (cfg : Config) (attempts : String → Nat → Option Task) (t : Task) : Prop where
  all : ∀ k < t.retryCount, ∃ a, attempts t.taskId k = some a
  previous : ∀ n, t.retryCount = n + 1 → ∃ a, attempts t.taskId n = some a ∧ a.retryCount = n ∧
    a.taskResultSha256 = some (cfg.hashString (.result a.result)) ∧
      t.previousAttemptResultSha256 = a.taskResultSha256

theorem Archived.mono {cfg : Config} {d d' : PlanDir} {t : Task} (h : Archived cfg d.attempts t) (hk : Keeps d d') :
    Archived cfg d'.attempts t := by
  refine ⟨fun k hlt => ?_, fun n hn => ?_⟩
  · obtain ⟨a, ha⟩ := h.all k hlt
    exact ⟨a, hk.2 _ _ _ ha⟩
  · obtain ⟨a, ha, hrest⟩ := h.previous n hn
    exact ⟨a, hk.2 _ _ _ ha, hrest⟩

structure Chronicle (cfg : Config) (ds : List Deed) (id : String) (d : PlanDir) : Prop where
  dashes : ∀ taskId ∈ d.ids, '-' ∈ taskId.toList
  claims : ∀ t ∈ d.files, t.status = .running →
    ∃ actor, t.claimedBy = some actor ∧ .claimed id t.taskId t.retryCount actor ∈ ds
  results : ∀ taskId g, .recorded id taskId g ∈ ds →
    (∃ actor, .claimed id taskId g actor ∈ ds) ∧
      ∃ t ∈ d.files, t.taskId = taskId ∧ (g < t.retryCount ∨ (g = t.retryCount ∧ t.status.isResult = true))
  archived : ∀ t ∈ d.files, Archived cfg d.attempts t

section
variable {cfg : Config} {ds new : List Deed} {id : String} {d d' : PlanDir} {t : Task}

/-- A plan whose task files stay, while no result of it is recorded. -/
theorem Chronicle.congr (h : Chronicle cfg ds id d) (htasks : d'.tasks = d.tasks) (hk : Keeps d d')
    (hnew : ∀ taskId g, .recorded id taskId g ∉ new) : Chronicle cfg (ds ++ new) id d' := by
  have hfiles : d'.files = d.files := by rw [PlanDir.files, htasks]
  refine ⟨by rw [PlanDir.ids, hfiles]; exact h.dashes, fun t ht hrun => ?_, fun taskId g hg => ?_, fun t ht => ?_⟩
  · obtain ⟨actor, h1, h2⟩ := h.claims t (hfiles ▸ ht) hrun
    exact ⟨actor, h1, List.mem_append_left _ h2⟩
  · obtain ⟨⟨actor, h1⟩, h2⟩ := h.results taskId g ((List.mem_append.mp hg).resolve_right (hnew taskId g))
    exact ⟨⟨actor, List.mem_append_left _ h1⟩, hfiles ▸ h2⟩
  · exact (h.archived t (hfiles ▸ ht)).mono hk

/-- One task file replaced. A result may be recorded for its attempt, once the attempt is over. -/
theorem Chronicle.replaced (t' : Task) (h : Chronicle cfg ds id d) (hkeys : d.ids.Nodup) (ht : t ∈ d.files)
    (hid : t'.taskId = t.taskId) (hfiles : d'.files = Frontier.replace (·.taskId) t' d.files) (hk : Keeps d d')
    (hclaims : t'.status = .running →
      ∃ actor, t'.claimedBy = some actor ∧ .claimed id t'.taskId t'.retryCount actor ∈ ds ++ new)
    (hover : t.retryCount < t'.retryCount ∨
      (t.retryCount = t'.retryCount ∧ (t.status.isResult = true → t'.status.isResult = true)))
    (hnew : ∀ taskId g, .recorded id taskId g ∈ new → taskId = t'.taskId ∧ g = t'.retryCount ∧
      t'.status.isResult = true ∧ ∃ actor, .claimed id taskId g actor ∈ ds)
    (harchived : Archived cfg d'.attempts t') : Chronicle cfg (ds ++ new) id d' := by
  have hids : d'.ids = d.ids := by rw [PlanDir.ids, hfiles, Frontier.map_key_replace]
  have ht' : t' ∈ d'.files := by rw [hfiles]; exact Frontier.mem_replace_self ht hid.symm
  have hmem : ∀ u ∈ d'.files, u = t' ∨ u ∈ d.files := fun u hu => by
    rw [hfiles] at hu
    exact (Frontier.mem_replace hu).imp_right And.left
  refine ⟨hids ▸ h.dashes, fun u hu hrun => ?_, fun taskId g hg => ?_, fun u hu => ?_⟩
  · rcases hmem u hu with rfl | hu
    · exact hclaims hrun
    · obtain ⟨actor, h1, h2⟩ := h.claims u hu hrun
      exact ⟨actor, h1, List.mem_append_left _ h2⟩
  · rcases List.mem_append.mp hg with hg | hg
    · obtain ⟨⟨actor, h1⟩, u, hu, hut, hug⟩ := h.results taskId g hg
      refine ⟨⟨actor, List.mem_append_left _ h1⟩, ?_⟩
      by_cases hkey : u.taskId = t'.taskId
      · obtain rfl := Frontier.eq_of_key hkeys hu ht (hkey.trans hid)
        refine ⟨t', ht', hid.trans hut, ?_⟩
        rcases hug with hlt | ⟨heq, hres⟩ <;> rcases hover with hmore | ⟨hsame, hkeep⟩
        · exact .inl (hlt.trans hmore)
        · exact .inl (hsame ▸ hlt)
        · exact .inl (heq ▸ hmore)
        · exact .inr ⟨heq.trans hsame, hkeep hres⟩
      · exact ⟨u, hfiles ▸ Frontier.mem_replace_of_ne hu hkey, hut, hug⟩
    · obtain ⟨rfl, rfl, hres, actor, hclaim⟩ := hnew taskId g hg
      exact ⟨⟨actor, List.mem_append_left _ hclaim⟩, t', ht', rfl, .inr ⟨rfl, hres⟩⟩
  · rcases hmem u hu with rfl | hu
    · exact harchived
    · exact (h.archived u hu).mono hk

end

/-! ## Steps -/

section
variable {cfg : Config} {s : Store} {i : Invocation} {ds : List Deed} {d d' : PlanDir} {sc : Script}

/-- The generation that a deed on a task is recorded under. -/
theorem generation_of_task {taskId : String} {t : Task} (hd : s.plans.lookup i.id = some d)
    (ht : d.task? taskId = some t) : s.generation i.id taskId = t.retryCount := by
  simp [Store.generation, hd, ht]

/-- Only the attempt's number and its predecessor matter to the archive. -/
theorem Archived.of_eq {attempts : String → Nat → Option Task} {t t' : Task} (h : Archived cfg attempts t)
    (hid : t'.taskId = t.taskId) (hcount : t'.retryCount = t.retryCount)
    (hprevious : t'.previousAttemptResultSha256 = t.previousAttemptResultSha256) : Archived cfg attempts t' := by
  refine ⟨fun k hk => ?_, fun n hn => ?_⟩
  · rw [hid]
    exact h.all k (hcount ▸ hk)
  · rw [hid, hprevious]
    exact h.previous n (hcount ▸ hn)

/-- A dispatch begins the chronicle of every task. -/
theorem chronicle_dispatched {z : Authorization} (h : Chronicle cfg ds i.id d) (hfresh : d.tasks = none)
    (htasks : d'.tasks = some (dispatchedTasks cfg d.plan z)) : Chronicle cfg ds i.id d' := by
  have hfiles : d'.files = dispatchedTasks cfg d.plan z := by rw [PlanDir.files, htasks]; rfl
  have hmem : ∀ t ∈ d'.files, ∃ j stage node, t.taskId = taskIdOf j stage node ∧ t.status = .pending ∧
      t.retryCount = 0 := by
    intro t ht
    rw [hfiles] at ht
    obtain ⟨j, stage, node, rfl, _⟩ := mem_materialiseFrom (mem_globOrder.mp ht)
    exact ⟨j, stage, node, rfl, rfl, rfl⟩
  refine ⟨fun taskId hid => ?_, fun t ht hrun => ?_, fun taskId g hg => ?_, fun t ht => ?_⟩
  · obtain ⟨t, ht, rfl⟩ := List.mem_map.mp hid
    obtain ⟨j, stage, node, hname, _⟩ := hmem t ht
    rw [hname, taskIdOf_toList]
    exact List.mem_append_right _ List.mem_cons_self
  · obtain ⟨_, _, _, _, hst, _⟩ := hmem t ht
    exact absurd (hst.symm.trans hrun) (by simp)
  · obtain ⟨_, t, ht, _⟩ := h.results taskId g hg
    rw [PlanDir.files, hfresh] at ht
    exact absurd ht (by simp)
  · obtain ⟨_, _, _, _, _, hzero⟩ := hmem t ht
    exact ⟨fun k hk => by omega, fun n hn => by omega⟩

/-- **Step lemma.** What a whole command does to a plan and what it puts on record agree. -/
theorem chronicle_step (h : ∀ d, s.plans.lookup i.id = some d → Chronicle cfg ds i.id d)
    (horderly : ∀ d, s.plans.lookup i.id = some d → Orderly d)
    (hnone : s.plans.lookup i.id = none → ∀ taskId g, .recorded i.id taskId g ∉ ds) (hsc : script cfg s i = .ok sc)
    (heffect : Effect cfg s i d') : Chronicle cfg (ds ++ deeds cfg s i) i.id d' := by
  have hlook : ∀ {e : PlanDir}, verifyPlan cfg s i.id = .ok e → s.plans.lookup i.id = some e := fun he =>
    (verifyPlan_ok.mp he).1
  cases heffect with
  | created hcreate =>
      -- a new plan has no task file, so there is nothing to account for
      have hdeeds : deeds cfg s i = [] := by
        cases hcreate with
        | apply hcmd _ => simp [deeds, hcmd]
        | rollback hcmd _ => simp [deeds, hcmd]
      rw [hdeeds, List.append_nil]
      refine ⟨?_, ?_, fun taskId g hg => absurd hg (hnone hcreate.fresh taskId g), ?_⟩ <;>
        simp [PlanDir.ids, PlanDir.files, newPlan]
  | approved hcmd hacc =>
      exact (h _ (hlook hacc.plan)).congr rfl (.of_eq rfl rfl) (by simp [deeds, hcmd])
  | authorized hcmd hacc =>
      exact (h _ (hlook hacc.plan)).congr rfl (.of_eq rfl rfl) (by simp [deeds, hcmd])
  | undispatched hcmd hacc =>
      exact (h _ (hlook hacc.plan)).congr rfl (.of_eq rfl rfl) (by simp [deeds, hcmd])
  | dispatched hcmd hacc =>
      rw [show deeds cfg s i = [] by simp [deeds, hcmd], List.append_nil]
      exact chronicle_dispatched (h _ (hlook hacc.plan)) hacc.fresh rfl
  | @claimed taskId actor _ _ d t expiry e hcmd hacc =>
      -- the task is pending, so its own attempt is the one that starts running, under the actor on record
      obtain ⟨ht, hid⟩ := task?_mem hacc.task
      have hd := hlook hacc.plan
      have hdeeds : deeds cfg s i = [.claimed i.id taskId t.retryCount actor] := by
        simp [deeds, hcmd, hsc, generation_of_task hd hacc.task]
      obtain ⟨f, hfind, hf⟩ := hacc.first
      obtain rfl : f = t :=
        Frontier.eq_of_key (horderly d hd).keys (List.mem_of_find?_eq_some hfind) ht (hf.trans hid.symm)
      have hpending : f.status = .pending := by simpa using List.find?_some hfind
      rw [hdeeds]
      refine (h d hd).replaced (claimedTask f actor (i.world.clock 1) expiry) (horderly d hd).keys ht rfl
        putTask_files (.of_eq rfl rfl) (fun _ => ⟨actor, rfl, ?_⟩) (.inr ⟨rfl, fun hr => ?_⟩) ?_ ?_
      · exact List.mem_append_right _ (List.mem_singleton.mpr (by rw [← hid]; rfl))
      · rw [hpending] at hr
        exact absurd hr (by simp [TaskStatus.isResult])
      · simp
      · exact ((h d hd).archived f ht).of_eq rfl rfl rfl
  | @renewed taskId actor _ _ d t expiry e hcmd hacc =>
      -- only the expiry moves: the claim on record is the one the task still runs under
      obtain ⟨ht, hid⟩ := task?_mem hacc.task
      have hd := hlook hacc.plan
      obtain ⟨who, h1, h2⟩ := (h d hd).claims t ht hacc.status
      exact (h d hd).replaced (renewedTask t (i.world.clock 1) expiry) (horderly d hd).keys ht rfl
        putTask_files (.of_eq rfl rfl) (fun _ => ⟨who, h1, List.mem_append_left _ h2⟩) (.inr ⟨rfl, id⟩)
        (by simp [deeds, hcmd]) (((h d hd).archived t ht).of_eq rfl rfl rfl)
  | @completed taskId actor status evidenceFile _ _ d _ t result e c late hcmd hacc hc =>
      -- the result is sealed for the running attempt, whose claim is on record
      obtain ⟨ht, hid⟩ := task?_mem hacc.task
      have hd := hlook hacc.plan
      obtain ⟨who, h1, h2⟩ := (h d hd).claims t ht hacc.running
      have hdeeds : deeds cfg s i = [.recorded i.id taskId t.retryCount] := by
        simp [deeds, hcmd, hsc, generation_of_task hd hacc.task]
      obtain ⟨htasks, hattempts, hevidence⟩ := hc.same
      have hresult : result.isResult = true := by
        rcases completionStatus_ok hacc.outcome with ⟨_, rfl⟩ | ⟨_, rfl⟩ <;> rfl
      have hk : Keeps d d' :=
        (keeps_putCustody (custodyExecutionEvidence_fresh hacc.custody).2).trans (.of_eq hevidence hattempts)
      rw [hdeeds]
      refine (h d hd).replaced (sealTaskResult cfg (completedTask t result evidenceFile e c (i.world.clock 0) late))
        (horderly d hd).keys ht rfl ?_ hk (fun hr => ?_) (.inr ⟨rfl, fun _ => hresult⟩) (fun id g hg => ?_) ?_
      · rw [PlanDir.files, htasks]
        exact putTask_files
      · rw [show (sealTaskResult cfg (completedTask t result evidenceFile e c (i.world.clock 0) late)).status = result
          from rfl] at hr
        rw [hr] at hresult
        exact absurd hresult (by simp [TaskStatus.isResult])
      · have hg' := List.mem_singleton.mp hg
        injection hg' with _ hid' hg'
        subst hid' hg'
        exact ⟨hid.symm, rfl, hresult, who, hid ▸ h2⟩
      · exact (((h d hd).archived t ht).mono hk).of_eq rfl rfl rfl
  | @released actor d _ hcmd hd hst =>
      -- the release of a reservation writes no result
      have hdeeds : deeds cfg s i = [] := by
        cases reconcile_ok (show reconcile cfg i.world s i.id actor = .ok sc by simpa only [script, hcmd] using hsc) with
        | released _ _ _ _ _ _ hw _ =>
            simp only [deeds, hcmd, hsc, hw]
            split
            · rename_i heq
              split at heq <;> simp at heq
            · rfl
        | expired e _ plan state =>
            rw [hlook plan] at hd
            injection hd with hd
            exact absurd (state.symm.trans (hd ▸ hst)) (by simp)
      exact (h d hd).congr rfl (.of_eq rfl rfl) (by simp [hdeeds])
  | @expired _ _ d t _ rest hcmd hok hw hd hst ht _ hrun =>
      -- the expiry is itself a result of the running attempt
      obtain ⟨who, h1, h2⟩ := (h d hd).claims t ht hrun
      have hdeeds : deeds cfg s i = [.recorded i.id t.taskId t.retryCount] := by
        simp [deeds, hcmd, hok, hw, sealTaskResult, expiredTask]
      rw [hdeeds]
      refine (h d hd).replaced (sealTaskResult cfg (expiredTask t (i.world.clock 0))) (horderly d hd).keys ht rfl
        putTask_files (.of_eq rfl rfl) (fun hrun' => by cases hrun') (.inr ⟨rfl, fun _ => rfl⟩) (fun id g hg => ?_)
        (((h d hd).archived t ht).of_eq rfl rfl rfl)
      have hg' := List.mem_singleton.mp hg
      injection hg' with _ hid' hg'
      subst hid' hg'
      exact ⟨rfl, rfl, rfl, who, h2⟩
  | @retried taskId actor _ d t archive hcmd hacc =>
      -- the failed attempt goes to the archive under its own number and the counter moves past it
      obtain ⟨ht, hid⟩ := task?_mem hacc.task
      have hd := hlook hacc.plan
      have hk : Keeps d (d.putAttempt taskId t.retryCount t) := keeps_putAttempt (hacc.archived.imp And.left And.left)
      have hself : (d.putAttempt taskId t.retryCount t).attempts t.taskId t.retryCount = some t := by
        rw [hid]
        exact if_pos ⟨rfl, rfl⟩
      refine (h d hd).replaced (sealTaskAttempt cfg (reopenedTask t)) (horderly d hd).keys ht rfl
        (putTask_files (d := d.putAttempt taskId t.retryCount t)) hk (fun hrun => by cases hrun) (.inl (Nat.lt_succ_self _))
        (by simp [deeds, hcmd]) ⟨fun k hlt => ?_, fun n hn => ?_⟩
      -- every earlier attempt is still archived, and the one that just failed joins them
      · rcases Nat.lt_succ_iff_lt_or_eq.mp hlt with hlt | rfl
        · obtain ⟨a, ha⟩ := ((h d hd).archived t ht).all k hlt
          exact ⟨a, hk.2 _ _ _ ha⟩
        · exact ⟨t, hself⟩
      · obtain rfl : n = t.retryCount := (Nat.succ.inj hn).symm
        exact ⟨t, hself, rfl, hacc.intact.result (by rw [hacc.failed]; rfl), rfl⟩

/-- A result is put on record for the attempt that a running task is in. -/
theorem deeds_recorded {id taskId : String} {g : Nat} (h : .recorded id taskId g ∈ deeds cfg s i) :
    id = i.id ∧ (∃ sc, script cfg s i = .ok sc) ∧ ∃ d t, s.plans.lookup i.id = some d ∧ t ∈ d.files ∧
      t.taskId = taskId ∧ t.retryCount = g ∧ t.status = .running := by
  cases hsc : script cfg s i with
  | error e =>
      -- a refused command puts nothing on record
      cases hcmd : i.command <;> simp [deeds, hcmd, hsc] at h
  | ok sc =>
      cases hcmd : i.command <;> simp only [deeds, hcmd, hsc, List.mem_singleton, List.not_mem_nil] at h
      case claim => exact absurd h (by simp)
      case complete =>
        have hok := hsc
        simp only [script, hcmd] at hsc
        obtain ⟨d, t, result, e, c, late, hacc⟩ := complete_ok hsc
        have hd := (verifyPlan_ok.mp hacc.plan).1
        obtain ⟨ht, hid⟩ := task?_mem hacc.task
        injection h with h1 h2 h3
        rw [generation_of_task hd hacc.task] at h3
        exact ⟨h1, ⟨sc, rfl⟩, d, t, hd, ht, hid.trans h2.symm, h3.symm, hacc.running⟩
      case reconcile =>
        have hok := hsc
        simp only [script, hcmd] at hsc
        cases reconcile_ok hsc with
        | released _ _ _ _ _ _ hw _ =>
            rw [hw] at h
            split at h
            · rename_i heq
              split at heq <;> simp at heq
            · exact absurd h (by simp)
        | expired d t plan state ht _ hrun hw =>
            simp only [hw, List.cons_append, List.nil_append, List.mem_singleton] at h
            injection h with h1 h2 h3
            exact ⟨h1, ⟨sc, rfl⟩, d, t, (verifyPlan_ok.mp plan).1, ht, h2.symm, h3.symm, hrun⟩

theorem length_deeds (cfg : Config) (s : Store) (i : Invocation) : (deeds cfg s i).length ≤ 1 := by
  unfold deeds
  split <;> try simp
  split <;> simp

end

/-! ## Runs -/

section
variable {cfg : Config} {as : List Invocation} {h : History}

/-- **Run lemma.** Every plan keeps its chronicle, and no attempt gets a second result. -/
theorem chronicle_reached (hr : Recorded cfg as h) :
    (∀ id d, h.store.plans.lookup id = some d → Chronicle cfg h.deeds id d) ∧
      (∀ id, h.store.plans.lookup id = none → ∀ taskId g, .recorded id taskId g ∉ h.deeds) ∧
        ∀ id taskId g, h.deeds.count (.recorded id taskId g) ≤ 1 := by
  refine Trace.Run.invariant (I := fun _ h => (∀ id d, h.store.plans.lookup id = some d → Chronicle cfg h.deeds id d) ∧
      (∀ id, h.store.plans.lookup id = none → ∀ taskId g, .recorded id taskId g ∉ h.deeds) ∧
        ∀ id taskId g, h.deeds.count (.recorded id taskId g) ≤ 1) ?_ ?_ hr
  · rintro h rfl
    refine ⟨fun id d hd => absurd hd (by simp [Store.empty]), fun _ _ _ _ => by simp, fun _ _ _ => by simp⟩
  · rintro as h i h' hr ⟨ih, hnone, hcount⟩ hwhole hs
    injection hs with hs
    subst hs
    have horderly := orderly_reached (recorded_reached hr)
    -- the three parts move together: the count needs the chronicle of the state before the command
    refine ⟨fun id d' hd' => ?_, fun id hd' taskId g hg => ?_, fun id taskId g => ?_⟩
    · rcases whole_effect hwhole hd' with ⟨hd, hother⟩ | ⟨rfl, heffect, sc, hsc⟩
      · refine (ih id d' hd).congr rfl (.of_eq rfl rfl) fun taskId g hg => ?_
        obtain ⟨h1, ⟨sc, hsc⟩, _⟩ := deeds_recorded hg
        rcases hother with hother | hother
        · exact hother h1
        · exact hother sc hsc
      · exact chronicle_step (ih i.id) (horderly i.id) (hnone i.id) hsc heffect
    -- a plan that is not there after the command was not there before it
    · have hgone : h.store.plans.lookup id = none := by
        by_contra hsome
        obtain ⟨d, hd⟩ := Option.ne_none_iff_exists'.mp hsome
        obtain ⟨d', hd''⟩ := after_lookup_some cfg i hd
        exact absurd (hd''.symm.trans hd') (by simp)
      rcases List.mem_append.mp hg with hg | hg
      · exact hnone id hgone taskId g hg
      · obtain ⟨rfl, _, d, t, hd, _⟩ := deeds_recorded hg
        exact absurd (hd.symm.trans hgone) (by simp)
    · show (h.deeds ++ deeds cfg h.store i).count (.recorded id taskId g) ≤ 1
      rw [List.count_append]
      have hone := (List.count_le_length (a := Deed.recorded id taskId g)).trans
        (length_deeds cfg h.store i)
      by_cases hg : Deed.recorded id taskId g ∈ deeds cfg h.store i
      · -- the attempt is running, so no result of it is on record
        have hfirst : Deed.recorded id taskId g ∉ h.deeds := by
          intro hold
          obtain ⟨rfl, _, d, t, hd, ht, htid, htg, hrun⟩ := deeds_recorded hg
          obtain ⟨_, u, hu, huid, hug⟩ := (ih i.id d hd).results taskId g hold
          obtain rfl := Frontier.eq_of_key (horderly i.id d hd).keys hu ht (huid.trans htid.symm)
          rcases hug with hlt | ⟨_, hres⟩
          · omega
          · rw [hrun] at hres
            exact absurd hres (by simp [TaskStatus.isResult])
        rw [List.count_eq_zero_of_not_mem hfirst]
        omega
      · rw [List.count_eq_zero_of_not_mem hg]
        exact hcount id taskId g

end

/-! ## Attempt generations

From the chronicle to the claim: each attempt of each task has one result, and the evidence it was accepted with. -/

/-- The command completes the attempt `g` of a task, on the strength of the document `j`. -/
def Accredits (cfg : Config) (s : Store) (i : Invocation) (taskId actor : String) (g : Nat) (j : Json) : Prop :=
  ∃ status evidenceFile evidenceSha256 sc d t e,
    i.command = .complete taskId actor status evidenceFile evidenceSha256 ∧ script cfg s i = .ok sc ∧
      s.plans.lookup i.id = some d ∧ d.task? taskId = some t ∧ t.retryCount = g ∧ e.document = j ∧
        verifyExecutionEvidence cfg i.world i.id taskId actor status evidenceFile d.plan t = .ok e

/-- A document completes one attempt of one task of one plan, wherever it is handed in. -/
theorem Accredits.unique {cfg : Config} {s s' : Store} {i i' : Invocation} {taskId actor taskId' actor' : String}
    {g g' : Nat} {j : Json} (h : Accredits cfg s i taskId actor g j) (h' : Accredits cfg s' i' taskId' actor' g' j) :
    i'.id = i.id ∧ taskId' = taskId ∧ g' = g := by
  obtain ⟨_, _, _, _, _, t, e, _, _, _, _, rfl, rfl, he⟩ := h
  obtain ⟨_, _, _, _, _, t', e', _, _, _, _, rfl, hdoc, he'⟩ := h'
  have hacc := verifyExecutionEvidence_ok he
  have hacc' := verifyExecutionEvidence_ok he'
  obtain ⟨h1, h2, _⟩ := evidenceIdentity_unique (hdoc ▸ hacc'.identity) hacc.identity
  exact ⟨h1, h2, evidenceGeneration_unique (hdoc ▸ hacc'.generation) hacc.generation⟩

structure AttemptHistory (cfg : Config) (h : History) (id : String) (d : PlanDir) : Prop where
  once : ∀ taskId g, h.deeds.count (.recorded id taskId g) ≤ 1
  claimed : ∀ taskId g, .recorded id taskId g ∈ h.deeds → ∃ actor, .claimed id taskId g actor ∈ h.deeds
  evidence : ∀ i taskId actor g j, i.id = id → Accredits cfg h.store i taskId actor g j →
    .claimed id taskId g actor ∈ h.deeds ∧
      ∀ s' i' taskId' actor' g', Accredits cfg s' i' taskId' actor' g' j → i'.id = id ∧ taskId' = taskId ∧ g' = g
  directories : ∀ a ∈ d.ids, ∀ b ∈ d.ids, ∀ m n, custodyLeaf a m = custodyLeaf b n → a = b ∧ m = n
  kept : ∀ (is : List Invocation) d', (∀ i ∈ is, i.killedAfter = none) →
    (is.foldl (after cfg) h.store).plans.lookup id = some d' → Keeps d d'
  archived : ∀ t ∈ d.files, Archived cfg d.attempts t

/-- Further whole commands keep what is sealed. -/
theorem keeps_foldl {cfg : Config} {id : String} {is : List Invocation} (hwhole : ∀ i ∈ is, i.killedAfter = none)
    {s : Store} {d d' : PlanDir} (hd : s.plans.lookup id = some d)
    (hd' : (is.foldl (after cfg) s).plans.lookup id = some d') : Keeps d d' := by
  induction is generalizing s d with
  | nil =>
      obtain rfl := Option.some.inj (hd.symm.trans hd')
      exact .of_eq rfl rfl
  | cons i is ih =>
      rw [List.foldl_cons] at hd'
      obtain ⟨e, he⟩ := after_lookup_some cfg i hd
      refine Keeps.trans ?_ (ih (fun j hj => hwhole j (List.mem_cons_of_mem i hj)) he hd')
      rcases whole_effect (hwhole i List.mem_cons_self) he with ⟨h1, _⟩ | ⟨rfl, heffect, _⟩
      · obtain rfl := Option.some.inj (hd.symm.trans h1)
        exact .of_eq rfl rfl
      · exact heffect.keeps hd

/-- **Attempt generations.** In every history of whole commands each attempt of each task gets one result at most,
    from evidence that was claimed in it and fits no other attempt, and nothing sealed or archived changes again. -/
theorem attempt_history {cfg : Config} {as : List Invocation} {h : History} (hr : Recorded cfg as h) {id : String}
    {d : PlanDir} (hd : h.store.plans.lookup id = some d) : AttemptHistory cfg h id d := by
  obtain ⟨hchronicle, _, hcount⟩ := chronicle_reached hr
  have hd₀ := hchronicle id d hd
  have horderly := orderly_reached (recorded_reached hr) id d hd
  refine ⟨hcount id, fun taskId g hg => (hd₀.results taskId g hg).1, ?_,
    fun a ha b hb m n hmn => custodyLeaf_distinct horderly.numbers hd₀.dashes ha hb hmn,
    fun is d' hwhole hd' => keeps_foldl hwhole hd hd', hd₀.archived⟩
  rintro i taskId actor g j rfl haccredits
  refine ⟨?_, fun s' i' taskId' actor' g' h' => haccredits.unique h'⟩
  obtain ⟨status, evidenceFile, _, sc, e, t, _, hcmd, hsc, he, ht, rfl, _, _⟩ := haccredits
  simp only [script, hcmd] at hsc
  obtain ⟨d₁, t₁, result, _, c, late, hacc⟩ := complete_ok hsc
  obtain rfl : d₁ = d := Option.some.inj ((verifyPlan_ok.mp hacc.plan).1.symm.trans hd)
  obtain rfl : e = d₁ := Option.some.inj (he.symm.trans hd)
  obtain rfl : t₁ = t := Option.some.inj (hacc.task.symm.trans ht)
  obtain ⟨hmem, hid⟩ := task?_mem ht
  obtain ⟨who, h1, h2⟩ := hd₀.claims t₁ hmem hacc.running
  obtain rfl : who = actor := Option.some.inj (h1.symm.trans hacc.claimant)
  exact hid ▸ h2

/-- The first task of `p1` in its second attempt. -/
theorem attempt_history_retried :
    ∃ d, (replayHistory lab (labFailed ++ [labRetry 1])).store.plans.lookup "p1" = some d ∧
      d.files.map (·.retryCount) = [1, 0, 0, 0, 0] ∧
        AttemptHistory lab (replayHistory lab (labFailed ++ [labRetry 1])) "p1" d := by
  have h : ((replayHistory lab (labFailed ++ [labRetry 1])).store.plans.lookup "p1").map
      (fun d => d.files.map (·.retryCount)) = some [1, 0, 0, 0, 0] := by decide +kernel
  obtain ⟨d, hd, hcounts⟩ := Option.map_eq_some_iff.mp h
  exact ⟨d, hd, hcounts, attempt_history (replay_recorded (by decide)) hd⟩

end OraclePatching
