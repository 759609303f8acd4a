import Mathlib.Data.List.Forall2
import OraclePatching.OutOfPlace.Oratab

/-!
# `Correctness.OratabRoundTrip` — switching the home in oratab, and back

`rewrite_oratab` puts the new home into every line that awk takes for an entry of the SID, whatever home stood there, and
checks only the first of them. A second entry with another home, or with none, comes back with the original home; and
awk takes `010` for `10`. `oratab_round_trip` says that these are all the cases: the switch touches nothing but the
SID's entries and the way back restores the file exactly if every line that awk takes for an entry is one, and names the
original home.

That the check after the rewrite succeeds says more than it looks: `$(…)` and the escapes of `-v` only ever shorten a
text, so the new home has gone into the file as it is (`switched_value`).
-/

namespace OraclePatching.OutOfPlace

open Awk

/-! ## What a successful check says

The stages check the home they find, in one way for all of them: the text that `awk` printed, as `$(…)` gives it. -/

/-- A substitution is not longer than what it came from. -/
theorem cmdSubst_length_le (cs : List Char) : (Shell.cmdSubst (String.ofList cs)).toList.length ≤ cs.length := by
  unfold Shell.cmdSubst
  rw [String.characters_eq, String.toList_ofList, String.toList_ofList, List.length_reverse]
  refine ((List.dropWhile_sublist _).length_le).trans ?_
  rw [List.length_reverse]
  exact List.length_filter_le _ _

/-- What `$(…)` does not shorten it does not change. -/
theorem cmdSubst_eq_of_length {cs : List Char}
    (h : cs.length ≤ (Shell.cmdSubst (String.ofList cs)).toList.length) :
    (Shell.cmdSubst (String.ofList cs)).toList = cs := by
  unfold Shell.cmdSubst at h ⊢
  rw [String.characters_eq, String.toList_ofList, String.toList_ofList, List.length_reverse] at h
  rw [String.characters_eq, String.toList_ofList, String.toList_ofList]
  have hdrop := (List.dropWhile_sublist (· == '\n') (l := (cs.filter (· != Char.ofNat 0)).reverse))
  have hfilter := List.length_filter_le (· != Char.ofNat 0) cs
  have hlen := hdrop.length_le
  rw [List.length_reverse] at hlen
  have hkeep : cs.filter (· != Char.ofNat 0) = cs := List.filter_sublist.eq_of_length (by omega)
  rw [hkeep] at hdrop h ⊢
  rw [hdrop.eq_of_length (by rw [List.length_reverse]; rw [hkeep] at hlen; omega), List.reverse_reverse]

/-- A value that goes into the second field as it is. -/
def Plain (awk : Interpreter) (home : String) : Prop :=
  awk.assign home.toList = home.toList ∧ ':' ∉ home.toList ∧ '\n' ∉ home.toList

section
variable {awk : Interpreter} {oratab sid newHome : String} {r : List Char}

/-- The first field of the first line. -/
theorem takeWhile_field {v rest : List Char} {c : Char} (hc : c = ':' ∨ c = '\n') :
    ((v ++ c :: rest).takeWhile (· != '\n')).takeWhile (· != ':') = v.takeWhile fun c => c != '\n' && c != ':' := by
  induction v with
  | nil => rcases hc with rfl | rfl <;> rfl
  | cons d v ih =>
      rw [List.cons_append]
      by_cases hbreak : d = '\n'
      · rw [List.takeWhile_cons_of_neg (by simp [hbreak]), List.takeWhile_cons_of_neg (by simp [hbreak])]
        rfl
      · rw [List.takeWhile_cons_of_pos (by simp [hbreak])]
        by_cases hsep : d = ':'
        · rw [List.takeWhile_cons_of_neg (by simp [hsep]), List.takeWhile_cons_of_neg (by simp [hsep])]
        · rw [List.takeWhile_cons_of_pos (by simp [hsep]), List.takeWhile_cons_of_pos (by simp [hbreak, hsep]), ih]

/-- The first entry of a rewritten file has as much of the new home as its second field can hold. -/
theorem find_rewritten (newHome : String) (hmatch : ∃ r ∈ records oratab.toList, isEntry awk sid r = true) :
    ∃ r, (records (rewritten awk oratab sid newHome).toList).find? (isEntry awk sid) = some r ∧
      second ':' r = (awk.assign newHome.toList).takeWhile fun c => c != '\n' && c != ':' := by
  have hsome : ((records oratab.toList).find? (isEntry awk sid)).isSome := by
    rw [List.find?_isSome]
    exact hmatch
  obtain ⟨r, hr⟩ := Option.isSome_iff_exists.mp hsome
  obtain ⟨hentry, pre, post, hsplit, hpre⟩ := List.find?_eq_some_iff_append.mp hr
  have hbreaks := records_no_break oratab.toList
  rw [hsplit] at hbreaks
  have hsame : pre.map (rewriteLine awk sid newHome) = pre := by
    refine (List.map_congr_left fun s hs => ?_).trans (List.map_id pre)
    have hno : isEntry awk sid s = false := by simpa using hpre s hs
    rw [rewriteLine, hno]
    rfl
  obtain ⟨tail, hset, htail, -⟩ := setSecond_eq ':' (awk.assign newHome.toList) r
  -- behind the new home comes another field or the end of the line
  obtain ⟨c, rest, hrest, hc⟩ : ∃ c rest, tail ++ '\n' :: render (post.map (rewriteLine awk sid newHome)) = c :: rest ∧
      (c = ':' ∨ c = '\n') := by
    rcases htail with rfl | ⟨fields, rfl⟩
    · exact ⟨_, _, rfl, .inr rfl⟩
    · exact ⟨_, _, rfl, .inl rfl⟩
  have htext : (rewritten awk oratab sid newHome).toList =
      render pre ++ (first ':' r ++ ':' :: (awk.assign newHome.toList ++ c :: rest)) := by
    unfold rewritten
    rw [String.toList_ofList, hsplit, List.map_append, List.map_cons, hsame, render_append, ← hrest]
    show render pre ++ (rewriteLine awk sid newHome r ++ ['\n'] ++ render (post.map (rewriteLine awk sid newHome))) = _
    rw [rewriteLine, hentry, if_pos rfl, hset]
    simp
  have hbreak : ∀ d ∈ first ':' r, (d != '\n') = true := by
    intro d hd
    have hno : '\n' ∉ r := hbreaks r (List.mem_append_right pre List.mem_cons_self)
    exact bne_iff_ne.mpr fun heq => hno (heq ▸ mem_first hd)
  obtain ⟨rs, hrs⟩ := records_head (show first ':' r ++ ':' :: (awk.assign newHome.toList ++ c :: rest) ≠ [] by simp)
  rw [List.takeWhile_append_of_pos hbreak, List.takeWhile_cons_of_pos (by decide)] at hrs
  generalize hz : (awk.assign newHome.toList ++ c :: rest).takeWhile (· != '\n') = z at hrs
  have hfields : (first ':' r ++ ':' :: z).splitOn ':' = first ':' r :: z.splitOn ':' :=
    List.splitOn_append_cons_self_of_not_mem (no_sep_first r) z
  refine ⟨first ':' r ++ ':' :: z, ?_, ?_⟩
  · rw [htext, records_render_append (fun s hs => hbreaks s (List.mem_append_left _ hs)), hrs, List.find?_append,
      List.find?_eq_none.mpr (by simpa using hpre), Option.none_or, List.find?_cons_of_pos]
    have hsame : first ':' (first ':' r ++ ':' :: z) = first ':' r := by
      rw [first, hfields]
      rfl
    rw [isEntry, hsame]
    exact hentry
  · unfold second
    rw [hfields, List.tail_cons, takeWhile_splitOn, ← hz]
    exact takeWhile_field hc

/-- **A new home that is found in the file has gone into it as it is.** -/
theorem switched_value (hawk : ∀ v, (awk.assign v).length ≤ v.length)
    (hmatch : ∃ r ∈ records oratab.toList, isEntry awk sid r = true)
    (h : oratabHomeForSid awk (rewritten awk oratab sid newHome) sid = newHome) : Plain awk newHome := by
  obtain ⟨r, hr, hsecond⟩ := find_rewritten newHome hmatch
  unfold oratabHomeForSid at h
  rw [hr] at h
  have htext : (Shell.cmdSubst (String.ofList (second ':' r))).toList = newHome.toList := congrArg String.toList h
  have hlen := hawk newHome.toList
  have hprefix : (second ':' r).length ≤ (awk.assign newHome.toList).length := by
    rw [hsecond]
    exact (List.takeWhile_sublist _).length_le
  have hshort := cmdSubst_length_le (second ':' r)
  rw [htext] at hshort
  have heq : second ':' r = newHome.toList := (cmdSubst_eq_of_length (by rw [htext]; omega)).symm.trans htext
  have hwhole : second ':' r = awk.assign newHome.toList := by
    rw [hsecond]
    refine (List.takeWhile_sublist _).eq_of_length ?_
    rw [← hsecond, heq]
    rw [heq] at hprefix
    omega
  have hclean : ∀ c ∈ newHome.toList, (c != '\n' && c != ':') = true := by
    intro c hc
    rw [← heq, hsecond] at hc
    exact List.mem_takeWhile_imp (p := fun c => c != '\n' && c != ':') hc
  refine ⟨hwhole.symm.trans heq, fun hsep => ?_, fun hbreak => ?_⟩
  · exact absurd (hclean _ hsep) (by decide)
  · exact absurd (hclean _ hbreak) (by decide)

/-! ## The rewritten file -/

theorem rewriteLine_of_entry (h : isEntry awk sid r = true) :
    rewriteLine awk sid newHome r = setSecond ':' (awk.assign newHome.toList) r := by
  rw [rewriteLine, h, if_pos rfl]

theorem rewriteLine_of_other (h : ¬ isEntry awk sid r = true) : rewriteLine awk sid newHome r = r := by
  rw [rewriteLine, if_neg h]

theorem rewriteLine_no_break (hplain : Plain awk newHome) (hr : '\n' ∉ r) :
    '\n' ∉ rewriteLine awk sid newHome r := by
  unfold rewriteLine
  split
  · obtain ⟨tail, hset, -, hmem⟩ := setSecond_eq ':' (awk.assign newHome.toList) r
    rw [hset, hplain.1, List.mem_append, List.mem_cons, List.mem_append]
    rintro (hc | hc | hc | hc)
    · exact hr (mem_first hc)
    · exact absurd hc (by decide)
    · exact hplain.2.2 hc
    · rcases hmem _ hc with hsep | hmem
      · exact absurd hsep (by decide)
      · exact hr hmem
  · exact hr

/-- The lines of the rewritten file are the lines of the file, rewritten. -/
theorem records_rewritten
    (hplain : (∃ r ∈ records oratab.toList, isEntry awk sid r = true) → Plain awk newHome) :
    records (rewritten awk oratab sid newHome).toList = (records oratab.toList).map (rewriteLine awk sid newHome) := by
  unfold rewritten
  rw [String.toList_ofList]
  refine records_render fun s hs => ?_
  obtain ⟨r, hr, rfl⟩ := List.mem_map.mp hs
  have hbreak := records_no_break oratab.toList r hr
  by_cases hentry : isEntry awk sid r = true
  · exact rewriteLine_no_break (hplain ⟨r, hr, hentry⟩) hbreak
  · rw [rewriteLine_of_other hentry]
    exact hbreak

/-- A line of the instance stays one. -/
theorem isEntry_rewriteLine (hplain : Plain awk newHome) :
    isEntry awk sid (rewriteLine awk sid newHome r) = isEntry awk sid r := by
  unfold rewriteLine
  split
  · have hsep : ':' ∉ awk.assign newHome.toList := by
      rw [hplain.1]
      exact hplain.2.1
    rw [isEntry, first_setSecond hsep]
    rfl
  · rfl

/-- Rewriting twice is rewriting once. -/
theorem rewriteLine_rewriteLine {home : String} (hplain : Plain awk newHome) :
    rewriteLine awk sid home (rewriteLine awk sid newHome r) = rewriteLine awk sid home r := by
  have hsep : ':' ∉ awk.assign newHome.toList := by
    rw [hplain.1]
    exact hplain.2.1
  by_cases hentry : isEntry awk sid r = true
  · have hentry' : isEntry awk sid (rewriteLine awk sid newHome r) = true := (isEntry_rewriteLine hplain).trans hentry
    rw [rewriteLine_of_entry hentry', rewriteLine_of_entry hentry, rewriteLine_of_entry hentry,
      setSecond_setSecond hsep]
  · rw [rewriteLine_of_other hentry]

end

/-! ## The round trip -/

/-- **What the claim asks of a switch and the way back**: a line that the switch changes is an entry of the SID, and the
    way back succeeds with the bytes that were there. -/
structure RoundTrip (awk : Interpreter) (oratab sid home patchId : String) : Prop where
  ownEntries : List.Forall₂ (fun r r' => r' = r ∨ first ':' r = sid.toList) (records oratab.toList)
    (records (stageOopSwitchHome awk oratab sid home patchId).1.toList)
  restored : stageOopSwitchBack awk (stageOopSwitchHome awk oratab sid home patchId).1 sid home patchId =
    (oratab, .ok ())

/-- Every line that awk takes for an entry of the SID is one, and names the original home. -/
def EntriesOf (awk : Interpreter) (oratab sid home : String) : Prop :=
  ∀ r ∈ records oratab.toList, isEntry awk sid r = true →
    first ':' r = sid.toList ∧ HasSecond ':' r ∧ second ':' r = home.toList ∧ awk.assign home.toList = home.toList

section
variable {awk : Interpreter} {oratab sid home patchId : String}

/-- A stage that succeeds has found the home it expected, and left the new one. -/
theorem switchStage_ok {expected newHome message : String}
    (h : (switchStage awk oratab sid expected newHome message).2 = .ok ()) :
    oratabHomeForSid awk oratab sid = expected ∧
      (switchStage awk oratab sid expected newHome message).1 = rewritten awk oratab sid newHome ∧
      oratabHomeForSid awk (rewritten awk oratab sid newHome) sid = newHome := by
  unfold switchStage at h ⊢
  by_cases hexpected : oratabHomeForSid awk oratab sid = expected
  · rw [if_pos hexpected] at h ⊢
    refine ⟨hexpected, ?_, ?_⟩
    · rw [rewriteOratab]
    · simp only [rewriteOratab, ensure_ok] at h
      exact h
  · rw [if_neg hexpected] at h
    exact absurd h refuse_ne_ok

theorem switchStage_eq {expected newHome message : String} (hexpected : oratabHomeForSid awk oratab sid = expected)
    (hnew : oratabHomeForSid awk (rewritten awk oratab sid newHome) sid = newHome) :
    switchStage awk oratab sid expected newHome message = (rewritten awk oratab sid newHome, .ok ()) := by
  unfold switchStage rewriteOratab
  rw [if_pos hexpected, ensure_ok.mpr hnew]

/-- The clone is not the home it was made from. -/
theorem cloneHome_ne (home patchId : String) : cloneHome home patchId ≠ home := by
  intro h
  have hlen := congrArg (fun s : String => s.toList.length) h
  simp only [cloneHome, String.toList_append, List.length_append] at hlen
  have hoop : "-oop-".toList.length = 5 := rfl
  omega

/-- The file after the switch and the way back, line by line. -/
theorem rewritten_rewritten {newHome : String}
    (hplain : (∃ r ∈ records oratab.toList, isEntry awk sid r = true) → Plain awk newHome) :
    rewritten awk (rewritten awk oratab sid newHome) sid home = rewritten awk oratab sid home := by
  have hrecords := records_rewritten hplain
  unfold rewritten at hrecords ⊢
  rw [hrecords, List.map_map]
  refine congrArg (fun rs => String.ofList (render rs)) (List.map_congr_left fun r hr => ?_)
  show rewriteLine awk sid home (rewriteLine awk sid newHome r) = _
  by_cases hentry : isEntry awk sid r = true
  · exact rewriteLine_rewriteLine (hplain ⟨r, hr, hentry⟩)
  · rw [rewriteLine_of_other hentry]

end

/-- **Switching oratab and back.** For every file whose lines are ended and every switch of it that succeeds, the switch
    changes no line but entries of the SID and the way back restores the file exactly if every line that awk takes for
    an entry of the SID is one and names the original home. -/
theorem oratab_round_trip {awk : Interpreter} (hawk : ∀ v, (awk.assign v).length ≤ v.length)
    {oratab sid home patchId : String} (hended : Ended oratab.toList)
    (hswitch : (stageOopSwitchHome awk oratab sid home patchId).2 = .ok ()) :
    RoundTrip awk oratab sid home patchId ↔ EntriesOf awk oratab sid home := by
  obtain ⟨hhome, hfile, hclone⟩ := switchStage_ok hswitch
  have hplain : (∃ r ∈ records oratab.toList, isEntry awk sid r = true) → Plain awk (cloneHome home patchId) :=
    fun hmatch => switched_value hawk hmatch hclone
  have hafter : (stageOopSwitchHome awk oratab sid home patchId).1 = rewritten awk oratab sid (cloneHome home patchId) :=
    hfile
  have hrecords := records_rewritten hplain
  have hagain : rewritten awk (rewritten awk oratab sid (cloneHome home patchId)) sid home = rewritten awk oratab sid home :=
    rewritten_rewritten hplain
  have hbytes : String.ofList (render (records oratab.toList)) = oratab := by
    rw [render_records hended, String.ofList_toList]
  constructor
  · intro htrip r hr hentry
    have hback := htrip.restored
    rw [hafter] at hback
    obtain ⟨-, hrestored, hcheck⟩ := switchStage_ok (congrArg Prod.snd hback)
    have hsame : rewritten awk oratab sid home = oratab := by
      rw [← hagain, ← hrestored]
      exact congrArg Prod.fst hback
    rw [hagain] at hcheck
    have hplainHome : Plain awk home := switched_value hawk ⟨r, hr, hentry⟩ hcheck
    have hlines : records (rewritten awk oratab sid home).toList = (records oratab.toList).map (rewriteLine awk sid home) :=
      records_rewritten fun _ => hplainHome
    rw [hsame] at hlines
    -- both files have the same lines, so each line was rewritten to itself
    have hline : rewriteLine awk sid home r = r := by
      have hid : (records oratab.toList).map (rewriteLine awk sid home) = (records oratab.toList).map id := by
        rw [← hlines, List.map_id]
      exact List.map_inj_left.mp hid r hr
    rw [rewriteLine_of_entry hentry, hplainHome.1] at hline
    obtain ⟨hhas, hsecond⟩ := of_setSecond_eq hline
    refine ⟨?_, hhas, hsecond, hplainHome.1⟩
    have hown := htrip.ownEntries
    rw [hafter, hrecords, List.forall₂_map_right_iff, List.forall₂_same] at hown
    rcases hown r hr with hunchanged | hfirst
    · rw [rewriteLine_of_entry hentry, (hplain ⟨r, hr, hentry⟩).1] at hunchanged
      have hsecond' := (of_setSecond_eq hunchanged).2
      exact absurd (String.toList_inj.mp (hsecond'.symm.trans hsecond)) (cloneHome_ne home patchId)
    · exact hfirst
  · intro hentries
    have hsame : rewritten awk oratab sid home = oratab := by
      unfold rewritten
      have hid : (records oratab.toList).map (rewriteLine awk sid home) = records oratab.toList := by
        refine (List.map_congr_left fun r hr => ?_).trans (List.map_id _)
        by_cases hentry : isEntry awk sid r = true
        · obtain ⟨-, hhas, hsecond, hassign⟩ := hentries r hr hentry
          rw [rewriteLine_of_entry hentry, hassign, ← hsecond]
          exact setSecond_self hhas
        · exact rewriteLine_of_other hentry
      rw [hid, hbytes]
    refine ⟨?_, ?_⟩
    · rw [hafter, hrecords, List.forall₂_map_right_iff, List.forall₂_same]
      intro r hr
      by_cases hentry : isEntry awk sid r = true
      · exact .inr (hentries r hr hentry).1
      · exact .inl (rewriteLine_of_other hentry)
    · rw [hafter]
      have hfound : oratabHomeForSid awk (rewritten awk (rewritten awk oratab sid (cloneHome home patchId)) sid home) sid =
          home := by
        rw [hagain, hsame]
        exact hhome
      refine (switchStage_eq hclone hfound).trans ?_
      rw [hagain, hsame]

/-- An awk for texts without escapes and numbers. -/
def literalAwk : Interpreter where
  assign := fun v => v
  number := fun _ => none

/-- A comment, a blank line, another SID with the same prefix, and an entry with a field too many. -/
theorem oratab_round_trip_shared :
    RoundTrip literalAwk "# homes\n\nORCL2:/u01/db:N\nORCL:/u01/db:N:x\n" "ORCL" "/u01/db" "38291812" := by
  have hentries : EntriesOf literalAwk "# homes\n\nORCL2:/u01/db:N\nORCL:/u01/db:N:x\n" "ORCL" "/u01/db" := by
    unfold EntriesOf HasSecond
    decide +kernel
  exact (oratab_round_trip (fun v => Nat.le_refl v.length) (.inr (by decide +kernel)) (by decide +kernel)).mpr hentries

/-- A second entry of the SID, left behind by an older home, comes back with the home of the first. -/
theorem oratab_second_entry :
    Ended "ORCL:/u01/db:N\nORCL:/u01/old:N\n".toList ∧
      (stageOopSwitchHome literalAwk "ORCL:/u01/db:N\nORCL:/u01/old:N\n" "ORCL" "/u01/db" "38291812").2 = .ok () ∧
      ¬ RoundTrip literalAwk "ORCL:/u01/db:N\nORCL:/u01/old:N\n" "ORCL" "/u01/db" "38291812" := by
  refine ⟨.inr (by decide +kernel), by decide +kernel, fun htrip => ?_⟩
  have hback := congrArg Prod.fst htrip.restored
  exact absurd hback (by decide +kernel)

end OraclePatching.OutOfPlace
