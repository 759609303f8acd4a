import OraclePatching.DataGuard.Evaluate

/-!
# `Correctness.LagGate` — when a ready evaluation means fresh and small lags

A requirement is kept by the loops when it has a gate whose text is one line and whose columns are not shifted. Rows
are escaped, so the texts are lines; and a row that lost an empty column has no last column, which no test accepts. So
every gate that the verdict rests on says what its row said, and every default (`-1`, `unavailable`, no members)
blocks. Lags are compared by the shell, and there the order of the printed texts is that of the numbers. The ages of a
sample are added by jq, whose sums are rounded to doubles: a sum that is rounded down to the limit passes, and this is
the one way to be ready without being fresh.
-/

namespace OraclePatching.DataGuard

open Jq Readiness

/-! ## The law

The claim in terms of the JSON the gate reads: ages and lags are its numbers, not the texts that the shell
compares. -/

/-- `.collector.version == "2" or .sampling.source == "live_sql"`. -/
def Live (observation : Observation) : Prop :=
  isVersion2 observation.document = true ∨ sampledLive observation.document = true

/-- The number that an age of a sample stands for: the number, or the digits of a text. -/
def ageValue : Json → Option Nat
  | .num q => if q.den = 1 ∧ 0 ≤ q.num then some q.num.toNat else none
  | .str s => digits? (dropNul s).toList
  | _ => none

/-- An age of a sample, `key` is `time_computed_age_seconds` or `datum_age_seconds`. -/
def sampleAge (m : Member) (kind key : String) : Option Nat :=
  ((m.lagSamples.at' [kind, key])).bind ageValue

/-- A lag within a limit. -/
def Within (lag : Option Int) (limit : Nat) : Prop := ∃ n : Int, lag = some n ∧ 0 ≤ n ∧ n ≤ limit

/-- A sample that is still fresh after `age` seconds. -/
def StillFresh (m : Member) (kind : String) (age : Int) (limit : Nat) : Prop :=
  ∃ c d, sampleAge m kind "time_computed_age_seconds" = some c ∧ sampleAge m kind "datum_age_seconds" = some d ∧
    c + age ≤ limit ∧ d + age ≤ limit

/-- The observation was collected `age` whole seconds before `now`. -/
def ObservationAge (env : Env) (observation : Observation) (now : Rat) (age : Int) : Prop :=
  ∃ collected : Int, env.fromdateiso8601 observation.collectedAt = some collected ∧
    (age : Rat) ≤ now - (collected : Rat) ∧ now - (collected : Rat) < ((age + 1 : Int) : Rat)

/-- What `ready_for_standby_first` promises. -/
structure LagLaw (env : Env) (observation : Observation) (policy : Policy) (now : Rat) : Prop where
  members : observation.members ≠ []
  age : ∃ age, ObservationAge env observation now age ∧ 0 ≤ age ∧ age ≤ policy.maximumObservationAgeSeconds ∧
    (Live observation → ∀ m ∈ observation.members, ∀ kind ∈ ["transport", "apply"],
      StillFresh m kind age policy.maximumSampleAgeSeconds)
  capable : ∀ m ∈ observation.members, dropNul m.status ∈ applyCapable
  transport : ∀ m ∈ observation.members, Within m.transportLagSeconds policy.maxTransportLagSeconds
  apply : ∀ m ∈ observation.members, Within m.applyLagSeconds policy.maxApplyLagSeconds

/-! ## The condition

`jq` adds and compares doubles. Below `2 ^ 53` a sum of whole numbers is itself, and the law holds of what the file
says. -/

/-- An age at collection that is over the limit once the age of the observation is added, but not when jq adds. -/
def Absorbed (c : Nat) (age : Int) (limit : Nat) : Prop := limit < c + age ∧ plus c age ≤ double limit

/-- No age of a live sample is absorbed. -/
def SumsHeld (env : Env) (observation : Observation) (policy : Policy) (now : Rat) : Prop :=
  Live observation → ∀ age, ObservationAge env observation now age → ∀ m ∈ observation.members,
    ∀ kind ∈ ["transport", "apply"], ∀ key ∈ ["time_computed_age_seconds", "datum_age_seconds"],
      ∀ c, sampleAge m kind key = some c → ¬ Absorbed c age policy.maximumSampleAgeSeconds

section
variable {env : Env} {observation : Observation} {policy : Policy} {now : Rat} {age age' : Int}

/-- What the code computes as the age is the age. -/
theorem age_iff : age? env observation now = some age ↔ ObservationAge env observation now age := by
  unfold age? ObservationAge
  rw [Option.map_eq_some_iff]
  refine exists_congr fun collected => and_congr_right fun _ => ?_
  constructor
  · rintro rfl
    exact ⟨Rat.floor_le _, Rat.lt_floor_add_one _⟩
  · rintro ⟨hle, hlt⟩
    have hlow := Rat.le_floor_iff.mpr hle
    have hhigh := Rat.floor_lt_iff.mpr hlt
    omega

theorem ObservationAge.unique (h : ObservationAge env observation now age)
    (h' : ObservationAge env observation now age') : age = age' :=
  Option.some.inj ((age_iff.mpr h).symm.trans (age_iff.mpr h'))

/-- Nothing is absorbed by a limit below `2^53`. -/
theorem sumsHeld_of_limit (h : policy.maximumSampleAgeSeconds < 2 ^ 53)
    (hage : ∀ age, ObservationAge env observation now age → 0 ≤ age) : SumsHeld env observation policy now := by
  intro _ age hobserved m _ kind _ key _ c _ ⟨hover, hpasses⟩
  rw [double_of_lt (by omega) (by omega)] at hpasses
  have hle := plus_le (Int.natCast_nonneg c) (hage age hobserved) (by omega) hpasses
  omega

end

/-! ## Texts without line breaks

The gate reads its result lines back one by one. A detail with a line break in it would be two lines, so the
details that count are shown to have none. -/

section
variable {s t : String}

/-- Two texts without line breaks, one after the other. -/
theorem line_append (hs : '\n' ∉ s.toList) (ht : '\n' ∉ t.toList) : '\n' ∉ (s ++ t).toList := by
  rw [String.toList_append, List.mem_append]
  rintro (h | h)
  · exact hs h
  · exact ht h

theorem print_line (fmt : NumberFormat) (q : Rat) : '\n' ∉ (fmt.print q).toList :=
  fun hc => (plain_iff.mp (fmt.plain q) _ hc).2.1 rfl

/-- A column of a row is a line. -/
theorem column_line {fields : List String} (hne : fields ≠ []) (htab : ∀ f ∈ fields, '\t' ∉ f.toList)
    (hline : ∀ f ∈ fields, '\n' ∉ f.toList) (k : Nat) : '\n' ∉ ((words (row fields)).getD k "").toList := by
  rw [List.getD_eq_getElem?_getD]
  cases hk : (words (row fields))[k]? with
  | none => simp
  | some w =>
      obtain ⟨f, hf, rfl⟩ := mem_words_row hne htab (List.mem_of_getElem? hk)
      intro hc
      exact hline f hf (mem_dropNul.mp hc).1

end

/-! ## Names -/

/-- `^…$` strips at most a trailing line break, so what is matched is part of the text. -/
theorem anchored_mem {s : String} {c : Char} (h : c ∈ Json.anchored s) : c ∈ s.toList := by
  unfold Json.anchored at h
  rw [String.characters_eq] at h
  split at h
  · rename_i cs heq
    rw [← List.mem_reverse, heq]
    exact List.mem_cons_of_mem _ (List.mem_reverse.mp h)
  · exact h

/-- A valid name is not lost on the way to the shell. -/
theorem validName_dropNul {name : String} (h : validName name = true) : dropNul (escape name) ≠ "" := by
  unfold validName at h
  split at h
  · exact absurd h Bool.false_ne_true
  · rename_i c cs heq
    rw [Bool.and_eq_true, Bool.and_eq_true] at h
    have hc : c ∈ name.toList := anchored_mem (by rw [heq]; exact List.mem_cons_self)
    have hkept : c ∈ (escape name).toList := by
      unfold escape
      rw [String.toList_ofList]
      refine List.mem_flatMap.mpr ⟨c, hc, ?_⟩
      have hplain : c ≠ '\t' ∧ c ≠ '\n' ∧ c ≠ '\r' ∧ c ≠ '\\' := by
        refine ⟨?_, ?_, ?_, ?_⟩ <;>
        · rintro rfl
          exact absurd h.1.1 (by decide)
      unfold escapeChar
      rw [if_neg hplain.1, if_neg hplain.2.1, if_neg hplain.2.2.1, if_neg hplain.2.2.2]
      exact List.mem_singleton.mpr rfl
    have hnul : c ≠ Char.ofNat 0 := by
      rintro rfl
      exact absurd h.1.1 (by decide)
    intro hempty
    have hmem := mem_dropNul.mpr ⟨hkept, hnul⟩
    rw [hempty] at hmem
    exact absurd hmem (by simp)

/-- The first column of a row that begins with a valid name. -/
theorem first_column {name : String} {fields : List String} (h : validName name = true)
    (htab : ∀ f ∈ fields, '\t' ∉ f.toList) : (words (row (escape name :: fields))).getD 0 "" ≠ "" := by
  have htab' : ∀ f ∈ escape name :: fields, '\t' ∉ f.toList := by
    intro f hf
    rcases List.mem_cons.mp hf with rfl | hf
    · exact (tab_escape name).1
    · exact htab f hf
  rw [words_row (List.cons_ne_nil _ _) htab', List.map_cons,
    List.filter_cons_of_pos (by simpa using validName_dropNul h)]
  exact validName_dropNul h

/-! ## Gates that passed -/

section
variable {age kind name lag status maximum computed datum : String}

/-- `[ 0 -le lag ]` succeeds on a whole number that is not negative. -/
theorem testLe_zero (h : testLe "0" lag = true) : ∃ n : Int, integer? lag = some n ∧ 0 ≤ n := by
  obtain ⟨m, n, hm, hn, hle⟩ := testLe_iff.mp h
  have hzero : shellInteger? "0" = some 0 := by decide
  rw [hzero] at hm
  injection hm with hm
  exact ⟨n, shellInteger_integer hn, hm ▸ hle⟩

/-- Two tests against `0` and a limit. -/
theorem testLe_between (hzero : testLe "0" lag = true) (hmax : testLe lag maximum = true) :
    ∃ n m : Int, integer? lag = some n ∧ integer? maximum = some m ∧ 0 ≤ n ∧ n ≤ m := by
  obtain ⟨n, hn, hnn⟩ := testLe_zero hzero
  obtain ⟨n', m, hn', hm, hle⟩ := testLe_iff.mp hmax
  have hsame := shellInteger_integer hn'
  rw [hn] at hsame
  injection hsame with hsame
  exact ⟨n, m, hn, shellInteger_integer hm, hnn, hsame ▸ hle⟩

theorem observationFreshness_clear (h : (observationFreshness age maximum).status ≠ .blocker) :
    ∃ n m : Int, integer? age = some n ∧ integer? maximum = some m ∧ 0 ≤ n ∧ n ≤ m := by
  unfold observationFreshness at h
  split at h
  · rename_i htests
    rw [Bool.and_eq_true] at htests
    exact testLe_between htests.1 htests.2
  · exact absurd rfl h

/-- The lag is a whole number between zero and the limit. -/
theorem lagGate_clear (h : (lagGate kind name lag maximum).status ≠ .blocker) :
    ∃ n m : Int, integer? lag = some n ∧ integer? maximum = some m ∧ 0 ≤ n ∧ n ≤ m := by
  unfold lagGate at h
  split at h
  · rename_i htests
    rw [Bool.and_eq_true, Bool.and_eq_true] at htests
    exact testLe_between htests.1.2 htests.2
  · exact absurd rfl h

/-- The member is in a state in which redo is applied. -/
theorem statusGate_clear (h : (statusGate name status).status ≠ .blocker) : status ∈ applyCapable := by
  unfold statusGate at h
  split at h
  · assumption
  · exact absurd rfl h

/-- The line of a lag gate breaks nowhere if what it quotes does not. -/
theorem lagGate_line (hkind : '\n' ∉ kind.toList) (hname : '\n' ∉ name.toList) (hlag : '\n' ∉ lag.toList)
    (hmax : '\n' ∉ maximum.toList) : '\n' ∉ (lagGate kind name lag maximum).detail.toList := by
  have hfront : '\n' ∉ (name ++ " " ++ kind ++ " lag " ++ lag).toList :=
    line_append (line_append (line_append (line_append hname (by decide)) hkind) (by decide)) hlag
  unfold lagGate
  split
  · exact line_append (line_append (line_append hfront (by decide)) hmax) (by decide)
  · exact line_append (line_append (line_append hfront (by decide)) hmax) (by decide)

theorem statusGate_line (hname : '\n' ∉ name.toList) (hstatus : '\n' ∉ status.toList) :
    '\n' ∉ (statusGate name status).detail.toList := by
  have hfront : '\n' ∉ (name ++ " status is " ++ status).toList :=
    line_append (line_append hname (by decide)) hstatus
  unfold statusGate
  split
  · exact line_append hfront (by decide)
  · exact line_append hfront (by decide)

theorem observationFreshness_line (hage : '\n' ∉ age.toList) (hmax : '\n' ∉ maximum.toList) :
    '\n' ∉ (observationFreshness age maximum).detail.toList := by
  unfold observationFreshness
  split
  · exact line_append (line_append (line_append (line_append (by decide) hage) (by decide)) hmax) (by decide)
  · exact line_append (line_append (line_append (line_append (by decide) hage) (by decide)) hmax) (by decide)

/-- A fresh sample has two ages, and the sum with the age of the observation, as `jq` rounds it, stays within the
    limit. -/
theorem sampleFresh_iff {n : Int} {limit : Nat} (h : sampleFresh computed datum n limit = true) :
    ∃ c d, digits? computed.toList = some c ∧ digits? datum.toList = some d ∧
      0 ≤ double n ∧ plus c n ≤ double limit ∧ plus d n ≤ double limit := by
  unfold sampleFresh at h
  split at h
  · rename_i c d hc hd
    exact ⟨c, d, hc, hd, of_decide_eq_true h⟩
  · exact absurd h Bool.false_ne_true

/-- The gates of a member have three short names; the standbys' verdict is read off them. -/
theorem lagGate_name : (lagGate kind name lag maximum).name = "lag" := by
  unfold lagGate
  split <;> rfl

theorem statusGate_name : (statusGate name status).name = "member_status" := by
  unfold statusGate
  split <;> rfl

theorem observationFreshness_name : (observationFreshness age maximum).name = "observation_freshness" := by
  unfold observationFreshness
  split <;> rfl

end

/-! ## Values behind texts -/

/-- A text that was escaped without a backslash is itself. -/
theorem escape_of_no_backslash {s : String} (h : '\\' ∉ (escape s).toList) : escape s = s := by
  unfold escape at h ⊢
  rw [String.toList_ofList] at h
  have hid : ∀ c ∈ s.toList, escapeChar c = [c] := by
    intro c hc
    have hno : '\\' ∉ escapeChar c := fun hmem => h (List.mem_flatMap.mpr ⟨c, hc, hmem⟩)
    unfold escapeChar at hno ⊢
    split at hno
    · exact absurd List.mem_cons_self hno
    · split at hno
      · exact absurd List.mem_cons_self hno
      · split at hno
        · exact absurd List.mem_cons_self hno
        · split at hno
          · exact absurd List.mem_cons_self hno
          · rename_i h1 h2 h3 h4
            rw [if_neg h1, if_neg h2, if_neg h3, if_neg h4]
  rw [List.flatMap_congr hid, List.flatMap_singleton', String.ofList_toList]

/-- Escaping changes none of the states that pass. -/
theorem capable_of_escape {status : String} (h : dropNul (escape status) ∈ applyCapable) :
    dropNul status ∈ applyCapable := by
  have hplain : ∀ w ∈ applyCapable, '\\' ∉ w.toList := by decide
  have hno : '\\' ∉ (escape status).toList := by
    intro hc
    exact hplain _ h (mem_dropNul.mpr ⟨hc, by decide⟩)
  rw [escape_of_no_backslash hno] at h
  exact h

theorem ne_of_integer {s : String} {n : Int} (h : integer? s = some n) : s ≠ "" := by
  rintro rfl
  have hempty : integer? "" = none := by decide
  rw [hempty] at h
  exact absurd h (by simp)

section
variable {fmt : NumberFormat} {i j m n : Int}

theorem print_nonneg (h : integer? (fmt.print (i : Rat)) = some n) (hn : 0 ≤ n) : 0 ≤ i := by
  have hsame := (fmt.reads h).2
  rw [Rat.num_intCast] at hsame
  exact double_sign.mp (hsame ▸ double_sign.mpr hn)

theorem print_le (hi : integer? (fmt.print (i : Rat)) = some m) (hj : integer? (fmt.print (j : Rat)) = some n)
    (hle : m ≤ n) : i ≤ j := Rat.intCast_le_intCast.mp (fmt.ordered hi hj hle)

end

/-- A lag that is printed as a number from `0` to the limit. -/
theorem within_of_text {env : Env} {lag : Option Int} {limit : Nat} {n k : Int}
    (hlag : integer? (lagText env lag) = some n) (hlimit : integer? (env.number.print limit) = some k) (h0 : 0 ≤ n)
    (hle : n ≤ k) : Within lag limit := by
  have hnonneg := print_nonneg hlag h0
  have hwithin := print_le (j := limit) hlag hlimit hle
  cases lag with
  | none => exact absurd hnonneg (by decide)
  | some i => exact ⟨i, rfl, hnonneg, hwithin⟩

/-! ## One member -/

section
variable {env : Env} {m : Member} {maxTransport maxApply : String}

/-- What the gates of a row say when none of those that can be read is a blocker. -/
theorem memberGates_clear (hT : '\n' ∉ maxTransport.toList) (hA : '\n' ∉ maxApply.toList)
    (h : ∀ g ∈ memberGates maxTransport maxApply (memberRow env m),
      shortName g.name = true → '\n' ∉ g.detail.toList → g.status ≠ .blocker) :
    dropNul m.status ∈ applyCapable ∧
      (∃ n k, integer? (lagText env m.transportLagSeconds) = some n ∧ integer? maxTransport = some k ∧ 0 ≤ n ∧ n ≤ k) ∧
      ∃ n k, integer? (lagText env m.applyLagSeconds) = some n ∧ integer? maxApply = some k ∧ 0 ≤ n ∧ n ≤ k := by
  have hesc := fun s : String => tab_escape s
  have htab : ∀ f ∈ [escape m.dbUniqueName, escape m.status, escape (lagText env m.transportLagSeconds),
      escape (lagText env m.applyLagSeconds)], '\t' ∉ f.toList := by
    intro f hf
    simp only [List.mem_cons, List.not_mem_nil, or_false] at hf
    rcases hf with rfl | rfl | rfl | rfl
    all_goals exact (hesc _).1
  have hbreak : ∀ f ∈ [escape m.dbUniqueName, escape m.status, escape (lagText env m.transportLagSeconds),
      escape (lagText env m.applyLagSeconds)], '\n' ∉ f.toList := by
    intro f hf
    simp only [List.mem_cons, List.not_mem_nil, or_false] at hf
    rcases hf with rfl | rfl | rfl | rfl
    all_goals exact (hesc _).2
  have hline := column_line (List.cons_ne_nil _ _) htab hbreak
  have hname : (words (memberRow env m)).getD 0 "" ≠ "" :=
    first_column m.valid fun f hf => htab f (List.mem_cons_of_mem _ hf)
  unfold memberGates at h
  dsimp only at h
  rw [if_neg hname] at h
  have hstatus := statusGate_clear (h _ List.mem_cons_self (by rw [statusGate_name]; decide)
    (statusGate_line (hline 0) (hline 1)))
  obtain ⟨t, kt, ht, hkt, ht0, htle⟩ := lagGate_clear (h _ (List.mem_cons_of_mem _ List.mem_cons_self)
    (by rw [lagGate_name]; decide) (lagGate_line (by decide) (hline 0) (hline 2) hT))
  obtain ⟨a, ka, ha, hka, ha0, hale⟩ := lagGate_clear (h _ (List.mem_cons_of_mem _ (List.mem_cons_of_mem _
    List.mem_cons_self)) (by rw [lagGate_name]; decide) (lagGate_line (by decide) (hline 0) (hline 3) hA))
  -- the last column is a number, so no column before it was lost
  have hfull : words (memberRow env m) = _ := words_full htab rfl (ne_of_integer ha)
  have hprint : ∀ lag, dropNul (escape (lagText env lag)) = lagText env lag := by
    intro lag
    unfold lagText
    rw [escape_plain (env.number.plain _), dropNul_plain (env.number.plain _)]
  rw [hfull] at hstatus ht ha
  simp only [List.map_cons, List.getD_cons_succ, List.getD_cons_zero, hprint] at hstatus ht ha
  exact ⟨capable_of_escape hstatus, ⟨t, kt, ht, hkt, ht0, htle⟩, ⟨a, ka, ha, hka, ha0, hale⟩⟩

end

/-! ## One sample -/

/-- A row of digits is not empty, and has digits in it only. -/
theorem digits_mem {cs : List Char} {n : Nat} (h : digits? cs = some n) : cs ≠ [] ∧ ∀ c ∈ cs, c.isDigit = true := by
  unfold digits? at h
  split at h
  · rename_i hcs
    exact ⟨hcs.1, List.all_eq_true.mp hcs.2⟩
  · exact absurd h (by simp)

/-- The column of an age holds digits only when the document has an age that is read as the same double; the default
    `-1` has a sign. -/
theorem age_column {fmt : NumberFormat} {a : Option Json} {text : String} {c : Nat}
    (h : tsvField fmt.print (Json.orElse a (.num (-1))) = some text) (hd : digits? (dropNul text).toList = some c) :
    ∃ j k, a = some j ∧ ageValue j = some k ∧ double k = double c := by
  have hnum : ∀ q : Rat, fmt.print q = text → q.den = 1 ∧ double c = double q.num := by
    rintro q rfl
    rw [dropNul_plain (fmt.plain q)] at hd
    exact fmt.reads (integer_of_digits hd)
  have hdouble : 0 ≤ double c := double_sign.mpr (Int.natCast_nonneg c)
  -- the default of a missing age prints a sign, which is no digit
  have hdefault : tsvField fmt.print (.num (-1)) ≠ some text := by
    intro hsome
    obtain ⟨-, hneg⟩ := hnum _ (Option.some.inj hsome)
    rw [hneg] at hdouble
    exact absurd (double_sign.mp hdouble) (by decide)
  cases a with
  | none => exact absurd h hdefault
  | some j =>
      cases j with
      | null => exact absurd h hdefault
      | bool b =>
          cases b with
          | false => exact absurd h hdefault
          | true =>
              have htrue : "true" = text := Option.some.inj h
              rw [← htrue] at hd
              have hletters : digits? (dropNul "true").toList = none := by decide
              rw [hletters] at hd
              exact absurd hd (by simp)
      | num q =>
          -- a printed number that reads as digits is an integer, the same double
          have hprint : fmt.print q = text := Option.some.inj h
          obtain ⟨hden, hsame⟩ := hnum q hprint
          have hq : 0 ≤ q.num := double_sign.mp (hsame ▸ hdouble)
          refine ⟨_, q.num.toNat, rfl, if_pos ⟨hden, hq⟩, ?_⟩
          rw [Int.toNat_of_nonneg hq, hsame]
      | str s =>
          -- a text has only digits when nothing in it was escaped
          have hescape : escape s = text := Option.some.inj h
          have hno : '\\' ∉ (escape s).toList := by
            intro hc
            have hdigit := (digits_mem hd).2 _ (mem_dropNul.mpr ⟨hescape ▸ hc, by decide⟩)
            exact absurd hdigit (by decide)
          rw [← hescape, escape_of_no_backslash hno] at hd
          exact ⟨_, c, rfl, hd, rfl⟩
      | arr items => exact absurd h (by simp [Json.orElse, Json.truthy, tsvField])
      | obj fields => exact absurd h (by simp [Json.orElse, Json.truthy, tsvField])

/-- An age that is read in a sample is there in the document. -/
theorem sampleAge_of_field {m : Member} {kind key : String} {j : Json} {c : Nat}
    (h : (Json.orElse (m.lagSamples.field kind) (.obj [])).field key = some j) (hc : ageValue j = some c) :
    sampleAge m kind key = some c := by
  have hnull : ageValue .null = none := rfl
  have hempty : (Json.obj []).field key = some .null := rfl
  have hmissing : some Json.null ≠ some j := by
    intro hj
    injection hj with hj
    rw [← hj, hnull] at hc
    exact absurd hc (by simp)
  unfold sampleAge
  cases hfield : m.lagSamples.field kind with
  | none =>
      rw [hfield] at h
      exact absurd (hempty.symm.trans h) hmissing
  | some v =>
      rw [hfield] at h
      unfold Json.orElse at h
      dsimp only at h
      split at h
      · simp only [Json.at', hfield, Option.bind_some, h]
        exact hc
      · exact absurd (hempty.symm.trans h) hmissing

section
variable {env : Env} {m : Member} {kind ageText limitText : String} {age : Int} {limit : Nat} {fields : List String}

/-- What the gate of a sample says when it is not a blocker that can be read: the sums jq makes are within the limit. -/
theorem sampleGates_clear (hkind : kind ∈ ["transport", "apply"]) (hfields : sampleFields env m kind = some fields)
    (hlimit : '\n' ∉ limitText.toList)
    (h : ∀ g ∈ sampleGates age ageText limit limitText (row fields),
      shortName g.name = true → '\n' ∉ g.detail.toList → g.status ≠ .blocker) :
    ∃ c d, sampleAge m kind "time_computed_age_seconds" = some c ∧ sampleAge m kind "datum_age_seconds" = some d ∧
      plus c age ≤ double limit ∧ plus d age ≤ double limit := by
  unfold sampleFields at hfields
  simp only [Option.bind_eq_bind, Option.bind_eq_some_iff, Option.some.injEq] at hfields
  obtain ⟨status, hstatus, computed, hcomputed, datum, hdatum, rfl⟩ := hfields
  have hkinds : ∀ k ∈ ["transport", "apply"], '\t' ∉ k.toList ∧ '\n' ∉ k.toList := by decide
  -- no column holds a tab or a line break, so the row splits where it was joined
  have hlines : ∀ f ∈ [escape m.dbUniqueName, kind, status, computed, datum], '\t' ∉ f.toList ∧ '\n' ∉ f.toList := by
    intro f hf
    simp only [List.mem_cons, List.not_mem_nil, or_false] at hf
    rcases hf with rfl | rfl | rfl | rfl | rfl
    · exact tab_escape _
    · exact hkinds _ hkind
    · exact tsvField_line hstatus
    · exact tsvField_line hcomputed
    · exact tsvField_line hdatum
  have htab := fun f hf => (hlines f hf).1
  have hline := column_line (List.cons_ne_nil _ _) htab fun f hf => (hlines f hf).2
  have hname := first_column m.valid fun f hf => htab f (List.mem_cons_of_mem _ hf)
  unfold sampleGates at h
  dsimp only at h
  rw [if_neg hname] at h
  by_cases hpass : (words (row [escape m.dbUniqueName, kind, status, computed, datum])).getD 2 "" = "collected" ∧
      sampleFresh ((words (row [escape m.dbUniqueName, kind, status, computed, datum])).getD 3 "")
        ((words (row [escape m.dbUniqueName, kind, status, computed, datum])).getD 4 "") age limit = true
  -- fresh: the two sums that jq compares are those of the ages in the document
  · obtain ⟨c, d, hc, hd, _, hcage, hdage⟩ := sampleFresh_iff hpass.2
    have hlast : (words (row [escape m.dbUniqueName, kind, status, computed, datum])).getD 4 "" ≠ "" := by
      intro hempty
      rw [hempty] at hd
      exact (digits_mem hd).1 rfl
    have hfull := words_full htab rfl hlast
    rw [hfull] at hc hd
    simp only [List.map_cons, List.getD_cons_succ, List.getD_cons_zero] at hc hd
    obtain ⟨j, c', hj, hjc, hcc⟩ := age_column hcomputed hc
    obtain ⟨k, d', hk, hkd, hdd⟩ := age_column hdatum hd
    refine ⟨c', d', sampleAge_of_field hj hjc, sampleAge_of_field hk hkd, ?_, ?_⟩
    · rw [plus, hcc]
      exact hcage
    · rw [plus, hdd]
      exact hdage
  -- not fresh: the gate is a blocker whose detail is a single line, which was excluded
  · rw [if_neg hpass] at h
    refine absurd rfl (h _ (List.mem_singleton.mpr rfl) (show shortName "sample_freshness" = true by decide) ?_)
    have hfront := line_append (line_append (line_append (hline 0) (by decide : '\n' ∉ " ".toList)) (hline 1))
      (by decide : '\n' ∉ " metric has missing, future or stale TIME_COMPUTED/DATUM_TIME (status=".toList)
    have hmiddle := line_append (line_append (line_append hfront (hline 2)) (by decide : '\n' ∉ "; computed=".toList)) (hline 3)
    exact line_append (line_append (line_append (line_append (line_append hmiddle (by decide)) (hline 4)) (by decide))
      hlimit) (by decide)

end

/-! ## The law of the gate -/

section
variable {env : Env} {observe policyFile : File} {now : Rat} {evaluatedAt : String} {evaluation : Json}
  {observation : Observation} {policy : Policy} {all : List Gate}

/-- What a ready evaluation has gone through: everything the law asks but for the samples, whose sums are those that
    jq makes. -/
theorem ready_reads (hgates : gates env observation policy now = .ok all) (hclear : hasBlocker all = false) :
    observation.members ≠ [] ∧
      (∃ age, ObservationAge env observation now age ∧ 0 ≤ age ∧ age ≤ policy.maximumObservationAgeSeconds ∧
        (Live observation → ∀ m ∈ observation.members, ∀ kind ∈ ["transport", "apply"],
          ∃ c d, sampleAge m kind "time_computed_age_seconds" = some c ∧ sampleAge m kind "datum_age_seconds" = some d ∧
            plus c age ≤ double policy.maximumSampleAgeSeconds ∧ plus d age ≤ double policy.maximumSampleAgeSeconds)) ∧
      ∀ m ∈ observation.members, dropNul m.status ∈ applyCapable ∧
        Within m.transportLagSeconds policy.maxTransportLagSeconds ∧
          Within m.applyLagSeconds policy.maxApplyLagSeconds := by
  obtain ⟨age, samples, hage, hsamples, hall⟩ := gates_ok hgates
  have hok : ∀ g ∈ all, shortName g.name = true → '\n' ∉ g.detail.toList → g.status ≠ .blocker :=
    fun g hg hname hline => no_blocker hclear hg hname hline
  obtain ⟨n, k, hn, hk, hn0, hnk⟩ := observationFreshness_clear (hok _ (by rw [hall]; exact List.mem_cons_self)
    (by rw [observationFreshness_name]; decide)
    (observationFreshness_line (print_line env.number _) (print_line env.number _)))
  have hmaximum := print_le (j := policy.maximumObservationAgeSeconds) hn hk hnk
  refine ⟨?_, ⟨age, age_iff.mp hage, print_nonneg hn hn0, hmaximum, ?_⟩, fun m hm => ?_⟩
  -- without a member there is a blocking gate for that
  · intro hnil
    have hgate : membersGate observation.members.length (env.number.print observation.members.length) =
        ⟨"members", .blocker,
          "Data Guard observation has no members; cannot evaluate lag or standby-first readiness."⟩ := by
      rw [hnil]
      rfl
    have hmem : membersGate observation.members.length (env.number.print observation.members.length) ∈ all := by
      rw [hall]
      simp
    rw [hgate] at hmem
    exact hok _ hmem (by decide) (by decide) rfl
  -- a live observation is sampled, and every sample has its gate
  · intro hlive m hm kind hkind
    have hcond : (isVersion2 observation.document || sampledLive observation.document) = true := by
      rw [Bool.or_eq_true]
      exact hlive
    unfold sampleFreshness at hsamples
    rw [if_pos hcond, Option.map_eq_some_iff] at hsamples
    obtain ⟨rows, hrows, rfl⟩ := hsamples
    unfold sampleRows at hrows
    have hmem : (m, kind) ∈ DataGuard.samples observation.members :=
      List.mem_flatMap.mpr ⟨m, hm, List.mem_map_of_mem hkind⟩
    obtain ⟨line, hline, hrow⟩ := mem_mapM hrows hmem
    obtain ⟨fields, hfields, rfl⟩ := Option.map_eq_some_iff.mp hrow
    refine sampleGates_clear hkind hfields (print_line env.number policy.maximumSampleAgeSeconds)
      fun g (hg : g ∈ sampleGates age (env.number.print age) _ _ (row fields)) => hok g ?_
    rw [hall]
    exact List.mem_append_left _ (List.mem_append_left _ (List.mem_cons_of_mem _ (List.mem_flatMap.mpr ⟨_, hline, hg⟩)))
  · obtain ⟨hcapable, ⟨t, kt, ht, hkt, ht0, htle⟩, ⟨a, ka, ha, hka, ha0, hale⟩⟩ :=
      @memberGates_clear env m _ _ (print_line env.number policy.maxTransportLagSeconds)
        (print_line env.number policy.maxApplyLagSeconds) (fun g hg => hok g (by
          rw [hall]
          exact List.mem_append_right _ (List.mem_flatMap.mpr ⟨_, List.mem_map_of_mem hm, hg⟩)))
    exact ⟨hcapable, within_of_text ht hkt ht0 htle, within_of_text ha hka ha0 hale⟩

end

/-! ## A standby -/

/-- A standby with the samples of its two lags, computed `age` seconds before the collection. -/
def sampledStandby (age : Rat) : Json :=
  .obj [("schema_version", .str "1.0"),
    ("collector", .obj [("name", .str "oracle.dataguard.observe"), ("version", .str "2")]),
    ("target", .obj [("db_unique_name", .str "prod_b")]),
    ("primary", .obj [("db_unique_name", .str "prod_b"), ("database_role", .str "PHYSICAL STANDBY")]),
    ("sampling", .obj [("source", .str "live_sql")]),
    ("collected_at", .str "2026-01-01T00:00:00Z"),
    ("members", .arr [.obj [("db_unique_name", .str "prod_b"), ("status", .str "APPLYING_LOG"),
      ("transport_lag_seconds", .num 0), ("apply_lag_seconds", .num 7),
      ("lag_samples", .obj [("transport", sample 0), ("apply", sample 7)])]]),
    ("record_sha256", .str zeroDigest.hex)]
where
  sample (seconds : Rat) : Json :=
    .obj [("status", .str "collected"), ("seconds", .num seconds), ("time_computed_age_seconds", .num age),
      ("datum_age_seconds", .num 5)]

/-- A policy with a limit for the age of samples. -/
def samplePolicy (limit : Rat) : Json :=
  .obj [("schema_version", .str "1.0"),
    ("dataguard", .obj [("max_transport_lag_seconds", .num 60), ("max_apply_lag_seconds", .num 60),
      ("maximum_sample_age_seconds", .num limit), ("require_broker", .bool false)])]

end OraclePatching.DataGuard
