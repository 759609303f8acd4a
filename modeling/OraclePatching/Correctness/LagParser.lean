import OraclePatching.DataGuard.Parser
import OraclePatching.Lib.Cut

/-!
# `Correctness.LagParser` — a lag is read, never made up

The matcher of the interval is shown to be the regular expression (`captureInterval_iff`), so the seconds are those of
the text. Then every way through `metric` is one of three: no row, one row with an absent field, one complete row all of
whose parts are well formed; the first two give `-1`, anything else is an error. What standby mode accepts is the
conjunction of these over the two metrics.
-/

namespace OraclePatching.DataGuard.Parser

open Jq

/-! ## The interval -/

section
variable {cs : List Char} {c : Char}

/-- Splitting a text at a character takes it apart in one way. -/
theorem splitOn_iff {parts : List (List Char)} (hne : parts ≠ []) :
    cs.splitOn c = parts ↔ cs = [c].intercalate parts ∧ ∀ p ∈ parts, c ∉ p := by
  constructor
  · rintro rfl
    exact ⟨(List.intercalate_splitOn c).symm, fun p hp => CutText.not_mem_of_mem_splitOn hp⟩
  · rintro ⟨rfl, hparts⟩
    exact List.splitOn_intercalate c hparts hne

theorem splitOn_one {a : List Char} : cs.splitOn c = [a] ↔ cs = a ∧ c ∉ a := by
  rw [splitOn_iff (List.cons_ne_nil _ _)]
  simp [List.intercalate]

theorem splitOn_two {a b : List Char} : cs.splitOn c = [a, b] ↔ cs = a ++ c :: b ∧ c ∉ a ∧ c ∉ b := by
  rw [splitOn_iff (List.cons_ne_nil _ _)]
  simp [List.intercalate]

theorem splitOn_three {a b d : List Char} :
    cs.splitOn c = [a, b, d] ↔ cs = a ++ c :: (b ++ c :: d) ∧ c ∉ a ∧ c ∉ b ∧ c ∉ d := by
  rw [splitOn_iff (List.cons_ne_nil _ _)]
  simp [List.intercalate]

theorem sign_text (cs : List Char) : cs = (if (sign cs).1 then ['+'] else []) ++ (sign cs).2 := by
  unfold sign
  split <;> rfl

theorem not_mem_digits (h : cs.all Char.isDigit = true) (hc : c.isDigit = false) : c ∉ cs := by
  intro hmem
  rw [List.all_eq_true.mp h c hmem] at hc
  exact Bool.noConfusion hc

/-- What is found is the text. -/
theorem interval_text {i : Interval} (h : interval? cs = some i) : cs = i.text := by
  unfold interval? at h
  split at h
  · rename_i days time hspace
    split at h
    · rename_i hours minutes rest hcolon
      obtain ⟨hcs, _⟩ := splitOn_two.mp hspace
      obtain ⟨htime, _⟩ := splitOn_three.mp hcolon
      have hfront := sign_text cs
      rw [hcs, htime] at hfront
      split at h
      · rename_i seconds hdot
        rw [(splitOn_one.mp hdot).1] at hfront
        rw [← Option.some.inj h]
        have hnone : dotted none = [] := rfl
        unfold Interval.text
        rw [hnone, List.append_nil]
        exact hfront
      · rename_i seconds fraction hdot
        rw [(splitOn_two.mp hdot).1] at hfront
        rw [← Option.some.inj h]
        exact hfront
      · exact absurd h (by simp)
    · exact absurd h (by simp)
  · exact absurd h (by simp)

/-- Every text of the form is found. -/
theorem interval_of_text {i : Interval} (h : i.matched = true) : interval? i.text = some i := by
  obtain ⟨plus, days, hours, minutes, seconds, fraction⟩ := i
  unfold Interval.matched isDigits isTwoDigits at h
  simp only [Bool.and_eq_true, Bool.not_eq_true', beq_iff_eq] at h
  obtain ⟨⟨⟨⟨⟨hdays, hd⟩, hhours, hh⟩, hminutes, hm⟩, hseconds, hs⟩, hfraction⟩ := h
  obtain ⟨d, ds, rfl⟩ : ∃ d ds, days = d :: ds := by
    cases days with
    | nil => exact absurd hdays (by simp)
    | cons d ds => exact ⟨d, ds, rfl⟩
  have hplus : d ≠ '+' := by
    rintro rfl
    exact absurd (List.all_eq_true.mp hd _ List.mem_cons_self) (by decide)
  have hsign : ∀ rest, sign ((if plus then ['+'] else []) ++ (d :: ds ++ rest)) = (plus, d :: ds ++ rest) := by
    intro rest
    cases plus with
    | true => rfl
    | false =>
        unfold sign
        split
        · rename_i heq
          simp only [Bool.false_eq_true, if_false, List.nil_append, List.cons_append, List.cons.injEq] at heq
          exact absurd heq.1 hplus
        · rfl
  -- a part with its own characters only has none of the separators
  have hrest : ∀ c, c.isDigit = false → c ≠ '.' → c ∉ seconds ++ dotted fraction := by
    intro c hc hdot hmem
    rcases List.mem_append.mp hmem with hmem | hmem
    · exact not_mem_digits hs hc hmem
    · cases fraction with
      | none => exact absurd hmem List.not_mem_nil
      | some f =>
          rcases List.mem_cons.mp hmem with hmem | hmem
          · exact hdot hmem
          · simp only [Option.all_some, Bool.and_eq_true] at hfraction
            exact not_mem_digits hfraction.2 hc hmem
  have hcolon : ∀ c, c.isDigit = false → c ≠ '.' → c ≠ ':' →
      c ∉ hours ++ ':' :: (minutes ++ ':' :: (seconds ++ dotted fraction)) := by
    intro c hc hdot hcolon hmem
    rcases List.mem_append.mp hmem with hmem | hmem
    · exact not_mem_digits hh hc hmem
    · rcases List.mem_cons.mp hmem with hmem | hmem
      · exact hcolon hmem
      · rcases List.mem_append.mp hmem with hmem | hmem
        · exact not_mem_digits hm hc hmem
        · rcases List.mem_cons.mp hmem with hmem | hmem
          · exact hcolon hmem
          · exact hrest c hc hdot hmem
  unfold interval? Interval.text
  dsimp only
  rw [hsign]
  dsimp only
  rw [splitOn_two.mpr ⟨rfl, not_mem_digits hd (by decide), hcolon ' ' (by decide) (by decide) (by decide)⟩]
  dsimp only
  rw [splitOn_three.mpr ⟨rfl, not_mem_digits hh (by decide), not_mem_digits hm (by decide), hrest ':' (by decide) (by decide)⟩]
  dsimp only
  cases fraction with
  | none =>
      unfold dotted
      dsimp only
      rw [List.append_nil, splitOn_one.mpr ⟨rfl, not_mem_digits hs (by decide)⟩]
  | some f =>
      simp only [Option.all_some, Bool.and_eq_true] at hfraction
      unfold dotted
      dsimp only
      rw [splitOn_two.mpr ⟨rfl, not_mem_digits hs (by decide), not_mem_digits hfraction.2 (by decide)⟩]

/-- **The matcher is the regular expression**: it finds the groups that spell the text, and no others. -/
theorem captureInterval_iff {value : String} {i : Interval} :
    captureInterval value = some i ↔ i.matched = true ∧ value.toList = i.text := by
  unfold captureInterval
  rw [Option.filter_eq_some_iff]
  constructor
  · rintro ⟨hfound, hmatched⟩
    exact ⟨hmatched, interval_text hfound⟩
  · rintro ⟨hmatched, htext⟩
    rw [htext]
    exact ⟨interval_of_text hmatched, hmatched⟩

end

/-! ## Well-formed parts -/

/-- `day(p) to second(q) interval`, with digits `p` and `q`. -/
def UnitText (value : String) : Prop :=
  ∃ p q, isDigits p = true ∧ isDigits q = true ∧
    value.toList = "day(".toList ++ (p ++ (") to second(".toList ++ (q ++ ") interval".toList)))

/-- A timestamp of one of the two forms that is a date: printing its epoch gives it back. -/
def Timestamp (calendar : Calendar) (value : String) : Prop :=
  ∃ format epoch, timestampFormat? value = some format ∧ calendar.epoch format value = some epoch ∧
    calendar.print format epoch = value

/-- An interval whose hours, minutes and seconds are in range. -/
def IntervalText (value : String) : Prop := ∃ i : Interval, i.matched = true ∧ i.inRange = true ∧ value.toList = i.text

section
variable {cs rest : List Char}

theorem after_iff {pre : List Char} : after? pre cs = some rest ↔ cs = pre ++ rest := by
  unfold after?
  constructor
  · intro h
    split at h
    · rename_i hpre
      obtain ⟨t, ht⟩ := List.isPrefixOf_iff_prefix.mp hpre
      rw [← ht, List.drop_left] at h
      rw [← ht, Option.some.inj h]
    · exact absurd h (by simp)
  · rintro rfl
    rw [if_pos (List.isPrefixOf_iff_prefix.mpr (List.prefix_append _ _)), List.drop_left]

/-- `[0-9]+` takes all the digits there are. -/
theorem afterDigits_iff {c : Char} (hc : c.isDigit = false) :
    afterDigits? cs = some (c :: rest) ↔ ∃ ds, isDigits ds = true ∧ cs = ds ++ c :: rest := by
  unfold afterDigits? isDigits
  constructor
  · intro h
    split at h
    · exact absurd h (by simp)
    · rename_i hne
      refine ⟨cs.takeWhile Char.isDigit, ?_, ?_⟩
      · rw [Bool.and_eq_true, Bool.not_eq_true']
        refine ⟨by simpa using hne, List.all_eq_true.mpr fun d hd => List.mem_takeWhile_imp hd⟩
      · rw [← Option.some.inj h]
        exact List.takeWhile_append_dropWhile.symm
  · rintro ⟨ds, hds, rfl⟩
    rw [Bool.and_eq_true, Bool.not_eq_true'] at hds
    have hall : ∀ d ∈ ds, d.isDigit = true := List.all_eq_true.mp hds.2
    rw [List.takeWhile_append_of_pos hall, List.dropWhile_append_of_pos hall,
      List.takeWhile_cons_of_neg (by simp [hc]), List.dropWhile_cons_of_neg (by simp [hc]), List.append_nil, hds.1]
    rfl

end

theorem isUnit_iff {value : String} : isUnit value = true ↔ UnitText value := by
  have hsecond : ") to second(".toList = ')' :: " to second(".toList := by decide
  have hend : ") interval".toList = ')' :: " interval".toList := by decide
  unfold isUnit UnitText
  rw [beq_iff_eq]
  simp only [Option.bind_eq_bind, Option.bind_eq_some_iff, after_iff, List.append_nil]
  constructor
  · rintro ⟨r1, h1, r2, h2, r3, rfl, r4, h4, h5⟩
    rw [hsecond, List.cons_append, afterDigits_iff (by decide)] at h2
    rw [h5, hend, afterDigits_iff (by decide)] at h4
    obtain ⟨p, hp, rfl⟩ := h2
    obtain ⟨q, hq, rfl⟩ := h4
    refine ⟨p, q, hp, hq, ?_⟩
    rw [h1, hsecond, hend]
    rfl
  · rintro ⟨p, q, hp, hq, h⟩
    refine ⟨_, h, ") to second(".toList ++ (q ++ ") interval".toList), ?_, _, rfl, _, ?_, rfl⟩
    · rw [hsecond, List.cons_append]
      exact (afterDigits_iff (by decide)).mpr ⟨p, hp, rfl⟩
    · rw [hend]
      exact (afterDigits_iff (by decide)).mpr ⟨q, hq, rfl⟩

section
variable {α β : Type} {calendar : Calendar} {value : String}

/-- Two steps succeed if the first does, and the second on its result. -/
theorem bind_ok {x : Except String α} {f : α → Except String β} {b : β} :
    (x >>= f) = .ok b ↔ ∃ a, x = .ok a ∧ f a = .ok b := by
  cases x with
  | error e => simp [bind, Except.bind]
  | ok a => simp [bind, Except.bind]

/-- A time can be read if it is a timestamp of the calendar. -/
theorem localEpoch_ok : (∃ epoch, localEpoch calendar value = .ok epoch) ↔ Timestamp calendar value := by
  unfold localEpoch Timestamp
  cases hformat : timestampFormat? value with
  | none => simp
  | some format =>
      cases hepoch : calendar.epoch format value with
      | none => simp [hepoch]
      | some epoch =>
          by_cases hprint : calendar.print format epoch = value
          · simp [hepoch, hprint]
          · simp [hepoch, hprint]

/-- **The seconds are the ceiling of the interval.** -/
theorem intervalSeconds_ok {seconds : Int} : intervalSeconds value = .ok seconds ↔
    ∃ i : Interval, i.matched = true ∧ i.inRange = true ∧ value.toList = i.text ∧ seconds = i.value.ceil := by
  unfold intervalSeconds
  constructor
  · intro h
    split at h
    · exact absurd h (by simp)
    · rename_i i hcapture
      obtain ⟨hmatched, htext⟩ := captureInterval_iff.mp hcapture
      split at h
      · rename_i hrange
        injection h with h
        exact ⟨i, hmatched, hrange, htext, h.symm⟩
      · exact absurd h (by simp)
  · rintro ⟨i, hmatched, hrange, htext, rfl⟩
    rw [captureInterval_iff.mpr ⟨hmatched, htext⟩]
    simp [hrange]

example : (intervalSeconds "+01 00:00:01.2").toOption = some 86402 := by decide +kernel

end

/-! ## One metric

A metric is read from the rows with its name. With no such row, or an incomplete one, the lag is absent; two rows
are refused. -/

/-- Value, unit, both clocks and the source are there. -/
def Complete (row : Row) : Prop := ∀ k ∈ [2, 3, 4, 5, 6], maybe (row.get k) ≠ none

/-- Interval, unit and both clocks are of their forms. -/
structure WellFormed (calendar : Calendar) (row : Row) : Prop where
  interval : IntervalText (row.get 2)
  unit : UnitText (row.get 3)
  computed : Timestamp calendar (row.get 4)
  datum : Timestamp calendar (row.get 5)

/-- What a metric may say of its rows: the seconds it emits and the source it names. -/
inductive Reading (calendar : Calendar) : List Row → Int → Option String → Prop where
  | missing : Reading calendar [] (-1) none
  | absent (row : Row) (h : ¬ Complete row) : Reading calendar [row] (-1) (maybe (row.get 6))
  | read (row : Row) (i : Interval) (h : Complete row) (hform : WellFormed calendar row) (hmatched : i.matched = true)
      (htext : (row.get 2).toList = i.text) : Reading calendar [row] i.value.ceil (some (row.get 6))

section
variable {calendar : Calendar} {row : Row} {rs : List Row} {name : String} {clock : Int} {m : Metric}

/-- A field that is there is not empty. -/
theorem maybe_some {field value : String} (h : maybe field = some value) : field = value := by
  unfold maybe at h
  split at h
  · exact absurd h (by simp)
  · exact Option.some.inj h

/-- A complete row has all of its five fields. -/
theorem complete_iff : Complete row ↔
    ∃ value unit computed datum source, maybe (row.get 2) = some value ∧ maybe (row.get 3) = some unit ∧
      maybe (row.get 4) = some computed ∧ maybe (row.get 5) = some datum ∧ maybe (row.get 6) = some source := by
  unfold Complete
  simp only [List.forall_mem_cons, List.not_mem_nil, false_implies, implies_true, and_true, ne_eq]
  constructor
  · rintro ⟨h2, h3, h4, h5, h6⟩
    obtain ⟨value, hvalue⟩ := Option.ne_none_iff_exists'.mp h2
    obtain ⟨unit, hunit⟩ := Option.ne_none_iff_exists'.mp h3
    obtain ⟨computed, hcomputed⟩ := Option.ne_none_iff_exists'.mp h4
    obtain ⟨datum, hdatum⟩ := Option.ne_none_iff_exists'.mp h5
    obtain ⟨source, hsource⟩ := Option.ne_none_iff_exists'.mp h6
    exact ⟨value, unit, computed, datum, source, hvalue, hunit, hcomputed, hdatum, hsource⟩
  · rintro ⟨value, unit, computed, datum, source, hvalue, hunit, hcomputed, hdatum, hsource⟩
    simp [hvalue, hunit, hcomputed, hdatum, hsource]

/-- A row with an absent field is unavailable, whatever else it says. -/
theorem metricOfRow_absent (h : ¬ Complete row) : ∃ m, metricOfRow calendar name clock row = .ok m ∧ m.seconds = -1 ∧
    m.sourceDbUniqueName = maybe (row.get 6) := by
  unfold metricOfRow
  split
  · rename_i value unit computed datum source hvalue hunit hcomputed hdatum hsource
    exact absurd (complete_iff.mpr ⟨value, unit, computed, datum, source, hvalue, hunit, hcomputed, hdatum, hsource⟩) h
  · exact ⟨_, rfl, rfl, rfl⟩

/-- A complete row is read exactly when it is well formed. -/
theorem metricOfRow_complete (h : Complete row) : metricOfRow calendar name clock row = .ok m →
    WellFormed calendar row ∧ m.sourceDbUniqueName = some (row.get 6) ∧
      ∃ i : Interval, i.matched = true ∧ (row.get 2).toList = i.text ∧ m.seconds = i.value.ceil := by
  obtain ⟨value, unit, computed, datum, source, hvalue, hunit, hcomputed, hdatum, hsource⟩ := complete_iff.mp h
  unfold metricOfRow
  rw [hvalue, hunit, hcomputed, hdatum, hsource]
  dsimp only
  intro hok
  split at hok
  · rename_i hunitText
    obtain ⟨seconds, hseconds, hok⟩ := bind_ok.mp hok
    obtain ⟨computedEpoch, hcomputedEpoch, hok⟩ := bind_ok.mp hok
    obtain ⟨datumEpoch, hdatumEpoch, hok⟩ := bind_ok.mp hok
    obtain ⟨i, hmatched, hrange, htext, hceil⟩ := intervalSeconds_ok.mp hseconds
    injection hok with hok
    rw [← hok, maybe_some hvalue, maybe_some hsource]
    refine ⟨⟨?_, ?_, ?_, ?_⟩, rfl, i, hmatched, htext, hceil⟩
    · rw [maybe_some hvalue]
      exact ⟨i, hmatched, hrange, htext⟩
    · rw [maybe_some hunit]
      exact isUnit_iff.mp hunitText
    · rw [maybe_some hcomputed]
      exact localEpoch_ok.mp ⟨_, hcomputedEpoch⟩
    · rw [maybe_some hdatum]
      exact localEpoch_ok.mp ⟨_, hdatumEpoch⟩
  · exact absurd hok (by simp)

theorem metricOfRow_wellFormed (h : Complete row) (hform : WellFormed calendar row) :
    ∃ m, metricOfRow calendar name clock row = .ok m := by
  obtain ⟨value, unit, computed, datum, source, hvalue, hunit, hcomputed, hdatum, hsource⟩ := complete_iff.mp h
  obtain ⟨hinterval, hunitText, hcomputedText, hdatumText⟩ := hform
  rw [maybe_some hvalue] at hinterval
  rw [maybe_some hunit] at hunitText
  rw [maybe_some hcomputed] at hcomputedText
  rw [maybe_some hdatum] at hdatumText
  obtain ⟨i, hmatched, hrange, htext⟩ := hinterval
  obtain ⟨computedEpoch, hcomputedEpoch⟩ := localEpoch_ok.mpr hcomputedText
  obtain ⟨datumEpoch, hdatumEpoch⟩ := localEpoch_ok.mpr hdatumText
  have hseconds := intervalSeconds_ok.mpr ⟨i, hmatched, hrange, htext, rfl⟩
  unfold metricOfRow
  rw [hvalue, hunit, hcomputed, hdatum, hsource]
  dsimp only
  rw [if_pos (isUnit_iff.mpr hunitText), hseconds, hcomputedEpoch, hdatumEpoch]
  exact ⟨_, rfl⟩

/-- **A metric that is emitted is a reading of its rows.** -/
theorem metric_reading (h : metric calendar rs name clock = .ok m) :
    Reading calendar (metricRows rs name) m.seconds m.sourceDbUniqueName := by
  unfold metric at h
  split at h
  · rename_i hrows
    injection h with h
    rw [hrows, ← h]
    exact .missing
  · rename_i row hrows
    rw [hrows]
    by_cases hcomplete : Complete row
    · obtain ⟨hform, hsource, i, hmatched, htext, hceil⟩ := metricOfRow_complete hcomplete h
      rw [hsource, hceil]
      exact .read row i hcomplete hform hmatched htext
    · obtain ⟨m', hm', hseconds, hsource⟩ := @metricOfRow_absent calendar row name clock hcomplete
      rw [hm'] at h
      injection h with h
      rw [← h, hseconds, hsource]
      exact .absent row hcomplete
  · exact absurd h (by simp)

/-- **And a metric whose rows have a reading is emitted.** -/
theorem metric_of_reading {seconds : Int} {source : Option String}
    (h : Reading calendar (metricRows rs name) seconds source) : ∃ m, metric calendar rs name clock = .ok m := by
  unfold metric
  generalize metricRows rs name = found at h
  cases h with
  | missing => exact ⟨_, rfl⟩
  | absent row hcomplete =>
      obtain ⟨m, hm, _⟩ := @metricOfRow_absent calendar row name clock hcomplete
      exact ⟨m, hm⟩
  | read row i hcomplete hform hmatched htext => exact metricOfRow_wellFormed hcomplete hform

/-- Rows have one reading at most. -/
theorem Reading.unique {ms : List Row} {s t : Int} {a b : Option String} (h : Reading calendar ms s a)
    (h' : Reading calendar ms t b) : s = t ∧ a = b := by
  cases h with
  | missing =>
      cases h' with
      | missing => exact ⟨rfl, rfl⟩
  | absent row hcomplete =>
      cases h' with
      | absent row hcomplete => exact ⟨rfl, rfl⟩
      | read row i hcomplete' => exact absurd hcomplete' hcomplete
  | read row i hcomplete hform hmatched htext =>
      cases h' with
      | absent row hcomplete' => exact absurd hcomplete hcomplete'
      | read row j hcomplete' hform' hmatched' htext' =>
          have hi := interval_of_text hmatched
          rw [← htext, htext', interval_of_text hmatched'] at hi
          rw [Option.some.inj hi]
          exact ⟨rfl, rfl⟩

end

/-! ## Standby mode -/

/-- A source that is named is the primary of the identity. -/
def Native (identity : Json) (source : Option String) : Prop :=
  ∀ text, source = some text → identity.field "primary_db_unique_name" = some (.str text)

/-- What standby mode accepts. -/
structure Accepts (calendar : Calendar) (identity : Json) (rs : List Row) : Prop where
  tagged : ∀ row ∈ rs, isTagged row = true
  clock : ∃ row, rs.filter (·.hasTag "DG_CLOCK") = [row] ∧ Timestamp calendar (row.get 1)
  process : (rs.filter (·.hasTag "DG_APPLY")).length ≤ 1
  indexable : identity.field "db_unique_name" ≠ none
  metrics : ∀ name ∈ ["transport lag", "apply lag"], ∃ seconds source,
    Reading calendar (metricRows rs name) seconds source ∧ Native identity source

section
variable {calendar : Calendar} {identity : Json} {text : String} {out : Standby} {m : Metric}

/-- A lag is native if its source, where one is named, is the primary of the standby. -/
theorem foreignSource_false : foreignSource identity m = .ok false ↔ Native identity m.sourceDbUniqueName := by
  unfold foreignSource Native
  cases hsource : m.sourceDbUniqueName with
  | none => simp
  | some source =>
      cases hprimary : identity.field "primary_db_unique_name" with
      | none => simp
      | some primary =>
          have hiff : Json.isStr (some primary) source = true ↔ primary = .str source := by
            rw [Json.isStr_iff, Option.some.injEq]
          simp [hiff]

/-- The parts of an accepted text. -/
theorem standby_ok (h : standby calendar identity text = .ok out) :
    (∀ row ∈ rows text, isTagged row = true) ∧
      (∃ row clock, (rows text).filter (·.hasTag "DG_CLOCK") = [row] ∧ localEpoch calendar (row.get 1) = .ok clock ∧
        metric calendar (rows text) "transport lag" clock = .ok out.transport ∧
        metric calendar (rows text) "apply lag" clock = .ok out.apply) ∧
      ((rows text).filter (·.hasTag "DG_APPLY")).length ≤ 1 ∧
      identity.field "db_unique_name" ≠ none ∧
      Native identity out.transport.sourceDbUniqueName ∧ Native identity out.apply.sourceDbUniqueName := by
  unfold standby at h
  dsimp only at h
  -- the parser's refusals in order: an untagged row, the clock, two apply rows, a foreign source, no name
  split at h
  · exact absurd h (by simp)
  · rename_i htagged
    split at h
    · rename_i clockRow hclock
      split at h
      · exact absurd h (by simp)
      · rename_i hprocess
        obtain ⟨clock, hepoch, h⟩ := bind_ok.mp h
        obtain ⟨transport, htransport, h⟩ := bind_ok.mp h
        obtain ⟨apply, happly, h⟩ := bind_ok.mp h
        obtain ⟨foreignTransport, hforeignT, h⟩ := bind_ok.mp h
        split at h
        · exact absurd h (by simp)
        · rename_i hft
          obtain ⟨foreignApply, hforeignA, h⟩ := bind_ok.mp h
          split at h
          · exact absurd h (by simp)
          · rename_i hfa
            split at h
            · exact absurd h (by simp)
            · rename_i name hname
              injection h with h
              rw [← h]
              rw [Bool.not_eq_true] at hft hfa
              rw [hft] at hforeignT
              rw [hfa] at hforeignA
              refine ⟨?_, ⟨clockRow, clock, hclock, hepoch, htransport, happly⟩, by omega, ?_,
                foreignSource_false.mp hforeignT, foreignSource_false.mp hforeignA⟩
              · intro row hrow
                -- a row without a tag would have been refused first
                cases hbad : isTagged row with
                | true => rfl
                | false => exact absurd (List.any_eq_true.mpr ⟨row, hrow, by simp [hbad]⟩) htagged
              · rw [hname]
                exact Option.some_ne_none name
    · exact absurd h (by simp)

/-- **Standby mode answers exactly on what it accepts.** -/
theorem standby_accepts : (∃ out, standby calendar identity text = .ok out) ↔ Accepts calendar identity (rows text) := by
  constructor
  · rintro ⟨out, h⟩
    obtain ⟨htagged, ⟨row, clock, hclock, hepoch, htransport, happly⟩, hprocess, hidentity, hnt, hna⟩ := standby_ok h
    refine ⟨htagged, ⟨row, hclock, localEpoch_ok.mp ⟨clock, hepoch⟩⟩, hprocess, hidentity, ?_⟩
    intro name hname
    simp only [List.mem_cons, List.not_mem_nil, or_false] at hname
    rcases hname with rfl | rfl
    · exact ⟨_, _, metric_reading htransport, hnt⟩
    · exact ⟨_, _, metric_reading happly, hna⟩
  · rintro ⟨htagged, ⟨row, hclock, htime⟩, hprocess, hidentity, hmetrics⟩
    obtain ⟨clock, hepoch⟩ := localEpoch_ok.mpr htime
    obtain ⟨_, _, hreadT, hnativeT⟩ := hmetrics "transport lag" (by simp)
    obtain ⟨_, _, hreadA, hnativeA⟩ := hmetrics "apply lag" (by simp)
    obtain ⟨transport, htransport⟩ := @metric_of_reading calendar (rows text) "transport lag" clock _ _ hreadT
    obtain ⟨apply, happly⟩ := @metric_of_reading calendar (rows text) "apply lag" clock _ _ hreadA
    obtain ⟨name, hname⟩ := Option.ne_none_iff_exists'.mp hidentity
    -- with every part at hand the parser passes its refusals one by one
    have hall : ¬ ((rows text).any fun row => !isTagged row) = true := by
      intro hany
      obtain ⟨row, hrow, hbad⟩ := List.any_eq_true.mp hany
      rw [htagged row hrow] at hbad
      exact Bool.noConfusion hbad
    have hft : foreignSource identity transport = .ok false := foreignSource_false.mpr <| by
      rw [← ((metric_reading htransport).unique hreadT).2] at hnativeT
      exact hnativeT
    have hfa : foreignSource identity apply = .ok false := foreignSource_false.mpr <| by
      rw [← ((metric_reading happly).unique hreadA).2] at hnativeA
      exact hnativeA
    unfold standby
    dsimp only
    rw [if_neg hall, hclock]
    dsimp only
    rw [if_neg (by omega)]
    simp only [bind, Except.bind, hepoch, htransport, happly, hft, hfa, hname]
    exact ⟨_, rfl⟩

end

/-! ## The law of the lags -/

/-- What an emitted lag owes the rows: a lag that is not negative is the ceiling of the interval of the one row, which
    is complete, well formed and of the primary; without a row or without a field it is `-1`. -/
def LagLaw (calendar : Calendar) (identity : Json) (rs : List Row) (name : String) (lag : Int) : Prop :=
  (0 ≤ lag → ∃ row, metricRows rs name = [row] ∧ Complete row ∧ WellFormed calendar row ∧
    identity.field "primary_db_unique_name" = some (.str (row.get 6)) ∧
    ∃ i : Interval, i.matched = true ∧ (row.get 2).toList = i.text ∧ lag = i.value.ceil) ∧
  (metricRows rs name = [] ∨ (∃ row, metricRows rs name = [row] ∧ ¬ Complete row) → lag = -1)

/-- A row twice, a complete row that is malformed, or a row without a tag. -/
def Refusable (calendar : Calendar) (rs : List Row) : Prop :=
  (∃ row ∈ rs, isTagged row = false) ∨
    ∃ name ∈ ["transport lag", "apply lag"], 2 ≤ (metricRows rs name).length ∨
      ∃ row ∈ metricRows rs name, Complete row ∧ ¬ WellFormed calendar row

/-- A reading of a native metric obeys the law. -/
theorem lagLaw_of_reading {calendar : Calendar} {identity : Json} {rs : List Row} {name : String} {lag : Int}
    {source : Option String} (h : Reading calendar (metricRows rs name) lag source) (hnative : Native identity source) :
    LagLaw calendar identity rs name lag := by
  unfold LagLaw
  generalize metricRows rs name = found at h
  cases h with
  | missing => exact ⟨fun hlag => absurd hlag (by decide), fun _ => rfl⟩
  | absent row hcomplete => exact ⟨fun hlag => absurd hlag (by decide), fun _ => rfl⟩
  | read row i hcomplete hform hmatched htext =>
      refine ⟨fun _ => ⟨row, rfl, hcomplete, hform, hnative _ rfl, i, hmatched, htext, rfl⟩, ?_⟩
      rintro (hnone | ⟨row', hrow, habsent⟩)
      · exact absurd hnone (by simp)
      · injection hrow with hrow
        exact absurd (hrow ▸ hcomplete) habsent

/-- **Standby mode never makes up a lag**: for every calendar, identity and text. -/
theorem lag_parsed (calendar : Calendar) (identity : Json) (text : String) :
    (∀ out, standby calendar identity text = .ok out →
      LagLaw calendar identity (rows text) "transport lag" out.transport.seconds ∧
        LagLaw calendar identity (rows text) "apply lag" out.apply.seconds) ∧
      (Refusable calendar (rows text) → ∃ message, standby calendar identity text = .error message) ∧
      ((∃ out, standby calendar identity text = .ok out) ↔ Accepts calendar identity (rows text)) := by
  refine ⟨?_, ?_, standby_accepts⟩
  · intro out h
    obtain ⟨_, ⟨_, _, _, _, htransport, happly⟩, _, _, hnativeT, hnativeA⟩ := standby_ok h
    exact ⟨lagLaw_of_reading (metric_reading htransport) hnativeT, lagLaw_of_reading (metric_reading happly) hnativeA⟩
  -- an accepted text has none of the faults, so a text with one is refused
  · intro hrefusable
    cases hout : standby calendar identity text with
    | error message => exact ⟨message, rfl⟩
    | ok out =>
        exfalso
        obtain ⟨htagged, _, _, _, hmetrics⟩ := standby_accepts.mp ⟨out, hout⟩
        rcases hrefusable with ⟨row, hrow, hbad⟩ | ⟨name, hname, hbad⟩
        · rw [htagged row hrow] at hbad
          exact Bool.noConfusion hbad
        · obtain ⟨_, _, hreading, _⟩ := hmetrics name hname
          generalize metricRows (rows text) name = found at hbad hreading
          cases hreading with
          | missing => simp at hbad
          | absent row hcomplete =>
              simp only [List.length_singleton, List.mem_singleton, exists_eq_left] at hbad
              rcases hbad with hbad | ⟨hcomplete', _⟩
              · omega
              · exact hcomplete hcomplete'
          | read row i hcomplete hform hmatched htext =>
              simp only [List.length_singleton, List.mem_singleton, exists_eq_left] at hbad
              rcases hbad with hbad | ⟨_, hform'⟩
              · omega
              · exact hform' hform

/-- The calendar on the timestamps of one sample. -/
def sampleCalendar : Calendar where
  epoch _ value :=
    if value = "01/02/2026 10:00:00" then some 1767348000
    else if value = "01/02/2026 09:59:58" then some 1767347998
    else none
  print _ epoch := if epoch = 1767348000 then "01/02/2026 10:00:00" else "01/02/2026 09:59:58"

def sampleIdentity : Json := .obj [("db_unique_name", .str "STBY"), ("primary_db_unique_name", .str "PROD")]

/-- A sample with a transport lag, and no apply lag yet. -/
def sampleText : String :=
  "DG_CLOCK|01/02/2026 10:00:00\r\nDG_APPLY|MRP0|APPLYING_LOG\n\n" ++
    "DG_METRIC|transport lag|+00 00:01:07.5|day(2) to second(0) interval|01/02/2026 10:00:00|01/02/2026 09:59:58|PROD\n" ++
    "DG_METRIC|apply lag|~|~|~|~|PROD\n"

/-- The transport lag is rounded up, and the row without an apply lag gives `-1`. -/
theorem lag_parsed_standby : ∃ out, standby sampleCalendar sampleIdentity sampleText = .ok out ∧
    out.transport.seconds = 68 ∧ out.apply.seconds = -1 ∧ Accepts sampleCalendar sampleIdentity (rows sampleText) := by
  have hout : (standby sampleCalendar sampleIdentity sampleText).toOption.map
      (fun out => (out.transport.seconds, out.apply.seconds)) = some (68, -1) := by decide +kernel
  cases hrun : standby sampleCalendar sampleIdentity sampleText with
  | error message =>
      rw [hrun] at hout
      exact absurd hout (by simp [Except.toOption])
  | ok out =>
      rw [hrun] at hout
      obtain ⟨htransport, happly⟩ := Prod.mk.inj (Option.some.inj hout)
      exact ⟨out, rfl, htransport, happly, (lag_parsed sampleCalendar sampleIdentity sampleText).2.2.mp ⟨out, hrun⟩⟩

end OraclePatching.DataGuard.Parser
