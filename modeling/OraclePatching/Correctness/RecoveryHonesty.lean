import OraclePatching.Correctness.RecoveryInterruption
import OraclePatching.Recovery.Sites

/-!
# `Correctness.RecoveryHonesty` — a record that says the services are restored has the proof in its history

`blocked`, `failed_services_restored` and `validation_failed` all say that the services run. An attempt begins with the
lock of its home; `HonestRecord` asks its events for the reason: no service was touched in it, or after everything that
takes services down the probe found the database open under its sealed name, and one report of the listener says of
every service of the inventory that the listener has it.

The inventory is taken with a pattern that asks for `Service "NAME" has`, the report afterwards is searched for
`Service "NAME"` alone. So the code keeps its word where a report that names all expected services says that the
listener has them (`Answers.Plain`), and a report that names them otherwise passes for the proof
(`unregistered_service_restored`).

The argument keeps a `Ledger` for each request: its file, its file of expected services and the events of its attempt.
A ledger is `Sound` when a running record stands beside the inventory of its own attempt. That is what `reconcile`
relies on when it reads a file that another process has written.
-/

namespace OraclePatching.Recovery

variable {tools : Tools} {id : String} {r : Record}

/-! ## What is promised

A record that says `services restored` is honest when the attempt before it shows the restoration: the database was
found healthy and, where the listener had been taken down, its services were seen registered again. -/

/-- The states that say that services are restored. -/
def RequestState.saysRestored : RequestState → Bool
  | .blocked | .failedServicesRestored | .validationFailed => true
  | _ => false

/-- Actions that start or stop the database or its listener, or change what is registered. -/
def Act.mutatesServices : Act → Bool
  | .stopListener | .shutdown | .startupMount | .openDatabase | .startListener | .registerServices
  | .failureOpen | .failureStartup | .failureListenerStart | .failureRegister => true
  | _ => false

/-- Those of them after which a service may be down. -/
def Act.takesServicesDown : Act → Bool
  | .stopListener | .shutdown | .startupMount => true
  | _ => false

/-- A line of the report says that the listener has the service. -/
def Registered (report service : Text) : Prop :=
  service ≠ [] ∧ '"' ∉ service ∧ ∃ blanks rest, (∀ c ∈ blanks, isSpaceC c = true) ∧
    blanks ++ (serviceOpening ++ (service ++ (serviceClosing ++ rest))) ∈ reportLines report

def beginsAttempt : Event → Bool
  | .step (.mkdirLock _) => true
  | _ => false

/-- The events on a request since its home was last locked for it. -/
def attempt (history : List (String × Event)) (id : String) : List Event :=
  ((history.filter fun entry => entry.1 == id).map (·.2)).rtakeWhile fun e => !beginsAttempt e

/-- The probe found the database open, and a report of the listener named what its inventory had. -/
def ProvenRestored (target : Target) (events : List Event) : Prop :=
  ∃ during since, events = during ++ since ∧
    (∀ a, .step (.act a) ∈ since → a.takesServicesDown = false) ∧
    (∃ output live, .answer (.health output) ∈ since ∧ probeLiveDatabase output = some live ∧
      live.database = target.databaseUniqueName ∧ live.openMode = "READ WRITE" ∧ live.instanceStatus = "OPEN") ∧
    ∀ report, .answer (.preStop (some report)) ∈ events →
      ∃ later, .answer (.services (some later)) ∈ since ∧ ∀ service, Registered report service → Registered later service

def HonestRecord (target : Target) (events : List Event) : Prop :=
  (∀ a, .step (.act a) ∈ events → a.mutatesServices = false) ∨ ProvenRestored target events

/-! ## Plain reports

A report is plain when its lines that name an expected service are all registrations. In other reports the text
after the stop, which is searched with `grep -F`, proves less than the text before it, which is cut by `sed`. -/

/-- The report names the service. -/
def Shown (report service : Text) : Prop := ∃ line ∈ reportLines report, serviceText service <:+: line

/-- A report that names all expected services says of each that the listener has it. -/
def Answers.Plain (a : Answers) (expected : List Text) : Prop :=
  ∀ report, some report ∈ a.reports → (∀ service ∈ expected, Shown report service) →
    ∀ service ∈ expected, Registered report service

/-- The site is reached by calls whose listener answers plainly. -/
def PlainlyObserved (tools : Tools) : List Call → Site → Prop :=
  Trace.Run (fun site c => some (site.after tools c)) (· = Site.empty) fun site c => c.answers.Plain (c.expected site)

/-! ## Reading reports

Two readings of one line: `sed` cuts a service name out of a registration, `grep -F` looks for the name anywhere. -/

section
variable {line report service : Text}

/-- Characters that are all dropped are dropped. -/
theorem dropWhile_append_of_all {p : Char → Bool} {xs ys : Text} (h : ∀ c ∈ xs, p c = true) :
    (xs ++ ys).dropWhile p = ys.dropWhile p := by
  rw [List.dropWhile_append, List.dropWhile_eq_nil_iff.mpr h]
  rfl

theorem takeWhile_name (hservice : '"' ∉ service) (rest : Text) :
    (service ++ '"' :: rest).takeWhile (· != '"') = service := by
  have hall : ∀ c ∈ service, (c != '"') = true := fun c hc => by
    rw [bne_iff_ne]
    rintro rfl
    exact hservice hc
  rw [List.takeWhile_append_of_pos hall, List.takeWhile_cons_of_neg (by decide), List.append_nil]

/-- `serviceOf` finds the service of a service line. -/
theorem serviceOf_line (hne : service ≠ []) (hservice : '"' ∉ service) {blanks rest : Text}
    (hblanks : ∀ c ∈ blanks, isSpaceC c = true) :
    serviceOf (blanks ++ (serviceOpening ++ (service ++ (serviceClosing ++ rest)))) = some service := by
  have hopening : serviceOpening = 'S' :: "ervice \"".toList := by decide +kernel
  have hclosing : serviceClosing = '"' :: " has".toList := by decide +kernel
  have htext : (blanks ++ (serviceOpening ++ (service ++ (serviceClosing ++ rest)))).dropWhile isSpaceC =
      serviceOpening ++ (service ++ (serviceClosing ++ rest)) := by
    rw [dropWhile_append_of_all hblanks, hopening, List.cons_append, List.dropWhile_cons_of_neg (by decide)]
  have hname : (service ++ (serviceClosing ++ rest)).takeWhile (· != '"') = service := by
    rw [hclosing, List.cons_append]
    exact takeWhile_name hservice _
  unfold serviceOf
  dsimp only
  rw [htext, if_pos (List.prefix_append _ _), List.drop_left, hname, List.drop_left,
    if_pos ⟨hne, List.prefix_append _ _⟩]

/-- The line that `serviceOf` finds a service in is a service line. -/
theorem line_of_serviceOf (h : serviceOf line = some service) :
    service ≠ [] ∧ '"' ∉ service ∧ ∃ blanks rest, (∀ c ∈ blanks, isSpaceC c = true) ∧
      line = blanks ++ (serviceOpening ++ (service ++ (serviceClosing ++ rest))) := by
  unfold serviceOf at h
  dsimp only at h
  split at h
  · rename_i hopening
    split at h
    · rename_i hclosing
      obtain ⟨hne, rest, hrest⟩ := hclosing
      obtain ⟨body, hbody⟩ := hopening
      obtain rfl := Option.some.inj h
      rw [← hbody, List.drop_left] at hne hrest ⊢
      refine ⟨hne, fun hquote => ?_, line.takeWhile isSpaceC, rest, fun c hc => List.mem_takeWhile_imp hc, ?_⟩
      · exact absurd (List.mem_takeWhile_imp hquote) (by simp)
      · -- the line is its blanks, the opening, the name and what follows the name
        obtain ⟨after, hafter⟩ := List.takeWhile_prefix (l := body) (· != '"')
        have hdrop : after = body.drop (body.takeWhile (· != '"')).length := by
          have h := congrArg (List.drop (body.takeWhile (· != '"')).length) hafter
          rwa [List.drop_left] at h
        rw [hrest, ← hdrop, hafter, hbody, List.takeWhile_append_dropWhile]
    · exact absurd h (by simp)
  · exact absurd h (by simp)

/-- What is in the file of expected services, the listener has. -/
theorem registered_of_expected (h : service ∈ expectedServices report) : Registered report service := by
  unfold expectedServices at h
  rw [List.mem_insertionSort, List.mem_dedup, List.mem_filterMap] at h
  obtain ⟨line, hline, hservice⟩ := h
  obtain ⟨hne, hquote, blanks, rest, hblanks, rfl⟩ := line_of_serviceOf hservice
  exact ⟨hne, hquote, blanks, rest, hblanks, hline⟩

/-- What the listener has is in the file of expected services. -/
theorem Registered.mem_expected (h : Registered report service) : service ∈ expectedServices report := by
  obtain ⟨hne, hservice, blanks, rest, hblanks, hline⟩ := h
  unfold expectedServices
  rw [List.mem_insertionSort, List.mem_dedup, List.mem_filterMap]
  exact ⟨_, hline, serviceOf_line hne hservice hblanks⟩

/-- `grep -F` finds the pattern in a line. -/
theorem grepFixed_iff {pattern : Text} : grepFixed pattern report = true ↔ ∃ line ∈ reportLines report, pattern <:+: line := by
  simp [grepFixed]

/-- A report that passes a round names every service. -/
theorem showsAll_shown {sid : String} {expected : List Text} (h : showsAll sid expected (some report) = true) :
    ∀ service ∈ expected, Shown report service := by
  intro service hservice
  unfold showsAll at h
  rw [Bool.and_eq_true, List.all_eq_true] at h
  exact grepFixed_iff.mp (h.1 service hservice)

/-- Polling ends with a report that passes. -/
theorem pollServices_passes {passes : Option Text → Bool} {reports : List (Option Text)}
    (h : (pollServices passes reports).2 = true) :
    ∃ later ∈ (pollServices passes reports).1, later ∈ reports ∧ passes later = true := by
  induction reports with
  | nil => exact absurd h (by simp [pollServices])
  | cons first reports ih =>
      rw [pollServices] at h ⊢
      by_cases hfirst : passes first = true
      · rw [if_pos hfirst]
        exact ⟨first, List.mem_singleton_self first, List.mem_cons_self, hfirst⟩
      · rw [if_neg hfirst] at h ⊢
        obtain ⟨later, hmem, hgiven, hlater⟩ := ih h
        exact ⟨later, List.mem_cons_of_mem first hmem, List.mem_cons_of_mem first hgiven, hlater⟩

/-- `verify_listener_services` passes on a report it was given. -/
theorem verifyListenerServices_passes {sid : String} {expected : List Text} {reports : List (Option Text)}
    (h : (verifyListenerServices sid expected reports).2 = true) :
    ∃ later, some later ∈ (verifyListenerServices sid expected reports).1 ∧ some later ∈ reports ∧
      showsAll sid expected (some later) = true := by
  unfold verifyListenerServices at h ⊢
  by_cases hempty : expected = []
  · rw [if_pos hempty] at h
    exact absurd h (by simp)
  · rw [if_neg hempty] at h ⊢
    obtain ⟨later, hmem, hgiven, hlater⟩ := pollServices_passes h
    cases later with
    | none => exact absurd hlater (by simp [showsAll])
    | some later => exact ⟨later, hmem, hgiven, hlater⟩

end

/-! ## The ledger of a request

What has happened in an attempt on one request, kept as a list of events and the last file. Events come in
stretches: before the services are touched, while they are, and after. For each stretch there is one account, what
it adds to the ledger and what it keeps. -/

structure Ledger where
  file : Option RequestFile
  expected : List Text
  attempt : List Event

def Ledger.enter (l : Ledger) (e : Event) : Ledger where
  file :=
    match e with
    | .step (.request _ file) => some file
    | _ => l.file
  expected :=
    match e with
    | .answer (.expected services) => services
    | _ => l.expected
  attempt := if beginsAttempt e then [] else l.attempt ++ [e]

/-- An inventory in the attempt is that of a running listener, and its services are the expected ones. -/
def Inventoried (listener : Option String) (l : Ledger) : Prop :=
  ∀ report, .answer (.preStop (some report)) ∈ l.attempt →
    listener.isSome = true ∧ l.expected = expectedServices report

def Record.listener (r : Record) : Option String := r.execution.bind (·.listener)

def Ledger.Sound (l : Ledger) : Prop :=
  ∀ r digest, l.file = some (.document r digest) → r.state = .running → Inventoried r.listener l

/-- The event is on the request of its process, an honest record if it is one, and leaves the ledger sound. -/
structure Fit (id : String) (l : Ledger) (e : Event) : Prop where
  own : ∀ id' file, e = .step (.request id' file) → id' = id
  honest : ∀ id' r digest, e = .step (.request id' (.document r digest)) → r.state.saysRestored = true →
    HonestRecord r.target l.attempt
  sound : (l.enter e).Sound

abbrev Account (id : String) : Ledger → List Event → Prop := Trace.Accounted Ledger.enter (Fit id)

/-! ### Stretches

`Later` are the events that do not begin an attempt; the other predicates say what a stretch does besides. -/

/-- The event begins no attempt and takes no inventory. -/
def Later (e : Event) : Prop :=
  match e with
  | .step (.mkdirLock _) | .answer (.preStop _) | .answer (.expected _) => False
  | _ => True

/-- A later event whose record, if it writes one, says nothing of restored services and runs with `listener`. -/
def Calm (id : String) (listener : Option String) (e : Event) : Prop :=
  Later e ∧ ∀ id' file, e = .step (.request id' file) → id' = id ∧
    ∀ r digest, file = .document r digest → r.state.saysRestored = false ∧
      (r.state = .running → r.listener = listener)

/-- A later event that is no action, whose record, if it writes one, is for `target` and not running. -/
def Closing (id : String) (target : Target) (e : Event) : Prop :=
  Later e ∧ (∀ a, e ≠ .step (.act a)) ∧ ∀ id' file, e = .step (.request id' file) → id' = id ∧
    ∀ r digest, file = .document r digest → r.target = target ∧ r.state ≠ .running

section
variable {l : Ledger} {e : Event} {es : List Event} {listener : Option String} {target : Target}

theorem Later.attempt (h : Later e) : (l.enter e).attempt = l.attempt ++ [e] := by
  cases e with
  | answer f => rfl
  | step w =>
      cases w with
      | mkdirLock key => exact False.elim h
      | _ => rfl

theorem Later.expected (h : Later e) : (l.enter e).expected = l.expected := by
  cases e with
  | step w => rfl
  | answer f =>
      cases f with
      | expected services => exact False.elim h
      | _ => rfl

theorem Later.inventoried (h : Later e) (hl : Inventoried listener l) : Inventoried listener (l.enter e) := by
  intro report hreport
  rw [h.attempt, List.mem_append, List.mem_singleton] at hreport
  rw [h.expected]
  rcases hreport with hreport | rfl
  · exact hl report hreport
  · exact False.elim h

theorem foldl_later (h : ∀ e ∈ es, Later e) : ∀ l : Ledger,
    (es.foldl Ledger.enter l).attempt = l.attempt ++ es ∧ (es.foldl Ledger.enter l).expected = l.expected := by
  induction es with
  | nil => intro l; exact ⟨(List.append_nil _).symm, rfl⟩
  | cons e es ih =>
      intro l
      have he := h e List.mem_cons_self
      obtain ⟨hattempt, hexpected⟩ := ih (fun e' he' => h e' (List.mem_cons_of_mem e he')) (l.enter e)
      refine ⟨?_, hexpected.trans he.expected⟩
      rw [List.foldl_cons, hattempt, he.attempt, List.append_assoc, List.singleton_append]

/-- A ledger stays sound if the event writes no running record, or one beside the inventory of its listener. -/
theorem Later.sound (h : Later e) (hl : l.Sound)
    (hrecord : ∀ id' r digest, e = .step (.request id' (.document r digest)) → r.state = .running →
      Inventoried r.listener l) : (l.enter e).Sound := by
  intro r digest hfile hrun
  refine h.inventoried ?_
  cases e with
  | answer f => exact hl r digest hfile hrun
  | step w =>
      cases w with
      | request id' file =>
          obtain rfl : file = .document r digest := Option.some.inj hfile
          exact hrecord id' r digest rfl hrun
      | _ => exact hl r digest hfile hrun

/-- **Calm stretches** are accounted for, and keep the inventory of their listener. -/
theorem account_calm (h : ∀ e ∈ es, Calm id listener e) (hl : l.Sound) (hinv : Inventoried listener l) :
    Account id l es ∧ (es.foldl Ledger.enter l).Sound ∧ Inventoried listener (es.foldl Ledger.enter l) := by
  refine Trace.accounted_of_keeps (I := fun l : Ledger => l.Sound ∧ Inventoried listener l) ?_ ⟨hl, hinv⟩
  rintro l e he ⟨hl, hinv⟩
  obtain ⟨hlater, hrecord⟩ := h e he
  have hsound : (l.enter e).Sound := by
    refine hlater.sound hl fun id' r digest heq hrun => ?_
    obtain ⟨-, hdocument⟩ := hrecord id' _ heq
    rw [(hdocument r digest rfl).2 hrun]
    exact hinv
  refine ⟨⟨fun id' file heq => (hrecord id' file heq).1, fun id' r digest heq hspeaks => ?_, hsound⟩, hsound,
    hlater.inventoried hinv⟩
  obtain ⟨-, hdocument⟩ := hrecord id' _ heq
  exact absurd hspeaks (by simp [(hdocument r digest rfl).1])

/-- What was honest stays so when no action follows. -/
theorem HonestRecord.snoc (h : HonestRecord target es) (hlater : Later e) (hact : ∀ a, e ≠ .step (.act a)) :
    HonestRecord target (es ++ [e]) := by
  rcases h with huntouched | ⟨during, since, rfl, hsince, ⟨output, live, houtput, hlive⟩, hservices⟩
  · refine .inl fun a ha => ?_
    rcases List.mem_append.mp ha with ha | ha
    · exact huntouched a ha
    · exact absurd (List.mem_singleton.mp ha).symm (hact a)
  · refine .inr ⟨during, since ++ [e], List.append_assoc _ _ _, fun a ha => ?_,
      ⟨output, live, List.mem_append_left _ houtput, hlive⟩, fun report hreport => ?_⟩
    · rcases List.mem_append.mp ha with ha | ha
      · exact hsince a ha
      · exact absurd (List.mem_singleton.mp ha).symm (hact a)
    · rcases List.mem_append.mp hreport with hreport | hreport
      · obtain ⟨later, hmem, hshown⟩ := hservices report hreport
        exact ⟨later, List.mem_append_left _ hmem, hshown⟩
      · rw [← List.mem_singleton.mp hreport] at hlater
        exact False.elim hlater

/-- **Closing stretches** are accounted for where a record may say that services are restored. -/
theorem account_closing (h : ∀ e ∈ es, Closing id target e) (hl : l.Sound) (hhonest : HonestRecord target l.attempt) :
    Account id l es ∧ (es.foldl Ledger.enter l).Sound ∧ HonestRecord target (es.foldl Ledger.enter l).attempt := by
  refine Trace.accounted_of_keeps (I := fun l : Ledger => l.Sound ∧ HonestRecord target l.attempt) ?_ ⟨hl, hhonest⟩
  rintro l e he ⟨hl, hhonest⟩
  obtain ⟨hlater, hact, hrecord⟩ := h e he
  have hsound : (l.enter e).Sound := by
    refine hlater.sound hl fun id' r digest heq hrun => ?_
    obtain ⟨-, hdocument⟩ := hrecord id' _ heq
    exact absurd hrun (hdocument r digest rfl).2
  refine ⟨⟨fun id' file heq => (hrecord id' file heq).1, fun id' r digest heq hspeaks => ?_, hsound⟩, hsound, ?_⟩
  · obtain ⟨-, hdocument⟩ := hrecord id' _ heq
    rw [(hdocument r digest rfl).1]
    exact hhonest
  · rw [hlater.attempt]
    exact hhonest.snoc hlater hact

/-- The request is not running. -/
def Ledger.Idle (l : Ledger) : Prop := ∀ r digest, l.file = some (.document r digest) → r.state ≠ .running

/-- A request that is not running has a sound ledger. -/
theorem Ledger.Idle.sound (h : l.Idle) : l.Sound := fun r digest hfile hrun => absurd hrun (h r digest hfile)

/-- A record the event writes, if it writes one, is not running and says nothing of restored services. -/
def Idling (id : String) (e : Event) : Prop :=
  ∀ id' file, e = .step (.request id' file) → id' = id ∧
    ∀ r digest, file = .document r digest → r.state.saysRestored = false ∧ r.state ≠ .running

/-- **Idle stretches** are accounted for; they may begin an attempt and take its inventory. -/
theorem account_idle (h : ∀ e ∈ es, Idling id e) (hl : l.Idle) :
    Account id l es ∧ (es.foldl Ledger.enter l).Idle := by
  refine Trace.accounted_of_keeps (I := Ledger.Idle) ?_ hl
  intro l e he hl
  have hidle : (l.enter e).Idle := by
    intro r digest hfile
    cases e with
    | answer f => exact hl r digest hfile
    | step w =>
        cases w with
        | request id' file => exact ((h _ he id' file rfl).2 r digest (Option.some.inj hfile)).2
        | _ => exact hl r digest hfile
  refine ⟨⟨fun id' file heq => (h e he id' file heq).1, fun id' r digest heq hspeaks => ?_, hidle.sound⟩, hidle⟩
  exact absurd hspeaks (by simp [((h e he id' _ heq).2 r digest rfl).1])

end

/-! ## What the commands do

The writes of each command as stretches of events. The answers of the outside world are entered behind the write
that asks for them. -/

section
variable {a : Answers} {target : Target} {expected : List Text} {inventory : Bool} {listener : Option String}
  {ws : List Write}

/-- The findings after a step are later events, unless it is the inventory. -/
theorem finds_later {w : Write} (hw : w ≠ .act .preflight) {f : Finding} (hf : f ∈ a.finds target expected inventory w) :
    Later (.answer f) := by
  unfold Answers.finds at hf
  split at hf
  · exact absurd rfl hw
  · split at hf
    · obtain rfl := List.mem_singleton.mp hf
      trivial
    · exact absurd hf List.not_mem_nil
  · obtain rfl := List.mem_singleton.mp hf
    trivial
  · split at hf
    · obtain ⟨report, -, rfl⟩ := List.mem_map.mp hf
      trivial
    · exact absurd hf List.not_mem_nil
  · exact absurd hf List.not_mem_nil

/-- A property of observed events is one of the steps and of later answers. -/
theorem forall_observed {P : Event → Prop} (hpre : Write.act .preflight ∉ ws) (hstep : ∀ w ∈ ws, P (.step w))
    (hanswer : ∀ f, Later (.answer f) → P (.answer f)) :
    ∀ e ∈ Trace.observed (a.finds target expected inventory) ws, P e := by
  intro e he
  obtain ⟨w, hw, rfl | ⟨f, hf, rfl⟩⟩ := Trace.mem_observed.mp he
  · exact hstep w hw
  · exact hanswer f (finds_later (fun heq => hpre (heq ▸ hw)) hf)

/-- Steps between the lock and its release; `records` is asked of the records they write. -/
structure Between (id : String) (records : Record → Prop) (ws : List Write) : Prop where
  noLock : ∀ key, .mkdirLock key ∉ ws
  noPreflight : .act .preflight ∉ ws
  own : ∀ id' file, .request id' file ∈ ws → id' = id
  records : ∀ id' r digest, .request id' (.document r digest) ∈ ws → records r

theorem Between.append {records : Record → Prop} {vs : List Write} (h : Between id records ws)
    (h' : Between id records vs) : Between id records (ws ++ vs) := by
  refine ⟨fun key => ?_, ?_, fun id' file => ?_, fun id' r digest => ?_⟩
  · rw [List.mem_append]
    exact fun hw => hw.elim (h.noLock key) (h'.noLock key)
  · rw [List.mem_append]
    exact fun hw => hw.elim h.noPreflight h'.noPreflight
  · rw [List.mem_append]
    exact fun hw => hw.elim (h.own id' file) (h'.own id' file)
  · rw [List.mem_append]
    exact fun hw => hw.elim (h.records id' r digest) (h'.records id' r digest)

theorem between_update {records : Record → Prop} (h : records r) : Between id records (updateRequest tools id r) := by
  refine ⟨fun key => ?_, ?_, fun id' file => ?_, fun id' r' digest => ?_⟩
  · simp [updateRequest]
  · simp [updateRequest]
  · simp only [updateRequest, List.mem_cons, List.not_mem_nil, or_false, reduceCtorEq, false_or, Write.request.injEq]
    rintro (h | h | h) <;> exact h.1
  · simp only [updateRequest, sealFile, List.mem_cons, List.not_mem_nil, or_false, reduceCtorEq, false_or,
      Write.request.injEq, RequestFile.document.injEq, and_false]
    rintro (⟨-, rfl, -⟩ | ⟨-, rfl, -⟩) <;> exact h

theorem between_acts {records : Record → Prop} {as : List Act} (h : .preflight ∉ as) :
    Between id records (as.map .act) := by
  refine ⟨fun key => by simp, ?_, fun id' file => by simp, fun id' r digest => by simp⟩
  rw [List.mem_map]
  rintro ⟨b, hb, heq⟩
  obtain rfl : b = .preflight := Write.act.inj heq
  exact h hb

theorem between_cleanup {records : Record → Prop} (key : String) : Between id records (cleanupExecutionLock key) := by
  refine ⟨fun key' => ?_, ?_, fun id' file => ?_, fun id' r digest => ?_⟩ <;> simp [cleanupExecutionLock]

/-- Records that do not speak of restored services. -/
def CalmRecord (listener : Option String) (r : Record) : Prop :=
  r.state.saysRestored = false ∧ (r.state = .running → r.listener = listener)

/-- None of these writes begins an attempt. -/
theorem Between.later {records : Record → Prop} (h : Between id records ws) {w : Write} (hw : w ∈ ws) :
    Later (.step w) := by
  cases w with
  | mkdirLock key => exact h.noLock key hw
  | _ => trivial

theorem Between.calm (h : Between id (CalmRecord listener) ws) :
    ∀ e ∈ Trace.observed (a.finds target expected inventory) ws, Calm id listener e := by
  refine forall_observed h.noPreflight (fun w hw => ⟨h.later hw, ?_⟩) fun f hf => ⟨hf, fun id' file heq => ?_⟩
  · rintro id' file heq
    obtain rfl : w = .request id' file := Trace.Event.step.inj heq
    refine ⟨h.own id' file hw, ?_⟩
    rintro r digest rfl
    exact h.records id' r digest hw
  · exact absurd heq (by simp)

theorem Between.closing (h : Between id (fun r => r.target = target ∧ r.state ≠ .running) ws)
    (hact : ∀ b, .act b ∉ ws) :
    ∀ e ∈ Trace.observed (a.finds target expected inventory) ws, Closing id target e := by
  refine forall_observed h.noPreflight (fun w hw => ⟨h.later hw, ?_, ?_⟩)
    fun f hf => ⟨hf, fun b heq => absurd heq (by simp), fun id' file heq => absurd heq (by simp)⟩
  · rintro b heq
    obtain rfl : w = .act b := Trace.Event.step.inj heq
    exact hact b hw
  · rintro id' file heq
    obtain rfl : w = .request id' file := Trace.Event.step.inj heq
    refine ⟨h.own id' file hw, ?_⟩
    rintro r digest rfl
    exact h.records id' r digest hw

/-! ### Restoration -/

theorem restore_acts {w : World} {b : Act} (h : b ∈ (restoreServicesAfterFailure w listener).1) :
    b = .failureOpen ∨ b = .failureStartup ∨ b = .failureListenerStart ∨ b = .failureRegister := by
  have hdatabase : ∀ b' ∈ Act.failureOpen :: (if w.restoration.opens then [] else [Act.failureStartup]),
      b' = .failureOpen ∨ b' = .failureStartup := by
    intro b' hb'
    rcases List.mem_cons.mp hb' with hb' | hb'
    · exact .inl hb'
    · split at hb'
      · exact absurd hb' List.not_mem_nil
      · exact .inr (List.mem_singleton.mp hb')
  have hstart : ∀ b' ∈ (if w.restoration.listenerUp then [] else [Act.failureListenerStart]),
      b' = .failureListenerStart := by
    intro b' hb'
    split at hb'
    · exact absurd hb' List.not_mem_nil
    · exact List.mem_singleton.mp hb'
  unfold restoreServicesAfterFailure at h
  cases listener with
  | none => exact (hdatabase b h).imp_right .inl
  | some name =>
      dsimp only at h
      split at h
      · rw [List.mem_append, List.mem_append] at h
        rcases h with (h | h) | h
        · exact (hdatabase b h).imp_right .inl
        · exact .inr (.inr (.inl (hstart b h)))
        · exact .inr (.inr (.inr (List.mem_singleton.mp h)))
      · rw [List.mem_append] at h
        rcases h with h | h
        · exact (hdatabase b h).imp_right .inl
        · exact .inr (.inr (.inl (hstart b h)))

/-- **A restoration that counts as one has its proof.** The database was probed open, and with a listener a report
    passed. -/
theorem restored_findings (h : (restoreServicesAfterFailure (a.world target expected) listener).2 = true) :
    a.healthy target = true ∧
      .answer (.health a.health) ∈ Trace.observed (a.finds target expected inventory)
        ((restoreServicesAfterFailure (a.world target expected) listener).1.map .act) ∧
      (listener.isSome = true → ∃ later, .answer (.services (some later)) ∈
          Trace.observed (a.finds target expected inventory)
            ((restoreServicesAfterFailure (a.world target expected) listener).1.map .act) ∧
        some later ∈ a.reports ∧ showsAll target.oracleSid expected (some later) = true) := by
  -- the probe follows the act that tried to bring the database up
  have hprobe : ∀ bs : List Act, Finding.health a.health ∈ a.finds target expected inventory (.act .failureOpen) ∨
      Act.failureStartup ∈ bs → Act.failureOpen ∈ bs →
      (.answer (.health a.health) : Event) ∈ Trace.observed (a.finds target expected inventory) (bs.map .act) := by
    rintro bs (hfinds | hbs) hopen
    · exact Trace.mem_observed_answer.mpr ⟨_, List.mem_map_of_mem hopen, hfinds⟩
    · exact Trace.mem_observed_answer.mpr ⟨_, List.mem_map_of_mem hbs, List.mem_singleton_self _⟩
  have hfinds : a.opens = true → Finding.health a.health ∈ a.finds target expected inventory (.act .failureOpen) := by
    intro hopens
    simp [Answers.finds, hopens]
  cases listener with
  | none =>
      refine ⟨h, hprobe _ ?_ List.mem_cons_self, fun hsome => absurd hsome (by simp)⟩
      by_cases hopens : a.opens = true
      · exact .inl (hfinds hopens)
      · exact .inr (by simp [restoreServicesAfterFailure, Answers.world, hopens])
  | some name =>
      unfold restoreServicesAfterFailure at h ⊢
      dsimp only at h ⊢
      split at h
      · rename_i hup
        rw [if_pos hup]
        simp only [Bool.and_eq_true] at hup h
        obtain ⟨⟨hhealthy, -⟩, -⟩ := hup
        obtain ⟨hregisters, hreturn⟩ := h
        refine ⟨hhealthy, hprobe _ ?_ (by simp), fun _ => ?_⟩
        · by_cases hopens : a.opens = true
          · exact .inl (hfinds hopens)
          · exact .inr (by simp [Answers.world, hopens])
        · obtain ⟨later, hlater, hgiven, hshows⟩ := verifyListenerServices_passes hreturn
          refine ⟨later, Trace.mem_observed_answer.mpr ⟨.act .failureRegister, by simp, ?_⟩, hgiven, hshows⟩
          have hregisters : a.registers = true := hregisters
          simp only [Answers.finds, hregisters, if_true]
          exact List.mem_map_of_mem hlater
      · exact absurd h (by simp)

/-- A restoration proves the attempt it ends, if it asked for the services of the attempt's inventory and was answered
    plainly. -/
theorem restored_proven {l : Ledger} (hplain : a.Plain expected)
    (h : (restoreServicesAfterFailure (a.world target expected) listener).2 = true) (hinv : Inventoried listener l) (hexpected : listener.isSome = true → l.expected = expected) :
    ProvenRestored target (l.attempt ++ Trace.observed (a.finds target expected inventory)
      ((restoreServicesAfterFailure (a.world target expected) listener).1.map .act)) := by
  obtain ⟨hhealthy, hhealth, hreport⟩ := @restored_findings a target expected inventory listener h
  obtain ⟨live, hlive, hopen⟩ : ∃ live, probeLiveDatabase a.health = some live ∧ live.isOpen target = true := by
    unfold Answers.healthy at hhealthy
    rwa [Option.any_eq_true] at hhealthy
  have hstate : live.database = target.databaseUniqueName ∧ live.openMode = "READ WRITE" ∧ live.instanceStatus = "OPEN" := by
    unfold LiveDatabase.isOpen at hopen
    simpa using hopen
  refine ⟨l.attempt, _, rfl, fun b hb => ?_, ⟨_, live, hhealth, hlive, hstate⟩, fun report hmem => ?_⟩
  · obtain ⟨b', hb', heq⟩ := List.mem_map.mp (Trace.mem_observed_step.mp hb)
    obtain rfl : b' = b := Write.act.inj heq
    rcases restore_acts hb' with rfl | rfl | rfl | rfl <;> rfl
  · -- the restoration takes no inventory of its own
    have hattempt : .answer (.preStop (some report)) ∈ l.attempt := by
      rcases List.mem_append.mp hmem with hmem | hmem
      · exact hmem
      · refine absurd rfl (@forall_observed a target expected inventory _
          (fun e => e ≠ .answer (.preStop (some report))) ?_ (fun w _ => by simp) ?_ _ hmem)
        · rw [List.mem_map]
          rintro ⟨b, hb, heq⟩
          obtain rfl : b = .preflight := Write.act.inj heq
          rcases restore_acts hb with h | h | h | h <;> cases h
        · rintro f hf heq
          obtain rfl : f = .preStop (some report) := Trace.Event.answer.inj heq
          exact hf
    obtain ⟨hsome, hservices⟩ := hinv report hattempt
    obtain ⟨later, hlater, hgiven, hshows⟩ := hreport hsome
    refine ⟨later, hlater, fun service hregistered => ?_⟩
    have hasked : service ∈ expected := by
      rw [← hexpected hsome, hservices]
      exact hregistered.mem_expected
    exact hplain later hgiven (showsAll_shown hshows) service hasked

/-! ### Lines

`execute` is a list of lines that are carried out until one fails. What they have touched is known from the marker
in front of the first line that may. -/

section
variable {w : World}

/-- A phase does not change the listener. -/
theorem setPhase_listener (r : Record) (phase : Phase) : (r.setPhase phase).listener = r.listener := by
  unfold Record.setPhase Record.listener
  cases r.execution <;> rfl

/-- The lines of an execution write running records of one listener. -/
theorem runLines_between (ls : List Line) : ∀ p : Progress, p.record.state = .running → p.record.listener = listener →
    .act .preflight ∉ ls → Between id (CalmRecord listener) (runLines tools w id p ls).1 ∧
      (runLines tools w id p ls).2.1.record.state = .running ∧
      (runLines tools w id p ls).2.1.record.toCore = p.record.toCore ∧
      (runLines tools w id p ls).2.1.record.listener = listener := by
  induction ls with
  | nil =>
      intro p hrun hlistener _
      exact ⟨@between_acts id (CalmRecord listener) [] List.not_mem_nil, hrun, rfl, hlistener⟩
  | cons line ls ih =>
      intro p hrun hlistener hpre
      have hrest : .act .preflight ∉ ls := fun h => hpre (List.mem_cons_of_mem line h)
      cases line with
      | mutation => exact ih { p with mutationStarted := true } hrun hlistener hrest
      | phase phase =>
          have hphase : (p.record.setPhase phase).listener = listener := (setPhase_listener _ _).trans hlistener
          obtain ⟨hbetween, hend⟩ := ih ⟨p.record.setPhase phase, phase, p.mutationStarted⟩ hrun hphase hrest
          have hspeaks : (p.record.setPhase phase).state.saysRestored = false := by
            show p.record.state.saysRestored = false
            rw [hrun]
            rfl
          exact ⟨(between_update ⟨hspeaks, fun _ => hphase⟩).append hbetween, hend⟩
      | act b =>
          have hb : Act.preflight ∉ [b] := fun h => hpre (List.mem_singleton.mp h ▸ List.mem_cons_self)
          unfold runLines
          split
          · exact ⟨between_acts hb, hrun, rfl, hlistener⟩
          · obtain ⟨hbetween, hend⟩ := ih p hrun hlistener hrest
            exact ⟨(between_acts hb).append hbetween, hend⟩

/-- A mutation that has begun stays on record. -/
theorem runLines_started (ls : List Line) : ∀ p : Progress, p.mutationStarted = true →
    (runLines tools w id p ls).2.1.mutationStarted = true := by
  induction ls with
  | nil => exact fun p h => h
  | cons line ls ih =>
      intro p h
      cases line with
      | mutation => exact ih _ rfl
      | phase phase => exact ih ⟨p.record.setPhase phase, phase, p.mutationStarted⟩ h
      | act b =>
          unfold runLines
          split
          · exact h
          · exact ih p h

/-- An execution that has not started to mutate has done nothing behind the line that says so. -/
theorem runLines_untouched {ls' : List Line} (ls : List Line)
    (hls : ∀ b, .act b ∈ ls → b.mutatesServices = false) : ∀ p : Progress,
    (runLines tools w id p (ls ++ .mutation :: ls')).2.1.mutationStarted = false →
      ∀ b, .act b ∈ (runLines tools w id p (ls ++ .mutation :: ls')).1 → b.mutatesServices = false := by
  induction ls with
  | nil =>
      -- the next line marks the mutation, against the hypothesis
      intro p h
      have hstarted := @runLines_started tools id w ls' { p with mutationStarted := true } rfl
      exact absurd h (by rw [List.nil_append, runLines, hstarted]; simp)
  | cons line ls ih =>
      have hrest := ih fun b hb => hls b (List.mem_cons_of_mem line hb)
      intro p h b hb
      cases line with
      | mutation =>
          have hstarted := @runLines_started tools id w (ls ++ .mutation :: ls') { p with mutationStarted := true } rfl
          exact absurd h (by rw [List.cons_append, runLines, hstarted]; simp)
      | phase phase =>
          -- a phase is only recorded
          rw [List.cons_append, runLines] at h hb
          rcases List.mem_append.mp hb with hb | hb
          · exact absurd hb (by simp [updateRequest])
          · exact hrest _ h b hb
      | act b' =>
          have hb' : b'.mutatesServices = false := hls b' List.mem_cons_self
          rw [List.cons_append, runLines] at h hb
          split at hb
          · rw [List.mem_singleton, Write.act.injEq] at hb
            exact hb ▸ hb'
          · rename_i hfails
            rw [if_neg hfails] at h
            rcases List.mem_cons.mp hb with hb | hb
            · exact Write.act.inj hb ▸ hb'
            · exact hrest p h b hb

end

/-! ### Execute and reconcile

The two commands that can write the word of a restoration, each with its account from the first event to the last. -/

/-- The inventory of the checks before the `running` record. -/
theorem preflight_inventoried {l : Ledger} {pre : Preflight} (hpre : a.preflight r = .ok pre)
    (hl : ∀ report, .answer (.preStop report) ∉ l.attempt)
    (hexpected : ∀ report, a.preStop = some report → expected = expectedServices report) :
    Inventoried pre.listener
        ((Trace.observed (a.finds target expected (a.takesInventory r)) [.act .preflight]).foldl Ledger.enter l) ∧
      (pre.listener.isSome = true →
        ((Trace.observed (a.finds target expected (a.takesInventory r)) [.act .preflight]).foldl Ledger.enter l).expected =
          expected) := by
  unfold Answers.preflight at hpre
  obtain ⟨pre', hchecks, hpre⟩ := bind_ok.mp hpre
  cases hlistener : pre'.listener with
  | none =>
      -- no listener, no inventory
      rw [hlistener] at hpre
      obtain rfl : pre' = pre := Except.ok.inj hpre
      have hnone : a.takesInventory r = false := by rw [Answers.takesInventory, hchecks]; simp [hlistener]
      rw [hnone, hlistener]
      refine ⟨fun report hreport => ?_, fun h => absurd h (by simp)⟩
      rcases List.mem_append.mp hreport with hreport | hreport
      · exact absurd hreport (hl _)
      · exact absurd (List.mem_singleton.mp hreport) (by simp)
  | some name =>
      rw [hlistener] at hpre
      obtain ⟨services, hcapture, hpre⟩ := bind_ok.mp hpre
      obtain rfl : pre' = pre := Except.ok.inj hpre
      have hsome : a.takesInventory r = true := by rw [Answers.takesInventory, hchecks]; simp [hlistener]
      obtain ⟨report, hreport, -⟩ := need_bind_ok.mp hcapture
      have hobserved : Trace.observed (a.finds target expected true) [.act .preflight] =
          [.step (.act .preflight), .answer (.preStop (some report)), .answer (.expected (expectedServices report))] := by
        simp [Trace.observed, Answers.finds, Answers.inventory, hreport]
      rw [hsome, hlistener, hobserved]
      refine ⟨fun later hlater => ⟨rfl, ?_⟩, fun _ => (hexpected report hreport).symm⟩
      -- the only inventory of the attempt is the one just taken
      have hattempt : (.answer (.preStop (some later)) : Event) ∈ (((l.attempt ++ [.step (.act .preflight)]) ++
          [.answer (.preStop (some report))]) ++ [.answer (.expected (expectedServices report))]) := hlater
      simp only [List.mem_append, List.mem_singleton, reduceCtorEq, or_false, Trace.Event.answer.injEq,
        Finding.preStop.injEq, Option.some.injEq] at hattempt
      rcases hattempt with hmem | rfl
      · exact absurd hmem (hl _)
      · rfl

/-- A restoration, the record of what came of it and the release of the lock. -/
theorem account_restoration {l : Ledger} {key : String} (hplain : a.Plain expected) (hl : l.Sound)
    (hinv : Inventoried listener l) (hexpected : listener.isSome = true → l.expected = expected)
    (htarget : r.target = target) (hstate : r.state ≠ .running)
    (hspeaks : (restoreServicesAfterFailure (a.world target expected) listener).2 = false → r.state.saysRestored = false) :
    Account id l (Trace.observed (a.finds target expected inventory)
      ((restoreServicesAfterFailure (a.world target expected) listener).1.map .act ++ updateRequest tools id r ++
        cleanupExecutionLock key)) := by
  have hpre : Act.preflight ∉ (restoreServicesAfterFailure (a.world target expected) listener).1 := by
    intro hmem
    rcases restore_acts hmem with h | h | h | h <;> cases h
  have hacts : ∀ e ∈ Trace.observed (a.finds target expected inventory)
      ((restoreServicesAfterFailure (a.world target expected) listener).1.map .act), Calm id listener e :=
    (between_acts hpre).calm
  obtain ⟨haccount, hsound, hinv'⟩ := account_calm hacts hl hinv
  obtain ⟨hattempt, -⟩ := foldl_later (fun e he => (hacts e he).1) l
  rw [List.append_assoc, Trace.observed_append]
  refine Trace.accounted_append.mpr ⟨haccount, ?_⟩
  cases hrestored : (restoreServicesAfterFailure (a.world target expected) listener).2 with
  | true =>
      have hhonest : HonestRecord target ((Trace.observed (a.finds target expected inventory)
          ((restoreServicesAfterFailure (a.world target expected) listener).1.map .act)).foldl Ledger.enter l).attempt := by
        rw [hattempt]
        exact .inr (restored_proven hplain hrestored hinv hexpected)
      have hclosing : Between id (fun r => r.target = target ∧ r.state ≠ .running)
          (updateRequest tools id r ++ cleanupExecutionLock key) :=
        (between_update ⟨htarget, hstate⟩).append (between_cleanup key)
      exact (account_closing (hclosing.closing (by simp [updateRequest, cleanupExecutionLock])) hsound hhonest).1
  | false =>
      have hcalm : Between id (CalmRecord listener) (updateRequest tools id r ++ cleanupExecutionLock key) :=
        (between_update ⟨hspeaks hrestored, fun hrun => absurd hrun hstate⟩).append (between_cleanup key)
      exact (account_calm hcalm.calm hsound hinv').1

/-- Without a restoration the state asks for recovery. -/
theorem failureState_restored {phase : Phase} : failureState phase false = .recoveryRequired := rfl

/-- An event of an attempt is new or was there. -/
theorem mem_attempt_foldl {e : Event} {es : List Event} : ∀ {l : Ledger}, e ∈ (es.foldl Ledger.enter l).attempt →
    e ∈ l.attempt ∨ e ∈ es := by
  induction es with
  | nil => exact fun h => .inl h
  | cons e' es ih =>
      intro l h
      rcases ih h with h | h
      · have hattempt : e ∈ (if beginsAttempt e' then [] else l.attempt ++ [e']) := h
        split at hattempt
        · exact absurd hattempt List.not_mem_nil
        · rcases List.mem_append.mp hattempt with h | h
          · exact .inl h
          · exact .inr (List.mem_singleton.mp h ▸ List.mem_cons_self)
      · exact .inr (List.mem_cons_of_mem e' h)

/-- Writes of a request that does not run and says nothing of a restoration. -/
theorem observed_idle {answers : Write → List Finding} (h : ∀ id' file, .request id' file ∈ ws → id' = id ∧
    ∀ r digest, file = .document r digest → r.state.saysRestored = false ∧ r.state ≠ .running) :
    ∀ e ∈ Trace.observed answers ws, Idling id e := by
  rintro e he id' file rfl
  exact h id' file (Trace.mem_observed_step.mp he)

/-- The exit trap, after the lines of the execution. -/
theorem account_trap {l : Ledger} {key : String} {p : Progress} (hplain : a.Plain expected) (hl : l.Sound)
    (hinv : Inventoried listener l) (hexpected : listener.isSome = true → l.expected = expected)
    (htarget : p.record.target = target)
    (huntouched : p.mutationStarted = false → ∀ b, .step (.act b) ∈ l.attempt → b.mutatesServices = false) :
    Account id l (Trace.observed (a.finds target expected inventory)
      (executeExitTrap tools (a.world target expected) id listener p ++ cleanupExecutionLock key)) := by
  unfold executeExitTrap
  by_cases hstarted : p.mutationStarted = true
  · rw [if_pos hstarted]
    refine account_restoration hplain hl hinv hexpected htarget ?_ fun hrestored => ?_
    · dsimp only
      generalize (restoreServicesAfterFailure (a.world target expected) listener).2 = restored
      intro hrun
      have hterm := failureState_isTerminal p.phase restored
      rw [hrun] at hterm
      exact absurd hterm (by simp [RequestState.isTerminal])
    · dsimp only
      rw [hrestored, failureState_restored]
      rfl
  · rw [if_neg hstarted]
    have hclosing : Between id (fun r => r.target = target ∧ r.state ≠ .running) (updateRequest tools id
        { p.record with
          state := .blocked
          failure := some ⟨p.phase, some a.exitCode, true, a.machine.nowUtc⟩ } ++ cleanupExecutionLock key) :=
      (between_update ⟨htarget, by simp⟩).append (between_cleanup key)
    have hhonest : HonestRecord target l.attempt := .inl (huntouched (Bool.not_eq_true _ ▸ hstarted))
    exact (account_closing (hclosing.closing (by simp [updateRequest, cleanupExecutionLock])) hl hhonest).1

/-- The lines of `execute` before `MUTATION_STARTED=1`. -/
def linesBefore : List Line :=
  [.act .makeBackupRoot, .act .writeRmanCommands, .phase .validatingRman, .act .checkSyntax]

/-- The lines in front of the first mutation are the same with and without a listener. -/
theorem executeLines_split (listener : Option String) : ∃ ls, executeLines listener = linesBefore ++ .mutation :: ls := by
  cases listener with
  | none => exact ⟨_, rfl⟩
  | some name => exact ⟨_, rfl⟩

/-- The preflight checks come before all lines. -/
theorem preflight_not_line (listener : Option String) : .act .preflight ∉ executeLines listener := by
  cases listener <;> simp [executeLines, withListener]

/-- In front of the marker nothing touches the services. -/
theorem linesBefore_untouched (b : Act) (h : .act b ∈ linesBefore) : b.mutatesServices = false := by
  simp only [linesBefore, List.mem_cons, List.not_mem_nil, or_false, reduceCtorEq, false_or, Line.act.injEq] at h
  rcases h with rfl | rfl | rfl <;> rfl

/-- **An execution is accounted for**, whatever its steps answer and wherever it fails. -/
theorem account_execute {l : Ledger} {actor key : String} {o : Owner} {digest : Option Digest}
    (hplain : a.Plain expected) (hfile : l.file = some (.document r digest)) (hstate : r.state = .authorized)
    (hexpected : ∀ report, a.preStop = some report → expected = expectedServices report) :
    Account id l (Trace.observed (a.finds r.target expected (a.takesInventory r))
      (claimLock key o ++ executeHeld tools (a.world r.target expected) id actor r ++ cleanupExecutionLock key)) := by
  have hidle : l.Idle := by
    intro r' digest' hr'
    rw [hfile, Option.some.injEq, RequestFile.document.injEq] at hr'
    rw [← hr'.1, hstate]
    simp
  unfold executeHeld
  cases hpre : (a.world r.target expected).preflight r with
  | error e => exact (account_idle (observed_idle (by simp [claimLock, cleanupExecutionLock])) hidle).1
  | ok pre =>
      dsimp only
      obtain ⟨ls, hlines⟩ := executeLines_split pre.listener
      generalize hw : a.world r.target expected = w
      generalize hrunning : runningRecord w r actor pre = running
      have hrun : running.state = .running := hrunning ▸ rfl
      have hlistener : running.listener = pre.listener := hrunning ▸ rfl
      have hcore : running.toCore = r.toCore := hrunning ▸ rfl
      obtain ⟨hbetween, hend, hendcore, hendlistener⟩ := @runLines_between tools id pre.listener w
        (executeLines pre.listener) ⟨running, .initializing, false⟩ hrun hlistener (preflight_not_line _)
      have huntouched := @runLines_untouched tools id w ls linesBefore linesBefore_untouched
        ⟨running, .initializing, false⟩
      rw [← hlines] at huntouched
      generalize runLines tools w id ⟨running, .initializing, false⟩ (executeLines pre.listener) = outcome at hbetween hend hendcore hendlistener huntouched ⊢
      -- the lock and the checks, the `running` record and the lines, the last record and the lock
      have hparts : ∀ last : List Write, claimLock key o ++ (.act .preflight :: updateRequest tools id running ++ outcome.1 ++ last) ++
          cleanupExecutionLock key = claimLock key o ++ ([.act .preflight] ++
            ((updateRequest tools id running ++ outcome.1) ++ (last ++ cleanupExecutionLock key))) := by
        intro last
        simp only [List.append_assoc, List.cons_append, List.nil_append]
      rw [hparts, Trace.observed_append, Trace.observed_append, Trace.observed_append]
      obtain ⟨hclaim, hclaimed⟩ := account_idle (@observed_idle id (claimLock key o)
        (a.finds r.target expected (a.takesInventory r)) (by simp [claimLock])) hidle
      obtain ⟨hchecks, hchecked⟩ := account_idle (@observed_idle id [.act .preflight]
        (a.finds r.target expected (a.takesInventory r)) (by simp)) hclaimed
      refine Trace.accounted_append.mpr ⟨hclaim, Trace.accounted_append.mpr ⟨hchecks, ?_⟩⟩
      have hattempt : ((Trace.observed (a.finds r.target expected (a.takesInventory r)) (claimLock key o)).foldl
          Ledger.enter l).attempt = [.step (.owner key o)] := rfl
      generalize hl₁ : (Trace.observed (a.finds r.target expected (a.takesInventory r)) (claimLock key o)).foldl
        Ledger.enter l = l₁ at hattempt hchecked ⊢
      obtain ⟨hinv, hservices⟩ := @preflight_inventoried r a r.target expected l₁ pre hpre (by simp [hattempt]) hexpected
      have hacts : ∀ b, .step (.act b) ∈ ((Trace.observed (a.finds r.target expected (a.takesInventory r))
          [.act .preflight]).foldl Ledger.enter l₁).attempt → b.mutatesServices = false := by
        intro b hb
        rcases mem_attempt_foldl hb with hb | hb
        · exact absurd hb (by simp [hattempt])
        · have hmem := Trace.mem_observed_step.mp hb
          rw [List.mem_singleton, Write.act.injEq] at hmem
          rw [hmem]
          rfl
      generalize (Trace.observed (a.finds r.target expected (a.takesInventory r)) [.act .preflight]).foldl
        Ledger.enter l₁ = l₂ at hchecked hinv hservices hacts ⊢
      have hcalm : ∀ e ∈ Trace.observed (a.finds r.target expected (a.takesInventory r))
          (updateRequest tools id running ++ outcome.1), Calm id pre.listener e :=
        ((between_update ⟨by rw [hrun]; rfl, fun _ => hlistener⟩).append hbetween).calm
      obtain ⟨hmiddle, hsound, hinv₃⟩ := account_calm hcalm hchecked.sound hinv
      obtain ⟨hattempt₃, hexpected₃⟩ := foldl_later (fun e he => (hcalm e he).1) l₂
      refine Trace.accounted_append.mpr ⟨hmiddle, ?_⟩
      split
      · have hcompleted : Between id (CalmRecord pre.listener) (updateRequest tools id
            { (outcome.2.1.record.setPhase .completed) with state := .completed } ++ cleanupExecutionLock key) :=
          (between_update ⟨rfl, fun h => absurd h (by simp)⟩).append (between_cleanup key)
        exact (account_calm hcompleted.calm hsound hinv₃).1
      · subst hw
        refine account_trap hplain hsound hinv₃ (fun h => hexpected₃.trans (hservices h)) ?_ fun hstarted b hb => ?_
        · rw [hendcore, hcore]
        · rw [hattempt₃, List.mem_append] at hb
          rcases hb with hb | hb
          · exact hacts b hb
          · have hmem := Trace.mem_observed_step.mp hb
            rcases List.mem_append.mp hmem with hmem | hmem
            · exact absurd hmem (by simp [updateRequest])
            · exact huntouched hstarted b hmem

/-- **A reconciliation is accounted for** on a sound ledger. -/
theorem account_reconcile {l : Ledger} {actor key : String} {digest : Option Digest} (hplain : a.Plain l.expected)
    (hl : l.Sound) (hfile : l.file = some (.document r digest)) (hstate : r.state = .running) :
    Account id l (Trace.observed (a.finds r.target l.expected inventory)
      (reconcileHeld tools (a.world r.target l.expected) id actor r ++ cleanupExecutionLock key)) := by
  have hinv : Inventoried r.listener l := hl r digest hfile hstate
  unfold reconcileHeld
  refine account_restoration (r := reconciledRecord _ r actor _) hplain hl hinv (fun _ => rfl) rfl ?_ fun hrestored => ?_
  · unfold reconciledRecord
    generalize (restoreServicesAfterFailure (a.world r.target l.expected) (r.execution.bind (·.listener))).2 = restored
    cases restored <;> simp
  · have hrestored : (restoreServicesAfterFailure (a.world r.target l.expected) (r.execution.bind (·.listener))).2 =
        false := hrestored
    unfold reconciledRecord
    rw [hrestored]
    rfl

end

/-! ## Every call -/

def Site.ledger (site : Site) (id : String) : Ledger :=
  ⟨site.store.requests id, site.expected id, attempt site.history id⟩

section
variable {site site' : Site} {c : Call} {es : List Event}

/-- An update of a request that does not run. -/
theorem update_idling {l : Ledger} {answers : Write → List Finding} (hl : l.Idle)
    (hstate : r.state.saysRestored = false ∧ r.state ≠ .running) :
    Account id l (Trace.observed answers (updateRequest tools id r)) := by
  refine (account_idle (observed_idle fun id' file hmem => ?_) hl).1
  have hupdate : Between id (fun r => r.state.saysRestored = false ∧ r.state ≠ .running) (updateRequest tools id r) :=
    between_update hstate
  refine ⟨hupdate.own id' file hmem, ?_⟩
  rintro r' digest rfl
  exact hupdate.records id' r' digest hmem

/-- A loaded record is what its ledger has. -/
theorem ledger_file (hload : loadRequest tools site.store id = .ok r) :
    ∃ digest, (site.ledger id).file = some (.document r digest) :=
  ⟨_, (loadRequest_ok.mp hload).2.1⟩

/-- The site reads the record out of the same file. -/
theorem record_of_ledger {digest : Option Digest} (hfile : (site.ledger id).file = some (.document r digest)) :
    site.record? id = some r := by
  unfold Site.record?
  rw [show site.store.requests id = _ from hfile]

/-- The ledger of a request that does not run. -/
theorem ledger_idle (hload : loadRequest tools site.store id = .ok r) (hstate : r.state ≠ .running) :
    (site.ledger id).Idle := by
  obtain ⟨digest, hfile⟩ := @ledger_file tools id r site hload
  intro r' digest' hr'
  rw [hfile, Option.some.injEq, RequestFile.document.injEq] at hr'
  exact hr'.1 ▸ hstate

/-- A new request is not running. -/
theorem create_writes {w : World} {s : Store} {ws : List Write}
    {requester snapshotPath policyPath database backupParent opens closes : String}
    (h : create tools w s id requester snapshotPath policyPath database backupParent opens closes = .ok ws) :
    s.requests id = none ∧ ∃ source r, ws = [.source id source, .request id (sealFile tools r)] ∧
      r.state = .awaitingApproval := by
  unfold create at h
  simp only [check_bind_ok, ensure_ok, need_bind_ok] at h
  obtain ⟨-, -, -, -, -, -, snapshot, -, policy, -, parent, -, -, -, -, -, h⟩ := h
  obtain ⟨target, -, h⟩ := bind_ok.mp h
  simp only [check_bind_ok, ensure_ok, Except.ok.injEq, Option.isNone_iff_eq_none] at h
  obtain ⟨-, -, hnone, rfl⟩ := h
  exact ⟨hnone, _, _, rfl, rfl⟩

/-- **Every command is accounted for** on a sound ledger, if it is answered plainly. -/
theorem account_events (hplain : c.answers.Plain (c.expected site)) (hsound : (site.ledger c.id).Sound)
    (h : c.events tools site = .ok es) :
    Account c.id (site.ledger c.id) es := by
  obtain ⟨id, command, a, killed⟩ := c
  obtain ⟨ws, hscript, hes⟩ := bind_ok.mp h
  obtain rfl := Except.ok.inj hes
  dsimp only at hplain hsound ⊢
  cases command with
  | create requester snapshotPath policyPath database backupParent opens closes =>
      -- a new request has no record before, and its first one promises nothing
      obtain ⟨hnone, source, r, rfl, hstate⟩ := create_writes hscript
      have hidle : (site.ledger id).Idle := by
        intro r' digest hr'
        exact absurd (hnone.symm.trans hr') (by simp)
      refine (account_idle (observed_idle fun id' file hmem => ?_) hidle).1
      rw [List.mem_cons, List.mem_singleton] at hmem
      rcases hmem with hmem | hmem
      · exact absurd hmem (by simp)
      · obtain ⟨rfl, rfl⟩ := Write.request.inj hmem
        refine ⟨rfl, fun r' digest heq => ?_⟩
        obtain ⟨rfl, -⟩ := RequestFile.document.inj heq
        rw [hstate]
        exact ⟨rfl, by simp⟩
  | approve actor ticket =>
      obtain ⟨r, hload, hstate, rfl⟩ := approve_ok hscript
      exact update_idling (ledger_idle hload (by simp [hstate])) ⟨rfl, by simp [approvedRecord]⟩
  | authorize actor =>
      obtain ⟨r, hload, hstate, -, rfl⟩ := authorize_ok hscript
      exact update_idling (ledger_idle hload (by simp [hstate])) ⟨rfl, by simp [authorizedRecord]⟩
  | execute actor =>
      -- either the request was done before and nothing is written, or the worker runs with the answers of this call
      obtain ⟨r, hload, -, hdone | ⟨hstate, -, -, -, -, -, -, rfl⟩⟩ := execute_ok.mp hscript
      · rw [hdone.2]
        trivial
      · obtain ⟨digest, hfile⟩ := @ledger_file tools id r site hload
        unfold Call.finds Call.invocation Call.world Site.target
        dsimp only
        rw [record_of_ledger hfile]
        refine account_execute hplain hfile hstate fun report hreport => ?_
        unfold Call.expected
        dsimp only
        rw [hreport]
  | reconcile actor =>
      -- the record is still running, and what the interrupted worker found stays in its ledger
      obtain ⟨r, hload, -, hstate, -, timeout, -, o, -, -, rfl⟩ := reconcile_ok.mp hscript
      obtain ⟨digest, hfile⟩ := @ledger_file tools id r site hload
      unfold Call.finds Call.invocation Call.world Site.target
      dsimp only
      rw [record_of_ledger hfile]
      exact account_reconcile hplain hsound hfile hstate

/-! ## Every run

The accounts of the calls are put together to one of the run. A call on one request leaves the ledgers of the
others alone, so that calls on several requests may be interleaved. -/

/-- Every record in a history that says that services are restored is honest about it. -/
def HonestHistory (history : List (String × Event)) : Prop :=
  ∀ before after caller id r digest,
    history = before ++ (caller, .step (.request id (.document r digest))) :: after → r.state.saysRestored = true →
      HonestRecord r.target (attempt before id)

structure Accountable (site : Site) : Prop where
  sound : ∀ id, (site.ledger id).Sound
  honest : HonestHistory site.history

theorem attempt_self (history : List (String × Event)) (id : String) (e : Event) :
    attempt (history ++ [(id, e)]) id = if beginsAttempt e then [] else attempt history id ++ [e] := by
  unfold attempt
  rw [List.filter_append, List.map_append, List.filter_cons_of_pos (by simp), List.filter_nil, List.map_singleton,
    List.rtakeWhile_concat]
  cases beginsAttempt e <;> rfl

theorem attempt_other {id id' : String} (history : List (String × Event)) (e : Event) (hid : id' ≠ id) :
    attempt (history ++ [(id', e)]) id = attempt history id := by
  unfold attempt
  rw [List.filter_append, List.filter_cons_of_neg (by simpa using hid), List.filter_nil, List.append_nil]

/-- The request files after a step. -/
def Write.requests (w : Write) (requests : String → Option RequestFile) : String → Option RequestFile :=
  match w with
  | .request id file => setName requests id (some file)
  | _ => requests

/-- What a step leaves of the request files. -/
theorem exec_requests {s s' : Store} {w : Write} (h : exec s w = some s') : s'.requests = w.requests s.requests := by
  cases w with
  | mkdirLock key =>
      unfold exec at h
      dsimp only at h
      split at h
      · obtain rfl := Option.some.inj h
        rfl
      · exact absurd h (by simp)
  | unlinkOwner key =>
      obtain rfl := Option.some.inj h
      split <;> rfl
  | rmdirLock key =>
      obtain rfl := Option.some.inj h
      split <;> rfl
  | _ =>
      obtain rfl := Option.some.inj h
      rfl

/-- An event moves the ledger of its request, -/
theorem ledger_enter {e : Event} (h : Site.exec id site e = some site')
    (hown : ∀ id' file, e = .step (.request id' file) → id' = id) : site'.ledger id = (site.ledger id).enter e := by
  cases e with
  | answer f =>
      cases f <;> cases h <;> simp [Site.ledger, Ledger.enter, attempt_self, beginsAttempt]
  | step w =>
      obtain ⟨s, hs, rfl⟩ := Option.map_eq_some_iff.mp h
      unfold Site.ledger Ledger.enter
      rw [exec_requests hs, attempt_self]
      cases w with
      | request id' file =>
          obtain rfl := hown id' file rfl
          simp [Write.requests]
      | _ => rfl

/-- and no other. -/
theorem ledger_other {e : Event} {id' : String} (h : Site.exec id site e = some site') (hid : id' ≠ id)
    (hown : ∀ id' file, e = .step (.request id' file) → id' = id) : site'.ledger id' = site.ledger id' := by
  cases e with
  | answer f =>
      cases f <;> cases h <;> simp [Site.ledger, attempt_other _ _ hid.symm, hid]
  | step w =>
      obtain ⟨s, hs, rfl⟩ := Option.map_eq_some_iff.mp h
      unfold Site.ledger
      rw [exec_requests hs, attempt_other _ _ hid.symm]
      cases w with
      | request id'' file =>
          obtain rfl := hown id'' file rfl
          simp [Write.requests, hid]
      | _ => rfl

/-- A step is entered in the history. -/
theorem exec_history {e : Event} (h : Site.exec id site e = some site') : site'.history = site.history ++ [(id, e)] := by
  cases e with
  | answer f => cases f <;> cases h <;> rfl
  | step w =>
      obtain ⟨s, -, rfl⟩ := Option.map_eq_some_iff.mp h
      rfl

/-- A history stays honest with an event that says nothing of a restoration, or tells the truth. -/
theorem HonestHistory.snoc {history : List (String × Event)} {caller : String} {e : Event} (h : HonestHistory history)
    (he : ∀ id r digest, e = .step (.request id (.document r digest)) → r.state.saysRestored = true →
      HonestRecord r.target (attempt history id)) : HonestHistory (history ++ [(caller, e)]) := by
  intro before after caller' id r digest heq hspeaks
  rcases List.eq_nil_or_concat after with rfl | ⟨after', last, rfl⟩
  · obtain ⟨rfl, hlast⟩ := List.append_inj' heq rfl
    exact he id r digest (Prod.mk.inj (List.singleton_inj.mp hlast)).2 hspeaks
  · rw [List.concat_eq_append, ← List.cons_append, ← List.append_assoc] at heq
    obtain ⟨rfl, -⟩ := List.append_inj' heq rfl
    exact h before after' caller' id r digest rfl hspeaks

/-- **Step.** An event that fits its ledger keeps a site accountable. -/
theorem Accountable.exec {e : Event} (h : Accountable site) (hfit : Fit id (site.ledger id) e)
    (hexec : Site.exec id site e = some site') : Accountable site' := by
  constructor
  · intro id'
    by_cases hid : id' = id
    · rw [hid, ledger_enter hexec hfit.own]
      exact hfit.sound
    · rw [ledger_other hexec hid hfit.own]
      exact h.sound id'
  · rw [exec_history hexec]
    refine h.honest.snoc fun id' r digest heq hspeaks => ?_
    obtain rfl := hfit.own id' _ heq
    exact hfit.honest id' r digest heq hspeaks

/-- **A call keeps the run accountable.** -/
theorem Accountable.perform : ∀ {site : Site}, Accountable site → Account id (site.ledger id) es →
    Accountable (Trace.perform (Site.exec id) site es).1 := by
  induction es with
  | nil => exact fun h _ => h
  | cons e es ih =>
      rintro site h ⟨hfit, hrest⟩
      cases hexec : Site.exec id site e with
      | none =>
          rw [Trace.perform_cons_none es hexec]
          exact h
      | some site' =>
          rw [Trace.perform_cons_some es hexec]
          refine ih (h.exec hfit hexec) ?_
          rw [ledger_enter hexec hfit.own]
          exact hrest

/-- **Run.** Every site that plainly answered calls reach is accountable, wherever they are killed and whatever else
    they are told. -/
theorem accountable_observed {calls : List Call} (h : PlainlyObserved tools calls site) : Accountable site := by
  refine Trace.Run.invariant (I := fun _ site => Accountable site) ?_ ?_ h
  · rintro site rfl
    refine ⟨fun id r digest hfile => absurd hfile (by simp [Site.ledger, Site.empty, Store.empty]), ?_⟩
    intro before after caller id r digest heq
    exact absurd heq (by simp [Site.empty])
  · rintro calls site c site' - hsite hplain hstep
    obtain rfl : site.after tools c = site' := Option.some.inj hstep
    unfold Site.after
    cases hevents : c.events tools site with
    | error e => exact hsite
    | ok es =>
        have haccount := account_events hplain (hsite.sound c.id) hevents
        refine hsite.perform ?_
        unfold Call.cut
        cases c.killedAfter with
        | none => exact haccount
        | some k => exact haccount.take k

/-- **Honest classification.** Where the reports of the listener are plain, whatever else the tools answer and wherever
    the processes end, a record that says that services are restored is written only if no service was touched in its
    attempt, or after the last thing that takes one down the database was probed open read-write under its sealed name
    and a report of the listener has every service that was registered before the stop. -/
theorem honest_classification {calls : List Call} (h : PlainlyObserved tools calls site)
    {before after : List (String × Event)} {caller id : String} {digest : Option Digest}
    (hhistory : site.history = before ++ (caller, .step (.request id (.document r digest))) :: after)
    (hspeaks : r.state.saysRestored = true) : HonestRecord r.target (attempt before id) :=
  (accountable_observed h).honest before after caller id r digest hhistory hspeaks

end

/-! ## One attempt -/

section Lab

def labListenerReport : Text :=
  ("Services Summary...\n  Service \"ORCL\" has 1 instance(s).\n" ++
    "    Instance \"ORCL1\", status READY, has 1 handler(s) for this service...\n").toList

def labProbeOutput : Text := "ORCL|ORCL1|PRIMARY|READ WRITE|NOARCHIVELOG|OPEN|1234|/u01/spfile.ora|1024\n".toList

/-- The database is found open, and its listener names the service in its second report. -/
def labAnswers : Answers where
  machine := labMachine
  pid := 4711
  alive := fun _ => false
  checks := fun _ => .ok ⟨some "LISTENER", 100, 200⟩
  preStop := some labListenerReport
  fails := fun _ => false
  exitCode := 1
  opens := false
  health := some labProbeOutput
  listenerUp := false
  listenerStarts := true
  listenerStays := true
  registers := true
  reports := [none, some labListenerReport]

/-- The processes of a request, of which the reconciliation is answered with `reports`: the execution is killed when the
    database is down. -/
def labCalls (reports : List (Option Text)) : List Call :=
  [⟨"prep-1", .create "rita" "/s.json" "/p.json" "ORCL" "/backup" "2026-03-01T01:00:00Z" "2026-03-01T06:00:00Z",
      labAnswers, none⟩,
    ⟨"prep-1", .approve "anna" "CHG-1", labAnswers, none⟩, ⟨"prep-1", .authorize "olga", labAnswers, none⟩,
    ⟨"prep-1", .execute "olga", labAnswers, some 29⟩,
    ⟨"prep-1", .reconcile "olga", { labAnswers with reports := reports }, none⟩]

/-- The entry is a record of the request that says its services are restored after a failure. -/
def isRestoredEntry (entry : String × Event) : Bool :=
  match entry with
  | (_, .step (.request id (.document r _))) => id == "prep-1" && r.state == .failedServicesRestored
  | _ => false

/-- What the check of an entry shows. -/
theorem of_isRestoredEntry {entry : String × Event} (h : isRestoredEntry entry = true) :
    ∃ caller r digest, entry = (caller, .step (.request "prep-1" (.document r digest))) ∧
      r.state = .failedServicesRestored := by
  obtain ⟨caller, e⟩ := entry
  cases e with
  | answer f => exact absurd h (by simp [isRestoredEntry])
  | step w =>
      cases w with
      | request id file =>
          cases file with
          | torn => exact absurd h (by simp [isRestoredEntry])
          | document r digest =>
              unfold isRestoredEntry at h
              rw [Bool.and_eq_true, beq_iff_eq, beq_iff_eq] at h
              obtain ⟨rfl, hstate⟩ := h
              exact ⟨caller, r, digest, rfl, hstate⟩
      | _ => exact absurd h (by simp [isRestoredEntry])

/-- Every report has the expected services. -/
def hasAll (site : Site) (c : Call) : Bool :=
  c.answers.reports.all fun
    | none => true
    | some report => (c.expected site).all fun service => decide (service ∈ expectedServices report)

/-- A call whose later reports name the services as the first one did. -/
theorem plain_of_hasAll {site : Site} {c : Call} (h : hasAll site c = true) : c.answers.Plain (c.expected site) := by
  intro report hreport _ service hservice
  unfold hasAll at h
  rw [List.all_eq_true] at h
  have hall := h _ hreport
  dsimp only at hall
  rw [List.all_eq_true] at hall
  exact registered_of_expected (of_decide_eq_true (hall service hservice))

/-- A reconciliation that may say so: the listener was stopped and the database was shut down before, and its second
    report has the service. -/
theorem honest_classification_reconciled : ∃ calls site before after caller r digest,
    PlainlyObserved labTools calls site ∧
    site.history = before ++ (caller, .step (.request "prep-1" (.document r digest))) :: after ∧
    r.state = .failedServicesRestored ∧ HonestRecord r.target (attempt before "prep-1") := by
  have hrun : (((labCalls [none, some labListenerReport]).foldlM (Trace.guarded (fun site c => some (site.after labTools c))
      hasAll) Site.empty).any fun site => site.history.any isRestoredEntry) = true := by decide +kernel
  obtain ⟨site, hsite, hentry⟩ := (Option.any_eq_true _ _).mp hrun
  have hobserved : PlainlyObserved labTools _ site := Trace.Run.of_foldlM rfl (fun _ _ h => plain_of_hasAll h) hsite
  obtain ⟨entry, hmem, hrestored⟩ := List.any_eq_true.mp hentry
  obtain ⟨before, after, hhistory⟩ := List.append_of_mem hmem
  obtain ⟨caller, r, digest, rfl, hstate⟩ := of_isRestoredEntry hrestored
  have hspeaks : r.state.saysRestored = true := by rw [hstate]; rfl
  exact ⟨_, site, before, after, caller, r, digest, hobserved, hhistory, hstate,
    honest_classification hobserved hhistory hspeaks⟩

/-! ### A report that names the service otherwise -/

/-- The service has not come back, and the instance is ready for another. -/
def labUnregisteredReport : Text :=
  ("Services Summary...\n  Service \"ORCL\" is not registered\n  Service \"XDB\" has 1 instance(s).\n" ++
    "    Instance \"ORCL1\", status READY, has 1 handler(s) for this service...\n").toList

/-- The events before the first record that says that services are restored. -/
def beforeRestored (site : Site) : List (String × Event) := site.history.takeWhile fun entry => !isRestoredEntry entry

/-- The attempt has shut the database down, has found the service registered before that, and was given no report that
    has it since. -/
def provesNothing (es : List Event) : Bool :=
  es.any (fun
    | .step (.act .shutdown) => true
    | _ => false) &&
  es.any (fun
    | .answer (.preStop (some report)) => decide ("ORCL".toList ∈ expectedServices report)
    | _ => false) &&
  es.all fun
    | .answer (.services (some later)) => decide ("ORCL".toList ∉ expectedServices later)
    | _ => true

/-- An attempt without a registration behind it proves nothing. -/
theorem not_honest_of_provesNothing {target : Target} {es : List Event} (h : provesNothing es = true) :
    ¬ HonestRecord target es := by
  unfold provesNothing at h
  rw [Bool.and_eq_true, Bool.and_eq_true, List.any_eq_true, List.any_eq_true, List.all_eq_true] at h
  obtain ⟨⟨⟨down, hdown, hshutdown⟩, ⟨inventory, hinventory, hregistered⟩⟩, hsince⟩ := h
  rintro (huntouched | ⟨during, since, rfl, -, -, hservices⟩)
  · split at hshutdown
    · exact absurd (huntouched _ hdown) (by simp [Act.mutatesServices])
    · exact absurd hshutdown (by simp)
  · split at hregistered
    · rename_i report
      obtain ⟨later, hlater, hall⟩ := hservices report hinventory
      have hagain := (hall _ (registered_of_expected (of_decide_eq_true hregistered))).mem_expected
      exact of_decide_eq_true (hsince _ (List.mem_append_right during hlater)) hagain
    · exact absurd hregistered (by simp)

/-- **Not registered again.** The reconciliation is told that the service is not registered, and writes that services
    are restored. -/
theorem unregistered_service_restored : ∃ calls site before after caller r digest, Observed labTools calls site ∧
    site.history = before ++ (caller, .step (.request "prep-1" (.document r digest))) :: after ∧
    r.state.saysRestored = true ∧ ¬ HonestRecord r.target (attempt before "prep-1") := by
  generalize hsite : (labCalls [some labUnregisteredReport]).foldl (Site.after labTools) Site.empty = site
  have hobserved : Observed labTools (labCalls [some labUnregisteredReport]) site :=
    hsite ▸ Trace.Run.of_foldl rfl fun _ _ _ => trivial
  have hrun : (!(site.history.dropWhile fun entry => !isRestoredEntry entry).isEmpty &&
      provesNothing (attempt (beforeRestored site) "prep-1")) = true := by
    rw [← hsite]
    decide +kernel
  rw [Bool.and_eq_true] at hrun
  obtain ⟨hentry, hproof⟩ := hrun
  cases hrest : site.history.dropWhile fun entry => !isRestoredEntry entry with
  | nil => exact absurd hentry (by simp [hrest])
  | cons entry after =>
      have hrestored : isRestoredEntry entry = true := by
        have hhead := List.head_dropWhile_not (l := site.history) (fun entry => !isRestoredEntry entry) (by simp [hrest])
        simpa [hrest] using hhead
      obtain ⟨caller, r, digest, rfl, hstate⟩ := of_isRestoredEntry hrestored
      refine ⟨_, site, beforeRestored site, after, caller, r, digest, hobserved, ?_, by rw [hstate]; rfl,
        not_honest_of_provesNothing hproof⟩
      rw [← hrest]
      exact List.takeWhile_append_dropWhile.symm

end Lab

end OraclePatching.Recovery
