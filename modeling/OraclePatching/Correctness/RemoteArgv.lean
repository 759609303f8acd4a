import OraclePatching.Web.Remote

/-!
# `Correctness.RemoteArgv` — a node runs the words it was sent

Three texts are nested when an executor is launched: the command of ssh, the script of the launcher and the script of
its wrapper. Each is read by a shell of its own, and at each reading a quoted value is one word and stands for itself.
-/

namespace OraclePatching.Remote

open ShellWords

/-! ## One command

`ssh` joins its last arguments with spaces and hands them to a shell on the node. The words that come out there are
the ones that were quoted here. -/

section
variable {argv : List String} {sshAlias command : String} {timeout : Nat} {asRoot : Bool}

/-- A word that names a command. -/
def namesCommand (word : String) : Bool := isCommandName word.toList

/-- What is sent is the last argument. -/
theorem sentCommand_sshArgv : sentCommand (sshArgv sshAlias command timeout) = command := rfl

/-- Quoted words arrive as they are. -/
theorem received_joined (hname : argv.head?.any namesCommand = true) :
    received (sshArgv sshAlias (joined argv) timeout) = some argv := by
  have hhead : (argv.map String.toList).head?.any isCommandName = true := by
    rw [List.head?_map, Option.any_map]
    exact hname
  rw [received, sentCommand_sshArgv, joined, String.toList_ofList, simpleCommand_joinQuoted hhead, Option.map_some,
    List.map_map]
  simp [Function.comp_def, String.ofList_toList]

/-- With `sudo` in front the first word names a command. -/
theorem withSudo_names (h : asRoot = true ∨ argv.head?.any namesCommand = true) :
    (withSudo asRoot argv).head?.any namesCommand = true := by
  cases asRoot with
  | true =>
      show namesCommand "sudo" = true
      decide
  | false =>
      rcases h with h | h
      · exact absurd h (by simp)
      · exact h

/-- A text without quotes in front of quoted words is the same words. -/
theorem joined_cons (word : String) (words : List String) (hne : words ≠ []) :
    joined (word :: words) = shlexQuote word ++ " " ++ joined words := by
  cases words with
  | nil => exact absurd rfl hne
  | cons next rest =>
      rw [← String.toList_inj]
      simp [joined, shlexQuote, joinQuoted, String.toList_ofList, String.toList_append]

theorem joined_single (word : String) : joined [word] = shlexQuote word := rfl

theorem bash_joined (script : String) : "bash -c " ++ shlexQuote script = joined ["bash", "-c", script] := by
  rw [joined_cons _ _ (by simp), joined_cons _ _ (by simp), joined_single]
  have h1 : shlexQuote "bash" = "bash" := by decide
  have h2 : shlexQuote "-c" = "-c" := by decide
  rw [h1, h2, ← String.toList_inj]
  simp [String.toList_append]

theorem sudo_joined (words : List String) (hne : words ≠ []) :
    "sudo -n " ++ joined words = joined ("sudo" :: "-n" :: words) := by
  rw [joined_cons _ _ (by simp), joined_cons _ _ hne]
  have h1 : shlexQuote "sudo" = "sudo" := by decide
  have h2 : shlexQuote "-n" = "-n" := by decide
  rw [h1, h2, ← String.toList_inj]
  simp [String.toList_append]

theorem runRemoteShell_joined (script : String) :
    runRemoteShell sshAlias script timeout asRoot =
      sshArgv sshAlias (joined (withSudo asRoot ["bash", "-c", script])) timeout := by
  unfold runRemoteShell
  cases asRoot with
  | true =>
      show sshArgv sshAlias ("sudo -n " ++ ("bash -c " ++ shlexQuote script)) timeout = _
      rw [bash_joined, sudo_joined _ (by simp)]
      rfl
  | false =>
      show sshArgv sshAlias ("bash -c " ++ shlexQuote script) timeout = _
      rw [bash_joined]
      rfl

theorem received_runRemoteShell (script : String) :
    received (runRemoteShell sshAlias script timeout asRoot) = some (withSudo asRoot ["bash", "-c", script]) := by
  rw [runRemoteShell_joined]
  refine received_joined (withSudo_names (.inr ?_))
  show namesCommand "bash" = true
  decide

end

/-! ## The script of a push -/

/-- A word that is read as it is written. -/
def bareWord (text : String) : Token := .word (text.toList.map fun c => ⟨c, .bare⟩)

/-- `mkdir -p DIR && cat > PATH`. -/
def pushTokens (dir path : List Mark) : List Token :=
  [bareWord "mkdir", .sep ' ', bareWord "-p", .sep ' ', .word dir, .sep ' ', .sep '&', .sep '&', .sep ' ',
    bareWord "cat", .sep ' ', .sep '>', .sep ' ', .word path]

/-- It reads as the tokens of its template. -/
theorem lex_pushScript (path : String) :
    lex (render (pushScript path)) =
      some (pushTokens (quoteMarks (remoteDir path).toList) (quoteMarks path.toList)) := by
  have hfirst : run start "mkdir -p ".toList = ⟨.outside, none, [bareWord "mkdir", .sep ' ', bareWord "-p", .sep ' ']⟩ := by
    decide
  have hsecond : run start " && cat > ".toList =
      ⟨.outside, none, [.sep ' ', .sep '&', .sep '&', .sep ' ', bareWord "cat", .sep ' ', .sep '>', .sep ' ']⟩ := by decide
  have hblank : " && cat > ".toList.head?.any isSep = true := by decide
  have hread : templateTokens (pushScript path) =
      pushTokens (quoteMarks (remoteDir path).toList) (quoteMarks path.toList) := by
    unfold templateTokens pushScript
    generalize "mkdir -p ".toList = front at hfirst ⊢
    generalize " && cat > ".toList = middle at hsecond hblank ⊢
    have htake : start.take (.text front) = ⟨.outside, none, [bareWord "mkdir", .sep ' ', bareWord "-p", .sep ' ']⟩ := hfirst
    have hmiddle : start.take (.text middle) = ⟨.outside, none, _⟩ := hsecond
    rw [List.foldl_cons, htake, List.foldl_cons, foldl_take_separated rfl hblank, List.foldl_cons, hmiddle, read_after]
    rfl
  rw [lex_render, hread]
  · intro p hp
    simp only [pushScript, List.mem_cons, List.not_mem_nil, or_false] at hp
    rcases hp with rfl | rfl | rfl | rfl
    · decide
    · rfl
    · decide
    · rfl

/-! ## The launcher -/

/-- The launcher before its wrapper; the last two words are `bash` and `-c`. -/
def launchFront (runDir : String) : List Piece :=
  [.text "mkdir -p ".toList, .value runDir.toList, .text " && cd ".toList, .value runDir.toList,
    .text " && if command -v setsid >/dev/null 2>&1; ".toList, .text "then SETSID=setsid; else SETSID=; fi; ".toList,
    .text "nohup $SETSID bash -c ".toList]

/-- The launcher after its wrapper. -/
def launchRest (runDir : String) : List Piece :=
  [.text " >/dev/null 2>&1 </dev/null & ".toList, .text "for _ in 1 2 3 4 5 6 7 8 9 10; do [ -s ".toList,
    .value runDir.toList, .text "/pid ] && break; ".toList, .text "sleep 1; done; cat ".toList, .value runDir.toList,
    .text "/pid".toList]

/-- The launcher up to the wrapper, the wrapper, and the rest. -/
theorem launch_split (runDir : String) (argv : List String) :
    launch runDir argv = launchFront runDir ++ .value (wrapper argv).toList :: launchRest runDir := rfl

theorem launchFront_closed {runDir : String} {p : Piece} (hp : p ∈ launchFront runDir) : p.closed = true := by
  simp only [launchFront, List.mem_cons, List.not_mem_nil, or_false] at hp
  rcases hp with rfl | rfl | rfl | rfl | rfl | rfl | rfl <;> rfl

theorem launchRest_closed {runDir : String} {p : Piece} (hp : p ∈ launchRest runDir) : p.closed = true := by
  simp only [launchRest, List.mem_cons, List.not_mem_nil, or_false] at hp
  rcases hp with rfl | rfl | rfl | rfl | rfl | rfl | rfl <;> rfl

theorem launch_closed {runDir : String} {argv : List String} {p : Piece} (hp : p ∈ launch runDir argv) :
    p.closed = true := by
  rw [launch_split, List.mem_append, List.mem_cons] at hp
  rcases hp with hp | rfl | hp
  · exact launchFront_closed hp
  · rfl
  · exact launchRest_closed hp

/-- The words that the launcher puts in front of the wrapper, read after any text that ends with a blank. -/
theorem run_nohup {s : State} (hmode : s.mode = .outside) (hword : s.word = none) :
    run s "nohup $SETSID bash -c ".toList =
      ⟨.outside, none, s.tokens ++ [bareWord "nohup", .sep ' ', bareWord "$SETSID", .sep ' ', bareWord "bash", .sep ' ',
        bareWord "-c", .sep ' ']⟩ := by
  have h := run_after s.tokens start "nohup $SETSID bash -c ".toList
  rw [← eq_after hmode hword] at h
  rw [h]
  rfl

/-- The reader in front of the wrapper. -/
theorem launchFront_read (runDir : String) :
    ∃ before, (launchFront runDir).foldl State.take start =
      ⟨.outside, none, before ++ [bareWord "bash", .sep ' ', bareWord "-c", .sep ' ']⟩ := by
  let front := (launchFront runDir).dropLast
  have hsplit : launchFront runDir = front ++ [.text "nohup $SETSID bash -c ".toList] := rfl
  have hmode : (front.foldl State.take start).mode = .outside :=
    foldl_take_mode (fun p hp => launchFront_closed (List.dropLast_subset _ hp)) rfl
  have hword : (front.foldl State.take start).word = none := by
    -- the piece before ends with a blank
    have hlast : front = front.dropLast ++ [.text ("then SETSID=setsid; else SETSID=; fi;".toList ++ [' '])] := rfl
    rw [hlast, List.foldl_append, List.foldl_cons, List.foldl_nil]
    refine run_blank _ ?_
    rw [run_mode, foldl_take_mode (fun p hp => launchFront_closed (List.dropLast_subset _ (List.dropLast_subset _ hp))) rfl]
    decide
  refine ⟨(front.foldl State.take start).tokens ++ [bareWord "nohup", .sep ' ', bareWord "$SETSID", .sep ' '], ?_⟩
  rw [hsplit, List.foldl_append, List.foldl_cons, List.foldl_nil]
  show run (front.foldl State.take start) "nohup $SETSID bash -c ".toList = _
  rw [run_nohup hmode hword, List.append_assoc]
  rfl

/-- **How the node reads the launcher**: the argument of its `bash -c` is the wrapper, and the run directory alone
    decides about the rest. -/
theorem lex_launch (runDir : String) : ∃ before, ∀ argv, lex (render (launch runDir argv)) =
    some (before ++ [bareWord "bash", .sep ' ', bareWord "-c", .sep ' ', .word (quoteMarks (wrapper argv).toList)] ++
      templateTokens (launchRest runDir)) := by
  obtain ⟨before, hfront⟩ := launchFront_read runDir
  refine ⟨before, fun argv => ?_⟩
  rw [lex_render fun p hp => launch_closed hp, templateTokens, launch_split, List.foldl_append, hfront, List.foldl_cons]
  -- a blank follows the wrapper
  have hblank : " >/dev/null 2>&1 </dev/null & ".toList.head?.any isSep = true := by decide
  have hrest := foldl_take_separated (s := State.take ⟨.outside, none, before ++ [bareWord "bash", .sep ' ', bareWord "-c",
    .sep ' ']⟩ (.value (wrapper argv).toList)) rfl hblank (launchRest runDir).tail
  have hcons : Piece.text " >/dev/null 2>&1 </dev/null & ".toList :: (launchRest runDir).tail = launchRest runDir := rfl
  rw [hcons] at hrest
  rw [hrest, read_after]
  simp [State.take, State.extend, State.read, templateTokens]

/-! ## The wrapper -/

/-- `echo $$ >pid; `. -/
def wrapperBefore : List Token :=
  [bareWord "echo", .sep ' ', bareWord "$$", .sep ' ', .sep '>', bareWord "pid", .sep ';', .sep ' ']

/-- ` >stdout 2>stderr </dev/null; echo $? >rc.tmp && mv rc.tmp rc`. -/
def wrapperAfter : List Token :=
  [.sep ' ', .sep '>', bareWord "stdout", .sep ' ', bareWord "2", .sep '>', bareWord "stderr", .sep ' ', .sep '<',
    bareWord "/dev/null", .sep ';', .sep ' ', bareWord "echo", .sep ' ', bareWord "$?", .sep ' ', .sep '>',
    bareWord "rc.tmp", .sep ' ', .sep '&', .sep '&', .sep ' ', bareWord "mv", .sep ' ', bareWord "rc.tmp", .sep ' ',
    bareWord "rc"]

/-- **How the node reads the wrapper**: between its two redirected commands stand the words of the executor. -/
theorem lex_wrapper {argv : List String} (hne : argv ≠ []) :
    lex (wrapper argv).toList =
      some (wrapperBefore ++ spaced (argv.map fun word => quoteMarks word.toList) ++ wrapperAfter) := by
  have hbefore : run start "echo $$ >pid; ".toList = ⟨.outside, none, wrapperBefore⟩ := by decide
  have hafter : run start " >stdout 2>stderr </dev/null; echo $? >rc.tmp && mv rc.tmp rc".toList =
      ⟨.outside, some ("rc".toList.map fun c => ⟨c, .bare⟩), wrapperAfter.dropLast⟩ := by decide +kernel
  have hlast : " >stdout 2>stderr </dev/null; echo $? >rc.tmp && mv rc.tmp rc".toList.head?.any isSep = true := by decide
  have htext : (wrapper argv).toList = "echo $$ >pid; ".toList ++ joinQuoted (argv.map String.toList) ++
      " >stdout 2>stderr </dev/null; echo $? >rc.tmp && mv rc.tmp rc".toList := by
    rw [wrapper, String.toList_append, String.toList_append, joined,
      @String.toList_ofList (joinQuoted (argv.map String.toList))]
  generalize "echo $$ >pid; ".toList = front at hbefore htext
  generalize " >stdout 2>stderr </dev/null; echo $? >rc.tmp && mv rc.tmp rc".toList = rest at hafter hlast htext
  have hwords : argv.map String.toList ≠ [] := fun h => hne (List.map_eq_nil_iff.mp h)
  obtain ⟨hmode, _, hread⟩ := run_joinQuoted (s := ⟨.outside, none, wrapperBefore⟩) rfl rfl hwords
  obtain ⟨c, cs, rfl⟩ : ∃ c cs, rest = c :: cs := by
    cases rest with
    | nil => exact absurd hlast (by simp)
    | cons c cs => exact ⟨c, cs, rfl⟩
  have hrun : run start (wrapper argv).toList =
      (run start (c :: cs)).after (wrapperBefore ++ spaced ((argv.map String.toList).map quoteMarks)) := by
    rw [htext, run_append, run_append, hbefore, run_separated hmode hlast, hread]
  rw [lex, hrun, hafter]
  show some (State.read _) = _
  rw [read_after, List.map_map]
  rfl

/-! ## What the node runs -/

/-- The reader of a pull. -/
def pullReader : Option Nat → List String
  | none => ["cat", "--"]
  | some n => ["head", "-c", toString (n + 1), "--"]

/-- A file is read with `cat` or `head`, by its path. -/
theorem received_pullFile (sshAlias path : String) (timeout : Nat) (asRoot : Bool) (maxBytes : Option Nat) :
    received (pullFile sshAlias path timeout asRoot maxBytes) = some (withSudo asRoot (pullReader maxBytes ++ [path])) := by
  have hargv : pullFile sshAlias path timeout asRoot maxBytes =
      sshArgv sshAlias (joined (withSudo asRoot (pullReader maxBytes ++ [path]))) timeout := by
    cases asRoot <;> cases maxBytes <;> rfl
  rw [hargv]
  refine received_joined (withSudo_names (.inr ?_))
  cases maxBytes with
  | none =>
      show namesCommand "cat" = true
      decide
  | some n =>
      show namesCommand "head" = true
      decide

/-- A pushed file: the script of the push reaches a shell of the node as it is. -/
theorem received_pushFile (sshAlias path : String) (timeout : Nat) :
    received (pushFile sshAlias path timeout true) =
      some ["sudo", "-n", "bash", "-c", String.ofList (render (pushScript path))] := by
  have hargv : pushFile sshAlias path timeout true =
      runRemoteShell sshAlias (String.ofList (render (pushScript path))) timeout true := by
    show sshArgv sshAlias ("sudo -n bash -c " ++ _) timeout = sshArgv sshAlias ("sudo -n " ++ ("bash -c " ++ _)) timeout
    rw [← String.append_assoc]
    rfl
  rw [hargv, received_runRemoteShell]
  rfl

/-- **An executor is launched with its own words.** Whatever the run directory and the arguments are, the node reads
    three nested texts as the launcher means them: the innermost shell runs the words of the executor between the two
    commands that record its PID and its exit status. -/
theorem launched_argv (sshAlias runDir : String) (timeout : Nat) (asRoot : Bool) :
    ∃ before after, ∀ argv, argv.head?.any namesCommand = true →
      ∃ script inner : List Char, ∃ marks words,
        received (launchArgv sshAlias runDir argv timeout asRoot) =
          some (withSudo asRoot ["bash", "-c", String.ofList script]) ∧
        lex script = some (before ++ [bareWord "bash", .sep ' ', bareWord "-c", .sep ' ', .word marks] ++ after) ∧
        denote marks = some inner ∧
        lex inner = some (wrapperBefore ++ words ++ wrapperAfter) ∧
        simpleCommand words = some (argv.map String.toList) := by
  obtain ⟨before, hlaunch⟩ := lex_launch runDir
  refine ⟨before, templateTokens (launchRest runDir), fun argv hname => ?_⟩
  have hne : argv ≠ [] := by
    rintro rfl
    exact absurd hname (by simp)
  have hhead : (argv.map String.toList).head?.any isCommandName = true := by
    rw [List.head?_map, Option.any_map]
    exact hname
  have hscript : received (launchArgv sshAlias runDir argv timeout asRoot) =
      some (withSudo asRoot ["bash", "-c", String.ofList (render (launch runDir argv))]) :=
    received_runRemoteShell (String.ofList (render (launch runDir argv)))
  have hmap : (argv.map fun word => quoteMarks word.toList) = (argv.map String.toList).map quoteMarks := by
    rw [List.map_map]
    rfl
  have hwords : simpleCommand (spaced (argv.map fun word => quoteMarks word.toList)) = some (argv.map String.toList) := by
    rw [hmap]
    exact simpleCommand_spaced hhead
  exact ⟨_, _, _, _, hscript, hlaunch argv, denote_quoteMarks (wrapper argv).toList, lex_wrapper hne, hwords⟩

/-- An executor of a plan under a directory with a blank in its name. -/
theorem launched_argv_env :
    ∃ before after, ∃ script inner : List Char, ∃ marks words,
      received (launchArgv "n1" "/opt/tool tree/run" ["env", "A=1", "/x y"] 60 true) =
        some (withSudo true ["bash", "-c", String.ofList script]) ∧
      lex script = some (before ++ [bareWord "bash", .sep ' ', bareWord "-c", .sep ' ', .word marks] ++ after) ∧
      denote marks = some inner ∧
      lex inner = some (wrapperBefore ++ words ++ wrapperAfter) ∧
      simpleCommand words = some (["env", "A=1", "/x y"].map String.toList) := by
  obtain ⟨before, after, h⟩ := launched_argv "n1" "/opt/tool tree/run" 60 true
  exact ⟨before, after, h ["env", "A=1", "/x y"] (by decide)⟩

end OraclePatching.Remote
