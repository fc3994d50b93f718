import TriReg.CommandLine
import TriReg.Proofs.Representation
import TriReg.Proofs.Runs

namespace TriReg

open TriReg.Text

namespace Text

theorem lines_unifyNewlines (text : List Char) : lines (unifyNewlines text) = lines text := by
  fun_induction unifyNewlines text with
  | case1 => rfl
  | case2 rest ih => rw [lines_lf, lines_crlf, ih]
  | case3 c rest hcrlf ih =>
      split
      · rename_i hc
        subst hc
        rw [lines_lf, ih, lines]
        · rfl
        · exact hcrlf
      · rename_i hc
        rw [lines_cons_of_ne hc, lines_cons_of_ne hc, ih]

end Text

theorem Program.load_unifyNewlines (source : String) :
    load (String.ofList (unifyNewlines source.toList)) = load source := by
  rw [load, load, String.toList_ofList, lines_unifyNewlines]

namespace Numeral

variable {base : Base} {text : List Char} {value : String} {n : Int}

theorem nonpos_of_readInteger_minus (h : readInteger base ('-' :: text) = .ok n) : n ≤ 0 := by
  have hminus : isPadding '-' = false := by decide
  obtain ⟨more, htrim⟩ := exists_strip_eq_cons hminus text
  have hsign : splitSign (trimPadding ('-' :: text)) = (true, more) := by
    rw [trimPadding, htrim]
    rfl
  rw [readInteger] at h
  simp only [hsign, if_true] at h
  generalize (if base = .hexadecimal then dropHexMark more else more) = body at h
  split at h
  · cases h
  · split at h
    · cases h
    · split at h
      · cases h
      · obtain rfl := Except.ok.inj h
        omega

/-- A size that is positive is not written with a sign in front that looks like an option. -/
theorem head?_of_readArgument (h : readArgument value = .ok n) (hn : 0 < n) :
    value.toList.head? ≠ some '-' := by
  intro hhead
  obtain ⟨rest, hvalue⟩ := List.head?_eq_some_iff.mp hhead
  have hminus : isBlank '-' = false := by decide
  obtain ⟨more, htrim⟩ := exists_trim_eq_cons blanks_nil hminus rest
  rw [List.nil_append, ← hvalue] at htrim
  rw [readArgument, htrim] at h
  exact absurd (nonpos_of_readInteger_minus h) (by omega)

end Numeral

namespace CommandLine

variable {input value : String} {n : Int}

/-- The arguments for an input, a size of the stack and the switch for the check. -/
def plainArguments (input value : String) (noCheck : Bool) : List String :=
  input :: "--stack-size" :: value :: if noCheck then ["--no-check"] else []

def plainRequest (input : String) (n : Int) (noCheck : Bool) : Request where
  input
  options := { stackSize := some n, noCheck }

theorem ofText_plain {text : String} (h : text.toList.head? ≠ some '-') :
    Argument.ofText text = .ok (.plain text) := by
  rw [Argument.ofText, if_pos (by simp [h])]

theorem ofText_stackSize : Argument.ofText "--stack-size" = .ok (.long .stackSize none) := by
  rfl

theorem readArguments_cons {text : String} {argument : Argument} {rest : List String}
    (hne : text ≠ "--") (h : Argument.ofText text = .ok argument) :
    readArguments (text :: rest) = (readArguments rest).map (argument :: ·) := by
  rw [readArguments, if_neg hne, h, ok_bind, bind_pure_eq_map]

theorem ne_separator_of_head? {text : String} (h : text.toList.head? ≠ some '-') :
    text ≠ "--" := by
  rintro rfl
  exact h rfl

theorem readArguments_plain (hinput : input.toList.head? ≠ some '-')
    (hvalue : value.toList.head? ≠ some '-') (noCheck : Bool) :
    readArguments (plainArguments input value noCheck) =
      .ok (.plain input :: .long .stackSize none :: .plain value ::
        if noCheck then [.long .noCheck none] else []) := by
  have hflags : readArguments (if noCheck then ["--no-check"] else []) =
      .ok (if noCheck then [.long .noCheck none] else []) := by
    cases noCheck <;> rfl
  rw [plainArguments, readArguments_cons (ne_separator_of_head? hinput) (ofText_plain hinput),
    readArguments_cons (by decide) ofText_stackSize,
    readArguments_cons (ne_separator_of_head? hvalue) (ofText_plain hvalue), hflags]
  rfl

theorem collect_plain (hne : value ≠ "--") (hvalue : Numeral.readArgument value = .ok n)
    (noCheck : Bool) :
    collect {} (.plain input :: .long .stackSize none :: .plain value ::
      if noCheck then [.long .noCheck none] else []) =
        .ok { input := some input, options := (plainRequest input n noCheck).options } := by
  have htakes : Flag.stackSize.takesValue = true := rfl
  simp only [collect, Collected.addPlain, htakes, if_true, Collected.applyValue, if_neg hne, hvalue,
    ok_bind]
  cases noCheck <;> rfl

theorem ofArguments_plain (hinput : input.toList.head? ≠ some '-')
    (hvalue : Numeral.readArgument value = .ok n) (hn : 0 < n) (noCheck : Bool) :
    Request.ofArguments (plainArguments input value noCheck) =
      .ok (plainRequest input n noCheck) := by
  have hhead := Numeral.head?_of_readArgument hvalue hn
  rw [Request.ofArguments, readArguments_plain hinput hhead]
  simp only [collect_plain (ne_separator_of_head? hhead) hvalue, ok_bind]
  rfl

/-- The text is the lines in their order, each of them ended by a line feed. -/
inductive WritesLines : List String → List Char → Prop
  | nil : WritesLines [] []
  | cons {line : String} {rest : List String} {text : List Char} :
      WritesLines rest text → WritesLines (line :: rest) (line.toList ++ '\n' :: text)

theorem textOfLines_cons (line : String) (rest : List String) :
    textOfLines (line :: rest) = line ++ "\n" ++ textOfLines rest := by
  rw [textOfLines, List.map_cons, String.join_cons]
  rfl

theorem textOfLines_append (first second : List String) :
    textOfLines (first ++ second) = textOfLines first ++ textOfLines second := by
  rw [textOfLines, List.map_append, String.join_append]
  rfl

theorem toList_textOfLines_cons (line : String) (rest : List String) :
    (textOfLines (line :: rest)).toList = line.toList ++ '\n' :: (textOfLines rest).toList := by
  rw [textOfLines_cons, String.append_assoc, String.toList_append, String.toList_append]
  rfl

theorem writesLines_textOfLines (lines : List String) :
    WritesLines lines (textOfLines lines).toList := by
  induction lines with
  | nil => exact .nil
  | cons line rest ih =>
      rw [toList_textOfLines_cons]
      exact .cons ih

theorem WritesLines.eq_textOfLines {lines : List String} {text : List Char}
    (h : WritesLines lines text) : text = (textOfLines lines).toList := by
  induction h with
  | nil => rfl
  | cons _ ih => rw [toList_textOfLines_cons, ih]

/-- The call ends with an error that is told on one line, after the lines `shown` have been
printed. -/
def Complains (answer : Except Breakdown Outcome) (exit : Nat) (shown : List String)
    (label message : String) : Prop :=
  Unbroken (label ++ ": " ++ message).toList ∧
    ∃ stdout, answer = .ok { exit, stdout, stderr := label ++ ": " ++ message ++ "\n" } ∧
      WritesLines shown stdout.toList

theorem complains_of_failed {answer : Except Breakdown Outcome} {exit : Nat}
    {shown : List String} {label message : String}
    (hline : Unbroken (label ++ ": " ++ message).toList)
    (hanswer : answer = .ok (.failed exit (textOfLines shown) label message)) :
    Complains answer exit shown label message :=
  ⟨hline, textOfLines shown, hanswer, writesLines_textOfLines shown⟩

/-- The answer of a call tells how loading, checking and running the text ends: with an error of
the text, of the size or of the check before anything is shown, with a value, with an error of a
step, or not within `limit` steps. -/
structure Agrees (source : String) (n : Int) (checked : Bool) (limit : Nat)
    (answer : Except Breakdown Outcome) : Prop where
  malformed : ∀ e, Session.ofSource source n = .error (.source (.malformed e)) →
    Complains answer 1 [] "Parse error" e.message
  unreadable : ∀ e, Session.ofSource source n = .error (.source (.numeral e)) →
    Complains answer 1 [] "Error" e.message
  tooLarge : ∀ e, Session.ofSource source n = .error (.stackSize e) →
    Complains answer 2 [] "Internal error" e.message
  refused : ∀ start cause, Session.ofSource source n = .ok start → checked = true →
    start.program.check = .error cause →
      start.run checked limit = (start.fail cause, .error (.failure (.fault cause))) ∧
        Complains answer 1 [] (faultLabel cause) cause.message
  halted : ∀ start s code, Session.ofSource source n = .ok start →
    start.run checked limit = (s, .ok code) →
      ∃ v, ∃ exit : Nat, s.runState = .halted ∧ s.fault? = none ∧ s.result? = some v ∧
        code = some v.exitCode ∧ (exit : Int) = v.exitCode % 256 ∧
          ∃ stdout, answer = .ok { exit, stdout, stderr := "" } ∧
            WritesLines (s.output.toList ++
              [s.dump, "Process finished with: " ++ toString v.exitCode]) stdout.toList
  faulted : ∀ start s cause, Session.ofSource source n = .ok start →
    (checked = true → start.program.check = .ok ()) →
      start.run checked limit = (s, .error (.failure (.fault cause))) →
        Complains answer 1 (s.output.toList ++ [s.dump]) (faultLabel cause) cause.message
  unwritable : ∀ start s e, Session.ofSource source n = .ok start →
    start.run checked limit = (s, .error (.failure (.numeral e))) →
      Complains answer 1 s.output.toList "Error" e.message
  endless : ∀ start s, Session.ofSource source n = .ok start →
    start.run checked limit = (s, .error .outOfSteps) → answer = .error .outOfSteps

section Opening

variable {source : String} {p : Program} {size : Nat} {noCheck : Bool} {cause : Fault}

theorem startSession_plain (hsize : checkStackSize n = .ok size) :
    (plainRequest input n noCheck).options.startSession p = .ok (.fresh p size) := by
  simp only [plainRequest, Options.startSession, Session.start, hsize, Except.map]

theorem openSource_of_malformed {e : ParseError} (options : Options)
    (hload : Program.load source = .error (.malformed e)) :
    openSource options source = .done (.failed 1 "" "Parse error" e.message) := by
  simp only [openSource, hload]

theorem openSource_of_unreadable {e : Numeral.LimitError} (options : Options)
    (hload : Program.load source = .error (.numeral e)) :
    openSource options source = .done (.failed 1 "" "Error" e.message) := by
  simp only [openSource, hload]

theorem openSource_of_ready (hload : Program.load source = .ok p)
    (hsize : checkStackSize n = .ok size) (hcheck : noCheck = false → p.check = .ok ()) :
    openSource (plainRequest input n noCheck).options source = .ready "" (.fresh p size) := by
  simp only [openSource, hload, startSession_plain hsize]
  cases noCheck with
  | true => rfl
  | false =>
      simp only [plainRequest, hcheck rfl]
      rfl

theorem openSource_of_refused (hload : Program.load source = .ok p)
    (hsize : checkStackSize n = .ok size) (hcheck : p.check = .error cause) :
    openSource (plainRequest input n false).options source =
      .done (.failed 1 "" (faultLabel cause) cause.message) := by
  simp only [openSource, hload, startSession_plain hsize]
  simp only [plainRequest, hcheck]
  rfl

theorem openSource_of_tooLarge (hload : Program.load source = .ok p)
    (hsize : checkStackSize n = .error .tooLarge) :
    openSource (plainRequest input n noCheck).options source =
      .done (.failed 2 "" "Internal error" StackSizeError.tooLarge.message) := by
  have hstart : (plainRequest input n noCheck).options.startSession p = .error .tooLarge := by
    simp only [plainRequest, Options.startSession, Session.start, hsize, Except.map]
  simp only [openSource, hload, hstart]
  rfl

end Opening

section Agreement

variable {source : String} {noCheck : Bool} {limit : Nat} {files : FileSystem}
  {arguments : List String} {path : Path}

theorem sourceText_toUTF8 (source : String) :
    sourceText source.toUTF8 = .ok (String.ofList (unifyNewlines source.toList)) := by
  rw [sourceText, Utf8.decode_toUTF8]
  rfl

theorem runSource_unifyNewlines (limit : Nat) (options : Options) (source : String) :
    runSource limit options (String.ofList (unifyNewlines source.toList)) =
      runSource limit options source := by
  simp only [runSource, openSource, Program.load_unifyNewlines]

theorem run_of_request
    (harguments : Request.ofArguments arguments = .ok (plainRequest input n noCheck))
    (hpath : readPath input = .ok path) (hread : files.read path = .ok source.toUTF8) :
    run limit files arguments =
      (runSource limit (plainRequest input n noCheck).options source).elim
        (.error .outOfSteps) .ok := by
  have hlog : (plainRequest input n noCheck).options.prepareLog files = .ok files := rfl
  have hinput : (plainRequest input n noCheck).input = input := rfl
  cases houtcome : runSource limit (plainRequest input n noCheck).options source <;>
    simp only [run, harguments, Request.run, hlog, hinput, hpath, hread, readInput,
      sourceText_toUTF8, runSource_unifyNewlines, ok_bind, houtcome, Option.elim]

theorem runSource_of_run (input : String) {start s : Session} {result : Except Stop (Option Int)}
    (hsource : Session.ofSource source n = .ok start)
    (hcheck : (!noCheck) = true → start.program.check = .ok ())
    (hrun : start.run (!noCheck) limit = (s, result)) :
    ∃ ended, start.runSteps limit = (s, ended) ∧ result = ended.map (fun () => s.exitCode?) ∧
      runSource limit (plainRequest input n noCheck).options source =
        match ended with
        | .ok () => some (closeSession (plainRequest input n noCheck).options
            (textOfLines s.output.toList) s (.ok ()))
        | .error (.failure failure) => some (closeSession (plainRequest input n noCheck).options
            (textOfLines s.output.toList) s (.error failure))
        | .error .outOfSteps => none := by
  obtain ⟨p, size, hload, hsize, rfl⟩ := Session.exists_fresh_of_ofSource hsource
  obtain ⟨ended, hsteps, hresult⟩ := Session.runSteps_of_run hcheck hrun
  have hchecked (h : noCheck = false) : p.check = .ok () := hcheck (by rw [h]; rfl)
  have hprints : (Session.fresh p size).PrintsAll := rfl
  have hprinted : s.output = s.printed := by
    have h := hprints.runSteps limit
    rwa [hsteps] at h
  refine ⟨ended, hsteps, hresult, ?_⟩
  obtain (failure | _) | ⟨⟩ := ended <;>
    simp only [runSource, openSource_of_ready hload hsize hchecked, hsteps, String.empty_append,
      hprinted]

theorem unbroken_errorLine {label message : String} (hlabel : Unbroken label.toList)
    (hmessage : Unbroken message.toList) : Unbroken (label ++ ": " ++ message).toList :=
  unbroken_toList_append (unbroken_toList_append hlabel (unbroken_ofList rfl)) hmessage

theorem unbroken_faultLabel (cause : Fault) : Unbroken (faultLabel cause).toList := by
  cases cause <;> exact unbroken_ofList rfl

theorem report_plain (s : Session) :
    report (plainRequest input n noCheck).options s = textOfLines [s.dump] := by
  have htrace : (plainRequest input n noCheck).options.trace = false := rfl
  simp only [report, htrace, Bool.false_eq_true, if_false, String.empty_append, textOfLines_cons]
  exact String.append_empty.symm

section Complaints

variable {exit : Nat} {shown : List String} {label message : String}

theorem complains_of_done {options : Options} (hline : Unbroken (label ++ ": " ++ message).toList)
    (hopen : openSource options source = .done (.failed exit (textOfLines shown) label message)) :
    Complains ((runSource limit options source).elim (.error .outOfSteps) .ok) exit shown label
      message := by
  refine complains_of_failed hline ?_
  simp only [runSource, hopen, Option.elim_some]

theorem complains_of_stopped {start s : Session} {failure : Failure}
    (hline : Unbroken (label ++ ": " ++ message).toList)
    (hsource : Session.ofSource source n = .ok start)
    (hcheck : (!noCheck) = true → start.program.check = .ok ())
    (hrun : start.run (!noCheck) limit = (s, .error (.failure failure)))
    (hclose : closeSession (plainRequest input n noCheck).options (textOfLines s.output.toList) s
      (.error failure) = .failed exit (textOfLines shown) label message) :
    Complains ((runSource limit (plainRequest input n noCheck).options source).elim
      (.error .outOfSteps) .ok) exit shown label message := by
  obtain ⟨ended, -, hended, houtcome⟩ := runSource_of_run input hsource hcheck hrun
  obtain rfl := map_eq_error_iff.mp hended.symm
  refine complains_of_failed hline ?_
  simp only [houtcome, hclose, Option.elim_some]

end Complaints

theorem isOneLine_of_run {start s : Session} {checked : Bool} {cause : Fault}
    (hsource : Session.ofSource source n = .ok start)
    (hcheck : checked = true → start.program.check = .ok ())
    (hrun : start.run checked limit = (s, .error (.failure (.fault cause)))) : cause.IsOneLine := by
  obtain ⟨ended, hsteps, hended⟩ := Session.runSteps_of_run hcheck hrun
  obtain rfl := map_eq_error_iff.mp hended.symm
  obtain ⟨p, size, hload, -, rfl⟩ := Session.exists_fresh_of_ofSource hsource
  obtain ⟨u, hreach, hstep⟩ := Session.Reachable.fresh.exists_step_of_runSteps hsteps
  exact hreach.isOneLine_of_step_fault hload (congrArg Prod.snd hstep)

theorem agrees_of_request (hn : 0 < n)
    (harguments : Request.ofArguments arguments = .ok (plainRequest input n noCheck))
    (hpath : readPath input = .ok path) (hread : files.read path = .ok source.toUTF8) :
    Agrees source n (!noCheck) limit (run limit files arguments) := by
  rw [run_of_request harguments hpath hread]
  constructor
  case malformed =>
    intro e hsource
    have hload := Session.load_of_ofSource hsource
    have hmessage := Program.unbroken_message_of_load hload
    exact complains_of_done (unbroken_errorLine (unbroken_ofList rfl) hmessage)
      (openSource_of_malformed _ hload)
  case unreadable =>
    intro e hsource
    have hload := Session.load_of_ofSource hsource
    exact complains_of_done (unbroken_errorLine (unbroken_ofList rfl) e.unbroken_message)
      (openSource_of_unreadable _ hload)
  case tooLarge =>
    intro e hsource
    obtain ⟨p, hload, hsize⟩ := Session.checkStackSize_of_ofSource hsource
    obtain rfl := eq_tooLarge_of_checkStackSize hn hsize
    exact complains_of_done (unbroken_errorLine (unbroken_ofList rfl) (unbroken_ofList rfl))
      (openSource_of_tooLarge hload hsize)
  case refused =>
    intro start cause hsource hchecked hcheck
    obtain ⟨p, size, hload, hsize, rfl⟩ := Session.exists_fresh_of_ofSource hsource
    obtain rfl : noCheck = false := by simpa using hchecked
    have hcause := Program.isOneLine_of_check hload hcheck
    have hline := unbroken_errorLine (unbroken_faultLabel cause) (Fault.unbroken_message hcause)
    exact ⟨Session.run_of_check_error hcheck,
      complains_of_done hline (openSource_of_refused hload hsize hcheck)⟩
  case halted =>
    intro start s code hsource hrun
    have hcheck := Session.check_of_run hrun fun cause hfails => by cases hfails
    obtain ⟨ended, hsteps, hended, houtcome⟩ := runSource_of_run input hsource hcheck hrun
    obtain ⟨⟨⟩, rfl, rfl⟩ := map_eq_ok_iff.mp hended.symm
    obtain ⟨p, size, -, -, rfl⟩ := Session.exists_fresh_of_ofSource hsource
    obtain ⟨hhalted, hfault, v, hv⟩ :=
      Session.halted_of_runSteps Session.Reachable.fresh.inStep rfl hsteps
    have hcode : s.exitCode? = some v.exitCode := by
      rw [Session.exitCode?, hv]
      rfl
    refine ⟨v, (v.exitCode % 256).toNat, hhalted, hfault, hv, hcode, by omega,
      textOfLines (s.output.toList ++ [s.dump, "Process finished with: " ++ toString v.exitCode]),
      ?_, writesLines_textOfLines _⟩
    simp only [houtcome, closeSession, hcode, report_plain, Option.elim_some, Option.getD_some,
      textOfLines_append, textOfLines_cons, String.append_assoc]
    rfl
  case faulted =>
    intro start s cause hsource hcheck hrun
    have hcause := isOneLine_of_run hsource hcheck hrun
    have hline := unbroken_errorLine (unbroken_faultLabel cause) (Fault.unbroken_message hcause)
    refine complains_of_stopped hline hsource hcheck hrun ?_
    rw [closeSession, report_plain, textOfLines_append]
  case unwritable =>
    intro start s e hsource hrun
    have hcheck := Session.check_of_run hrun fun cause hfails => by cases hfails
    exact complains_of_stopped (unbroken_errorLine (unbroken_ofList rfl) e.unbroken_message) hsource
      hcheck hrun rfl
  case endless =>
    intro start s hsource hrun
    have hcheck := Session.check_of_run hrun fun cause hfails => by cases hfails
    obtain ⟨ended, -, hended, houtcome⟩ := runSource_of_run input hsource hcheck hrun
    obtain rfl := map_eq_error_iff.mp hended.symm
    simp only [houtcome, Option.elim_none]

/-- The arguments for an input, a positive size and the switch are read as such, the line ends that
reading the file translates are lost on the loader, and the call agrees with the session. -/
theorem agrees_with_session (hn : 0 < n) (hpath : readPath input = .ok path)
    (hread : files.read path = .ok source.toUTF8) :
    (input.toList.head? ≠ some '-' → ∀ value, Numeral.readArgument value = .ok n →
        Request.ofArguments (plainArguments input value noCheck) =
          .ok (plainRequest input n noCheck)) ∧
      (∃ text, sourceText source.toUTF8 = .ok text ∧ Program.load text = Program.load source) ∧
      ∀ limit arguments, Request.ofArguments arguments = .ok (plainRequest input n noCheck) →
        Agrees source n (!noCheck) limit (run limit files arguments) := by
  refine ⟨?_, ?_, ?_⟩
  · intro hinput value hvalue
    exact ofArguments_plain hinput hvalue hn noCheck
  · exact ⟨_, sourceText_toUTF8 source, Program.load_unifyNewlines source⟩
  · intro limit arguments harguments
    exact agrees_of_request hn harguments hpath hread

/-- Prints a line and ends with a negative code. -/
def negativeExit : String := "mov rax \"a\"\r\nsyscall printf\r\nret -1\r\n"

def negativeExitFiles : FileSystem where
  nodes := [(["a.txt"], .file negativeExit.toUTF8)]
  current := []

def negativeExitDump : String :=
  "pc: 2\nrax: String 'a'\nrbx: Uninitialized\nrcx: Uninitialized\n" ++
    "stack:\n  0..3: Uninitialized"

theorem negativeExit_agrees : ∃ path outcome, (0 : Int) < 4 ∧ readPath "a.txt" = .ok path ∧
    negativeExitFiles.read path = .ok negativeExit.toUTF8 ∧
      Request.ofArguments ["a.txt", "--stack-size", "4"] = .ok (plainRequest "a.txt" 4 false) ∧
        run 3 negativeExitFiles ["a.txt", "--stack-size", "4"] = .ok outcome ∧
          Agrees negativeExit 4 true 3 (.ok outcome) ∧
            outcome = {
              exit := 255
              stdout := "a\n" ++ negativeExitDump ++ "\nProcess finished with: -1\n"
              stderr := "" } := by
  have hpath : readPath "a.txt" = .ok (.ofText "a.txt") := by decide
  have hread : negativeExitFiles.read (.ofText "a.txt") = .ok negativeExit.toUTF8 := by
    have hplace : negativeExitFiles.place (.ofText "a.txt") = .ok ["a.txt"] := by decide +kernel
    rw [FileSystem.read, hplace]
    rfl
  have hvalue : Numeral.readArgument "4" = .ok 4 := by decide +kernel
  have hpositive : (0 : Int) < 4 := by decide
  obtain ⟨harguments, -, hagrees⟩ := agrees_with_session hpositive hpath hread
  have hrequest : Request.ofArguments (plainArguments "a.txt" "4" false) =
      .ok (plainRequest "a.txt" 4 false) := harguments (by decide) "4" hvalue
  have hagree := hagrees 3 _ hrequest
  have hends : (Session.ofSource negativeExit 4).map (fun s =>
      ((s.run true 3).2, (s.run true 3).1.output.toList, (s.run true 3).1.dump)) =
        .ok (.ok (some (-1)), ["a"], negativeExitDump) := by decide +kernel
  obtain ⟨start, hstart, hend⟩ := map_eq_ok_iff.mp hends
  simp only [Prod.mk.injEq] at hend
  obtain ⟨hresult, houtput, hdump⟩ := hend
  obtain ⟨v, exit, -, -, -, hcode, hexit, stdout, hanswer, hlines⟩ :=
    hagree.halted start _ (some (-1)) hstart (Prod.ext rfl hresult)
  have hv : v.exitCode = -1 := (Option.some.inj hcode).symm
  rw [hanswer] at hagree
  refine ⟨_, _, hpositive, hpath, hread, hrequest, hanswer, hagree, ?_⟩
  have hexit : exit = 255 := by
    rw [hv] at hexit
    exact Int.natCast_inj.mp hexit
  have hstdout : stdout = "a\n" ++ negativeExitDump ++ "\nProcess finished with: -1\n" := by
    apply String.toList_injective
    rw [hlines.eq_textOfLines, Bool.not_false, hv, houtput, hdump]
    decide +kernel
  rw [hexit, hstdout]

end Agreement

end CommandLine

end TriReg
