import TriReg.Proofs.Runs
import TriReg.Proofs.Termination

namespace TriReg

/-- The pair of braces that an argument replaces. -/
def marker : List Char := ['{', '}']

/-- The text of a format with an argument: the argument takes the place of the first marker, and all
else stays as it is. -/
inductive Formats (format argument : List Char) : List Char → Prop
  | plain (h : ∀ before behind, format ≠ before ++ (marker ++ behind)) :
      Formats format argument format
  | marked (before behind : List Char) (h : format = before ++ (marker ++ behind))
      (hfirst : ∀ before' behind', format = before' ++ (marker ++ behind') →
        before.length ≤ before'.length) :
      Formats format argument (before ++ (argument ++ behind))

section Formats

variable {format argument line line' : List Char}

/-- A character in front that begins no marker makes no difference. -/
theorem Formats.cons {c : Char} (hc : ∀ behind, c :: format ≠ marker ++ behind)
    (h : Formats format argument line) : Formats (c :: format) argument (c :: line) := by
  have hcut {before behind : List Char} (hcons : c :: format = before ++ (marker ++ behind)) :
      ∃ before', before = c :: before' ∧ format = before' ++ (marker ++ behind) := by
    rcases List.cons_eq_append_iff.mp hcons with ⟨-, hmarker⟩ | hrest
    · exact absurd hmarker.symm (hc behind)
    · exact hrest
  cases h with
  | plain h =>
      refine .plain ?_
      intro before behind hcons
      obtain ⟨before', -, hformat⟩ := hcut hcons
      exact h before' behind hformat
  | marked before behind h hfirst =>
      refine .marked (c :: before) behind (congrArg (c :: ·) h) ?_
      intro before' behind' hcons
      obtain ⟨before'', rfl, hformat⟩ := hcut hcons
      exact Nat.succ_le_succ (hfirst before'' behind' hformat)

theorem formats_substitute (format argument : List Char) :
    Formats format argument (substitute argument format) := by
  fun_induction substitute argument format with
  | case1 => exact .plain (by simp [marker])
  | case2 rest => exact .marked [] rest rfl fun _ _ _ => Nat.zero_le _
  | case3 c rest hmarker ih =>
      refine ih.cons ?_
      rintro behind ⟨⟩
      exact hmarker behind rfl rfl

theorem Formats.unique (h : Formats format argument line) (h' : Formats format argument line') :
    line = line' := by
  cases h with
  | plain h =>
      cases h' with
      | plain => rfl
      | marked before' behind' h' => exact absurd h' (h before' behind')
  | marked before behind h hfirst =>
      cases h' with
      | plain h' => exact absurd h (h' before behind)
      | marked before' behind' h' hfirst' =>
          obtain ⟨rfl, hrest⟩ := List.append_inj (h.symm.trans h')
            (Nat.le_antisymm (hfirst _ _ h') (hfirst' _ _ h))
          rw [List.append_cancel_left hrest]

theorem formats_iff : Formats format argument line ↔ line = substitute argument format := by
  constructor
  · intro h
    exact h.unique (formats_substitute format argument)
  · rintro rfl
    exact formats_substitute format argument

end Formats

namespace Machine

variable {m : Machine} {p : Program} {pc : Int} {i : Instruction} {line : String}

theorem perform_printf (h : m.printedLine = .ok line) :
    m.perform p pc (.syscall "printf") = ⟨m, some line, .ok .advance⟩ :=
  perform_eq_of_performed (.plain rfl (execute_of_executed (.printf h)))

theorem printedLine_eq_ok_iff : m.printedLine = .ok line ↔
    ∃ format, m.registers.rax = .text format ∧
      Formats format.toList m.registers.rbx.rawText.toList line.toList := by
  simp only [formats_iff]
  unfold printedLine
  split
  · rename_i format hrax
    rw [hrax]
    constructor
    · rintro ⟨⟩
      exact ⟨format, rfl, String.toList_ofList⟩
    · rintro ⟨_, ⟨⟩, hline⟩
      rw [← hline, String.ofList_toList]
  · rename_i v hrax
    constructor
    · rintro ⟨⟩
    · rintro ⟨format, hformat, -⟩
      exact absurd hformat (hrax format)

theorem printedLine_of_text {format : String} (h : m.registers.rax = .text format) :
    ∃ line, m.printedLine = .ok line ∧
      ∀ chars, Formats format.toList m.registers.rbx.rawText.toList chars ↔
        chars = line.toList := by
  refine ⟨String.ofList (substitute m.registers.rbx.rawText.toList format.toList), ?_, ?_⟩
  · rw [printedLine, h]
  · intro chars
    rw [formats_iff, String.toList_ofList]

theorem printed_perform_eq_some_iff : (m.perform p pc i).printed = some line ↔
    i = .syscall "printf" ∧ m.printedLine = .ok line := by
  constructor
  · intro h
    have hperformed := m.performed_perform p pc i
    generalize m.perform p pc i = outcome at h hperformed
    cases hperformed with
    | plain hplain hexecute =>
        cases executed_of_execute hexecute with
        | printf hline =>
            cases h
            exact ⟨rfl, hline⟩
        | move | compute | loadAddress | call | jump | label | ret | leave => cases h
    | refused | enter | lost | unreadable | exit | exitLeave | resume | undelivered
    | mismatched | unnamed => cases h
  · rintro ⟨rfl, hline⟩
    rw [perform_printf hline]

end Machine

namespace Session

/-- The line that the next step prints, if it executes a `syscall printf` with a format. -/
def printing? (s : Session) : Option String :=
  if s.runState = .running ∧ s.program.fetch s.pc = some (.syscall "printf") then
    s.machine.printedLine.toOption
  else none

/-- The sessions in which a run makes a step, in their order. -/
def runPoints : (limit : Nat) → Session → List Session
  | 0, _ => []
  | limit + 1, s =>
    if s.runState.isFinished then []
    else match s.step with
      | (after, .ok _) => s :: runPoints limit after
      | (_, .error _) => [s]

/-- The sessions in which a command makes a step. A run that fails its check makes none. -/
def stepPoints (s : Session) : Command → List Session
  | .step => [s]
  | .run checked limit => (if checked then s.check.1 else s).runPoints limit
  | .check | .setTracing _ | .clearTrace | .reset => []

/-- The sessions in which commands make a step, in their order. -/
def points (s : Session) : List Command → List Session
  | [] => []
  | c :: commands => s.stepPoints c ++ (s.obey c).points commands

variable {s : Session} {i : Instruction} {line : String}

theorem printing?_of_fetch (hrunning : s.runState = .running)
    (hfetch : s.program.fetch s.pc = some i) :
    s.printing? = (s.machine.perform s.program s.pc i).printed := by
  ext line
  rw [Machine.printed_perform_eq_some_iff]
  simp only [printing?, hrunning, hfetch, true_and, Option.some.injEq]
  split <;> simp_all [toOption_eq_some_iff]

theorem printing?_eq_some_iff : s.printing? = some line ↔
    s.runState = .running ∧ s.program.fetch s.pc = some (.syscall "printf") ∧
      s.machine.printedLine = .ok line := by
  simp [printing?, toOption_eq_some_iff, and_assoc]

theorem isSome_printing?_iff : s.printing?.isSome = true ↔
    s.runState = .running ∧ s.program.fetch s.pc = some (.syscall "printf") ∧
      s.step.2 = .ok .advance := by
  rw [Option.isSome_iff_exists]
  simp only [printing?_eq_some_iff, exists_and_left]
  refine and_congr_right fun hrunning => and_congr_right fun hfetch => ?_
  have htrace : s.untraceable (.syscall "printf") = false := Bool.and_false _
  rw [step_of_fetch hrunning hfetch htrace, result_of_advance]
  cases hline : s.machine.printedLine with
  | ok line => simp [Machine.perform_printf hline]
  | error cause =>
      have hperform : s.machine.perform s.program s.pc (.syscall "printf") =
          ⟨s.machine, none, .error (.fault cause)⟩ :=
        Machine.perform_eq_of_performed
          (.refused rfl (Machine.execute_of_refused (.printf hline)))
      simp [hperform]

theorem output_print (s : Session) (line? : Option String) :
    (s.print line?).output.toList = s.output.toList ++ line?.toList := by
  cases line? <;> simp [print]

theorem output_follow (s : Session) (t : Transition) : (s.follow t).output = s.output := by
  cases t <;> rfl

theorem output_performed (s : Session) (i : Instruction) :
    (s.performed i).output.toList =
      s.output.toList ++ (s.machine.perform s.program s.pc i).printed.toList := by
  simp [performed, output_print]

theorem output_advance (s : Session) (i : Instruction) :
    (s.advance i).1.output = (s.performed i).output := by
  cases hresult : (s.machine.perform s.program s.pc i).result with
  | ok t => rw [advance_of_ok hresult, output_follow]
  | error failure =>
      cases failure with
      | fault cause => simp [advance_of_fault hresult, fail]
      | numeral limit => rw [advance_of_numeral hresult]

theorem output_step (s : Session) :
    s.step.1.output.toList = s.output.toList ++ s.printing?.toList := by
  rcases s.cases_of_step with ⟨hfinished, hstep⟩ | ⟨hrunning, hfetch, hstep⟩ |
    ⟨i, hrunning, hfetch, ⟨htrace, hstep⟩ | ⟨-, hstep⟩⟩
  · simp [hstep, printing?, hfinished]
  · simp [hstep, halt, printing?, hfetch]
  · -- What cannot be traced is no system call.
    have hother : i ≠ .syscall "printf" := by
      rintro rfl
      simp [untraceable, Instruction.displayable] at htrace
    simp [hstep, printing?, hfetch, hother]
  · rw [hstep, output_advance, output_performed, printing?_of_fetch hrunning hfetch]

theorem output_check (s : Session) : s.check.1.output = s.output := by
  unfold check
  split <;> rfl

theorem filterMap_printing?_singleton (s : Session) :
    [s].filterMap printing? = s.printing?.toList := by
  cases hline : s.printing? <;> simp [hline]

theorem output_iterate_next (s : Session) (n : Nat) : (next^[n] s).output.toList =
    s.output.toList ++ ((List.range n).map (next^[·] s)).filterMap printing? := by
  induction n with
  | zero => simp
  | succ n ih =>
      rw [Function.iterate_succ_apply', next, output_step, ih, List.range_succ, List.map_append,
        List.filterMap_append, List.map_singleton, filterMap_printing?_singleton,
        List.append_assoc]

theorem runPoints_eq_iterate (s : Session) (limit : Nat) : ∃ n ≤ limit,
    s.runPoints limit = (List.range n).map (next^[·] s) ∧
      (s.runSteps limit).1 = next^[n] s := by
  induction limit generalizing s with
  | zero =>
      refine ⟨0, le_rfl, rfl, ?_⟩
      unfold runSteps
      split <;> rfl
  | succ limit ih =>
      unfold runPoints runSteps
      split
      · exact ⟨0, Nat.zero_le _, rfl, rfl⟩
      · cases hstep : s.step with
        | mk after result =>
            have hnext : s.next = after := congrArg Prod.fst hstep
            cases result with
            | ok t =>
                obtain ⟨n, hn, hpoints, hafter⟩ := ih after
                refine ⟨n + 1, Nat.succ_le_succ hn, ?_, ?_⟩
                · change s :: after.runPoints limit = _
                  rw [hpoints, List.range_succ_eq_map, List.map_cons, List.map_map, ← hnext]
                  rfl
                · change (after.runSteps limit).1 = _
                  rw [hafter, Function.iterate_succ_apply, hnext]
            | error failure => exact ⟨1, Nat.succ_le_succ (Nat.zero_le _), rfl, hnext.symm⟩

theorem output_runSteps (limit : Nat) : (s.runSteps limit).1.output.toList =
    s.output.toList ++ (s.runPoints limit).filterMap printing? := by
  obtain ⟨n, -, hpoints, hafter⟩ := s.runPoints_eq_iterate limit
  rw [hafter, hpoints, output_iterate_next]

theorem output_obey {c : Command} (hc : c ≠ .reset) :
    (s.obey c).output.toList = s.output.toList ++ (s.stepPoints c).filterMap printing? := by
  cases c with
  | step =>
      rw [obey, stepPoints, output_step, filterMap_printing?_singleton]
  | run checked limit =>
      rw [obey, fst_run, output_runSteps, stepPoints]
      cases checked with
      | false => rfl
      | true => simp only [if_true, output_check]
  | check => simp [obey, output_check, stepPoints]
  | setTracing on => simp [obey, setTracing, stepPoints]
  | clearTrace => simp [obey, clearTrace, stepPoints]
  | reset => exact absurd rfl hc

theorem output_obeyAll {commands : List Command} (hreset : .reset ∉ commands) :
    (s.obeyAll commands).output.toList =
      s.output.toList ++ (s.points commands).filterMap printing? := by
  induction commands generalizing s with
  | nil => simp [obeyAll, points]
  | cons c commands ih =>
      obtain ⟨hc, hcommands⟩ := List.ne_and_not_mem_of_not_mem_cons hreset
      change ((s.obey c).obeyAll commands).output.toList = _
      rw [ih hcommands, output_obey (Ne.symm hc), points, List.filterMap_append, List.append_assoc]

/-- What is printed. A `syscall printf` that finds its format in `rax` prints the format with the
argument in place of the first marker, and nothing else. A step adds one line to the output if it
executes such a `syscall printf`, and none otherwise. Until the first reset the output holds all
that was printed, and commands add the lines of their steps behind it. -/
theorem printf_logged :
    (∀ (m : Machine) (pc : Int) (format : String), m.registers.rax = .text format →
      ∃ line, m.execute pc (.syscall "printf") = .ok { machine := m, printed := some line } ∧
        ∀ chars, Formats format.toList m.registers.rbx.rawText.toList chars ↔
          chars = line.toList) ∧
      (∀ s : Session, s.step.1.output.toList = s.output.toList ++ s.printing?.toList ∧
        (s.printing?.isSome = true ↔
          s.runState = .running ∧ s.program.fetch s.pc = some (.syscall "printf") ∧
            s.step.2 = .ok .advance) ∧
        ∀ line, s.printing? = some line → ∃ format, s.machine.registers.rax = .text format ∧
          Formats format.toList s.machine.registers.rbx.rawText.toList line.toList) ∧
      ∀ (p : Program) (size : Nat) (before later : List Command), .reset ∉ before ++ later →
        ∀ s, (fresh p size).obeyAll before = s →
          s.output = s.printed ∧
            s.output.toList = ((fresh p size).points before).filterMap printing? ∧
            (s.obeyAll later).output.toList =
              s.output.toList ++ (s.points later).filterMap printing? := by
  refine ⟨?_, ?_, ?_⟩
  · intro m pc format hrax
    obtain ⟨line, hline, hformats⟩ := Machine.printedLine_of_text hrax
    exact ⟨line, Machine.execute_of_executed (.printf hline), hformats⟩
  · intro s
    refine ⟨s.output_step, isSome_printing?_iff, ?_⟩
    intro line hline
    exact Machine.printedLine_eq_ok_iff.mp (printing?_eq_some_iff.mp hline).2.2
  · rintro p size before later hreset s rfl
    obtain ⟨hbefore, hlater⟩ := not_or.mp (mt List.mem_append.mpr hreset)
    have hfresh : (fresh p size).PrintsAll := rfl
    refine ⟨hfresh.obeyAll hbefore, ?_, output_obeyAll hlater⟩
    rw [output_obeyAll hbefore]
    rfl

/-- Prints the format `a{{}b{}` with the argument `<{}>`, and then finds no format. -/
def printMarkers : Program where
  code := [.move (.register .rax) (.literal (.text "a\x7b\x7b\x7db\x7b\x7d")),
    .move (.register .rbx) (.literal (.text "<\x7b\x7d>")), .syscall "printf",
    .move (.register .rax) (.literal .uninitialized), .syscall "printf"]
  lineNumbers := [1, 2, 3, 4, 5]

theorem printMarkers_logged : ∃ s, (fresh printMarkers 1).obeyAll [.step, .step, .step] = s ∧
    s.output.toList = ["a\x7b<\x7b\x7d>b\x7b\x7d"] ∧ s.output = s.printed ∧
      (s.obeyAll [.run true 2]).output.toList = s.output.toList ∧
        (s.obeyAll [.run true 2]).runState = .faulted ∧
        (s.obeyAll [.run true 2]).status = .faulted (.notText .uninitialized) none := by
  obtain ⟨s, hs⟩ : ∃ s, (fresh printMarkers 1).obeyAll [.step, .step, .step] = s := ⟨_, rfl⟩
  obtain ⟨hprinted, houtput, hlater⟩ :=
    printf_logged.2.2 printMarkers 1 [.step, .step, .step] [.run true 2] (by decide) s hs
  have hlines : ((fresh printMarkers 1).points [.step, .step, .step]).filterMap printing? =
      ["a\x7b<\x7b\x7d>b\x7b\x7d"] := by decide +kernel
  have hnone : (s.points [.run true 2]).filterMap printing? = [] := hs ▸ by decide +kernel
  have hstate : (s.obeyAll [.run true 2]).runState = .faulted := hs ▸ by decide +kernel
  have hstatus : (s.obeyAll [.run true 2]).status = .faulted (.notText .uninitialized) none :=
    hs ▸ by decide +kernel
  refine ⟨s, hs, houtput.trans hlines, hprinted, ?_, hstate, hstatus⟩
  rw [hlater, hnone, List.append_nil]

end Session

end TriReg
