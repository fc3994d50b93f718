import TriReg.Proofs.Appending
import TriReg.Proofs.Reset
import TriReg.Proofs.StoredFault

namespace TriReg

open TriReg.Text

theorem Registers.unbroken_display {rs : Registers} (h : ∀ r, (rs.get r).IsOneLine) :
    Unbroken rs.display.toList := by
  refine unbroken_toList_append (unbroken_toList_append (unbroken_toList_append
    (unbroken_toList_append (unbroken_toList_append ?_ ?_) ?_) ?_) ?_) ?_
  · exact unbroken_ofList rfl
  · exact Value.unbroken_display (h .rax)
  · exact unbroken_ofList rfl
  · exact Value.unbroken_display (h .rbx)
  · exact unbroken_ofList rfl
  · exact Value.unbroken_display (h .rcx)

/-- Every instruction of the program can be shown in a trace. -/
def Program.Displayable (p : Program) : Prop := ∀ i ∈ p.code, i.displayable = true

theorem Program.displayable_of_load {source : String} {p : Program} (h : load source = .ok p) :
    p.Displayable := fun _ hi => (writable_of_load h hi).displayable

namespace Session

/-- The command is about the trace alone. -/
def Command.isTracing : Command → Bool
  | .setTracing _ | .clearTrace => true
  | _ => false

/-- What the commands that are not about the trace come back with, each with the session that it
leaves, but for the trace. -/
def untracedTranscript (s : Session) : List Command → List (Reply × Session)
  | [] => []
  | c :: commands =>
    if c.isTracing then (s.obey c).untracedTranscript commands
    else (s.reply c, (s.obey c).untraced) :: (s.obey c).untracedTranscript commands

section Untraced

theorem unseen_untraced {code : List Instruction} (h : ∀ i ∈ code, i.displayable = true) :
    Unseen code untraced where
  code_eq _ := rfl
  machine _ := rfl
  pc _ := rfl
  runState _ := rfl
  result? _ := rfl
  untraceable s i hi := by simp [Session.untraceable, h i hi]
  withMachine _ _ := rfl
  halt _ _ := rfl
  fail _ _ := rfl
  -- What is recorded goes into the trace alone, and without tracing nothing is.
  record s line := by
    unfold Session.record
    cases htracing : s.tracing <;> simp [untraced]
  print _ line? := by cases line? <;> rfl
  follow _ t := by cases t <;> rfl

variable (s : Session)

theorem obey_untraced (hshown : s.program.Displayable) {c : Command} (hc : c.isTracing = false) :
    s.untraced.obey c = (s.obey c).untraced := by
  have hunseen := unseen_untraced hshown
  cases c with
  | step => exact congrArg Prod.fst (hunseen.step s rfl)
  | run checked limit => exact congrArg Prod.fst (hunseen.run s rfl checked limit)
  | check => exact congrArg Prod.fst (hunseen.check s)
  | reset => rfl
  | setTracing | clearTrace => cases hc

theorem untraced_obey {c : Command} (hc : c.isTracing = true) :
    (s.obey c).untraced = s.untraced := by
  cases c with
  | setTracing | clearTrace => rfl
  | step | run | check | reset => cases hc

theorem untracedTranscript_eq (hshown : s.program.Displayable) (commands : List Command) :
    s.untracedTranscript commands =
      s.untraced.untracedTranscript (commands.filter (!·.isTracing)) := by
  induction commands generalizing s with
  | nil => rfl
  | cons c commands ih =>
      rw [untracedTranscript, ih (s.obey c) (program_obey s c ▸ hshown), List.filter_cons]
      cases hc : c.isTracing with
      | true => rw [if_pos rfl, if_neg (by simp), untraced_obey s hc]
      | false =>
          rw [if_neg (by simp), if_pos (by simp), untracedTranscript, if_neg (by simp [hc]),
            (unseen_untraced hshown).reply s rfl, obey_untraced s hshown hc]
          rfl

end Untraced

/-- An instruction that is executed, with its position and the registers before it. -/
structure Execution where
  pc : Int
  instruction : Instruction
  registers : Registers

/-- The line that the trace has for an instruction. -/
def Execution.line (e : Execution) : String := traceLine e.pc.toNat e.instruction e.registers

/-- The line that the trace has for a fault. -/
def faultLine (cause : Fault) : String := "  ERROR: " ++ cause.message

/-- The instruction that the next step comes to. A session that is finished or at the end of its
program comes to none. -/
def upcoming? (s : Session) : Option Execution :=
  match s.runState with
  | .running => (s.program.fetch s.pc).map fun i => ⟨s.pc, i, s.machine.registers⟩
  | _ => none

/-- The instructions that the first `n` steps execute, in their order. -/
def executions (s : Session) (n : Nat) : List Execution :=
  (List.range n).filterMap fun k => (next^[k] s).upcoming?

/-- The step fails, but for no fault. -/
def missteps (s : Session) : Bool :=
  match s.step.2 with
  | .error (.numeral _) => true
  | _ => false

/-- After `n` steps the trace has one line for each step that is counted. If a fault was raised, the
line of the instruction that raised it and the line of the fault come last. -/
structure TraceComplete (s : Session) (n : Nat) : Prop where
  unfaulted : (next^[n] s).fault? = none →
    (next^[n] s).trace.toList = (s.executions n).map Execution.line ∧
      (next^[n] s).trace.size = (next^[n] s).steps
  faulted : ∀ cause, (next^[n] s).fault? = some cause → ∃ k < n, ∃ e,
    (next^[k] s).upcoming? = some e ∧ (next^[k] s).step.2 = .error (.fault cause) ∧
      (next^[n] s).trace.toList =
        (s.executions k).map Execution.line ++ [e.line, faultLine cause] ∧
      (next^[n] s).trace.size = (next^[n] s).steps + 2

section Step

variable {s : Session} {e : Execution}

theorem trace_record (h : s.tracing = true) (line : String) :
    (s.record line).trace = s.trace.push line := by
  simp [record, h]

@[simp] theorem trace_print (s : Session) (line? : Option String) :
    (s.print line?).trace = s.trace := by
  cases line? <;> rfl

@[simp] theorem trace_follow (s : Session) (t : Transition) : (s.follow t).trace = s.trace := by
  cases t <;> rfl

@[simp] theorem steps_follow (s : Session) (t : Transition) :
    (s.follow t).steps = s.steps + 1 := by
  cases t <;> rfl

theorem trace_performed (h : s.tracing = true) (i : Instruction) :
    (s.performed i).trace = s.trace.push (traceLine s.pc.toNat i s.machine.registers) := by
  simp [performed, trace_record h]

theorem upcoming?_eq_some_iff : s.upcoming? = some e ↔
    s.runState = .running ∧ s.program.fetch s.pc = some e.instruction ∧ e.pc = s.pc ∧
      e.registers = s.machine.registers := by
  obtain ⟨pc, i, registers⟩ := e
  unfold upcoming?
  cases hstate : s.runState with
  | running => cases hfetch : s.program.fetch s.pc <;> simp [eq_comm, and_left_comm]
  | halted | faulted => simp

theorem next_of_upcoming?_eq_none (h : s.upcoming? = none) :
    s.next.trace = s.trace ∧ s.next.steps = s.steps ∧
      s.next.fault? = s.fault? ∧ s.missteps = false := by
  by_cases hrunning : s.runState = .running
  · have hfetch : s.program.fetch s.pc = none := by
      rw [upcoming?, hrunning] at h
      exact Option.map_eq_none_iff.mp h
    rw [next, missteps, step_of_fetch_none hrunning hfetch]
    exact ⟨rfl, rfl, rfl, rfl⟩
  · rw [next, missteps, step_of_finished hrunning]
    exact ⟨rfl, rfl, rfl, rfl⟩

/-- A step that executes an instruction adds its line. It is counted if it raises nothing, and it
adds a second line if it raises a fault. -/
theorem next_of_upcoming? (hinstep : s.InStep) (hshown : s.program.Displayable)
    (htracing : s.tracing = true) (h : s.upcoming? = some e) :
    s.next.trace.toList = s.trace.toList ++ e.line :: (s.next.fault?.map faultLine).toList ∧
      s.next.steps + s.missteps.toNat + s.next.fault?.toList.length = s.steps + 1 := by
  obtain ⟨hrunning, hfetch, hpc, hregisters⟩ := upcoming?_eq_some_iff.mp h
  have hunfaulted := (hinstep.of_running hrunning).2
  have hline : e.line = traceLine s.pc.toNat e.instruction s.machine.registers := by
    rw [Execution.line, hpc, hregisters]
  have htrace : s.untraceable e.instruction = false := by
    simp [untraceable, hshown _ (Program.mem_of_fetch hfetch)]
  have hstep : s.step = s.advance e.instruction := step_of_fetch hrunning hfetch htrace
  rw [next, missteps, hstep, hline]
  cases hresult : (s.machine.perform s.program s.pc e.instruction).result with
  | ok t =>
      have hfault : ((s.performed e.instruction).follow t).fault? = none := by
        cases t <;> simp [follow, halt, hunfaulted]
      rw [advance_of_ok hresult]
      simp [trace_performed htracing, hfault]
  | error failure =>
      cases failure with
      | fault cause =>
          have htraced : (s.performed e.instruction).tracing = true := by
            rw [tracing_performed, htracing]
          rw [advance_of_fault hresult]
          simp [fail, trace_record htraced, trace_performed htracing, faultLine]
      | numeral limit =>
          rw [advance_of_numeral hresult]
          simp [trace_performed htracing, hunfaulted]

end Step

section Run

variable {s : Session} {n : Nat}

theorem executions_succ (s : Session) (n : Nat) :
    s.executions (n + 1) = s.executions n ++ (next^[n] s).upcoming?.toList := by
  rw [executions, executions, List.range_succ, List.filterMap_append]
  cases h : (next^[n] s).upcoming? <;> simp [h]

theorem InStep.iterate_next (h : s.InStep) (n : Nat) : (next^[n] s).InStep := by
  induction n with
  | zero => exact h
  | succ n ih =>
      rw [Function.iterate_succ_apply']
      exact ih.step

variable (hinstep : s.InStep) (hshown : s.program.Displayable) (htracing : s.tracing = true)

include hinstep hshown htracing

theorem next_iterate_of_upcoming? {e : Execution} (h : (next^[n] s).upcoming? = some e) :
    (next^[n] s).fault? = none ∧
      (next^[n] s).next.trace.toList = (next^[n] s).trace.toList ++
        e.line :: ((next^[n] s).next.fault?.map faultLine).toList ∧
      (next^[n] s).next.steps + (next^[n] s).missteps.toNat +
        (next^[n] s).next.fault?.toList.length = (next^[n] s).steps + 1 := by
  have hinstep' := hinstep.iterate_next n
  have hshown' : (next^[n] s).program.Displayable := program_iterate_next s n ▸ hshown
  have htracing' : (next^[n] s).tracing = true := (tracing_iterate_next s n).trans htracing
  exact ⟨(hinstep'.of_running (upcoming?_eq_some_iff.mp h).1).2,
    next_of_upcoming? hinstep' hshown' htracing' h⟩

theorem trace_iterate_next (hs : s.fault? = none) (n : Nat) :
    (next^[n] s).trace.toList = s.trace.toList ++ ((s.executions n).map Execution.line ++
      ((next^[n] s).fault?.map faultLine).toList) := by
  induction n with
  | zero => simp [executions, hs]
  | succ n ih =>
      rw [Function.iterate_succ_apply', executions_succ]
      cases h : (next^[n] s).upcoming? with
      | none =>
          obtain ⟨htrace, -, hfault, -⟩ := next_of_upcoming?_eq_none h
          rw [htrace, hfault, ih]
          simp
      | some e =>
          obtain ⟨hfault, htrace, -⟩ := next_iterate_of_upcoming? hinstep hshown htracing h
          rw [htrace, ih, hfault]
          simp

theorem steps_iterate_next (hs : s.fault? = none) (n : Nat) :
    (next^[n] s).steps + (List.range n).countP (fun k => (next^[k] s).missteps) +
      (next^[n] s).fault?.toList.length = s.steps + (s.executions n).length := by
  induction n with
  | zero => simp [executions, hs]
  | succ n ih =>
      rw [Function.iterate_succ_apply', executions_succ, List.range_succ, List.countP_append,
        List.countP_singleton, List.length_append]
      cases h : (next^[n] s).upcoming? with
      | none =>
          obtain ⟨-, hsteps, hfault, hmiss⟩ := next_of_upcoming?_eq_none h
          rw [hsteps, hfault, hmiss]
          simpa using ih
      | some e =>
          obtain ⟨hfault, -, hcount⟩ := next_iterate_of_upcoming? hinstep hshown htracing h
          rw [hfault] at ih
          cases hmiss : (next^[n] s).missteps <;> simp_all <;> omega

end Run

section Complete

variable {source : String} {p : Program} {size n : Nat} {s : Session}

theorem exists_step_of_fault {cause : Fault} (hinstep : s.InStep) (hs : s.fault? = none)
    (h : (next^[n] s).fault? = some cause) : ∃ k < n, ∃ e,
      (next^[k] s).upcoming? = some e ∧ (next^[k] s).step.2 = .error (.fault cause) ∧
        next^[n] s = next^[k + 1] s := by
  induction n with
  | zero =>
      rw [Function.iterate_zero, id, hs] at h
      cases h
  | succ n ih =>
      cases hbefore : (next^[n] s).fault? with
      | some cause' =>
          have hfinished : (next^[n] s).runState ≠ .running := by
            intro hrunning
            rw [((hinstep.iterate_next n).of_running hrunning).2] at hbefore
            cases hbefore
          have hsame : next^[n + 1] s = next^[n] s :=
            iterate_next_of_finished hfinished (Nat.le_succ n)
          rw [hsame] at h ⊢
          obtain ⟨k, hk, hstep⟩ := ih h
          exact ⟨k, Nat.lt_succ_of_lt hk, hstep⟩
      | none =>
          rw [Function.iterate_succ_apply'] at h
          cases hresult : (next^[n] s).step.2 with
          | ok t =>
              rw [next, fault?_of_step_ok hresult, hbefore] at h
              cases h
          | error failure =>
              cases failure with
              | fault cause' =>
                  obtain ⟨i, hrunning, hfetch, -⟩ := advance_of_step_fault hresult
                  rw [next, (stopped_of_step_fault hresult).2.1] at h
                  cases h
                  have hupcoming : (next^[n] s).upcoming? =
                      some ⟨(next^[n] s).pc, i, (next^[n] s).machine.registers⟩ :=
                    upcoming?_eq_some_iff.mpr ⟨hrunning, hfetch, rfl, rfl⟩
                  exact ⟨n, Nat.lt_succ_self n, _, hupcoming, hresult, rfl⟩
              | numeral limit =>
                  rw [next, (keeps_of_step_numeral hresult).2.2.2, hbefore] at h
                  cases h

theorem missteps_iff : s.missteps = true ↔ ∃ limit, s.step.2 = .error (.numeral limit) := by
  unfold missteps
  split <;> simp_all

theorem traceComplete_iff (hinstep : s.InStep) (hshown : s.program.Displayable)
    (htracing : s.tracing = true) (hs : s.fault? = none) (htrace : s.trace = #[])
    (hsteps : s.steps = 0) : s.TraceComplete n ↔ ∀ k < n, (next^[k] s).missteps = false := by
  have hlines (k : Nat) := trace_iterate_next hinstep hshown htracing hs k
  have hcount (k : Nat) := steps_iterate_next hinstep hshown htracing hs k
  simp only [htrace, List.nil_append] at hlines
  simp only [hsteps, Nat.zero_add] at hcount
  have hsize (k : Nat) : (next^[k] s).trace.size =
      (s.executions k).length + (next^[k] s).fault?.toList.length := by
    rw [← Array.length_toList, hlines]
    cases (next^[k] s).fault? <;> simp
  constructor
  · intro h
    have hmissed : (List.range n).countP (fun k => (next^[k] s).missteps) = 0 := by
      have hcount := hcount n
      have hsize := hsize n
      cases hfault : (next^[n] s).fault? with
      | none =>
          have hcomplete := (h.unfaulted hfault).2
          rw [hfault] at hcount hsize
          simp only [Option.toList_none, List.length_nil] at hcount hsize
          omega
      | some cause =>
          obtain ⟨k, -, e, -, -, -, hcomplete⟩ := h.faulted cause hfault
          rw [hfault] at hcount hsize
          simp only [Option.toList_some, List.length_singleton] at hcount hsize
          omega
    intro k hk
    simpa using List.countP_eq_zero.mp hmissed k (List.mem_range.mpr hk)
  · intro h
    have hmissed {j : Nat} (hj : j ≤ n) :
        (List.range j).countP (fun k => (next^[k] s).missteps) = 0 := by
      refine List.countP_eq_zero.mpr fun k hk => ?_
      simp [h k (Nat.lt_of_lt_of_le (List.mem_range.mp hk) hj)]
    have hcount' := hcount n
    have hsize' := hsize n
    rw [hmissed (Nat.le_refl n)] at hcount'
    constructor
    · intro hfault
      rw [hfault] at hcount' hsize'
      simp only [Option.toList_none, List.length_nil] at hcount' hsize'
      refine ⟨?_, by omega⟩
      simp [hlines, hfault]
    · intro cause hfault
      obtain ⟨k, hk, e, hupcoming, hraise, hlast⟩ := exists_step_of_fault hinstep hs hfault
      rw [hfault] at hcount' hsize'
      simp only [Option.toList_some, List.length_singleton] at hcount' hsize'
      refine ⟨k, hk, e, hupcoming, hraise, ?_, by omega⟩
      rw [hlast] at hfault
      rw [hlast, hlines (k + 1), hfault, executions_succ, hupcoming]
      simp

theorem missteps_iff_goesTooFar (hload : Program.load source = .ok p)
    (hreach : Reachable p size s) : s.missteps = true ↔ s.GoesTooFar := by
  simp [missteps_iff, step_eq_numeral_iff hload hreach]

end Complete

section Text

variable {source : String} {p : Program} {size n : Nat} {s : Session} {e : Execution}

theorem unbroken_faultLine {cause : Fault} (h : cause.IsOneLine) :
    Unbroken (faultLine cause).toList :=
  unbroken_toList_append (unbroken_ofList rfl) (Fault.unbroken_message h)

theorem unbroken_line (hload : Program.load source = .ok p) (hreach : Reachable p size s)
    (h : s.upcoming? = some e) : Unbroken e.line.toList := by
  obtain ⟨-, hfetch, -, hregisters⟩ := upcoming?_eq_some_iff.mp h
  rw [hreach.program] at hfetch
  have hinstruction := Program.writable_unbroken_of_load hload (Program.mem_of_fetch hfetch)
  have hholds (r : Register) : (e.registers.get r).IsOneLine := by
    rw [hregisters]
    exact hreach.machine_isOneLine hload _ (.register r rfl)
  refine unbroken_toList_append (unbroken_toList_append (unbroken_toList_append
    (unbroken_toList_append (unbroken_toList_append (unbroken_ofList rfl) ?_)
      (unbroken_ofList rfl)) ?_) (unbroken_ofList rfl)) ?_
  · exact unbroken_padLeft rfl (unbroken_toString (e.pc.toNat : Int))
  · exact unbroken_padRight (Instruction.unbroken_display hinstruction)
  · exact Registers.unbroken_display hholds

theorem faultLine_ne_nil (cause : Fault) : (faultLine cause).toList ≠ [] := by
  rw [faultLine, String.toList_append]
  exact List.cons_ne_nil ' ' _

theorem line_ne_nil (e : Execution) : e.line.toList ≠ [] := by
  simp only [Execution.line, traceLine, String.toList_append, List.append_assoc]
  exact List.cons_ne_nil '#' _

theorem lines_traceText (hload : Program.load source = .ok p) (hreach : Reachable p size s)
    (htracing : s.tracing = true) (hs : s.fault? = none) (htrace : s.trace = #[]) (n : Nat) :
    lines (next^[n] s).traceText.toList = (next^[n] s).trace.toList.map String.toList := by
  have hline : ∀ e ∈ s.executions n, e.line.toList ≠ [] ∧ Unbroken e.line.toList := by
    intro e he
    obtain ⟨k, -, hupcoming⟩ := List.mem_filterMap.mp he
    exact ⟨line_ne_nil e, unbroken_line hload (hreach.iterate_next k) hupcoming⟩
  have hfault : ∀ cause, (next^[n] s).fault? = some cause →
      (faultLine cause).toList ≠ [] ∧ Unbroken (faultLine cause).toList := by
    intro cause hcause
    obtain ⟨k, -, -, -, hraise, -⟩ := exists_step_of_fault hreach.inStep hs hcause
    exact ⟨faultLine_ne_nil cause,
      unbroken_faultLine ((hreach.iterate_next k).isOneLine_of_step_fault hload hraise)⟩
  have hshown : s.program.Displayable := hreach.program ▸ Program.displayable_of_load hload
  rw [traceText, joinLines, String.toList_intercalate,
    trace_iterate_next hreach.inStep hshown htracing hs, htrace]
  refine lines_intercalate ?_
  simp only [List.nil_append, List.map_append, List.map_map]
  refine List.forall_mem_append.mpr ⟨List.forall_mem_map.mpr hline, List.forall_mem_map.mpr ?_⟩
  intro line hmem
  obtain ⟨cause, hcause, rfl⟩ := Option.map_eq_some_iff.mp (Option.mem_toList.mp hmem)
  exact hfault cause hcause

end Text

/-- A new session that keeps a trace. -/
def freshTraced (p : Program) (size : Nat) : Session := (fresh p size).setTracing true

/-- Sessions of a loaded program that get the same commands, but for those about the trace, differ
in nothing but the trace. A new session that keeps it has a line for every instruction that was
executed and one for its fault; these are one line for each step that is counted, and two more for a
fault, exactly as long as no step goes too far. -/
theorem trace_complete_unless_too_far {source : String} {p : Program}
    (hload : Program.load source = .ok p) (size : Nat) :
    (∀ commands others : List Command,
      commands.filter (!·.isTracing) = others.filter (!·.isTracing) →
        (fresh p size).untracedTranscript commands = (fresh p size).untracedTranscript others) ∧
      ∀ n, ∃ s, next^[n] (freshTraced p size) = s ∧
        lines s.traceText.toList = s.trace.toList.map String.toList ∧
        s.trace.toList = ((freshTraced p size).executions n).map Execution.line ++
          (s.fault?.map faultLine).toList ∧
        ((freshTraced p size).TraceComplete n ↔
          ∀ k < n, ¬ (next^[k] (freshTraced p size)).GoesTooFar) := by
  have hreach : Reachable p size (freshTraced p size) := Reachable.fresh.setTracing true
  have hshown : p.Displayable := Program.displayable_of_load hload
  refine ⟨?_, ?_⟩
  · intro commands others hsame
    rw [untracedTranscript_eq _ hshown, hsame, ← untracedTranscript_eq _ hshown]
  · intro n
    refine ⟨_, rfl, lines_traceText hload hreach rfl rfl rfl n, ?_, ?_⟩
    · exact trace_iterate_next hreach.inStep hshown rfl rfl n
    · rw [traceComplete_iff hreach.inStep hshown rfl rfl rfl rfl]
      refine forall_congr' fun k => imp_congr_right fun _ => ?_
      rw [← Bool.not_eq_true, missteps_iff_goesTooFar hload (hreach.iterate_next k)]

theorem pastEnd_trace_complete :
    Program.load "lea rax sp[9]\nmov [rax] 1\n" = .ok pastEnd ∧
      (fresh pastEnd 4).untracedTranscript [.setTracing true, .step, .clearTrace, .step] =
        (fresh pastEnd 4).untracedTranscript [.step, .step] ∧
      (freshTraced pastEnd 4).TraceComplete 2 ∧
      (next^[2] (freshTraced pastEnd 4)).trace =
        #["#0000: lea rax Stack[9]             " ++
            "rax=Uninitialized rbx=Uninitialized rcx=Uninitialized",
          "#0001: mov [rax] Integer '1'        " ++
            "rax=Pointer 0x09 rbx=Uninitialized rcx=Uninitialized",
          "  ERROR: Cannot write at: Stack[9]"] := by
  have hload : Program.load "lea rax sp[9]\nmov [rax] 1\n" = .ok pastEnd := by decide +kernel
  have hreach : Reachable pastEnd 4 (freshTraced pastEnd 4) := Reachable.fresh.setTracing true
  have hnear : ∀ k < 2, ¬ (next^[k] (freshTraced pastEnd 4)).GoesTooFar := by
    have hstored : ∀ k < 2, (next^[k] (freshTraced pastEnd 4)).missteps = false := by
      decide +kernel
    intro k hk
    rw [← missteps_iff_goesTooFar hload (hreach.iterate_next k), hstored k hk]
    exact Bool.false_ne_true
  have h := trace_complete_unless_too_far hload 4
  obtain ⟨s, -, -, -, hcomplete⟩ := h.2 2
  exact ⟨hload, h.1 _ _ (by decide), hcomplete.mpr hnear, by decide +kernel⟩

theorem hugePointer_trace_incomplete :
    ¬ ∀ (source : String) (p : Program) (size n : Nat), Program.load source = .ok p → 0 < size →
      (freshTraced p size).TraceComplete n := by
  intro h
  have hcomplete := h _ hugePointer 4 3 load_hugePointer (by decide)
  have hfault : (next^[3] (freshTraced hugePointer 4)).fault? = none := by decide +kernel
  -- The third step left its line, but it was not counted.
  have hcount : (next^[3] (freshTraced hugePointer 4)).trace.size ≠
      (next^[3] (freshTraced hugePointer 4)).steps := by decide +kernel
  exact hcount (hcomplete.unfaulted hfault).2

end Session

end TriReg
