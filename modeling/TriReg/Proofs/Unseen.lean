import TriReg.Proofs.Block
import TriReg.Proofs.Commands
import TriReg.Proofs.Translation

/-!
Changes of a session that no step sees. A step looks at the machine, the position, the run state,
the result, the code of the program and whether the line of an instruction can be traced; a check
looks at the code alone. A map of sessions that keeps these, and keeps apart from what a step
writes, can be applied after a run as well as before it (`Session.Unseen.run`).
-/

namespace TriReg

section Code

variable {p q : Program}

theorem Program.fetch_of_code_eq (h : q.code = p.code) (pc : Int) : q.fetch pc = p.fetch pc := by
  rw [fetch, fetch, h]

theorem Program.checkBlock_of_code_eq (h : q.code = p.code) (label : String)
    (terminator : Terminator) : q.checkBlock label terminator = p.checkBlock label terminator := by
  rw [checkBlock, checkBlock, blockTerminates?, blockTerminates?, findLabel, findLabel, h]

theorem Program.check_of_code_eq (h : q.code = p.code) : q.check = p.check := by
  have hinstruction : q.checkInstruction = p.checkInstruction := by
    funext i
    simp only [checkInstruction, checkBlock_of_code_eq h]
  rw [check_eq_forM, check_eq_forM, hinstruction, h]

theorem Machine.perform_of_code_eq (h : q.code = p.code) (m : Machine) (pc : Int)
    (i : Instruction) : m.perform q pc i = m.perform p pc i := by
  cases p
  cases q
  cases h
  rfl

end Code

namespace Session

/-- A map that keeps what steps and checks of programs with this code look at, and does not touch
what they write. -/
structure Unseen (code : List Instruction) (f : Session → Session) : Prop where
  code_eq (s : Session) : (f s).program.code = s.program.code
  machine (s : Session) : (f s).machine = s.machine
  pc (s : Session) : (f s).pc = s.pc
  runState (s : Session) : (f s).runState = s.runState
  result? (s : Session) : (f s).result? = s.result?
  untraceable (s : Session) {i : Instruction} (hi : i ∈ code) :
    (f s).untraceable i = s.untraceable i
  withMachine (s : Session) (machine : Machine) : { f s with machine } = f { s with machine }
  halt (s : Session) (result : Value) : (f s).halt result = f (s.halt result)
  fail (s : Session) (cause : Fault) : (f s).fail cause = f (s.fail cause)
  record (s : Session) (line : String) : (f s).record line = f (s.record line)
  print (s : Session) (line? : Option String) : (f s).print line? = f (s.print line?)
  follow (s : Session) (t : Transition) : (f s).follow t = f (s.follow t)

theorem program_runSteps (s : Session) (limit : Nat) : (s.runSteps limit).1.program = s.program :=
  runSteps_invariant (P := fun u => u.program = s.program)
    (fun {u} hu => (program_step u).trans hu) rfl limit

theorem program_obey (s : Session) (c : Command) : (s.obey c).program = s.program := by
  cases c with
  | step => exact program_step s
  | run checked limit =>
      rw [obey, fst_run, program_runSteps]
      split
      · exact program_check s
      · rfl
  | check => exact program_check s
  | setTracing | clearTrace | reset => rfl

namespace Unseen

variable {code : List Instruction} {f : Session → Session} (hf : Unseen code f) (s : Session)

include hf

theorem perform (i : Instruction) :
    (f s).machine.perform (f s).program (f s).pc i = s.machine.perform s.program s.pc i := by
  rw [hf.machine, hf.pc, Machine.perform_of_code_eq (hf.code_eq s)]

theorem performed (i : Instruction) : (f s).performed i = f (s.performed i) := by
  rw [Session.performed, hf.perform, hf.pc, hf.machine, hf.record]
  dsimp only
  rw [hf.withMachine, hf.print]
  rfl

theorem advance (i : Instruction) : (f s).advance i = (f (s.advance i).1, (s.advance i).2) := by
  have hperform := hf.perform s i
  cases h : (s.machine.perform s.program s.pc i).result with
  | ok t =>
      rw [advance_of_ok h, advance_of_ok (hperform ▸ h), hf.performed, hf.follow]
  | error failure =>
      cases failure with
      | fault cause =>
          rw [advance_of_fault h, advance_of_fault (hperform ▸ h), hf.performed, hf.record,
            hf.fail]
      | numeral limit =>
          rw [advance_of_numeral h, advance_of_numeral (hperform ▸ h), hf.performed]

theorem step (hs : s.program.code = code) : (f s).step = (f s.step.1, s.step.2) := by
  have hfetch : (f s).program.fetch (f s).pc = s.program.fetch s.pc := by
    rw [hf.pc, Program.fetch_of_code_eq (hf.code_eq s)]
  rcases s.cases_of_step with ⟨hfinished, hstep⟩ | ⟨hrunning, hnone, hstep⟩ |
    ⟨i, hrunning, hsome, htraced⟩
  · have hidle : (f s).idle = s.idle := by
      rw [idle, idle, hf.runState, hf.result?]
    rw [hstep, step_of_finished ((hf.runState s).trans_ne hfinished), hidle]
  · rw [hstep, step_of_fetch_none ((hf.runState s).trans hrunning) (hfetch.trans hnone), hf.halt]
  · have htrace := hf.untraceable s (hs ▸ Program.mem_of_fetch hsome)
    have hrunning' := (hf.runState s).trans hrunning
    have hsome' := hfetch.trans hsome
    rcases htraced with ⟨hlost, hstep⟩ | ⟨hkept, hstep⟩
    · rw [hstep, step_of_untraceable hrunning' hsome' (htrace.trans hlost)]
    · rw [hstep, step_of_fetch hrunning' hsome' (htrace.trans hkept), hf.advance]

theorem check : (f s).check = (f s.check.1, s.check.2) := by
  have hcheck' : (f s).program.check = s.program.check := Program.check_of_code_eq (hf.code_eq s)
  cases hcheck : s.program.check with
  | ok => rw [check_of_ok hcheck, check_of_ok (hcheck'.trans hcheck)]
  | error cause => rw [check_of_error hcheck, check_of_error (hcheck'.trans hcheck), hf.fail]

theorem runSteps (hs : s.program.code = code) (limit : Nat) :
    (f s).runSteps limit = (f (s.runSteps limit).1, (s.runSteps limit).2) := by
  induction limit generalizing s with
  | zero =>
      rw [Session.runSteps, Session.runSteps, hf.runState]
      split <;> rfl
  | succ limit ih =>
      have hafter : s.step.1.program.code = code := (congrArg _ (program_step s)).trans hs
      rw [Session.runSteps, Session.runSteps, hf.runState, hf.step s hs]
      split
      · rfl
      · cases hstep : s.step with
        | mk after result =>
            rw [hstep] at hafter
            cases result with
            | ok t => exact ih after hafter
            | error failure => rfl

theorem run (hs : s.program.code = code) (checked : Bool) (limit : Nat) :
    (f s).run checked limit = (f (s.run checked limit).1, (s.run checked limit).2) := by
  have hexit (u : Session) : (f u).exitCode? = u.exitCode? := by
    rw [exitCode?, hf.result?, exitCode?]
  cases checked with
  | false =>
      simp only [Session.run, Bool.false_eq_true, if_false, hf.runSteps s hs, hexit]
  | true =>
      have hchecked : s.check.1.program.code = code := (congrArg _ (program_check s)).trans hs
      simp only [Session.run, if_true, hf.check]
      cases hcheck : s.check with
      | mk after result =>
          rw [hcheck] at hchecked
          cases result with
          | ok => simp only [hf.runSteps after hchecked, hexit]
          | error cause => rfl

end Unseen

/-- A map that no command sees. It also goes with the commands that are no steps, runs or checks. -/
structure Hidden (code : List Instruction) (f : Session → Session) : Prop
    extends Unseen code f where
  setTracing (s : Session) (on : Bool) : (f s).setTracing on = f (s.setTracing on)
  clearTrace (s : Session) : (f s).clearTrace = f s.clearTrace
  reset (s : Session) : (f s).reset = f s.reset

namespace Hidden

variable {code : List Instruction} {f : Session → Session} (hf : Hidden code f) (s : Session)

include hf

theorem obey (hs : s.program.code = code) (c : Command) : (f s).obey c = f (s.obey c) := by
  cases c with
  | step => exact congrArg Prod.fst (hf.step s hs)
  | run checked limit => exact congrArg Prod.fst (hf.run s hs checked limit)
  | check => exact congrArg Prod.fst (hf.check s)
  | setTracing on => exact hf.setTracing s on
  | clearTrace => exact hf.clearTrace s
  | reset => exact hf.reset s

theorem obeyAll (hs : s.program.code = code) (commands : List Command) :
    (f s).obeyAll commands = f (s.obeyAll commands) := by
  induction commands generalizing s with
  | nil => rfl
  | cons c commands ih =>
      have hafter : (s.obey c).program.code = code := (congrArg _ (program_obey s c)).trans hs
      rw [Session.obeyAll, List.foldl_cons, hf.obey s hs]
      exact ih (s.obey c) hafter

end Hidden

end Session

end TriReg
