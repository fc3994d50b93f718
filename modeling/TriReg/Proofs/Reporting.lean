import TriReg.Proofs.Reset
import TriReg.Proofs.Runs

namespace TriReg

/-- The exit code that a result stands for: an integer itself, and one for everything else. -/
inductive Value.ExitsWith : Value → Int → Prop
  | integer (n : Int64) : ExitsWith (.integer n) n.toInt
  | other {v : Value} (h : ∀ n, v ≠ .integer n) : ExitsWith v 1

theorem Value.exitsWith_exitCode (v : Value) : v.ExitsWith v.exitCode := by
  cases v with
  | integer n => exact .integer n
  | text | pointer | uninitialized => exact .other (by rintro n ⟨⟩)

namespace Session

/-- A call of run that comes back leaves a halted session and gives the exit code of its result. -/
def Reports (s : Session) (checked : Bool) (limit : Nat) : Prop :=
  ∀ after code?, s.run checked limit = (after, .ok code?) →
    ∃ v code, after.runState = .halted ∧ after.fault? = none ∧ after.result? = some v ∧
      v.ExitsWith code ∧ code? = some code

/-- The fault that a command raises. -/
def Reply.fault? : Reply → Option Fault
  | .stepped (.error (.fault cause)) => some cause
  | .ran (.error (.failure (.fault cause))) => some cause
  | .checked (.error cause) => some cause
  | _ => none

theorem Reply.isSome_fault?_stepped {result : Except Failure Transition} :
    (stepped result).fault?.isSome = true ↔ ∃ cause, result = .error (.fault cause) := by
  rcases result with (cause | limit) | t <;> simp [fault?]

theorem Reply.isSome_fault?_ran {result : Except Stop (Option Int)} :
    (ran result).fault?.isSome = true ↔ ∃ cause, result = .error (.failure (.fault cause)) := by
  rcases result with ((cause | limit) | _) | code? <;> simp [fault?]

theorem Reply.isSome_fault?_checked {result : Except Fault Unit} :
    (checked result).fault?.isSome = true ↔ ∃ cause, result = .error cause := by
  rcases result with cause | _ <;> simp [fault?]

/-- One of the commands raised a fault, and none after it resets the session. -/
def Faulted (s : Session) (commands : List Command) : Prop :=
  SinceReset (fun before c => ((s.obeyAll before).reply c).fault?.isSome = true) commands

variable {p : Program} {size limit : Nat} {s : Session} {checked : Bool} {before : List Command}

section History

theorem isSome_fault?_step : s.step.1.fault?.isSome = true ↔
    (∃ cause, s.step.2 = .error (.fault cause)) ∨ s.fault?.isSome = true := by
  cases hstep : s.step.2 with
  | ok t => simp [fault?_of_step_ok hstep]
  | error failure =>
      cases failure with
      | fault cause => simp [(stopped_of_step_fault hstep).2.1]
      | numeral limit => simp [(keeps_of_step_numeral hstep).2.2.2]

theorem isSome_fault?_runSteps (limit : Nat) : (s.runSteps limit).1.fault?.isSome = true ↔
    (∃ cause, (s.runSteps limit).2 = .error (.failure (.fault cause))) ∨
      s.fault?.isSome = true := by
  induction limit generalizing s with
  | zero =>
      unfold runSteps
      split <;> simp
  | succ limit ih =>
      have hnext := isSome_fault?_step (s := s)
      unfold runSteps
      split
      · simp
      · split
        · rename_i after t hstep
          rw [hstep] at hnext
          rw [ih, hnext]
          simp
        · rename_i after failure hstep
          rw [hstep] at hnext
          rw [hnext]
          simp

theorem isSome_fault?_check : s.check.1.fault?.isSome = true ↔
    (∃ cause, s.check.2 = .error cause) ∨ s.fault?.isSome = true := by
  cases hcheck : s.program.check with
  | ok => simp [check_of_ok hcheck]
  | error cause => simp [check_of_error hcheck, fail]

theorem isSome_fault?_run : (s.run checked limit).1.fault?.isSome = true ↔
    (∃ cause, (s.run checked limit).2 = .error (.failure (.fault cause))) ∨
      s.fault?.isSome = true := by
  by_cases hcheck : checked = true → s.program.check = .ok ()
  · rw [run_of_check_ok hcheck, isSome_fault?_runSteps]
    simp only [map_eq_error_iff]
  · obtain ⟨rfl, hfails⟩ := Classical.not_imp.mp hcheck
    cases hcause : s.program.check with
    | ok => exact absurd hcause hfails
    | error cause => simp [run_of_check_error hcause, fail]

/-- A fault comes with a command that raises it, and stays until a reset. -/
theorem isSome_fault?_obey (c : Command) : (s.obey c).fault?.isSome = true ↔
    s.fault?.isSome = true ∧ c ≠ .reset ∨ (s.reply c).fault?.isSome = true := by
  cases c with
  | step =>
      rw [obey, isSome_fault?_step, reply, Reply.isSome_fault?_stepped, or_comm]
      simp
  | run checked limit =>
      rw [obey, isSome_fault?_run, reply, Reply.isSome_fault?_ran, or_comm]
      simp
  | check =>
      rw [obey, isSome_fault?_check, reply, Reply.isSome_fault?_checked, or_comm]
      simp
  | setTracing on => simp [obey, reply, setTracing, Reply.fault?]
  | clearTrace => simp [obey, reply, clearTrace, Reply.fault?]
  | reset => simp [obey, reply, reset, Reply.fault?]

theorem isSome_fault?_obeyAll (commands : List Command) :
    ((fresh p size).obeyAll commands).fault?.isSome = true ↔
      (fresh p size).Faulted commands := by
  induction commands using List.reverseRecOn with
  | nil => simp [obeyAll, fresh, Faulted, SinceReset]
  | append_singleton commands c ih =>
      rw [obeyAll_concat, isSome_fault?_obey, ih, Faulted, Faulted, sinceReset_concat_iff]

end History

theorem reports_of_fault?_eq_none (h : s.InStep) (hs : s.fault? = none) :
    s.Reports checked limit := by
  intro after code? hrun
  have hcheck := check_of_run hrun (by rintro cause ⟨⟩)
  obtain ⟨ended, hsteps, hcode⟩ := runSteps_of_run hcheck hrun
  obtain ⟨_, rfl, rfl⟩ := map_eq_ok_iff.mp hcode.symm
  obtain ⟨hstate, hfault, v, hv⟩ := halted_of_runSteps h hs hsteps
  refine ⟨v, v.exitCode, hstate, hfault, hv, v.exitsWith_exitCode, ?_⟩
  rw [exitCode?, hv]
  rfl

theorem run_of_fault (h : s.InStep) (hs : s.fault?.isSome = true)
    (hcheck : checked = true → s.program.check = .ok ()) :
    s.run checked limit = (s, .ok s.exitCode?) := by
  have hfinished : s.runState ≠ .running := by
    intro hrunning
    rw [(h.of_running hrunning).2] at hs
    cases hs
  rw [run_of_check_ok hcheck, runSteps_of_finished hfinished]
  rfl

theorem reports_iff (hinstep : s.InStep) : s.Reports checked limit ↔
    ¬ (s.fault?.isSome = true ∧ (checked = true → s.program.check = .ok ())) := by
  constructor
  · rintro h ⟨hs, hcheck⟩
    obtain ⟨v, code, -, hfault, -⟩ := h _ _ (run_of_fault hinstep hs hcheck)
    rw [hfault] at hs
    cases hs
  · intro h
    by_cases hs : s.fault?.isSome = true
    · intro after code? hrun
      exact absurd ⟨hs, check_of_run hrun (by rintro cause ⟨⟩)⟩ h
    · exact reports_of_fault?_eq_none hinstep (Option.not_isSome_iff_eq_none.mp hs)

/-- What a run that comes back reports. It reports the result of the program, unless a fault was
raised since the last reset and the run makes no check that raises one. Then it changes nothing, and
there is an exit code only if the session was checked late. -/
theorem run_reports_iff (hs : (fresh p size).obeyAll before = s) :
    (s.Reports checked limit ↔
      ¬ ((fresh p size).Faulted before ∧ (checked = true → p.check = .ok ()))) ∧
      ((fresh p size).Faulted before → (checked = true → p.check = .ok ()) →
        s.run checked limit = (s, .ok s.exitCode?) ∧
          (s.exitCode? = none ↔ ¬ (p.check ≠ .ok () ∧ (fresh p size).CheckedLate before))) := by
  have hreach : Reachable p size s := hs ▸ Reachable.fresh.obeyAll before
  have hfault : s.fault?.isSome = true ↔ (fresh p size).Faulted before :=
    hs ▸ isSome_fault?_obeyAll before
  have hmixed : s.IsMixed ↔ p.check ≠ .ok () ∧ (fresh p size).CheckedLate before :=
    hs ▸ isMixed_obeyAll_iff before
  refine ⟨?_, ?_⟩
  · rw [reports_iff hreach.inStep, hfault, hreach.program]
  · intro hfaulted hcheck
    rw [← hfault] at hfaulted
    rw [← hreach.program] at hcheck
    refine ⟨run_of_fault hreach.inStep hfaulted hcheck, ?_⟩
    rw [← hmixed, IsMixed, exitCode?, Option.map_eq_none_iff]
    simp [hfaulted]

/-- Reads a slot that a stack of one slot does not have. -/
def returnPastEnd : Program where
  code := [.ret (.address (.slot 1))]
  lineNumbers := [1]

theorem returnPastEnd_run_reports : ∃ s, (fresh returnPastEnd 1).obeyAll [.run true 1] = s ∧
    s.runState = .faulted ∧ s.fault? = some (.outOfReach .read (.slot 1)) ∧
      (fresh returnPastEnd 1).Faulted [.run true 1] ∧ ¬ s.Reports true 1 ∧
        s.run true 1 = (s, .ok none) := by
  obtain ⟨s, hs⟩ : ∃ s, (fresh returnPastEnd 1).obeyAll [.run true 1] = s := ⟨_, rfl⟩
  have hstate : s.runState = .faulted := hs ▸ by decide +kernel
  have hfault : s.fault? = some (.outOfReach .read (.slot 1)) := hs ▸ by decide +kernel
  have hresult : s.result? = none := hs ▸ by decide +kernel
  have hcheck : returnPastEnd.check = .ok () := by decide
  have hfaulted : (fresh returnPastEnd 1).Faulted [.run true 1] :=
    (isSome_fault?_obeyAll _).mp (by rw [hs, hfault]; rfl)
  obtain ⟨hreports, hreturns⟩ : (s.Reports true 1 ↔ _) ∧ (_ → _ → s.run true 1 = _ ∧ _) :=
    run_reports_iff hs
  refine ⟨s, hs, hstate, hfault, hfaulted, ?_, ?_⟩
  · intro h
    exact hreports.mp h ⟨hfaulted, fun _ => hcheck⟩
  · rw [(hreturns hfaulted fun _ => hcheck).1, exitCode?, hresult]
    rfl

theorem returnPastEnd_not_reported :
    ¬ ∀ (p : Program) (size : Nat) (before : List Command) (checked : Bool) (limit : Nat),
      0 < size → ((fresh p size).obeyAll before).Reports checked limit := by
  intro h
  have hreports := h returnPastEnd 1 [.run true 1] true 1 Nat.one_pos
  have hreach : Reachable returnPastEnd 1 ((fresh returnPastEnd 1).obeyAll [.run true 1]) :=
    Reachable.fresh.obeyAll _
  exact (reports_iff hreach.inStep).mp hreports (by decide +kernel)

end Session

end TriReg
