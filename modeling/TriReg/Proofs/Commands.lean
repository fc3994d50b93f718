import Mathlib.Data.List.Induction
import TriReg.Proofs.Control
import TriReg.Proofs.Reachable

namespace TriReg

namespace Session

/-- The run state is that of the status, which the result and the fault make up. -/
def InStep (s : Session) : Prop := s.runState = s.status.runState

/-- The run state says of the result and of the fault whether they are there. -/
structure Consistent (s : Session) : Prop where
  running : s.runState = .running ↔ s.result? = none ∧ s.fault? = none
  halted : s.runState = .halted ↔ s.result?.isSome ∧ s.fault? = none
  faulted : s.runState = .faulted ↔ s.fault?.isSome ∧ s.result? = none

/-- There is a fault beside a result. -/
def IsMixed (s : Session) : Prop := s.fault?.isSome ∧ s.result?.isSome

/-- The operations on a session. -/
inductive Command where
  | step
  | run (checked : Bool) (limit : Nat)
  | check
  | setTracing (on : Bool)
  | clearTrace
  | reset
  deriving DecidableEq

/-- The command checks the program. -/
def Command.checks : Command → Bool
  | .run checked _ => checked
  | .check => true
  | _ => false

/-- The session after a command, whether it raises or not. -/
def obey (s : Session) : Command → Session
  | .step => s.step.1
  | .run checked limit => (s.run checked limit).1
  | .check => s.check.1
  | .setTracing on => s.setTracing on
  | .clearTrace => s.clearTrace
  | .reset => s.reset

def obeyAll (s : Session) (commands : List Command) : Session := commands.foldl obey s

/-- The session without its trace, which may change at any time. -/
def untraced (s : Session) : Session := { s with tracing := false, trace := #[] }

variable {p : Program} {size : Nat} {s : Session}

section InStep

variable {after : Session}

@[simp] theorem result?_status (s : Session) : s.status.result? = s.result? := by
  unfold status
  cases s.fault? <;> cases s.result? <;> rfl

@[simp] theorem fault?_status (s : Session) : s.status.fault? = s.fault? := by
  unfold status
  cases s.fault? <;> cases s.result? <;> rfl

theorem inStep_iff : s.InStep ↔ s.runState =
    if s.fault?.isSome then .faulted else if s.result?.isSome then .halted else .running := by
  unfold InStep status
  cases s.fault? <;> cases s.result? <;> rfl

theorem InStep.of_same (h : s.InStep) (hstate : after.runState = s.runState)
    (hresult : after.result? = s.result?) (hfault : after.fault? = s.fault?) : after.InStep := by
  rw [inStep_iff] at h ⊢
  rw [hstate, hresult, hfault, h]

theorem InStep.of_running (h : s.InStep) (hrunning : s.runState = .running) :
    s.result? = none ∧ s.fault? = none := by
  rw [inStep_iff, hrunning] at h
  cases hfault : s.fault? <;> cases hresult : s.result? <;> simp_all

theorem InStep.halt (h : s.fault? = none) (v : Value) : (s.halt v).InStep := by
  simp [inStep_iff, Session.halt, h]

theorem inStep_fail (s : Session) (cause : Fault) : (s.fail cause).InStep := by
  simp [inStep_iff, fail]

theorem InStep.follow (h : s.InStep) (hrunning : s.runState = .running) (t : Transition) :
    (s.follow t).InStep := by
  cases t with
  | halt v =>
      rw [inStep_iff]
      simp [Session.follow, Session.halt, (h.of_running hrunning).2]
  | advance | enter | resume | stopped => exact h.of_same rfl rfl rfl

theorem InStep.step (h : s.InStep) : s.step.1.InStep := by
  cases hstep : s.step.2 with
  | ok t =>
      have hnext : s.next? = some s.step.1 := next?_eq_some_iff.mpr ⟨t, Prod.ext rfl hstep⟩
      rcases cases_of_next? hnext with
        ⟨-, hafter⟩ | ⟨hrunning, -, hafter⟩ | ⟨i, t', hrunning, -, -, -, hafter⟩
      · rwa [hafter]
      · rw [hafter]
        exact .halt (h.of_running hrunning).2 _
      · have hperformed : (s.performed i).InStep := h.of_same (by simp) (by simp) (by simp)
        rw [hafter]
        exact hperformed.follow (by rw [runState_performed, hrunning]) t'
  | error failure =>
      cases failure with
      | fault cause =>
          obtain ⟨i, -, -, -, -, hafter⟩ := advance_of_step_fault hstep
          rw [hafter]
          exact inStep_fail _ cause
      | numeral limit =>
          obtain ⟨i, hrunning, -⟩ := step_of_numeral hstep
          obtain ⟨-, hstate, hresult, hfault⟩ := keeps_of_step_numeral hstep
          exact h.of_same (hstate.trans hrunning.symm) hresult hfault

theorem InStep.check (h : s.InStep) : s.check.1.InStep := by
  unfold Session.check
  split
  · exact h
  · exact inStep_fail s _

theorem consistent_iff (h : s.InStep) : s.Consistent ↔ ¬ s.IsMixed := by
  rw [inStep_iff] at h
  unfold IsMixed
  constructor
  · rintro hconsistent ⟨hfault, hresult⟩
    rw [hfault, if_pos rfl] at h
    obtain ⟨-, hnone⟩ := hconsistent.faulted.mp h
    rw [hnone] at hresult
    cases hresult
  · intro hmixed
    constructor <;> cases hfault : s.fault? <;> cases hresult : s.result? <;> simp_all

end InStep

theorem obeyAll_concat (s : Session) (commands : List Command) (c : Command) :
    s.obeyAll (commands ++ [c]) = (s.obeyAll commands).obey c := by
  rw [obeyAll, List.foldl_append]
  rfl

theorem Reachable.obey (h : Reachable p size s) (c : Command) : Reachable p size (s.obey c) := by
  cases c with
  | step => exact h.step
  | run checked limit => exact h.run checked limit
  | check => exact h.check
  | setTracing on => exact h.setTracing on
  | clearTrace => exact h.clearTrace
  | reset => exact h.reset

theorem Reachable.obeyAll (h : Reachable p size s) (commands : List Command) :
    Reachable p size (s.obeyAll commands) := by
  induction commands generalizing s with
  | nil => exact h
  | cons c commands ih => exact ih (h.obey c)

theorem reachable_iff_exists_commands :
    Reachable p size s ↔ ∃ commands, (fresh p size).obeyAll commands = s := by
  constructor
  · intro h
    have hlast {u : Session} (c : Command)
        (hu : ∃ commands, (fresh p size).obeyAll commands = u) :
        ∃ commands, (fresh p size).obeyAll commands = u.obey c := by
      obtain ⟨commands, rfl⟩ := hu
      exact ⟨commands ++ [c], obeyAll_concat _ _ _⟩
    induction h with
    | fresh => exact ⟨[], rfl⟩
    | step _ ih => exact hlast .step ih
    | check _ ih => exact hlast .check ih
    | setTracing on _ ih => exact hlast (.setTracing on) ih
    | clearTrace _ ih => exact hlast .clearTrace ih
    | reset _ ih => exact hlast .reset ih
  · rintro ⟨commands, rfl⟩
    exact Reachable.fresh.obeyAll commands

section Check

theorem check_of_ok (h : s.program.check = .ok ()) : s.check = (s, .ok ()) := by
  simp only [check, h]

theorem check_of_error {cause : Fault} (h : s.program.check = .error cause) :
    s.check = (s.fail cause, .error cause) := by
  simp only [check, h]

theorem fst_run (s : Session) (checked : Bool) (limit : Nat) :
    (s.run checked limit).1 = ((if checked then s.check.1 else s).runSteps limit).1 := by
  cases checked with
  | false => rfl
  | true =>
      cases hcheck : s.program.check with
      | ok =>
          simp only [run, check_of_ok hcheck, if_true]
      | error cause =>
          have hfinished : (s.fail cause).runState.isFinished = true := rfl
          simp only [run, check_of_error hcheck, if_true]
          cases limit <;> simp only [runSteps, hfinished, if_true]

end Check

theorem isFinished_iff {state : RunState} : state.isFinished = true ↔ state ≠ .running := by
  cases state <;> simp [RunState.isFinished]

theorem runSteps_of_finished (h : s.runState ≠ .running) (limit : Nat) :
    s.runSteps limit = (s, .ok ()) := by
  have hfinished := isFinished_iff.mpr h
  cases limit <;> simp only [runSteps, hfinished, if_true]

theorem runSteps_succ (h : s.runState = .running) (limit : Nat) :
    (s.runSteps (limit + 1)).1 = s.step.1 ∨
      (s.runSteps (limit + 1)).1 = (s.step.1.runSteps limit).1 := by
  have hfinished : ¬ s.runState.isFinished = true := by
    rw [h]
    exact Bool.false_ne_true
  rw [runSteps, if_neg hfinished]
  split
  · rename_i after t hstep
    rw [hstep]
    exact .inr rfl
  · rename_i after failure hstep
    rw [hstep]
    exact .inl rfl

/-- Every command keeps the run state in step with the result and the fault. -/
theorem InStep.obey (h : s.InStep) (c : Command) : (s.obey c).InStep := by
  cases c with
  | step => exact h.step
  | run checked limit =>
      rw [Session.obey, fst_run]
      refine runSteps_invariant (fun hu => hu.step) ?_ limit
      split
      · exact h.check
      · exact h
  | check => exact h.check
  | setTracing | clearTrace => exact h
  | reset => rfl

theorem Reachable.inStep (h : Reachable p size s) : s.InStep := by
  obtain ⟨commands, rfl⟩ := reachable_iff_exists_commands.mp h
  exact List.foldlRecOn commands Session.obey rfl fun u hu c _ => hu.obey c

theorem not_isMixed_step (h : s.InStep) (hrunning : s.runState = .running) :
    ¬ s.step.1.IsMixed := by
  obtain ⟨hnone, hunfaulted⟩ := h.of_running hrunning
  rintro ⟨hfault, hresult⟩
  cases hstep : s.step.2 with
  | ok t =>
      rw [fault?_of_step_ok hstep, hunfaulted] at hfault
      cases hfault
  | error failure =>
      cases failure with
      | fault cause =>
          rw [(stopped_of_step_fault hstep).2.2, hnone] at hresult
          cases hresult
      | numeral limit =>
          rw [(keeps_of_step_numeral hstep).2.2.2, hunfaulted] at hfault
          cases hfault

theorem isMixed_step_iff (h : s.InStep) : s.step.1.IsMixed ↔ s.IsMixed := by
  by_cases hrunning : s.runState = .running
  · refine iff_of_false (not_isMixed_step h hrunning) ?_
    rintro ⟨hfault, -⟩
    rw [(h.of_running hrunning).2] at hfault
    cases hfault
  · rw [step_of_finished hrunning]

theorem isMixed_runSteps_iff (h : s.InStep) (limit : Nat) :
    (s.runSteps limit).1.IsMixed ↔ s.IsMixed := by
  induction limit generalizing s with
  | zero =>
      unfold runSteps
      split <;> rfl
  | succ limit ih =>
      by_cases hrunning : s.runState = .running
      · rcases runSteps_succ hrunning limit with hstop | hgo
        · rw [hstop, isMixed_step_iff h]
        · rw [hgo, ih h.step, isMixed_step_iff h]
      · rw [runSteps_of_finished hrunning]

theorem isSome_result?_iff (h : s.InStep) :
    s.result?.isSome = true ↔ s.runState = .halted ∨ s.IsMixed := by
  rw [inStep_iff] at h
  unfold IsMixed
  cases hfault : s.fault? <;> cases hresult : s.result? <;> simp_all

theorem isMixed_check_iff (h : s.InStep) :
    s.check.1.IsMixed ↔ s.IsMixed ∨ s.program.check ≠ .ok () ∧ s.runState = .halted := by
  cases hcheck : s.program.check with
  | ok =>
      rw [check_of_ok hcheck]
      simp
  | error cause =>
      have hmixed : (s.fail cause).IsMixed ↔ s.result?.isSome = true := by simp [IsMixed, fail]
      rw [check_of_error hcheck, hmixed, isSome_result?_iff h]
      simp [or_comm]

/-- A fault comes beside a result only by a failing check of a halted session, and both go only by a
reset. -/
theorem isMixed_obey_iff (h : s.InStep) (c : Command) :
    (s.obey c).IsMixed ↔
      s.IsMixed ∧ c ≠ .reset ∨
        c.checks = true ∧ s.program.check ≠ .ok () ∧ s.runState = .halted := by
  cases c with
  | step => simp [obey, Command.checks, isMixed_step_iff h]
  | run checked limit =>
      rw [obey, fst_run]
      cases checked with
      | false => simp [Command.checks, isMixed_runSteps_iff h]
      | true => simp [Command.checks, isMixed_runSteps_iff h.check, isMixed_check_iff h]
  | check => simp [obey, Command.checks, isMixed_check_iff h]
  | setTracing on => simp [obey, Command.checks, setTracing, IsMixed]
  | clearTrace => simp [obey, Command.checks, clearTrace, IsMixed]
  | reset => simp [obey, Command.checks, reset, IsMixed]

/-- One of the commands is as `P` says of it and the commands before it, and none behind it resets
the session. -/
def SinceReset (P : List Command → Command → Prop) (commands : List Command) : Prop :=
  ∃ before c behind, commands = before ++ c :: behind ∧ P before c ∧ .reset ∉ behind

theorem sinceReset_concat_iff {P : List Command → Command → Prop} {commands : List Command}
    {c : Command} :
    SinceReset P (commands ++ [c]) ↔ SinceReset P commands ∧ c ≠ .reset ∨ P commands c := by
  constructor
  · rintro ⟨before, d, behind, hsplit, hd, hreset⟩
    rcases behind.eq_nil_or_concat with rfl | ⟨behind, last, rfl⟩
    · obtain ⟨rfl, hlast⟩ := List.append_inj' hsplit rfl
      cases hlast
      exact .inr hd
    · rw [List.concat_eq_append] at hsplit hreset
      rw [← List.cons_append, ← List.append_assoc] at hsplit
      obtain ⟨rfl, hlast⟩ := List.append_inj' hsplit rfl
      cases hlast
      simp only [List.mem_append, List.mem_singleton, not_or] at hreset
      exact .inl ⟨⟨before, d, behind, rfl, hd, hreset.1⟩, Ne.symm hreset.2⟩
  · rintro (⟨⟨before, d, behind, rfl, hd, hreset⟩, hc⟩ | hc)
    · refine ⟨before, d, behind ++ [c], by simp, hd, ?_⟩
      simp only [List.mem_append, List.mem_singleton, not_or]
      exact ⟨hreset, Ne.symm hc⟩
    · exact ⟨commands, c, [], rfl, hc, List.not_mem_nil⟩

/-- One of the commands checks the session when it has halted, and none after it resets it. -/
def CheckedLate (s : Session) (commands : List Command) : Prop :=
  ∃ before c behind, commands = before ++ c :: behind ∧ c.checks = true ∧
    (s.obeyAll before).runState = .halted ∧ .reset ∉ behind

theorem checkedLate_iff_sinceReset {commands : List Command} :
    s.CheckedLate commands ↔ SinceReset (fun before c =>
      c.checks = true ∧ (s.obeyAll before).runState = .halted) commands := by
  simp only [CheckedLate, SinceReset, and_assoc]

theorem checkedLate_concat_iff {commands : List Command} {c : Command} :
    s.CheckedLate (commands ++ [c]) ↔
      s.CheckedLate commands ∧ c ≠ .reset ∨
        c.checks = true ∧ (s.obeyAll commands).runState = .halted := by
  rw [checkedLate_iff_sinceReset, checkedLate_iff_sinceReset, sinceReset_concat_iff]

theorem isMixed_obeyAll_iff (commands : List Command) :
    ((fresh p size).obeyAll commands).IsMixed ↔
      p.check ≠ .ok () ∧ (fresh p size).CheckedLate commands := by
  induction commands using List.reverseRecOn with
  | nil => simp [obeyAll, fresh, IsMixed, CheckedLate]
  | append_singleton commands c ih =>
      have hreach : Reachable p size ((fresh p size).obeyAll commands) :=
        Reachable.fresh.obeyAll commands
      rw [obeyAll_concat, isMixed_obey_iff hreach.inStep, hreach.program, ih,
        checkedLate_concat_iff]
      tauto

theorem runState_check_of_finished (h : s.runState ≠ .running) : s.check.1.runState ≠ .running := by
  cases hcheck : s.program.check with
  | ok => rwa [check_of_ok hcheck]
  | error cause =>
      rw [check_of_error hcheck]
      exact fun hrunning => by cases hrunning

theorem untraced_obey_of_finished (h : s.runState ≠ .running) {c : Command} (hc : c ≠ .reset) :
    (s.obey c).untraced = (if c.checks then s.check.1 else s).untraced := by
  cases c with
  | step =>
      rw [obey, step_of_finished h]
      rfl
  | run checked limit =>
      have hstart : (if checked then s.check.1 else s).runState ≠ .running := by
        split
        · exact runState_check_of_finished h
        · exact h
      rw [obey, fst_run, runSteps_of_finished hstart]
      rfl
  | check => rfl
  | setTracing on => rfl
  | clearTrace => rfl
  | reset => exact absurd rfl hc

theorem untraced_fail_iff (h : s.InStep) {cause : Fault} :
    (s.fail cause).untraced = s.untraced ↔ s.fault? = some cause := by
  constructor
  · intro hsame
    change s.untraced.fault? = some cause
    rw [← hsame]
    rfl
  · intro hfault
    have hstate : s.runState = .faulted := by
      rw [inStep_iff.mp h, hfault]
      rfl
    rw [fail, ← hfault, ← hstate]

/-- After any commands the run state, the result and the fault of a session agree, unless a program
that fails its check was checked when it had halted. A session that is finished is kept by every
command but a reset, unless a check fails for another cause than the session did. -/
theorem consistent_unless_checked_late {commands : List Command}
    (hs : (fresh p size).obeyAll commands = s) :
    (s.Consistent ↔ ¬ (p.check ≠ .ok () ∧ (fresh p size).CheckedLate commands)) ∧
      (s.runState ≠ .running → ∀ c, c ≠ .reset →
        ((s.obey c).untraced = s.untraced ↔ ¬ (c.checks = true ∧ ∃ cause,
          p.check = .error cause ∧ s.fault? ≠ some cause))) := by
  have hreach : Reachable p size s := hs ▸ Reachable.fresh.obeyAll commands
  constructor
  · rw [consistent_iff hreach.inStep, ← isMixed_obeyAll_iff, hs]
  · intro hfinished c hc
    rw [untraced_obey_of_finished hfinished hc, ← hreach.program]
    cases hchecks : c.checks with
    | false => simp
    | true =>
        cases hcheck : s.program.check with
        | ok => simp [check_of_ok hcheck]
        | error cause => simp [check_of_error hcheck, untraced_fail_iff hreach.inStep]

/-- Ends before it comes to a jump that has no target. -/
def unusedJump : Program where
  code := [.ret (.literal (.integer 1)), .jump "f"]
  lineNumbers := [1, 2]

theorem unusedJump_checked_late : ∃ s, (fresh unusedJump 1).obeyAll [.run false 1] = s ∧
    s.runState ≠ .running ∧ Command.check ≠ .reset ∧
      (s.Consistent ↔
        ¬ (unusedJump.check ≠ .ok () ∧ (fresh unusedJump 1).CheckedLate [.run false 1])) ∧
      ((s.obey .check).untraced = s.untraced ↔ ¬ (Command.check.checks = true ∧ ∃ cause,
        unusedJump.check = .error cause ∧ s.fault? ≠ some cause)) := by
  have hfinished : ((fresh unusedJump 1).obeyAll [.run false 1]).runState ≠ .running := by decide
  have hcommand : Command.check ≠ .reset := by decide
  obtain ⟨s, hs⟩ : ∃ s, (fresh unusedJump 1).obeyAll [.run false 1] = s := ⟨_, rfl⟩
  rw [hs] at hfinished
  have h := consistent_unless_checked_late hs
  exact ⟨s, hs, hfinished, hcommand, h.1, h.2 hfinished .check hcommand⟩

theorem checked_late_inconsistent :
    ¬ ∀ (p : Program) (size : Nat) (commands : List Command) (s : Session), 0 < size →
      (fresh p size).obeyAll commands = s → s.Consistent ∧
        (s.runState ≠ .running → ∀ c, c ≠ .reset → (s.obey c).untraced = s.untraced) := by
  intro h
  have hlate := (h unusedJump 1 [.run false 1, .check] _ Nat.one_pos rfl).1
  have hreach : Reachable unusedJump 1 ((fresh unusedJump 1).obeyAll [.run false 1, .check]) :=
    Reachable.fresh.obeyAll _
  rw [consistent_iff hreach.inStep] at hlate
  exact hlate (by unfold IsMixed; decide)

end Session

end TriReg
