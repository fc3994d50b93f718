import TriReg.Proofs.Commands

namespace TriReg

theorem eq_tooLarge_of_checkStackSize {n : Int} {e : StackSizeError} (hn : 0 < n)
    (h : checkStackSize n = .error e) : e = .tooLarge := by
  rw [checkStackSize, if_neg (by omega)] at h
  split at h
  · exact (Except.error.inj h).symm
  · cases h

namespace Session

variable {p : Program} {size limit : Nat} {s after : Session}

theorem Reachable.exists_step_of_runSteps {failure : Failure} (h : Reachable p size s)
    (hrun : s.runSteps limit = (after, .error (.failure failure))) :
    ∃ u, Reachable p size u ∧ u.step = (after, .error failure) := by
  induction limit generalizing s with
  | zero =>
      unfold Session.runSteps at hrun
      split at hrun <;> cases hrun
  | succ limit ih =>
      unfold Session.runSteps at hrun
      split at hrun
      · cases hrun
      · have hnext := h.step
        split at hrun
        · rename_i u t hstep
          rw [hstep] at hnext
          exact ih hnext hrun
        · rename_i u failure' hstep
          cases hrun
          exact ⟨s, h, hstep⟩

theorem exists_fresh_of_ofSource {source : String} {n : Int} (h : ofSource source n = .ok s) :
    ∃ p size, Program.load source = .ok p ∧ checkStackSize n = .ok size ∧ s = fresh p size := by
  unfold ofSource at h
  split at h
  · cases h
  · rename_i p hload
    split at h
    · cases h
    · rename_i start hstart
      cases h
      obtain ⟨size, hsize, rfl⟩ := map_eq_ok_iff.mp hstart
      exact ⟨p, size, hload, hsize, rfl⟩

theorem load_of_ofSource {source : String} {n : Int} {e : SourceError}
    (h : ofSource source n = .error (.source e)) : Program.load source = .error e := by
  unfold ofSource at h
  split at h
  · rename_i e' hload
    cases h
    exact hload
  · split at h <;> cases h

theorem checkStackSize_of_ofSource {source : String} {n : Int} {e : StackSizeError}
    (h : ofSource source n = .error (.stackSize e)) :
    ∃ p, Program.load source = .ok p ∧ checkStackSize n = .error e := by
  unfold ofSource at h
  split at h
  · cases h
  · rename_i p hload
    split at h
    · rename_i e' hstart
      cases h
      exact ⟨p, hload, map_eq_error_iff.mp hstart⟩
    · cases h

theorem run_of_check_error {cause : Fault} (hcheck : s.program.check = .error cause) :
    s.run true limit = (s.fail cause, .error (.failure (.fault cause))) := by
  simp only [run, if_true, check_of_error hcheck]

theorem check_of_run {checked : Bool} {result : Except Stop (Option Int)}
    (hrun : s.run checked limit = (after, result))
    (hresult : ∀ cause, result ≠ .error (.failure (.fault cause))) :
    checked = true → s.program.check = .ok () := by
  rintro rfl
  cases hcheck : s.program.check with
  | ok => rfl
  | error cause =>
      rw [run_of_check_error hcheck] at hrun
      cases hrun
      exact absurd rfl (hresult cause)

theorem run_of_check_ok {checked : Bool} (hcheck : checked = true → s.program.check = .ok ()) :
    s.run checked limit = ((s.runSteps limit).1,
      (s.runSteps limit).2.map fun () => (s.runSteps limit).1.exitCode?) := by
  have hstart : (if checked then s.check else (s, .ok ())) = (s, .ok ()) := by
    cases checked with
    | false => rfl
    | true => exact check_of_ok (hcheck rfl)
  rw [run, hstart]

theorem runSteps_of_run {checked : Bool} {result : Except Stop (Option Int)}
    (hcheck : checked = true → s.program.check = .ok ())
    (hrun : s.run checked limit = (after, result)) :
    ∃ ended, s.runSteps limit = (after, ended) ∧ result = ended.map fun () => after.exitCode? := by
  rw [run_of_check_ok hcheck] at hrun
  cases hrun
  exact ⟨_, rfl, rfl⟩

theorem halted_of_finished (h : s.InStep) (hfinished : s.runState.isFinished = true)
    (hs : s.fault? = none) :
    s.runState = .halted ∧ s.fault? = none ∧ ∃ v, s.result? = some v := by
  rw [inStep_iff, hs] at h
  cases hresult : s.result? with
  | none =>
      rw [hresult] at h
      rw [h] at hfinished
      cases hfinished
  | some v =>
      rw [hresult] at h
      exact ⟨h, hs, v, rfl⟩

theorem halted_of_runSteps (h : s.InStep) (hs : s.fault? = none)
    (hrun : s.runSteps limit = (after, .ok ())) :
    after.runState = .halted ∧ after.fault? = none ∧ ∃ v, after.result? = some v := by
  induction limit generalizing s with
  | zero =>
      unfold runSteps at hrun
      split at hrun
      · rename_i hfinished
        cases hrun
        exact halted_of_finished h hfinished hs
      · cases hrun
  | succ limit ih =>
      unfold runSteps at hrun
      split at hrun
      · rename_i hfinished
        cases hrun
        exact halted_of_finished h hfinished hs
      · split at hrun
        · rename_i u t hstep
          have hnext := fault?_of_step_ok (congrArg Prod.snd hstep)
          have hinstep := h.step
          rw [hstep] at hnext hinstep
          exact ih hinstep (hnext.trans hs) hrun
        · cases hrun

/-- The session has not been reset since it printed its first line. -/
def PrintsAll (s : Session) : Prop := s.output = s.printed

theorem PrintsAll.record (h : s.PrintsAll) (line : String) : (s.record line).PrintsAll := by
  rw [PrintsAll, output_record, printed_record]
  exact h

theorem PrintsAll.print (h : s.PrintsAll) (line? : Option String) :
    (s.print line?).PrintsAll := by
  cases line? with
  | none => exact h
  | some line => exact congrArg (·.push line) h

theorem PrintsAll.performed (h : s.PrintsAll) (i : Instruction) : (s.performed i).PrintsAll := by
  have hrecorded (m : Machine) :
      PrintsAll { s.record (traceLine s.pc.toNat i s.machine.registers) with machine := m } :=
    h.record _
  exact (hrecorded _).print _

theorem PrintsAll.advance (h : s.PrintsAll) (i : Instruction) : (s.advance i).1.PrintsAll := by
  cases hresult : (s.machine.perform s.program s.pc i).result with
  | ok t =>
      rw [advance_of_ok hresult]
      cases t <;> exact h.performed i
  | error failure =>
      cases failure with
      | fault cause =>
          rw [advance_of_fault hresult]
          exact (h.performed i).record _
      | numeral limit =>
          rw [advance_of_numeral hresult]
          exact h.performed i

theorem PrintsAll.step (h : s.PrintsAll) : s.step.1.PrintsAll := by
  rcases s.cases_of_step with ⟨-, hstep⟩ | ⟨-, -, hstep⟩ | ⟨i, -, -, ⟨-, hstep⟩ | ⟨-, hstep⟩⟩
  · rwa [hstep]
  · rw [hstep]
    exact h
  · rwa [hstep]
  · rw [hstep]
    exact h.advance i

theorem PrintsAll.runSteps (h : s.PrintsAll) (limit : Nat) : (s.runSteps limit).1.PrintsAll :=
  runSteps_invariant PrintsAll.step h limit

theorem PrintsAll.check (h : s.PrintsAll) : s.check.1.PrintsAll := by
  unfold Session.check
  split <;> exact h

theorem PrintsAll.obey {c : Command} (h : s.PrintsAll) (hc : c ≠ .reset) :
    (s.obey c).PrintsAll := by
  cases c with
  | step => exact h.step
  | run checked limit =>
      rw [Session.obey, fst_run]
      cases checked with
      | false => exact h.runSteps limit
      | true => exact h.check.runSteps limit
  | check => exact h.check
  | setTracing | clearTrace => exact h
  | reset => exact absurd rfl hc

theorem PrintsAll.obeyAll {commands : List Command} (h : s.PrintsAll)
    (hreset : .reset ∉ commands) : (s.obeyAll commands).PrintsAll := by
  induction commands generalizing s with
  | nil => exact h
  | cons c commands ih =>
      obtain ⟨hc, hcommands⟩ := List.ne_and_not_mem_of_not_mem_cons hreset
      exact ih (h.obey (Ne.symm hc)) hcommands

end Session

end TriReg
