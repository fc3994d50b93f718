import TriReg.Proofs.Block

namespace TriReg

/-- The frame is as the call or the jump opens it that stands before its return position. -/
def Program.Opened (p : Program) (frame : Frame) : Prop :=
  ∃ i label, p.fetch (frame.returnPc - 1) = some i ∧ i.branchTarget? = some label ∧
    frame.viaJump = i.isJump ∧ frame.dest = i.returnDest?

theorem Program.Opened.exists_call {p : Program} {frame : Frame} {dest : Address}
    (h : p.Opened frame) (hdest : frame.dest = some dest) :
    frame.viaJump = false ∧ ∃ label, .call (some dest) label ∈ p.code := by
  obtain ⟨i, label, hfetch, htarget, hjump, hreturn⟩ := h
  rw [hdest] at hreturn
  cases i with
  | call dest' label =>
      have hsame : some dest = dest' := hreturn
      subst hsame
      exact ⟨hjump, label, mem_of_fetch hfetch⟩
  | jump => cases hreturn
  | _ => cases htarget

namespace Machine

theorem opened_branchFrame {p : Program} {pc : Int} {i : Instruction} {label : String}
    (m : Machine) (hfetch : p.fetch pc = some i) (htarget : i.branchTarget? = some label) :
    p.Opened (m.branchFrame pc i) := by
  refine ⟨i, label, ?_, htarget, rfl, rfl⟩
  change p.fetch (pc + 1 - 1) = some i
  rw [Int.add_sub_cancel]
  exact hfetch

theorem opened_of_mem_frames_perform {p : Program} {m : Machine} {pc : Int} {i : Instruction}
    (hfetch : p.fetch pc = some i) (h : ∀ frame ∈ m.frames, p.Opened frame) :
    ∀ frame ∈ (m.perform p pc i).machine.frames, p.Opened frame := by
  have hperformed := m.performed_perform p pc i
  generalize m.perform p pc i = outcome at hperformed
  cases hperformed with
  | plain hplain hexecute =>
      rw [frames_of_execute hplain hexecute]
      exact h
  | refused | unreadable | exit | exitLeave => exact h
  | enter htarget | lost htarget =>
      exact List.forall_mem_cons.mpr ⟨opened_branchFrame m hfetch htarget, h⟩
  | resume hframes hresumed =>
      rw [frames_of_resumed hresumed]
      rw [hframes] at h
      exact (List.forall_mem_cons.mp h).2
  | undelivered hframes | mismatched hframes | unnamed hframes =>
      rw [hframes] at h
      exact (List.forall_mem_cons.mp h).2

end Machine

namespace Session

inductive Reachable (p : Program) (size : Nat) : Session → Prop
  | fresh : Reachable p size (fresh p size)
  | step {s} (h : Reachable p size s) : Reachable p size s.step.1
  | check {s} (h : Reachable p size s) : Reachable p size s.check.1
  | setTracing {s} (on : Bool) (h : Reachable p size s) : Reachable p size (s.setTracing on)
  | clearTrace {s} (h : Reachable p size s) : Reachable p size s.clearTrace
  | reset {s} (h : Reachable p size s) : Reachable p size s.reset

variable {p : Program} {size : Nat} {s after : Session}

theorem machine_check (s : Session) : s.check.1.machine = s.machine := by
  unfold check
  split <;> rfl

theorem program_check (s : Session) : s.check.1.program = s.program := by
  unfold check
  split <;> rfl

theorem runSteps_invariant {P : Session → Prop} (hstep : ∀ {u : Session}, P u → P u.step.1)
    (hs : P s) (limit : Nat) : P (s.runSteps limit).1 := by
  induction limit generalizing s with
  | zero =>
      unfold runSteps
      split <;> exact hs
  | succ limit ih =>
      unfold runSteps
      split
      · exact hs
      · have hnext := hstep hs
        split
        · rename_i u t heq
          rw [heq] at hnext
          exact ih hnext
        · rename_i u failure heq
          rw [heq] at hnext
          exact hnext

namespace Reachable

theorem next? (h : Reachable p size s) (hnext : s.next? = some after) :
    Reachable p size after := by
  obtain ⟨t, hstep⟩ := next?_eq_some_iff.mp hnext
  have hafter := h.step
  rw [hstep] at hafter
  exact hafter

theorem after? {n : Nat} (h : Reachable p size s) (hrun : s.after? n = some after) :
    Reachable p size after :=
  after?_induction h (fun hu hnext => hu.next? hnext) hrun

theorem runSteps (h : Reachable p size s) (limit : Nat) :
    Reachable p size (s.runSteps limit).1 :=
  runSteps_invariant (fun hu => hu.step) h limit

theorem run (h : Reachable p size s) (checked : Bool) (limit : Nat) :
    Reachable p size (s.run checked limit).1 := by
  have hstart : Reachable p size (if checked then s.check else (s, .ok ())).1 := by
    split
    · exact h.check
    · exact h
  unfold Session.run
  split
  · rename_i heq
    rw [heq] at hstart
    exact hstart
  · rename_i heq
    rw [heq] at hstart
    exact hstart.runSteps limit

/-- What holds of a new machine and is kept by every instruction of the program holds of the machine
of every reachable session. -/
theorem machine_invariant {P : Machine → Prop} (hfresh : P (.fresh size))
    (hperform : ∀ m pc i, p.fetch pc = some i → P m → P (m.perform p pc i).machine)
    (h : Reachable p size s) : s.program = p ∧ s.machine.stack.size = size ∧ P s.machine := by
  induction h with
  | fresh => exact ⟨rfl, Machine.size_fresh size, hfresh⟩
  | @step s h ih =>
      obtain ⟨rfl, hsize, hinvariant⟩ := ih
      rcases s.machine_step with hsame | ⟨i, hfetch, hmachine⟩
      · rw [hsame]
        exact ⟨program_step s, hsize, hinvariant⟩
      · rw [hmachine, Machine.size_perform]
        exact ⟨program_step s, hsize, hperform _ _ i hfetch hinvariant⟩
  | check h ih =>
      rw [machine_check, program_check]
      exact ih
  | setTracing on h ih => exact ih
  | clearTrace h ih => exact ih
  -- A reset makes a new machine, so the invariant holds again by `hfresh`.
  | @reset s h ih =>
      obtain ⟨hprogram, hsize, -⟩ := ih
      refine ⟨hprogram, ?_⟩
      change s.machine.reset.stack.size = size ∧ P s.machine.reset
      rw [Machine.reset, hsize]
      exact ⟨Machine.size_fresh size, hfresh⟩

theorem program (h : Reachable p size s) : s.program = p :=
  (h.machine_invariant (P := fun _ => True) trivial fun _ _ _ _ _ => trivial).1

theorem size_stack (h : Reachable p size s) : s.machine.stack.size = size :=
  (h.machine_invariant (P := fun _ => True) trivial fun _ _ _ _ _ => trivial).2.1

theorem opened (h : Reachable p size s) : ∀ frame ∈ s.machine.frames, p.Opened frame :=
  (h.machine_invariant (P := fun m => ∀ frame ∈ m.frames, p.Opened frame) (by simp [Machine.fresh])
    fun _ _ _ hfetch => Machine.opened_of_mem_frames_perform hfetch).2.2

end Reachable

end Session

end TriReg
