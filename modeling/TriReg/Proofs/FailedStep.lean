import TriReg.Proofs.DataFailure
import TriReg.Proofs.Reachable

namespace TriReg

namespace Machine

/-- What the instruction that stands at `pc` leaves of the machine when it fails for a cause. -/
inductive LeftBy (m : Machine) (pc : Int) : Instruction → Fault → Machine → Prop
  | opened {i label} (htarget : i.branchTarget? = some label) :
      LeftBy m pc i (.labelNotFound label) (m.pushFrame (m.branchFrame pc i))
  | closed {frame frames dest} (hframes : m.frames = frame :: frames)
      (hdest : frame.dest = some dest) : LeftBy m pc .leave (.valueExpected dest) { m with frames }
  | undelivered {operand v frame frames dest cause} (hframes : m.frames = frame :: frames)
      (hdest : frame.dest = some dest) (hget : m.get operand = .ok v)
      (hset : { m with registers := frame.saved, frames }.set dest v = .error (.fault cause)) :
      LeftBy m pc (.ret operand) cause { m with registers := frame.saved, frames }
  -- In particular when the operand of a `ret` cannot be read.
  | unchanged {i cause} (hcause : (Failure.fault cause).isControl = false)
      (hret : ∀ operand v, i = .ret operand → m.get operand ≠ .ok v) : LeftBy m pc i cause m

variable {m after : Machine} {p : Program} {pc : Int} {i : Instruction} {cause : Fault}

theorem stack_of_leftBy (h : m.LeftBy pc i cause after) : after.stack = m.stack := by
  cases h <;> rfl

theorem popFrame_of_viaJump_eq_false {frame : Frame} (frames : List Frame)
    (h : frame.viaJump = false) :
    m.popFrame frame frames = { m with registers := frame.saved, frames } := by
  simp [popFrame, unwind, h]

theorem leftBy_perform
    (hrestore : ∀ frame ∈ m.frames, ∀ dest, frame.dest = some dest → frame.viaJump = false)
    (h : (m.perform p pc i).result = .error (.fault cause)) :
    m.LeftBy pc i cause (m.perform p pc i).machine := by
  have hperformed := m.performed_perform p pc i
  generalize m.perform p pc i = outcome at h hperformed
  cases hperformed with
  | refused hplain hexecute =>
      cases h
      refine .unchanged (isControl_of_execute hexecute) ?_
      rintro operand v rfl
      cases hplain
  | lost htarget =>
      cases h
      exact .opened htarget
  | unreadable hget =>
      cases h
      refine .unchanged (isControl_of_get hget) ?_
      rintro operand v heq hread
      cases heq
      rw [hget] at hread
      cases hread
  | @undelivered operand v frame frames dest failure hframes hdest hget hset =>
      cases h
      have hframe : frame ∈ m.frames := by simp [hframes]
      rw [popFrame_of_viaJump_eq_false frames (hrestore frame hframe dest hdest)] at hset ⊢
      exact .undelivered hframes hdest hget hset
  | mismatched hframes hdest =>
      cases h
      exact .closed hframes hdest
  | plain | enter | exit | exitLeave | resume | unnamed => cases h

theorem printed_of_perform_error {failure : Failure}
    (h : (m.perform p pc i).result = .error failure) : (m.perform p pc i).printed = none := by
  have hperformed := m.performed_perform p pc i
  generalize m.perform p pc i = outcome at h hperformed
  cases hperformed with
  | refused | lost | unreadable | undelivered | mismatched | unnamed => rfl
  | plain | enter | exit | exitLeave | resume => cases h

end Machine

namespace Session

/-- A step that fails for a fault keeps all but the run state and the fault, and of the machine all
but what `Machine.LeftBy` says. -/
theorem state_left_by_fault {p : Program} {size : Nat} {s : Session} {cause : Fault}
    (hreach : Reachable p size s) (hfault : s.step.2 = .error (.fault cause)) :
    s.step.1.pc = s.pc ∧ s.step.1.steps = s.steps ∧
      s.step.1.result? = s.result? ∧ s.step.1.output = s.output ∧
      s.step.1.printed = s.printed ∧ s.step.1.machine.stack = s.machine.stack ∧
      ∃ i, s.program.fetch s.pc = some i ∧ s.machine.LeftBy s.pc i cause s.step.1.machine := by
  obtain ⟨i, -, hfetch, -, hresult, hafter⟩ := advance_of_step_fault hfault
  have hprinted := Machine.printed_of_perform_error hresult
  have hleft : s.machine.LeftBy s.pc i cause s.step.1.machine := by
    have hmachine : s.step.1.machine = (s.machine.perform s.program s.pc i).machine := by
      simp [hafter, fail]
    rw [hmachine]
    refine Machine.leftBy_perform ?_ hresult
    intro frame hframe dest hdest
    exact ((hreach.opened frame hframe).exists_call hdest).1
  refine ⟨?_, ?_, ?_, ?_, ?_, Machine.stack_of_leftBy hleft, i, hfetch, hleft⟩
  all_goals
    rw [hafter]
    simp [fail, performed, hprinted, print]

/-- The value of a call goes to a slot that there is not. -/
def lostValue : Program where
  code := [.call (some (.slot 9)) "f", .label "f", .move (.register .rbx) (.literal (.integer 7)),
    .ret (.address (.register .rbx))]
  lineNumbers := List.range' 1 4

theorem lostValue_left_by_fault : ∃ s, Reachable lostValue 4 s ∧
    s.step.2 = .error (.fault (.outOfReach .write (.slot 9))) ∧ s.step.1.pc = s.pc ∧
      s.step.1.steps = s.steps ∧ s.step.1.result? = s.result? ∧
      s.step.1.output = s.output ∧ s.step.1.printed = s.printed ∧
      s.step.1.machine.stack = s.machine.stack ∧ ∃ i, s.program.fetch s.pc = some i ∧
        s.machine.LeftBy s.pc i (.outOfReach .write (.slot 9)) s.step.1.machine := by
  have hfails : ((fresh lostValue 4).after? 3).map (fun s => s.step.2) =
      some (.error (.fault (.outOfReach .write (.slot 9)))) := by decide +kernel
  obtain ⟨s, hrun, hfault⟩ := Option.map_eq_some_iff.mp hfails
  have hreach := Reachable.fresh.after? hrun
  exact ⟨s, hreach, hfault, state_left_by_fault hreach hfault⟩

end Session

end TriReg
