import TriReg.Proofs.Step

namespace TriReg

namespace Failure

/-- The failure is about places and values. -/
def isData : Failure → Bool
  | .fault (.outOfReach ..) | .fault .registerPosition | .fault .doubleIndirection
  | .fault (.incompatible ..) | .fault (.unsubtractable ..) | .fault (.notText _)
  | .numeral _ => true
  | _ => false

/-- The failure is about labels, frames or blocks. -/
def isControl : Failure → Bool
  | .fault (.labelNotFound _) | .fault (.valueExpected _) | .fault (.unterminated ..) => true
  | _ => false

theorem isControl_of_isData {failure : Failure} (h : failure.isData = true) :
    failure.isControl = false := by
  unfold isData at h
  split at h <;> first | rfl | cases h

theorem isData_outOfReach (access : Access) (location : Location) :
    (outOfReach access location).isData = true := by
  cases location with
  | slot index => cases hwritable : Numeral.writable index <;> simp [outOfReach, hwritable, isData]
  | value v => rfl

end Failure

theorem Operation.isData_of_apply {operation : Operation} {v w : Value} {cause : Fault}
    (h : operation.apply v w = .error cause) : (Failure.fault cause).isData = true := by
  cases operation with
  | add =>
      simp only [apply, Value.add, Value.movePointer] at h
      split at h
      · cases h
      · split at h
        · split at h <;> cases h
          rfl
        · cases h
          rfl
      · split at h <;> cases h
        rfl
      · cases h
        rfl
      · cases h
  | subtract =>
      simp only [apply, Value.sub] at h
      split at h <;> cases h
      rfl

namespace Machine

variable {m : Machine} {access : Access} {failure : Failure}

theorem isData_of_slotIndex {v : Value} (h : m.slotIndex access v = .error failure) :
    failure.isData = true := by
  unfold slotIndex at h
  split at h
  · split at h
    · cases h
    · exact Except.error.inj h ▸ Failure.isData_outOfReach _ _
  · split at h
    · cases h
    · exact Except.error.inj h ▸ Failure.isData_outOfReach _ _
  · cases h
    rfl
  · cases h
    rfl
  · exact Except.error.inj h ▸ Failure.isData_outOfReach _ _

theorem isData_of_cell {place : Address} (h : m.cell access place = .error failure) :
    failure.isData = true := by
  induction place generalizing access failure with
  | register r => cases h
  | slot index =>
      unfold cell at h
      split at h
      · cases h
      · exact Except.error.inj h ▸ Failure.isData_outOfReach _ _
  | reference target ih =>
      rcases cell_reference_eq_error_iff.mp h with ⟨inner, rfl, rfl⟩ | ⟨-, h | ⟨pointer, -, h⟩⟩
      · rfl
      · exact ih h
      · exact isData_of_slotIndex h

theorem isData_of_get {operand : Operand} (h : m.get operand = .error failure) :
    failure.isData = true := by
  cases operand with
  | literal v => cases h
  | address place => exact isData_of_cell (map_eq_error_iff.mp h)

theorem isData_of_set {dest : Address} {v : Value} (h : m.set dest v = .error failure) :
    failure.isData = true :=
  isData_of_cell (map_eq_error_iff.mp h)

theorem isData_of_printedLine {cause : Fault} (h : m.printedLine = .error cause) :
    (Failure.fault cause).isData = true := by
  unfold printedLine at h
  split at h <;> cases h
  rfl

theorem isData_of_execute {pc : Int} {i : Instruction} (h : m.execute pc i = .error failure) :
    failure.isData = true ∨
      ∃ name, i = .syscall name ∧ name ≠ "printf" ∧ failure = .fault (.unknownSyscall name) := by
  cases refused_of_execute h with
  | source hfails | left hfails | right _ hfails => exact .inl (isData_of_get hfails)
  | move _ hfails | compute _ _ _ hfails | loadAddress hfails => exact .inl (isData_of_set hfails)
  | operation hleft hright hfails => exact .inl (Operation.isData_of_apply hfails)
  | printf hfails => exact .inl (isData_of_printedLine hfails)
  | unknown hname => exact .inr ⟨_, rfl, hname, rfl⟩

theorem isControl_of_get {operand : Operand} (h : m.get operand = .error failure) :
    failure.isControl = false :=
  Failure.isControl_of_isData (isData_of_get h)

theorem isControl_of_set {dest : Address} {v : Value} (h : m.set dest v = .error failure) :
    failure.isControl = false :=
  Failure.isControl_of_isData (isData_of_set h)

theorem isControl_of_execute {pc : Int} {i : Instruction}
    (h : m.execute pc i = .error failure) : failure.isControl = false := by
  rcases isData_of_execute h with hdata | ⟨name, -, -, rfl⟩
  · exact Failure.isControl_of_isData hdata
  · rfl

theorem cases_of_isControl {p : Program} {pc : Int} {i : Instruction}
    (hcontrol : failure.isControl = true) (h : (m.perform p pc i).result = .error failure) :
    (∃ label, i.branchTarget? = some label ∧ p.findLabel label = none ∧
      failure = .fault (.labelNotFound label)) ∨
      ∃ frame frames dest, i = .leave ∧ m.frames = frame :: frames ∧ frame.dest = some dest ∧
        failure = .fault (.valueExpected dest) := by
  have hdata : ¬ failure.isControl = false := by simp [hcontrol]
  have hperformed := m.performed_perform p pc i
  generalize m.perform p pc i = outcome at h hperformed
  cases hperformed with
  | refused hplain hexecute =>
      cases h
      exact absurd (isControl_of_execute hexecute) hdata
  | unreadable hget =>
      cases h
      exact absurd (isControl_of_get hget) hdata
  | undelivered hframes hdest hget hset =>
      cases h
      exact absurd (isControl_of_set hset) hdata
  | lost htarget hlabel =>
      cases h
      exact .inl ⟨_, htarget, hlabel, rfl⟩
  | mismatched hframes hdest =>
      cases h
      exact .inr ⟨_, _, _, rfl, hframes, hdest, rfl⟩
  | unnamed =>
      cases h
      exact absurd rfl hdata
  | plain | enter | exit | exitLeave | resume => cases h

end Machine

end TriReg
