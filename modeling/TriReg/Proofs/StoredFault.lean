import TriReg.Proofs.Commands
import TriReg.Proofs.Loading
import TriReg.Proofs.Termination

namespace TriReg

open TriReg.Text

namespace Fault

/-- The fault is one of those that instructions have when they are run. -/
def isRuntime : Fault → Bool
  | .outOfReach .. | .registerPosition | .doubleIndirection | .incompatible .. | .unsubtractable ..
  | .notText _ | .labelNotFound _ | .valueExpected _ => true
  | .unknownSyscall _ | .unterminated .. => false

theorem isRuntime_of_isData {cause : Fault} (h : (Failure.fault cause).isData = true) :
    cause.isRuntime = true := by
  cases cause <;> first | rfl | cases h

end Fault

namespace Failure

variable {access : Access} {limit : Numeral.LimitError}

theorem outOfReach_slot_eq_numeral_iff {index : Nat} :
    outOfReach access (.slot index) = .numeral limit ↔
      limit = .writing ∧ Numeral.writable index = false := by
  cases hwritable : Numeral.writable index <;> simp [outOfReach, hwritable, eq_comm]

theorem outOfReach_value_ne_numeral (v : Value) :
    outOfReach access (.value v) ≠ .numeral limit := by
  intro h
  cases h

end Failure

namespace Machine

variable {m : Machine} {access : Access} {limit : Numeral.LimitError} {texts : String → Prop}

/-- The cell holds a pointer past the end of the stack, to a slot with an index that is too long to
be written. -/
def PointsTooFar (m : Machine) (c : Cell) : Prop :=
  ∃ index, m.content c = .pointer (.slot index) ∧ m.stack.size ≤ index ∧
    Numeral.writable index = false

def LeadsTooFar (m : Machine) : Address → Prop
  | .reference (.register r) => m.PointsTooFar (.register r)
  | .reference (.slot index) => m.PointsTooFar (.slot index)
  | _ => False

def ReadsTooFar (m : Machine) : Operand → Prop
  | .literal _ => False
  | .address place => m.LeadsTooFar place

/-- An access of the instruction leads too far, and nothing before it fails. -/
inductive GoesTooFar (m : Machine) : Instruction → Prop
  | source {dest source} (h : m.ReadsTooFar source) : GoesTooFar m (.move dest source)
  | move {dest source v} (hsource : m.get source = .ok v) (h : m.LeadsTooFar dest) :
      GoesTooFar m (.move dest source)
  | left {operation dest left right} (h : m.ReadsTooFar left) :
      GoesTooFar m (.compute operation dest left right)
  | right {operation dest left right v} (hleft : m.get left = .ok v) (h : m.ReadsTooFar right) :
      GoesTooFar m (.compute operation dest left right)
  | compute {operation dest left right v w sum} (hleft : m.get left = .ok v)
      (hright : m.get right = .ok w) (hsum : operation.apply v w = .ok sum)
      (h : m.LeadsTooFar dest) : GoesTooFar m (.compute operation dest left right)
  | loadAddress {dest source} (h : m.LeadsTooFar dest) : GoesTooFar m (.loadAddress dest source)
  | ret {operand} (h : m.ReadsTooFar operand) : GoesTooFar m (.ret operand)
  -- The value is delivered after the registers are put back.
  | deliver {operand v frame frames dest} (hframes : m.frames = frame :: frames)
      (hdest : frame.dest = some dest) (hget : m.get operand = .ok v)
      (h : (m.popFrame frame frames).LeadsTooFar dest) : GoesTooFar m (.ret operand)

theorem slotIndex_eq_numeral_iff {v : Value} :
    m.slotIndex access v = .error (.numeral limit) ↔ limit = .writing ∧
      ∃ index, v = .pointer (.slot index) ∧ m.stack.size ≤ index ∧
        Numeral.writable index = false := by
  constructor
  · intro h
    unfold slotIndex at h
    split at h
    · split at h
      · cases h
      · exact absurd (Except.error.inj h) (Failure.outOfReach_value_ne_numeral _)
    · split at h
      · cases h
      · rename_i index hsize
        obtain ⟨hlimit, hindex⟩ := Failure.outOfReach_slot_eq_numeral_iff.mp (Except.error.inj h)
        exact ⟨hlimit, index, rfl, Nat.not_lt.mp hsize, hindex⟩
    · cases h
    · cases h
    · exact absurd (Except.error.inj h) (Failure.outOfReach_value_ne_numeral _)
  · rintro ⟨hlimit, index, rfl, hsize, hindex⟩
    rw [slotIndex, if_neg (Nat.not_lt.mpr hsize),
      Failure.outOfReach_slot_eq_numeral_iff.mpr ⟨hlimit, hindex⟩]

theorem hasCell_of_pointsTooFar {c : Cell} (h : m.PointsTooFar c) : m.HasCell c := by
  cases c with
  | register r => exact trivial
  | slot index =>
      obtain ⟨index', hcontent, -⟩ := h
      change index < m.stack.size
      by_contra hsize
      simp [content, Array.getD_eq_getD_getElem?, hsize] at hcontent

theorem reference_eq_numeral_iff {target : Address} {c : Cell}
    (hsingle : ∀ inner, target ≠ .reference inner)
    (hcell : ∀ found, m.cell .read target = .ok found ↔ m.HasCell c ∧ found = c)
    (htarget : m.cell .read target ≠ .error (.numeral limit)) :
    m.cell access (.reference target) = .error (.numeral limit) ↔
      limit = .writing ∧ m.PointsTooFar c := by
  rw [cell_reference_eq_error_iff]
  constructor
  · rintro (⟨inner, rfl, -⟩ | ⟨-, h | ⟨found, hfound, h⟩⟩)
    · exact absurd rfl (hsingle inner)
    -- Finding the pointer fails for no number, so what fails is following it.
    · exact absurd h htarget
    · obtain ⟨-, rfl⟩ := (hcell found).mp hfound
      exact slotIndex_eq_numeral_iff.mp h
  · rintro ⟨hlimit, h⟩
    refine .inr ⟨hsingle, .inr ⟨c, (hcell c).mpr ⟨hasCell_of_pointsTooFar h, rfl⟩, ?_⟩⟩
    exact slotIndex_eq_numeral_iff.mpr ⟨hlimit, h⟩

theorem cell_slot_ne_numeral {index : Nat} (h : (Address.slot index).Writable) :
    m.cell access (.slot index) ≠ .error (.numeral limit) := by
  intro hcell
  rw [cell] at hcell
  split at hcell
  · cases hcell
  · obtain ⟨-, hindex⟩ := Failure.outOfReach_slot_eq_numeral_iff.mp (Except.error.inj hcell)
    rw [Numeral.writable_iff.mpr h] at hindex
    cases hindex

theorem cell_eq_numeral_iff {place : Address} (hplace : place.Writable) :
    m.cell access place = .error (.numeral limit) ↔ limit = .writing ∧ m.LeadsTooFar place := by
  cases place with
  | register r => simp [cell, LeadsTooFar]
  | slot index => simp [cell_slot_ne_numeral hplace, LeadsTooFar]
  | reference target =>
      cases target with
      | register r =>
          refine reference_eq_numeral_iff (by simp) ?_ (by simp [cell])
          simp [cell, HasCell, eq_comm]
      | slot index =>
          refine reference_eq_numeral_iff (by simp) ?_ (cell_slot_ne_numeral hplace)
          intro found
          rw [cell]
          split <;> simp_all [HasCell, eq_comm]
      | reference inner => simp [cell_double_reference, LeadsTooFar]

theorem get_eq_numeral_iff {operand : Operand} (hoperand : operand.Writable texts) :
    m.get operand = .error (.numeral limit) ↔ limit = .writing ∧ m.ReadsTooFar operand := by
  cases operand with
  | literal v => simp [get, ReadsTooFar]
  | address place =>
      rw [get, map_eq_error_iff]
      exact cell_eq_numeral_iff hoperand

theorem set_eq_numeral_iff {dest : Address} {v : Value} (hdest : dest.Writable) :
    m.set dest v = .error (.numeral limit) ↔ limit = .writing ∧ m.LeadsTooFar dest := by
  rw [set, map_eq_error_iff]
  exact cell_eq_numeral_iff hdest

theorem goesTooFar_of_refused {i : Instruction} (hi : i.Writable texts)
    (h : m.Refused i (.numeral limit)) : limit = .writing ∧ m.GoesTooFar i := by
  cases h with
  | source h =>
      obtain ⟨hlimit, h⟩ := (get_eq_numeral_iff hi.2).mp h
      exact ⟨hlimit, .source h⟩
  | move hsource h =>
      obtain ⟨hlimit, h⟩ := (set_eq_numeral_iff hi.1).mp h
      exact ⟨hlimit, .move hsource h⟩
  | left h =>
      obtain ⟨hlimit, h⟩ := (get_eq_numeral_iff hi.2.1).mp h
      exact ⟨hlimit, .left h⟩
  | right hleft h =>
      obtain ⟨hlimit, h⟩ := (get_eq_numeral_iff hi.2.2).mp h
      exact ⟨hlimit, .right hleft h⟩
  | compute hleft hright hsum h =>
      obtain ⟨hlimit, h⟩ := (set_eq_numeral_iff hi.1).mp h
      exact ⟨hlimit, .compute hleft hright hsum h⟩
  | loadAddress h =>
      obtain ⟨hlimit, h⟩ := (set_eq_numeral_iff hi.1).mp h
      exact ⟨hlimit, .loadAddress h⟩

theorem refused_of_goesTooFar {i : Instruction} (hplain : i.isPlain = true)
    (hi : i.Writable texts) (h : m.GoesTooFar i) : m.Refused i (.numeral .writing) := by
  cases h with
  | source h => exact .source ((get_eq_numeral_iff hi.2).mpr ⟨rfl, h⟩)
  | move hsource h => exact .move hsource ((set_eq_numeral_iff hi.1).mpr ⟨rfl, h⟩)
  | left h => exact .left ((get_eq_numeral_iff hi.2.1).mpr ⟨rfl, h⟩)
  | right hleft h => exact .right hleft ((get_eq_numeral_iff hi.2.2).mpr ⟨rfl, h⟩)
  | compute hleft hright hsum h =>
      exact .compute hleft hright hsum ((set_eq_numeral_iff hi.1).mpr ⟨rfl, h⟩)
  | loadAddress h => exact .loadAddress ((set_eq_numeral_iff hi.1).mpr ⟨rfl, h⟩)
  | ret | deliver => cases hplain

theorem perform_eq_numeral_iff {p : Program} {pc : Int} {i : Instruction} (hi : i.Writable texts)
    (hdests : ∀ frame ∈ m.frames, ∀ dest, frame.dest = some dest → dest.Writable) :
    (m.perform p pc i).result = .error (.numeral limit) ↔ limit = .writing ∧ m.GoesTooFar i := by
  constructor
  · intro h
    have hperformed := m.performed_perform p pc i
    generalize m.perform p pc i = outcome at h hperformed
    cases hperformed with
    | refused hplain hexecute =>
        cases h
        exact goesTooFar_of_refused hi (refused_of_execute hexecute)
    | unreadable hget =>
        cases h
        obtain ⟨hlimit, h⟩ := (get_eq_numeral_iff hi).mp hget
        exact ⟨hlimit, .ret h⟩
    | @undelivered operand v frame frames dest failure hframes hdest hget hset =>
        cases h
        have hframe : frame ∈ m.frames := by simp [hframes]
        obtain ⟨hlimit, h⟩ := (set_eq_numeral_iff (hdests frame hframe dest hdest)).mp hset
        exact ⟨hlimit, .deliver hframes hdest hget h⟩
    | @unnamed frame frames dest hframes hdest hhidden =>
        rw [(hdests frame (by simp [hframes]) dest hdest).displayable] at hhidden
        cases hhidden
    | plain | enter | lost | exit | exitLeave | resume | mismatched => cases h
  · rintro ⟨rfl, h⟩
    cases hplain : i.isPlain with
    | true =>
        have hrefused := refused_of_goesTooFar hplain hi h
        rw [perform_eq_of_performed (.refused hplain (execute_of_refused hrefused))]
    | false =>
        cases h with
        | ret h =>
            have hget := (get_eq_numeral_iff hi).mpr ⟨rfl, h⟩
            rw [perform_eq_of_performed (.unreadable hget)]
        | @deliver operand v frame frames dest hframes hdest hget h =>
            have hframe : frame ∈ m.frames := by simp [hframes]
            have hset := (set_eq_numeral_iff (v := v) (hdests frame hframe dest hdest)).mpr ⟨rfl, h⟩
            rw [perform_eq_of_performed (.undelivered hframes hdest hget hset)]
        | source | move | left | right | compute | loadAddress => cases hplain

theorem isRuntime_of_perform {p : Program} {pc : Int} {i : Instruction} {cause : Fault}
    (hi : i.Writable texts) (h : (m.perform p pc i).result = .error (.fault cause)) :
    cause.isRuntime = true := by
  have hperformed := m.performed_perform p pc i
  generalize m.perform p pc i = outcome at h hperformed
  cases hperformed with
  | refused hplain hexecute =>
      cases h
      rcases isData_of_execute hexecute with hdata | ⟨name, rfl, hname, -⟩
      · exact Fault.isRuntime_of_isData hdata
      -- There is one system call that can be written.
      · exact absurd (List.mem_singleton.mp hi) hname
  | unreadable hget =>
      cases h
      exact Fault.isRuntime_of_isData (isData_of_get hget)
  | undelivered hframes hdest hget hset =>
      cases h
      exact Fault.isRuntime_of_isData (isData_of_set hset)
  | lost | mismatched =>
      cases h
      rfl
  | plain | enter | exit | exitLeave | resume | unnamed => cases h

end Machine

namespace Session

/-- The step raises nothing, or a run-time fault that the session keeps, and it is stopped. -/
def StepsOrFaults (s : Session) : Prop :=
  (∃ t, s.step.2 = .ok t) ∨ ∃ cause, cause.isRuntime = true ∧
    s.step.2 = .error (.fault cause) ∧ s.step.1.runState = .faulted ∧
    s.step.1.fault? = some cause ∧ s.step.1.result? = none

/-- The session is about to make an access that leads too far. -/
def GoesTooFar (s : Session) : Prop :=
  s.runState = .running ∧ ∃ i, s.program.fetch s.pc = some i ∧ s.machine.GoesTooFar i

variable {source : String} {p : Program} {size : Nat} {s : Session}

theorem writable_dest_of_reachable (hload : Program.load source = .ok p)
    (hreach : Reachable p size s) :
    ∀ frame ∈ s.machine.frames, ∀ dest, frame.dest = some dest → dest.Writable := by
  intro frame hframe dest hdest
  -- The frame was opened by a call with this destination, and the call was read from the source.
  obtain ⟨-, label, hcall⟩ := (hreach.opened frame hframe).exists_call hdest
  exact (Program.writable_of_load hload hcall).1

theorem writable_of_reachable {i : Instruction} (hload : Program.load source = .ok p)
    (hreach : Reachable p size s) (hfetch : s.program.fetch s.pc = some i) :
    i.Writable Quotable := by
  rw [hreach.program] at hfetch
  exact Program.writable_of_load hload (Program.mem_of_fetch hfetch)

theorem untraceable_eq_false {i : Instruction} (hload : Program.load source = .ok p)
    (hreach : Reachable p size s) (hfetch : s.program.fetch s.pc = some i) :
    s.untraceable i = false := by
  simp [untraceable, (writable_of_reachable hload hreach hfetch).displayable]

theorem step_eq_numeral_iff {limit : Numeral.LimitError} (hload : Program.load source = .ok p)
    (hreach : Reachable p size s) :
    s.step.2 = .error (.numeral limit) ↔ limit = .writing ∧ s.GoesTooFar := by
  have hdests := writable_dest_of_reachable hload hreach
  constructor
  · intro h
    obtain ⟨i, hrunning, hfetch, ⟨htrace, -⟩ | ⟨-, -, hresult⟩⟩ := step_of_numeral h
    · rw [untraceable_eq_false hload hreach hfetch] at htrace
      cases htrace
    · have hi := writable_of_reachable hload hreach hfetch
      obtain ⟨hlimit, hfar⟩ := (Machine.perform_eq_numeral_iff hi hdests).mp hresult
      exact ⟨hlimit, hrunning, i, hfetch, hfar⟩
  · rintro ⟨hlimit, hrunning, i, hfetch, hfar⟩
    have hi := writable_of_reachable hload hreach hfetch
    rw [step_of_fetch hrunning hfetch (untraceable_eq_false hload hreach hfetch), result_of_advance]
    exact (Machine.perform_eq_numeral_iff hi hdests).mpr ⟨hlimit, hfar⟩

/-- Every failure of a step is a run-time fault that is stored, unless the step goes too far; then
the session goes on running. -/
theorem steps_or_faults_iff (hload : Program.load source = .ok p) (hreach : Reachable p size s) :
    (s.StepsOrFaults ↔ ¬ s.GoesTooFar) ∧
      (s.GoesTooFar → s.step.2 = .error (.numeral .writing) ∧ s.step.1.runState = .running) := by
  have hnumeral (hfar : s.GoesTooFar) : s.step.2 = .error (.numeral .writing) :=
    (step_eq_numeral_iff hload hreach).mpr ⟨rfl, hfar⟩
  refine ⟨⟨?_, ?_⟩, ?_⟩
  · rintro (⟨t, hok⟩ | ⟨cause, -, hfault, -⟩) hfar
    · rw [hnumeral hfar] at hok
      cases hok
    · rw [hnumeral hfar] at hfault
      cases hfault
  · intro hfar
    cases hresult : s.step.2 with
    | ok t => exact .inl ⟨t, hresult⟩
    | error failure =>
        cases failure with
        | fault cause =>
            obtain ⟨i, hrunning, hfetch, -, hperform, -⟩ := advance_of_step_fault hresult
            have hi := writable_of_reachable hload hreach hfetch
            obtain ⟨hstate, hstored, hkept⟩ := stopped_of_step_fault hresult
            exact .inr ⟨cause, Machine.isRuntime_of_perform hi hperform, hresult, hstate, hstored,
              hkept.trans (hreach.inStep.of_running hrunning).1⟩
        | numeral limit => exact absurd ((step_eq_numeral_iff hload hreach).mp hresult).2 hfar
  · intro hfar
    exact ⟨hnumeral hfar, (keeps_of_step_numeral (hnumeral hfar)).2.1⟩

/-- Stores through a pointer past the end of a short stack. -/
def pastEnd : Program where
  code := [.loadAddress (.register .rax) (.slot 9),
    .move (.reference (.register .rax)) (.literal (.integer 1))]
  lineNumbers := [1, 2]

theorem pastEnd_faults : ∃ s, Program.load "lea rax sp[9]\nmov [rax] 1\n" = .ok pastEnd ∧
    Reachable pastEnd 4 s ∧ s.step.2 = .error (.fault (.outOfReach .write (.slot 9))) ∧
      ¬ s.GoesTooFar ∧ s.StepsOrFaults := by
  have hload : Program.load "lea rax sp[9]\nmov [rax] 1\n" = .ok pastEnd := by decide +kernel
  have hreach : Reachable pastEnd 4 (fresh pastEnd 4).next := Reachable.fresh.step
  have hfault : (fresh pastEnd 4).next.step.2 =
      .error (.fault (.outOfReach .write (.slot 9))) := by decide +kernel
  have hnear : ¬ (fresh pastEnd 4).next.GoesTooFar := by
    intro hfar
    have hnumeral := ((steps_or_faults_iff hload hreach).2 hfar).1
    rw [hfault] at hnumeral
    cases hnumeral
  exact ⟨_, hload, hreach, hfault, hnear, (steps_or_faults_iff hload hreach).1.mpr hnear⟩

theorem load_hugePointer :
    Program.load (joinLines (hugePointer.code.map Instruction.render)) = .ok hugePointer := by
  have hindex : (Address.slot longestIndex).Writable :=
    Numeral.writable_iff.mp (by decide +kernel)
  apply Program.load_render
  refine List.forall_mem_cons.mpr ⟨⟨trivial, hindex⟩, ?_⟩
  refine List.forall_mem_cons.mpr ⟨⟨trivial, trivial, trivial⟩, ?_⟩
  exact List.forall_mem_singleton.mpr ⟨trivial, trivial⟩

theorem hugePointer_failure_not_stored :
    ¬ ∀ (source : String) (p : Program) (size : Nat) (s : Session), Program.load source = .ok p →
      0 < size → Reachable p size s → s.StepsOrFaults := by
  intro hall
  have hreach : Reachable hugePointer 4 hugePointerSession :=
    next_next_hugePointer ▸ Reachable.fresh.step.step
  obtain ⟨limit, hstuck⟩ := stuck_hugePointerSession
  rcases hall _ _ 4 _ load_hugePointer (by decide) hreach with ⟨t, hok⟩ | ⟨cause, -, hfault, -⟩
  · rw [hstuck] at hok
    cases hok
  · rw [hstuck] at hfault
    cases hfault

end Session

end TriReg
