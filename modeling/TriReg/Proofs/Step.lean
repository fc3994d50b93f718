import TriReg.Proofs.Execute
import TriReg.Session

/-!
What one instruction and one step can do. `Machine.Performed` lists the outcomes of an instruction,
failures included, and `Session.Moved` what a step that raises nothing makes of a session. Results
about runs take a step apart by these two and do not open its definition.
-/

namespace TriReg

namespace Instruction

/-- The instruction has a data effect at most, and the program goes on with the next one. -/
def isPlain : Instruction → Bool
  | .move .. | .compute .. | .loadAddress .. | .syscall _ | .label _ => true
  | .call .. | .jump _ | .ret _ | .leave => false

def isJump : Instruction → Bool
  | .jump _ => true
  | _ => false

/-- Where the value goes that a call asks for. -/
def returnDest? : Instruction → Option Address
  | .call dest _ => dest
  | _ => none

/-- The instruction is a `ret` or a `leave`. -/
def IsTerminator (i : Instruction) : Prop := Terminator.retOrLeave.closes i = true

instance (i : Instruction) : Decidable i.IsTerminator := inferInstanceAs (Decidable (_ = true))

@[simp] theorem isTerminator_ret (operand : Operand) : (ret operand).IsTerminator := rfl

@[simp] theorem isTerminator_leave : leave.IsTerminator := rfl

theorem branchTarget?_of_isPlain {i : Instruction} (h : i.isPlain = true) :
    i.branchTarget? = none := by
  cases i <;> first | rfl | cases h

theorem not_isTerminator_of_isPlain {i : Instruction} (h : i.isPlain = true) :
    ¬ i.IsTerminator := by
  cases i <;> simp_all [isPlain, IsTerminator, Terminator.closes]

theorem not_isTerminator_of_branchTarget? {i : Instruction} {label : String}
    (h : i.branchTarget? = some label) : ¬ i.IsTerminator := by
  cases i <;> simp_all [branchTarget?, IsTerminator, Terminator.closes]

end Instruction

namespace Machine

/-- The frame that a call or a jump at `pc` opens. -/
def branchFrame (m : Machine) (pc : Int) (i : Instruction) : Frame :=
  m.frameAt pc i.isJump i.returnDest?

/-- The machine after a return through `frame`, the innermost one, over `frames`. -/
def popFrame (m : Machine) (frame : Frame) (frames : List Frame) : Machine :=
  { m with registers := m.unwind frame, frames }

/-- The machine after a terminator closed the innermost frame. A frame with a destination needs a
`ret`, whose value is written after the registers are put back. -/
inductive Resumed (m : Machine) (frame : Frame) (frames : List Frame) :
    Instruction → Option Value → Machine → Prop
  | leave (hdest : frame.dest = none) :
      Resumed m frame frames .leave none (m.popFrame frame frames)
  | ret {operand v} (hdest : frame.dest = none) (hget : m.get operand = .ok v) :
      Resumed m frame frames (.ret operand) (some v) (m.popFrame frame frames)
  | deliver {operand v dest stored} (hdest : frame.dest = some dest)
      (hget : m.get operand = .ok v) (hset : (m.popFrame frame frames).set dest v = .ok stored) :
      Resumed m frame frames (.ret operand) (some v) stored

/-- The outcomes of the instruction that stands at `pc`. -/
inductive Performed (m : Machine) (p : Program) (pc : Int) : Instruction → Outcome → Prop
  | plain {i effect} (hplain : i.isPlain = true) (hexecute : m.execute pc i = .ok effect) :
      Performed m p pc i ⟨effect.machine, effect.printed, .ok .advance⟩
  | refused {i failure} (hplain : i.isPlain = true) (hexecute : m.execute pc i = .error failure) :
      Performed m p pc i ⟨m, none, .error failure⟩
  | enter {i label index} (htarget : i.branchTarget? = some label)
      (hlabel : p.findLabel label = some index) :
      Performed m p pc i ⟨m.pushFrame (m.branchFrame pc i), none, .ok (.enter index)⟩
  | lost {i label} (htarget : i.branchTarget? = some label) (hlabel : p.findLabel label = none) :
      Performed m p pc i
        ⟨m.pushFrame (m.branchFrame pc i), none, .error (.fault (.labelNotFound label))⟩
  | unreadable {operand failure} (hget : m.get operand = .error failure) :
      Performed m p pc (.ret operand) ⟨m, none, .error failure⟩
  | exit {operand v} (hframes : m.frames = []) (hget : m.get operand = .ok v) :
      Performed m p pc (.ret operand) ⟨m, none, .ok (.halt v)⟩
  | exitLeave (hframes : m.frames = []) :
      Performed m p pc .leave ⟨m, none, .ok (.halt defaultResult)⟩
  | resume {i frame frames v? after} (hframes : m.frames = frame :: frames)
      (hresumed : m.Resumed frame frames i v? after) :
      Performed m p pc i ⟨after, none, .ok (.resume frame.returnPc v?)⟩
  | undelivered {operand v frame frames dest failure} (hframes : m.frames = frame :: frames)
      (hdest : frame.dest = some dest) (hget : m.get operand = .ok v)
      (hset : (m.popFrame frame frames).set dest v = .error failure) :
      Performed m p pc (.ret operand) ⟨m.popFrame frame frames, none, .error failure⟩
  | mismatched {frame frames dest} (hframes : m.frames = frame :: frames)
      (hdest : frame.dest = some dest) (hshown : dest.displayable = true) :
      Performed m p pc .leave ⟨{ m with frames }, none, .error (.fault (.valueExpected dest))⟩
  | unnamed {frame frames dest} (hframes : m.frames = frame :: frames)
      (hdest : frame.dest = some dest) (hhidden : dest.displayable = false) :
      Performed m p pc .leave ⟨{ m with frames }, none, .error (.numeral .writing)⟩

theorem transfer_of_isPlain (m : Machine) (p : Program) {i : Instruction}
    (h : i.isPlain = true) : m.transfer p i = (m, .ok .advance) := by
  cases i <;> first | rfl | cases h

theorem perform_eq_of_branchTarget? (m : Machine) (p : Program) (pc : Int) {i : Instruction}
    {label : String} (h : i.branchTarget? = some label) :
    m.perform p pc i = ⟨m.pushFrame (m.branchFrame pc i), none, p.enter label⟩ := by
  cases i <;> cases h <;> rfl

theorem perform_of_isPlain {m : Machine} {p : Program} {pc : Int} {i : Instruction}
    (h : i.isPlain = true) : m.Performed p pc i (m.perform p pc i) := by
  unfold perform
  split
  · rename_i failure hexecute
    exact .refused h hexecute
  · rename_i effect hexecute
    rw [transfer_of_isPlain effect.machine p h]
    exact .plain h hexecute

theorem perform_of_branchTarget? {m : Machine} {p : Program} {pc : Int} {i : Instruction}
    {label : String} (h : i.branchTarget? = some label) :
    m.Performed p pc i (m.perform p pc i) := by
  rw [perform_eq_of_branchTarget? m p pc h]
  unfold Program.enter
  split
  · rename_i index hlabel
    exact .enter h hlabel
  · rename_i hlabel
    exact .lost h hlabel

theorem perform_ret (m : Machine) (p : Program) (pc : Int) (operand : Operand) :
    m.Performed p pc (.ret operand) (m.perform p pc (.ret operand)) := by
  simp only [perform, execute, transfer]
  cases hget : m.get operand with
  | error failure => exact .unreadable hget
  | ok v =>
      simp only [returnValue]
      cases hframes : m.frames with
      | nil => exact .exit hframes hget
      | cons frame frames =>
          cases hdest : frame.dest with
          | none =>
              simp only [hdest]
              exact .resume hframes (.ret hdest hget)
          | some dest =>
              cases hset : (m.popFrame frame frames).set dest v with
              | ok stored =>
                  simp only [popFrame] at hset
                  simp only [hdest, hset]
                  exact .resume hframes (.deliver hdest hget hset)
              | error failure =>
                  simp only [popFrame] at hset
                  simp only [hdest, hset]
                  exact .undelivered hframes hdest hget hset

theorem perform_leave (m : Machine) (p : Program) (pc : Int) :
    m.Performed p pc .leave (m.perform p pc .leave) := by
  simp only [perform, execute, transfer, leaveBlock]
  cases hframes : m.frames with
  | nil => exact .exitLeave hframes
  | cons frame frames =>
      cases hdest : frame.dest with
      | none =>
          simp only [hdest]
          exact .resume hframes (.leave hdest)
      | some dest =>
          simp only [hdest, Failure.valueExpected]
          cases hshown : dest.displayable with
          | true => exact .mismatched hframes hdest hshown
          | false => exact .unnamed hframes hdest hshown

theorem performed_perform (m : Machine) (p : Program) (pc : Int) (i : Instruction) :
    m.Performed p pc i (m.perform p pc i) := by
  cases i with
  | move | compute | loadAddress | syscall | label => exact perform_of_isPlain rfl
  | call | jump => exact perform_of_branchTarget? rfl
  | ret operand => exact perform_ret m p pc operand
  | leave => exact perform_leave m p pc

theorem perform_eq_of_performed {m : Machine} {p : Program} {pc : Int} {i : Instruction}
    {outcome : Outcome} (h : m.Performed p pc i outcome) : m.perform p pc i = outcome := by
  cases h with
  | @plain i effect hplain hexecute =>
      simp only [perform, hexecute, transfer_of_isPlain effect.machine p hplain]
  | refused hplain hexecute => simp only [perform, hexecute]
  | enter htarget hlabel =>
      simp only [perform_eq_of_branchTarget? m p pc htarget, Program.enter, hlabel]
  | lost htarget hlabel =>
      simp only [perform_eq_of_branchTarget? m p pc htarget, Program.enter, hlabel]
  | unreadable hget => simp only [perform, execute, transfer, hget]
  | exit hframes hget => simp only [perform, execute, transfer, hget, returnValue, hframes]
  | exitLeave hframes => simp only [perform, execute, transfer, leaveBlock, hframes]
  | resume hframes hresumed =>
      cases hresumed with
      | leave hdest => simp only [perform, execute, transfer, leaveBlock, hframes, hdest, popFrame]
      | ret hdest hget =>
          simp only [perform, execute, transfer, hget, returnValue, hframes, hdest, popFrame]
      | deliver hdest hget hset =>
          simp only [popFrame] at hset
          simp only [perform, execute, transfer, hget, returnValue, hframes, hdest, hset]
  | undelivered hframes hdest hget hset =>
      simp only [popFrame] at hset
      simp only [perform, execute, transfer, hget, returnValue, hframes, hdest, hset, popFrame]
  | mismatched hframes hdest hshown =>
      simp only [perform, execute, transfer, leaveBlock, hframes, hdest, Failure.valueExpected,
        hshown, if_true]
  | unnamed hframes hdest hhidden =>
      simp only [perform, execute, transfer, leaveBlock, hframes, hdest, Failure.valueExpected,
        hhidden, Bool.false_eq_true, if_false]

theorem frames_of_set {m after : Machine} {dest : Address} {v : Value}
    (h : m.set dest v = .ok after) : after.frames = m.frames := by
  obtain ⟨c, -, rfl⟩ := exists_store_of_set h
  exact frames_store m c v

theorem size_of_set {m after : Machine} {dest : Address} {v : Value}
    (h : m.set dest v = .ok after) : after.stack.size = m.stack.size := by
  obtain ⟨c, -, rfl⟩ := exists_store_of_set h
  exact size_store m c v

theorem exists_store_of_execute {m : Machine} {pc : Int} {i : Instruction} {effect : Effect}
    (hplain : i.isPlain = true) (h : m.execute pc i = .ok effect) :
    effect.machine = m ∨ ∃ c v, m.HasCell c ∧ effect.machine = m.store c v := by
  cases executed_of_execute h with
  | move hsource hset =>
      obtain ⟨c, hc, hstore⟩ := exists_store_of_set hset
      exact .inr ⟨c, _, hc, hstore⟩
  | compute hleft hright hsum hset =>
      obtain ⟨c, hc, hstore⟩ := exists_store_of_set hset
      exact .inr ⟨c, _, hc, hstore⟩
  | loadAddress hset =>
      obtain ⟨c, hc, hstore⟩ := exists_store_of_set hset
      exact .inr ⟨c, _, hc, hstore⟩
  | printf | label => exact .inl rfl
  | call | jump | ret | leave => cases hplain

theorem frames_of_execute {m : Machine} {pc : Int} {i : Instruction} {effect : Effect}
    (hplain : i.isPlain = true) (h : m.execute pc i = .ok effect) :
    effect.machine.frames = m.frames := by
  rcases exists_store_of_execute hplain h with hsame | ⟨c, v, -, hstore⟩
  · rw [hsame]
  · rw [hstore, frames_store]

theorem size_of_execute {m : Machine} {pc : Int} {i : Instruction} {effect : Effect}
    (hplain : i.isPlain = true) (h : m.execute pc i = .ok effect) :
    effect.machine.stack.size = m.stack.size := by
  rcases exists_store_of_execute hplain h with hsame | ⟨c, v, -, hstore⟩
  · rw [hsame]
  · rw [hstore, size_store]

theorem frames_of_resumed {m after : Machine} {frame : Frame} {frames : List Frame}
    {i : Instruction} {v? : Option Value} (h : m.Resumed frame frames i v? after) :
    after.frames = frames := by
  cases h with
  | leave | ret => rfl
  | deliver hdest hget hset => exact frames_of_set hset

theorem size_of_resumed {m after : Machine} {frame : Frame} {frames : List Frame}
    {i : Instruction} {v? : Option Value} (h : m.Resumed frame frames i v? after) :
    after.stack.size = m.stack.size := by
  cases h with
  | leave | ret => rfl
  | deliver hdest hget hset =>
      have hsize := size_of_set hset
      exact hsize

theorem isTerminator_of_resumed {m after : Machine} {frame : Frame} {frames : List Frame}
    {i : Instruction} {v? : Option Value} (h : m.Resumed frame frames i v? after) :
    i.IsTerminator := by
  cases h <;> simp

theorem size_perform (m : Machine) (p : Program) (pc : Int) (i : Instruction) :
    (m.perform p pc i).machine.stack.size = m.stack.size := by
  have hperformed := m.performed_perform p pc i
  generalize m.perform p pc i = outcome at hperformed
  cases hperformed with
  | plain hplain hexecute => exact size_of_execute hplain hexecute
  | resume hframes hresumed => exact size_of_resumed hresumed
  | refused | enter | lost | unreadable | exit | exitLeave | undelivered | mismatched | unnamed =>
      rfl

end Machine

namespace Session

/-- The number of open frames. -/
def depth (s : Session) : Nat := s.machine.frames.length

/-- The session after a step that raises nothing. -/
def next? (s : Session) : Option Session :=
  match s.step with
  | (after, .ok _) => some after
  | (_, .error _) => none

/-- The session after `n` steps that raise nothing. -/
def after? (s : Session) : Nat → Option Session
  | 0 => some s
  | n + 1 => (s.after? n).bind next?

/-- The steps that raise nothing. -/
inductive Moved (s after : Session) : Prop
  | idle (hfinished : s.runState ≠ .running) (hafter : after = s)
  | finish (hrunning : s.runState = .running) (hfetch : s.program.fetch s.pc = none)
      (hafter : after = s.halt Machine.defaultResult)
  | plain {i effect} (hrunning : s.runState = .running) (hfetch : s.program.fetch s.pc = some i)
      (hplain : i.isPlain = true) (hexecute : s.machine.execute s.pc i = .ok effect)
      (hmachine : after.machine = effect.machine) (hpc : after.pc = s.pc + 1)
      (hstate : after.runState = .running)
  | enter {i label index} (hrunning : s.runState = .running)
      (hfetch : s.program.fetch s.pc = some i) (htarget : i.branchTarget? = some label)
      (hlabel : s.program.findLabel label = some index)
      (hmachine : after.machine = s.machine.pushFrame (s.machine.branchFrame s.pc i))
      (hpc : after.pc = index) (hstate : after.runState = .running)
  | resume {i frame frames v?} (hrunning : s.runState = .running)
      (hfetch : s.program.fetch s.pc = some i) (hframes : s.machine.frames = frame :: frames)
      (hresumed : s.machine.Resumed frame frames i v? after.machine)
      (hpc : after.pc = frame.returnPc) (hstate : after.runState = .running)
  | exit {i} (hrunning : s.runState = .running) (hfetch : s.program.fetch s.pc = some i)
      (hterminator : i.IsTerminator) (hframes : s.machine.frames = [])
      (hmachine : after.machine = s.machine) (hpc : after.pc = s.pc)
      (hstate : after.runState = .halted)

section Fields

variable (s : Session)

@[simp] theorem program_record (line : String) : (s.record line).program = s.program := by
  unfold record
  split <;> rfl

@[simp] theorem machine_record (line : String) : (s.record line).machine = s.machine := by
  unfold record
  split <;> rfl

@[simp] theorem pc_record (line : String) : (s.record line).pc = s.pc := by
  unfold record
  split <;> rfl

@[simp] theorem steps_record (line : String) : (s.record line).steps = s.steps := by
  unfold record
  split <;> rfl

@[simp] theorem runState_record (line : String) : (s.record line).runState = s.runState := by
  unfold record
  split <;> rfl

@[simp] theorem result?_record (line : String) : (s.record line).result? = s.result? := by
  unfold record
  split <;> rfl

@[simp] theorem fault?_record (line : String) : (s.record line).fault? = s.fault? := by
  unfold record
  split <;> rfl

@[simp] theorem output_record (line : String) : (s.record line).output = s.output := by
  unfold record
  split <;> rfl

@[simp] theorem printed_record (line : String) : (s.record line).printed = s.printed := by
  unfold record
  split <;> rfl

@[simp] theorem tracing_record (line : String) : (s.record line).tracing = s.tracing := by
  unfold record
  split <;> rfl

@[simp] theorem program_print (line? : Option String) : (s.print line?).program = s.program := by
  cases line? <;> rfl

@[simp] theorem machine_print (line? : Option String) : (s.print line?).machine = s.machine := by
  cases line? <;> rfl

@[simp] theorem pc_print (line? : Option String) : (s.print line?).pc = s.pc := by
  cases line? <;> rfl

@[simp] theorem steps_print (line? : Option String) : (s.print line?).steps = s.steps := by
  cases line? <;> rfl

@[simp] theorem runState_print (line? : Option String) :
    (s.print line?).runState = s.runState := by
  cases line? <;> rfl

@[simp] theorem result?_print (line? : Option String) : (s.print line?).result? = s.result? := by
  cases line? <;> rfl

@[simp] theorem fault?_print (line? : Option String) : (s.print line?).fault? = s.fault? := by
  cases line? <;> rfl

@[simp] theorem tracing_print (line? : Option String) : (s.print line?).tracing = s.tracing := by
  cases line? <;> rfl

@[simp] theorem program_follow (t : Transition) : (s.follow t).program = s.program := by
  cases t <;> rfl

@[simp] theorem machine_follow (t : Transition) : (s.follow t).machine = s.machine := by
  cases t <;> rfl

@[simp] theorem tracing_follow (t : Transition) : (s.follow t).tracing = s.tracing := by
  cases t <;> rfl

end Fields

theorem step_of_fetch {s : Session} {i : Instruction} (hrunning : s.runState = .running)
    (hfetch : s.program.fetch s.pc = some i) (htrace : s.untraceable i = false) :
    s.step = s.advance i := by
  simp only [step, hrunning, hfetch, htrace, Bool.false_eq_true, if_false]

theorem step_of_untraceable {s : Session} {i : Instruction} (hrunning : s.runState = .running)
    (hfetch : s.program.fetch s.pc = some i) (htrace : s.untraceable i = true) :
    s.step = (s, .error (.numeral .writing)) := by
  simp only [step, hrunning, hfetch, htrace, if_true]

theorem step_of_fetch_none {s : Session} (hrunning : s.runState = .running)
    (hfetch : s.program.fetch s.pc = none) :
    s.step = (s.halt Machine.defaultResult, .ok (.halt Machine.defaultResult)) := by
  simp only [step, hrunning, hfetch]

theorem step_of_finished {s : Session} (h : s.runState ≠ .running) : s.step = (s, .ok s.idle) := by
  cases hstate : s.runState with
  | running => exact absurd hstate h
  | halted | faulted => simp only [step, hstate]

theorem next?_eq_some_iff {s after : Session} :
    s.next? = some after ↔ ∃ t, s.step = (after, .ok t) := by
  unfold next?
  constructor
  · intro h
    split at h
    · rename_i t hstep
      cases h
      exact ⟨t, hstep⟩
    · cases h
  · rintro ⟨t, hstep⟩
    rw [hstep]

/-- The session with what the instruction `i` did and printed, before it moves on. -/
def performed (s : Session) (i : Instruction) : Session :=
  let outcome := s.machine.perform s.program s.pc i
  { s.record (traceLine s.pc.toNat i s.machine.registers) with
      machine := outcome.machine }.print outcome.printed

section Performed

variable (s : Session) (i : Instruction)

@[simp] theorem program_performed : (s.performed i).program = s.program := by simp [performed]

@[simp] theorem machine_performed :
    (s.performed i).machine = (s.machine.perform s.program s.pc i).machine := by
  simp [performed]

@[simp] theorem pc_performed : (s.performed i).pc = s.pc := by simp [performed]

@[simp] theorem steps_performed : (s.performed i).steps = s.steps := by simp [performed]

@[simp] theorem runState_performed : (s.performed i).runState = s.runState := by simp [performed]

@[simp] theorem result?_performed : (s.performed i).result? = s.result? := by simp [performed]

@[simp] theorem fault?_performed : (s.performed i).fault? = s.fault? := by simp [performed]

@[simp] theorem tracing_performed : (s.performed i).tracing = s.tracing := by simp [performed]

end Performed

theorem advance_of_ok {s : Session} {i : Instruction} {t : Transition}
    (h : (s.machine.perform s.program s.pc i).result = .ok t) :
    s.advance i = ((s.performed i).follow t, .ok t) := by
  simp only [advance, performed, h]

theorem advance_of_fault {s : Session} {i : Instruction} {cause : Fault}
    (h : (s.machine.perform s.program s.pc i).result = .error (.fault cause)) :
    s.advance i = (((s.performed i).record ("  ERROR: " ++ cause.message)).fail cause,
      .error (.fault cause)) := by
  simp only [advance, performed, h]

theorem advance_of_numeral {s : Session} {i : Instruction} {limit : Numeral.LimitError}
    (h : (s.machine.perform s.program s.pc i).result = .error (.numeral limit)) :
    s.advance i = (s.performed i, .error (.numeral limit)) := by
  simp only [advance, performed, h]

theorem result_of_advance (s : Session) (i : Instruction) :
    (s.advance i).2 = (s.machine.perform s.program s.pc i).result := by
  cases hresult : (s.machine.perform s.program s.pc i).result with
  | ok t => rw [advance_of_ok hresult]
  | error failure =>
      cases failure with
      | fault cause => rw [advance_of_fault hresult]
      | numeral limit => rw [advance_of_numeral hresult]

theorem moved_follow {s : Session} {i : Instruction} {t : Transition}
    (hrunning : s.runState = .running) (hfetch : s.program.fetch s.pc = some i)
    (h : (s.machine.perform s.program s.pc i).result = .ok t) :
    s.Moved ((s.performed i).follow t) := by
  have hmachine : ((s.performed i).follow t).machine =
      (s.machine.perform s.program s.pc i).machine := by simp
  have hperformed := s.machine.performed_perform s.program s.pc i
  generalize s.machine.perform s.program s.pc i = outcome at h hmachine hperformed
  cases hperformed with
  | plain hplain hexecute =>
      cases h
      exact .plain hrunning hfetch hplain hexecute hmachine (by simp [follow])
        (by simp [follow, hrunning])
  | enter htarget hlabel =>
      cases h
      exact .enter hrunning hfetch htarget hlabel hmachine rfl (by simp [follow, hrunning])
  | @resume _ frame frames v? stored hframes hresumed =>
      cases h
      have hafter : s.machine.Resumed frame frames i v?
          ((s.performed i).follow (.resume frame.returnPc v?)).machine := by
        rw [hmachine]
        exact hresumed
      exact .resume hrunning hfetch hframes hafter rfl (by simp [follow, hrunning])
  | exit hframes hget =>
      cases h
      exact .exit hrunning hfetch (by simp) hframes hmachine (by simp [follow, halt]) rfl
  | exitLeave hframes =>
      cases h
      exact .exit hrunning hfetch (by simp) hframes hmachine (by simp [follow, halt]) rfl
  | refused | lost | unreadable | undelivered | mismatched | unnamed => cases h

/-- What a step makes of a session and comes back with. -/
theorem cases_of_step (s : Session) :
    (s.runState ≠ .running ∧ s.step = (s, .ok s.idle)) ∨
      (s.runState = .running ∧ s.program.fetch s.pc = none ∧
        s.step = (s.halt Machine.defaultResult, .ok (.halt Machine.defaultResult))) ∨
      ∃ i, s.runState = .running ∧ s.program.fetch s.pc = some i ∧
        ((s.untraceable i = true ∧ s.step = (s, .error (.numeral .writing))) ∨
          (s.untraceable i = false ∧ s.step = s.advance i)) := by
  by_cases hrunning : s.runState = .running
  · cases hfetch : s.program.fetch s.pc with
    | none => exact .inr (.inl ⟨hrunning, rfl, step_of_fetch_none hrunning hfetch⟩)
    | some i =>
        cases htrace : s.untraceable i with
        | true =>
            have hstep := step_of_untraceable hrunning hfetch htrace
            exact .inr (.inr ⟨i, hrunning, rfl, .inl ⟨htrace, hstep⟩⟩)
        | false =>
            have hstep := step_of_fetch hrunning hfetch htrace
            exact .inr (.inr ⟨i, hrunning, rfl, .inr ⟨htrace, hstep⟩⟩)
  · exact .inl ⟨hrunning, step_of_finished hrunning⟩

theorem cases_of_next? {s after : Session} (h : s.next? = some after) :
    (s.runState ≠ .running ∧ after = s) ∨
      (s.runState = .running ∧ s.program.fetch s.pc = none ∧
        after = s.halt Machine.defaultResult) ∨
      ∃ i t, s.runState = .running ∧ s.program.fetch s.pc = some i ∧ s.untraceable i = false ∧
        (s.machine.perform s.program s.pc i).result = .ok t ∧
        after = (s.performed i).follow t := by
  obtain ⟨t, hstep⟩ := next?_eq_some_iff.mp h
  rcases s.cases_of_step with ⟨hfinished, hidle⟩ | ⟨hrunning, hfetch, hend⟩ |
    ⟨i, hrunning, hfetch, ⟨-, hraise⟩ | ⟨htrace, hadvance⟩⟩
  · cases hidle.symm.trans hstep
    exact .inl ⟨hfinished, rfl⟩
  · cases hend.symm.trans hstep
    exact .inr (.inl ⟨hrunning, hfetch, rfl⟩)
  · cases hraise.symm.trans hstep
  · rw [hadvance] at hstep
    have hresult : (s.machine.perform s.program s.pc i).result = .ok t := by
      rw [← result_of_advance, hstep]
    cases (advance_of_ok hresult).symm.trans hstep
    exact .inr (.inr ⟨i, t, hrunning, hfetch, htrace, hresult, rfl⟩)

theorem moved_of_next? {s after : Session} (h : s.next? = some after) : s.Moved after := by
  rcases cases_of_next? h with
    ⟨hfinished, rfl⟩ | ⟨hrunning, hfetch, rfl⟩ | ⟨i, t, hrunning, hfetch, -, hresult, rfl⟩
  · exact .idle hfinished rfl
  · exact .finish hrunning hfetch rfl
  · exact moved_follow hrunning hfetch hresult

theorem moved_of_step_ok {s : Session} {t : Transition} (h : s.step.2 = .ok t) :
    s.Moved s.step.1 :=
  moved_of_next? (next?_eq_some_iff.mpr ⟨t, Prod.ext rfl h⟩)

/-- A step that raises does so for the trace, and then nothing changes, or for the instruction. -/
theorem cases_of_step_error {s : Session} {failure : Failure} (h : s.step.2 = .error failure) :
    ∃ i, s.runState = .running ∧ s.program.fetch s.pc = some i ∧
      ((s.untraceable i = true ∧ s.step = (s, .error (.numeral .writing)) ∧
          failure = .numeral .writing) ∨
        (s.untraceable i = false ∧ s.step = s.advance i ∧
          (s.machine.perform s.program s.pc i).result = .error failure)) := by
  rcases s.cases_of_step with ⟨-, hidle⟩ | ⟨-, -, hend⟩ |
    ⟨i, hrunning, hfetch, ⟨htrace, hraise⟩ | ⟨htrace, hadvance⟩⟩
  · rw [hidle] at h
    cases h
  · rw [hend] at h
    cases h
  · rw [hraise] at h
    cases h
    exact ⟨i, hrunning, hfetch, .inl ⟨htrace, hraise, rfl⟩⟩
  · rw [hadvance, result_of_advance] at h
    exact ⟨i, hrunning, hfetch, .inr ⟨htrace, hadvance, h⟩⟩

theorem advance_of_step_fault {s : Session} {cause : Fault}
    (h : s.step.2 = .error (.fault cause)) :
    ∃ i, s.runState = .running ∧ s.program.fetch s.pc = some i ∧ s.untraceable i = false ∧
      (s.machine.perform s.program s.pc i).result = .error (.fault cause) ∧
      s.step.1 = ((s.performed i).record ("  ERROR: " ++ cause.message)).fail cause := by
  obtain ⟨i, hrunning, hfetch, ⟨-, -, hfailure⟩ | ⟨htrace, hadvance, hresult⟩⟩ :=
    cases_of_step_error h
  · cases hfailure
  · refine ⟨i, hrunning, hfetch, htrace, hresult, ?_⟩
    rw [hadvance, advance_of_fault hresult]

theorem step_of_numeral {s : Session} {limit : Numeral.LimitError}
    (h : s.step.2 = .error (.numeral limit)) :
    ∃ i, s.runState = .running ∧ s.program.fetch s.pc = some i ∧
      ((s.untraceable i = true ∧ s.step.1 = s) ∨
        (s.untraceable i = false ∧ s.step.1 = s.performed i ∧
          (s.machine.perform s.program s.pc i).result = .error (.numeral limit))) := by
  obtain ⟨i, hrunning, hfetch, ⟨htrace, hraise, -⟩ | ⟨htrace, hadvance, hresult⟩⟩ :=
    cases_of_step_error h
  · exact ⟨i, hrunning, hfetch, .inl ⟨htrace, by rw [hraise]⟩⟩
  · refine ⟨i, hrunning, hfetch, .inr ⟨htrace, ?_, hresult⟩⟩
    rw [hadvance, advance_of_numeral hresult]

section Progress

variable {s : Session}

theorem keeps_of_step_numeral {limit : Numeral.LimitError}
    (h : s.step.2 = .error (.numeral limit)) :
    s.step.1.pc = s.pc ∧ s.step.1.runState = .running ∧ s.step.1.result? = s.result? ∧
      s.step.1.fault? = s.fault? := by
  obtain ⟨i, hrunning, -, ⟨-, hsame⟩ | ⟨-, hperformed, -⟩⟩ := step_of_numeral h
  · rw [hsame]
    exact ⟨rfl, hrunning, rfl, rfl⟩
  · simp [hperformed, hrunning]

theorem pc_of_step_error {failure : Failure} (h : s.step.2 = .error failure) :
    s.step.1.pc = s.pc := by
  cases failure with
  | fault cause =>
      obtain ⟨i, -, -, -, -, hafter⟩ := advance_of_step_fault h
      simp [hafter, fail]
  | numeral limit => exact (keeps_of_step_numeral h).1

theorem stopped_of_step_fault {cause : Fault} (h : s.step.2 = .error (.fault cause)) :
    s.step.1.runState = .faulted ∧ s.step.1.fault? = some cause ∧
      s.step.1.result? = s.result? := by
  obtain ⟨i, -, -, -, -, hafter⟩ := advance_of_step_fault h
  simp [hafter, fail]

theorem fault?_of_step_ok {t : Transition} (h : s.step.2 = .ok t) :
    s.step.1.fault? = s.fault? := by
  have hnext : s.next? = some s.step.1 := next?_eq_some_iff.mpr ⟨t, Prod.ext rfl h⟩
  rcases cases_of_next? hnext with
    ⟨-, hafter⟩ | ⟨-, -, hafter⟩ | ⟨i, t', -, -, -, -, hafter⟩
  · rw [hafter]
  · rw [hafter]
    rfl
  · rw [hafter]
    cases t' <;> simp [follow, halt]

end Progress

@[simp] theorem machine_advance (s : Session) (i : Instruction) :
    (s.advance i).1.machine = (s.machine.perform s.program s.pc i).machine := by
  cases hresult : (s.machine.perform s.program s.pc i).result with
  | ok t => simp [advance_of_ok hresult]
  | error failure =>
      cases failure with
      | fault cause => simp [advance_of_fault hresult, fail]
      | numeral limit => simp [advance_of_numeral hresult]

/-- A step leaves the machine as it is, or as the instruction at its position leaves it. -/
theorem machine_step (s : Session) :
    s.step.1.machine = s.machine ∨ ∃ i, s.program.fetch s.pc = some i ∧
      s.step.1.machine = (s.machine.perform s.program s.pc i).machine := by
  rcases s.cases_of_step with ⟨-, hstep⟩ | ⟨-, -, hstep⟩ |
    ⟨i, -, hfetch, ⟨-, hstep⟩ | ⟨-, hstep⟩⟩
  · exact .inl (by rw [hstep])
  · exact .inl (by rw [hstep]; rfl)
  · exact .inl (by rw [hstep])
  · exact .inr ⟨i, hfetch, by rw [hstep, machine_advance]⟩

theorem program_tracing_advance (s : Session) (i : Instruction) :
    (s.advance i).1.program = s.program ∧ (s.advance i).1.tracing = s.tracing := by
  cases hresult : (s.machine.perform s.program s.pc i).result with
  | ok t => simp [advance_of_ok hresult]
  | error failure =>
      cases failure with
      | fault cause => simp [advance_of_fault hresult, fail]
      | numeral limit => simp [advance_of_numeral hresult]

theorem program_tracing_step (s : Session) :
    s.step.1.program = s.program ∧ s.step.1.tracing = s.tracing := by
  rcases s.cases_of_step with ⟨-, hstep⟩ | ⟨-, -, hstep⟩ | ⟨i, -, -, ⟨-, hstep⟩ | ⟨-, hstep⟩⟩
  · rw [hstep]
    exact ⟨rfl, rfl⟩
  · rw [hstep]
    exact ⟨rfl, rfl⟩
  · rw [hstep]
    exact ⟨rfl, rfl⟩
  · rw [hstep]
    exact program_tracing_advance s i

@[simp] theorem program_step (s : Session) : s.step.1.program = s.program :=
  (program_tracing_step s).1

@[simp] theorem tracing_step (s : Session) : s.step.1.tracing = s.tracing :=
  (program_tracing_step s).2

theorem program_of_next? {s after : Session} (h : s.next? = some after) :
    after.program = s.program := by
  obtain ⟨t, hstep⟩ := next?_eq_some_iff.mp h
  rw [← program_step s, hstep]

theorem after?_induction {P : Session → Prop} {s after : Session} {n : Nat} (hs : P s)
    (hstep : ∀ {u v : Session}, P u → u.next? = some v → P v) (h : s.after? n = some after) :
    P after := by
  induction n generalizing after with
  | zero =>
      cases h
      exact hs
  | succ n ih =>
      obtain ⟨u, hu, hnext⟩ := Option.bind_eq_some_iff.mp h
      exact hstep (ih hu) hnext

theorem program_of_after? {s after : Session} {n : Nat} (h : s.after? n = some after) :
    after.program = s.program := by
  refine after?_induction (P := fun u => u.program = s.program) rfl ?_ h
  intro u v hu hnext
  rw [program_of_next? hnext, hu]

end Session

end TriReg
