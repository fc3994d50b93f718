import TriReg.Proofs.DataFailure

/-!
The control of a session: its position, its number of steps, its run state, and of every open frame
the return position, the kind and whether it waits for a value. Controls step on their own
(`Control.step`). A session that steps without raising steps its control
(`Session.control_of_next?`), and the control decides what can go wrong with labels and frames; that
it is raised can still fail for an address that is too long to be written (`Session.raises_iff`).
-/

namespace TriReg

/-- A frame without its data. -/
structure FrameShape where
  returnPc : Int
  viaJump : Bool
  waiting : Bool
  deriving DecidableEq

def Frame.shape (frame : Frame) : FrameShape where
  returnPc := frame.returnPc
  viaJump := frame.viaJump
  waiting := frame.dest.isSome

/-- What goes wrong with labels and frames, without the address that waits for a value. -/
inductive ControlFault where
  | labelNotFound (label : String)
  | valueExpected
  deriving DecidableEq

def Fault.control? : Fault → Option ControlFault
  | .labelNotFound label => some (.labelNotFound label)
  | .valueExpected _ => some .valueExpected
  | _ => none

/-- A session without its data. -/
structure Control where
  pc : Int
  steps : Nat
  runState : RunState
  frames : List FrameShape
  deriving DecidableEq

namespace Control

def enter (c : Control) (p : Program) (label : String) (frame : FrameShape) :
    Except ControlFault Control :=
  match p.findLabel label with
  | some index => .ok { c with pc := index, frames := frame :: c.frames }
  | none => .error (.labelNotFound label)

def close (c : Control) : Control :=
  match c.frames with
  | [] => { c with runState := .halted }
  | frame :: frames => { c with pc := frame.returnPc, frames }

def leave (c : Control) : Except ControlFault Control :=
  match c.frames with
  | ⟨_, _, true⟩ :: _ => .error .valueExpected
  | _ => .ok c.close

def perform (c : Control) (p : Program) : Instruction → Except ControlFault Control
  | .call dest label => c.enter p label ⟨c.pc + 1, false, dest.isSome⟩
  | .jump label => c.enter p label ⟨c.pc + 1, true, false⟩
  | .ret _ => .ok c.close
  | .leave => c.leave
  | _ => .ok { c with pc := c.pc + 1 }

def step (c : Control) (p : Program) : Except ControlFault Control :=
  match c.runState with
  | .running =>
    match p.fetch c.pc with
    | some i => { c with steps := c.steps + 1 }.perform p i
    | none => .ok { c with runState := .halted }
  | _ => .ok c

theorem perform_of_isPlain {i : Instruction} (c : Control) (p : Program) (h : i.isPlain = true) :
    c.perform p i = .ok { c with pc := c.pc + 1 } := by
  cases i <;> first | rfl | cases h

theorem perform_of_branchTarget? {i : Instruction} {label : String} (c : Control) (p : Program)
    (h : i.branchTarget? = some label) :
    c.perform p i = c.enter p label ⟨c.pc + 1, i.isJump, i.returnDest?.isSome⟩ := by
  cases i <;> cases h <;> rfl

end Control

namespace Session

def control (s : Session) : Control where
  pc := s.pc
  steps := s.steps
  runState := s.runState
  frames := s.machine.frames.map Frame.shape

variable {s t after : Session}

theorem control_step_of_fetch {i : Instruction} (hrunning : s.runState = .running)
    (hfetch : s.program.fetch s.pc = some i) :
    s.control.step s.program =
      { s.control with steps := s.steps + 1 }.perform s.program i := by
  have hstate : s.control.runState = .running := hrunning
  have hpc : s.program.fetch s.control.pc = some i := hfetch
  simp only [Control.step, hstate, hpc]
  rfl

theorem control_step_of_fetch_none (hrunning : s.runState = .running)
    (hfetch : s.program.fetch s.pc = none) :
    s.control.step s.program = .ok { s.control with runState := .halted } := by
  have hstate : s.control.runState = .running := hrunning
  have hpc : s.program.fetch s.control.pc = none := hfetch
  simp only [Control.step, hstate, hpc]

theorem control_step_of_finished (h : s.runState ≠ .running) :
    s.control.step s.program = .ok s.control := by
  cases hstate : s.runState with
  | running => exact absurd hstate h
  | halted | faulted => simp [Control.step, control, hstate]

theorem control_follow_performed (s : Session) (i : Instruction) (t : Transition) :
    ((s.performed i).follow t).control =
      { (s.follow t).control with
          frames := (s.machine.perform s.program s.pc i).machine.frames.map Frame.shape } := by
  cases t <;> simp [control, follow, halt]

theorem control_of_perform {i : Instruction} {t : Transition}
    (h : (s.machine.perform s.program s.pc i).result = .ok t) :
    { s.control with steps := s.steps + 1 }.perform s.program i =
      .ok ((s.performed i).follow t).control := by
  rw [control_follow_performed]
  have hperformed := s.machine.performed_perform s.program s.pc i
  generalize s.machine.perform s.program s.pc i = outcome at h hperformed
  cases hperformed with
  | plain hplain hexecute =>
      cases h
      rw [Control.perform_of_isPlain _ _ hplain, Machine.frames_of_execute hplain hexecute]
      rfl
  | enter htarget hlabel =>
      cases h
      rw [Control.perform_of_branchTarget? _ _ htarget]
      simp only [Control.enter, hlabel]
      rfl
  | exit hframes hget =>
      cases h
      simp [Control.perform, Control.close, control, hframes, follow, halt]
  | exitLeave hframes =>
      cases h
      simp [Control.perform, Control.leave, Control.close, control, hframes, follow, halt]
  | resume hframes hresumed =>
      cases h
      rw [Machine.frames_of_resumed hresumed]
      cases hresumed with
      | leave hdest =>
          simp [Control.perform, Control.leave, Control.close, control, hframes, Frame.shape, hdest,
            follow]
      | ret | deliver =>
          simp [Control.perform, Control.close, control, hframes, Frame.shape, follow]
  | refused | lost | unreadable | undelivered | mismatched | unnamed => cases h

theorem control_of_next? (h : s.next? = some after) :
    s.control.step s.program = .ok after.control := by
  rcases cases_of_next? h with
    ⟨hfinished, rfl⟩ | ⟨hrunning, hfetch, rfl⟩ | ⟨i, t, hrunning, hfetch, -, hresult, rfl⟩
  · exact control_step_of_finished hfinished
  · exact control_step_of_fetch_none hrunning hfetch
  · rw [control_step_of_fetch hrunning hfetch]
    exact control_of_perform hresult

theorem isControl_of_control? {cause : Fault} {fault : ControlFault}
    (h : cause.control? = some fault) : (Failure.fault cause).isControl = true := by
  cases cause <;> cases h <;> rfl

theorem control_error_of_perform {i : Instruction} {cause : Fault} {fault : ControlFault}
    (hcause : cause.control? = some fault)
    (h : (s.machine.perform s.program s.pc i).result = .error (.fault cause)) :
    { s.control with steps := s.steps + 1 }.perform s.program i = .error fault := by
  rcases Machine.cases_of_isControl (isControl_of_control? hcause) h with
    ⟨label, htarget, hmissing, hlost⟩ | ⟨frame, frames, dest, rfl, hframes, hdest, hmismatch⟩
  · cases hlost
    cases hcause
    rw [Control.perform_of_branchTarget? _ _ htarget]
    simp only [Control.enter, hmissing]
  · cases hmismatch
    cases hcause
    simp [Control.perform, Control.leave, control, hframes, Frame.shape, hdest]

theorem perform_error_of_control {i : Instruction} {fault : ControlFault}
    (hnamed : ∀ frame frames dest, i = .leave → s.machine.frames = frame :: frames →
      frame.dest = some dest → dest.displayable = true)
    (h : { s.control with steps := s.steps + 1 }.perform s.program i = .error fault) :
    ∃ cause, (s.machine.perform s.program s.pc i).result = .error (.fault cause) ∧
      cause.control? = some fault := by
  have hperformed := s.machine.performed_perform s.program s.pc i
  generalize s.machine.perform s.program s.pc i = outcome at hperformed
  cases hperformed with
  | plain hplain | refused hplain =>
      rw [Control.perform_of_isPlain _ _ hplain] at h
      cases h
  | enter htarget hlabel =>
      rw [Control.perform_of_branchTarget? _ _ htarget] at h
      simp only [Control.enter, hlabel] at h
      cases h
  | lost htarget hlabel =>
      rw [Control.perform_of_branchTarget? _ _ htarget] at h
      simp only [Control.enter, hlabel] at h
      cases h
      exact ⟨_, rfl, rfl⟩
  | unreadable | exit | undelivered => cases h
  | exitLeave hframes => simp [Control.perform, Control.leave, control, hframes] at h
  | resume hframes hresumed =>
      cases hresumed with
      | leave hdest =>
          simp [Control.perform, Control.leave, control, hframes, Frame.shape, hdest] at h
      | ret | deliver => cases h
  | mismatched hframes hdest =>
      simp only [Control.perform, Control.leave, control, hframes, List.map_cons, Frame.shape,
        hdest] at h
      cases h
      exact ⟨_, rfl, rfl⟩
  | unnamed hframes hdest hhidden =>
      rw [hnamed _ _ _ rfl hframes hdest] at hhidden
      cases hhidden

theorem call_of_control_error {i : Instruction} {fault : ControlFault} {c : Control} {p : Program}
    (hhidden : i.displayable = false) (h : c.perform p i = .error fault) :
    ∃ dest label, i = .call (some dest) label ∧ p.findLabel label = none ∧
      dest.displayable = false := by
  cases i with
  | call dest? label =>
      cases dest? with
      | none => cases hhidden
      | some dest =>
          refine ⟨dest, label, rfl, ?_, hhidden⟩
          simp only [Control.perform, Control.enter] at h
          split at h
          · cases h
          · assumption
  | jump | leave => cases hhidden
  | move | compute | loadAddress | label | syscall | ret => cases h

/-- The step fails for labels or frames, by a fault that is raised. -/
def Raises (s : Session) (fault : ControlFault) : Prop :=
  ∃ cause, s.step.2 = .error (.fault cause) ∧ cause.control? = some fault

/-- The step would raise a fault about labels or frames, but it has to write a slot index that has
too many digits first. -/
inductive Muted (s : Session) : Prop
  /-- The line of a call to a missing label cannot be traced. -/
  | lost {dest label} (hrunning : s.runState = .running)
      (hfetch : s.program.fetch s.pc = some (.call (some dest) label))
      (hlabel : s.program.findLabel label = none) (htracing : s.tracing = true)
      (hhidden : dest.displayable = false)
  /-- The fault of a `leave` cannot name the address that waits for the value. -/
  | mismatched {frame frames dest} (hrunning : s.runState = .running)
      (hfetch : s.program.fetch s.pc = some .leave) (hframes : s.machine.frames = frame :: frames)
      (hdest : frame.dest = some dest) (hhidden : dest.displayable = false)

theorem exists_error_of_muted (h : s.Muted) :
    ∃ fault, s.control.step s.program = .error fault := by
  cases h with
  | @lost dest label hrunning hfetch hlabel htracing hhidden =>
      refine ⟨.labelNotFound label, ?_⟩
      rw [control_step_of_fetch hrunning hfetch]
      simp only [Control.perform, Control.enter, hlabel]
  | mismatched hrunning hfetch hframes hdest hhidden =>
      refine ⟨.valueExpected, ?_⟩
      rw [control_step_of_fetch hrunning hfetch]
      simp [Control.perform, Control.leave, control, hframes, Frame.shape, hdest]

theorem not_muted_of_raises {fault : ControlFault} (h : s.Raises fault) : ¬ s.Muted := by
  obtain ⟨cause, hstep, -⟩ := h
  obtain ⟨i, -, hfetch, htrace, hresult, -⟩ := advance_of_step_fault hstep
  intro hmuted
  cases hmuted with
  | lost _ hcall _ htracing hhidden =>
      cases hfetch.symm.trans hcall
      simp [untraceable, htracing, Instruction.displayable, hhidden] at htrace
  | mismatched _ hleave hframes hdest hhidden =>
      cases hfetch.symm.trans hleave
      rw [Machine.perform_eq_of_performed (.unnamed hframes hdest hhidden)] at hresult
      cases hresult

/-- Whether a step fails for labels or frames, and how, is decided by the control, as long as the
fault can be raised. -/
theorem raises_iff {fault : ControlFault} :
    s.Raises fault ↔ s.control.step s.program = .error fault ∧ ¬ s.Muted := by
  constructor
  · intro h
    refine ⟨?_, not_muted_of_raises h⟩
    obtain ⟨cause, hstep, hcause⟩ := h
    obtain ⟨i, hrunning, hfetch, -, hresult, -⟩ := advance_of_step_fault hstep
    rw [control_step_of_fetch hrunning hfetch]
    exact control_error_of_perform hcause hresult
  · rintro ⟨h, hmuted⟩
    rcases s.cases_of_step with ⟨hfinished, -⟩ | ⟨hrunning, hfetch, -⟩ |
      ⟨i, hrunning, hfetch, htraced⟩
    · rw [control_step_of_finished hfinished] at h
      cases h
    · rw [control_step_of_fetch_none hrunning hfetch] at h
      cases h
    rw [control_step_of_fetch hrunning hfetch] at h
    rcases htraced with ⟨htrace, -⟩ | ⟨-, hstep⟩
    · obtain ⟨htracing, hhidden⟩ : s.tracing = true ∧ i.displayable = false := by
        simpa [untraceable] using htrace
      obtain ⟨dest, label, rfl, hlabel, hdest⟩ := call_of_control_error hhidden h
      exact absurd (.lost hrunning hfetch hlabel htracing hdest) hmuted
    · have hnamed : ∀ frame frames dest, i = .leave → s.machine.frames = frame :: frames →
          frame.dest = some dest → dest.displayable = true := by
        rintro frame frames dest rfl hframes hdest
        by_contra hhidden
        exact hmuted (.mismatched hrunning hfetch hframes hdest (Bool.not_eq_true _ ▸ hhidden))
      obtain ⟨cause, hresult, hcause⟩ := perform_error_of_control hnamed h
      exact ⟨cause, by rw [hstep, result_of_advance, hresult], hcause⟩

theorem control_of_after? {n : Nat} {s' t' : Session} (hprogram : s.program = t.program)
    (hcontrol : s.control = t.control) (hs : s.after? n = some s') (ht : t.after? n = some t') :
    s'.control = t'.control := by
  induction n generalizing s' t' with
  | zero =>
      cases hs
      cases ht
      exact hcontrol
  | succ n ih =>
      obtain ⟨u, hu, hsnext⟩ := Option.bind_eq_some_iff.mp hs
      obtain ⟨v, hv, htnext⟩ := Option.bind_eq_some_iff.mp ht
      have hsstep := control_of_next? hsnext
      have htstep := control_of_next? htnext
      rw [program_of_after? hu, ih hu hv, hprogram] at hsstep
      rw [program_of_after? hv, hsstep] at htstep
      exact Except.ok.inj htstep

/-- Two running sessions of one program that agree in their control keep agreeing in it. A label is
missing, or a `leave` meets a call for a value, in both of them or in none, exactly if a number that
is too long keeps both of them from raising that fault or none. -/
theorem control_independent_unless_muted {s t s' t' : Session} {n : Nat}
    (hprogram : s.program = t.program) (hs : s.runState = .running) (ht : t.runState = .running)
    (hpc : s.pc = t.pc) (hsteps : s.steps = t.steps)
    (hframes : s.machine.frames.map Frame.shape = t.machine.frames.map Frame.shape)
    (hsrun : s.after? n = some s') (htrun : t.after? n = some t') :
    s'.control = t'.control ∧
      ((∀ fault, s'.Raises fault ↔ t'.Raises fault) ↔ (s'.Muted ↔ t'.Muted)) := by
  have hcontrol : s.control = t.control := by
    simp only [control, hpc, hsteps, hs, ht, hframes]
  have hsame := control_of_after? hprogram hcontrol hsrun htrun
  have hprogram' : s'.program = t'.program := by
    rw [program_of_after? hsrun, program_of_after? htrun, hprogram]
  refine ⟨hsame, ?_⟩
  simp only [raises_iff, hsame, hprogram']
  cases hstep : t'.control.step t'.program with
  | ok c =>
      have hunmuted {u : Session} (hu : u.control = t'.control) (hp : u.program = t'.program) :
          ¬ u.Muted := by
        intro hmuted
        obtain ⟨fault, hfault⟩ := exists_error_of_muted hmuted
        rw [hu, hp, hstep] at hfault
        cases hfault
      simp [hunmuted hsame hprogram', hunmuted rfl rfl]
  | error fault =>
      constructor
      · intro h
        exact not_iff_not.mp (by simpa using h fault)
      · intro h fault'
        rw [h]

/-- A `leave` meets a call for a value after it has closed a jump. -/
def mismatchedLeave : Program where
  code := [.call (some (.register .rax)) "f", .label "f",
    .move (.register .rbx) (.address (.reference (.register .rcx))), .jump "g", .label "g", .leave]
  lineNumbers := List.range' 1 6

/-- A session inside the call, with data of its own. -/
def insideCall (rcx : Value) (size : Nat) (dest : Address) (saved : Registers) : Session where
  program := mismatchedLeave
  machine := ⟨{ rcx }, Array.replicate size .uninitialized, [⟨1, false, some dest, saved⟩]⟩
  pc := 2
  steps := 2

def intoRegister : Session := insideCall (.integer 1) 2 (.register .rax) {}

def intoSlot : Session := insideCall (.pointer (.slot 0)) 3 (.slot 7) { rbx := .text "b" }

/-- The slot is the first whose index has too many digits. -/
def intoUnwritable : Session := insideCall (.integer 1) 2 (.slot (Nat.pow 10 Numeral.maxDigits)) {}

theorem insideCall_control_independent : ∃ s' t', intoRegister.after? 5 = some s' ∧
    intoSlot.after? 5 = some t' ∧ s'.Raises .valueExpected ∧ s'.control = t'.control ∧
      ∀ fault, s'.Raises fault ↔ t'.Raises fault := by
  have hs : (intoRegister.after? 5).map (fun u => u.step.2) =
      some (.error (.fault (.valueExpected (.register .rax)))) := by decide +kernel
  have ht : (intoSlot.after? 5).map (fun u => u.step.2) =
      some (.error (.fault (.valueExpected (.slot 7)))) := by decide +kernel
  obtain ⟨s', hsrun, hsfails⟩ := Option.map_eq_some_iff.mp hs
  obtain ⟨t', htrun, htfails⟩ := Option.map_eq_some_iff.mp ht
  have hsraises : s'.Raises .valueExpected := ⟨_, hsfails, rfl⟩
  have htraises : t'.Raises .valueExpected := ⟨_, htfails, rfl⟩
  have h := control_independent_unless_muted (s := intoRegister) (t := intoSlot) rfl rfl rfl rfl rfl
    rfl hsrun htrun
  exact ⟨s', t', hsrun, htrun, hsraises, h.1,
    h.2.mpr (iff_of_false (not_muted_of_raises hsraises) (not_muted_of_raises htraises))⟩

theorem unwritable_slot_seen : ¬ ∀ (s t s' t' : Session) (n : Nat), s.program = t.program →
    s.runState = .running → t.runState = .running → s.pc = t.pc → s.steps = t.steps →
    s.machine.frames.map Frame.shape = t.machine.frames.map Frame.shape →
    s.after? n = some s' → t.after? n = some t' →
      s'.control = t'.control ∧ ∀ fault, s'.Raises fault ↔ t'.Raises fault := by
  intro h
  have hs : (intoSlot.after? 5).map (fun u => u.step.2) =
      some (.error (.fault (.valueExpected (.slot 7)))) := by decide +kernel
  have ht : (intoUnwritable.after? 5).map (fun u => u.step.2) =
      some (.error (.numeral .writing)) := by decide +kernel
  obtain ⟨s', hsrun, hsfails⟩ := Option.map_eq_some_iff.mp hs
  obtain ⟨t', htrun, htfails⟩ := Option.map_eq_some_iff.mp ht
  have hframes : intoSlot.machine.frames.map Frame.shape =
      intoUnwritable.machine.frames.map Frame.shape := by decide +kernel
  obtain ⟨-, hfaults⟩ := h intoSlot intoUnwritable s' t' 5 rfl rfl rfl rfl rfl hframes hsrun htrun
  obtain ⟨cause, hraised, -⟩ := (hfaults .valueExpected).mp ⟨_, hsfails, rfl⟩
  rw [htfails] at hraised
  cases hraised

end Session

end TriReg
