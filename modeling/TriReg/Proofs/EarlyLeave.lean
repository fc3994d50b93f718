import TriReg.Proofs.Confinement
import TriReg.Proofs.Reachable
import TriReg.Proofs.Termination

namespace TriReg

namespace Program

/-- The block of a label as a call for a value has it checked: from the first definition of the
label to the first `ret` after it, with no other label on the way. -/
structure IsValueBlock (p : Program) (label : String) (first last : Nat) : Prop where
  defined : p.findLabel label = some first
  first_lt : first < last
  returns : ∃ operand, p.code[last]? = some (.ret operand)
  before : ∀ index, first < index → index < last →
    (∀ operand, p.code[index]? ≠ some (.ret operand)) ∧
      ∀ other, p.code[index]? = some (.label other) → other = label

/-- A `leave` stands in the block before its first `ret`. -/
def LeavesEarly (p : Program) (label : String) (index : Nat) : Prop :=
  ∃ first last, p.IsValueBlock label first last ∧ first < index ∧ index < last ∧
    p.code[index]? = some .leave

variable {p : Program} {pc : Int} {label : String} {first last : Nat}

theorem exists_ret_of_closes {i : Instruction} (h : Terminator.ret.closes i = true) :
    ∃ operand, i = .ret operand := by
  cases i <;> first | exact ⟨_, rfl⟩ | cases h

theorem exists_isValueBlock_of_check {dest : Address} (hcheck : p.check = .ok ())
    (hcall : .call (some dest) label ∈ p.code) : ∃ first last, p.IsValueBlock label first last := by
  classical
  have hblock := check_eq_ok_iff.mp hcheck _ hcall label .ret rfl
  obtain ⟨first, hdefined, k, i, hk, hcloses, hlabels⟩ := checkBlock_eq_ok_iff.mp hblock
  obtain ⟨operand, rfl⟩ := exists_ret_of_closes hcloses
  have hexists : ∃ index, first < index ∧ ∃ operand, p.code[index]? = some (.ret operand) :=
    ⟨first + 1 + k, by omega, operand, by simpa using hk⟩
  obtain ⟨hlt, hreturns⟩ := Nat.find_spec hexists
  have hle : Nat.find hexists ≤ first + 1 + k :=
    Nat.find_min' hexists ⟨by omega, operand, by simpa using hk⟩
  refine ⟨first, Nat.find hexists, hdefined, hlt, hreturns, ?_⟩
  intro index hfirst hlast
  constructor
  · intro operand' hindex
    exact Nat.find_min hexists hlast ⟨hfirst, operand', hindex⟩
  · intro other hother
    refine hlabels (index - (first + 1)) (by omega) other ?_
    rw [List.getElem?_drop, Nat.add_sub_cancel' hfirst]
    exact hother

theorem IsBlock.leavesEarly {first' last' index : Nat} (h : p.IsBlock label first last)
    (hvalue : p.IsValueBlock label first' last') (hfirst : first ≤ index) (hlast : index ≤ last)
    (hleave : p.code[index]? = some .leave) : p.LeavesEarly label index := by
  obtain rfl : first' = first := by
    have hdefined := hvalue.defined
    rw [h.defined] at hdefined
    exact (Option.some.inj hdefined).symm
  have hne : first' ≠ index := by
    rintro rfl
    rw [code_of_findLabel h.defined] at hleave
    cases hleave
  obtain rfl : index = last := by
    by_contra hother
    exact h.before index .leave (by omega) (by omega) hleave rfl
  obtain ⟨operand, hret⟩ := hvalue.returns
  have hle : index ≤ last' := by
    by_contra hlt
    exact h.before last' (.ret operand) hvalue.first_lt (by omega) hret rfl
  have hreturn : index ≠ last' := by
    rintro rfl
    rw [hret] at hleave
    cases hleave
  exact ⟨first', last', hvalue, by omega, by omega, hleave⟩

theorem Opened.eq_call {frame : Frame} {i : Instruction} {dest : Address} (h : p.Opened frame)
    (hdest : frame.dest = some dest) (hfetch : p.fetch (frame.returnPc - 1) = some i)
    (htarget : i.branchTarget? = some label) : i = .call (some dest) label := by
  obtain ⟨i', label', hfetch', -, -, hreturn⟩ := h
  rw [hfetch] at hfetch'
  obtain rfl := Option.some.inj hfetch'
  rw [hdest] at hreturn
  cases i with
  | call dest' target =>
      obtain rfl : some dest = dest' := hreturn
      obtain rfl := Option.some.inj htarget
      rfl
  | jump => cases hreturn
  | _ => cases htarget

/-- The `leave` at the position stands in a block that is called for a value at the address, before
the first `ret`. -/
def LeavesCall (p : Program) (pc : Int) (dest : Address) : Prop :=
  ∃ label index, pc = (index : Nat) ∧ p.LeavesEarly label index ∧ .call (some dest) label ∈ p.code

/-- Control came to `pc` inside the blocks of the open frames. When a value cannot be delivered, or
a `leave` has met a call for a value at an address that no message can name, the frame is gone and
the instruction is still to be executed. -/
def Returning (p : Program) (pc : Int) (frames : List Frame) : Prop :=
  ∃ start, p.Confined start frames ∧ (start = pc ∨ (∃ operand, p.fetch pc = some (.ret operand)) ∨
    p.fetch pc = some .leave ∧ ∃ dest, p.LeavesCall pc dest ∧ dest.displayable = false)

theorem Returning.confined {frames : List Frame} {i : Instruction} (h : p.Returning pc frames)
    (hfetch : p.fetch pc = some i) (hterminator : ¬ i.IsTerminator) : p.Confined pc frames := by
  obtain ⟨start, hconfined, rfl | ⟨operand, hret⟩ | ⟨hleave, -⟩⟩ := h
  · exact hconfined
  · cases hfetch.symm.trans hret
    simp at hterminator
  · cases hfetch.symm.trans hleave
    simp at hterminator

/-- A `leave` that meets a call for a value stands in the block of that call, before the first
`ret`. So does one that is executed again, but then another call can be met. -/
theorem Returning.leavesCall {frame : Frame} {frames : List Frame} {dest : Address}
    (hcheck : p.check = .ok ()) (h : p.Returning pc (frame :: frames))
    (hfetch : p.fetch pc = some .leave) (hopened : p.Opened frame)
    (hdest : frame.dest = some dest) :
    ∃ called, p.LeavesCall pc called ∧ (called = dest ∨ called.displayable = false) := by
  obtain ⟨start, hconfined, rfl | ⟨operand, hret⟩ | ⟨-, called, hcalled, hhidden⟩⟩ := h
  · obtain ⟨opener, label, first, last, hopener, htarget, hblock, hfirst, hlast⟩ := hconfined.1
    obtain ⟨index, rfl, hleave⟩ := fetch_eq_some_iff.mp hfetch
    obtain rfl := hopened.eq_call hdest hopener htarget
    have hcall := mem_of_fetch hopener
    obtain ⟨first', last', hvalue⟩ := exists_isValueBlock_of_check hcheck hcall
    have hearly := hblock.leavesEarly hvalue (by omega) (by omega) hleave
    exact ⟨dest, ⟨label, index, rfl, hearly, hcall⟩, .inl rfl⟩
  · cases hfetch.symm.trans hret
  · exact ⟨called, hcalled, .inr hhidden⟩

end Program

namespace Session

variable {p : Program} {size : Nat} {s : Session}

theorem returning_of_numeral {limit : Numeral.LimitError} (hcheck : s.program.check = .ok ())
    (hopened : ∀ frame ∈ s.machine.frames, s.program.Opened frame)
    (h : s.program.Returning s.pc s.machine.frames)
    (hresult : s.step.2 = .error (.numeral limit)) :
    s.program.Returning s.step.1.pc s.step.1.machine.frames := by
  obtain ⟨i, -, hfetch, ⟨-, hsame⟩ | ⟨-, hperformed, hperform⟩⟩ := step_of_numeral hresult
  · rwa [hsame]
  rw [hperformed, pc_performed, machine_performed]
  rcases perform_of_numeral hperform with
    hsame | ⟨frame, frames, after, hframes, hclosed, hpop, hcloses⟩
  · rwa [hsame]
  rw [hframes] at h
  have ⟨start, hconfined, _⟩ := h
  rw [hpop, hclosed]
  refine ⟨_, hconfined.2, .inr ?_⟩
  rcases hcloses with ⟨operand, rfl⟩ | ⟨rfl, dest, hdest, hhidden⟩
  · exact .inl ⟨operand, hfetch⟩
  · obtain ⟨called, hcalled, hsame | hother⟩ :=
      h.leavesCall hcheck hfetch (hopened frame (by simp [hframes])) hdest
    · exact .inr ⟨hfetch, called, hcalled, hsame ▸ hhidden⟩
    · exact .inr ⟨hfetch, called, hcalled, hother⟩

theorem returning_step (hcheck : s.program.check = .ok ())
    (hopened : ∀ frame ∈ s.machine.frames, s.program.Opened frame)
    (h : s.runState = .running → s.program.Returning s.pc s.machine.frames)
    (hafter : s.step.1.runState = .running) :
    s.program.Returning s.step.1.pc s.step.1.machine.frames := by
  by_cases hrunning : s.runState = .running
  · have hreturning := h hrunning
    cases hresult : s.step.2 with
    | ok t =>
        cases moved_of_step_ok hresult with
        | idle hfinished => exact absurd hrunning hfinished
        | finish _ _ hhalted =>
            rw [hhalted] at hafter
            cases hafter
        | plain _ hfetch hplain hexecute hmachine hpc =>
            have hnext := Instruction.not_isTerminator_of_isPlain hplain
            have hconfined := hreturning.confined hfetch hnext
            rw [hpc, hmachine, Machine.frames_of_execute hplain hexecute]
            exact ⟨_, hconfined.next hfetch hnext, .inl rfl⟩
        | enter _ hfetch htarget hlabel hmachine hpc =>
            have hconfined := hreturning.confined hfetch
              (Instruction.not_isTerminator_of_branchTarget? htarget)
            rw [hpc, hmachine]
            exact ⟨_, hconfined.enter hcheck hfetch htarget hlabel rfl, .inl rfl⟩
        | resume _ _ hframes hresumed hpc =>
            obtain ⟨start, hconfined, -⟩ := hreturning
            rw [hframes] at hconfined
            rw [hpc, Machine.frames_of_resumed hresumed]
            exact ⟨_, hconfined.2, .inl rfl⟩
        | exit _ _ _ _ _ _ hstate =>
            rw [hstate] at hafter
            cases hafter
    | error failure =>
        cases failure with
        | fault cause =>
            rw [(stopped_of_step_fault hresult).1] at hafter
            cases hafter
        | numeral limit => exact returning_of_numeral hcheck hopened hreturning hresult
  · rw [step_of_finished hrunning] at hafter
    exact absurd hafter hrunning

theorem Reachable.returning (hcheck : p.check = .ok ()) (h : Reachable p size s)
    (hrunning : s.runState = .running) : p.Returning s.pc s.machine.frames := by
  induction h with
  | fresh => exact ⟨_, trivial, .inl rfl⟩
  | step h ih =>
      obtain rfl := h.program
      exact returning_step hcheck h.opened ih hrunning
  | @check s h ih =>
      have hprogram := h.program
      have hsame : s.check = (s, .ok ()) := by
        simp only [Session.check, hprogram, hcheck]
      rw [hsame] at hrunning ⊢
      exact ih hrunning
  | setTracing on h ih => exact ih hrunning
  | clearTrace h ih => exact ih hrunning
  | reset => exact ⟨_, trivial, .inl rfl⟩

/-- In a checked program, a `leave` that meets a call for a value stands in a block that is called
for a value, before the first `ret`; it is the call that is met, unless the `leave` has met one
before whose address no message can name. So where no block that is called for a value has such a
`leave`, none ever meets such a call. -/
theorem mismatched_leave_is_early (hcheck : p.check = .ok ()) :
    (∀ s dest, Reachable p size s → s.step.2 = .error (.fault (.valueExpected dest)) →
      ∃ called label index, s.pc = (index : Nat) ∧ p.LeavesEarly label index ∧
        .call (some called) label ∈ p.code ∧ (called = dest ∨ called.displayable = false)) ∧
      ((∀ dest label index, .call (some dest) label ∈ p.code → ¬ p.LeavesEarly label index) →
        ∀ s dest, Reachable p size s → s.step.2 ≠ .error (.fault (.valueExpected dest))) := by
  have hblame : ∀ s dest, Reachable p size s → s.step.2 = .error (.fault (.valueExpected dest)) →
      ∃ called, p.LeavesCall s.pc called ∧ (called = dest ∨ called.displayable = false) := by
    intro s dest hreach hfault
    obtain ⟨i, hrunning, hfetch, -, hperform, -⟩ := advance_of_step_fault hfault
    rcases Machine.cases_of_isControl rfl hperform with
      ⟨label, -, -, hlost⟩ | ⟨frame, frames, dest', rfl, hframes, hdest, hcause⟩
    · cases hlost
    · cases hcause
      have hreturning := hreach.returning hcheck hrunning
      rw [hreach.program] at hfetch
      rw [hframes] at hreturning
      exact hreturning.leavesCall hcheck hfetch (hreach.opened frame (by simp [hframes])) hdest
  constructor
  · intro s dest hreach hfault
    obtain ⟨called, ⟨label, index, hpc, hearly, hcall⟩, hcalled⟩ := hblame s dest hreach hfault
    exact ⟨called, label, index, hpc, hearly, hcall, hcalled⟩
  · intro hnone s dest hreach hfault
    obtain ⟨called, ⟨label, index, -, hearly, hcall⟩, -⟩ := hblame s dest hreach hfault
    exact hnone called label index hcall hearly

/-- The block of `f` has a `leave` before its `ret`, which is met after a jump inside the call. -/
def leaveBeforeRet : Program where
  code := [.call (some (.slot 0)) "f", .ret (.address (.slot 0)), .label "g", .leave, .label "f",
    .jump "g", .leave, .ret (.literal (.integer 1))]
  lineNumbers := List.range' 1 8

/-- The block of `f` jumps to a block with a `leave`, but has none before its `ret`. -/
def leaveBehindRet : Program where
  code := [.call (some (.slot 0)) "f", .leave, .label "f", .jump "g", .ret (.literal (.integer 1)),
    .label "g", .leave]
  lineNumbers := List.range' 1 7

theorem not_leavesEarly_leaveBehindRet (dest : Address) (label : String) (index : Nat)
    (hcall : .call (some dest) label ∈ leaveBehindRet.code) :
    ¬ leaveBehindRet.LeavesEarly label index := by
  obtain ⟨rfl, rfl⟩ : dest = .slot 0 ∧ label = "f" := by simpa [leaveBehindRet] using hcall
  rintro ⟨first, last, hblock, hfirst, hlast, hleave⟩
  have hdefined := hblock.defined
  obtain rfl : 2 = first := Option.some.inj hdefined
  have hret : last ≤ 4 := by
    by_contra hlt
    exact (hblock.before 4 (by omega) (by omega)).1 (.literal (.integer 1)) rfl
  obtain rfl : index = 3 := by omega
  cases hleave

theorem leaveBeforeRet_is_early : leaveBeforeRet.check = .ok () ∧
    (∃ s, Reachable leaveBeforeRet 4 s ∧
      s.step.2 = .error (.fault (.valueExpected (.slot 0))) ∧
        ∃ label index, s.pc = (index : Nat) ∧ leaveBeforeRet.LeavesEarly label index ∧
          .call (some (.slot 0)) label ∈ leaveBeforeRet.code) ∧
      leaveBehindRet.check = .ok () ∧
      ∀ s dest, Reachable leaveBehindRet 4 s →
        s.step.2 ≠ .error (.fault (.valueExpected dest)) := by
  have hcheck : leaveBeforeRet.check = .ok () := by decide
  have hfails : ((fresh leaveBeforeRet 4).after? 5).map (fun s => s.step.2) =
      some (.error (.fault (.valueExpected (.slot 0)))) := by decide +kernel
  obtain ⟨s, hrun, hfault⟩ := Option.map_eq_some_iff.mp hfails
  have hreach := Reachable.fresh.after? hrun
  have hcheck' : leaveBehindRet.check = .ok () := by decide
  obtain ⟨called, label, index, hpc, hearly, hcall, -⟩ :=
    (mismatched_leave_is_early hcheck).1 s (.slot 0) hreach hfault
  obtain ⟨rfl, -⟩ : called = .slot 0 ∧ label = "f" := by simpa [leaveBeforeRet] using hcall
  exact ⟨hcheck, ⟨s, hreach, hfault, label, index, hpc, hearly, hcall⟩, hcheck',
    (mismatched_leave_is_early hcheck').2 not_leavesEarly_leaveBehindRet⟩

end Session

end TriReg
