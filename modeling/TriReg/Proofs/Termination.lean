import Mathlib.Logic.Function.Iterate
import Mathlib.Tactic.IntervalCases
import Mathlib.Tactic.Ring
import TriReg.Proofs.Block

/-!
Runs of bounded depth end. `Program.rank` bounds the steps that are left, with one summand for each
open frame: what its level may still take from the instruction it resumes at, where an instruction
that opens a frame is charged for the whole level above. Every step of a running session lowers the
rank, except a step that fails to write a number and leaves everything as it was.
-/

namespace TriReg

namespace Program

variable {p : Program} {pc : Int} {i : Instruction}

/-- What one instruction may cost, itself included, when `levels` more frames can be opened. -/
def cost (p : Program) : (levels : Nat) → Nat
  | 0 => 1
  | levels + 1 => p.code.length * p.cost levels + 2

def room (p : Program) (pc : Int) : Nat := (p.code.length - pc).toNat

/-- The steps that a level may take which resumes at `pc`, the one that ends it included. -/
def allowance (p : Program) (levels : Nat) (pc : Int) : Nat := p.room pc * p.cost levels + 1

/-- The steps that the innermost level may take. A terminator is its last step. -/
def current (p : Program) (levels : Nat) (pc : Int) : Nat :=
  match p.fetch pc with
  | some (.ret _) | some .leave => 1
  | _ => p.allowance levels pc

def pending (p : Program) (limit : Nat) : List Frame → Nat
  | [] => 0
  | frame :: frames =>
      p.allowance (limit - frames.length) frame.returnPc + p.pending limit frames

/-- A bound for the steps that are left to a run whose depth stays within `limit`. -/
def rank (p : Program) (limit : Nat) (pc : Int) (frames : List Frame) : Nat :=
  p.current (limit - frames.length) pc + p.pending limit frames

theorem cost_pos (p : Program) (levels : Nat) : 0 < p.cost levels := by
  cases levels <;> simp [cost]

theorem room_eq_succ (h : p.fetch pc = some i) : p.room pc = p.room (pc + 1) + 1 := by
  obtain ⟨index, rfl, hindex⟩ := fetch_eq_some_iff.mp h
  have hlt := (List.getElem?_eq_some_iff.mp hindex).1
  unfold room
  omega

theorem room_le (p : Program) (index : Nat) : p.room index ≤ p.code.length := by
  unfold room
  omega

theorem allowance_eq_add (levels : Nat) (h : p.fetch pc = some i) :
    p.allowance levels pc = p.allowance levels (pc + 1) + p.cost levels := by
  rw [allowance, allowance, room_eq_succ h]
  ring

theorem current_le_allowance (p : Program) (levels : Nat) (pc : Int) :
    p.current levels pc ≤ p.allowance levels pc := by
  unfold current
  split
  · exact Nat.le_add_left 1 _
  · exact Nat.le_add_left 1 _
  · exact Nat.le_refl _

theorem current_pos (p : Program) (levels : Nat) (pc : Int) : 0 < p.current levels pc := by
  unfold current
  split
  · exact Nat.one_pos
  · exact Nat.one_pos
  · exact Nat.succ_pos _

theorem current_eq_allowance (levels : Nat) (h : p.fetch pc = some i)
    (hi : ¬ i.IsTerminator) : p.current levels pc = p.allowance levels pc := by
  unfold current
  rw [h]
  split
  · rename_i heq
    cases heq
    exact absurd rfl hi
  · rename_i heq
    cases heq
    exact absurd rfl hi
  · rfl

theorem current_of_isTerminator (levels : Nat) (h : p.fetch pc = some i) (hi : i.IsTerminator) :
    p.current levels pc = 1 := by
  unfold current
  rw [h]
  cases i with
  | ret | leave => rfl
  | move | compute | loadAddress | call | jump | label | syscall => cases hi

/-- A level that is entered at a label costs less than the instruction that enters it. -/
theorem current_lt_cost (p : Program) (levels index : Nat) :
    p.current levels index < p.cost (levels + 1) := by
  have hcurrent := p.current_le_allowance levels index
  have hroom := Nat.mul_le_mul_right (p.cost levels) (p.room_le index)
  unfold allowance at hcurrent
  unfold cost
  omega

theorem rank_pos (p : Program) (limit : Nat) (pc : Int) (frames : List Frame) :
    0 < p.rank limit pc frames :=
  Nat.add_pos_left (p.current_pos _ pc) _

theorem length_mul_cost_lt (p : Program) (levels : Nat) :
    p.code.length * p.cost levels < (p.code.length + 1) ^ (levels + 1) := by
  induction levels with
  | zero => simp [cost]
  | succ levels ih =>
      have hbase : p.code.length + 1 ≤ (p.code.length + 1) ^ (levels + 1) :=
        Nat.le_self_pow (Nat.succ_ne_zero levels) _
      have hlevel : p.code.length * (p.code.length * p.cost levels + 1) ≤
          p.code.length * (p.code.length + 1) ^ (levels + 1) :=
        Nat.mul_le_mul_left p.code.length ih
      calc p.code.length * p.cost (levels + 1)
          = p.code.length * (p.code.length * p.cost levels + 1) + p.code.length := by
            rw [cost]
            ring
        _ < p.code.length * (p.code.length + 1) ^ (levels + 1) +
              (p.code.length + 1) ^ (levels + 1) := by omega
        _ = (p.code.length + 1) ^ (levels + 1 + 1) := by ring

theorem rank_start_le (p : Program) (limit : Nat) :
    p.rank limit 0 [] ≤ (p.code.length + 1) ^ (limit + 1) := by
  have hcurrent := p.current_le_allowance limit 0
  have hroom := Nat.mul_le_mul_right (p.cost limit) (p.room_le 0)
  have hbound := p.length_mul_cost_lt limit
  simp only [allowance, Nat.cast_zero] at hcurrent hroom
  simp only [rank, pending, List.length_nil, Nat.sub_zero]
  omega

theorem rank_next_lt {limit : Nat} {frames : List Frame} (h : p.fetch pc = some i)
    (hi : ¬ i.IsTerminator) : p.rank limit (pc + 1) frames < p.rank limit pc frames := by
  have hcurrent := p.current_le_allowance (limit - frames.length) (pc + 1)
  have hcost := p.cost_pos (limit - frames.length)
  have hallowance := allowance_eq_add (limit - frames.length) h
  rw [rank, rank, current_eq_allowance _ h hi]
  omega

theorem rank_enter_lt {limit index : Nat} {frame : Frame} {frames : List Frame}
    (h : p.fetch pc = some i) (hi : ¬ i.IsTerminator) (hframe : frame.returnPc = pc + 1)
    (hdepth : frames.length < limit) :
    p.rank limit index (frame :: frames) < p.rank limit pc frames := by
  have hcurrent := p.current_lt_cost (limit - (frames.length + 1)) index
  have hlevels : limit - (frames.length + 1) + 1 = limit - frames.length := by omega
  have hallowance := allowance_eq_add (limit - frames.length) h
  rw [hlevels] at hcurrent
  rw [rank, rank, current_eq_allowance _ h hi, pending, hframe, List.length_cons]
  omega

theorem rank_resume_lt (p : Program) (limit : Nat) (pc : Int) (frame : Frame)
    (frames : List Frame) :
    p.rank limit frame.returnPc frames < p.rank limit pc (frame :: frames) := by
  have hcurrent := p.current_le_allowance (limit - frames.length) frame.returnPc
  have hpos := p.current_pos (limit - (frame :: frames).length) pc
  rw [rank, rank, pending]
  omega

/-- A terminator that closes a frame and then fails is executed once more, over the frames that are
left. -/
theorem rank_closed_lt {limit : Nat} {frame : Frame} {frames : List Frame}
    (h : p.fetch pc = some i) (hi : i.IsTerminator) :
    p.rank limit pc frames < p.rank limit pc (frame :: frames) := by
  have hlast := fun levels => current_of_isTerminator levels h hi
  have hpos : 0 < p.allowance (limit - frames.length) frame.returnPc := Nat.succ_pos _
  rw [rank, rank, pending, hlast, hlast]
  omega

end Program

namespace Session

/-- The session after a step, whether the step raises or not. -/
def next (s : Session) : Session := s.step.1

/-- The step fails since a number is too long to be written, and nothing changes by it. -/
def Stuck (s : Session) : Prop := ∃ limit, s.step = (s, .error (.numeral limit))

def rank (limit : Nat) (s : Session) : Nat := s.program.rank limit s.pc s.machine.frames

theorem next_of_finished {s : Session} (h : s.runState ≠ .running) : s.next = s := by
  rw [next, step_of_finished h]

theorem next_of_stuck {s : Session} (h : s.Stuck) : s.next = s := by
  obtain ⟨limit, hstep⟩ := h
  rw [next, hstep]

theorem running_of_stuck {s : Session} (h : s.Stuck) : s.runState = .running := by
  obtain ⟨limit, hstep⟩ := h
  by_contra hfinished
  cases hstep.symm.trans (step_of_finished hfinished)

theorem moved_next {s : Session} {t : Transition} (h : s.step.2 = .ok t) : s.Moved s.next :=
  moved_of_step_ok h

/-- A number that cannot be written is missed before anything changes, or with a frame already
closed: when a returned value is delivered, or in the message of a `leave`. -/
theorem perform_of_numeral {m : Machine} {p : Program} {pc : Int} {i : Instruction}
    {limit : Numeral.LimitError} (h : (m.perform p pc i).result = .error (.numeral limit)) :
    m.perform p pc i = ⟨m, none, .error (.numeral limit)⟩ ∨
      ∃ frame frames after, m.frames = frame :: frames ∧ after.frames = frames ∧
        m.perform p pc i = ⟨after, none, .error (.numeral limit)⟩ ∧
        ((∃ operand, i = .ret operand) ∨
          i = .leave ∧ ∃ dest, frame.dest = some dest ∧ dest.displayable = false) := by
  have hperformed := m.performed_perform p pc i
  generalize m.perform p pc i = outcome at h hperformed
  cases hperformed with
  | refused hplain hexecute =>
      cases h
      exact .inl rfl
  | unreadable hget =>
      cases h
      exact .inl rfl
  | @undelivered operand v frame frames dest failure hframes hdest hget hset =>
      cases h
      exact .inr ⟨frame, frames, _, hframes, rfl, rfl, .inl ⟨operand, rfl⟩⟩
  | @unnamed frame frames dest hframes hdest hhidden =>
      cases h
      exact .inr ⟨frame, frames, _, hframes, rfl, rfl, .inr ⟨rfl, dest, hdest, hhidden⟩⟩
  | plain | enter | lost | exit | exitLeave | resume | mismatched => cases h

theorem performed_eq {s : Session} {i : Instruction} {machine : Machine}
    {result : Except Failure Transition} (htracing : s.tracing = false)
    (h : s.machine.perform s.program s.pc i = ⟨machine, none, result⟩) :
    s.performed i = { s with machine } := by
  simp [performed, record, print, htracing, h]

/-- The steps of a session that runs on and is not stuck lower its rank. -/
theorem rank_next_lt {limit : Nat} {s : Session} (htracing : s.tracing = false)
    (hstuck : ¬ s.Stuck) (hnext : s.next.runState = .running) (hdepth : s.next.depth ≤ limit) :
    s.next.rank limit < s.rank limit := by
  have hprogram : s.next.program = s.program := program_step s
  cases hresult : s.step.2 with
  | ok t =>
      cases moved_next hresult with
      | idle hfinished hafter =>
          rw [hafter] at hnext
          exact absurd hnext hfinished
      | finish hrunning hfetch hafter =>
          rw [hafter] at hnext
          cases hnext
      | plain hrunning hfetch hplain hexecute hmachine hpc hstate =>
          rw [rank, rank, hprogram, hmachine, hpc, Machine.frames_of_execute hplain hexecute]
          exact Program.rank_next_lt hfetch (Instruction.not_isTerminator_of_isPlain hplain)
      | enter hrunning hfetch htarget hlabel hmachine hpc hstate =>
          rw [depth, hmachine] at hdepth
          rw [rank, rank, hprogram, hmachine, hpc]
          exact Program.rank_enter_lt hfetch
            (Instruction.not_isTerminator_of_branchTarget? htarget) rfl hdepth
      | resume hrunning hfetch hframes hresumed hpc hstate =>
          rw [rank, rank, hprogram, hpc, hframes, Machine.frames_of_resumed hresumed]
          exact Program.rank_resume_lt ..
      | exit hrunning hfetch hterminator hframes hmachine hpc hstate =>
          rw [hstate] at hnext
          cases hnext
  | error failure =>
      cases failure with
      | fault cause =>
          rw [next, (stopped_of_step_fault hresult).1] at hnext
          cases hnext
      | numeral limit =>
          obtain ⟨i, hrunning, hfetch, ⟨-, hsame⟩ | ⟨-, hperformed, hfailed⟩⟩ :=
            step_of_numeral hresult
          · exact absurd ⟨limit, Prod.ext hsame hresult⟩ hstuck
          · rcases perform_of_numeral hfailed with
              hsame | ⟨frame, frames, after, hframes, hclosed, hpop, hcloses⟩
            · rw [performed_eq htracing hsame] at hperformed
              exact absurd ⟨limit, Prod.ext hperformed hresult⟩ hstuck
            · have hterminator : i.IsTerminator := by
                rcases hcloses with ⟨operand, rfl⟩ | ⟨rfl, -⟩ <;> simp
              rw [performed_eq htracing hpop] at hperformed
              rw [rank, rank, next, hperformed, hframes]
              change s.program.rank _ s.pc after.frames < _
              rw [hclosed]
              exact Program.rank_closed_lt hfetch hterminator

section Iterate

variable {s : Session} {limit k : Nat}

theorem tracing_iterate_next (s : Session) (k : Nat) : (next^[k] s).tracing = s.tracing := by
  induction k with
  | zero => rfl
  | succ k ih =>
      rw [Function.iterate_succ_apply', next, tracing_step, ih]

theorem rank_iterate_next_add_le (htracing : s.tracing = false)
    (hdepth : ∀ j, (next^[j] s).depth ≤ limit) (hstuck : ∀ j < k, ¬ (next^[j] s).Stuck)
    (hrunning : (next^[k] s).runState = .running) :
    (next^[k] s).rank limit + k ≤ s.rank limit := by
  induction k with
  | zero => exact Nat.le_refl _
  | succ k ih =>
      have hdepth' := hdepth (k + 1)
      rw [Function.iterate_succ_apply'] at hrunning hdepth' ⊢
      have hbefore : (next^[k] s).runState = .running := by
        by_contra hfinished
        rw [next_of_finished hfinished] at hrunning
        exact hfinished hrunning
      have hspent := ih (fun j hj => hstuck j (by omega)) hbefore
      have htracing' : (next^[k] s).tracing = false := by
        rw [tracing_iterate_next, htracing]
      have hlt := rank_next_lt htracing' (hstuck k (by omega)) hrunning hdepth'
      omega

theorem iterate_next_of_stuck (h : (next^[k] s).Stuck) {j : Nat} (hj : k ≤ j) :
    next^[j] s = next^[k] s := by
  obtain ⟨m, rfl⟩ := Nat.exists_eq_add_of_le hj
  rw [Nat.add_comm, Function.iterate_add_apply]
  exact Function.iterate_fixed (next_of_stuck h) m

theorem iterate_next_of_finished (h : (next^[k] s).runState ≠ .running) {j : Nat} (hj : k ≤ j) :
    next^[j] s = next^[k] s := by
  obtain ⟨m, rfl⟩ := Nat.exists_eq_add_of_le hj
  rw [Nat.add_comm, Function.iterate_add_apply]
  exact Function.iterate_fixed (next_of_finished h) m

end Iterate

/-- A run whose depth stays within `D` is finished after `(N + 1) ^ (D + 1)` steps, for a program of
`N` instructions, exactly if it never gets stuck at a number that is too long to be written. So a
run that does not get stuck can only go on for ever when its depth grows without bound. -/
theorem finished_iff_of_bounded_depth (p : Program) (size : Nat) :
    (∀ D, (∀ k, (next^[k] (fresh p size)).depth ≤ D) →
      ((next^[(p.code.length + 1) ^ (D + 1)] (fresh p size)).runState ≠ .running ↔
        ∀ k, ¬ (next^[k] (fresh p size)).Stuck)) ∧
      ((∀ k, (next^[k] (fresh p size)).runState = .running) →
        (∃ k, (next^[k] (fresh p size)).Stuck) ∨
          ∀ D, ∃ k, D < (next^[k] (fresh p size)).depth) := by
  have hbounded : ∀ D, (∀ k, (next^[k] (fresh p size)).depth ≤ D) →
      (∀ k, ¬ (next^[k] (fresh p size)).Stuck) →
      (next^[(p.code.length + 1) ^ (D + 1)] (fresh p size)).runState ≠ .running := by
    intro D hdepth hstuck hrunning
    have hspent := rank_iterate_next_add_le rfl hdepth (fun j _ => hstuck j) hrunning
    have hstart : (fresh p size).rank D ≤ (p.code.length + 1) ^ (D + 1) := p.rank_start_le D
    have hpos : 0 < (next^[(p.code.length + 1) ^ (D + 1)] (fresh p size)).rank D :=
      Program.rank_pos ..
    omega
  constructor
  · intro D hdepth
    refine ⟨?_, hbounded D hdepth⟩
    intro hfinished k hstuck
    rcases Nat.le_total k ((p.code.length + 1) ^ (D + 1)) with hk | hk
    · rw [iterate_next_of_stuck hstuck hk] at hfinished
      exact hfinished (running_of_stuck hstuck)
    · rw [iterate_next_of_finished hfinished hk] at hstuck
      exact hfinished (running_of_stuck hstuck)
  · intro hrunning
    by_contra hneither
    simp only [not_or, not_exists, not_forall, Nat.not_lt] at hneither
    obtain ⟨hstuck, D, hdepth⟩ := hneither
    exact hbounded D hdepth hstuck (hrunning _)

def longestIndex : Nat := 10 ^ Numeral.maxDigits - 1

/-- Doubles the longest slot index that can be written, and stores through it. -/
def hugePointer : Program where
  code := [.loadAddress (.register .rax) (.slot longestIndex),
    .compute .add (.register .rax) (.address (.register .rax)) (.address (.register .rax)),
    .move (.reference (.register .rax)) (.literal (.integer 1))]
  lineNumbers := List.range' 1 3

def hugePointerSession : Session where
  program := hugePointer
  machine := ⟨{ rax := .pointer (.slot (longestIndex + longestIndex)) },
    Array.replicate 4 .uninitialized, []⟩
  pc := 2
  steps := 2

theorem next_next_hugePointer : next^[2] (fresh hugePointer 4) = hugePointerSession := by
  decide +kernel

theorem stuck_hugePointerSession : hugePointerSession.Stuck :=
  ⟨.writing, by decide +kernel⟩

theorem depth_iterate_next_hugePointer (k : Nat) : (next^[k] (fresh hugePointer 4)).depth = 0 := by
  rcases Nat.lt_or_ge k 2 with hk | hk
  · interval_cases k
    · rfl
    · decide +kernel
  · rw [iterate_next_of_stuck (next_next_hugePointer ▸ stuck_hugePointerSession) hk,
      next_next_hugePointer]
    rfl

theorem runState_iterate_next_hugePointer {k : Nat} (hk : 2 ≤ k) :
    (next^[k] (fresh hugePointer 4)).runState = .running := by
  rw [iterate_next_of_stuck (next_next_hugePointer ▸ stuck_hugePointerSession) hk,
    next_next_hugePointer]
  rfl

theorem hugePointer_never_finished :
    ¬ ∀ (p : Program) (size D : Nat), (∀ k, (next^[k] (fresh p size)).depth ≤ D) →
      (next^[(p.code.length + 1) ^ (D + 1)] (fresh p size)).runState ≠ .running := by
  intro hfinished
  refine hfinished hugePointer 4 0 ?_ (runState_iterate_next_hugePointer (by decide))
  intro k
  exact Nat.le_of_eq (depth_iterate_next_hugePointer k)

end Session

end TriReg
