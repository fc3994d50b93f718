import TriReg.Proofs.Block
import TriReg.Proofs.DataFailure

/-!
The static check is sound for control flow. While a program that passed it runs, every open frame
keeps control inside the block that it entered, so no label is missing and the end of the program
is only reached at top level. Behind it stands one invariant over all open frames
(`Program.Confined`): each of them resumes inside the block of the frame below it.
-/

namespace TriReg

namespace Program

/-- The frame was opened by a call or a jump to a label in whose block the position lies. -/
def Within (p : Program) (frame : Frame) (pc : Int) : Prop :=
  ∃ i label first last, p.fetch (frame.returnPc - 1) = some i ∧ i.branchTarget? = some label ∧
    p.IsBlock label first last ∧ first ≤ pc ∧ pc ≤ last

def Confined (p : Program) (pc : Int) : List Frame → Prop
  | [] => True
  | frame :: frames => p.Within frame pc ∧ p.Confined frame.returnPc frames

variable {p : Program} {pc : Int} {i : Instruction} {frame : Frame} {frames : List Frame}

theorem Within.exists_fetch (h : p.Within frame pc) : ∃ i, p.fetch pc = some i := by
  obtain ⟨-, label, first, last, -, -, hblock, hfirst, hlast⟩ := h
  have hlt : pc.toNat < p.code.length := by
    have := hblock.last_lt
    omega
  exact ⟨p.code[pc.toNat], fetch_eq_some_iff.mpr
    ⟨pc.toNat, by omega, List.getElem?_eq_getElem hlt⟩⟩

/-- A block is not left over its end, where a terminator stands. -/
theorem Within.next (h : p.Within frame pc) (hfetch : p.fetch pc = some i)
    (hi : ¬ i.IsTerminator) : p.Within frame (pc + 1) := by
  obtain ⟨opener, label, first, last, hopener, htarget, hblock, hfirst, hlast⟩ := h
  refine ⟨opener, label, first, last, hopener, htarget, hblock, by omega, ?_⟩
  have hne : pc ≠ last := by
    rintro rfl
    obtain ⟨index, hindex, hcode⟩ := fetch_eq_some_iff.mp hfetch
    obtain ⟨j, hj, hterminator⟩ := hblock.terminated
    have hsame : last = index := by omega
    rw [hsame, hcode] at hj
    cases hj
    exact hi hterminator
  omega

theorem Confined.next (h : p.Confined pc frames) (hfetch : p.fetch pc = some i)
    (hi : ¬ i.IsTerminator) : p.Confined (pc + 1) frames := by
  cases frames with
  | nil => trivial
  | cons frame frames => exact ⟨h.1.next hfetch hi, h.2⟩

/-- What a call or a jump enters: the block of its label, over a frame that resumes in the block
that control comes from. -/
theorem Confined.enter {label : String} {index : Nat} (hcheck : p.check = .ok ())
    (h : p.Confined pc frames) (hfetch : p.fetch pc = some i)
    (htarget : i.branchTarget? = some label) (hlabel : p.findLabel label = some index)
    (hframe : frame.returnPc = pc + 1) : p.Confined index (frame :: frames) := by
  obtain ⟨first, last, hblock⟩ := exists_isBlock_of_check hcheck (mem_of_fetch hfetch) htarget
  have hfirst : first = index := by
    have hdefined := hblock.defined
    rw [hlabel] at hdefined
    cases hdefined
    rfl
  subst hfirst
  have hlt := hblock.first_lt
  constructor
  · refine ⟨i, label, first, last, ?_, htarget, hblock, Int.le_refl _, by omega⟩
    rw [hframe, Int.add_sub_cancel]
    exact hfetch
  · rw [hframe]
    exact h.next hfetch (Instruction.not_isTerminator_of_branchTarget? htarget)

theorem Confined.exists_fetch (h : p.Confined pc frames) (hframes : frames ≠ []) :
    ∃ i, p.fetch pc = some i := by
  cases frames with
  | nil => exact absurd rfl hframes
  | cons frame frames => exact h.1.exists_fetch

end Program

namespace Session

/-- What holds of the sessions of a checked program: control is confined to the blocks of the open
frames, and none is open at the end. -/
structure InBlocks (p : Program) (s : Session) : Prop where
  program : s.program = p
  confined : p.Confined s.pc s.machine.frames
  closed : s.runState = .halted → s.machine.frames = []

theorem inBlocks_fresh (p : Program) (size : Nat) : InBlocks p (fresh p size) where
  program := rfl
  confined := trivial
  closed := by
    intro hstate
    cases hstate

theorem InBlocks.next? {p : Program} (hcheck : p.check = .ok ()) {s after : Session}
    (h : InBlocks p s) (hnext : s.next? = some after) : InBlocks p after := by
  obtain ⟨rfl, hconfined, hclosed⟩ := h
  have hprogram := program_of_next? hnext
  cases moved_of_next? hnext with
  | idle hfinished hafter =>
      subst hafter
      exact ⟨rfl, hconfined, hclosed⟩
  | finish hrunning hfetch hafter =>
      subst hafter
      refine ⟨rfl, hconfined, ?_⟩
      intro _
      by_contra hframes
      obtain ⟨i, hi⟩ := hconfined.exists_fetch hframes
      rw [hfetch] at hi
      cases hi
  | plain hrunning hfetch hplain hexecute hmachine hpc hstate =>
      refine ⟨hprogram, ?_, by simp [hstate]⟩
      rw [hmachine, hpc, Machine.frames_of_execute hplain hexecute]
      exact hconfined.next hfetch (Instruction.not_isTerminator_of_isPlain hplain)
  | enter hrunning hfetch htarget hlabel hmachine hpc hstate =>
      refine ⟨hprogram, ?_, by simp [hstate]⟩
      rw [hmachine, hpc]
      exact hconfined.enter hcheck hfetch htarget hlabel rfl
  | resume hrunning hfetch hframes hresumed hpc hstate =>
      refine ⟨hprogram, ?_, by simp [hstate]⟩
      rw [hpc, Machine.frames_of_resumed hresumed]
      rw [hframes] at hconfined
      exact hconfined.2
  | exit hrunning hfetch hterminator hframes hmachine hpc hstate =>
      refine ⟨hprogram, ?_, ?_⟩
      · rw [hmachine, hframes]
        trivial
      · intro _
        rw [hmachine, hframes]

theorem exists_branch_of_labelNotFound {s : Session} {label : String}
    (h : s.step.2 = .error (.fault (.labelNotFound label))) :
    ∃ i ∈ s.program.code, i.branchTarget? = some label ∧ s.program.findLabel label = none := by
  obtain ⟨i, -, hfetch, -, hresult, -⟩ := advance_of_step_fault h
  rcases Machine.cases_of_isControl rfl hresult with
    ⟨label', htarget, hmissing, hlabel⟩ | ⟨frame, frames, dest, -, -, -, hmismatch⟩
  · cases hlabel
    exact ⟨i, Program.mem_of_fetch hfetch, htarget, hmissing⟩
  · cases hmismatch

/-- Soundness of the static check. In every run of a checked program no label is missing, the
position lies in the block that the innermost frame entered, the program does not end while a frame
is open, and none is open when it has halted. -/
theorem checked_run_stays_in_blocks {p : Program} {size n : Nat} {s : Session}
    (hcheck : p.check = .ok ()) (hrun : (fresh p size).after? n = some s) :
    (∀ label, s.step.2 ≠ .error (.fault (.labelNotFound label))) ∧
      (∀ frame frames, s.machine.frames = frame :: frames → p.Within frame s.pc) ∧
      (s.machine.frames ≠ [] → ∃ i, p.fetch s.pc = some i) ∧
      (s.runState = .halted → s.machine.frames = []) := by
  obtain ⟨rfl, hconfined, hclosed⟩ : InBlocks p s :=
    after?_induction (inBlocks_fresh p size) (fun hu hnext => hu.next? hcheck hnext) hrun
  refine ⟨?_, ?_, hconfined.exists_fetch, hclosed⟩
  · intro label hmissing
    obtain ⟨i, hi, htarget, hnone⟩ := exists_branch_of_labelNotFound hmissing
    obtain ⟨first, last, hblock⟩ := Program.exists_isBlock_of_check hcheck hi htarget
    have hdefined := hblock.defined
    rw [hnone] at hdefined
    cases hdefined
  · intro frame frames hframes
    rw [hframes] at hconfined
    exact hconfined.1

/-- Two blocks that enter each other, one of which defines its label twice. -/
def mutualCalls : Program where
  code := [.call (some (.register .rax)) "f", .leave, .label "f", .call none "g", .label "f",
    .ret (.address (.register .rax)), .label "g", .jump "f", .leave]
  lineNumbers := List.range' 1 9

theorem mutualCalls_stays_in_blocks : ∃ s, (fresh mutualCalls 4).after? 8 = some s ∧ s.depth = 4 ∧
    (∀ label, s.step.2 ≠ .error (.fault (.labelNotFound label))) ∧
      (∀ frame frames, s.machine.frames = frame :: frames → mutualCalls.Within frame s.pc) ∧
      (s.machine.frames ≠ [] → ∃ i, mutualCalls.fetch s.pc = some i) ∧
      (s.runState = .halted → s.machine.frames = []) := by
  have hdeep : ((fresh mutualCalls 4).after? 8).map depth = some 4 := by decide
  obtain ⟨s, hrun, hdepth⟩ := Option.map_eq_some_iff.mp hdeep
  exact ⟨s, hrun, hdepth, checked_run_stays_in_blocks rfl hrun⟩

end Session

end TriReg
