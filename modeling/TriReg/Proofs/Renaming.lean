import Mathlib.Data.Set.Operations
import TriReg.Proofs.Block
import TriReg.Proofs.DataFailure
import TriReg.Proofs.Translation

namespace TriReg

variable {f : String → String}

namespace Instruction

/-- The instruction with the names that `f` gives to labels. -/
def rename (f : String → String) : Instruction → Instruction
  | .call dest target => .call dest (f target)
  | .jump target => .jump (f target)
  | .label name => .label (f name)
  | i => i

variable (f) (i : Instruction)

theorem labelName?_rename : (i.rename f).labelName? = i.labelName?.map f := by
  cases i <;> rfl

theorem branchTarget?_rename : (i.rename f).branchTarget? = i.branchTarget?.map f := by
  cases i <;> rfl

theorem demand?_rename :
    (i.rename f).demand? = i.demand?.map fun demand => (f demand.1, demand.2) := by
  cases i with
  | call dest target => cases dest <;> rfl
  | move | compute | loadAddress | jump | label | ret | syscall | leave => rfl

theorem closes_rename (terminator : Terminator) :
    terminator.closes (i.rename f) = terminator.closes i := by
  cases i <;> cases terminator <;> rfl

theorem branchFrame_rename (m : Machine) (pc : Int) :
    m.branchFrame pc (i.rename f) = m.branchFrame pc i := by
  cases i <;> rfl

end Instruction

/-- The fault with the names that `f` gives to labels. -/
def Fault.rename (f : String → String) : Fault → Fault
  | .labelNotFound label => .labelNotFound (f label)
  | .unterminated label missing => .unterminated (f label) missing
  | cause => cause

theorem Failure.mapFault_rename_of_isControl {failure : Failure}
    (h : failure.isControl = false) : failure.mapFault (Fault.rename f) = failure := by
  cases failure with
  | numeral limit => rfl
  | fault cause => cases cause <;> first | rfl | cases h

namespace Program

/-- The program with the names that `f` gives to labels. -/
def rename (f : String → String) (p : Program) : Program where
  code := p.code.map (Instruction.rename f)
  lineNumbers := p.lineNumbers
  aligned := by simp [p.aligned]

/-- The labels that the program defines, calls or jumps to. -/
def labelNames (p : Program) : Set String :=
  {name | ∃ i ∈ p.code, i.labelName? = some name ∨ i.branchTarget? = some name}

variable {p : Program}

theorem fetch_rename (f : String → String) (p : Program) (pc : Int) :
    (p.rename f).fetch pc = (p.fetch pc).map (Instruction.rename f) := by
  unfold fetch
  split
  · exact List.getElem?_map
  · rfl

/-- The name of `label` is kept apart from the names of the other labels that the code defines. -/
def KeptApart (f : String → String) (code : List Instruction) (label : String) : Prop :=
  ∀ other, .label other ∈ code → f other = f label → other = label

theorem keptApart_of_injOn {label : String} (hf : Set.InjOn f p.labelNames)
    (hlabel : label ∈ p.labelNames) : KeptApart f p.code label :=
  fun _ hother hsame => hf ⟨_, hother, .inl rfl⟩ hlabel hsame

theorem KeptApart.tail {head : Instruction} {code : List Instruction} {label : String}
    (h : KeptApart f (head :: code) label) : KeptApart f code label :=
  fun other hother => h other (List.mem_cons_of_mem _ hother)

theorem KeptApart.name_eq_iff {name label : String} {code : List Instruction}
    (h : KeptApart f (.label name :: code) label) : f name = f label ↔ name = label :=
  ⟨h name List.mem_cons_self, congrArg f⟩

theorem findIdx?_rename {code : List Instruction} {label : String} (h : KeptApart f code label) :
    (code.map (Instruction.rename f)).findIdx? (fun i => i.labelName? == some (f label)) =
      code.findIdx? fun i => i.labelName? == some label := by
  induction code with
  | nil => rfl
  | cons head code ih =>
      have hhead : ((head.rename f).labelName? == some (f label)) =
          (head.labelName? == some label) := by
        cases head with
        | label name =>
            rw [Bool.eq_iff_iff]
            simp only [Instruction.rename, Instruction.labelName?, beq_iff_eq, Option.some.injEq]
            exact h.name_eq_iff
        | move | compute | loadAddress | call | jump | ret | syscall | leave => rfl
      rw [List.map_cons, List.findIdx?_cons, List.findIdx?_cons, hhead, ih h.tail]

theorem findLabel_rename {label : String} (hf : Set.InjOn f p.labelNames)
    (hlabel : label ∈ p.labelNames) : (p.rename f).findLabel (f label) = p.findLabel label :=
  findIdx?_rename (keptApart_of_injOn hf hlabel)

theorem enter_rename {label : String} (hf : Set.InjOn f p.labelNames)
    (hlabel : label ∈ p.labelNames) :
    (p.rename f).enter (f label) =
      (p.enter label).mapError (Failure.mapFault (Fault.rename f)) := by
  rw [enter, enter, findLabel_rename hf hlabel]
  cases p.findLabel label <;> rfl

theorem endsBlock_rename {terminator : Terminator} {code : List Instruction} {label : String}
    (h : KeptApart f code label) :
    terminator.endsBlock (f label) (code.map (Instruction.rename f)) =
      terminator.endsBlock label code := by
  induction code with
  | nil => rfl
  | cons head code ih =>
      rw [List.map_cons, Terminator.endsBlock, Terminator.endsBlock, Instruction.closes_rename,
        Instruction.labelName?_rename, ih h.tail]
      cases hname : head.labelName? with
      | none => rfl
      | some name =>
          rw [Instruction.labelName?_eq_some_iff] at hname
          subst hname
          simp only [Option.map_some, h.name_eq_iff]

theorem checkBlock_rename {label : String} {terminator : Terminator}
    (hf : Set.InjOn f p.labelNames) (hlabel : label ∈ p.labelNames) :
    (p.rename f).checkBlock (f label) terminator =
      (p.checkBlock label terminator).mapError (Fault.rename f) := by
  have hblock : (p.rename f).blockTerminates? (f label) terminator =
      p.blockTerminates? label terminator := by
    rw [blockTerminates?, blockTerminates?, findLabel_rename hf hlabel]
    have hends (index : Nat) :
        terminator.endsBlock (f label) ((p.rename f).code.drop (index + 1)) =
          terminator.endsBlock label (p.code.drop (index + 1)) := by
      have hcode : (p.rename f).code.drop (index + 1) =
          (p.code.drop (index + 1)).map (Instruction.rename f) := List.map_drop.symm
      rw [hcode]
      exact endsBlock_rename fun other hother =>
        keptApart_of_injOn hf hlabel other (List.mem_of_mem_drop hother)
    simp only [hends]
  rw [checkBlock, checkBlock, hblock]
  cases p.blockTerminates? label terminator with
  | none => rfl
  | some ends => cases ends <;> rfl

theorem mem_labelNames_of_demand? {i : Instruction} {demand : String × Terminator} (hi : i ∈ p.code)
    (h : i.demand? = some demand) : demand.1 ∈ p.labelNames := by
  refine ⟨i, hi, .inr ?_⟩
  cases i with
  | call dest target => cases dest <;> cases h <;> rfl
  | jump target =>
      cases h
      rfl
  | move | compute | loadAddress | label | ret | syscall | leave => cases h

theorem checkInstruction_rename {i : Instruction} (hf : Set.InjOn f p.labelNames)
    (hi : i ∈ p.code) :
    (p.rename f).checkInstruction (i.rename f) =
      (p.checkInstruction i).mapError (Fault.rename f) := by
  rw [checkInstruction, checkInstruction, Instruction.demand?_rename]
  cases hdemand : i.demand? with
  | none => rfl
  | some demand => exact checkBlock_rename hf (mem_labelNames_of_demand? hi hdemand)

theorem check_rename (hf : Set.InjOn f p.labelNames) :
    (p.rename f).check = p.check.mapError (Fault.rename f) := by
  rw [check_eq_forM, check_eq_forM]
  exact forM_map_mapError fun i hi => checkInstruction_rename hf hi

end Program

namespace Machine

variable {m : Machine} {p : Program} {pc : Int} {i : Instruction}

theorem perform_rename_of_branchTarget?_eq_none (h : i.branchTarget? = none) :
    m.perform (p.rename f) pc (i.rename f) = m.perform p pc i := by
  cases i with
  | label name => rfl
  | call | jump => cases h
  | move | compute | loadAddress | ret | syscall | leave =>
      exact perform_of_branchTarget?_eq_none p (p.rename f) h

theorem mapFault_rename_of_perform_error {failure : Failure} (htarget : i.branchTarget? = none)
    (h : (m.perform p pc i).result = .error failure) :
    failure.mapFault (Fault.rename f) = failure := by
  cases hcontrol : failure.isControl with
  | false => exact Failure.mapFault_rename_of_isControl hcontrol
  | true =>
      rcases cases_of_isControl hcontrol h with
        ⟨label, hbranch, -⟩ | ⟨frame, frames, dest, -, -, -, rfl⟩
      · rw [htarget] at hbranch
        cases hbranch
      · rfl

theorem perform_rename (hf : Set.InjOn f p.labelNames) (hi : i ∈ p.code) :
    m.perform (p.rename f) pc (i.rename f) = (m.perform p pc i).mapFault (Fault.rename f) := by
  cases htarget : i.branchTarget? with
  | none =>
      rw [perform_rename_of_branchTarget?_eq_none htarget, Outcome.mapFault_eq_self]
      exact fun _ => mapFault_rename_of_perform_error htarget
  | some label =>
      have htarget' : (i.rename f).branchTarget? = some (f label) := by
        rw [Instruction.branchTarget?_rename, htarget]
        rfl
      rw [perform_eq_of_branchTarget? m _ pc htarget', perform_eq_of_branchTarget? m p pc htarget,
        Instruction.branchFrame_rename, Program.enter_rename hf ⟨i, hi, .inr htarget⟩]
      rfl

end Machine

namespace Session

variable {p : Program} {s : Session}

theorem mirroredBy_rename (hf : Set.InjOn f p.labelNames) (hprogram : s.program = p) :
    s.MirroredBy (p.rename f) (Fault.rename f) where
  inside i hfetch := by
    rw [hprogram] at hfetch ⊢
    refine ⟨i.rename f, ?_, Machine.perform_rename hf (Program.mem_of_fetch hfetch)⟩
    rw [Program.fetch_rename, hfetch]
    rfl
  outside hfetch := by
    rw [hprogram] at hfetch
    rw [Program.fetch_rename, hfetch]
    rfl

/-- The session with the names that `f` gives to the labels of its program and of its fault. -/
def rename (f : String → String) (s : Session) : Session :=
  s.translate (s.program.rename f) (Fault.rename f)

/-- The names of labels show in nothing but the faults that name one: neither in the check of a
program nor in the sessions and the answers that its steps lead to. -/
theorem run_rename (hf : Set.InjOn f p.labelNames) :
    (p.rename f).check = p.check.mapError (Fault.rename f) ∧ ∀ size k,
      next^[k] (fresh (p.rename f) size) = (next^[k] (fresh p size)).rename f ∧
        (next^[k] (fresh (p.rename f) size)).step.2 =
          (next^[k] (fresh p size)).step.2.mapError (Failure.mapFault (Fault.rename f)) := by
  refine ⟨Program.check_rename hf, ?_⟩
  intro size k
  have hmirrored (j : Nat) : (next^[j] (fresh p size)).MirroredBy (p.rename f) (Fault.rename f) :=
    mirroredBy_rename hf (program_iterate_next _ j)
  have hsession : next^[k] (fresh (p.rename f) size) =
      (next^[k] (fresh p size)).translate (p.rename f) (Fault.rename f) := by
    rw [← iterate_next_translate rfl fun j _ _ => hmirrored j]
    rfl
  have hprogram : (next^[k] (fresh p size)).program = p := program_iterate_next _ k
  rw [rename, hprogram]
  refine ⟨hsession, ?_⟩
  rw [hsession, step_translate (tracing_iterate_next _ k) fun _ => hmirrored k]

/-- Defines a label twice and jumps to another one that is missing. -/
def twoLabels : Program where
  code := [.call (some (.register .rax)) "f", .jump "g", .label "f", .ret (.literal (.integer 3)),
    .label "f", .leave]
  lineNumbers := List.range' 1 6

def swapNames (name : String) : String := if name = "f" then "g" else "f"

theorem twoLabels_run_rename : Set.InjOn swapNames twoLabels.labelNames ∧
    twoLabels.check = .error (.labelNotFound "g") ∧
      (twoLabels.rename swapNames).check = twoLabels.check.mapError (Fault.rename swapNames) ∧
      (next^[4] (fresh twoLabels 2)).runState = .faulted ∧
      (next^[4] (fresh twoLabels 2)).status = .faulted (.labelNotFound "g") none ∧
      next^[4] (fresh (twoLabels.rename swapNames) 2) =
        (next^[4] (fresh twoLabels 2)).rename swapNames := by
  have hnames : ∀ name ∈ twoLabels.labelNames, name = "f" ∨ name = "g" := by
    rintro name ⟨i, hi, hname⟩
    simp only [twoLabels, List.mem_cons, List.not_mem_nil, or_false] at hi
    rcases hi with rfl | rfl | rfl | rfl | rfl | rfl <;>
      simp [Instruction.labelName?, Instruction.branchTarget?] at hname <;> simp [hname]
  have hf : Set.InjOn swapNames twoLabels.labelNames := by
    intro a ha b hb hsame
    rcases hnames a ha with rfl | rfl <;> rcases hnames b hb with rfl | rfl <;>
      first | rfl | exact absurd hsame (by decide)
  have h := run_rename hf
  exact ⟨hf, by decide, h.1, by decide, by decide, (h.2 2 4).1⟩

end Session

end TriReg
