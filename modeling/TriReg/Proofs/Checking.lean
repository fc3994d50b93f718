import TriReg.Proofs.Block

namespace TriReg

/-- The instructions that may close a block. -/
inductive Terminator.Accepts : Terminator → Instruction → Prop
  | ret {terminator : Terminator} (operand : Operand) : Accepts terminator (.ret operand)
  | leave : Accepts .retOrLeave .leave

theorem Terminator.closes_iff {terminator : Terminator} {i : Instruction} :
    terminator.closes i = true ↔ terminator.Accepts i := by
  constructor
  · intro h
    cases i with
    | ret operand => exact .ret operand
    | leave =>
        cases terminator with
        | ret => cases h
        | retOrLeave => exact .leave
    | _ => cases terminator <;> cases h
  · rintro (operand | -)
    · cases terminator <;> rfl
    · rfl

namespace Program

/-- The first definition of a label stands at an index. -/
def FirstDefined (p : Program) (label : String) (first : Nat) : Prop :=
  p.code[first]? = some (.label label) ∧ ∀ index < first, p.code[index]? ≠ some (.label label)

/-- A terminator stands behind the first definition of a label, and no other label is defined in
between. -/
def Closes (p : Program) (label : String) (terminator : Terminator) : Prop :=
  ∃ first last i, p.FirstDefined label first ∧ first < last ∧ p.code[last]? = some i ∧
    terminator.Accepts i ∧ ∀ index other, first < index → index < last →
      p.code[index]? = some (.label other) → other = label

/-- What an instruction demands of the program is the case. -/
def Meets (p : Program) : Instruction → Prop
  | .call (some _) label => p.Closes label .ret
  | .call none label | .jump label => p.Closes label .retOrLeave
  | _ => True

/-- An instruction whose demand is not met, with the fault that belongs to it. -/
inductive Violates (p : Program) : Instruction → Fault → Prop
  | undefined {i : Instruction} {label : String} (htarget : i.branchTarget? = some label)
      (h : .label label ∉ p.code) : Violates p i (.labelNotFound label)
  | valueCall {dest : Address} {label : String} (hdefined : .label label ∈ p.code)
      (h : ¬ p.Closes label .ret) :
      Violates p (.call (some dest) label) (.unterminated label .ret)
  | voidCall {label : String} (hdefined : .label label ∈ p.code)
      (h : ¬ p.Closes label .retOrLeave) :
      Violates p (.call none label) (.unterminated label .retOrLeave)
  | jump {label : String} (hdefined : .label label ∈ p.code) (h : ¬ p.Closes label .retOrLeave) :
      Violates p (.jump label) (.unterminated label .retOrLeave)

variable {p : Program} {label : String} {terminator : Terminator} {i : Instruction} {cause : Fault}

theorem labelName?_beq_iff {name : String} :
    (i.labelName? == some name) = true ↔ i = .label name := by
  rw [beq_iff_eq, Instruction.labelName?_eq_some_iff]

theorem findLabel_eq_some_iff {first : Nat} :
    p.findLabel label = some first ↔ p.FirstDefined label first := by
  simp only [findLabel, List.findIdx?_eq_some_iff_getElem, labelName?_beq_iff]
  constructor
  · rintro ⟨hlt, hfirst, hbefore⟩
    refine ⟨List.getElem?_eq_some_iff.mpr ⟨hlt, hfirst⟩, ?_⟩
    intro index hindex hlabel
    exact hbefore index hindex (List.getElem?_eq_some_iff.mp hlabel).2
  · rintro ⟨hfirst, hbefore⟩
    obtain ⟨hlt, hfirst⟩ := List.getElem?_eq_some_iff.mp hfirst
    refine ⟨hlt, hfirst, ?_⟩
    intro index hindex hlabel
    exact hbefore index hindex (List.getElem?_eq_some_iff.mpr ⟨by omega, hlabel⟩)

theorem findLabel_eq_none_iff : p.findLabel label = none ↔ .label label ∉ p.code := by
  rw [findLabel, List.findIdx?_eq_none_iff]
  constructor
  · intro h hlabel
    exact absurd (labelName?_beq_iff.mpr rfl) (Bool.not_eq_true _ ▸ h _ hlabel)
  · intro h i hi
    rw [Bool.eq_false_iff]
    intro hlabel
    exact h (labelName?_beq_iff.mp hlabel ▸ hi)

theorem ends_drop_iff {first : Nat} :
    terminator.Ends label (p.code.drop (first + 1)) ↔
      ∃ last i, first < last ∧ p.code[last]? = some i ∧ terminator.Accepts i ∧
        ∀ index other, first < index → index < last →
          p.code[index]? = some (.label other) → other = label := by
  simp only [Terminator.Ends, List.getElem?_drop, Terminator.closes_iff]
  constructor
  · rintro ⟨k, i, hi, hcloses, hbetween⟩
    refine ⟨first + 1 + k, i, by omega, hi, hcloses, ?_⟩
    intro index other hfirst hlast hother
    obtain ⟨j, rfl⟩ := Nat.exists_eq_add_of_lt hfirst
    refine hbetween j (by omega) other ?_
    rwa [Nat.add_right_comm]
  · rintro ⟨last, i, hfirst, hi, hcloses, hbetween⟩
    obtain ⟨k, rfl⟩ := Nat.exists_eq_add_of_lt hfirst
    refine ⟨k, i, by rwa [Nat.add_right_comm], hcloses, ?_⟩
    intro j hj other hother
    exact hbetween (first + 1 + j) other (by omega) (by omega) hother

theorem checkBlock_eq_ok_iff_closes :
    p.checkBlock label terminator = .ok () ↔ p.Closes label terminator := by
  simp only [checkBlock_eq_ok_iff, findLabel_eq_some_iff, ends_drop_iff, Closes, exists_and_left]

theorem checkBlock_eq_error_iff :
    p.checkBlock label terminator = .error cause ↔
      (.label label ∉ p.code ∧ cause = .labelNotFound label) ∨
        (.label label ∈ p.code ∧ ¬ p.Closes label terminator ∧
          cause = .unterminated label terminator) := by
  rw [← checkBlock_eq_ok_iff_closes, checkBlock, blockTerminates?]
  cases hfirst : p.findLabel label with
  | none =>
      have hundefined := findLabel_eq_none_iff.mp hfirst
      simp [hundefined, eq_comm]
  | some first =>
      have hdefined : .label label ∈ p.code := List.mem_of_getElem? (code_of_findLabel hfirst)
      rw [Option.map_some]
      cases terminator.endsBlock label (p.code.drop (first + 1)) <;> simp [hdefined, eq_comm]

theorem checkInstruction_eq_ok_iff_meets : p.checkInstruction i = .ok () ↔ p.Meets i := by
  cases i with
  | call dest target => cases dest <;> exact checkBlock_eq_ok_iff_closes
  | jump target => exact checkBlock_eq_ok_iff_closes
  | _ => exact iff_of_true rfl trivial

theorem checkInstruction_eq_error_iff_violates :
    p.checkInstruction i = .error cause ↔ p.Violates i cause := by
  constructor
  · intro h
    obtain ⟨label, terminator, hdemand, hblock⟩ := checkInstruction_eq_error_iff.mp h
    rcases checkBlock_eq_error_iff.mp hblock with ⟨hundefined, rfl⟩ | ⟨hdefined, hopen, rfl⟩
    · refine .undefined ?_ hundefined
      rw [Instruction.branchTarget?_eq_map_demand?, hdemand, Option.map_some]
    · cases i with
      | call dest target =>
          cases dest with
          | none =>
              cases hdemand
              exact .voidCall hdefined hopen
          | some dest =>
              cases hdemand
              exact .valueCall hdefined hopen
      | jump target =>
          cases hdemand
          exact .jump hdefined hopen
      | _ => cases hdemand
  · rintro (⟨htarget, hundefined⟩ | ⟨hdefined, hopen⟩ | ⟨hdefined, hopen⟩ | ⟨hdefined, hopen⟩)
    · rw [Instruction.branchTarget?_eq_map_demand?] at htarget
      obtain ⟨⟨target, terminator⟩, hdemand, rfl⟩ := Option.map_eq_some_iff.mp htarget
      rw [checkInstruction_of_demand? hdemand]
      exact checkBlock_eq_error_iff.mpr (.inl ⟨hundefined, rfl⟩)
    all_goals exact checkBlock_eq_error_iff.mpr (.inr ⟨hdefined, hopen, rfl⟩)

/-- The check succeeds exactly if every demand is met, and fails for the first one that is not. A
check that forgets what it has met has the same result. -/
theorem check_decides (p : Program) :
    (p.check = .ok () ↔ ∀ i ∈ p.code, p.Meets i) ∧
      (∀ cause, p.check = .error cause ↔ ∃ before i after, p.code = before ++ i :: after ∧
        (∀ j ∈ before, p.Meets j) ∧ p.Violates i cause) ∧
      p.check = forM p.code p.checkInstruction := by
  refine ⟨?_, ?_, p.check_eq_forM⟩
  · simp only [check_eq_forM, forM_eq_ok_iff, checkInstruction_eq_ok_iff_meets]
  · intro cause
    simp only [check_eq_forM, forM_eq_error_iff, checkInstruction_eq_ok_iff_meets,
      checkInstruction_eq_error_iff_violates]

/-- What is known of a label from a jump does not answer for a call that wants a value. -/
example : check
    { code := [.jump "f", .call none "f", .call (some (.register .rax)) "f", .label "f", .leave]
      lineNumbers := List.range' 1 5 } = .error (.unterminated "f" .ret) := by
  decide

end Program

end TriReg
