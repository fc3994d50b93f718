import Mathlib.Data.Nat.Find
import TriReg.Proofs.Except
import TriReg.Proofs.Step

namespace TriReg

/-- A terminator of the kind asked for stands in the code before the definition of another label. -/
def Terminator.Ends (terminator : Terminator) (label : String) (code : List Instruction) : Prop :=
  ∃ (k : Nat) (i : Instruction), code[k]? = some i ∧ terminator.closes i = true ∧
    ∀ j < k, ∀ other, code[j]? = some (.label other) → other = label

namespace Terminator

variable {terminator : Terminator} {label : String} {head : Instruction} {rest : List Instruction}

theorem closes_label (terminator : Terminator) (name : String) :
    terminator.closes (.label name) = false := by
  cases terminator <;> rfl

theorem closes_retOrLeave {i : Instruction} (h : terminator.closes i = true) :
    i.IsTerminator := by
  cases terminator <;> cases i <;> first | rfl | cases h

theorem ends_cons_iff :
    terminator.Ends label (head :: rest) ↔
      terminator.closes head = true ∨
        ((∀ other, head = .label other → other = label) ∧ terminator.Ends label rest) := by
  constructor
  · rintro ⟨k, i, hk, hcloses, hlabels⟩
    rcases k with _ | k
    · have hi : head = i := by simpa using hk
      exact .inl (hi ▸ hcloses)
    · refine .inr ⟨?_, k, i, by simpa using hk, hcloses, ?_⟩
      · intro other hother
        exact hlabels 0 (by omega) other (by simp [hother])
      · intro j hj other hother
        exact hlabels (j + 1) (by omega) other (by simpa using hother)
  · rintro (hcloses | ⟨hhead, k, i, hk, hcloses, hlabels⟩)
    · exact ⟨0, head, rfl, hcloses, by simp⟩
    · refine ⟨k + 1, i, by simpa using hk, hcloses, ?_⟩
      intro j hj other hother
      rcases j with _ | j
      · exact hhead other (by simpa using hother)
      · exact hlabels j (by omega) other (by simpa using hother)

theorem endsBlock_iff {code : List Instruction} :
    terminator.endsBlock label code = true ↔ terminator.Ends label code := by
  induction code with
  | nil => simp [endsBlock, Ends]
  | cons head rest ih =>
      rw [ends_cons_iff, endsBlock]
      split
      · rename_i name hname
        rw [Instruction.labelName?_eq_some_iff] at hname
        subst hname
        simp [closes_label, ih]
      · rename_i hname
        have hother : ∀ other, head = .label other → other = label := by
          rintro other rfl
          cases hname
        by_cases hcloses : terminator.closes head = true
        · simp [hcloses]
        · simp only [hcloses, Bool.false_eq_true, if_false, false_or, ih]
          exact ⟨fun h => ⟨hother, h⟩, fun h => h.2⟩

end Terminator

theorem Instruction.branchTarget?_eq_map_demand? (i : Instruction) :
    i.branchTarget? = i.demand?.map (·.1) := by
  cases i with
  | call dest target => cases dest <;> rfl
  | _ => rfl

namespace Program

theorem fetch_eq_some_iff {p : Program} {pc : Int} {i : Instruction} :
    p.fetch pc = some i ↔ ∃ index : Nat, pc = index ∧ p.code[index]? = some i := by
  unfold fetch
  constructor
  · intro h
    split at h
    · exact ⟨pc.toNat, by omega, h⟩
    · cases h
  · rintro ⟨index, rfl, h⟩
    simpa using h

theorem mem_of_fetch {p : Program} {pc : Int} {i : Instruction} (h : p.fetch pc = some i) :
    i ∈ p.code := by
  obtain ⟨index, -, hindex⟩ := fetch_eq_some_iff.mp h
  exact List.mem_of_getElem? hindex

theorem code_of_findLabel {p : Program} {label : String} {first : Nat}
    (h : p.findLabel label = some first) : p.code[first]? = some (.label label) := by
  obtain ⟨hlt, hlabel, -⟩ := List.findIdx?_eq_some_iff_getElem.mp h
  rw [List.getElem?_eq_getElem hlt, Option.some.injEq, ← Instruction.labelName?_eq_some_iff]
  exact eq_of_beq hlabel

/-- The block of a label reaches from its first definition to the first terminator after it. -/
structure IsBlock (p : Program) (label : String) (first last : Nat) : Prop where
  defined : p.findLabel label = some first
  first_lt : first < last
  terminated : ∃ i, p.code[last]? = some i ∧ i.IsTerminator
  before : ∀ index i, first < index → index < last → p.code[index]? = some i → ¬ i.IsTerminator

theorem IsBlock.last_lt {p : Program} {label : String} {first last : Nat}
    (h : p.IsBlock label first last) : last < p.code.length := by
  obtain ⟨i, hi, -⟩ := h.terminated
  exact (List.getElem?_eq_some_iff.mp hi).1

theorem isBlock_of_ends {p : Program} {label : String} {terminator : Terminator} {first : Nat}
    (hdefined : p.findLabel label = some first)
    (hends : terminator.Ends label (p.code.drop (first + 1))) :
    ∃ last, p.IsBlock label first last := by
  classical
  obtain ⟨k, i, hk, hcloses, -⟩ := hends
  have hexists : ∃ index, first < index ∧ ∃ j, p.code[index]? = some j ∧ j.IsTerminator :=
    ⟨first + 1 + k, by omega, i, by simpa using hk, Terminator.closes_retOrLeave hcloses⟩
  obtain ⟨hlt, hterminated⟩ := Nat.find_spec hexists
  refine ⟨Nat.find hexists, hdefined, hlt, hterminated, ?_⟩
  intro index j hfirst hindex hj hterminator
  exact Nat.find_min hexists hindex ⟨hfirst, j, hj, hterminator⟩

theorem checkBlock_eq_ok_iff {p : Program} {label : String} {terminator : Terminator} :
    p.checkBlock label terminator = .ok () ↔
      ∃ first, p.findLabel label = some first ∧
        terminator.Ends label (p.code.drop (first + 1)) := by
  unfold checkBlock blockTerminates?
  cases hfirst : p.findLabel label with
  | none => simp
  | some first =>
      simp only [Option.map_some, Option.some.injEq, exists_eq_left', ← Terminator.endsBlock_iff]
      cases terminator.endsBlock label (p.code.drop (first + 1)) <;> simp

/-- What the program has to meet for one of its instructions. -/
def checkInstruction (p : Program) (i : Instruction) : Except Fault Unit :=
  match i.demand? with
  | none => .ok ()
  | some (label, terminator) => p.checkBlock label terminator

section CheckInstruction

variable {p : Program} {i : Instruction} {label : String} {terminator : Terminator}

theorem checkInstruction_of_demand? (h : i.demand? = some (label, terminator)) :
    p.checkInstruction i = p.checkBlock label terminator := by
  rw [checkInstruction, h]

theorem checkInstruction_eq_ok_iff :
    p.checkInstruction i = .ok () ↔ ∀ label terminator, i.demand? = some (label, terminator) →
      p.checkBlock label terminator = .ok () := by
  unfold checkInstruction
  split <;> simp_all

theorem checkInstruction_eq_error_iff {cause : Fault} :
    p.checkInstruction i = .error cause ↔ ∃ label terminator,
      i.demand? = some (label, terminator) ∧ p.checkBlock label terminator = .error cause := by
  unfold checkInstruction
  split <;> simp_all

/-- Demands that are known to be met can be left out of a check. -/
theorem checkDemands_eq_forM {met : List (String × Terminator)}
    (hmet : ∀ demand ∈ met, p.checkBlock demand.1 demand.2 = .ok ()) (code : List Instruction) :
    p.checkDemands met code = forM code p.checkInstruction := by
  induction code generalizing met with
  | nil => rfl
  | cons head rest ih =>
      rw [List.forM_cons, checkDemands]
      cases hdemand : head.demand? with
      | none =>
          rw [checkInstruction, hdemand]
          exact ih hmet
      | some demand =>
          rw [checkInstruction_of_demand? hdemand]
          dsimp only
          split
          · rename_i hcontains
            rw [hmet demand (List.contains_iff_mem.mp hcontains)]
            exact ih hmet
          · cases hblock : p.checkBlock demand.1 demand.2 with
            | error cause => rfl
            | ok u => exact ih (List.forall_mem_cons.mpr ⟨hblock, hmet⟩)

theorem check_eq_forM (p : Program) : p.check = forM p.code p.checkInstruction :=
  checkDemands_eq_forM (List.forall_mem_nil _) p.code

theorem check_eq_ok_iff :
    p.check = .ok () ↔ ∀ i ∈ p.code, ∀ label terminator, i.demand? = some (label, terminator) →
      p.checkBlock label terminator = .ok () := by
  simp only [check_eq_forM, forM_eq_ok_iff, checkInstruction_eq_ok_iff]

theorem exists_demand_of_check {cause : Fault} (h : p.check = .error cause) :
    ∃ i ∈ p.code, ∃ label terminator, i.demand? = some (label, terminator) ∧
      p.checkBlock label terminator = .error cause := by
  rw [check_eq_forM, forM_eq_error_iff] at h
  obtain ⟨before, i, after, hcode, -, hi⟩ := h
  exact ⟨i, by simp [hcode], checkInstruction_eq_error_iff.mp hi⟩

end CheckInstruction

/-- In a checked program every label that is called or jumped to has a block. -/
theorem exists_isBlock_of_check {p : Program} {i : Instruction} {label : String}
    (hcheck : p.check = .ok ()) (hi : i ∈ p.code) (htarget : i.branchTarget? = some label) :
    ∃ first last, p.IsBlock label first last := by
  rw [Instruction.branchTarget?_eq_map_demand?] at htarget
  obtain ⟨⟨target, terminator⟩, hdemand, rfl⟩ := Option.map_eq_some_iff.mp htarget
  have hblock := check_eq_ok_iff.mp hcheck i hi target terminator hdemand
  obtain ⟨first, hdefined, hends⟩ := checkBlock_eq_ok_iff.mp hblock
  exact ⟨first, isBlock_of_ends hdefined hends⟩

end Program

end TriReg
