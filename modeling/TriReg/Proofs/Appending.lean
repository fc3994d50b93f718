import TriReg.Proofs.Representation
import TriReg.Proofs.Translation

namespace TriReg

theorem Terminator.Ends.append {terminator : Terminator} {label : String}
    {code : List Instruction} (h : terminator.Ends label code) (added : List Instruction) :
    terminator.Ends label (code ++ added) := by
  obtain ⟨k, i, hk, hcloses, hlabels⟩ := h
  have hlt : k < code.length := (List.getElem?_eq_some_iff.mp hk).1
  refine ⟨k, i, ?_, hcloses, ?_⟩
  · rw [List.getElem?_append_left hlt, hk]
  · intro j hj other hother
    rw [List.getElem?_append_left (hj.trans hlt)] at hother
    exact hlabels j hj other hother

namespace Program

variable {p q whole : Program} {label : String} {terminator : Terminator}

theorem fetch_append {pc : Int} {i : Instruction} (hwhole : whole.code = p.code ++ q.code)
    (h : p.fetch pc = some i) : whole.fetch pc = some i := by
  obtain ⟨index, rfl, hindex⟩ := fetch_eq_some_iff.mp h
  have hlt : index < p.code.length := (List.getElem?_eq_some_iff.mp hindex).1
  refine fetch_eq_some_iff.mpr ⟨index, rfl, ?_⟩
  rw [hwhole, List.getElem?_append_left hlt, hindex]

theorem findLabel_append {index : Nat} (hwhole : whole.code = p.code ++ q.code)
    (h : p.findLabel label = some index) : whole.findLabel label = some index := by
  rw [findLabel] at h
  rw [findLabel, hwhole, List.findIdx?_append, h]
  rfl

theorem checkBlock_append (hwhole : whole.code = p.code ++ q.code)
    (h : p.checkBlock label terminator = .ok ()) : whole.checkBlock label terminator = .ok () := by
  obtain ⟨first, hdefined, hends⟩ := checkBlock_eq_ok_iff.mp h
  have hlt : first < p.code.length :=
    (List.getElem?_eq_some_iff.mp (code_of_findLabel hdefined)).1
  refine checkBlock_eq_ok_iff.mpr ⟨first, findLabel_append hwhole hdefined, ?_⟩
  -- The definition stands in `p`, so the code behind it only grows at its end.
  rw [hwhole, List.drop_append_of_le_length hlt]
  exact hends.append q.code

theorem blockTerminates?_eq_some_true_iff :
    p.blockTerminates? label terminator = some true ↔ p.checkBlock label terminator = .ok () := by
  unfold checkBlock
  split <;> simp_all

theorem exists_demand_of_check_append {cause : Fault} (hwhole : whole.code = p.code ++ q.code)
    (hcheck : p.check = .ok ()) (h : whole.check = .error cause) :
    ∃ i ∈ q.code, ∃ label terminator, i.demand? = some (label, terminator) ∧
      whole.checkBlock label terminator = .error cause ∧
      ∀ j ∈ p.code, j.demand? ≠ some (label, terminator) := by
  obtain ⟨i, hi, label, terminator, hdemand, hblock⟩ := exists_demand_of_check h
  have hnot : ∀ j ∈ p.code, j.demand? ≠ some (label, terminator) := by
    intro j hj hsame
    have hmet := checkBlock_append hwhole (check_eq_ok_iff.mp hcheck j hj label terminator hsame)
    rw [hblock] at hmet
    cases hmet
  rw [hwhole, List.mem_append] at hi
  have hadded : i ∈ q.code := hi.resolve_left fun hi => hnot i hi hdemand
  exact ⟨i, hadded, label, terminator, hdemand, hblock, hnot⟩

end Program

theorem Machine.perform_append {m : Machine} {p q whole : Program} {pc : Int} {i : Instruction}
    (hwhole : whole.code = p.code ++ q.code)
    (hfound : ∀ label, (m.perform p pc i).result ≠ .error (.fault (.labelNotFound label))) :
    m.perform whole pc i = m.perform p pc i := by
  cases htarget : i.branchTarget? with
  | none => exact perform_of_branchTarget?_eq_none p whole htarget
  | some label =>
      rw [perform_eq_of_branchTarget? m p pc htarget] at hfound ⊢
      rw [perform_eq_of_branchTarget? m whole pc htarget]
      cases hlabel : p.findLabel label with
      | none =>
          have hlost : p.enter label = .error (.fault (.labelNotFound label)) := by
            rw [Program.enter, hlabel]
          exact absurd hlost (hfound label)
      | some index =>
          rw [Program.enter, Program.enter, hlabel, Program.findLabel_append hwhole hlabel]

namespace Session

/-- In its first `k` steps the session neither comes to the end of its program nor misses a
label. -/
def SelfContained (s : Session) (k : Nat) : Prop :=
  ∀ j < k, (next^[j] s).pc ≠ s.program.code.length ∧
    ∀ label, (next^[j] s).step.2 ≠ .error (.fault (.labelNotFound label))

variable {p q whole : Program} {size k : Nat} {s : Session}

theorem Reachable.iterate_next (h : Reachable p size s) (k : Nat) :
    Reachable p size (next^[k] s) := by
  induction k with
  | zero => exact h
  | succ k ih =>
      rw [Function.iterate_succ_apply']
      exact ih.step

theorem Reachable.exists_fetch (h : Reachable p size s) (hpc : s.pc ≠ p.code.length) :
    ∃ i, p.fetch s.pc = some i := by
  obtain ⟨hnonneg, hle⟩ := h.pc_bounds
  have hlt : s.pc.toNat < p.code.length := by omega
  refine ⟨p.code[s.pc.toNat], Program.fetch_eq_some_iff.mpr ⟨s.pc.toNat, by omega, ?_⟩⟩
  exact List.getElem?_eq_getElem hlt

theorem mirroredBy_append (hwhole : whole.code = p.code ++ q.code) (h : Reachable p size s)
    (hrunning : s.runState = .running) (htracing : s.tracing = false)
    (hpc : s.pc ≠ p.code.length)
    (hfound : ∀ label, s.step.2 ≠ .error (.fault (.labelNotFound label))) :
    s.MirroredBy whole id where
  inside i hfetch := by
    rw [step_of_fetch hrunning hfetch (untraceable_of_tracing_eq_false htracing i),
      result_of_advance] at hfound
    rw [h.program] at hfetch hfound ⊢
    refine ⟨i, Program.fetch_append hwhole hfetch, ?_⟩
    rw [Machine.Outcome.mapFault_eq_self fun failure _ => failure.mapFault_id]
    exact Machine.perform_append hwhole hfound
  outside hfetch := by
    obtain ⟨i, hi⟩ := h.exists_fetch hpc
    rw [h.program, hi] at hfetch
    cases hfetch

theorem SelfContained.mirroredBy_append (hwhole : whole.code = p.code ++ q.code)
    (h : (fresh p size).SelfContained k) : ∀ j < k, (next^[j] (fresh p size)).runState = .running →
      (next^[j] (fresh p size)).MirroredBy whole id := by
  intro j hj hrunning
  obtain ⟨hpc, hfound⟩ := h j hj
  exact Session.mirroredBy_append hwhole (Reachable.fresh.iterate_next j) hrunning
    (tracing_iterate_next _ j) hpc hfound

theorem SelfContained.iterate_next_append (hwhole : whole.code = p.code ++ q.code)
    (h : (fresh p size).SelfContained k) : ∀ j ≤ k,
      next^[j] (fresh whole size) = (next^[j] (fresh p size)).translate whole id := by
  intro j hj
  have hmirrored := h.mirroredBy_append hwhole
  rw [← iterate_next_translate rfl fun n hn => hmirrored n (hn.trans_le hj)]
  rfl

/-- A run of a program goes the same way with more code behind the program, as long as it is self
contained. Blocks that end in time still do, so a check that passes without the added code can fail
only at what that code calls or jumps to. -/
theorem run_append (hwhole : whole.code = p.code ++ q.code) :
    (∀ size k, (fresh p size).SelfContained k →
      next^[k] (fresh whole size) = { next^[k] (fresh p size) with program := whole } ∧
        ∀ j < k, (next^[j] (fresh whole size)).step.2 = (next^[j] (fresh p size)).step.2) ∧
      (∀ label terminator, p.blockTerminates? label terminator = some true →
        whole.blockTerminates? label terminator = some true) ∧
      (p.check = .ok () → ∀ cause, whole.check = .error cause →
        ∃ i ∈ q.code, ∃ label terminator, i.demand? = some (label, terminator) ∧
          whole.checkBlock label terminator = .error cause ∧
          ∀ j ∈ p.code, j.demand? ≠ some (label, terminator)) := by
  refine ⟨?_, ?_, ?_⟩
  · intro size k hcontained
    have hsession := hcontained.iterate_next_append hwhole
    constructor
    · rw [hsession k (Nat.le_refl k), translate_id]
    · intro j hj
      rw [hsession j hj.le, step_translate (tracing_iterate_next _ j)
        (hcontained.mirroredBy_append hwhole j hj), Failure.mapError_mapFault_id]
  · intro label terminator h
    rw [Program.blockTerminates?_eq_some_true_iff] at h ⊢
    exact Program.checkBlock_append hwhole h
  · intro hcheck cause
    exact Program.exists_demand_of_check_append hwhole hcheck

/-- Calls a block that the code behind it defines once more. -/
def ownBlock : Program where
  code := [.call (some (.register .rax)) "f", .ret (.address (.register .rax)), .label "f",
    .ret (.literal (.integer 3))]
  lineNumbers := List.range' 1 4

def otherBlock : Program where
  code := [.label "f", .leave, .jump "g"]
  lineNumbers := List.range' 1 3

def bothBlocks : Program where
  code := ownBlock.code ++ otherBlock.code
  lineNumbers := List.range' 1 7
  aligned := rfl

theorem ownBlock_run_append : bothBlocks.code = ownBlock.code ++ otherBlock.code ∧
    (fresh ownBlock 2).SelfContained 4 ∧
      (next^[4] (fresh ownBlock 2)).runState = .halted ∧
      (next^[4] (fresh ownBlock 2)).status = .halted (.integer 3) ∧
      next^[4] (fresh bothBlocks 2) =
        { next^[4] (fresh ownBlock 2) with program := bothBlocks } ∧
      ownBlock.blockTerminates? "f" .ret = some true ∧
      bothBlocks.blockTerminates? "f" .ret = some true ∧
      ownBlock.check = .ok () ∧ bothBlocks.check = .error (.labelNotFound "g") ∧
      ∃ i ∈ otherBlock.code, ∃ label terminator, i.demand? = some (label, terminator) ∧
        bothBlocks.checkBlock label terminator = .error (.labelNotFound "g") ∧
        ∀ j ∈ ownBlock.code, j.demand? ≠ some (label, terminator) := by
  have hcode : bothBlocks.code = ownBlock.code ++ otherBlock.code := rfl
  have hpc : ∀ j < 4, (next^[j] (fresh ownBlock 2)).pc ≠ 4 := by decide
  have hraises : ∀ j < 4, (next^[j] (fresh ownBlock 2)).step.2.isOk = true := by decide
  have hcontained : (fresh ownBlock 2).SelfContained 4 := by
    intro j hj
    refine ⟨hpc j hj, ?_⟩
    intro label hlost
    have hok := hraises j hj
    rw [hlost] at hok
    cases hok
  have hends : ownBlock.blockTerminates? "f" .ret = some true := by decide
  have hcheck : ownBlock.check = .ok () := by decide
  have hfails : bothBlocks.check = .error (.labelNotFound "g") := by decide
  obtain ⟨hrun, hblocks, hdemands⟩ := run_append hcode
  exact ⟨hcode, hcontained, by decide, by decide, (hrun 2 4 hcontained).1, hends,
    hblocks _ _ hends, hcheck, hfails, hdemands hcheck _ hfails⟩

end Session

end TriReg
