import Mathlib.Data.List.Induction
import TriReg.Proofs.Checking

namespace TriReg

namespace Program

/-- The table has the labels that the code defines, with the indices of their first definitions, in
the order of these. -/
structure Tabulates (table : List (String × Nat)) (code : List Instruction) : Prop where
  lookup_eq : ∀ name, table.lookup name = code.findIdx? fun i => i.labelName? == some name
  nodup : (table.map (·.1)).Nodup
  lt_length : ∀ entry ∈ table, entry.2 < code.length
  increasing : (table.map (·.2)).Pairwise (· < ·)

variable {table : List (String × Nat)} {code : List Instruction} {name : String} {index : Nat}

theorem isSome_lookup_iff_mem : (table.lookup name).isSome = true ↔ name ∈ table.map (·.1) := by
  simp only [List.lookup_isSome_iff, List.mem_map, beq_iff_eq]
  exact exists_congr fun _ => and_congr_right fun _ => eq_comm

theorem lookup_eq_some_iff_mem (h : (table.map (·.1)).Nodup) :
    table.lookup name = some index ↔ (name, index) ∈ table := by
  rw [List.lookup_eq_some_iff]
  constructor
  · rintro ⟨before, behind, rfl, -⟩
    exact List.mem_append_right _ List.mem_cons_self
  · intro hmem
    obtain ⟨before, behind, rfl⟩ := List.append_of_mem hmem
    rw [List.map_append, List.nodup_append] at h
    refine ⟨before, behind, rfl, ?_⟩
    intro entry hentry
    exact bne_iff_ne.mpr (h.2.2 _ (List.mem_map_of_mem hentry) _ List.mem_cons_self).symm

theorem Tabulates.append_of_known (h : Tabulates table code) {i : Instruction}
    (hi : ∀ name, i = .label name → name ∈ table.map (·.1)) : Tabulates table (code ++ [i]) where
  lookup_eq name := by
    rw [List.findIdx?_append, ← h.lookup_eq]
    by_cases hname : i = .label name
    · obtain ⟨index, hindex⟩ :=
        Option.isSome_iff_exists.mp (isSome_lookup_iff_mem.mpr (hi name hname))
      rw [hindex, Option.some_or]
    · rw [List.findIdx?_singleton, if_neg (mt labelName?_beq_iff.mp hname), Option.map_none,
        Option.or_none]
  nodup := h.nodup
  lt_length entry hentry := by
    rw [List.length_append]
    exact Nat.lt_add_right _ (h.lt_length entry hentry)
  increasing := h.increasing

theorem Tabulates.append_label (h : Tabulates table code) (hnew : name ∉ table.map (·.1)) :
    Tabulates (table ++ [(name, code.length)]) (code ++ [.label name]) where
  lookup_eq other := by
    rw [List.findIdx?_append, List.lookup_append, h.lookup_eq, List.findIdx?_singleton,
      List.lookup_cons]
    by_cases hname : other = name
    · simp [hname, Instruction.labelName?]
    · simp [beq_false_of_ne hname, Ne.symm hname, Instruction.labelName?]
  nodup := by
    rw [List.map_append, List.nodup_append]
    refine ⟨h.nodup, List.pairwise_singleton _ _, ?_⟩
    intro other hother last hlast
    rw [List.mem_singleton.mp hlast]
    exact ne_of_mem_of_not_mem hother hnew
  lt_length entry hentry := by
    rw [List.length_append]
    rcases List.mem_append.mp hentry with hentry | hentry
    · exact Nat.lt_add_right _ (h.lt_length entry hentry)
    · rw [List.mem_singleton.mp hentry]
      exact Nat.lt_succ_self _
  increasing := by
    rw [List.map_append, List.pairwise_append]
    refine ⟨h.increasing, List.pairwise_singleton _ _, ?_⟩
    intro earlier hearlier last hlast
    obtain ⟨entry, hentry, rfl⟩ := List.mem_map.mp hearlier
    rw [List.mem_singleton.mp hlast]
    exact h.lt_length entry hentry

theorem Tabulates.addLabel (h : Tabulates table code) (i : Instruction) :
    Tabulates (addLabel table i code.length) (code ++ [i]) := by
  have hany (name : String) : table.any (·.1 == name) = true ↔ name ∈ table.map (·.1) := by
    simp [List.any_eq_true]
  cases hname : i.labelName? with
  | none =>
      rw [Program.addLabel, hname]
      refine h.append_of_known ?_
      rintro name rfl
      cases hname
  | some name =>
      rw [Program.addLabel, hname]
      rw [Instruction.labelName?_eq_some_iff] at hname
      subst hname
      dsimp only
      split
      · rename_i hknown
        refine h.append_of_known ?_
        rintro name ⟨⟩
        exact (hany _).mp hknown
      · rename_i hnew
        exact h.append_label (mt (hany name).mpr hnew)

theorem tabulates_labels (p : Program) : Tabulates p.labels p.code := by
  unfold labels
  induction p.code using List.reverseRecOn with
  | nil => exact ⟨fun _ => rfl, List.nodup_nil, by simp, List.Pairwise.nil⟩
  | append_singleton code i ih =>
      rw [List.zipIdx_append, List.foldl_append]
      simpa using ih.addLabel i

/-- Looking a label up in the table and searching for it give the same: the index of its first
definition, or nothing if there is none. The table has every label once, and in the order of these
indices. -/
theorem labels_agree (p : Program) :
    (∀ name, p.labels.lookup name = p.findLabel name) ∧
      (∀ name, name ∉ p.labels.map (·.1) ↔ p.findLabel name = none) ∧
      (∀ name index, (name, index) ∈ p.labels ↔ p.FirstDefined name index) ∧
      (p.labels.map (·.1)).Nodup ∧ (p.labels.map (·.2)).Pairwise (· < ·) := by
  have htable := p.tabulates_labels
  have hlookup (name : String) : p.labels.lookup name = p.findLabel name := htable.lookup_eq name
  refine ⟨hlookup, ?_, ?_, htable.nodup, htable.increasing⟩
  · intro name
    rw [← isSome_lookup_iff_mem, hlookup, Option.not_isSome_iff_eq_none]
  · intro name index
    rw [← lookup_eq_some_iff_mem htable.nodup, hlookup, findLabel_eq_some_iff]

/-- A label that is defined again keeps its place. -/
example : labels
    { code := [.label "f", .leave, .label "g", .label "f", .leave]
      lineNumbers := List.range' 1 5 } =
      [("f", 0), ("g", 2)] := by
  decide

end Program

end TriReg
