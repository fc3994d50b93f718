import TriReg.Machine.Effect
import TriReg.Proofs.Except

namespace TriReg.Machine

variable {m after : Machine} {access : Access} {target : Address}

theorem content_slot {index : Nat} (hsize : index < m.stack.size) :
    m.content (.slot index) = m.stack[index] := by
  rw [content, Array.getD_eq_getD_getElem?, Array.getElem?_eq_getElem hsize, Option.getD_some]

theorem store_slot {index : Nat} (hsize : index < m.stack.size) (v : Value) :
    m.store (.slot index) v = { m with stack := m.stack.set index v } := by
  rw [store, Array.setIfInBounds_def, dif_pos hsize]

theorem cell_reference (m : Machine) (access : Access) (h : ∀ inner, target ≠ .reference inner) :
    m.cell access (.reference target) = m.cell .read target >>= fun pointer =>
      (m.slotIndex access (m.content pointer)).map .slot := by
  cases target with
  | register r => rfl
  | slot index => rfl
  | reference inner => exact absurd rfl (h inner)

theorem cell_double_reference (m : Machine) (access : Access) (inner : Address) :
    m.cell access (.reference (.reference inner)) = .error (.fault .doubleIndirection) := by
  rw [cell]

theorem cell_reference_eq_ok_iff {c : Cell} :
    m.cell access (.reference target) = .ok c ↔
      (∀ inner, target ≠ .reference inner) ∧ ∃ pointer index, m.cell .read target = .ok pointer ∧
        m.slotIndex access (m.content pointer) = .ok index ∧ .slot index = c := by
  constructor
  · intro h
    have hsingle : ∀ inner, target ≠ .reference inner := by
      rintro inner rfl
      rw [cell_double_reference] at h
      cases h
    rw [cell_reference m access hsingle] at h
    obtain ⟨pointer, hpointer, h⟩ := bind_eq_ok_iff.mp h
    obtain ⟨index, hindex, hc⟩ := map_eq_ok_iff.mp h
    exact ⟨hsingle, pointer, index, hpointer, hindex, hc⟩
  · rintro ⟨hsingle, pointer, index, hpointer, hindex, rfl⟩
    rw [cell_reference m access hsingle]
    exact bind_eq_ok_iff.mpr ⟨pointer, hpointer, map_eq_ok_iff.mpr ⟨index, hindex, rfl⟩⟩

theorem cell_reference_eq_error_iff {failure : Failure} :
    m.cell access (.reference target) = .error failure ↔
      (∃ inner, target = .reference inner ∧ failure = .fault .doubleIndirection) ∨
        (∀ inner, target ≠ .reference inner) ∧ (m.cell .read target = .error failure ∨
          ∃ pointer, m.cell .read target = .ok pointer ∧
            m.slotIndex access (m.content pointer) = .error failure) := by
  by_cases hdouble : ∃ inner, target = .reference inner
  · obtain ⟨inner, rfl⟩ := hdouble
    rw [cell_double_reference]
    constructor
    · intro h
      exact .inl ⟨inner, rfl, (Except.error.inj h).symm⟩
    · rintro (⟨-, -, rfl⟩ | ⟨hsingle, -⟩)
      · rfl
      · exact absurd rfl (hsingle inner)
  · have hsingle : ∀ inner, target ≠ .reference inner := fun inner h => hdouble ⟨inner, h⟩
    rw [cell_reference m access hsingle, bind_eq_error_iff]
    simp only [map_eq_error_iff]
    constructor
    · intro h
      exact .inr ⟨hsingle, h⟩
    · rintro (⟨inner, hinner, -⟩ | ⟨-, h⟩)
      · exact absurd hinner (hsingle inner)
      · exact h

theorem exists_store_of_set {dest : Address} {v : Value} (h : m.set dest v = .ok after) :
    ∃ c, m.HasCell c ∧ after = m.store c v := by
  obtain ⟨c, hcell, rfl⟩ := map_eq_ok_iff.mp h
  exact ⟨c, hasCell_of_cell hcell, rfl⟩

end TriReg.Machine
