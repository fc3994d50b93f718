import TriReg.Proofs.Access

namespace TriReg

theorem Registers.set_comm (rs : Registers) {r r' : Register} (h : r ≠ r') (v w : Value) :
    (rs.set r v).set r' w = (rs.set r' w).set r v := by
  cases r <;> cases r' <;> first | rfl | exact absurd rfl h

namespace Machine

/-- The address is a reference, and the pointer that it goes through is in the cell. -/
inductive PointerAt (m : Machine) : Address → Cell → Prop
  | reference {target : Address} {c : Cell} (htarget : m.Denotes target c) :
      PointerAt m (.reference target) c

/-- The value was written through the address, which denoted the cell: that cell alone is changed.
The address reads back the value, and the next write through it makes up for this one, unless the
pointer that the address goes through was hit. -/
structure Stored (m : Machine) (place : Address) (v : Value) (after : Machine) (c : Cell) :
    Prop where
  denotes_iff : ∀ c', m.Denotes place c' ↔ c' = c
  holds : after.content c = v
  others : ∀ c', c' ≠ c → after.content c' = m.content c'
  size_eq : after.stack.size = m.stack.size
  frames_eq : after.frames = m.frames
  reads_direct : (∀ target, place ≠ .reference target) → after.get (.address place) = .ok v
  reads : ¬ m.PointerAt place c → after.get (.address place) = .ok v
  rewrites : ¬ m.PointerAt place c → ∀ w, after.set place w = m.set place w

variable {m after : Machine} {place : Address} {v : Value} {c c' : Cell}

section Cells

theorem store_content (m : Machine) (c : Cell) : m.store c (m.content c) = m := by
  cases c with
  | register r => rw [store, content, Registers.set_get]
  | slot index =>
      rcases Nat.lt_or_ge index m.stack.size with hsize | hsize
      · rw [content_slot hsize, store_slot hsize, Array.set_getElem_self]
      · rw [store, Array.setIfInBounds_eq_of_size_le hsize]

theorem store_store (m : Machine) (c : Cell) (v w : Value) :
    (m.store c v).store c w = m.store c w := by
  cases c with
  | register r => simp only [store, Registers.set_set]
  | slot index => simp only [store, Array.setIfInBounds_setIfInBounds]

theorem store_comm (m : Machine) (hne : c ≠ c') (v w : Value) :
    (m.store c v).store c' w = (m.store c' w).store c v := by
  cases c with
  | register r =>
      cases c' with
      | register r' =>
          have hregister : r ≠ r' := fun h => hne (congrArg Cell.register h)
          simp only [store, Registers.set_comm _ hregister]
      | slot index' => rfl
  | slot index =>
      cases c' with
      | register r' => rfl
      | slot index' =>
          have hindex : index ≠ index' := fun h => hne (congrArg Cell.slot h)
          simp only [store, Array.setIfInBounds_comm _ _ hindex]

end Cells

section Resolution

theorem slotIndex_store (m : Machine) (c : Cell) (v : Value) (access : Access) (w : Value) :
    (m.store c v).slotIndex access w = m.slotIndex access w := by
  simp only [slotIndex, size_store]

theorem cell_store_of_direct (m : Machine) (c : Cell) (v : Value) (access : Access)
    (hdirect : ∀ target, place ≠ .reference target) :
    (m.store c v).cell access place = m.cell access place := by
  cases place with
  | register r => rfl
  | slot index => simp only [cell, size_store]
  | reference target => exact absurd rfl (hdirect target)

/-- A write that does not hit the pointer of an address leaves what the address denotes, and how it
fails if it denotes nothing. -/
theorem cell_store (hpointer : ¬ m.PointerAt place c) (v : Value) (access : Access) :
    (m.store c v).cell access place = m.cell access place := by
  cases place with
  | register | slot => exact cell_store_of_direct m c v access (by simp)
  | reference target =>
      by_cases hdouble : ∃ inner, target = .reference inner
      · obtain ⟨inner, rfl⟩ := hdouble
        rw [cell_double_reference, cell_double_reference]
      · have hsingle : ∀ inner, target ≠ .reference inner := not_exists.mp hdouble
        rw [cell_reference _ _ hsingle, cell_reference _ _ hsingle,
          cell_store_of_direct m c v .read hsingle]
        cases htarget : m.cell .read target with
        | error failure => rfl
        | ok c' =>
            have hne : c' ≠ c := by
              rintro rfl
              exact hpointer (.reference (cell_eq_ok_iff.mp htarget))
            simp only [ok_bind, slotIndex_store, content_store_of_ne m v hne]

theorem denotes_store_iff (hpointer : ¬ m.PointerAt place c) (v : Value) :
    (m.store c v).Denotes place c' ↔ m.Denotes place c' := by
  rw [← @cell_eq_ok_iff _ .read, cell_store hpointer, cell_eq_ok_iff]

theorem Denotes.eq (h : m.Denotes place c) (h' : m.Denotes place c') : c = c' :=
  Except.ok.inj ((cell_of_denotes h .read).symm.trans (cell_of_denotes h' .read))

theorem get_of_denotes (h : m.Denotes place c) : m.get (.address place) = .ok (m.content c) := by
  rw [get, cell_of_denotes h, Except.map]

theorem set_of_denotes (h : m.Denotes place c) (v : Value) : m.set place v = .ok (m.store c v) := by
  rw [set, cell_of_denotes h, Except.map]

theorem set_eq_ok_iff :
    m.set place v = .ok after ↔ ∃ c, m.Denotes place c ∧ after = m.store c v := by
  simp only [set, map_eq_ok_iff, cell_eq_ok_iff, @eq_comm _ _ after]

theorem not_pointerAt_of_direct (hdirect : ∀ target, place ≠ .reference target) :
    ¬ m.PointerAt place c := by
  rintro ⟨-⟩
  exact hdirect _ rfl

end Resolution

theorem set_of_get (h : m.get (.address place) = .ok v) : m.set place v = .ok m := by
  obtain ⟨c, hcell, rfl⟩ := map_eq_ok_iff.mp h
  rw [set_of_denotes (cell_eq_ok_iff.mp hcell), store_content]

theorem get_store_of_denotes (h : m.Denotes place c) (hpointer : ¬ m.PointerAt place c)
    (v : Value) : (m.store c v).get (.address place) = .ok v := by
  have hcell : m.HasCell c := hasCell_of_cell (cell_of_denotes h .write)
  rw [get_of_denotes ((denotes_store_iff hpointer v).mpr h), content_store_self v hcell]

theorem stored_store (h : m.Denotes place c) (v : Value) :
    m.Stored place v (m.store c v) c where
  denotes_iff c' := by
    constructor
    · intro h'
      exact h'.eq h
    · rintro rfl
      exact h
  holds := content_store_self v (hasCell_of_cell (cell_of_denotes h .write))
  others c' hne := content_store_of_ne m v hne
  size_eq := size_store m c v
  frames_eq := frames_store m c v
  reads_direct hdirect := get_store_of_denotes h (not_pointerAt_of_direct hdirect) v
  reads hpointer := get_store_of_denotes h hpointer v
  rewrites hpointer w := by
    rw [set_of_denotes ((denotes_store_iff hpointer v).mpr h), set_of_denotes h, store_store]

/-- A write that succeeds stores its value in the cell that the address denotes, and writing what
the address reads changes nothing. -/
theorem stored_of_set (h : m.set place v = .ok after) :
    (∃ c, m.Stored place v after c) ∧
      ∀ u, m.get (.address place) = .ok u → m.set place u = .ok m := by
  obtain ⟨c, hdenotes, rfl⟩ := set_eq_ok_iff.mp h
  refine ⟨⟨c, stored_store hdenotes v⟩, ?_⟩
  intro u hget
  exact set_of_get hget

/-- The first slot points to the third one. -/
def pointingMachine : Machine where
  stack := #[.pointer (.slot 2), .uninitialized, .text "old"]

theorem throughPointer_stored : ∃ after,
    pointingMachine.set (.reference (.slot 0)) (.text "new") = .ok after ∧
      after.stack[2]? = some (.text "new") ∧
      ¬ pointingMachine.PointerAt (.reference (.slot 0)) (.slot 2) ∧
      (∃ c, pointingMachine.Stored (.reference (.slot 0)) (.text "new") after c) ∧
      pointingMachine.get (.address (.reference (.slot 0))) = .ok (.text "old") ∧
      pointingMachine.set (.reference (.slot 0)) (.text "old") = .ok pointingMachine := by
  have hset : pointingMachine.set (.reference (.slot 0)) (.text "new") =
      .ok (pointingMachine.store (.slot 2) (.text "new")) := by decide
  have hget : pointingMachine.get (.address (.reference (.slot 0))) = .ok (.text "old") := by decide
  have hpointer : ¬ pointingMachine.PointerAt (.reference (.slot 0)) (.slot 2) := by
    rintro ⟨⟨⟩⟩
  obtain ⟨hstored, hkeeps⟩ := stored_of_set hset
  exact ⟨_, hset, by decide, hpointer, hstored, hget, hkeeps _ hget⟩

/-- A write that hits its own pointer is not read back through it. -/
example : (set { stack := #[.pointer (.slot 0), .text "old"] } (.reference (.slot 0))
    (.integer 1)).bind (fun after => after.get (.address (.reference (.slot 0)))) =
      .ok (.text "old") := by
  decide

end Machine

end TriReg
