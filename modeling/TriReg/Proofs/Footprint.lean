import TriReg.Proofs.Store

/-!
Footprints. An instruction that assigns a value writes one cell and reads the cells of its operands
and of the pointers that it goes through. Which cells these are depends on the state of the machine,
but what the other cells hold makes no difference to the effect of the instruction, nor to its
failure (`Machine.execute_store`). So two assignments commute if neither writes what the other one
reads or writes (`Machine.execute_comm`).
-/

namespace TriReg

namespace Instruction

/-- The address that an instruction assigns a value to. -/
def assigned? : Instruction → Option Address
  | .move dest _ | .compute _ dest _ _ | .loadAddress dest _ => some dest
  | _ => none

/-- The operands whose values an instruction assigns or computes with. The source of a `lea` is
not read. -/
def operands : Instruction → List Operand
  | .move _ source => [source]
  | .compute _ _ left right => [left, right]
  | _ => []

end Instruction

namespace Machine

/-- The instruction writes the cell. -/
def Writes (m : Machine) (i : Instruction) (c : Cell) : Prop :=
  ∃ dest, i.assigned? = some dest ∧ m.Denotes dest c

/-- The instruction reads the cell, as that of an operand or as the place of a pointer. -/
inductive Reads (m : Machine) (i : Instruction) (c : Cell) : Prop
  | operand {place : Address} (hplace : .address place ∈ i.operands) (h : m.Denotes place c)
  | operandPointer {place : Address} (hplace : .address place ∈ i.operands)
      (h : m.PointerAt place c)
  | destPointer {dest : Address} (hdest : i.assigned? = some dest) (h : m.PointerAt dest c)

/-- Neither instruction writes a cell that the other one reads or writes. -/
structure Independent (m : Machine) (i j : Instruction) : Prop where
  unread : ∀ c, m.Writes i c → ¬ m.Reads j c
  apart : ∀ c, m.Writes i c → ¬ m.Writes j c
  unread_back : ∀ c, m.Writes j c → ¬ m.Reads i c

variable {m : Machine} {i j : Instruction} {dest : Address} {operand : Operand} {effect : Effect}
variable {v' : Value} {c c' : Cell} {pc : Int}

theorem Independent.symm (h : m.Independent i j) : m.Independent j i where
  unread := h.unread_back
  apart c hj hi := h.apart c hi hj
  unread_back := h.unread

theorem get_store (hread : ¬ m.Reads i c) (hoperand : operand ∈ i.operands) (w : Value) :
    (m.store c w).get operand = m.get operand := by
  cases operand with
  | literal v => rfl
  | address place =>
      have hpointer : ¬ m.PointerAt place c := fun h => hread (.operandPointer hoperand h)
      rw [get, get, cell_store hpointer]
      cases hcell : m.cell .read place with
      | error failure => rfl
      | ok c' =>
          have hne : c' ≠ c := by
            rintro rfl
            exact hread (.operand hoperand (cell_eq_ok_iff.mp hcell))
          rw [Except.map, Except.map, content_store_of_ne m w hne]

theorem set_store (hread : ¬ m.Reads i c) (hwrite : ¬ m.Writes i c)
    (hdest : i.assigned? = some dest) (v w : Value) :
    (m.store c w).set dest v = (m.set dest v).map (·.store c w) := by
  have hpointer : ¬ m.PointerAt dest c := fun h => hread (.destPointer hdest h)
  rw [set, set, cell_store hpointer]
  cases hcell : m.cell .write dest with
  | error failure => rfl
  | ok c' =>
      have hne : c ≠ c' := by
        rintro rfl
        exact hwrite ⟨dest, hdest, cell_eq_ok_iff.mp hcell⟩
      rw [Except.map, Except.map, Except.map, store_comm m hne]

/-- An assignment has the same effect, or the same failure, whatever a cell outside of its
footprint holds. -/
theorem execute_store (hassigned : i.assigned? = some dest) (hread : ¬ m.Reads i c)
    (hwrite : ¬ m.Writes i c) (pc : Int) (w : Value) : (m.store c w).execute pc i =
      (m.execute pc i).map fun effect => { effect with machine := effect.machine.store c w } := by
  have hset (v : Value) := set_store hread hwrite hassigned v w
  -- Each part of an assignment fails alike in both states, or succeeds with the same value.
  cases i with
  | move dest source =>
      cases hassigned
      simp only [execute, get_store hread (List.mem_singleton_self source), hset]
      cases m.get source with
      | error failure => rfl
      | ok v =>
          simp only [ok_bind]
          cases m.set dest v <;> rfl
  | compute operation dest left right =>
      cases hassigned
      have hleft : left ∈ (Instruction.compute operation dest left right).operands := by
        simp [Instruction.operands]
      have hright : right ∈ (Instruction.compute operation dest left right).operands := by
        simp [Instruction.operands]
      simp only [execute, get_store hread hleft, get_store hread hright, hset]
      cases m.get left with
      | error failure => rfl
      | ok v =>
          cases m.get right with
          | error failure => rfl
          | ok v' =>
              simp only [ok_bind]
              cases operation.apply v v' with
              | error cause => rfl
              | ok sum =>
                  simp only [orFail, ok_bind]
                  cases m.set dest sum <;> rfl
  | loadAddress dest source =>
      cases hassigned
      simp only [execute, hset]
      cases m.set dest (.pointer source) <;> rfl
  | call | jump | label | ret | syscall | leave => cases hassigned

theorem exists_store_of_assignment (hassigned : i.assigned? = some dest)
    (h : m.execute pc i = .ok effect) :
    ∃ c v, m.Writes i c ∧ effect = { machine := m.store c v } := by
  have hstore {v : Value} {after : Machine} (hset : m.set dest v = .ok after) :
      ∃ c v, m.Writes i c ∧ ({ machine := after } : Effect) = { machine := m.store c v } := by
    obtain ⟨c, hdenotes, rfl⟩ := set_eq_ok_iff.mp hset
    exact ⟨c, v, ⟨dest, hassigned, hdenotes⟩, rfl⟩
  cases executed_of_execute h with
  | move _ hset | compute _ _ _ hset | loadAddress hset =>
      cases hassigned
      exact hstore hset
  | printf | call | jump | label | ret | leave => cases hassigned

theorem execute_at (hassigned : i.assigned? = some dest) (pc pc' : Int) :
    m.execute pc i = m.execute pc' i := by
  cases i with
  | move | compute | loadAddress => rfl
  | call | jump | label | ret | syscall | leave => cases hassigned

theorem execute_after {pc' : Int} (hj : j.assigned? = some dest)
    (hindependent : m.Independent i j) (hwrites : m.Writes i c)
    (h : m.execute pc' j = .ok { machine := m.store c' v' }) (pc : Int) (v : Value) :
    (m.store c v).execute pc j = .ok { machine := (m.store c' v').store c v } := by
  rw [execute_store hj (hindependent.unread c hwrites) (hindependent.apart c hwrites) pc v,
    execute_at hj pc pc', h, Except.map]

/-- Independent assignments that both succeed commute: each one succeeds after the other one, and
either order leads to the same machine. -/
theorem execute_comm {dest dest' : Address} {pc pc' : Int} {effect effect' : Effect}
    (hi : i.assigned? = some dest) (hj : j.assigned? = some dest')
    (hexecute : m.execute pc i = .ok effect) (hexecute' : m.execute pc' j = .ok effect')
    (hindependent : m.Independent i j) : ∃ after,
      (∀ pc, effect.machine.execute pc j = .ok { machine := after }) ∧
        ∀ pc, effect'.machine.execute pc i = .ok { machine := after } := by
  obtain ⟨c, v, hwrites, rfl⟩ := exists_store_of_assignment hi hexecute
  obtain ⟨c', v', hwrites', rfl⟩ := exists_store_of_assignment hj hexecute'
  have hne : c ≠ c' := by
    rintro rfl
    exact hindependent.apart c hwrites hwrites'
  refine ⟨(m.store c v).store c' v', ?_, ?_⟩
  · intro pc
    rw [execute_after hj hindependent hwrites hexecute' pc v, store_comm m hne]
  · intro pc
    exact execute_after hi hindependent.symm hwrites' hexecute pc v'

/-- Both of the instructions below read the second slot. -/
def sharedSlot : Machine where
  registers := { rax := .pointer (.slot 2), rcx := .integer 1 }
  stack := #[.uninitialized, .integer 7, .uninitialized, .uninitialized]

def copyThroughPointer : Instruction := .move (.reference (.register .rax)) (.address (.slot 1))

def addThroughIndex : Instruction :=
  .compute .add (.slot 3) (.address (.reference (.register .rcx))) (.literal (.integer 4))

theorem sharedSlot_independent : sharedSlot.Independent copyThroughPointer addThroughIndex := by
  have hcopyWrites {c : Cell} (h : sharedSlot.Writes copyThroughPointer c) : c = .slot 2 := by
    obtain ⟨dest, ⟨⟩, hdenotes⟩ := h
    exact hdenotes.eq (.reference rfl (.pointer (by decide)))
  have haddWrites {c : Cell} (h : sharedSlot.Writes addThroughIndex c) : c = .slot 3 := by
    obtain ⟨dest, ⟨⟩, hdenotes⟩ := h
    exact hdenotes.eq (.slot (by decide))
  have hcopyReads {c : Cell} (h : sharedSlot.Reads copyThroughPointer c) :
      c = .slot 1 ∨ c = .register .rax := by
    cases h with
    | operand hplace h =>
        cases List.mem_singleton.mp hplace
        exact .inl (h.eq (.slot (by decide)))
    | operandPointer hplace h =>
        cases List.mem_singleton.mp hplace
        cases h
    | destPointer hdest h =>
        cases hdest
        cases h with
        | reference htarget => exact .inr (htarget.eq (.register .rax))
  have haddReads {c : Cell} (h : sharedSlot.Reads addThroughIndex c) :
      c = .slot 1 ∨ c = .register .rcx := by
    cases h with
    | operand hplace h =>
        obtain rfl : _ = Address.reference (.register .rcx) := by
          simpa [addThroughIndex, Instruction.operands] using hplace
        exact .inl (h.eq (.reference rfl (.integer (by decide) (by decide))))
    | operandPointer hplace h =>
        obtain rfl : _ = Address.reference (.register .rcx) := by
          simpa [addThroughIndex, Instruction.operands] using hplace
        cases h with
        | reference htarget => exact .inr (htarget.eq (.register .rcx))
    | destPointer hdest h =>
        cases hdest
        cases h
  constructor
  · intro c hwrites hreads
    rw [hcopyWrites hwrites] at hreads
    simpa using haddReads hreads
  · intro c hwrites hwrites'
    rw [hcopyWrites hwrites] at hwrites'
    simpa using haddWrites hwrites'
  · intro c hwrites hreads
    rw [haddWrites hwrites] at hreads
    simpa using hcopyReads hreads

theorem sharedSlot_execute_comm : ∃ effect effect' after,
    sharedSlot.execute 0 copyThroughPointer = .ok effect ∧
      sharedSlot.execute 1 addThroughIndex = .ok effect' ∧
      sharedSlot.Independent copyThroughPointer addThroughIndex ∧
      effect.machine.execute 1 addThroughIndex = .ok { machine := after } ∧
      effect'.machine.execute 0 copyThroughPointer = .ok { machine := after } ∧
      after.registers = sharedSlot.registers ∧
      after.stack = #[.uninitialized, .integer 7, .integer 7, .integer 11] := by
  have hcopy : sharedSlot.execute 0 copyThroughPointer =
      .ok { machine := sharedSlot.store (.slot 2) (.integer 7) } := rfl
  have hadd : sharedSlot.execute 1 addThroughIndex =
      .ok { machine := sharedSlot.store (.slot 3) (.integer 11) } := rfl
  obtain ⟨after, hthen, hthen'⟩ := execute_comm rfl rfl hcopy hadd sharedSlot_independent
  have hboth : (sharedSlot.store (.slot 2) (.integer 7)).execute 1 addThroughIndex =
      .ok { machine := (sharedSlot.store (.slot 2) (.integer 7)).store (.slot 3) (.integer 11) } :=
    rfl
  obtain rfl : _ = after := by simpa using hboth.symm.trans (hthen 1)
  exact ⟨_, _, _, hcopy, hadd, sharedSlot_independent, hthen 1, hthen' 0, rfl, rfl⟩

end Machine

end TriReg
