import TriReg.Fault
import TriReg.Machine

/-!
Cells: the registers and the slots of the stack that there are. `Machine.cell` finds the cell that
an address denotes, or fails; reading and writing a cell cannot fail. So an address can be read
exactly if it can be written. A cell holds what was stored in it last (`content_store_self`,
`content_store_of_ne`).
-/

namespace TriReg

/-- A register, or the slot of an index. -/
inductive Cell where
  | register (r : Register)
  | slot (index : Nat)
  deriving DecidableEq

namespace Machine

def content (m : Machine) : Cell → Value
  | .register r => m.registers.get r
  | .slot index => m.stack.getD index .uninitialized

/-- The machine with another value in a cell. -/
def store (m : Machine) (cell : Cell) (v : Value) : Machine :=
  match cell with
  | .register r => { m with registers := m.registers.set r v }
  | .slot index => { m with stack := m.stack.setIfInBounds index v }

/-- The slot that a value names: a positive integer or a pointer to a slot, within the stack. -/
def slotIndex (m : Machine) (access : Access) : Value → Except Failure Nat
  | .integer n =>
    if 0 < n.toInt ∧ n.toInt < m.stack.size then .ok n.toInt.toNat
    else .error (.outOfReach access (.value (.integer n)))
  | .pointer (.slot index) =>
    if index < m.stack.size then .ok index else .error (.outOfReach access (.slot index))
  | .pointer (.register _) => .error (.fault .registerPosition)
  | .pointer (.reference _) => .error (.fault .doubleIndirection)
  | v => .error (.outOfReach access (.value v))

/-- The cell that an address denotes. The address inside a reference is always read, so its failures
are those of a read. -/
def cell (m : Machine) (access : Access) : Address → Except Failure Cell
  | .register r => .ok (.register r)
  | .slot index =>
    if index < m.stack.size then .ok (.slot index) else .error (.outOfReach access (.slot index))
  | .reference (.reference _) => .error (.fault .doubleIndirection)
  | .reference target => do
    let pointer ← m.cell .read target
    let index ← m.slotIndex access (m.content pointer)
    return .slot index

/-- The value that an operand denotes. -/
def get (m : Machine) : Operand → Except Failure Value
  | .literal v => .ok v
  | .address place => (m.cell .read place).map m.content

/-- Writes a value to the cell that an address denotes. -/
def set (m : Machine) (dest : Address) (v : Value) : Except Failure Machine :=
  (m.cell .write dest).map (m.store · v)

/-- The cell is one of the machine's. -/
def HasCell (m : Machine) : Cell → Prop
  | .register _ => True
  | .slot index => index < m.stack.size

theorem hasCell_of_slotIndex {m : Machine} {access : Access} {v : Value} {index : Nat}
    (h : m.slotIndex access v = .ok index) : m.HasCell (.slot index) := by
  unfold slotIndex at h
  split at h
  · split at h
    · cases h
      simp only [HasCell]
      omega
    · cases h
  · split at h
    · cases h
      assumption
    · cases h
  all_goals cases h

theorem hasCell_of_cell {m : Machine} {access : Access} {place : Address} {c : Cell}
    (h : m.cell access place = .ok c) : m.HasCell c := by
  unfold cell at h
  split at h
  · cases h
    trivial
  · split at h
    · cases h
      assumption
    · cases h
  · cases h
  · simp only [bind, Except.bind, pure, Except.pure] at h
    split at h
    · cases h
    · split at h
      · cases h
      · rename_i index hindex
        cases h
        exact hasCell_of_slotIndex hindex

theorem content_store_self {m : Machine} {c : Cell} (v : Value) (h : m.HasCell c) :
    (m.store c v).content c = v := by
  cases c with
  | register r => simp [content, store]
  | slot index =>
    have h : index < m.stack.size := h
    simp [content, store, Array.getD_eq_getD_getElem?, h]

theorem content_store_of_ne (m : Machine) {c c' : Cell} (v : Value) (h : c' ≠ c) :
    (m.store c v).content c' = m.content c' := by
  cases c with
  | register r =>
    cases c' with
    | register r' => exact m.registers.get_set_of_ne v fun e => h (by rw [e])
    | slot _ => rfl
  | slot index =>
    cases c' with
    | register _ => rfl
    | slot index' =>
      have hne : index ≠ index' := fun e => h (by rw [e])
      simp [content, store, Array.getD_eq_getD_getElem?, Array.getElem?_setIfInBounds_ne hne]

@[simp] theorem size_store (m : Machine) (c : Cell) (v : Value) :
    (m.store c v).stack.size = m.stack.size := by
  cases c <;> simp [store]

@[simp] theorem frames_store (m : Machine) (c : Cell) (v : Value) :
    (m.store c v).frames = m.frames := by
  cases c <;> rfl

end Machine

end TriReg
