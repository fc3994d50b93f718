import TriReg.Proofs.Arithmetic
import TriReg.Proofs.Store

namespace TriReg

namespace Instruction

/-- Moves the pointer in a register by a number of slots. -/
def movePointer (r : Register) (a : Int64) : Instruction :=
  .compute .add (.register r) (.address (.register r)) (.literal (.integer a))

/-- Stores a value in the slot that a register points to. -/
def storeThrough (r : Register) (v : Value) : Instruction :=
  .move (.reference (.register r)) (.literal v)

def pointerWalk (r : Register) (k : Nat) (a : Int64) (v : Value) : List Instruction :=
  [.loadAddress (.register r) (.slot k), movePointer r a, storeThrough r v]

end Instruction

namespace Machine

open TriReg.Instruction

/-- The data effects of instructions one after another, the first of which stands at `pc`. The
first one that fails ends the sequence, and what was done before it stays. -/
def executeAll : Machine → Int → List Instruction → Machine × Except (Instruction × Failure) Unit
  | m, _, [] => (m, .ok ())
  | m, pc, i :: rest =>
    match m.execute pc i with
    | .ok effect => effect.machine.executeAll (pc + 1) rest
    | .error failure => (m, .error (i, failure))

/-- The walk stores the value in the slot that it leads to. If there is no such slot, it is the move
that fails below the stack and the store that fails past its end, and no slot is changed. -/
structure Walks (m : Machine) (pc : Int) (r : Register) (k : Nat) (a : Int64) (v : Value) :
    Prop where
  inside : ∀ (j : Nat) (hsize : j < m.stack.size), (j : Int) = k + a.toInt →
    m.executeAll pc (pointerWalk r k a v) =
      ({ m with
          registers := m.registers.set r (.pointer (.slot j))
          stack := m.stack.set j v }, .ok ())
  below : k + a.toInt < 0 → m.executeAll pc (pointerWalk r k a v) =
    ({ m with registers := m.registers.set r (.pointer (.slot k)) },
      .error (movePointer r a, .fault (.incompatible (.pointer (.slot k)) (.integer a))))
  beyond : ∀ j : Nat, m.stack.size ≤ j → (j : Int) = k + a.toInt →
    m.executeAll pc (pointerWalk r k a v) =
      ({ m with registers := m.registers.set r (.pointer (.slot j)) },
        .error (storeThrough r v, .fault (.outOfReach .write (.slot j))))

/-- The walk leads past the end of the stack, to a slot with an index that is too long to be
written. -/
def WalksTooFar (m : Machine) (k : Nat) (a : Int64) : Prop :=
  ∃ j : Nat, (j : Int) = k + a.toInt ∧ m.stack.size ≤ j ∧ Numeral.writable j = false

variable {m : Machine} {pc : Int} {i : Instruction} {rest : List Instruction} {effect : Effect}
variable {failure : Failure} {r : Register} {j k : Nat} {a : Int64}

theorem walksTooFar_succ (hsize : m.stack.size ≤ k + 1)
    (hindex : Numeral.writable (k + 1) = false) : m.WalksTooFar k 1 :=
  ⟨k + 1, Int.natCast_succ k, hsize, hindex⟩

theorem executeAll_of_executed (h : m.Executed pc i effect) :
    m.executeAll pc (i :: rest) = effect.machine.executeAll (pc + 1) rest := by
  rw [executeAll, execute_of_executed h]

theorem executeAll_of_refused (h : m.Refused i failure) :
    m.executeAll pc (i :: rest) = (m, .error (i, failure)) := by
  rw [executeAll, execute_of_refused h]

theorem get_register (m : Machine) (r : Register) :
    m.get (.address (.register r)) = .ok (m.registers.get r) := rfl

theorem set_register (m : Machine) (r : Register) (v : Value) :
    m.set (.register r) v = .ok (m.store (.register r) v) := rfl

theorem executeAll_loadAddress (m : Machine) (pc : Int) (r : Register) (place : Address)
    (rest : List Instruction) :
    m.executeAll pc (.loadAddress (.register r) place :: rest) =
      (m.store (.register r) (.pointer place)).executeAll (pc + 1) rest :=
  executeAll_of_executed (.loadAddress (set_register m r _))

theorem executeAll_movePointer (hheld : m.registers.get r = .pointer (.slot k))
    (hj : (j : Int) = k + a.toInt) :
    m.executeAll pc (movePointer r a :: rest) =
      (m.store (.register r) (.pointer (.slot j))).executeAll (pc + 1) rest := by
  have hsum : Operation.add.apply (m.registers.get r) (.integer a) = .ok (.pointer (.slot j)) := by
    rw [hheld]
    exact Value.add_pointer_eq_slot_iff.mpr hj
  exact executeAll_of_executed (.compute (get_register m r) rfl hsum (set_register m r _))

theorem executeAll_movePointer_of_neg (hheld : m.registers.get r = .pointer (.slot k))
    (hbelow : k + a.toInt < 0) :
    m.executeAll pc (movePointer r a :: rest) =
      (m, .error (movePointer r a, .fault (.incompatible (.pointer (.slot k)) (.integer a)))) := by
  have hfault : Operation.add.apply (m.registers.get r) (.integer a) =
      .error (.incompatible (.pointer (.slot k)) (.integer a)) := by
    rw [hheld]
    exact Value.add_pointer_eq_error_iff.mpr ⟨rfl, hbelow⟩
  exact executeAll_of_refused (.operation (get_register m r) rfl hfault)

theorem executeAll_storeThrough (hheld : m.registers.get r = .pointer (.slot j))
    (hsize : j < m.stack.size) (v : Value) :
    m.executeAll pc (storeThrough r v :: rest) =
      (m.store (.slot j) v).executeAll (pc + 1) rest := by
  have hdenotes : m.Denotes (.reference (.register r)) (.slot j) :=
    .reference hheld (.pointer hsize)
  exact executeAll_of_executed (.move rfl (set_of_denotes hdenotes v))

theorem executeAll_storeThrough_of_le (hheld : m.registers.get r = .pointer (.slot j))
    (hsize : m.stack.size ≤ j) (v : Value) :
    m.executeAll pc (storeThrough r v :: rest) =
      (m, .error (storeThrough r v, .outOfReach .write (.slot j))) := by
  have hmisses : m.Misses (.reference (.register r)) (.slot j) := .held hheld (.pointer hsize)
  obtain ⟨access, haccess, hset⟩ := set_of_misses hmisses v
  have hwrite : access = .write := by
    cases access with
    | write => rfl
    | read => exact absurd (haccess.mp rfl) (not_lacksPointer_of_holdsAt hheld)
  rw [hwrite] at hset
  exact executeAll_of_refused (.move rfl hset)

/-- The first two instructions do not look at the stack. -/
theorem executeAll_pointerWalk (m : Machine) (pc : Int) (r : Register) (v : Value)
    (hj : (j : Int) = k + a.toInt) :
    m.executeAll pc (pointerWalk r k a v) =
      (m.store (.register r) (.pointer (.slot j))).executeAll (pc + 1 + 1) [storeThrough r v] := by
  rw [pointerWalk, executeAll_loadAddress,
    executeAll_movePointer (m.registers.get_set_self r _) hj, store_store]

theorem executeAll_pointerWalk_of_le (m : Machine) (pc : Int) (r : Register) (v : Value)
    (hj : (j : Int) = k + a.toInt) (hsize : m.stack.size ≤ j) :
    m.executeAll pc (pointerWalk r k a v) =
      ({ m with registers := m.registers.set r (.pointer (.slot j)) },
        .error (storeThrough r v, .outOfReach .write (.slot j))) := by
  have hheld : (m.store (.register r) (.pointer (.slot j))).registers.get r =
      .pointer (.slot j) := m.registers.get_set_self r _
  rw [executeAll_pointerWalk m pc r v hj, executeAll_storeThrough_of_le hheld hsize]
  rfl

theorem walks_of_not_walksTooFar (hnear : ¬ m.WalksTooFar k a) (pc : Int) (r : Register)
    (v : Value) : m.Walks pc r k a v where
  inside j hsize hj := by
    have hheld : (m.store (.register r) (.pointer (.slot j))).registers.get r =
        .pointer (.slot j) := m.registers.get_set_self r _
    have hslot : j < (m.store (.register r) (.pointer (.slot j))).stack.size := hsize
    rw [executeAll_pointerWalk m pc r v hj, executeAll_storeThrough hheld hslot, store_slot hslot]
    rfl
  below hbelow := by
    rw [pointerWalk, executeAll_loadAddress,
      executeAll_movePointer_of_neg (m.registers.get_set_self r _) hbelow]
    rfl
  beyond j hsize hj := by
    have hindex : Numeral.writable j = true := by
      by_contra hlong
      exact hnear ⟨j, hj, hsize, Bool.eq_false_iff.mpr hlong⟩
    rw [executeAll_pointerWalk_of_le m pc r v hj hsize, Failure.outOfReach, if_pos hindex]

theorem numeral_of_walksTooFar (hfar : m.WalksTooFar k a) (pc : Int) (r : Register) (v : Value) :
    ∃ j : Nat, (j : Int) = k + a.toInt ∧ m.stack.size ≤ j ∧
      m.executeAll pc (pointerWalk r k a v) =
        ({ m with registers := m.registers.set r (.pointer (.slot j)) },
          .error (storeThrough r v, .numeral .writing)) := by
  obtain ⟨j, hj, hsize, hindex⟩ := hfar
  have hnumeral : Failure.outOfReach .write (.slot j) = .numeral .writing :=
    Failure.outOfReach_slot_eq_numeral_iff.mpr ⟨rfl, hindex⟩
  refine ⟨j, hj, hsize, ?_⟩
  rw [executeAll_pointerWalk_of_le m pc r v hj hsize, hnumeral]

theorem not_walks_of_walksTooFar (hfar : m.WalksTooFar k a) (pc : Int) (r : Register) (v : Value) :
    ¬ m.Walks pc r k a v := by
  intro hwalks
  obtain ⟨j, hj, hsize, hnumeral⟩ := numeral_of_walksTooFar hfar pc r v
  rw [hwalks.beyond j hsize hj] at hnumeral
  cases hnumeral

/-- The walk has the outcome that its end asks for, unless it leads too far past the end of the
stack; then the store fails without a fault, and no slot is changed either. -/
theorem walks_iff (m : Machine) (pc : Int) (r : Register) (k : Nat) (a : Int64) (v : Value) :
    (m.Walks pc r k a v ↔ ¬ m.WalksTooFar k a) ∧
      (m.WalksTooFar k a → ∃ j : Nat, (j : Int) = k + a.toInt ∧ m.stack.size ≤ j ∧
        m.executeAll pc (pointerWalk r k a v) =
          ({ m with registers := m.registers.set r (.pointer (.slot j)) },
            .error (storeThrough r v, .numeral .writing))) := by
  refine ⟨⟨?_, ?_⟩, ?_⟩
  · intro hwalks hfar
    exact not_walks_of_walksTooFar hfar pc r v hwalks
  · intro hnear
    exact walks_of_not_walksTooFar hnear pc r v
  · intro hfar
    exact numeral_of_walksTooFar hfar pc r v

/-- A walk back from slot 2 by its own index ends in the first slot. -/
example : (fresh 3).executeAll 0 (pointerWalk .rcx 2 (-2) (.integer 7)) =
    (⟨{ rcx := .pointer (.slot 0) }, #[.integer 7, .uninitialized, .uninitialized], []⟩,
      .ok ()) := by
  decide +kernel

theorem longestIndex_walks_too_far :
    ¬ ∀ (m : Machine) (pc : Int) (r : Register) (k : Nat) (a : Int64) (v : Value),
      m.Walks pc r k a v := by
  intro hall
  have hsize : (fresh 64).stack.size ≤ Session.longestIndex + 1 := by decide +kernel
  have hindex : Numeral.writable (Session.longestIndex + 1) = false := by decide +kernel
  have hfar := walksTooFar_succ hsize hindex
  exact not_walks_of_walksTooFar hfar 0 .rax (.integer 7) (hall _ _ _ _ _ _)

end Machine

end TriReg
