import TriReg.Instruction

namespace TriReg

structure Registers where
  rax : Value := .uninitialized
  rbx : Value := .uninitialized
  rcx : Value := .uninitialized
  deriving DecidableEq

namespace Registers

def get (rs : Registers) : Register → Value
  | .rax => rs.rax
  | .rbx => rs.rbx
  | .rcx => rs.rcx

def set (rs : Registers) (r : Register) (v : Value) : Registers :=
  match r with
  | .rax => { rs with rax := v }
  | .rbx => { rs with rbx := v }
  | .rcx => { rs with rcx := v }

@[simp] theorem get_set_self (rs : Registers) (r : Register) (v : Value) :
    (rs.set r v).get r = v := by
  cases r <;> rfl

theorem get_set_of_ne (rs : Registers) {r r' : Register} (v : Value) (h : r' ≠ r) :
    (rs.set r v).get r' = rs.get r' := by
  cases r <;> cases r' <;> first | rfl | exact absurd rfl h

@[simp] theorem set_get (rs : Registers) (r : Register) : rs.set r (rs.get r) = rs := by
  cases r <;> rfl

@[simp] theorem set_set (rs : Registers) (r : Register) (v w : Value) :
    (rs.set r v).set r w = rs.set r w := by
  cases r <;> rfl

theorem ext_get {rs rs' : Registers} (h : ∀ r, rs.get r = rs'.get r) : rs = rs' := by
  cases rs
  cases rs'
  simp only [mk.injEq]
  exact ⟨h .rax, h .rbx, h .rcx⟩

def display (rs : Registers) : String :=
  "rax=" ++ rs.rax.display ++ " rbx=" ++ rs.rbx.display ++ " rcx=" ++ rs.rcx.display

end Registers

/-- What a call or a jump leaves behind for its return: where to resume, whether the registers stay
as they are, where the value goes, and the registers as they were. -/
structure Frame where
  returnPc : Int
  viaJump : Bool
  dest : Option Address
  saved : Registers
  deriving DecidableEq

/-- The state of the machine. The innermost frame comes first. -/
structure Machine where
  registers : Registers := {}
  stack : Array Value
  frames : List Frame := []
  deriving DecidableEq

namespace Machine

/-- A machine with `size` slots, all uninitialized. -/
def fresh (size : Nat) : Machine where
  stack := Array.replicate size .uninitialized

/-- The machine as it was at first, with a stack of the same size. -/
def reset (m : Machine) : Machine := fresh m.stack.size

@[simp] theorem size_fresh (size : Nat) : (fresh size).stack.size = size := by
  simp [fresh]

def pushFrame (m : Machine) (frame : Frame) : Machine := { m with frames := frame :: m.frames }

/-- The registers that a return through the frame leaves. -/
def unwind (m : Machine) (frame : Frame) : Registers :=
  if frame.viaJump then m.registers else frame.saved

end Machine

end TriReg
