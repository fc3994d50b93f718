import TriReg.Machine.Effect
import TriReg.Program

/-!
The control effect of an instruction: where the program continues, and what a return does to frames,
registers and stack. A return can fail when its frame is already gone, so the machine is part of the
result in any case.
-/

namespace TriReg

inductive Transition where
  /-- With the next instruction. -/
  | advance
  /-- At a label, entered by a call or a jump. -/
  | enter (index : Nat)
  /-- After a call or a jump that a terminator closed; a `ret` carries a value. -/
  | resume (pc : Int) (value : Option Value)
  /-- Nowhere: the program ended with a value. -/
  | halt (value : Value)
  /-- Nowhere: the program had failed before. -/
  | stopped (value : Option Value)
  deriving DecidableEq

def Program.enter (p : Program) (label : String) : Except Failure Transition :=
  match p.findLabel label with
  | some index => .ok (.enter index)
  | none => .error (.fault (.labelNotFound label))

namespace Machine

/-- The value of a program that ends without one. -/
def defaultResult : Value := .integer 0

/-- Returns a value. The registers are put back first, so a register that receives the value keeps
it. -/
def returnValue (m : Machine) (v : Value) : Machine × Except Failure Transition :=
  match m.frames with
  | [] => (m, .ok (.halt v))
  | frame :: frames =>
    let unwound := { m with registers := m.unwind frame, frames }
    match frame.dest with
    | none => (unwound, .ok (.resume frame.returnPc (some v)))
    | some dest =>
      match unwound.set dest v with
      | .ok stored => (stored, .ok (.resume frame.returnPc (some v)))
      | .error failure => (unwound, .error failure)

def leaveBlock (m : Machine) : Machine × Except Failure Transition :=
  match m.frames with
  | [] => (m, .ok (.halt defaultResult))
  | frame :: frames =>
    match frame.dest with
    | none => ({ m with registers := m.unwind frame, frames }, .ok (.resume frame.returnPc none))
    | some dest => ({ m with frames }, .error (.valueExpected dest))

def transfer (m : Machine) (p : Program) : Instruction → Machine × Except Failure Transition
  | .call _ label => (m, p.enter label)
  | .jump label => (m, p.enter label)
  | .ret operand =>
    match m.get operand with
    | .ok v => m.returnValue v
    | .error failure => (m, .error failure)
  | .leave => m.leaveBlock
  | _ => (m, .ok .advance)

/-- What an instruction does: the machine after it, the line it printed, and where the program
continues. -/
structure Outcome where
  machine : Machine
  printed : Option String
  result : Except Failure Transition

/-- Both effects of the instruction that stands at `pc`, the data effect first. -/
def perform (m : Machine) (p : Program) (pc : Int) (i : Instruction) : Outcome :=
  match m.execute pc i with
  | .error failure => ⟨m, none, .error failure⟩
  | .ok effect =>
    let (machine, result) := effect.machine.transfer p i
    ⟨machine, effect.printed, result⟩

end Machine

end TriReg
