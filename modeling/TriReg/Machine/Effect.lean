import TriReg.Machine.Cell
import TriReg.Value.Arithmetic

namespace TriReg

/-- The format with the argument in place of the first pair of empty braces. -/
def substitute (argument : List Char) : List Char → List Char
  | [] => []
  | '{' :: '}' :: rest => argument ++ rest
  | c :: rest => c :: substitute argument rest

/-- A result that fails by a fault alone, where more can fail. -/
def orFail {α : Type} : Except Fault α → Except Failure α
  | .ok a => .ok a
  | .error fault => .error (.fault fault)

/-- The machine after an effect, and the line that was printed. -/
structure Effect where
  machine : Machine
  printed : Option String := none

namespace Machine

/-- The line that printing shows: the format in `rax`, with `rbx` as its argument. -/
def printedLine (m : Machine) : Except Fault String :=
  match m.registers.rax with
  | .text format =>
    .ok (String.ofList (substitute m.registers.rbx.rawText.toList format.toList))
  | v => .error (.notText v)

/-- The frame of a call or a jump that stands at `pc`. -/
def frameAt (m : Machine) (pc : Int) (viaJump : Bool) (dest : Option Address) : Frame :=
  { returnPc := pc + 1, viaJump, dest, saved := m.registers }

/-- The data effect of the instruction that stands at `pc`. -/
def execute (m : Machine) (pc : Int) : Instruction → Except Failure Effect
  | .move dest source => do
    let v ← m.get source
    let m ← m.set dest v
    return { machine := m }
  | .compute operation dest left right => do
    let v ← m.get left
    let w ← m.get right
    let sum ← orFail (operation.apply v w)
    let m ← m.set dest sum
    return { machine := m }
  | .loadAddress dest source => do
    let m ← m.set dest (.pointer source)
    return { machine := m }
  | .call dest _ => .ok { machine := m.pushFrame (m.frameAt pc false dest) }
  | .jump _ => .ok { machine := m.pushFrame (m.frameAt pc true none) }
  | .syscall name =>
    if name = "printf" then do
      let line ← orFail m.printedLine
      return { machine := m, printed := some line }
    else .error (.fault (.unknownSyscall name))
  | .label _ | .ret _ | .leave => .ok { machine := m }

end Machine

end TriReg
