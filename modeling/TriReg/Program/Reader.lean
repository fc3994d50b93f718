import TriReg.Instruction.Reader
import TriReg.Program
import TriReg.Text.Lines

namespace TriReg.Program

open TriReg.Text

/-- Reads the instructions of lines, the first of which has number `n`. -/
def readLines (n : Nat) : List (List Char) → Except SourceError (List (Nat × Instruction))
  | [] => .ok []
  | line :: rest =>
    if Token.isSkipped line then readLines (n + 1) rest
    else do
      let i ← onLine n (Instruction.parse (String.ofList line))
      let others ← readLines (n + 1) rest
      return (n, i) :: others

/-- The program that a text writes. -/
def load (source : String) : Except SourceError Program := do
  return ofNumbered (← readLines 1 (lines source.toList))

end TriReg.Program
