import TriReg.Instruction

namespace TriReg

structure Program where
  code : List Instruction
  lineNumbers : List Nat
  aligned : lineNumbers.length = code.length := by simp
  deriving DecidableEq

namespace Program

def ofNumbered (lines : List (Nat × Instruction)) : Program where
  code := lines.map (·.2)
  lineNumbers := lines.map (·.1)

@[simp] theorem code_ofNumbered (lines : List (Nat × Instruction)) :
    (ofNumbered lines).code = lines.map (·.2) := rfl

@[simp] theorem lineNumbers_ofNumbered (lines : List (Nat × Instruction)) :
    (ofNumbered lines).lineNumbers = lines.map (·.1) := rfl

/-- The index of the first definition of a label. -/
def findLabel (p : Program) (name : String) : Option Nat :=
  p.code.findIdx? fun i => i.labelName? == some name

/-- Adds the definition that stands at an index to a table of labels, unless the label has one. -/
def addLabel (table : List (String × Nat)) (i : Instruction) (index : Nat) : List (String × Nat) :=
  match i.labelName? with
  | some name => if table.any (·.1 == name) then table else table ++ [(name, index)]
  | none => table

/-- The labels with the indices of their first definitions, in the order of these. -/
def labels (p : Program) : List (String × Nat) :=
  p.code.zipIdx.foldl (fun table (i, index) => addLabel table i index) []

/-- The instruction at a position, none before the first and after the last. -/
def fetch (p : Program) (pc : Int) : Option Instruction :=
  if 0 ≤ pc then p.code[pc.toNat]? else none

end Program

end TriReg
