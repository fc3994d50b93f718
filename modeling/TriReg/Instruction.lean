import TriReg.Value

namespace TriReg

/-- What an instruction reads: a value written in the program, or the content of an address. -/
inductive Operand where
  | literal (value : Value)
  | address (place : Address)
  deriving DecidableEq

def Operand.display : Operand → String
  | .literal value => value.display
  | .address place => place.display

/-- A value can always be displayed, also a pointer, which shows its address in hexadecimal. -/
def Operand.displayable : Operand → Bool
  | .literal _ => true
  | .address place => place.displayable

inductive Operation where
  | add
  | subtract
  deriving DecidableEq

def Operation.mnemonic : Operation → String
  | .add => "add"
  | .subtract => "sub"

/-- One instruction. A call without a destination expects no value. -/
inductive Instruction where
  | move (dest : Address) (source : Operand)
  | compute (operation : Operation) (dest : Address) (left right : Operand)
  | loadAddress (dest source : Address)
  | call (dest : Option Address) (label : String)
  | jump (label : String)
  | label (name : String)
  | ret (operand : Operand)
  | syscall (name : String)
  | leave
  deriving DecidableEq

namespace Instruction

/-- The display form, for listings and traces. -/
def display : Instruction → String
  | .move dest source => "mov " ++ dest.display ++ " " ++ source.display
  | .compute operation dest left right =>
    operation.mnemonic ++ " " ++ dest.display ++ " " ++ left.display ++ " " ++ right.display
  | .loadAddress dest source => "lea " ++ dest.display ++ " " ++ source.display
  | .call (some dest) target => "call " ++ dest.display ++ " " ++ target
  | .call none target => "call " ++ target
  | .jump target => "jmp " ++ target
  | .label name => name ++ ":"
  | .ret operand => "ret " ++ operand.display
  | .syscall name => "syscall " ++ name
  | .leave => "leave"

/-- The display can be written. -/
def displayable : Instruction → Bool
  | .move dest source => dest.displayable && source.displayable
  | .compute _ dest left right => dest.displayable && left.displayable && right.displayable
  | .loadAddress dest source => dest.displayable && source.displayable
  | .call (some dest) _ => dest.displayable
  | .ret operand => operand.displayable
  | .call none _ | .jump _ | .label _ | .syscall _ | .leave => true

def labelName? : Instruction → Option String
  | .label name => some name
  | _ => none

/-- The label that a call or a jump enters. -/
def branchTarget? : Instruction → Option String
  | .call _ target => some target
  | .jump target => some target
  | _ => none

@[simp] theorem labelName?_eq_some_iff {i : Instruction} {name : String} :
    i.labelName? = some name ↔ i = .label name := by
  cases i <;> simp [labelName?]

end Instruction

end TriReg
