import TriReg.Address

namespace TriReg

/-- The content of a register or a stack slot. -/
inductive Value where
  | integer (n : Int64)
  | text (s : String)
  | pointer (address : Address)
  | uninitialized
  deriving DecidableEq

namespace Value

/-- The kind of a value, as messages name it. -/
def kind : Value → String
  | .integer _ => "Integer"
  | .text _ => "String"
  | .pointer _ => "Pointer"
  | .uninitialized => "Uninitialized"

/-- The bare text of a value, which concatenation and printing use. -/
def rawText : Value → String
  | .integer n => toString n.toInt
  | .text s => s
  | .pointer address => address.pointerText
  | .uninitialized => ""

/-- The display form: the kind, and the text in single quotes or the pointer. -/
def display : Value → String
  | .integer n => "Integer '" ++ toString n.toInt ++ "'"
  | .text s => "String '" ++ s ++ "'"
  | .pointer address => "Pointer " ++ address.pointerText
  | .uninitialized => "Uninitialized"

/-- The exit code of a program that ends with the value: an integer itself, else one. -/
def exitCode : Value → Int
  | .integer n => n.toInt
  | _ => 1

end Value

end TriReg
