import TriReg.Address.Reader
import TriReg.Token
import TriReg.Value.Arithmetic

namespace TriReg

open TriReg.Text

/-- The value of a text in double quotes is what stands between the first and the last of them. -/
def quotedText? : List Char → Option (List Char)
  | '"' :: rest => if rest.getLast? = some '"' then some rest.dropLast else none
  | _ => none

/-- The sign and the digits of an integer; true stands for minus. A line feed may follow. -/
def signedDigits? (text : List Char) : Option (Bool × List Char) :=
  let (negative, rest) := Numeral.splitSign text
  let digits := if rest.getLast? = some '\n' then rest.dropLast else rest
  if !digits.isEmpty && digits.all isDecimalDigit then some (negative, digits) else none

/-- Reads an integer from its sign and digits; it has to be a word. -/
def readWord (given : String) (negative : Bool) (digits : List Char) :
    Except SourceError Value :=
  match Numeral.readDecimal digits with
  | .error limit => .error (.numeral limit)
  | .ok magnitude =>
    let n : Int := if negative then -magnitude else magnitude
    if Int64.minValue.toInt ≤ n ∧ n ≤ Int64.maxValue.toInt then .ok (.integer (wrap n))
    else misread (.integerOutOfRange given) given

/-- The operand that a text writes: a text in quotes, an integer, or else an address. -/
def Operand.parse (text : String) : Except SourceError Operand :=
  match quotedText? text.toList with
  | some inner => .ok (.literal (.text (String.ofList inner)))
  | none =>
    match signedDigits? text.toList with
    | some (negative, digits) => (readWord text negative digits).map .literal
    | none =>
      match Address.parse text with
      | .ok place => .ok (.address place)
      | .error (.malformed _) => misread (.notAnOperand text) text
      | .error (.numeral limit) => .error (.numeral limit)

/-- A character that may start a label name. -/
def isLabelStart (c : Char) : Bool := c.isAlpha || c == '_' || c == '.'

/-- A character that may stand in a label name after the first. -/
def isLabelRest (c : Char) : Bool := isLabelStart c || c.isDigit

/-- A label name is written with Latin letters, digits, underscores and points, and starts with no
digit. -/
def isLabelName : List Char → Bool
  | [] => false
  | c :: rest => isLabelStart c && rest.all isLabelRest

/-- Reads a label name; an error about an empty name is about the whole line. -/
def readLabel (line name : String) : Except SourceError String :=
  if isLabelName name.toList then .ok name
  else misread (.invalidLabel name) (if name.isEmpty then line else name)

/-- The names of the system calls that a program can write. -/
def syscallNames : List String := ["printf"]

namespace Instruction

/-- Reads a line of one word: `leave`, or a label definition. -/
def read₁ (line word : String) : Except SourceError Instruction :=
  if word.toLower = "leave" then .ok .leave
  else if word.toList.getLast? = some ':' then do
    return .label (← readLabel line (String.ofList word.toList.dropLast))
  else misread (.unknownInstruction word) line

def read₂ (line word arg : String) : Except SourceError Instruction :=
  let mnemonic := word.toLower
  if mnemonic = "syscall" then
    if syscallNames.contains arg then .ok (.syscall arg) else misread (.unknownSyscall arg) line
  else if mnemonic = "jmp" then do return .jump (← readLabel line arg)
  else if mnemonic = "ret" then do return .ret (← Operand.parse arg)
  else if mnemonic = "call" then do return .call none (← readLabel line arg)
  else misread (.unknownInstruction word) line

def read₃ (line word first second : String) : Except SourceError Instruction :=
  let mnemonic := word.toLower
  if mnemonic = "mov" then do return .move (← Address.parse first) (← Operand.parse second)
  else if mnemonic = "lea" then do
    return .loadAddress (← Address.parse first) (← Address.parse second)
  else if mnemonic = "call" then do
    return .call (some (← Address.parse first)) (← readLabel line second)
  else misread (.unknownInstruction word) line

def read₄ (line word first second third : String) : Except SourceError Instruction :=
  let mnemonic := word.toLower
  if mnemonic = "add" then do
    return .compute .add (← Address.parse first) (← Operand.parse second) (← Operand.parse third)
  else if mnemonic = "sub" then do
    return .compute .subtract (← Address.parse first) (← Operand.parse second)
      (← Operand.parse third)
  else misread (.unknownInstruction word) line

/-- Reads an instruction from the words of a line. -/
def ofWords (line : String) : List String → Except SourceError Instruction
  | [word] => read₁ line word
  | [word, arg] => read₂ line word arg
  | [word, first, second] => read₃ line word first second
  | [word, first, second, third] => read₄ line word first second third
  | _ => misread (.wrongLength (String.ofList (trim line.toList))) line

/-- The instruction that a line writes. -/
def parse (line : String) : Except SourceError Instruction := do
  ofWords line (← Token.tokenize line)

end Instruction

end TriReg
