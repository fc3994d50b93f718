import TriReg.Numeral

namespace TriReg

/-- The causes for which a line is no instruction. -/
inductive Misreading where
  | strayClosingBracket
  | unclosedBracket
  | unclosedText
  | emptyReference
  | unknownAddress (text : String)
  | integerOutOfRange (text : String)
  | notAnOperand (text : String)
  | invalidLabel (name : String)
  | unknownInstruction (word : String)
  | unknownSyscall (name : String)
  /-- The line has no words, or more than an instruction can have. -/
  | wrongLength (line : String)
  deriving DecidableEq

def Misreading.message : Misreading → String
  | .strayClosingBracket => "Unbalanced ']'"
  | .unclosedBracket => "Unbalanced '['"
  | .unclosedText => "Unterminated string literal"
  | .emptyReference => "Empty reference '[]'"
  | .unknownAddress text => "Address unknown: " ++ text
  | .integerOutOfRange text => "Integer literal out of range: " ++ text
  | .notAnOperand text => text ++ " cannot be parsed as an operand"
  | .invalidLabel name => "Invalid label name: " ++ name
  | .unknownInstruction word => "Unknown instruction: " ++ word
  | .unknownSyscall name => "Unknown syscall: " ++ name
  | .wrongLength line => "Unknown size of instruction '" ++ line ++ "'"

/-- A line that is no instruction. The number zero stands for a line that has no number. -/
structure ParseError where
  cause : Misreading
  text : String
  line : Int := 0
  deriving DecidableEq

/-- The message, with the number of the line in front. -/
def ParseError.message (e : ParseError) : String :=
  if e.line = 0 then e.cause.message
  else "Line " ++ toString e.line ++ ": " ++ e.cause.message

inductive SourceError where
  | malformed (error : ParseError)
  | numeral (limit : Numeral.LimitError)
  deriving DecidableEq

def SourceError.message : SourceError → String
  | .malformed e => e.message
  | .numeral limit => limit.message

/-- The error, as one of line `n`. -/
def SourceError.atLine (n : Int) : SourceError → SourceError
  | .malformed e => .malformed { e with line := n }
  | .numeral limit => .numeral limit

/-- A refusal for a cause, about a part of the source. -/
def misread {α : Type} (cause : Misreading) (text : String) : Except SourceError α :=
  .error (.malformed { cause, text })

/-- The result of reading, with its errors on line `n`. -/
def onLine {α : Type} (n : Int) : Except SourceError α → Except SourceError α
  | .ok a => .ok a
  | .error e => .error (e.atLine n)

end TriReg
