import TriReg.Instruction
import TriReg.Numeral

namespace TriReg

inductive Access where
  | read
  | write
  deriving DecidableEq

/-- What an access that fails was directed at: a slot past the end of the stack, or a value that
names no slot. -/
inductive Location where
  | slot (index : Nat)
  | value (v : Value)
  deriving DecidableEq

def Location.display : Location → String
  | .slot index => (Address.slot index).display
  | .value v => v.display

/-- The terminators that a call asks for: a call for a value needs a `ret`, any other call and a
jump are also content with a `leave`. -/
inductive Terminator where
  | ret
  | retOrLeave
  deriving DecidableEq

def Terminator.closes : Terminator → Instruction → Bool
  | _, .ret _ => true
  | .retOrLeave, .leave => true
  | _, _ => false

/-- The causes for which a program fails its check or its run. -/
inductive Fault where
  /-- The location is outside the stack, or names no slot. -/
  | outOfReach (access : Access) (location : Location)
  /-- A pointer to a register was used to name a slot. -/
  | registerPosition
  /-- A reference was used to name a slot. -/
  | doubleIndirection
  /-- The values cannot be added. -/
  | incompatible (left right : Value)
  /-- The values cannot be subtracted. -/
  | unsubtractable (left right : Value)
  /-- A format was expected, which has to be a text. -/
  | notText (actual : Value)
  | unknownSyscall (name : String)
  | labelNotFound (label : String)
  /-- A `leave` met a call that expects a value at the address. -/
  | valueExpected (dest : Address)
  /-- The block of the label lacks the terminator that a call or a jump asks for. -/
  | unterminated (label : String) (missing : Terminator)
  deriving DecidableEq

def Fault.message : Fault → String
  | .outOfReach .read location => "Cannot read at: " ++ location.display
  | .outOfReach .write location => "Cannot write at: " ++ location.display
  | .registerPosition => "Segmentation fault: Cannot read a register's position"
  | .doubleIndirection => "Segmentation fault: Only single pointers supported"
  | .incompatible left right =>
    "Cannot operate: incompatible types (" ++ left.display ++ ", " ++ right.display ++ ")"
  | .unsubtractable left right =>
    "Cannot operate: attempted subtracting two incompatible types: [" ++ left.display ++ "] - [" ++
      right.display ++ "]"
  | .notText actual =>
    "Cannot operate: type String is expected but the actual value was " ++ actual.display
  | .unknownSyscall name => "Cannot operate: unknown syscall " ++ name
  | .labelNotFound label => "Cannot find jmp destination " ++ label
  | .valueExpected dest =>
    "`leave` cannot unwind a call that expects a return value into " ++ dest.display
  | .unterminated label .ret =>
    "The label '" ++ label ++ "' is used with an expected return value, but no `ret OPERAND` is " ++
      "provided for all code paths"
  | .unterminated label .retOrLeave =>
    "The label '" ++ label ++ "' is used with a leave command, but no `leave` or `ret` is " ++
      "provided for all code paths"

/-- Why a step does not succeed: a fault, or a number too long to be written in a message. -/
inductive Failure where
  | fault (cause : Fault)
  | numeral (limit : Numeral.LimitError)
  deriving DecidableEq

def Failure.message : Failure → String
  | .fault cause => cause.message
  | .numeral limit => limit.message

/-- The failure of an access to a location. The fault names the location, so the index of a slot has
to be writable. -/
def Failure.outOfReach (access : Access) : Location → Failure
  | .slot index =>
    if Numeral.writable index then .fault (.outOfReach access (.slot index)) else .numeral .writing
  | .value v => .fault (.outOfReach access (.value v))

/-- The failure of a `leave` that meets a call for a value. The fault names the address that waits
for the value. -/
def Failure.valueExpected (dest : Address) : Failure :=
  if dest.displayable then .fault (.valueExpected dest) else .numeral .writing

end TriReg
