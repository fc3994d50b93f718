import TriReg.Machine.Listing
import TriReg.Machine.Transition
import TriReg.Program.Check
import TriReg.Program.Reader

/-!
Sessions: a program on its way through a machine. A session runs until the program ends with a value
or a fault stops it, and then steps change nothing until it is reset. A failure that is no fault
leaves the session running.
-/

namespace TriReg

inductive RunState where
  | running
  | halted
  | faulted
  deriving DecidableEq

def RunState.isFinished : RunState → Bool
  | .running => false
  | .halted | .faulted => true

/-- How far a session is. A fault keeps the value of a program that had ended before. -/
inductive Status where
  | running
  | halted (result : Value)
  | faulted (cause : Fault) (result : Option Value)
  deriving DecidableEq

def Status.runState : Status → RunState
  | .running => .running
  | .halted _ => .halted
  | .faulted .. => .faulted

def Status.result? : Status → Option Value
  | .running => none
  | .halted result => some result
  | .faulted _ result => result

def Status.fault? : Status → Option Fault
  | .faulted cause _ => some cause
  | _ => none

def Status.isFinished (status : Status) : Bool := status.runState.isFinished

/-- Why a machine cannot be made with a stack of some size. -/
inductive StackSizeError where
  | missing
  | notPositive (size : Int)
  | tooLarge
  deriving DecidableEq

def StackSizeError.message : StackSizeError → String
  | .missing => "'<=' not supported between instances of 'list' and 'int'"
  | .notPositive size =>
    if Numeral.writable size.natAbs then "stack_size must be positive, got " ++ toString size
    else Numeral.LimitError.writing.message
  | .tooLarge => "cannot fit 'int' into an index-sized integer"

/-- The number of slots that is asked for, which has to be positive and a word. -/
def checkStackSize (size : Int) : Except StackSizeError Nat :=
  if size ≤ 0 then .error (.notPositive size)
  else if Int64.maxValue.toInt < size then .error .tooLarge
  else .ok size.toNat

/-- A session. `output` holds the lines printed since the last reset, `printed` all of them. -/
structure Session where
  program : Program
  machine : Machine
  pc : Int := 0
  steps : Nat := 0
  runState : RunState := .running
  result? : Option Value := none
  fault? : Option Fault := none
  output : Array String := #[]
  printed : Array String := #[]
  tracing : Bool := false
  trace : Array String := #[]
  deriving DecidableEq

/-- Why a run does not come to an end. -/
inductive Stop where
  | failure (failure : Failure)
  | outOfSteps
  deriving DecidableEq

namespace Session

/-- A new session of a program, with `size` slots. -/
def fresh (program : Program) (size : Nat) : Session where
  program
  machine := .fresh size

/-- A new session of a program, if the stack can have the size that is asked for. -/
def start (program : Program) (stackSize : Int) : Except StackSizeError Session :=
  (checkStackSize stackSize).map (fresh program)

/-- The status that the result and the fault make up; the run state goes with it in every session
that commands make of a new one. -/
def status (s : Session) : Status :=
  match s.fault?, s.result? with
  | some cause, result => .faulted cause result
  | none, some result => .halted result
  | none, none => .running

/-- The line that the trace keeps for an instruction, with the registers before it. -/
def traceLine (pc : Nat) (i : Instruction) (rs : Registers) : String :=
  "#" ++ Text.padLeft 4 '0' (toString pc) ++ ": " ++ Text.padRight 28 i.display ++ " " ++ rs.display

/-- Adds a line to the trace if tracing is on. -/
def record (s : Session) (line : String) : Session :=
  if s.tracing then { s with trace := s.trace.push line } else s

/-- Prints a line, if there is one. -/
def print (s : Session) : Option String → Session
  | none => s
  | some line => { s with output := s.output.push line, printed := s.printed.push line }

def halt (s : Session) (result : Value) : Session :=
  { s with result? := some result, runState := .halted }

def fail (s : Session) (cause : Fault) : Session :=
  { s with fault? := some cause, runState := .faulted }

def follow (s : Session) (t : Transition) : Session :=
  let s := { s with steps := s.steps + 1 }
  match t with
  | .advance => { s with pc := s.pc + 1 }
  | .enter index => { s with pc := index }
  | .resume pc _ => { s with pc }
  | .halt result => s.halt result
  | .stopped _ => s

/-- Executes the instruction `i`, which stands at the session's position. -/
def advance (s : Session) (i : Instruction) : Session × Except Failure Transition :=
  let outcome := s.machine.perform s.program s.pc i
  let traced := s.record (traceLine s.pc.toNat i s.machine.registers)
  let after := { traced with machine := outcome.machine }.print outcome.printed
  match outcome.result with
  | .ok t => (after.follow t, .ok t)
  | .error (.fault cause) =>
    ((after.record ("  ERROR: " ++ cause.message)).fail cause, .error (.fault cause))
  | .error (.numeral limit) => (after, .error (.numeral limit))

/-- The session has to trace the instruction, and the line cannot be written. -/
def untraceable (s : Session) (i : Instruction) : Bool := s.tracing && !i.displayable

/-- What a step of a session that is finished comes back with. -/
def idle (s : Session) : Transition :=
  match s.runState, s.result? with
  | .halted, some result => .halt result
  | _, result? => .stopped result?

/-- One step. Past the ends of the program it halts; a session that is finished does not change. -/
def step (s : Session) : Session × Except Failure Transition :=
  match s.runState with
  | .halted | .faulted => (s, .ok s.idle)
  | .running =>
    match s.program.fetch s.pc with
    | some i => if s.untraceable i then (s, .error (.numeral .writing)) else s.advance i
    | none => (s.halt Machine.defaultResult, .ok (.halt Machine.defaultResult))

/-- Checks the program. A failed check stops the session, whatever its run state. -/
def check (s : Session) : Session × Except Fault Unit :=
  match s.program.check with
  | .ok () => (s, .ok ())
  | .error cause => (s.fail cause, .error cause)

/-- The exit code, once there is a result. -/
def exitCode? (s : Session) : Option Int := s.result?.map Value.exitCode

/-- Steps until the session is finished, at most `limit` times. -/
def runSteps : (limit : Nat) → Session → Session × Except Stop Unit
  | 0, s => if s.runState.isFinished then (s, .ok ()) else (s, .error .outOfSteps)
  | limit + 1, s =>
    if s.runState.isFinished then (s, .ok ())
    else match s.step with
      | (s, .ok _) => runSteps limit s
      | (s, .error failure) => (s, .error (.failure failure))

/-- Runs the session to its end, after a check if one is asked for. -/
def run (s : Session) (checked : Bool) (limit : Nat) : Session × Except Stop (Option Int) :=
  match if checked then s.check else (s, .ok ()) with
  | (s, .error cause) => (s, .error (.failure (.fault cause)))
  | (s, .ok ()) =>
    let (s, result) := s.runSteps limit
    (s, result.map fun () => s.exitCode?)

/-- The session at its beginning: nothing but the program, the size of the stack, the tracing switch
and the record of what was printed stays. -/
def reset (s : Session) : Session :=
  { program := s.program, machine := s.machine.reset, printed := s.printed, tracing := s.tracing }

def setTracing (s : Session) (on : Bool) : Session := { s with tracing := on }

def clearTrace (s : Session) : Session := { s with trace := #[] }

def traceText (s : Session) : String := Text.joinLines s.trace.toList

/-- The final state: position, registers and stack. -/
def dump (s : Session) : String := "pc: " ++ toString s.pc ++ "\n" ++ s.machine.display

end Session

/-- Why a session of a source text cannot start. -/
inductive OpenError where
  | source (error : SourceError)
  | stackSize (error : StackSizeError)
  deriving DecidableEq

/-- A new session of the program that a text writes. -/
def Session.ofSource (source : String) (stackSize : Int) : Except OpenError Session :=
  match Program.load source with
  | .error error => .error (.source error)
  | .ok program =>
    match start program stackSize with
    | .error error => .error (.stackSize error)
    | .ok s => .ok s

end TriReg
