import TriReg.CommandLine

namespace TriReg.CommandLine

def openInput (path : Path) : IO (Except FileError ByteArray) := do
  try
    return .ok (← IO.FS.readBinFile path.text)
  catch e =>
    match e with
    | .noFileOrDirectory .. => return .error .notFound
    | .inappropriateType .. | .illegalOperation .. => return .error .isDirectory
    | e => return .error (.unreadable (toString e))

/-- Runs a session to its end and prints its lines as they come. -/
partial def runPrinting (s : Session) : IO (Session × Except Failure Unit) := do
  let (after, result) := s.runSteps 1000
  IO.print (textOfLines (after.printed.toList.drop s.printed.size))
  match result with
  | .ok () => return (after, .ok ())
  | .error (.failure failure) => return (after, .error failure)
  | .error .outOfSteps => runPrinting after

/-- Shows an outcome and gives its exit code. -/
def Outcome.show (outcome : Outcome) : IO UInt32 := do
  IO.print outcome.stdout
  IO.eprint outcome.stderr
  return outcome.exit.toUInt32

/-- The path that a text writes; a text that is no path breaks the call off. -/
def pathArgument (text : String) : IO Path :=
  match readPath text with
  | .ok path => return path
  | .error e => throw (IO.userError e.message)

def Request.answer (request : Request) : IO UInt32 := do
  if let some directory := request.options.logDir then
    IO.FS.createDirAll (← pathArgument directory).text
  let path ← pathArgument request.input
  match readInput request.input (← openInput path) with
  | .error outcome => outcome.show
  | .ok source =>
    match openSource request.options source with
    | .done outcome => outcome.show
    | .ready shown session =>
      IO.print shown
      let (s, result) ← runPrinting session
      (closeSession request.options "" s result).show

end TriReg.CommandLine

/-- Runs the command line program. -/
def main (arguments : List String) : IO UInt32 :=
  match TriReg.CommandLine.Request.ofArguments arguments with
  | .ok request => request.answer
  | .error notice => notice.outcome.show
