import TriReg.CommandLine.FileSystem
import TriReg.CommandLine.Request
import TriReg.CommandLine.Usage
import TriReg.Program.Listing
import TriReg.Session
import TriReg.Text.Lines
import TriReg.Text.Utf8

/-!
The command line program. It reads a file, loads, checks and runs it, prints what the program prints
and then the final state, and ends with the exit code of the program. An error goes to the second
output and ends it with one, or with two where the request itself cannot be met. A directory for the
log is made before the file is read; the call breaks off if that fails.
-/

namespace TriReg.CommandLine

open TriReg.Text

structure Outcome where
  exit : Nat
  stdout : String := ""
  stderr : String := ""
  deriving DecidableEq

/-- The outcome of a call that fails with a message after `shown` has been printed. -/
def Outcome.failed (exit : Nat) (shown label message : String) : Outcome :=
  { exit, stdout := shown, stderr := label ++ ": " ++ message ++ "\n" }

def faultLabel : Fault → String
  | .unterminated .. => "Semantic error"
  | .labelNotFound _ => "Label error"
  | .valueExpected _ => "Frame error"
  | _ => "Memory error"

/-- What becomes of a program when it is loaded: it is done at once, or ready to run after `shown`
has been printed. -/
inductive Opening where
  | done (outcome : Outcome)
  | ready (shown : String) (session : Session)

/-- A new session of a program with the stack that the options ask for. -/
def Options.startSession (options : Options) (program : Program) : Except StackSizeError Session :=
  match options.stackSize with
  | none => .error .missing
  | some size => Session.start program size

/-- Loads a program, shows its listing and checks it, as the options say. -/
def openSource (options : Options) (source : String) : Opening :=
  match Program.load source with
  | .error (.malformed e) => .done (.failed 1 "" "Parse error" e.message)
  | .error (.numeral limit) => .done (.failed 1 "" "Error" limit.message)
  | .ok program =>
    let shown := if options.listing then program.listing ++ "\n" else ""
    match options.startSession program with
    | .error (.notPositive size) =>
      .done (.failed 1 shown "Error" (StackSizeError.notPositive size).message)
    | .error e => .done (.failed 2 shown "Internal error" e.message)
    | .ok session =>
      let session := session.setTracing options.trace
      match if options.checkOnly || !options.noCheck then program.check else .ok () with
      | .error cause => .done (.failed 1 shown (faultLabel cause) cause.message)
      | .ok () =>
        if options.checkOnly then .done { exit := 0, stdout := shown ++ "Semantic check passed\n" }
        else .ready shown session

/-- The trace, if it was asked for, and the final state. -/
def report (options : Options) (s : Session) : String :=
  (if options.trace then s.traceText ++ "\n" else "") ++ s.dump ++ "\n"

/-- The outcome of a run that has come to its end; `shown` has been printed before. -/
def closeSession (options : Options) (shown : String) (s : Session) :
    Except Failure Unit → Outcome
  | .error (.fault cause) =>
    .failed 1 (shown ++ report options s) (faultLabel cause) cause.message
  | .error (.numeral limit) => .failed 1 shown "Error" limit.message
  | .ok () =>
    let code := s.exitCode?.getD 0
    { exit := (code % 256).toNat
      stdout := shown ++ report options s ++ "Process finished with: " ++ toString code ++ "\n" }

/-- Runs the program of a source text; none if it does not end within `limit` steps. -/
def runSource (limit : Nat) (options : Options) (source : String) : Option Outcome :=
  match openSource options source with
  | .done outcome => some outcome
  | .ready shown session =>
    let (s, result) := session.runSteps limit
    let shown := shown ++ textOfLines s.printed.toList
    match result with
    | .ok () => some (closeSession options shown s (.ok ()))
    | .error (.failure failure) => some (closeSession options shown s (.error failure))
    | .error .outOfSteps => none

/-- The source text of a file: its bytes have to be UTF-8, and lines end with line feeds. -/
def sourceText (bytes : ByteArray) : Except Utf8.Fault String :=
  (Utf8.decode bytes).map fun text => String.ofList (unifyNewlines text.toList)

/-- The source text of an input, or the outcome of a call that cannot read it. -/
def readInput (input : String) : Except FileError ByteArray → Except Outcome String
  | .error .notFound => .error (.failed 1 "" "Error" ("File not found: " ++ input))
  | .error e =>
    .error (.failed 1 "" ("Error reading " ++ input) (e.description (Path.ofText input).text))
  | .ok bytes =>
    match sourceText bytes with
    | .ok source => .ok source
    | .error fault => .error (.failed 1 "" ("Error reading " ++ input) fault.message)

/-- The outcome of a call that runs no program. -/
def Notice.outcome : Notice → Outcome
  | .help => { exit := 0, stdout := textOfLines helpLines }
  | .version => { exit := 0, stdout := versionText }
  | .usage e =>
    { exit := 2
      stderr := textOfLines (usageLines ++ [programName ++ ": error: " ++ e.message]) }

inductive Breakdown where
  | nullInPath
  | directoryNotMade (path : Path) (error : FileError)
  | outOfSteps
  deriving DecidableEq

def Breakdown.message : Breakdown → String
  | .nullInPath => "embedded null byte"
  | .directoryNotMade path e => e.description path.text
  | .outOfSteps => "step limit reached"

/-- The path that a text writes, which must not have null characters. -/
def readPath (text : String) : Except Breakdown Path :=
  if isPathText text then .ok (.ofText text) else .error .nullInPath

/-- Makes the directory for the log if the options ask for one. -/
def Options.prepareLog (options : Options) (files : FileSystem) : Except Breakdown FileSystem :=
  match options.logDir with
  | none => .ok files
  | some directory => do
    match files.ensureDirectories (← readPath directory) with
    | .ok files => .ok files
    | .error (path, e) => .error (.directoryNotMade path e)

/-- Runs the program that is asked for, within `limit` steps. -/
def Request.run (limit : Nat) (files : FileSystem) (request : Request) :
    Except Breakdown Outcome := do
  let files ← request.options.prepareLog files
  let path ← readPath request.input
  match readInput request.input (files.read path) with
  | .error outcome => .ok outcome
  | .ok source =>
    match runSource limit request.options source with
    | some outcome => .ok outcome
    | none => .error .outOfSteps

/-- A call of the program with arguments, among files. -/
def run (limit : Nat) (files : FileSystem) (arguments : List String) :
    Except Breakdown Outcome :=
  match Request.ofArguments arguments with
  | .error notice => .ok notice.outcome
  | .ok request => request.run limit files

end TriReg.CommandLine
