import TriReg.Text.Digit
import TriReg.Text.Quoted

namespace TriReg.CommandLine

open TriReg.Text

inductive Flag where
  | help
  | stackSize
  | noCheck
  | checkOnly
  | listing
  | trace
  | verbose
  | logDir
  | version
  deriving DecidableEq

/-- The spellings of the options, in the order in which messages list them. -/
def spellings : List (String × Flag) :=
  [("-h", .help), ("--help", .help), ("--stack-size", .stackSize), ("--no-check", .noCheck),
    ("--check-only", .checkOnly), ("--listing", .listing), ("--trace", .trace),
    ("--verbose", .verbose), ("-v", .verbose), ("--log-dir", .logDir), ("--version", .version)]

def Flag.ofSpelling? (spelling : String) : Option Flag := spellings.lookup spelling

/-- The spellings of an option, as messages name it. -/
def Flag.title (flag : Flag) : String :=
  "/".intercalate ((spellings.filter (·.2 = flag)).map (·.1))

def Flag.takesValue (flag : Flag) : Bool := flag = .stackSize || flag = .logDir

inductive UsageError where
  | missingInput
  | unrecognized (arguments : List String)
  | badStackSize (value : String)
  | missingValue (flag : Flag)
  | unusedValue (flag : Flag) (value : String)
  | ambiguous (argument : String) (candidates : List String)
  deriving DecidableEq

def UsageError.message : UsageError → String
  | .missingInput => "the following arguments are required: input"
  | .unrecognized arguments => "unrecognized arguments: " ++ " ".intercalate arguments
  | .badStackSize value =>
    "argument " ++ Flag.stackSize.title ++ ": invalid parse_int_arg value: " ++ quoted value
  | .missingValue flag => "argument " ++ flag.title ++ ": expected one argument"
  | .unusedValue flag value =>
    "argument " ++ flag.title ++ ": ignored explicit argument " ++ quoted value
  | .ambiguous argument candidates =>
    "ambiguous option: " ++ argument ++ " could match " ++ ", ".intercalate candidates

/-- An argument. The value of an option is what follows an equals sign, or the rest of an argument
that starts with a spelling of one letter. -/
inductive Argument where
  | plain (text : String)
  | separator
  | long (flag : Flag) (value : Option String)
  | short (flag : Flag) (value : Option String)
  | unknown (text : String)
  deriving DecidableEq

/-- The text before the first equals sign, and what follows the sign if there is one. -/
def splitEquals (text : List Char) : List Char × Option (List Char) :=
  match text.dropWhile (· != '=') with
  | [] => (text, none)
  | _ :: value => (text.takeWhile (· != '='), some value)

/-- A minus sign and a number, with or without a decimal point. A line feed may follow. -/
def isNegativeNumber : List Char → Bool
  | '-' :: rest =>
    let body := if rest.getLast? = some '\n' then rest.dropLast else rest
    let whole := body.takeWhile (· != '.')
    match body.dropWhile (· != '.') with
    | [] => !whole.isEmpty && whole.all isDecimalDigit
    | _ :: decimals =>
      whole.all isDecimalDigit && !decimals.isEmpty && decimals.all isDecimalDigit
  | _ => false

/-- The option of a spelling, with the value that an equals sign attached to it. -/
def optionArgument (spelling : String) (flag : Flag) (value : Option String) : Argument :=
  if ['-', '-'].isPrefixOf spelling.toList then .long flag value
  else .short flag value

/-- The readings of an argument that is no full spelling: every long option that starts like it, or
the short option that it starts with. -/
def candidates (text : String) : List (String × Argument) :=
  let (name, value) := splitEquals text.toList
  match text.toList with
  | '-' :: '-' :: _ =>
    (spellings.filter fun (spelling, _) => name.isPrefixOf spelling.toList).map
      fun (spelling, flag) => (spelling, optionArgument spelling flag (value.map String.ofList))
  | '-' :: letter :: rest =>
    (spellings.filter fun (spelling, _) => spelling.toList = ['-', letter]).map
      fun (spelling, flag) => (spelling, .short flag (some (String.ofList rest)))
  | _ => []

/-- Reads one argument that is not `--`. -/
def Argument.ofText (text : String) : Except UsageError Argument :=
  if text.toList.head? ≠ some '-' || text = "-" then .ok (.plain text)
  else match Flag.ofSpelling? text with
    | some flag => .ok (optionArgument text flag none)
    | none =>
      let (name, value) := splitEquals text.toList
      match Flag.ofSpelling? (String.ofList name), value with
      | some flag, some value =>
        .ok (optionArgument (String.ofList name) flag (some (String.ofList value)))
      | _, _ =>
        match candidates text with
        | [(_, argument)] => .ok argument
        | [] =>
          if isNegativeNumber text.toList || text.toList.contains ' ' then .ok (.plain text)
          else .ok (.unknown text)
        | several => .error (.ambiguous text (several.map (·.1)))

def readArguments : List String → Except UsageError (List Argument)
  | [] => .ok []
  | text :: rest =>
    if text = "--" then .ok (.separator :: rest.map .plain)
    else do
      let argument ← Argument.ofText text
      return argument :: (← readArguments rest)

end TriReg.CommandLine
