import TriReg.CommandLine.Argument
import TriReg.Numeral

namespace TriReg.CommandLine

/-- The settings of a run. The stack size is none when its value has been dropped. -/
structure Options where
  stackSize : Option Int := some 64
  noCheck : Bool := false
  checkOnly : Bool := false
  listing : Bool := false
  trace : Bool := false
  verbose : Bool := false
  logDir : Option String := none
  deriving DecidableEq

/-- What is shown when no program is run. -/
inductive Notice where
  | help
  | version
  | usage (error : UsageError)
  deriving DecidableEq

/-- A program to run, by the path of its file. -/
structure Request where
  input : String
  options : Options
  deriving DecidableEq

/-- The arguments read so far: the input, the settings and what is left over. -/
structure Collected where
  input : Option String := none
  options : Options := {}
  extras : List String := []
  deriving DecidableEq

namespace Collected

/-- A plain argument is the input, or left over if there is one. -/
def addPlain (c : Collected) (text : String) : Collected :=
  match c.input with
  | none => { c with input := some text }
  | some _ => { c with extras := c.extras ++ [text] }

def addExtra (c : Collected) (text : String) : Collected := { c with extras := c.extras ++ [text] }

/-- Lets an option without a value take effect; help and version end the reading. -/
def apply (c : Collected) : Flag → Except Notice Collected
  | .help => .error .help
  | .version => .error .version
  | .noCheck => .ok { c with options.noCheck := true }
  | .checkOnly => .ok { c with options.checkOnly := true }
  | .listing => .ok { c with options.listing := true }
  | .trace => .ok { c with options.trace := true }
  | .verbose => .ok { c with options.verbose := true }
  | .stackSize | .logDir => .ok c

/-- Lets an option with a value take effect. The value `--` is dropped and leaves the option
without one, and an empty directory is none. -/
def applyValue (c : Collected) (flag : Flag) (value : String) : Except Notice Collected :=
  if flag = .stackSize then
    if value = "--" then .ok { c with options.stackSize := none }
    else match Numeral.readArgument value with
      | .ok n => .ok { c with options.stackSize := some n }
      | .error _ => .error (.usage (.badStackSize value))
  else if value = "--" || value = "" then .ok { c with options.logDir := none }
  else .ok { c with options.logDir := some value }

end Collected

/-- The options of one letter that an argument holds together: `flag` and those that the letters of
its value name. All of them have to be options. -/
def cluster (flag : Flag) : (value : List Char) → Except UsageError (List Flag)
  | [] => .ok [flag]
  | c :: rest =>
    match Flag.ofSpelling? (String.ofList ['-', c]) with
    | none => .error (.unusedValue flag (String.ofList (c :: rest)))
    | some next => (cluster next rest).map (flag :: ·)

/-- The options of an argument that starts with the spelling of one letter. A value that is empty
names none. -/
def shortFlags (flag : Flag) : (value : Option String) → Except UsageError (List Flag)
  | none => .ok [flag]
  | some "" => .error (.unusedValue flag "")
  | some value => cluster flag value.toList

/-- Lets arguments take effect from left to right. -/
def collect (c : Collected) : List Argument → Except Notice Collected
  | [] => .ok c
  | .plain text :: .separator :: rest =>
    match c.input with
    | none => collect (c.addPlain text) rest
    | some _ => collect ((c.addExtra text).addExtra "--") rest
  | .plain text :: rest => collect (c.addPlain text) rest
  | .separator :: rest =>
    match c.input, rest with
    | none, _ :: _ => collect c rest
    | _, _ => collect (c.addExtra "--") rest
  | .unknown text :: rest => collect (c.addExtra text) rest
  | .long flag (some value) :: rest =>
    if flag.takesValue then do collect (← c.applyValue flag value) rest
    else .error (.usage (.unusedValue flag value))
  | .long flag none :: .plain value :: rest =>
    if flag.takesValue then do collect (← c.applyValue flag value) rest
    else do collect (← c.apply flag) (.plain value :: rest)
  | .long flag none :: rest =>
    if flag.takesValue then .error (.usage (.missingValue flag))
    else do collect (← c.apply flag) rest
  | .short flag value :: rest =>
    match shortFlags flag value with
    | .error e => .error (.usage e)
    | .ok flags => do collect (← flags.foldlM Collected.apply c) rest

def Request.ofArguments (arguments : List String) : Except Notice Request :=
  match readArguments arguments with
  | .error e => .error (.usage e)
  | .ok arguments => do
    match ← collect {} arguments with
    | ⟨none, _, _⟩ => .error (.usage .missingInput)
    | ⟨some input, options, []⟩ => .ok { input, options }
    | ⟨some _, _, extras⟩ => .error (.usage (.unrecognized extras))

end TriReg.CommandLine
