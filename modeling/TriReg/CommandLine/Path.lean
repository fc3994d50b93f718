namespace TriReg.CommandLine

/-- Where a path starts. A path may start with exactly two slashes and keeps both. -/
inductive PathStart where
  | current
  | root
  | doubleRoot
  deriving DecidableEq

def PathStart.text : PathStart → String
  | .current => ""
  | .root => "/"
  | .doubleRoot => "//"

/-- The start of a path, by the slashes at its front. -/
def PathStart.ofText : List Char → PathStart
  | '/' :: '/' :: '/' :: _ => .root
  | '/' :: '/' :: _ => .doubleRoot
  | '/' :: _ => .root
  | _ => .current

/-- The place that a path starts from, and the names that it follows from there. Names for the
directory above are kept, since what they lead to depends on the files. -/
structure Path where
  start : PathStart
  names : List String
  deriving DecidableEq

def Path.ofText (text : String) : Path where
  start := .ofText text.toList
  names := ((text.toList.splitOn '/').map String.ofList).filter fun name => name ≠ "" && name ≠ "."

/-- The text of a path; a path of no names from the current directory is a dot. -/
def Path.text (path : Path) : String :=
  let text := path.start.text ++ "/".intercalate path.names
  if text = "" then "." else text

def isPathText (text : String) : Bool := !text.toList.contains '\x00'

end TriReg.CommandLine
