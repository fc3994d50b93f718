import TriReg.CommandLine.Path
import TriReg.Text.Quoted

/-!
Files and directories: what a path leads to, reading a file, and making a directory. A path is
followed name by name, and each name is looked up in a directory that exists, so a file or a missing
directory on the way is an error even where the next name leads back.
-/

namespace TriReg.CommandLine

open TriReg.Text

/-- Why a path does not lead to what is asked for. -/
inductive FileError where
  | notFound
  | alreadyExists
  | notADirectory
  | isDirectory
  | nameTooLong
  | unreadable (description : String)
  deriving DecidableEq

/-- The description of an error on a path. -/
def FileError.description (path : String) : FileError → String
  | .notFound => "[Errno 2] No such file or directory: " ++ quoted path
  | .alreadyExists => "[Errno 17] File exists: " ++ quoted path
  | .notADirectory => "[Errno 20] Not a directory: " ++ quoted path
  | .isDirectory => "[Errno 21] Is a directory: " ++ quoted path
  | .nameTooLong => "[Errno 36] File name too long: " ++ quoted path
  | .unreadable description => description

/-- A place in the tree of directories: the names that lead to it from the root, the last one first.
The directory above a place is its tail, and the root is above itself. -/
abbrev Place := List String

inductive Node where
  | file (bytes : ByteArray)
  | directory

/-- The files and directories below the root, and the current directory. -/
structure FileSystem where
  nodes : List (Place × Node)
  current : Place

/-- The most bytes that a name can have. -/
def maxNameBytes : Nat := 255

/-- The most bytes that a path can have. -/
def maxPathBytes : Nat := 4095

namespace FileSystem

def node? (files : FileSystem) (place : Place) : Option Node :=
  if place = [] then some .directory else files.nodes.lookup place

/-- The place that names lead to. All but the last of them are looked up. -/
def walk (files : FileSystem) (place : Place) : List String → Except FileError Place
  | [] => .ok place
  | name :: rest =>
    match files.node? place with
    | none => .error .notFound
    | some (.file _) => .error .notADirectory
    | some .directory =>
      if name = ".." then files.walk place.tail rest
      else if maxNameBytes < name.utf8ByteSize then .error .nameTooLong
      else files.walk (name :: place) rest

/-- The place that a path leads to, where there may be nothing yet. -/
def place (files : FileSystem) (path : Path) : Except FileError Place :=
  if maxPathBytes < path.text.utf8ByteSize then .error .nameTooLong
  else files.walk (if path.start = .current then files.current else []) path.names

def read (files : FileSystem) (path : Path) : Except FileError ByteArray := do
  match files.node? (← files.place path) with
  | none => .error .notFound
  | some .directory => .error .isDirectory
  | some (.file bytes) => .ok bytes

def isDirectory (files : FileSystem) (path : Path) : Bool :=
  match files.place path with
  | .ok place =>
    match files.node? place with
    | some .directory => true
    | _ => false
  | .error _ => false

def makeDirectory (files : FileSystem) (path : Path) : Except FileError FileSystem := do
  let place ← files.place path
  match files.node? place with
  | some _ => .error .alreadyExists
  | none => .ok { files with nodes := (place, .directory) :: files.nodes }

/-- Makes a directory unless there is one. -/
def ensureDirectory (files : FileSystem) (path : Path) : Except (Path × FileError) FileSystem :=
  match files.makeDirectory path with
  | .ok files => .ok files
  | .error e => if files.isDirectory path then .ok files else .error (path, e)

/-- Makes a directory unless there is one, and before it those above it that are missing. The names
of its path are given from the last to the first. -/
def ensureReversed (files : FileSystem) (start : PathStart) :
    (names : List String) → Except (Path × FileError) FileSystem
  | [] => files.ensureDirectory ⟨start, []⟩
  | name :: above =>
    let path : Path := ⟨start, (name :: above).reverse⟩
    match files.makeDirectory path with
    | .error .notFound => do (← files.ensureReversed start above).ensureDirectory path
    | _ => files.ensureDirectory path

/-- Makes the directory of a path and the missing ones above it, or gives the first that cannot be
made. -/
def ensureDirectories (files : FileSystem) (path : Path) : Except (Path × FileError) FileSystem :=
  files.ensureReversed path.start path.names.reverse

end FileSystem

end TriReg.CommandLine
