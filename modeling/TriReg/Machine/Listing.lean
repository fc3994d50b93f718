import TriReg.Machine
import TriReg.Text.Padding

namespace TriReg

/-- One line of a stack listing: a slot with its value, or a run of uninitialized slots with its
first and last index. -/
inductive StackLine where
  | slot (index : Nat) (v : Value)
  | run (first last : Nat)
  deriving DecidableEq

def StackLine.display : StackLine → String
  | .slot index v => toString index ++ ": " ++ v.display
  | .run first last =>
    toString first ++ ".." ++ toString last ++ ": " ++ Value.uninitialized.display

/-- A listing on its way through the stack: its lines so far, and where the run of uninitialized
slots started that is still open. -/
structure PartialListing where
  lines : Array StackLine := #[]
  openRun? : Option Nat := none

/-- Ends an open run in front of the slot `index`. -/
def PartialListing.flush (listing : PartialListing) (index : Nat) : PartialListing :=
  match listing.openRun? with
  | some start => { lines := listing.lines.push (.run start (index - 1)), openRun? := none }
  | none => listing

def PartialListing.visit (listing : PartialListing) : Value × Nat → PartialListing
  | (.uninitialized, index) => { listing with openRun? := listing.openRun?.or (some index) }
  | (v, index) =>
    let flushed := listing.flush index
    { flushed with lines := flushed.lines.push (.slot index v) }

namespace Machine

def stackLines (m : Machine) : List StackLine :=
  let listing := m.stack.toList.zipIdx.foldl PartialListing.visit {}
  (listing.flush m.stack.size).lines.toList

def stackListing (m : Machine) : List String := m.stackLines.map StackLine.display

/-- The registers and the stack, as dumps show them. -/
def display (m : Machine) : String :=
  Text.joinLines <|
    ["rax: " ++ m.registers.rax.display, "rbx: " ++ m.registers.rbx.display,
      "rcx: " ++ m.registers.rcx.display, "stack:"] ++ m.stackListing.map ("  " ++ ·)

end Machine

end TriReg
