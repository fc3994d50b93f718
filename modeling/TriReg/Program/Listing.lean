import TriReg.Program
import TriReg.Text.Padding

namespace TriReg.Program

open TriReg.Text

/-- One line of a listing from its three columns. -/
def listingLine (index line instruction : String) : String :=
  padLeft 5 ' ' index ++ "  " ++ padLeft 5 ' ' line ++ "  " ++ instruction

/-- The display of an instruction in a listing. -/
def indented (i : Instruction) : String :=
  match i.labelName? with
  | some _ => i.display
  | none => "    " ++ i.display

def listing (p : Program) : String :=
  joinLines <|
    listingLine "IDX" "LINE" "INSTRUCTION" ::
    String.ofList (List.replicate 40 '-') ::
    (p.code.zip p.lineNumbers).zipIdx.map fun ((i, line), index) =>
      listingLine (toString index) (toString line) (indented i)

end TriReg.Program
