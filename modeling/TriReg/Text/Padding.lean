namespace TriReg.Text

/-- The text at the right end of a column, filled up with `fill`. -/
def padLeft (width : Nat) (fill : Char) (text : String) : String :=
  String.ofList (List.replicate (width - text.length) fill) ++ text

/-- The text at the left end of a column, filled up with spaces. -/
def padRight (width : Nat) (text : String) : String :=
  text ++ String.ofList (List.replicate (width - text.length) ' ')

def joinLines (lines : List String) : String := "\n".intercalate lines

end TriReg.Text
