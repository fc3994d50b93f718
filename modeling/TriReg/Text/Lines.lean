namespace TriReg.Text

def isLineBreak (c : Char) : Bool :=
  let n := c.toNat
  (0x0A ≤ n && n ≤ 0x0D) || (0x1C ≤ n && n ≤ 0x1E) || n == 0x85 || n == 0x2028 || n == 0x2029

/-- Puts a character in front of the first line, which it opens if there is none. -/
def consLine (c : Char) : List (List Char) → List (List Char)
  | [] => [[c]]
  | line :: rest => (c :: line) :: rest

/-- The lines of a text, without their breaks. A break at the end of the text starts no further
line. -/
def lines : List Char → List (List Char)
  | [] => []
  | '\r' :: '\n' :: rest => [] :: lines rest
  | c :: rest => if isLineBreak c then [] :: lines rest else consLine c (lines rest)

/-- Writes every line end made of a carriage return, alone or before a line feed, as a line feed. -/
def unifyNewlines : List Char → List Char
  | [] => []
  | '\r' :: '\n' :: rest => '\n' :: unifyNewlines rest
  | c :: rest => (if c = '\r' then '\n' else c) :: unifyNewlines rest

@[simp] theorem lines_nil : lines [] = [] := rfl

@[simp] theorem lines_crlf (rest : List Char) :
    lines ('\r' :: '\n' :: rest) = [] :: lines rest := by
  rw [lines]

@[simp] theorem lines_lf (rest : List Char) : lines ('\n' :: rest) = [] :: lines rest := by
  rw [lines]
  · rfl
  · simp

theorem lines_cons_of_not_isLineBreak {c : Char} (rest : List Char) (h : isLineBreak c = false) :
    lines (c :: rest) = consLine c (lines rest) := by
  rw [lines]
  · simp [h]
  · rintro _ rfl
    exact absurd h (by decide)

end TriReg.Text
