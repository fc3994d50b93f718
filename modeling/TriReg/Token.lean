import TriReg.SourceError

/-!
The words of a line. Blanks separate words, except inside double quotes and inside brackets, and a
semicolon outside quotes ends the line.
-/

namespace TriReg.Token

open TriReg.Text

def commentMark : Char := ';'

/-- Puts a word in front of others unless it is empty. -/
def consWord (word : List Char) (words : List (List Char)) : List (List Char) :=
  if word.isEmpty then words else word :: words

/-- What the end of a line makes of an open quote or of open brackets. -/
def finish (quoted : Bool) (depth : Nat) : Except Misreading (List Char × List (List Char)) :=
  if quoted then .error .unclosedText
  else if depth ≠ 0 then .error .unclosedBracket
  else .ok ([], [])

/-- Splits what is left of a line into the rest of the current word and the words after it. The
place is inside a quoted text or not, and inside `depth` brackets. -/
def scan (quoted : Bool) (depth : Nat) :
    List Char → Except Misreading (List Char × List (List Char))
  | [] => finish quoted depth
  | c :: rest =>
    if quoted then do
      let (word, words) ← scan (c != '"') depth rest
      return (c :: word, words)
    else if c = commentMark then finish false depth
    else if c = '"' then do
      let (word, words) ← scan true depth rest
      return (c :: word, words)
    else if c = '[' then do
      let (word, words) ← scan false (depth + 1) rest
      return (c :: word, words)
    else if c = ']' then
      match depth with
      | 0 => .error .strayClosingBracket
      | depth + 1 => do
        let (word, words) ← scan false depth rest
        return (c :: word, words)
    else if isBlank c && depth == 0 then do
      let (word, words) ← scan false 0 rest
      return ([], consWord word words)
    else do
      let (word, words) ← scan false depth rest
      return (c :: word, words)

/-- The words of a line. -/
def words (line : List Char) : Except Misreading (List (List Char)) := do
  let (word, words) ← scan false 0 line
  return consWord word words

/-- The words of a line; errors are about the whole line. -/
def tokenize (line : String) : Except SourceError (List String) :=
  match words line.toList with
  | .ok words => .ok (words.map String.ofList)
  | .error cause => misread cause line

/-- The line holds no instruction: it is empty but for blanks and a comment. -/
def isSkipped (line : List Char) : Bool :=
  match trim line with
  | [] => true
  | c :: _ => c == commentMark

end TriReg.Token
