namespace TriReg.Text

/-- The blank characters: those of the Unicode property White_Space, and the four information
separators U+001C to U+001F. -/
def isBlank (c : Char) : Bool :=
  let n := c.toNat
  (0x09 ≤ n && n ≤ 0x0D) || (0x1C ≤ n && n ≤ 0x20) || n == 0x85 || n == 0xA0 || n == 0x1680 ||
    (0x2000 ≤ n && n ≤ 0x200A) || n == 0x2028 || n == 0x2029 || n == 0x202F || n == 0x205F ||
    n == 0x3000

/-- The text without the blanks at its two ends. -/
def trim (text : List Char) : List Char :=
  ((text.dropWhile isBlank).reverse.dropWhile isBlank).reverse

def squeeze (text : List Char) : List Char :=
  text.filter (!isBlank ·)

theorem mem_squeeze_iff {c : Char} {text : List Char} :
    c ∈ squeeze text ↔ c ∈ text ∧ isBlank c = false := by
  simp [squeeze]

theorem squeeze_append (text more : List Char) :
    squeeze (text ++ more) = squeeze text ++ squeeze more := by
  simp [squeeze]

end TriReg.Text
