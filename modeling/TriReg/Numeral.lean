import TriReg.Text.Blank
import TriReg.Text.Digit
import TriReg.Text.Quoted

/-!
Numerals. Decimal numerals are read and written up to `maxDigits` digits, longer ones are refused;
hexadecimal numerals have no limit. `readInteger` reads a signed numeral whose digits may be set
apart by single underscores, and `readArgument` a number in one of three notations.
-/

namespace TriReg.Numeral

open TriReg.Text

/-- The most digits that a decimal numeral has when it is read or written. -/
def maxDigits : Nat := 4300

/-- A decimal numeral of more than `maxDigits` digits, which was to be read or written. -/
inductive LimitError where
  | reading (digits : Nat)
  | writing
  deriving DecidableEq

def LimitError.message (e : LimitError) : String :=
  let found := match e with
    | .reading digits => ": value has " ++ toString digits ++ " digits"
    | .writing => ""
  "Exceeds the limit (" ++ toString maxDigits ++ " digits) for integer string conversion" ++
    found ++ "; use sys.set_int_max_str_digits() to increase the limit"

/-- The number that a run of decimal digits writes. -/
def readDecimal (digits : List Char) : Except LimitError Nat :=
  if digits.length ≤ maxDigits then .ok (decimalValue digits) else .error (.reading digits.length)

/-- The number can be written in decimal. -/
def writable (n : Nat) : Bool := n < Nat.pow 10 maxDigits

inductive Base where
  | decimal
  | hexadecimal
  deriving DecidableEq

def Base.radix : Base → Nat
  | .decimal => 10
  | .hexadecimal => 16

/-- The value of a digit in a base. -/
def Base.digit? : Base → Char → Option Nat
  | .decimal => digitValue?
  | .hexadecimal => hexDigitValue?

/-- The number that a run of digits of a base writes; other characters count as zeros. -/
def Base.value (base : Base) (digits : List Char) : Nat :=
  digits.foldl (fun value c => base.radix * value + (base.digit? c).getD 0) 0

inductive IntegerError where
  | limit (error : LimitError)
  | invalid (base : Base) (text : String)
  deriving DecidableEq

/-- The longest quoted text that a message shows. -/
def shownCharacters : Nat := 200

def IntegerError.message : IntegerError → String
  | .limit error => error.message
  | .invalid base text =>
    "invalid literal for int() with base " ++ toString base.radix ++ ": " ++
      String.ofList ((quoted text).toList.take shownCharacters)

/-- A blank that may stand around a numeral: any but the information separators. -/
def isPadding (c : Char) : Bool := isBlank c && !(0x1C ≤ c.toNat && c.toNat ≤ 0x1F)

/-- The text without the padding at its two ends. -/
def trimPadding (text : List Char) : List Char :=
  ((text.dropWhile isPadding).reverse.dropWhile isPadding).reverse

/-- Splits off a sign; true stands for minus. -/
def splitSign : List Char → Bool × List Char
  | '-' :: rest => (true, rest)
  | '+' :: rest => (false, rest)
  | text => (false, text)

/-- The text without the mark of hexadecimal notation, a zero of any script and an `x`, which one
underscore may follow. -/
def dropHexMark : List Char → List Char
  | zero :: mark :: rest =>
    if digitValue? zero = some 0 && (mark == 'x' || mark == 'X') then
      match rest with
      | '_' :: rest => rest
      | rest => rest
    else zero :: mark :: rest
  | text => text

/-- Every underscore stands between two digits, and there is a digit. -/
def wellSeparated : List Char → Bool
  | [] => false
  | ['_'] => false
  | [_] => true
  | '_' :: _ => false
  | _ :: '_' :: rest => wellSeparated rest
  | _ :: rest => wellSeparated rest

/-- The integer that a text writes in a base: padding, a sign, in base 16 the hexadecimal mark, and
digits that single underscores may set apart. -/
def readInteger (base : Base) (text : List Char) : Except IntegerError Int :=
  let (negative, unsigned) := splitSign (trimPadding text)
  let body := if base = .hexadecimal then dropHexMark unsigned else unsigned
  let isDigit := fun c => (base.digit? c).isSome || c == '_'
  let run := body.takeWhile isDigit
  let digits := run.filter (· != '_')
  if !wellSeparated run then .error (.invalid base (String.ofList text))
  else if base = .decimal && maxDigits < digits.length then
    .error (.limit (.reading digits.length))
  else if !(body.dropWhile isDigit).isEmpty then .error (.invalid base (String.ofList text))
  else
    let magnitude : Int := base.value digits
    .ok (if negative then -magnitude else magnitude)

/-- The integer that an argument writes: in hexadecimal after `0x`, `0X` or `$`, else in decimal. -/
def readArgument (text : String) : Except IntegerError Int :=
  match trim text.toList with
  | '$' :: rest => readInteger .hexadecimal rest
  | '0' :: 'x' :: rest => readInteger .hexadecimal ('0' :: 'x' :: rest)
  | '0' :: 'X' :: rest => readInteger .hexadecimal ('0' :: 'X' :: rest)
  | text => readInteger .decimal text

end TriReg.Numeral
