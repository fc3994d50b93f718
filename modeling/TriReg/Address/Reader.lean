import TriReg.Address
import TriReg.SourceError

namespace TriReg

open TriReg.Text

def slotDigits? : List Char → Option (List Char)
  | 's' :: 'p' :: '[' :: rest =>
    let digits := rest.dropLast
    if rest.getLast? = some ']' && !digits.isEmpty && digits.all isDecimalDigit then some digits
    else none
  | _ => none

/-- What stands between an opening bracket at the start and a closing one at the end. -/
def bracketed? : List Char → Option (List Char)
  | '[' :: rest => if rest.getLast? = some ']' then some rest.dropLast else none
  | _ => none

theorem length_lt_of_bracketed? {text inner : List Char} (h : bracketed? text = some inner) :
    inner.length < text.length := by
  unfold bracketed? at h
  split at h
  · split at h
    · cases h
      simp only [List.length_dropLast, List.length_cons]
      omega
    · cases h
  · cases h

/-- Reads an address from its squeezed text; errors are about the text as it was given. Brackets
nest to any depth: that a host with a bounded stack of calls gives up at about a thousand of them
is not modelled. -/
def readAddress (given : String) (compact : List Char) : Except SourceError Address :=
  if compact = ['s', 'p'] then .ok (.slot 0)
  else match slotDigits? compact with
    | some digits =>
      match Numeral.readDecimal digits with
      | .ok index => .ok (.slot index)
      | .error limit => .error (.numeral limit)
    | none =>
      match _h : bracketed? compact with
      | some [] => misread .emptyReference given
      | some (c :: inner) => do
        let target ← readAddress (String.ofList (c :: inner)) (c :: inner)
        return .reference target
      | none =>
        match Register.ofName? (String.ofList compact) with
        | some r => .ok (.register r)
        | none => misread (.unknownAddress given) given
termination_by compact.length
decreasing_by exact length_lt_of_bracketed? (by assumption)

/-- The address that a text writes. -/
def Address.parse (text : String) : Except SourceError Address :=
  readAddress text (squeeze text.toList)

end TriReg
