import Mathlib.Data.Nat.Digits.Defs
import TriReg.Proofs.Arithmetic
import TriReg.Proofs.Reading

namespace TriReg

open TriReg.Text

instance (n : Int) : Decidable (FitsWord n) := inferInstanceAs (Decidable (_ ∧ _))

theorem fitsWord_iff {n : Int} :
    FitsWord n ↔ Int64.minValue.toInt ≤ n ∧ n ≤ Int64.maxValue.toInt := by
  have hmin : Int64.minValue.toInt = -2 ^ 63 := by decide
  have hmax : Int64.maxValue.toInt = 2 ^ 63 - 1 := by decide
  rw [FitsWord, hmin, hmax]
  omega

namespace Numeral

/-- What stands in front of the digits of a number. -/
inductive Sign where
  | unsigned
  | plus
  | minus
  deriving DecidableEq

def Sign.text : Sign → List Char
  | .unsigned => []
  | .plus => ['+']
  | .minus => ['-']

def Sign.isMinus : Sign → Bool
  | .minus => true
  | _ => false

/-- The number of a magnitude with the sign in front. -/
def Sign.apply (sign : Sign) (magnitude : Nat) : Int :=
  if sign.isMinus then -magnitude else magnitude

/-- A run of decimal digits of any scripts that is short enough to be read. -/
structure IsNumeral (digits : List Char) : Prop where
  nonempty : digits ≠ []
  short : digits.length ≤ maxDigits
  digits : ∀ c ∈ digits, isDecimalDigit c = true

/-- The number that digits write by their places, the last of which counts ones. -/
def placeValue (digits : List Char) : Nat := Nat.ofDigits 10 (digits.map digitValue).reverse

/-- The text is read as the number if a word can hold it, and refused as out of range if none
can. -/
structure ReadsAs (text : String) (n : Int) : Prop where
  accepted : FitsWord n → ∃ w : Int64, w.toInt = n ∧
    Operand.parse text = .ok (.literal (.integer w))
  refused : ¬ FitsWord n → Operand.parse text =
    .error (.malformed { cause := .integerOutOfRange text, text })

variable {digits text rest lead tail : List Char} {given : String} {sign : Sign}
variable {negative : Bool} {v : Value} {w : Int64}

theorem decimalValue_eq_placeValue (digits : List Char) :
    decimalValue digits = placeValue digits := by
  induction digits with
  | nil => rfl
  | cons c digits ih =>
      rw [decimalValue_cons, ih, placeValue, placeValue, List.map_cons, List.reverse_cons,
        Nat.ofDigits_append, Nat.ofDigits_singleton, List.length_reverse, List.length_map]
      ring

theorem readDecimal_eq_ok_iff {n : Nat} :
    readDecimal digits = .ok n ↔ digits.length ≤ maxDigits ∧ placeValue digits = n := by
  rw [readDecimal, decimalValue_eq_placeValue]
  split
  · rename_i hshort
    simp [hshort]
  · rename_i hlong
    simp [hlong]

theorem readWord_eq (given : String) (sign : Sign) (hshort : digits.length ≤ maxDigits) :
    readWord given sign.isMinus digits =
      if FitsWord (sign.apply (placeValue digits)) then
        .ok (.integer (wrap (sign.apply (placeValue digits))))
      else misread (.integerOutOfRange given) given := by
  rw [readWord, readDecimal_eq_ok_iff.mpr ⟨hshort, rfl⟩]
  simp only [fitsWord_iff]
  rfl

theorem toInt_of_readWord (h : readWord given sign.isMinus digits = .ok (.integer w)) :
    digits.length ≤ maxDigits ∧ w.toInt = sign.apply (placeValue digits) := by
  have hshort : digits.length ≤ maxDigits := by
    by_contra hlong
    rw [readWord, readDecimal, if_neg hlong] at h
    cases h
  rw [readWord_eq given sign hshort] at h
  split at h
  · rename_i hfits
    cases h
    exact ⟨hshort, toInt_wrap_of_fitsWord hfits⟩
  · cases h

theorem exists_sign_of_splitSign (h : splitSign text = (negative, rest)) :
    ∃ sign : Sign, sign.isMinus = negative ∧ text = sign.text ++ rest := by
  unfold splitSign at h
  split at h
  · cases h
    exact ⟨.minus, rfl, rfl⟩
  · cases h
    exact ⟨.plus, rfl, rfl⟩
  · cases h
    exact ⟨.unsigned, rfl, rfl⟩

theorem splitSign_text (sign : Sign) (hne : digits ≠ [])
    (hdigits : ∀ c ∈ digits, isDecimalDigit c = true) :
    splitSign (sign.text ++ digits) = (sign.isMinus, digits) := by
  cases sign with
  | plus | minus => rfl
  | unsigned =>
      cases digits with
      | nil => exact absurd rfl hne
      | cons c rest =>
          have hc := hdigits c List.mem_cons_self
          exact Operand.splitSign_of_ne (Operand.ne_of_isDecimalDigit hc (by decide))
            (Operand.ne_of_isDecimalDigit hc (by decide)) rest

theorem exists_sign_of_signedDigits? (h : signedDigits? text = some (negative, digits)) :
    ∃ sign : Sign, sign.isMinus = negative ∧ digits ≠ [] ∧
      (∀ c ∈ digits, isDecimalDigit c = true) ∧
      (text = sign.text ++ digits ∨ text = sign.text ++ (digits ++ ['\n'])) := by
  unfold signedDigits? at h
  generalize hsplit : splitSign text = split at h
  obtain ⟨negative', rest⟩ := split
  obtain ⟨sign, hsign, rfl⟩ := exists_sign_of_splitSign hsplit
  dsimp only at h
  generalize hrest : (if rest.getLast? = some '\n' then rest.dropLast else rest) = body at h
  split at h
  · rename_i hbody
    cases h
    simp only [Bool.and_eq_true, Bool.not_eq_true', List.isEmpty_eq_false_iff,
      List.all_eq_true] at hbody
    refine ⟨sign, hsign, hbody.1, hbody.2, ?_⟩
    split at hrest
    · rename_i hlast
      right
      rw [← hrest, List.dropLast_append_getLast? _ hlast]
    · left
      rw [hrest]
  · cases h

theorem quotedText?_of_signedDigits? (h : signedDigits? text = some (negative, digits)) :
    quotedText? text = none := by
  rw [Option.eq_none_iff_forall_ne_some]
  intro inner hinner
  rw [Operand.quotedText?_eq_some_iff.mp hinner,
    Operand.signedDigits?_eq_none (by decide) (by decide) (by decide)] at h
  cases h

/-- A text that is read as an integer is a number, behind which a line feed may stand. -/
theorem exists_numeral_of_parse (h : Operand.parse given = .ok (.literal (.integer w))) :
    ∃ (sign : Sign) (digits : List Char), IsNumeral digits ∧
      w.toInt = sign.apply (placeValue digits) ∧
      (given.toList = sign.text ++ digits ∨ given.toList = sign.text ++ (digits ++ ['\n'])) := by
  unfold Operand.parse at h
  split at h
  · cases h
  · split at h
    · rename_i negative digits hsigned
      obtain ⟨v, hv, hliteral⟩ := map_eq_ok_iff.mp h
      cases hliteral
      obtain ⟨sign, rfl, hne, hdigits, htext⟩ := exists_sign_of_signedDigits? hsigned
      obtain ⟨hshort, hw⟩ := toInt_of_readWord hv
      exact ⟨sign, digits, ⟨hne, hshort, hdigits⟩, hw, htext⟩
    · split at h <;> cases h

theorem readsAs_apply (sign : Sign) (h : IsNumeral digits) :
    ReadsAs (String.ofList (sign.text ++ digits)) (sign.apply (placeValue digits)) := by
  have hsigned : signedDigits? (sign.text ++ digits) = some (sign.isMinus, digits) :=
    Operand.signedDigits?_of_splitSign (splitSign_text sign h.nonempty h.digits) h.nonempty h.digits
  have hparse : Operand.parse (String.ofList (sign.text ++ digits)) =
      (readWord (String.ofList (sign.text ++ digits)) sign.isMinus digits).map .literal := by
    rw [Operand.parse, String.toList_ofList, quotedText?_of_signedDigits? hsigned, hsigned]
  rw [readWord_eq _ sign h.short] at hparse
  constructor
  · intro hfits
    rw [if_pos hfits] at hparse
    exact ⟨_, toInt_wrap_of_fitsWord hfits, hparse⟩
  · intro hout
    rw [if_neg hout] at hparse
    exact hparse

theorem isBlank_of_isDecimalDigit {c : Char} (h : isDecimalDigit c = true) :
    isBlank c = false := by
  have hcodes : ∀ z ∈ decimalZeros, ∀ d < 10, isBlank (Char.ofNat (z + d)) = false := by
    decide +kernel
  obtain ⟨d, hd⟩ := Option.isSome_iff_exists.mp h
  obtain ⟨z, hz, -⟩ := Option.map_eq_some_iff.mp hd
  have hrange := List.find?_some hz
  simp only [Bool.and_eq_true, decide_eq_true_eq] at hrange
  have hc := hcodes z (List.mem_of_find?_eq_some hz) (c.toNat - z) (by omega)
  rwa [Nat.add_sub_of_le hrange.1, Char.ofNat_toNat] at hc

theorem squeeze_of_digits (hdigits : ∀ c ∈ digits, isDecimalDigit c = true) :
    squeeze digits = digits := by
  apply List.filter_eq_self.mpr
  intro c hc
  rw [isBlank_of_isDecimalDigit (hdigits c hc), Bool.not_false]

theorem parse_slot (h : IsNumeral digits) (hlead : Blanks lead) (htail : Blanks tail) :
    Address.parse (String.ofList (['s', 'p', '['] ++ (lead ++ (digits ++ (tail ++ [']']))))) =
      .ok (.slot (placeValue digits)) := by
  have hsqueeze : squeeze (['s', 'p', '['] ++ (lead ++ (digits ++ (tail ++ [']'])))) =
      ['s', 'p', '['] ++ (digits ++ [']']) := by
    simp only [squeeze_append, squeeze_of_blanks hlead, squeeze_of_blanks htail,
      squeeze_of_digits h.digits]
    rfl
  rw [Address.parse, String.toList_ofList, hsqueeze]
  exact Address.readAddress_slot _ h.nonempty h.digits
    (readDecimal_eq_ok_iff.mpr ⟨h.short, rfl⟩)

/-- Signed numbers and slot indices are read as the numbers that their digits write, or refused. The
text of a word is read as the word, and what is read as an integer is a number. -/
theorem read_as_written :
    (∀ (sign : Sign) (digits : List Char), IsNumeral digits →
      ReadsAs (String.ofList (sign.text ++ digits)) (sign.apply (placeValue digits))) ∧
    (∀ digits lead tail : List Char, IsNumeral digits → Blanks lead → Blanks tail →
      Address.parse (String.ofList (['s', 'p', '['] ++ (lead ++ (digits ++ (tail ++ [']']))))) =
        .ok (.slot (placeValue digits))) ∧
    (∀ w : Int64, Operand.parse (toString w.toInt) = .ok (.literal (.integer w))) ∧
    ∀ (text : String) (w : Int64), Operand.parse text = .ok (.literal (.integer w)) →
      ∃ (sign : Sign) (digits : List Char), IsNumeral digits ∧
        w.toInt = sign.apply (placeValue digits) ∧
        (text.toList = sign.text ++ digits ∨ text.toList = sign.text ++ (digits ++ ['\n'])) := by
  refine ⟨?_, ?_, Operand.parse_integer, ?_⟩
  · intro sign digits h
    exact readsAs_apply sign h
  · intro digits lead tail h hlead htail
    exact parse_slot h hlead htail
  · intro text w h
    exact exists_numeral_of_parse h

/-- The magnitude of the lowest word, with a zero of another script in front. -/
def lowestDigits : List Char := "\u06609223372036854775808".toList

theorem lowestDigits_read_as_written :
    IsNumeral lowestDigits ∧
      Operand.parse "-\u06609223372036854775808" = .ok (.literal (.integer Int64.minValue)) ∧
      Operand.parse "+\u06609223372036854775808" =
        .error (.malformed ⟨.integerOutOfRange "+\u06609223372036854775808",
          "+\u06609223372036854775808", 0⟩) ∧
      Address.parse "sp[\t\u06609223372036854775808 ]" = .ok (.slot (2 ^ 63)) := by
  have hall : lowestDigits.all isDecimalDigit = true := by decide +kernel
  have hdigits : IsNumeral lowestDigits := ⟨by decide, by decide, List.all_eq_true.mp hall⟩
  have hvalue : placeValue lowestDigits = 2 ^ 63 := by decide +kernel
  obtain ⟨hsigned, hslots, -⟩ := read_as_written
  have hslot := hslots lowestDigits ['\t'] [' '] hdigits (by decide) (by decide)
  obtain ⟨w, hw, hminus⟩ := (hsigned .minus _ hdigits).accepted (by rw [hvalue]; decide)
  have hplus := (hsigned .plus _ hdigits).refused (by rw [hvalue]; decide)
  have hword : w = Int64.minValue := Int64.toInt_inj.mp (hw.trans (by rw [hvalue]; decide))
  rw [hvalue] at hslot
  exact ⟨hdigits, hword ▸ hminus, hplus, hslot⟩

end Numeral

end TriReg
