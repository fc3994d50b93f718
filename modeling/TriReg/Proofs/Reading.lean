import TriReg.Proofs.Decimal
import TriReg.Proofs.Syntax

namespace TriReg

open TriReg.Text TriReg.Token

theorem squeeze_of_plain {text : List Char} (h : Plain text) : squeeze text = text := by
  apply List.filter_eq_self.mpr
  intro c hc
  rw [isBlank_of_isPlain (h c hc), Bool.not_false]

theorem plain_toDigits (n : Nat) : Plain (Nat.toDigits 10 n) := by
  intro c hc
  apply isPlain_of_isAlphanum
  rw [Char.isAlphanum, Nat.isDigit_of_mem_toDigits (by decide) (by decide) hc, Bool.or_true]

theorem plain_name (r : Register) : Plain r.name.toList := by
  cases r <;> decide

theorem isDecimalDigit_of_mem_toDigits {c : Char} {n : Nat} (h : c ∈ Nat.toDigits 10 n) :
    isDecimalDigit c = true :=
  isDecimalDigit_of_isDigit (Nat.isDigit_of_mem_toDigits (by decide) (by decide) h)

namespace Address

variable {a : Address} {text : List Char}

theorem squeeze_of_spelling (h : a.Spelling text) : squeeze text = a.render.toList := by
  induction h with
  | register r => exact squeeze_of_plain (plain_name r)
  | slot index hlead htail =>
      simp only [squeeze_append, squeeze_of_blanks hlead, squeeze_of_blanks htail,
        squeeze_of_plain (plain_toDigits index), toList_render_slot]
      rfl
  | reference h hlead htail ih =>
      simp only [squeeze_append, squeeze_of_blanks hlead, squeeze_of_blanks htail, ih,
        toList_render_reference]
      rfl

theorem walk_of_spelling (h : a.Spelling text) (depth : Nat) :
    walk (false, depth) text = some (false, depth) := by
  induction h generalizing depth with
  | register r => exact walk_of_plain (plain_name r) depth
  | slot index hlead htail =>
      change walk (false, depth) (['s', 'p'] ++ _) = _
      rw [walk_append, walk_of_plain (by decide)]
      exact walk_in_brackets hlead htail (walk_of_plain (plain_toDigits index) _)
  | reference h hlead htail ih => exact walk_in_brackets hlead htail (ih _)

theorem exists_cons_of_spelling (h : a.Spelling text) :
    ∃ c rest, text = c :: rest ∧ (c = 'r' ∨ c = 's' ∨ c = '[') := by
  cases h with
  | register r =>
      cases r
      · exact ⟨'r', ['a', 'x'], rfl, .inl rfl⟩
      · exact ⟨'r', ['b', 'x'], rfl, .inl rfl⟩
      · exact ⟨'r', ['c', 'x'], rfl, .inl rfl⟩
  | slot => exact ⟨'s', _, rfl, .inr (.inl rfl)⟩
  | reference => exact ⟨'[', _, rfl, .inr (.inr rfl)⟩

theorem isWord_of_spelling (h : a.Spelling text) : IsWord text := by
  refine ⟨?_, walk_of_spelling h 0⟩
  obtain ⟨c, rest, rfl, -⟩ := exists_cons_of_spelling h
  exact List.cons_ne_nil c rest

theorem slotDigits?_brackets {digits : List Char} (hne : digits ≠ [])
    (h : ∀ c ∈ digits, isDecimalDigit c = true) :
    slotDigits? (['s', 'p', '['] ++ (digits ++ [']'])) = some digits := by
  have hall : digits.all isDecimalDigit = true := List.all_eq_true.mpr h
  simp [slotDigits?, hne, hall]

theorem bracketed?_brackets (inner : List Char) :
    bracketed? (['['] ++ (inner ++ [']'])) = some inner := by
  simp [bracketed?]

theorem readAddress_register (given : String) (r : Register) :
    readAddress given r.name.toList = .ok (.register r) := by
  rw [readAddress]
  cases r <;> rfl

theorem readAddress_slot (given : String) {digits : List Char} {index : Nat} (hne : digits ≠ [])
    (h : ∀ c ∈ digits, isDecimalDigit c = true) (hread : Numeral.readDecimal digits = .ok index) :
    readAddress given (['s', 'p', '['] ++ (digits ++ [']'])) = .ok (.slot index) := by
  rw [readAddress, if_neg (by simp)]
  simp only [slotDigits?_brackets hne h, hread]

theorem readAddress_reference (given : String) {inner : List Char} (hne : inner ≠ []) :
    readAddress given (['['] ++ (inner ++ [']'])) =
      (readAddress (String.ofList inner) inner).map .reference := by
  have hslot : slotDigits? (['['] ++ (inner ++ [']'])) = none := rfl
  rw [readAddress, if_neg (by simp), hslot]
  dsimp only
  split
  · rename_i hinner
    rw [bracketed?_brackets] at hinner
    exact absurd (Option.some.inj hinner) hne
  · rename_i hinner
    rw [bracketed?_brackets] at hinner
    obtain rfl := Option.some.inj hinner
    exact bind_pure_eq_map ..
  · rename_i hinner
    rw [bracketed?_brackets] at hinner
    cases hinner

theorem readAddress_render (h : a.Writable) (given : String) :
    readAddress given a.render.toList = .ok a := by
  induction a generalizing given with
  | register r => exact readAddress_register given r
  | slot index =>
      rw [toList_render_slot]
      exact readAddress_slot given Nat.toDigits_ne_nil
        (fun c hc => isDecimalDigit_of_mem_toDigits hc)
        (Numeral.readDecimal_toDigits (Numeral.writable_iff.mpr h))
  | reference target ih =>
      obtain ⟨c, rest, htext, -⟩ := exists_cons_of_spelling target.spelling_render
      have hne : target.render.toList ≠ [] := htext ▸ List.cons_ne_nil c rest
      rw [toList_render_reference, readAddress_reference given hne, ih h]
      rfl

theorem parse_of_spelling (hwritable : a.Writable) (h : a.Spelling text) :
    Address.parse (String.ofList text) = .ok a := by
  rw [Address.parse, String.toList_ofList, squeeze_of_spelling h, readAddress_render hwritable]

theorem writable_of_readAddress {given : String} (h : readAddress given text = .ok a) :
    a.Writable := by
  fun_induction readAddress given text generalizing a with
  | case1 given =>
      obtain rfl := Except.ok.inj h
      exact (by decide : (Nat.toDigits 10 0).length ≤ Numeral.maxDigits)
  | case2 given compact hsp digits hdigits index hread =>
      obtain rfl := Except.ok.inj h
      exact Numeral.writable_iff.mp (Numeral.writable_of_readDecimal hread)
  | case3 | case4 | case7 => cases h
  | case5 given compact hsp hslot c inner hinner ih =>
      obtain ⟨target, htarget, hreference⟩ := bind_eq_ok_iff.mp h
      obtain rfl := Except.ok.inj hreference
      change target.Writable
      exact ih htarget
  | case6 given compact hsp hslot hinner r hregister =>
      obtain rfl := Except.ok.inj h
      exact trivial

end Address

/-- The text can stand between quotes inside of one word. -/
def Text.Quotable (s : String) : Prop := IsWord ('"' :: (s.toList ++ ['"']))

/-- The text that the word writes, if it writes one, is one of `texts`. -/
def Text.Quotes (texts : String → Prop) (word : List Char) : Prop :=
  ∀ s : String, word = '"' :: (s.toList ++ ['"']) → texts s

namespace Operand

variable {operand : Operand} {text : List Char}

theorem quotedText?_eq_some_iff {inner : List Char} :
    quotedText? text = some inner ↔ text = '"' :: (inner ++ ['"']) := by
  constructor
  · intro h
    unfold quotedText? at h
    split at h
    · rename_i rest
      split at h
      · rename_i hlast
        cases h
        rw [List.dropLast_append_getLast? _ hlast]
      · cases h
    · cases h
  · rintro rfl
    simp [quotedText?]

theorem quotedText?_eq_none {c : Char} (h : c ≠ '"') (rest : List Char) :
    quotedText? (c :: rest) = none := by
  rw [Option.eq_none_iff_forall_ne_some]
  intro inner hinner
  exact h (List.cons.inj (quotedText?_eq_some_iff.mp hinner)).1

theorem ne_of_isDecimalDigit {c d : Char} (h : isDecimalDigit c = true)
    (hd : isDecimalDigit d = false) : c ≠ d := by
  rintro rfl
  rw [h] at hd
  cases hd

theorem splitSign_of_ne {c : Char} (hminus : c ≠ '-') (hplus : c ≠ '+') (rest : List Char) :
    Numeral.splitSign (c :: rest) = (false, c :: rest) := by
  unfold Numeral.splitSign
  split
  · rename_i hcons
    exact absurd (List.cons.inj hcons).1 hminus
  · rename_i hcons
    exact absurd (List.cons.inj hcons).1 hplus
  · rfl

theorem signedDigits?_of_splitSign {negative : Bool} {digits : List Char}
    (hsplit : Numeral.splitSign text = (negative, digits)) (hne : digits ≠ [])
    (h : ∀ c ∈ digits, isDecimalDigit c = true) :
    signedDigits? text = some (negative, digits) := by
  have hall : digits.all isDecimalDigit = true := List.all_eq_true.mpr h
  have hlast : digits.getLast? ≠ some '\n' := by
    intro hlast
    have hnewline := h '\n' (List.mem_of_getLast? hlast)
    revert hnewline
    decide
  simp [signedDigits?, hsplit, hlast, hne, hall]

theorem signedDigits?_eq_none {c : Char} (hdigit : isDecimalDigit c = false) (hminus : c ≠ '-')
    (hplus : c ≠ '+') (rest : List Char) : signedDigits? (c :: rest) = none := by
  rw [signedDigits?, splitSign_of_ne hminus hplus]
  dsimp only
  rw [if_neg]
  cases rest with
  | nil =>
      intro hdigits
      split at hdigits <;> simp [hdigit] at hdigits
  | cons d rest =>
      intro hdigits
      split at hdigits <;> simp [hdigit] at hdigits

theorem signedDigits?_toString (n : Int) :
    signedDigits? (toString n).toList = some (decide (n < 0), Nat.toDigits 10 n.natAbs) := by
  have hdigits : ∀ c ∈ Nat.toDigits 10 n.natAbs, isDecimalDigit c = true :=
    fun c hc => isDecimalDigit_of_mem_toDigits hc
  refine signedDigits?_of_splitSign ?_ Nat.toDigits_ne_nil hdigits
  rw [Int.toString_eq_repr, Int.repr_eq_if]
  split
  · rename_i hn
    have habs : n.natAbs = n.toNat := by omega
    rw [Nat.toList_repr, decide_eq_false (Int.not_lt.mpr hn), ← habs]
    cases hcons : Nat.toDigits 10 n.natAbs with
    | nil => exact absurd hcons Nat.toDigits_ne_nil
    | cons c rest =>
        have hc := hdigits c (hcons ▸ List.mem_cons_self)
        exact splitSign_of_ne (ne_of_isDecimalDigit hc (by decide))
          (ne_of_isDecimalDigit hc (by decide)) rest
  · rename_i hn
    have habs : n.natAbs = (-n).toNat := by omega
    rw [String.toList_append, Nat.toList_repr, decide_eq_true (Int.not_le.mp hn), habs]
    rfl

theorem writable_natAbs_toInt (w : Int64) : Numeral.writable w.toInt.natAbs = true := by
  have hlow := w.le_toInt
  have hhigh := w.toInt_lt
  have habs : w.toInt.natAbs < 10 ^ 19 := by omega
  exact Numeral.writable_of_lt habs (by decide)

theorem readWord_toInt (given : String) (w : Int64) :
    readWord given (decide (w.toInt < 0)) (Nat.toDigits 10 w.toInt.natAbs) = .ok (.integer w) := by
  have hvalue : (if decide (w.toInt < 0) = true then -(w.toInt.natAbs : Int)
      else (w.toInt.natAbs : Int)) = w.toInt := by
    split
    · rename_i hneg
      have hneg := of_decide_eq_true hneg
      omega
    · rename_i hneg
      have hneg := of_decide_eq_false (Bool.not_eq_true _ ▸ hneg)
      omega
  rw [readWord, Numeral.readDecimal_toDigits (writable_natAbs_toInt w)]
  dsimp only
  rw [hvalue, if_pos ⟨w.minValue_le_toInt, w.toInt_le⟩, wrap, Int64.ofInt_toInt]

theorem parse_integer (w : Int64) :
    Operand.parse (toString w.toInt) = .ok (.literal (.integer w)) := by
  have hsigned := signedDigits?_toString w.toInt
  have hquoted : quotedText? (toString w.toInt).toList = none := by
    rw [Option.eq_none_iff_forall_ne_some]
    intro inner hinner
    rw [quotedText?_eq_some_iff.mp hinner,
      signedDigits?_eq_none (by decide) (by decide) (by decide)] at hsigned
    cases hsigned
  rw [Operand.parse, hquoted, hsigned]
  dsimp only
  rw [readWord_toInt]
  rfl

theorem parse_address {place : Address} (hwritable : place.Writable)
    (h : place.Spelling text) : Operand.parse (String.ofList text) = .ok (.address place) := by
  have hplace := Address.parse_of_spelling hwritable h
  obtain ⟨c, rest, rfl, hc⟩ := Address.exists_cons_of_spelling h
  have hquoted : quotedText? (c :: rest) = none := by
    apply quotedText?_eq_none
    rcases hc with rfl | rfl | rfl <;> decide
  have hsigned : signedDigits? (c :: rest) = none := by
    rcases hc with rfl | rfl | rfl <;>
      exact signedDigits?_eq_none (by decide) (by decide) (by decide) rest
  rw [Operand.parse, String.toList_ofList, hquoted]
  dsimp only
  rw [hsigned]
  dsimp only
  rw [hplace]

theorem parse_of_spelling {texts : String → Prop} (hwritable : operand.Writable texts)
    (h : operand.Spelling text) : Operand.parse (String.ofList text) = .ok operand := by
  cases operand with
  | address place => exact parse_address hwritable h
  | literal value =>
      change text = _ at h
      subst h
      rw [String.ofList_toList]
      cases value with
      | integer w => exact parse_integer w
      | text s =>
          rw [Operand.parse, quotedText?_eq_some_iff.mpr (toList_render_text s)]
          dsimp only
          rw [String.ofList_toList]
      | pointer address => exact absurd hwritable id
      | uninitialized => exact absurd hwritable id

theorem plain_toString (n : Int) : Plain (toString n).toList := by
  rw [Int.toString_eq_repr, Int.repr_eq_if]
  split
  · rw [Nat.toList_repr]
    exact plain_toDigits _
  · have hminus : Plain "-".toList := by decide
    rw [String.toList_append]
    refine List.forall_mem_append.mpr ⟨hminus, ?_⟩
    rw [Nat.toList_repr]
    exact plain_toDigits _

theorem isWord_toString (n : Int) : IsWord (toString n).toList := by
  refine isWord_of_plain ?_ (plain_toString n)
  rw [Int.toString_eq_repr, Int.repr_eq_if]
  split
  · rw [Nat.toList_repr]
    exact Nat.toDigits_ne_nil
  · rw [String.toList_append]
    exact List.cons_ne_nil '-' _

theorem exists_integer_of_readWord {given : String} {negative : Bool} {digits : List Char}
    {value : Value} (h : readWord given negative digits = .ok value) :
    ∃ w, value = .integer w := by
  unfold readWord at h
  split at h
  · cases h
  · rename_i magnitude hread
    dsimp only at h
    generalize (if negative = true then -(magnitude : Int) else magnitude) = n at h
    split at h
    · exact ⟨_, (Except.ok.inj h).symm⟩
    · cases h

theorem isWord_of_spelling (hwritable : operand.Writable Text.Quotable)
    (h : operand.Spelling text) : IsWord text := by
  cases operand with
  | address place => exact Address.isWord_of_spelling h
  | literal value =>
      change text = _ at h
      subst h
      cases value with
      | integer w => exact isWord_toString w.toInt
      | text s =>
          rw [toList_render_text]
          exact hwritable
      | pointer address => exact absurd hwritable id
      | uninitialized => exact absurd hwritable id

theorem writable_of_parse {texts : String → Prop} {given : String}
    (htexts : Text.Quotes texts given.toList) (h : Operand.parse given = .ok operand) :
    operand.Writable texts := by
  unfold Operand.parse at h
  split at h
  · rename_i inner hinner
    obtain rfl := Except.ok.inj h
    refine htexts (String.ofList inner) ?_
    rw [String.toList_ofList]
    exact quotedText?_eq_some_iff.mp hinner
  · split at h
    · obtain ⟨value, hvalue, hliteral⟩ := map_eq_ok_iff.mp h
      subst hliteral
      obtain ⟨w, rfl⟩ := exists_integer_of_readWord hvalue
      exact trivial
    · split at h
      · rename_i place hplace
        obtain rfl := Except.ok.inj h
        exact Address.writable_of_readAddress hplace
      · cases h
      · cases h

end Operand

end TriReg
