import Mathlib.Data.List.TakeWhile
import TriReg.Proofs.Numbers

namespace TriReg

open TriReg.Text

namespace Text

variable {drop : Char → Bool} {lead text tail : List Char}

theorem dropWhile_of_forall_not (h : ∀ c ∈ text, drop c = false) :
    text.dropWhile drop = text := by
  cases text with
  | nil => rfl
  | cons c rest =>
      exact List.dropWhile_cons_of_neg (by simp [h c List.mem_cons_self])

theorem strip_append (hlead : ∀ c ∈ lead, drop c = true) (htail : ∀ c ∈ tail, drop c = true)
    (htext : ∀ c ∈ text, drop c = false) :
    (((lead ++ (text ++ tail)).dropWhile drop).reverse.dropWhile drop).reverse = text := by
  rw [List.dropWhile_append_of_pos hlead]
  cases text with
  | nil =>
      rw [List.nil_append, List.dropWhile_eq_nil_iff.mpr htail]
      rfl
  | cons c rest =>
      have hfirst : (c :: rest ++ tail).dropWhile drop = c :: rest ++ tail :=
        List.dropWhile_cons_of_neg (by simp [htext c List.mem_cons_self])
      have hlast : (c :: rest ++ tail).reverse.dropWhile drop = (c :: rest).reverse := by
        rw [List.reverse_append,
          List.dropWhile_append_of_pos fun c hc => htail c (List.mem_reverse.mp hc),
          dropWhile_of_forall_not fun c hc => htext c (List.mem_reverse.mp hc)]
      rw [hfirst, hlast, List.reverse_reverse]

theorem trim_append (hlead : Blanks lead) (htail : Blanks tail)
    (htext : ∀ c ∈ text, isBlank c = false) : trim (lead ++ (text ++ tail)) = text :=
  strip_append hlead htail htext

end Text

namespace Numeral

/-- The forms in which a number may be written. -/
inductive Form where
  | decimal
  | lowerMark
  | upperMark
  | dollar
  deriving DecidableEq

def Form.base : Form → Base
  | .decimal => .decimal
  | _ => .hexadecimal

/-- What stands in front of the digits. -/
def Form.mark : Form → List Char
  | .decimal => []
  | .lowerMark => ['0', 'x']
  | .upperMark => ['0', 'X']
  | .dollar => ['$']

/-- The digits write the number in the base, with any number of zeros in front and with letters in
either case. -/
def Base.Writes (base : Base) (digits : List Char) (n : Nat) : Prop :=
  ∃ zeros, digits.map Char.toLower = List.replicate zeros '0' ++ Nat.toDigits base.radix n

/-- The text is the digits, of which any two neighbours may be set apart by one underscore. -/
inductive Spaced : (digits text : List Char) → Prop
  | single (c : Char) : Spaced [c] [c]
  | next (c : Char) {digits text} (h : Spaced digits text) : Spaced (c :: digits) (c :: text)
  | apart (c : Char) {digits text} (h : Spaced digits text) :
      Spaced (c :: digits) (c :: '_' :: text)

variable {base : Base} {digits text body : List Char} {c x : Char} {n : Nat}

section Digit

theorem Base.digit?_toLower (base : Base) (c : Char) : base.digit? c.toLower = base.digit? c := by
  have hletters : ∀ k < 26,
      base.digit? (Char.ofNat (65 + k)).toLower = base.digit? (Char.ofNat (65 + k)) := by
    cases base <;> decide +kernel
  by_cases hupper : 65 ≤ c.toNat ∧ c.toNat ≤ 90
  · have hc := hletters (c.toNat - 65) (by omega)
    rwa [Nat.add_sub_of_le hupper.1, Char.ofNat_toNat] at hc
  · have hsame : c.toLower = c := dif_neg fun h => hupper ⟨h.1, h.2⟩
    rw [hsame]

theorem Base.value_map_toLower (base : Base) (digits : List Char) :
    base.value (digits.map Char.toLower) = base.value digits := by
  simp only [value, List.foldl_map, digit?_toLower]

theorem Base.digit?_digitChar {d : Nat} (hd : d < base.radix) :
    base.digit? (Nat.digitChar d) = some d := by
  have hdigits : ∀ d < base.radix, base.digit? (Nat.digitChar d) = some d := by
    cases base <;> decide
  exact hdigits d hd

theorem Base.Writes.value_eq (h : base.Writes digits n) : base.value digits = n := by
  obtain ⟨zeros, hdigits⟩ := h
  calc base.value digits
    _ = base.value (digits.map Char.toLower) := (base.value_map_toLower digits).symm
    _ = base.value ((Nat.toDigits base.radix n).map id) := by
        rw [hdigits, base.value_zeros_append, List.map_id]
    _ = n := base.value_map_toDigits (fun d hd => digit?_digitChar hd) n

theorem Base.Writes.isSome_digit? (h : base.Writes digits n) (hc : c ∈ digits) :
    (base.digit? c).isSome = true := by
  obtain ⟨zeros, hdigits⟩ := h
  have hradix : 1 < base.radix := by cases base <;> decide
  have hlower : c.toLower ∈ List.replicate zeros '0' ++ Nat.toDigits base.radix n :=
    hdigits ▸ List.mem_map_of_mem hc
  rw [← base.digit?_toLower]
  rcases List.mem_append.mp hlower with hzero | hdigit
  · rw [List.eq_of_mem_replicate hzero]
    cases base <;> rfl
  · obtain ⟨d, hd, hd'⟩ := exists_digit_of_mem_toDigits hradix hdigit
    rw [hd', digit?_digitChar hd]
    rfl

theorem Base.digit?_eq_none (base : Base) (hx : x ∈ ['+', '-', '$', 'x', 'X', '_']) :
    base.digit? x = none := by
  have hall : ['+', '-', '$', 'x', 'X', '_'].all (base.digit? · == none) = true := by
    cases base <;> decide +kernel
  exact eq_of_beq (List.all_eq_true.mp hall x hx)

theorem not_mem_of_digit?_eq_none (hdigits : ∀ c ∈ digits, (base.digit? c).isSome = true)
    (hx : base.digit? x = none) : x ∉ digits := by
  intro hmem
  have hsome := hdigits x hmem
  rw [hx] at hsome
  cases hsome

theorem underscore_not_mem (hdigits : ∀ c ∈ digits, (base.digit? c).isSome = true) :
    '_' ∉ digits :=
  not_mem_of_digit?_eq_none hdigits (base.digit?_eq_none (by decide))

theorem isBlank_of_lt (hlow : 0x20 < c.toNat) (hhigh : c.toNat < 0x85) : isBlank c = false := by
  simp only [isBlank, Bool.or_eq_false_iff, Bool.and_eq_false_iff, decide_eq_false_iff_not,
    beq_eq_false_iff_ne]
  omega

theorem isBlank_of_isSome_digit? (h : (base.digit? c).isSome = true) : isBlank c = false := by
  cases base with
  | decimal => exact isBlank_of_isDecimalDigit h
  | hexadecimal =>
      change (hexDigitValue? c).isSome = true at h
      unfold hexDigitValue? at h
      split at h
      · rename_i hlower
        simp only [Bool.and_eq_true, decide_eq_true_eq] at hlower
        exact isBlank_of_lt (Nat.lt_of_lt_of_le (by decide) hlower.1)
          (Nat.lt_of_le_of_lt hlower.2 (by decide))
      · split at h
        · rename_i hupper
          simp only [Bool.and_eq_true, decide_eq_true_eq] at hupper
          exact isBlank_of_lt (Nat.lt_of_lt_of_le (by decide) hupper.1)
            (Nat.lt_of_le_of_lt hupper.2 (by decide))
        · exact isBlank_of_isDecimalDigit h

end Digit

namespace Spaced

theorem mem_or_eq (h : Spaced digits text) (hc : c ∈ text) : c ∈ digits ∨ c = '_' := by
  induction h with
  | single => exact .inl hc
  | next d h ih =>
      rcases List.mem_cons.mp hc with rfl | hc
      · exact .inl List.mem_cons_self
      · exact (ih hc).imp_left (List.mem_cons_of_mem d)
  | apart d h ih =>
      rcases List.mem_cons.mp hc with rfl | hc
      · exact .inl List.mem_cons_self
      · rcases List.mem_cons.mp hc with rfl | hc
        · exact .inr rfl
        · exact (ih hc).imp_left (List.mem_cons_of_mem d)

theorem exists_cons (h : Spaced digits text) : ∃ c ∈ digits, ∃ rest, text = c :: rest := by
  cases h with
  | single | next | apart => exact ⟨_, List.mem_cons_self, _, rfl⟩

theorem filter_eq (h : Spaced digits text) (hdigits : '_' ∉ digits) :
    text.filter (· != '_') = digits := by
  induction h with
  | single c =>
      have hc := List.ne_of_not_mem_cons hdigits
      simp [hc.symm]
  | next c h ih =>
      obtain ⟨hc, hdigits⟩ := List.ne_and_not_mem_of_not_mem_cons hdigits
      simp [hc.symm, ih hdigits]
  | apart c h ih =>
      obtain ⟨hc, hdigits⟩ := List.ne_and_not_mem_of_not_mem_cons hdigits
      simp [hc.symm, ih hdigits]

theorem wellSeparated_eq (h : Spaced digits text) (hdigits : '_' ∉ digits) :
    wellSeparated text = true := by
  induction h with
  | single c =>
      have hc := List.ne_of_not_mem_cons hdigits
      simp [wellSeparated, hc.symm]
  | next c h ih =>
      obtain ⟨hc, hdigits⟩ := List.ne_and_not_mem_of_not_mem_cons hdigits
      obtain ⟨d, hd, rest, rfl⟩ := h.exists_cons
      have hd' : d ≠ '_' := ne_of_mem_of_not_mem hd hdigits
      simp [wellSeparated, hc.symm, hd', ih hdigits]
  | apart c h ih =>
      obtain ⟨hc, hdigits⟩ := List.ne_and_not_mem_of_not_mem_cons hdigits
      simp [wellSeparated, hc.symm, ih hdigits]

theorem not_mem (h : Spaced digits text)
    (hdigits : ∀ c ∈ digits, (base.digit? c).isSome = true) (hx : x ∈ ['+', '-', '$', 'x', 'X']) :
    x ∉ text := by
  intro hmem
  rcases h.mem_or_eq hmem with hdigit | rfl
  · exact not_mem_of_digit?_eq_none hdigits (base.digit?_eq_none (List.mem_append_left ['_'] hx))
      hdigit
  · exact absurd hx (by decide)

theorem isBlank_of_mem (h : Spaced digits text)
    (hdigits : ∀ c ∈ digits, (base.digit? c).isSome = true) (hc : c ∈ text) :
    isBlank c = false := by
  rcases h.mem_or_eq hc with hdigit | rfl
  · exact isBlank_of_isSome_digit? (hdigits c hdigit)
  · decide

end Spaced

theorem trimPadding_of_not_blank (htext : ∀ c ∈ text, isBlank c = false) :
    trimPadding text = text := by
  have hpadding : ∀ c ∈ text, isPadding c = false := by
    intro c hc
    rw [isPadding, htext c hc, Bool.false_and]
  have hreverse : ∀ c ∈ text.reverse, isPadding c = false :=
    fun c hc => hpadding c (List.mem_reverse.mp hc)
  rw [trimPadding, dropWhile_of_forall_not hpadding, dropWhile_of_forall_not hreverse,
    List.reverse_reverse]

theorem splitSign_of_not_mem (hplus : '+' ∉ text) (hminus : '-' ∉ text) :
    splitSign text = (false, text) := by
  unfold splitSign
  split
  · exact absurd List.mem_cons_self hminus
  · exact absurd List.mem_cons_self hplus
  · rfl

theorem dropHexMark_of_not_mem (hlower : 'x' ∉ text) (hupper : 'X' ∉ text) :
    dropHexMark text = text := by
  unfold dropHexMark
  split
  · rename_i zero mark rest
    have hlower' : mark ≠ 'x' := by
      rintro rfl
      exact hlower (List.mem_cons_of_mem _ List.mem_cons_self)
    have hupper' : mark ≠ 'X' := by
      rintro rfl
      exact hupper (List.mem_cons_of_mem _ List.mem_cons_self)
    simp [hlower', hupper']
  · rfl

theorem dropHexMark_mark {mark : Char} (hmark : mark = 'x' ∨ mark = 'X') (hc : c ≠ '_')
    (rest : List Char) : dropHexMark ('0' :: mark :: c :: rest) = c :: rest := by
  have hzero : digitValue? '0' = some 0 := by decide
  simp [dropHexMark, hzero, hmark, hc]

section Read

variable (h : Spaced digits body) (hdigits : ∀ c ∈ digits, (base.digit? c).isSome = true)
include h hdigits

/-- A text that has the digits behind its sign and its mark is read as their value, unless it has
too many decimal digits. -/
theorem readInteger_of_body (htrim : trimPadding text = text)
    (hsign : splitSign text = (false, text))
    (hbody : (if base = .hexadecimal then dropHexMark text else text) = body) :
    readInteger base text =
      if base = .decimal ∧ maxDigits < digits.length then .error (.limit (.reading digits.length))
      else .ok (base.value digits) := by
  have hunderscore := underscore_not_mem hdigits
  have hrun : ∀ c ∈ body, ((base.digit? c).isSome || c == '_') = true := by
    intro c hc
    rcases h.mem_or_eq hc with hc | rfl
    · rw [hdigits c hc, Bool.true_or]
    · rw [beq_self_eq_true, Bool.or_true]
  simp only [readInteger, htrim, hsign, hbody, List.takeWhile_eq_self_iff.mpr hrun,
    List.dropWhile_eq_nil_iff.mpr hrun, h.filter_eq hunderscore, h.wellSeparated_eq hunderscore]
  simp

theorem readInteger_of_spaced : readInteger base body =
    if base = .decimal ∧ maxDigits < digits.length then .error (.limit (.reading digits.length))
    else .ok (base.value digits) := by
  refine readInteger_of_body h hdigits
    (trimPadding_of_not_blank fun c hc => h.isBlank_of_mem hdigits hc)
    (splitSign_of_not_mem (h.not_mem hdigits (by decide)) (h.not_mem hdigits (by decide))) ?_
  rw [dropHexMark_of_not_mem (h.not_mem hdigits (by decide)) (h.not_mem hdigits (by decide)),
    ite_self]

theorem readInteger_of_mark {mark : Char} (hbase : base = .hexadecimal)
    (hmark : mark = 'x' ∨ mark = 'X') :
    readInteger base (['0', mark] ++ body) = .ok (base.value digits) := by
  have hmarks : isBlank mark = false ∧ mark ≠ '+' ∧ mark ≠ '-' := by
    rcases hmark with rfl | rfl <;> decide
  have hblank : ∀ c ∈ ['0', mark] ++ body, isBlank c = false := by
    simp only [List.cons_append, List.nil_append, List.forall_mem_cons]
    exact ⟨by decide, hmarks.1, fun c hc => h.isBlank_of_mem hdigits hc⟩
  have hplus : '+' ∉ ['0', mark] ++ body := by
    simp [hmarks.2.1.symm, h.not_mem hdigits (x := '+')]
  have hminus : '-' ∉ ['0', mark] ++ body := by
    simp [hmarks.2.2.symm, h.not_mem hdigits (x := '-')]
  have hdrop : dropHexMark (['0', mark] ++ body) = body := by
    obtain ⟨c, hc, rest, rfl⟩ := h.exists_cons
    exact dropHexMark_mark hmark (ne_of_mem_of_not_mem hc (underscore_not_mem hdigits)) rest
  rw [readInteger_of_body h hdigits (trimPadding_of_not_blank hblank)
    (splitSign_of_not_mem hplus hminus)
    (by rw [if_pos hbase, hdrop])]
  simp [hbase]

end Read

section Form

variable {form : Form} {given : String} {lead tail : List Char}

theorem Form.isBlank_of_mem_mark (hc : c ∈ form.mark) : isBlank c = false := by
  have hall : form.mark.all (isBlank · == false) = true := by
    cases form <;> decide
  exact eq_of_beq (List.all_eq_true.mp hall c hc)

theorem readArgument_of_decimal (h : trim given.toList = text) (hdollar : '$' ∉ text)
    (hlower : 'x' ∉ text) (hupper : 'X' ∉ text) :
    readArgument given = readInteger .decimal text := by
  rw [readArgument, h]
  split
  · simp at hdollar
  · simp at hlower
  · simp at hupper
  · rfl

/-- A text that writes a number is read as the number, whatever the form, unless it has too many
decimal digits. -/
theorem readArgument_of_form (hdigits : form.base.Writes digits n) (htext : Spaced digits text)
    (hlead : Blanks lead) (htail : Blanks tail) :
    readArgument (String.ofList (lead ++ (form.mark ++ (text ++ tail)))) =
      if form.base = .decimal ∧ maxDigits < digits.length then
        .error (.limit (.reading digits.length))
      else .ok n := by
  have hsome : ∀ c ∈ digits, (form.base.digit? c).isSome = true :=
    fun c hc => hdigits.isSome_digit? hc
  have hblank : ∀ c ∈ form.mark ++ text, isBlank c = false := by
    intro c hc
    rcases List.mem_append.mp hc with hmark | hmem
    · exact Form.isBlank_of_mem_mark hmark
    · exact htext.isBlank_of_mem hsome hmem
  have htrim : trim (String.ofList (lead ++ (form.mark ++ (text ++ tail)))).toList =
      form.mark ++ text := by
    rw [String.toList_ofList, ← List.append_assoc form.mark]
    exact trim_append hlead htail hblank
  rw [← hdigits.value_eq]
  cases form with
  | decimal =>
      rw [readArgument_of_decimal htrim (htext.not_mem hsome (by decide))
        (htext.not_mem hsome (by decide)) (htext.not_mem hsome (by decide))]
      exact readInteger_of_spaced htext hsome
  | lowerMark =>
      rw [readArgument, htrim]
      exact readInteger_of_mark htext hsome rfl (.inl rfl)
  | upperMark =>
      rw [readArgument, htrim]
      exact readInteger_of_mark htext hsome rfl (.inr rfl)
  | dollar =>
      rw [readArgument, htrim]
      exact readInteger_of_spaced htext hsome

theorem spacedDigits_read_as_number :
    Base.hexadecimal.Writes ['0', '0', 'f', 'F', 'e'] 4094 ∧
      Spaced ['0', '0', 'f', 'F', 'e'] ['0', '0', '_', 'f', 'F', '_', 'e'] ∧
      readArgument "\t0X00_fF_e " = .ok 4094 ∧ readArgument "$00_fF_e" = .ok 4094 := by
  have hdigits : Base.hexadecimal.Writes ['0', '0', 'f', 'F', 'e'] 4094 := ⟨2, by decide⟩
  have htext : Spaced ['0', '0', 'f', 'F', 'e'] ['0', '0', '_', 'f', 'F', '_', 'e'] :=
    .next '0' (.apart '0' (.next 'f' (.apart 'F' (.single 'e'))))
  have hread (form : Form) (hform : form.base = .hexadecimal) (lead tail : List Char)
      (hlead : Blanks lead) (htail : Blanks tail) :
      readArgument (String.ofList (lead ++ (form.mark ++ (['0', '0', '_', 'f', 'F', '_', 'e'] ++
        tail)))) = .ok 4094 := by
    rw [readArgument_of_form (hform ▸ hdigits) htext hlead htail, hform]
    rfl
  exact ⟨hdigits, htext, hread .upperMark rfl ['\t'] [' '] (by decide) (by decide),
    hread .dollar rfl [] [] (by decide) (by decide)⟩

end Form

end Numeral

end TriReg
