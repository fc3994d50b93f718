import TriReg.Proofs.Numbers
import TriReg.Proofs.Splitting

namespace TriReg

open TriReg.Text TriReg.Token

namespace Token

/-- The text stands between two quotes in front of the comment, and the first of them is outside
quotes. It is one quotation if it has no quotes itself. -/
def Encloses (line text : List Char) : Prop :=
  ∃ before after, uncommented line = before ++ ('"' :: (text ++ ['"']) ++ after) ∧
    outsideQuotes before = true

/-- The word is a quotation, from its first to its last character. -/
def IsQuotation (word : List Char) : Prop := ∃ text, '"' ∉ text ∧ word = '"' :: (text ++ ['"'])

/-- The word starts with a quote and ends with one, and there are others between them. -/
def IsJoined (word : List Char) : Prop := ∃ text, '"' ∈ text ∧ word = '"' :: (text ++ ['"'])

/-- What stands in front of the comment, in a line that goes on behind a text. -/
def uncommentedBehind (before line : List Char) : List Char :=
  ((placed before line).takeWhile (!startsComment ·)).map (·.2)

variable {before line word w text : List Char} {words' : List (List Char)} {quoted : Bool}
variable {depth : Nat} {c : Char}

theorem isQuotation_or_isJoined (h : word = '"' :: (text ++ ['"'])) :
    IsQuotation word ∨ IsJoined word := by
  by_cases hquote : '"' ∈ text
  · exact .inr ⟨text, hquote, h⟩
  · exact .inl ⟨text, hquote, h⟩

theorem IsJoined.not_isQuotation (h : IsJoined word) : ¬ IsQuotation word := by
  obtain ⟨text, hquote, rfl⟩ := h
  rintro ⟨text', hfree, hsame⟩
  have htext : text = text' := by simpa using hsame
  exact hfree (htext ▸ hquote)

theorem uncommentedBehind_cons (h : ¬ startsComment (before, c) = true) (rest : List Char) :
    uncommentedBehind before (c :: rest) = c :: uncommentedBehind (before ++ [c]) rest := by
  simp [uncommentedBehind, placed, h]

theorem eq_or_mem_of_mem_consWord (h : w ∈ consWord word words') : w = word ∨ w ∈ words' := by
  unfold consWord at h
  split at h
  · exact .inr h
  · exact List.mem_cons.mp h

/-- A scan returns words in one piece, and those that it has not begun with start outside quotes. -/
theorem place_of_scans (h : Scans quoted depth line word words')
    (hbehind : Behind before quoted depth) :
    (∃ after, uncommentedBehind before line = word ++ after) ∧
      ∀ w ∈ words', ∃ gap after, uncommentedBehind before line = gap ++ (w ++ after) ∧
        outsideQuotes (before ++ gap) = true := by
  induction h generalizing before with
  | done | comment => exact ⟨⟨_, rfl⟩, List.forall_mem_nil _⟩
  | @blank c rest word words hblank h ih =>
      have hnext := hbehind.blank hblank
      obtain ⟨⟨after, hword⟩, hwords⟩ := ih hnext
      have hcomment : ¬ startsComment (before, c) = true := by
        rw [hbehind.startsComment_iff]
        exact fun ⟨_, hc⟩ => ne_of_isBlank hblank (by decide) hc
      rw [uncommentedBehind_cons hcomment]
      refine ⟨⟨_, rfl⟩, ?_⟩
      intro w hw
      rcases eq_or_mem_of_mem_consWord hw with rfl | hw
      · exact ⟨[c], after, by rw [hword]; rfl, hnext.quotes⟩
      · obtain ⟨gap, after, hline, hgap⟩ := hwords w hw
        exact ⟨c :: gap, after, by rw [hline]; rfl, by simpa using hgap⟩
  | @follow quoted depth c place rest word words hfollow h ih =>
      obtain ⟨⟨after, hword⟩, hwords⟩ := ih (hbehind.follow hfollow)
      rw [uncommentedBehind_cons
        (mt hbehind.startsComment_iff.mp (not_of_follow_eq_some hfollow).1)]
      refine ⟨⟨after, by rw [hword]; rfl⟩, ?_⟩
      intro w hw
      obtain ⟨gap, after, hline, hgap⟩ := hwords w hw
      exact ⟨c :: gap, after, by rw [hline]; rfl, by simpa using hgap⟩

theorem place_of_mem_words (h : words line = .ok words') (hword : word ∈ words') :
    ∃ before after, uncommented line = before ++ (word ++ after) ∧
      outsideQuotes before = true := by
  obtain ⟨first, others, hscans, rfl⟩ := words_eq_ok_iff.mp h
  obtain ⟨⟨after, hfirst⟩, hothers⟩ := place_of_scans hscans behind_nil
  rcases eq_or_mem_of_mem_consWord hword with rfl | hword
  · exact ⟨[], after, hfirst, rfl⟩
  · exact hothers word hword

end Token

section Refusal

variable {given name word s : String} {compact text : List Char}

theorem quote_not_mem_of_digits {digits : List Char}
    (h : ∀ c ∈ digits, isDecimalDigit c = true) : '"' ∉ digits := by
  intro hquote
  exact absurd (h '"' hquote) (by decide)

theorem malformed_readAddress (h : '"' ∈ compact) :
    ∃ e, readAddress given compact = .error (.malformed e) := by
  fun_induction readAddress given compact with
  | case1 => simp at h
  | case2 given compact hsp digits hdigits | case3 given compact hsp digits hdigits =>
      obtain ⟨rfl, -, hall⟩ := exists_digits_of_slotDigits? hdigits
      simp [quote_not_mem_of_digits hall] at h
  | case4 | case7 => exact ⟨_, rfl⟩
  | case5 given compact hsp hslot c inner hinner ih =>
      rw [eq_brackets_of_bracketed? hinner] at h
      obtain ⟨e, he⟩ := ih (by simpa using h)
      exact ⟨e, by rw [he]; rfl⟩
  | case6 given compact hsp hslot hinner r hregister =>
      have hname : compact = r.name.toList := by
        rw [← Register.ofName?_eq_some_iff.mp hregister, String.toList_ofList]
      rw [hname] at h
      cases r <;> simp [Register.name] at h

theorem malformed_parseAddress (h : '"' ∈ word.toList) :
    ∃ e, Address.parse word = .error (.malformed e) :=
  malformed_readAddress (mem_squeeze_iff.mpr ⟨h, by decide⟩)

theorem signedDigits?_of_quote (h : '"' ∈ text) : signedDigits? text = none := by
  rw [Option.eq_none_iff_forall_ne_some]
  rintro ⟨negative, digits⟩ hsigned
  obtain ⟨sign, -, -, hdigits, htext⟩ := Numeral.exists_sign_of_signedDigits? hsigned
  have hsign : '"' ∉ sign.text := by cases sign <;> decide
  rcases htext with rfl | rfl <;>
    simp [hsign, quote_not_mem_of_digits hdigits] at h

theorem parse_of_quote (hquote : '"' ∈ word.toList) (hnone : quotedText? word.toList = none) :
    Operand.parse word = .error (.malformed { cause := .notAnOperand word, text := word }) := by
  obtain ⟨e, he⟩ := malformed_parseAddress hquote
  rw [Operand.parse, hnone, signedDigits?_of_quote hquote, he]
  rfl

theorem parse_eq_text_iff : Operand.parse word = .ok (.literal (.text s)) ↔
    word.toList = '"' :: (s.toList ++ ['"']) := by
  constructor
  · intro h
    unfold Operand.parse at h
    split at h
    · rename_i inner hinner
      cases h
      rw [Operand.quotedText?_eq_some_iff.mp hinner, String.toList_ofList]
    · split at h
      · obtain ⟨value, hvalue, hliteral⟩ := map_eq_ok_iff.mp h
        obtain ⟨w, rfl⟩ := Operand.exists_integer_of_readWord hvalue
        cases hliteral
      · split at h <;> cases h
  · intro h
    rw [Operand.parse, Operand.quotedText?_eq_some_iff.mpr h]
    simp only [String.ofList_toList]

theorem exists_text_of_parse {source : Operand} (h : Operand.parse word = .ok source)
    (hquote : '"' ∈ word.toList) : ∃ text, word.toList = '"' :: (text ++ ['"']) := by
  cases hnone : quotedText? word.toList with
  | none =>
      rw [parse_of_quote hquote hnone] at h
      cases h
  | some text => exact ⟨text, Operand.quotedText?_eq_some_iff.mp hnone⟩

theorem quote_not_mem_of_parseAddress {place : Address} (h : Address.parse word = .ok place) :
    '"' ∉ word.toList := by
  intro hquote
  obtain ⟨e, he⟩ := malformed_parseAddress hquote
  rw [h] at he
  cases he

theorem quote_not_mem_of_plain (h : Plain text) : '"' ∉ text := by
  intro hquote
  exact absurd (h '"' hquote) (by decide)

theorem quote_not_mem_of_isLabelName (h : isLabelName text = true) : '"' ∉ text :=
  quote_not_mem_of_plain (plain_of_isLabelName h).2

theorem quote_not_mem_of_toLower (h : word.toLower = name) (hname : '"' ∉ name.toList) :
    '"' ∉ word.toList := by
  intro hquote
  apply hname
  rw [← h, ← String.ofList_toList (s := word), toLower_ofList, String.toList_ofList]
  exact List.mem_map_of_mem hquote

end Refusal

namespace Instruction

/-- The operands whose values an instruction uses. -/
def sources : Instruction → List Operand
  | .move _ source => [source]
  | .compute _ _ left right => [left, right]
  | .ret operand => [operand]
  | _ => []

/-- The words that stand where an instruction has the operands whose values it uses. -/
def sourceWords : List String → List String
  | [word, arg] => if word.toLower = "ret" then [arg] else []
  | [word, _, second] => if word.toLower = "mov" then [second] else []
  | [word, _, second, third] =>
    if word.toLower = "add" ∨ word.toLower = "sub" then [second, third] else []
  | _ => []

/-- The text literals of the line are quotations of it, and a word with quotes that is no quotation
is refused, with the line and as an operand. -/
structure QuotesTexts (line : String) : Prop where
  accepted : ∀ i, parse line = .ok i → ∀ s, .literal (.text s) ∈ i.sources →
    Encloses line.toList s.toList ∧ '"' ∉ s.toList
  refused : ∀ words, tokenize line = .ok words → ∀ word ∈ words, '"' ∈ word.toList →
    ¬ IsQuotation word.toList →
      (∃ e, parse line = .error (.malformed e)) ∧
      (word ∈ sourceWords words →
        Operand.parse word = .error (.malformed { cause := .notAnOperand word, text := word }))

variable {i : Instruction} {line word first second third s : String} {words : List String}

theorem readAs_of_parse (hwords : tokenize line = .ok words) (h : parse line = .ok i) :
    ReadAs words i := by
  rw [parse, hwords] at h
  exact readAs_of_ofWords h

theorem sourceWords_compute {operation : Operation} (h : word.toLower = operation.mnemonic) :
    sourceWords [word, first, second, third] = [second, third] := by
  have hmnemonic : word.toLower = "add" ∨ word.toLower = "sub" := by
    cases operation with
    | add => exact .inl h
    | subtract => exact .inr h
  rw [sourceWords, if_pos hmnemonic]

theorem sourceWords_subset (words : List String) : sourceWords words ⊆ words := by
  unfold sourceWords
  split
  · split <;> simp
  · split <;> simp
  · split <;> simp
  · exact List.nil_subset _

theorem ReadAs.sources (h : ReadAs words i) :
    List.Forall₂ (fun word source => Operand.parse word = .ok source) (sourceWords words)
      i.sources := by
  cases h with
  | ret hword harg => simpa [sourceWords, hword, Instruction.sources] using harg
  | move hword hfirst hsecond => simpa [sourceWords, hword, Instruction.sources] using hsecond
  | compute hword hfirst hsecond hthird =>
      simpa [sourceWords_compute hword, Instruction.sources] using ⟨hsecond, hthird⟩
  | leave | label => exact .nil
  | syscall hword | jump hword | call hword | loadAddress hword | callInto hword =>
      simp [sourceWords, hword, Instruction.sources]

theorem mem_of_quote (h : word ∈ first :: words) (hquote : '"' ∈ word.toList)
    (hfirst : '"' ∉ first.toList) : word ∈ words := by
  rcases List.mem_cons.mp h with rfl | h
  · exact absurd hquote hfirst
  · exact h

/-- In the words of an instruction, quotes stand only in the operands whose values it uses. -/
theorem ReadAs.mem_sourceWords (h : ReadAs words i) (hword : word ∈ words)
    (hquote : '"' ∈ word.toList) : word ∈ sourceWords words := by
  cases h with
  | leave hhead =>
      have hnone := mem_of_quote hword hquote (quote_not_mem_of_toLower hhead (by decide))
      cases hnone
  | @label head name hhead hname =>
      have hcolon : '"' ∉ head.toList := by
        simp [hhead, quote_not_mem_of_isLabelName hname]
      have hnone := mem_of_quote hword hquote hcolon
      cases hnone
  | @syscall head name hhead hname =>
      have hquoted : '"' ∉ name.toList := by
        obtain rfl := List.mem_singleton.mp hname
        decide
      have hargs := mem_of_quote hword hquote (quote_not_mem_of_toLower hhead (by decide))
      have hnone := mem_of_quote hargs hquote hquoted
      cases hnone
  | jump hhead hname | call hhead hname =>
      have hargs := mem_of_quote hword hquote (quote_not_mem_of_toLower hhead (by decide))
      have hnone := mem_of_quote hargs hquote (quote_not_mem_of_isLabelName hname)
      cases hnone
  | ret hhead harg =>
      have hargs := mem_of_quote hword hquote (quote_not_mem_of_toLower hhead (by decide))
      simpa [sourceWords, hhead] using hargs
  | move hhead hfirst hsecond =>
      have hargs := mem_of_quote hword hquote (quote_not_mem_of_toLower hhead (by decide))
      have hsource := mem_of_quote hargs hquote (quote_not_mem_of_parseAddress hfirst)
      simpa [sourceWords, hhead] using hsource
  | loadAddress hhead hfirst hsecond =>
      have hargs := mem_of_quote hword hquote (quote_not_mem_of_toLower hhead (by decide))
      have hsource := mem_of_quote hargs hquote (quote_not_mem_of_parseAddress hfirst)
      have hnone := mem_of_quote hsource hquote (quote_not_mem_of_parseAddress hsecond)
      cases hnone
  | callInto hhead hfirst hname =>
      have hargs := mem_of_quote hword hquote (quote_not_mem_of_toLower hhead (by decide))
      have htarget := mem_of_quote hargs hquote (quote_not_mem_of_parseAddress hfirst)
      have hnone := mem_of_quote htarget hquote (quote_not_mem_of_isLabelName hname)
      cases hnone
  | @compute operation head first second third dest left right hhead hfirst hsecond hthird =>
      have hquoted : '"' ∉ operation.mnemonic.toList := by cases operation <;> decide
      have hargs := mem_of_quote hword hquote (quote_not_mem_of_toLower hhead hquoted)
      have hsources := mem_of_quote hargs hquote (quote_not_mem_of_parseAddress hfirst)
      rwa [sourceWords_compute hhead]

theorem exists_of_mem_of_forall₂ {α β : Type} {r : α → β → Prop} {as : List α} {bs : List β} {b : β}
    (h : List.Forall₂ r as bs) (hb : b ∈ bs) : ∃ a ∈ as, r a b := by
  induction h with
  | nil => cases hb
  | @cons a b' as bs hab h ih =>
      rcases List.mem_cons.mp hb with rfl | hb
      · exact ⟨a, List.mem_cons_self, hab⟩
      · obtain ⟨a', ha', hr⟩ := ih hb
        exact ⟨a', List.mem_cons_of_mem a ha', hr⟩

theorem encloses_of_parse (h : parse line = .ok i)
    (hs : .literal (.text s) ∈ i.sources) :
    Encloses line.toList s.toList ∧
      ∃ words, tokenize line = .ok words ∧
        ∃ word ∈ sourceWords words, word.toList = '"' :: (s.toList ++ ['"']) := by
  obtain ⟨words, hwords, hread⟩ := bind_eq_ok_iff.mp h
  obtain ⟨word, hword, hparse⟩ := exists_of_mem_of_forall₂ (readAs_of_ofWords hread).sources hs
  have htext := parse_eq_text_iff.mp hparse
  refine ⟨?_, words, hwords, word, hword, htext⟩
  obtain ⟨words', hsplit, rfl⟩ := tokenize_eq_ok_iff.mp hwords
  obtain ⟨word', hmem, rfl⟩ := List.mem_map.mp (sourceWords_subset _ hword)
  rw [String.toList_ofList] at htext
  obtain ⟨before, after, hline, hbefore⟩ := place_of_mem_words hsplit hmem
  exact ⟨before, after, by rw [hline, htext], hbefore⟩

theorem isJoined_of_parse (h : parse line = .ok i) (hwords : tokenize line = .ok words)
    (hword : word ∈ words) (hquote : '"' ∈ word.toList) (hother : ¬ IsQuotation word.toList) :
    word ∈ sourceWords words ∧ IsJoined word.toList := by
  have hread := readAs_of_parse hwords h
  have hsource := hread.mem_sourceWords hword hquote
  obtain ⟨source, -, hparse⟩ := exists_of_mem_of_forall₂ hread.sources.flip hsource
  obtain ⟨text, htext⟩ := exists_text_of_parse hparse hquote
  exact ⟨hsource, (isQuotation_or_isJoined htext).resolve_left hother⟩

theorem malformed_of_not_ok (hwords : tokenize line = .ok words) (hword : word ∈ words)
    (hshort : ¬ TooLong words) (h : ∀ i, parse line ≠ .ok i) :
    ∃ e, parse line = .error (.malformed e) := by
  have hline : line ≠ "" := by
    rintro rfl
    have hempty : tokenize "" = .ok [] := rfl
    rw [hempty] at hwords
    cases hwords
    cases hword
  cases herror : parse line with
  | ok i => exact absurd herror (h i)
  | error e =>
      cases e with
      | malformed e => exact ⟨e, rfl⟩
      | numeral limit =>
          obtain ⟨⟨words', hwords', hlong⟩, -⟩ := explained_parse hline herror
          rw [hwords] at hwords'
          cases hwords'
          exact absurd hlong hshort

theorem parse_of_isJoined (h : IsJoined word.toList) :
    ∃ source, Operand.parse word = .ok source := by
  obtain ⟨text, -, htext⟩ := h
  rw [← String.toList_ofList (l := text)] at htext
  exact ⟨_, parse_eq_text_iff.mpr htext⟩

theorem QuotesTexts.not_isJoined (h : QuotesTexts line) (hwords : tokenize line = .ok words)
    (hword : word ∈ sourceWords words) : ¬ IsJoined word.toList := by
  intro hjoined
  have hquote : '"' ∈ word.toList := by
    obtain ⟨text, -, htext⟩ := hjoined
    rw [htext]
    exact List.mem_cons_self
  obtain ⟨-, hrefused⟩ := h.refused words hwords word (sourceWords_subset _ hword) hquote
    hjoined.not_isQuotation
  obtain ⟨source, hparse⟩ := parse_of_isJoined hjoined
  rw [hrefused hword] at hparse
  cases hparse

theorem QuotesTexts.isQuotation_of_tooLong (h : QuotesTexts line)
    (hwords : tokenize line = .ok words) (hlong : TooLong words) (hword : word ∈ words)
    (hquote : '"' ∈ word.toList) : IsQuotation word.toList := by
  by_contra hother
  obtain ⟨⟨e, hmalformed⟩, -⟩ := h.refused words hwords word hword hquote hother
  have hexceeded : LimitExceeded (ofWords line words) := limitExceeded_ofWords hlong
  obtain ⟨limit, hnumeral⟩ := hexceeded
  rw [parse, hwords] at hmalformed
  cases hmalformed.symm.trans hnumeral

theorem quotesTexts_of_not_isJoined (h : ∀ words, tokenize line = .ok words →
    (∀ word ∈ sourceWords words, ¬ IsJoined word.toList) ∧
    (TooLong words → ∀ word ∈ words, '"' ∈ word.toList → IsQuotation word.toList)) :
    QuotesTexts line where
  accepted i hread s hs := by
    obtain ⟨hencloses, words, hwords, word, hword, htext⟩ := encloses_of_parse hread hs
    refine ⟨hencloses, ?_⟩
    intro hquote
    exact (h words hwords).1 word hword ⟨s.toList, hquote, htext⟩
  refused words hwords word hword hquote hother := by
    obtain ⟨hjoined, hlong⟩ := h words hwords
    have hshort : ¬ TooLong words := fun htoo => hother (hlong htoo word hword hquote)
    constructor
    · apply malformed_of_not_ok hwords hword hshort
      intro i hread
      obtain ⟨hsource, hword⟩ := isJoined_of_parse hread hwords hword hquote hother
      exact hjoined word hsource hword
    · intro hsource
      apply parse_of_quote hquote
      rw [Option.eq_none_iff_forall_ne_some]
      intro text htext
      have hword := isQuotation_or_isJoined (Operand.quotedText?_eq_some_iff.mp htext)
      exact hjoined word hsource (hword.resolve_left hother)

/-- The text literals of a line stand between quotes. They are quotations of the line, and all other
words with quotes are refused with a parse error, exactly if no operand is a word of joined
quotations and no such word stands in a line that is refused for too long a number. -/
theorem quotesTexts_iff (line : String) :
    (QuotesTexts line ↔ ∀ words, tokenize line = .ok words →
      (∀ word ∈ sourceWords words, ¬ IsJoined word.toList) ∧
      (TooLong words → ∀ word ∈ words, '"' ∈ word.toList → IsQuotation word.toList)) ∧
    ∀ i, parse line = .ok i → ∀ s, .literal (.text s) ∈ i.sources →
      Encloses line.toList s.toList := by
  refine ⟨⟨?_, quotesTexts_of_not_isJoined⟩, ?_⟩
  · intro h words hwords
    constructor
    · intro word hword
      exact h.not_isJoined hwords hword
    · intro hlong word hword hquote
      exact h.isQuotation_of_tooLong hwords hlong hword hquote
  · intro i hread s hs
    exact (encloses_of_parse hread hs).1

theorem joinedQuotations_not_quotesTexts : ¬ QuotesTexts "ret \"a\"\"b\"" := by
  intro h
  have hread : parse "ret \"a\"\"b\"" = .ok (.ret (.literal (.text "a\"\"b"))) := by
    decide +kernel
  obtain ⟨-, hquote⟩ := h.accepted _ hread "a\"\"b" (by simp [sources])
  exact hquote (by decide)

end Instruction

end TriReg
