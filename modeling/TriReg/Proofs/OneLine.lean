import TriReg.Proofs.Loading

namespace TriReg

open TriReg.Text TriReg.Token

namespace Text

variable {text part : List Char}

theorem Unbroken.sublist (h : Unbroken text) (hpart : part.Sublist text) : Unbroken part :=
  fun c hc => h c (hpart.subset hc)

theorem trim_sublist (text : List Char) : (trim text).Sublist text := by
  unfold trim
  have hfront : (text.dropWhile isBlank).Sublist text := List.dropWhile_sublist isBlank
  have hback : ((text.dropWhile isBlank).reverse.dropWhile isBlank).reverse.Sublist
      (text.dropWhile isBlank).reverse.reverse := (List.dropWhile_sublist isBlank).reverse
  rw [List.reverse_reverse] at hback
  exact hback.trans hfront

theorem unbroken_ofList (h : text.all (!isLineBreak ·) = true) :
    Unbroken (String.ofList text).toList := by
  rw [String.toList_ofList]
  intro c hc
  exact Bool.not_eq_true' _ ▸ List.all_eq_true.mp h c hc

theorem unbroken_toList_append {s t : String} (hs : Unbroken s.toList) (ht : Unbroken t.toList) :
    Unbroken (s ++ t).toList := by
  rw [String.toList_append]
  exact hs.append ht

theorem unbroken_toString (n : Int) : Unbroken (toString n).toList :=
  unbroken_of_plain (Operand.plain_toString n)

end Text

section Named

/-- What the message of a parse error names of the line that it is about. -/
def Misreading.named : Misreading → List Char
  | .strayClosingBracket | .unclosedBracket | .unclosedText | .emptyReference => []
  | .unknownAddress text | .integerOutOfRange text | .notAnOperand text => text.toList
  | .invalidLabel name | .unknownSyscall name => name.toList
  | .unknownInstruction word => word.toList
  | .wrongLength line => line.toList

def SourceError.named : SourceError → List Char
  | .malformed e => e.cause.named
  | .numeral _ => []

variable {given line text : String} {compact inner : List Char} {e : SourceError}

theorem sublist_of_bracketed? (h : bracketed? compact = some inner) : inner.Sublist compact := by
  unfold bracketed? at h
  split at h
  · split at h
    · cases h
      exact (List.dropLast_sublist _).cons _
    · cases h
  · cases h

theorem named_of_readAddress (h : readAddress given compact = .error e)
    (hcompact : compact.Sublist given.toList) : e.named.Sublist given.toList := by
  fun_induction readAddress given compact generalizing e with
  | case1 | case2 | case6 => cases h
  | case3 | case4 =>
      cases h
      exact List.nil_sublist _
  | case5 given compact hsp hslot c inner hinner ih =>
      have htarget := ih (bind_pure_eq_error_iff.mp h) (by rw [String.toList_ofList])
      rw [String.toList_ofList] at htarget
      exact htarget.trans ((sublist_of_bracketed? hinner).trans hcompact)
  | case7 =>
      cases h
      exact List.Sublist.refl _

theorem named_of_parseAddress (h : Address.parse text = .error e) :
    e.named.Sublist text.toList :=
  named_of_readAddress h List.filter_sublist

theorem named_of_readWord {negative : Bool} {digits : List Char}
    (h : readWord text negative digits = .error e) : e.named.Sublist text.toList := by
  unfold readWord at h
  split at h
  · cases h
    exact List.nil_sublist _
  · rename_i magnitude hread
    dsimp only at h
    generalize (if negative = true then -(magnitude : Int) else magnitude) = n at h
    split at h
    · cases h
    · cases h
      exact List.Sublist.refl _

theorem named_of_parseOperand (h : Operand.parse text = .error e) :
    e.named.Sublist text.toList := by
  unfold Operand.parse at h
  split at h
  · cases h
  · split at h
    · exact named_of_readWord (map_eq_error_iff.mp h)
    · split at h
      · cases h
      · cases h
        exact List.Sublist.refl _
      · cases h
        exact List.nil_sublist _

theorem named_of_readLabel {name : String} (h : readLabel line name = .error e) :
    e.named.Sublist name.toList := by
  unfold readLabel at h
  split at h
  · cases h
  · cases h
    exact List.Sublist.refl _

theorem named_of_finish {quoted : Bool} {depth : Nat} {cause : Misreading}
    (h : finish quoted depth = .error cause) : cause.named = [] := by
  unfold finish at h
  split at h
  · cases h
    rfl
  · split at h
    · cases h
      rfl
    · cases h

theorem named_of_scan {quoted : Bool} {depth : Nat} {cause : Misreading} {text : List Char}
    (h : scan quoted depth text = .error cause) : cause.named = [] := by
  induction text generalizing quoted depth with
  | nil => exact named_of_finish h
  | cons c rest ih =>
      rw [scan_cons] at h
      split at h
      · exact ih (map_eq_error_iff.mp h)
      · split at h
        · exact named_of_finish h
        · split at h
          · cases h
            rfl
          · exact ih (bind_pure_eq_error_iff.mp (map_eq_error_iff.mp h))

theorem named_of_tokenize (h : tokenize line = .error e) : e.named = [] := by
  unfold tokenize at h
  split at h
  · cases h
  · rename_i cause hwords
    cases h
    exact named_of_scan (bind_pure_eq_error_iff.mp hwords)

namespace Instruction

variable {word arg first second third : String}

theorem named_of_read₁ (hword : word.toList.Sublist line.toList)
    (h : read₁ line word = .error e) : e.named.Sublist line.toList := by
  unfold read₁ at h
  split at h
  · cases h
  · split at h
    · have hname := named_of_readLabel (bind_pure_eq_error_iff.mp h)
      rw [String.toList_ofList] at hname
      exact hname.trans ((List.dropLast_sublist _).trans hword)
    · cases h
      exact hword

theorem named_of_read₂ (hword : word.toList.Sublist line.toList)
    (harg : arg.toList.Sublist line.toList) (h : read₂ line word arg = .error e) :
    e.named.Sublist line.toList := by
  unfold read₂ at h
  dsimp only at h
  split at h
  · split at h
    · cases h
    · cases h
      exact harg
  · split at h
    · exact (named_of_readLabel (bind_pure_eq_error_iff.mp h)).trans harg
    · split at h
      · exact (named_of_parseOperand (bind_pure_eq_error_iff.mp h)).trans harg
      · split at h
        · exact (named_of_readLabel (bind_pure_eq_error_iff.mp h)).trans harg
        · cases h
          exact hword

theorem named_of_read₃ (hword : word.toList.Sublist line.toList)
    (hfirst : first.toList.Sublist line.toList) (hsecond : second.toList.Sublist line.toList)
    (h : read₃ line word first second = .error e) : e.named.Sublist line.toList := by
  unfold read₃ at h
  dsimp only at h
  split at h
  · rcases bind_eq_error_iff.mp h with h | ⟨dest, -, h⟩
    · exact (named_of_parseAddress h).trans hfirst
    · exact (named_of_parseOperand (bind_pure_eq_error_iff.mp h)).trans hsecond
  · split at h
    · rcases bind_eq_error_iff.mp h with h | ⟨dest, -, h⟩
      · exact (named_of_parseAddress h).trans hfirst
      · exact (named_of_parseAddress (bind_pure_eq_error_iff.mp h)).trans hsecond
    · split at h
      · rcases bind_eq_error_iff.mp h with h | ⟨dest, -, h⟩
        · exact (named_of_parseAddress h).trans hfirst
        · exact (named_of_readLabel (bind_pure_eq_error_iff.mp h)).trans hsecond
      · cases h
        exact hword

theorem named_of_compute {operation : Operation} (hfirst : first.toList.Sublist line.toList)
    (hsecond : second.toList.Sublist line.toList) (hthird : third.toList.Sublist line.toList)
    (h : (do
      return .compute operation (← Address.parse first) (← Operand.parse second)
        (← Operand.parse third) : Except SourceError Instruction) = .error e) :
    e.named.Sublist line.toList := by
  rcases bind_eq_error_iff.mp h with h | ⟨dest, -, h⟩
  · exact (named_of_parseAddress h).trans hfirst
  · rcases bind_eq_error_iff.mp h with h | ⟨left, -, h⟩
    · exact (named_of_parseOperand h).trans hsecond
    · exact (named_of_parseOperand (bind_pure_eq_error_iff.mp h)).trans hthird

theorem named_of_read₄ (hword : word.toList.Sublist line.toList)
    (hfirst : first.toList.Sublist line.toList) (hsecond : second.toList.Sublist line.toList)
    (hthird : third.toList.Sublist line.toList)
    (h : read₄ line word first second third = .error e) : e.named.Sublist line.toList := by
  unfold read₄ at h
  dsimp only at h
  split at h
  · exact named_of_compute hfirst hsecond hthird h
  · split at h
    · exact named_of_compute hfirst hsecond hthird h
    · cases h
      exact hword

theorem named_of_ofWords {words : List String}
    (hwords : ∀ word ∈ words, word.toList.Sublist line.toList)
    (h : ofWords line words = .error e) : e.named.Sublist line.toList := by
  unfold ofWords at h
  split at h
  · exact named_of_read₁ (hwords _ (by simp)) h
  · exact named_of_read₂ (hwords _ (by simp)) (hwords _ (by simp)) h
  · exact named_of_read₃ (hwords _ (by simp)) (hwords _ (by simp)) (hwords _ (by simp)) h
  · exact named_of_read₄ (hwords _ (by simp)) (hwords _ (by simp)) (hwords _ (by simp))
      (hwords _ (by simp)) h
  · cases h
    change (String.ofList (trim line.toList)).toList.Sublist line.toList
    rw [String.toList_ofList]
    exact trim_sublist _

/-- An error about a line names a part of the line, or nothing. -/
theorem named_of_parse (h : parse line = .error e) : e.named.Sublist line.toList := by
  rcases bind_eq_error_iff.mp h with h | ⟨words, hwords, h⟩
  · rw [named_of_tokenize h]
    exact List.nil_sublist _
  · obtain ⟨words', hwords', rfl⟩ := tokenize_eq_ok_iff.mp hwords
    refine named_of_ofWords (List.forall_mem_map.mpr ?_) h
    intro word hword
    rw [String.toList_ofList]
    exact sublist_of_mem_words hwords' hword

end Instruction

namespace Program

theorem named_onLine {α : Type} {n : Int} {x : Except SourceError α} (h : onLine n x = .error e) :
    ∃ e', x = .error e' ∧ e.named = e'.named := by
  cases x with
  | ok a => cases h
  | error e' =>
      cases h
      refine ⟨e', rfl, ?_⟩
      cases e' <;> rfl

theorem named_of_readLines {n : Nat} {texts : List (List Char)}
    (h : readLines n texts = .error e) : ∃ text ∈ texts, e.named.Sublist text := by
  induction texts generalizing n with
  | nil => cases h
  | cons text texts ih =>
      rw [readLines] at h
      split at h
      · obtain ⟨line, hline, hnamed⟩ := ih h
        exact ⟨line, List.mem_cons_of_mem _ hline, hnamed⟩
      · rcases bind_eq_error_iff.mp h with h | ⟨i, -, h⟩
        · obtain ⟨e', hparse, hnamed⟩ := named_onLine h
          rw [hnamed]
          have hpart := Instruction.named_of_parse hparse
          rw [String.toList_ofList] at hpart
          exact ⟨text, List.mem_cons_self, hpart⟩
        · obtain ⟨line, hline, hnamed⟩ := ih (bind_pure_eq_error_iff.mp h)
          exact ⟨line, List.mem_cons_of_mem _ hline, hnamed⟩

end Program

theorem Misreading.unbroken_message {cause : Misreading} (h : Unbroken cause.named) :
    Unbroken cause.message.toList := by
  cases cause with
  | strayClosingBracket | unclosedBracket | unclosedText | emptyReference =>
      exact unbroken_ofList rfl
  | unknownAddress | integerOutOfRange | invalidLabel | unknownInstruction | unknownSyscall =>
      exact unbroken_toList_append (unbroken_ofList rfl) h
  | notAnOperand => exact unbroken_toList_append h (unbroken_ofList rfl)
  | wrongLength =>
      exact unbroken_toList_append (unbroken_toList_append (unbroken_ofList rfl) h)
        (unbroken_ofList rfl)

theorem Program.unbroken_message_of_load {source : String} {e : ParseError}
    (h : load source = .error (.malformed e)) : Unbroken e.message.toList := by
  obtain ⟨text, htext, hnamed⟩ := named_of_readLines (bind_pure_eq_error_iff.mp h)
  have hcause : Unbroken e.cause.message.toList :=
    Misreading.unbroken_message ((unbroken_of_mem_lines text htext).sublist hnamed)
  unfold ParseError.message
  split
  · exact hcause
  · refine unbroken_toList_append (unbroken_toList_append (unbroken_toList_append ?_ ?_) ?_) hcause
    · exact unbroken_ofList rfl
    · exact unbroken_toString e.line
    · exact unbroken_ofList rfl

end Named

theorem Program.writable_unbroken_of_load {source : String} {p : Program} {i : Instruction}
    (h : load source = .ok p) (hi : i ∈ p.code) : i.Writable fun s => Unbroken s.toList := by
  obtain ⟨line, hline, hparse⟩ := exists_line_of_load h hi
  refine (Instruction.writable_within_of_parse hparse).mono fun s hs => ?_
  rw [String.toList_ofList] at hs
  exact (unbroken_of_mem_lines line hline).sublist hs.2

section Display

theorem unbroken_slotText (index : Nat) : Unbroken (slotText index).toList := by
  have hdigit : ∀ d < 16, isLineBreak (Nat.digitChar d).toUpper = false := by decide
  refine unbroken_toList_append (unbroken_ofList rfl) ?_
  rw [String.toList_ofList]
  refine Unbroken.append ?_ (List.forall_mem_map.mpr ?_)
  · intro c hc
    rw [List.eq_of_mem_replicate hc]
    rfl
  · intro c hc
    obtain ⟨d, hd, rfl⟩ := exists_digit_of_mem_toDigits (by decide) hc
    exact hdigit d hd

theorem unbroken_in_brackets {s : String} (h : Unbroken s.toList) :
    Unbroken ("[" ++ s ++ "]").toList :=
  unbroken_toList_append (unbroken_toList_append (unbroken_ofList rfl) h) (unbroken_ofList rfl)

theorem Address.unbroken_display (a : Address) : Unbroken a.display.toList := by
  induction a with
  | register r => exact unbroken_of_plain (plain_name r)
  | slot index =>
      exact unbroken_toList_append
        (unbroken_toList_append (unbroken_ofList rfl) (unbroken_toString index))
        (unbroken_ofList rfl)
  | reference target ih => exact unbroken_in_brackets ih

theorem Address.unbroken_pointerText (a : Address) : Unbroken a.pointerText.toList := by
  induction a with
  | register r => exact unbroken_of_plain (plain_name r)
  | slot index => exact unbroken_slotText index
  | reference target ih => exact unbroken_in_brackets ih

/-- A text in the value stands on one line. -/
def Value.IsOneLine : Value → Prop
  | .text s => Unbroken s.toList
  | .integer _ | .pointer _ | .uninitialized => True

namespace Value

variable {v : Value}

theorem unbroken_rawText (h : v.IsOneLine) : Unbroken v.rawText.toList := by
  cases v with
  | integer n => exact unbroken_toString n.toInt
  | text s => exact h
  | pointer address => exact address.unbroken_pointerText
  | uninitialized => exact List.forall_mem_nil _

theorem unbroken_display (h : v.IsOneLine) : Unbroken v.display.toList := by
  cases v with
  | integer n =>
      exact unbroken_toList_append
        (unbroken_toList_append (unbroken_ofList rfl) (unbroken_toString n.toInt))
        (unbroken_ofList rfl)
  | text s =>
      exact unbroken_toList_append (unbroken_toList_append (unbroken_ofList rfl) h)
        (unbroken_ofList rfl)
  | pointer address =>
      exact unbroken_toList_append (unbroken_ofList rfl) address.unbroken_pointerText
  | uninitialized => exact unbroken_ofList rfl

end Value

theorem Operand.unbroken_display {operand : Operand}
    (h : operand.Writable fun s => Unbroken s.toList) : Unbroken operand.display.toList := by
  cases operand with
  | address place => exact place.unbroken_display
  | literal value =>
      refine Value.unbroken_display ?_
      cases value with
      | integer | text => exact h
      | pointer | uninitialized => exact trivial

theorem Instruction.unbroken_display {i : Instruction}
    (h : i.Writable fun s => Unbroken s.toList) : Unbroken i.display.toList := by
  have hword {text : String} (htext : Unbroken text.toList) : Unbroken (text ++ " ").toList :=
    unbroken_toList_append htext (unbroken_ofList rfl)
  have hlabel {name : String} (hname : isLabelName name.toList = true) : Unbroken name.toList :=
    unbroken_of_plain (plain_of_isLabelName hname).2
  cases i with
  | move dest source =>
      exact unbroken_toList_append (hword (unbroken_toList_append (unbroken_ofList rfl)
        dest.unbroken_display)) (Operand.unbroken_display h.2)
  | compute operation dest left right =>
      have hmnemonic : Unbroken operation.mnemonic.toList := by cases operation <;> decide
      exact unbroken_toList_append (hword (unbroken_toList_append (hword (unbroken_toList_append
        (hword hmnemonic) dest.unbroken_display)) (Operand.unbroken_display h.2.1)))
          (Operand.unbroken_display h.2.2)
  | loadAddress dest source =>
      exact unbroken_toList_append (hword (unbroken_toList_append (unbroken_ofList rfl)
        dest.unbroken_display)) source.unbroken_display
  | call dest target =>
      cases dest with
      | none => exact unbroken_toList_append (unbroken_ofList rfl) (hlabel h)
      | some dest =>
          exact unbroken_toList_append (hword (unbroken_toList_append (unbroken_ofList rfl)
            dest.unbroken_display)) (hlabel h.2)
  | jump target => exact unbroken_toList_append (unbroken_ofList rfl) (hlabel h)
  | label name => exact unbroken_toList_append (hlabel h) (unbroken_ofList rfl)
  | ret operand => exact unbroken_toList_append (unbroken_ofList rfl) (Operand.unbroken_display h)
  | syscall name =>
      obtain rfl := List.mem_singleton.mp h
      exact unbroken_toList_append (unbroken_ofList rfl) (unbroken_ofList rfl)
  | leave => exact unbroken_ofList rfl

theorem unbroken_padLeft {width : Nat} {fill : Char} {text : String}
    (hfill : isLineBreak fill = false) (h : Unbroken text.toList) :
    Unbroken (padLeft width fill text).toList := by
  refine unbroken_toList_append ?_ h
  rw [String.toList_ofList]
  intro c hc
  rw [List.eq_of_mem_replicate hc, hfill]

theorem unbroken_padRight {width : Nat} {text : String} (h : Unbroken text.toList) :
    Unbroken (padRight width text).toList := by
  refine unbroken_toList_append h ?_
  rw [String.toList_ofList]
  intro c hc
  rw [List.eq_of_mem_replicate hc]
  rfl

/-- The values and the names in the fault stand on one line. -/
def Fault.IsOneLine : Fault → Prop
  | .outOfReach _ (.value v) | .notText v => v.IsOneLine
  | .incompatible v w | .unsubtractable v w => v.IsOneLine ∧ w.IsOneLine
  | .unknownSyscall name | .labelNotFound name | .unterminated name _ => Unbroken name.toList
  | .outOfReach _ (.slot _) | .registerPosition | .doubleIndirection | .valueExpected _ => True

theorem Fault.unbroken_message {cause : Fault} (h : cause.IsOneLine) :
    Unbroken cause.message.toList := by
  cases cause with
  | outOfReach access location =>
      have hlocation : Unbroken location.display.toList := by
        cases location with
        | slot index => exact (Address.slot index).unbroken_display
        | value v => exact Value.unbroken_display h
      cases access <;> exact unbroken_toList_append (unbroken_ofList rfl) hlocation
  | registerPosition | doubleIndirection => exact unbroken_ofList rfl
  | incompatible left right =>
      refine unbroken_toList_append (unbroken_toList_append (unbroken_toList_append
        (unbroken_toList_append ?_ (Value.unbroken_display h.1)) ?_)
        (Value.unbroken_display h.2)) ?_ <;> exact unbroken_ofList rfl
  | unsubtractable left right =>
      refine unbroken_toList_append (unbroken_toList_append (unbroken_toList_append
        (unbroken_toList_append ?_ (Value.unbroken_display h.1)) ?_)
        (Value.unbroken_display h.2)) ?_ <;> exact unbroken_ofList rfl
  | notText actual => exact unbroken_toList_append (unbroken_ofList rfl) (Value.unbroken_display h)
  | unknownSyscall | labelNotFound => exact unbroken_toList_append (unbroken_ofList rfl) h
  | valueExpected dest => exact unbroken_toList_append (unbroken_ofList rfl) dest.unbroken_display
  | unterminated label missing =>
      cases missing <;>
        exact unbroken_toList_append (unbroken_toList_append (unbroken_toList_append
          (unbroken_ofList rfl) h) (unbroken_ofList rfl)) (unbroken_ofList rfl)

theorem Numeral.LimitError.unbroken_message (e : LimitError) : Unbroken e.message.toList := by
  have hmessage {found : String} (h : Unbroken found.toList) :
      Unbroken ("Exceeds the limit (" ++ toString maxDigits ++
        " digits) for integer string conversion" ++ found ++
          "; use sys.set_int_max_str_digits() to increase the limit").toList := by
    refine unbroken_toList_append (unbroken_toList_append (unbroken_toList_append
      (unbroken_toList_append ?_ (unbroken_toString maxDigits)) ?_) h) ?_
    all_goals exact unbroken_ofList rfl
  cases e with
  | reading digits =>
      exact hmessage (unbroken_toList_append (unbroken_toList_append (unbroken_ofList rfl)
        (unbroken_toString digits)) (unbroken_ofList rfl))
  | writing => exact hmessage (List.forall_mem_nil _)

end Display

end TriReg
