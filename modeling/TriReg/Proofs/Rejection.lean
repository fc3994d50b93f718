import TriReg.Proofs.OneLine

namespace TriReg

open TriReg.Text TriReg.Token

/-- The text of an address without its blanks has too long a slot index. -/
inductive Address.TooLong : List Char → Prop
  | slot {digits : List Char} (h : ∀ c ∈ digits, isDecimalDigit c = true)
      (hlong : Numeral.maxDigits < digits.length) : TooLong (['s', 'p', '['] ++ (digits ++ [']']))
  | reference {inner : List Char} (h : TooLong inner) : TooLong (['['] ++ (inner ++ [']']))

/-- The text is an integer with too many digits, or else an address with too long an index. -/
inductive Operand.TooLong (text : List Char) : Prop
  | integer {negative : Bool} {digits : List Char}
      (h : signedDigits? text = some (negative, digits))
      (hlong : Numeral.maxDigits < digits.length)
  | address (hinteger : signedDigits? text = none) (h : Address.TooLong (squeeze text))

/-- The first argument that cannot be read has too long a number. -/
inductive Instruction.TooLong : List String → Prop
  | ret {word arg : String} (hword : word.toLower = "ret") (h : Operand.TooLong arg.toList) :
      TooLong [word, arg]
  | moveDest {word first second : String} (hword : word.toLower = "mov")
      (h : Address.TooLong (squeeze first.toList)) : TooLong [word, first, second]
  | moveSource {word first second : String} {dest : Address} (hword : word.toLower = "mov")
      (hdest : Address.parse first = .ok dest) (h : Operand.TooLong second.toList) :
      TooLong [word, first, second]
  | loadDest {word first second : String} (hword : word.toLower = "lea")
      (h : Address.TooLong (squeeze first.toList)) : TooLong [word, first, second]
  | loadSource {word first second : String} {dest : Address} (hword : word.toLower = "lea")
      (hdest : Address.parse first = .ok dest) (h : Address.TooLong (squeeze second.toList)) :
      TooLong [word, first, second]
  | callDest {word first second : String} (hword : word.toLower = "call")
      (h : Address.TooLong (squeeze first.toList)) : TooLong [word, first, second]
  | computeDest {operation : Operation} {word first second third : String}
      (hword : word.toLower = operation.mnemonic) (h : Address.TooLong (squeeze first.toList)) :
      TooLong [word, first, second, third]
  | computeLeft {operation : Operation} {word first second third : String} {dest : Address}
      (hword : word.toLower = operation.mnemonic) (hdest : Address.parse first = .ok dest)
      (h : Operand.TooLong second.toList) : TooLong [word, first, second, third]
  | computeRight {operation : Operation} {word first second third : String} {dest : Address}
      {left : Operand} (hword : word.toLower = operation.mnemonic)
      (hdest : Address.parse first = .ok dest) (hleft : Operand.parse second = .ok left)
      (h : Operand.TooLong third.toList) : TooLong [word, first, second, third]

/-- The instruction of the line has a number with too many digits, and nothing before that number is
wrong. -/
def Instruction.HasLongNumber (line : String) : Prop :=
  ∃ words, Token.tokenize line = .ok words ∧ TooLong words

/-- The error is about a text that is not empty. If it is about the length of a number instead,
there is a number that is too long. -/
def SourceError.Explained (long : Prop) : SourceError → Prop
  | .malformed e => e.text ≠ ""
  | .numeral limit => long ∧ ∃ digits, Numeral.maxDigits < digits ∧ limit = .reading digits

theorem SourceError.Explained.mono {long long' : Prop} {e : SourceError} (h : e.Explained long)
    (himp : long → long') : e.Explained long' := by
  cases e with
  | malformed e => exact h
  | numeral limit => exact ⟨himp h.1, h.2⟩

section Explained

variable {given line text : String} {compact digits inner : List Char} {e : SourceError}

theorem exists_digits_of_slotDigits? (h : slotDigits? compact = some digits) :
    compact = ['s', 'p', '['] ++ (digits ++ [']']) ∧
      digits ≠ [] ∧ ∀ c ∈ digits, isDecimalDigit c = true := by
  unfold slotDigits? at h
  split at h
  · rename_i rest
    dsimp only at h
    split at h
    · rename_i hrest
      obtain rfl := Option.some.inj h
      simp only [Bool.and_eq_true, decide_eq_true_eq, Bool.not_eq_true', List.all_eq_true] at hrest
      obtain ⟨⟨hlast, hne⟩, hdigits⟩ := hrest
      rw [List.dropLast_append_getLast? _ hlast]
      exact ⟨rfl, by simpa using hne, hdigits⟩
    · cases h
  · cases h

theorem eq_brackets_of_bracketed? (h : bracketed? compact = some inner) :
    compact = ['['] ++ (inner ++ [']']) := by
  unfold bracketed? at h
  split at h
  · split at h
    · rename_i hlast
      obtain rfl := Option.some.inj h
      rw [List.dropLast_append_getLast? _ hlast]
      rfl
    · cases h
  · cases h

theorem readDecimal_eq_error_iff {limit : Numeral.LimitError} :
    Numeral.readDecimal digits = .error limit ↔
      Numeral.maxDigits < digits.length ∧ limit = .reading digits.length := by
  unfold Numeral.readDecimal
  split
  · rename_i hshort
    simp [Nat.not_lt.mpr hshort]
  · rename_i hlong
    simp [Nat.lt_of_not_le hlong, eq_comm]

theorem explained_readAddress (hgiven : given ≠ "") (h : readAddress given compact = .error e) :
    e.Explained (Address.TooLong compact) := by
  fun_induction readAddress given compact generalizing e with
  | case1 | case2 | case6 => cases h
  | case3 given compact hsp digits hdigits limit hread =>
      cases h
      obtain ⟨rfl, -, hall⟩ := exists_digits_of_slotDigits? hdigits
      obtain ⟨hlong, hlimit⟩ := readDecimal_eq_error_iff.mp hread
      exact ⟨.slot hall hlong, _, hlong, hlimit⟩
  | case4 | case7 =>
      cases h
      exact hgiven
  | case5 given compact hsp hslot c inner hinner ih =>
      have hne : String.ofList (c :: inner) ≠ "" := by simp
      have htarget := ih hne (bind_pure_eq_error_iff.mp h)
      rw [eq_brackets_of_bracketed? hinner]
      exact htarget.mono .reference

theorem explained_parseAddress (htext : text ≠ "") (h : Address.parse text = .error e) :
    e.Explained (Address.TooLong (squeeze text.toList)) :=
  explained_readAddress htext h

theorem explained_readWord {negative : Bool} (htext : text ≠ "")
    (h : readWord text negative digits = .error e) :
    e.Explained (Numeral.maxDigits < digits.length) := by
  unfold readWord at h
  split at h
  · rename_i limit hread
    cases h
    obtain ⟨hlong, hlimit⟩ := readDecimal_eq_error_iff.mp hread
    exact ⟨hlong, _, hlong, hlimit⟩
  · rename_i magnitude hread
    dsimp only at h
    generalize (if negative = true then -(magnitude : Int) else magnitude) = n at h
    split at h
    · cases h
    · cases h
      exact htext

theorem explained_parseOperand (htext : text ≠ "") (h : Operand.parse text = .error e) :
    e.Explained (Operand.TooLong text.toList) := by
  unfold Operand.parse at h
  split at h
  · cases h
  · split at h
    · rename_i hinteger
      exact (explained_readWord htext (map_eq_error_iff.mp h)).mono (.integer hinteger)
    · rename_i hinteger
      split at h
      · cases h
      · cases h
        exact htext
      · rename_i limit hplace
        cases h
        exact (explained_parseAddress htext hplace).mono (.address hinteger)

theorem explained_readLabel {name : String} {long : Prop} (hline : line ≠ "")
    (h : readLabel line name = .error e) : e.Explained long := by
  unfold readLabel at h
  split at h
  · cases h
  · cases h
    change (if name.isEmpty = true then line else name) ≠ ""
    split
    · exact hline
    · rename_i hname
      simpa using hname

end Explained

namespace Instruction

variable {line word arg first second third : String} {e : SourceError}

theorem explained_read₁ {long : Prop} (hline : line ≠ "") (h : read₁ line word = .error e) :
    e.Explained long := by
  unfold read₁ at h
  split at h
  · cases h
  · split at h
    · exact explained_readLabel hline (bind_pure_eq_error_iff.mp h)
    · cases h
      exact hline

theorem explained_read₂ (hline : line ≠ "") (harg : arg ≠ "")
    (h : read₂ line word arg = .error e) : e.Explained (TooLong [word, arg]) := by
  unfold read₂ at h
  dsimp only at h
  split at h
  · split at h
    · cases h
    · cases h
      exact hline
  · split at h
    · exact explained_readLabel hline (bind_pure_eq_error_iff.mp h)
    · split at h
      · rename_i hword
        exact (explained_parseOperand harg (bind_pure_eq_error_iff.mp h)).mono (.ret hword)
      · split at h
        · exact explained_readLabel hline (bind_pure_eq_error_iff.mp h)
        · cases h
          exact hline

theorem explained_read₃ (hline : line ≠ "") (hfirst : first ≠ "") (hsecond : second ≠ "")
    (h : read₃ line word first second = .error e) :
    e.Explained (TooLong [word, first, second]) := by
  unfold read₃ at h
  dsimp only at h
  split at h
  · rename_i hword
    rcases bind_eq_error_iff.mp h with h | ⟨dest, hdest, h⟩
    · exact (explained_parseAddress hfirst h).mono (.moveDest hword)
    · exact (explained_parseOperand hsecond (bind_pure_eq_error_iff.mp h)).mono
        (.moveSource hword hdest)
  · split at h
    · rename_i hword
      rcases bind_eq_error_iff.mp h with h | ⟨dest, hdest, h⟩
      · exact (explained_parseAddress hfirst h).mono (.loadDest hword)
      · exact (explained_parseAddress hsecond (bind_pure_eq_error_iff.mp h)).mono
          (.loadSource hword hdest)
    · split at h
      · rename_i hword
        rcases bind_eq_error_iff.mp h with h | ⟨dest, -, h⟩
        · exact (explained_parseAddress hfirst h).mono (.callDest hword)
        · exact explained_readLabel hline (bind_pure_eq_error_iff.mp h)
      · cases h
        exact hline

theorem explained_read₄ (hline : line ≠ "") (hfirst : first ≠ "") (hsecond : second ≠ "")
    (hthird : third ≠ "") (h : read₄ line word first second third = .error e) :
    e.Explained (TooLong [word, first, second, third]) := by
  by_cases hmnemonic : ∃ operation : Operation, word.toLower = operation.mnemonic
  · obtain ⟨operation, hword⟩ := hmnemonic
    rw [read₄_of_mnemonic hword] at h
    rcases bind_eq_error_iff.mp h with h | ⟨dest, hdest, h⟩
    · exact (explained_parseAddress hfirst h).mono (.computeDest hword)
    · rcases bind_eq_error_iff.mp h with h | ⟨left, hleft, h⟩
      · exact (explained_parseOperand hsecond h).mono (.computeLeft hword hdest)
      · exact (explained_parseOperand hthird (bind_pure_eq_error_iff.mp h)).mono
          (.computeRight hword hdest hleft)
  · rw [read₄_of_unknown (not_exists.mp hmnemonic)] at h
    cases h
    exact hline

theorem explained_ofWords {words : List String} (hline : line ≠ "") (hwords : "" ∉ words)
    (h : ofWords line words = .error e) : e.Explained (TooLong words) := by
  unfold ofWords at h
  split at h
  · exact explained_read₁ hline h
  · simp only [List.mem_cons, not_or] at hwords
    exact explained_read₂ hline (Ne.symm hwords.2.1) h
  · simp only [List.mem_cons, not_or] at hwords
    exact explained_read₃ hline (Ne.symm hwords.2.1) (Ne.symm hwords.2.2.1) h
  · simp only [List.mem_cons, not_or] at hwords
    exact explained_read₄ hline (Ne.symm hwords.2.1) (Ne.symm hwords.2.2.1)
      (Ne.symm hwords.2.2.2.1) h
  · cases h
    exact hline

theorem empty_not_mem_of_tokenize {words : List String} (h : tokenize line = .ok words) :
    "" ∉ words := by
  obtain ⟨words', hwords', rfl⟩ := tokenize_eq_ok_iff.mp h
  intro hempty
  obtain ⟨word, hword, hsame⟩ := List.mem_map.mp hempty
  refine (isWord_of_mem_words hwords' word hword).1 ?_
  rw [← String.toList_ofList (l := word), hsame]
  rfl

/-- What is wrong with a line is a part of it, or a number with too many digits. -/
theorem explained_parse (hline : line ≠ "") (h : parse line = .error e) :
    e.Explained (HasLongNumber line) := by
  rcases bind_eq_error_iff.mp h with h | ⟨words, hwords, h⟩
  · unfold tokenize at h
    split at h
    · cases h
    · cases h
      exact hline
  · exact (explained_ofWords hline (empty_not_mem_of_tokenize hwords) h).mono
      fun hlong => ⟨words, hwords, hlong⟩

end Instruction

section TooLong

variable {line text given : String} {compact : List Char} {words : List String}

/-- The result is an error about the length of a number. -/
def LimitExceeded {α : Type} (x : Except SourceError α) : Prop :=
  ∃ limit, x = .error (.numeral limit)

theorem LimitExceeded.bind {α β : Type} {x : Except SourceError α} (h : LimitExceeded x)
    (f : α → Except SourceError β) : LimitExceeded (x >>= f) := by
  obtain ⟨limit, rfl⟩ := h
  exact ⟨limit, rfl⟩

theorem limitExceeded_readAddress (h : Address.TooLong compact) :
    LimitExceeded (readAddress given compact) := by
  induction h generalizing given with
  | @slot digits hdigits hlong =>
      have hne : digits ≠ [] := by
        rintro rfl
        exact absurd hlong (by decide)
      refine ⟨.reading digits.length, ?_⟩
      rw [readAddress, if_neg (by simp)]
      simp only [Address.slotDigits?_brackets hne hdigits,
        readDecimal_eq_error_iff.mpr ⟨hlong, rfl⟩]
  | @reference inner h ih =>
      have hne : inner ≠ [] := by
        rintro rfl
        cases h
      have hinner : LimitExceeded (readAddress (String.ofList inner) inner) := ih
      rw [Address.readAddress_reference given hne]
      exact hinner.bind _

theorem limitExceeded_parseAddress (h : Address.TooLong (squeeze text.toList)) :
    LimitExceeded (Address.parse text) :=
  limitExceeded_readAddress h

theorem Address.TooLong.exists_cons (h : Address.TooLong compact) :
    ∃ c rest, compact = c :: rest ∧ c ≠ '"' := by
  cases h with
  | slot => exact ⟨'s', _, rfl, by decide⟩
  | reference => exact ⟨'[', _, rfl, by decide⟩

theorem quotedText?_of_tooLong (h : Operand.TooLong text.toList) :
    quotedText? text.toList = none := by
  rw [Option.eq_none_iff_forall_ne_some]
  intro inner hinner
  have hquote := Operand.quotedText?_eq_some_iff.mp hinner
  rw [hquote] at h
  cases h with
  | integer hinteger hlong =>
      rw [Operand.signedDigits?_eq_none (by decide) (by decide) (by decide)] at hinteger
      cases hinteger
  | address hinteger h =>
      obtain ⟨c, rest, hcompact, hc⟩ := h.exists_cons
      have hkept : squeeze ('"' :: (inner ++ ['"'])) = '"' :: squeeze (inner ++ ['"']) := by
        rw [squeeze, List.filter_cons_of_pos (by decide), squeeze]
      rw [hkept] at hcompact
      exact hc (List.cons.inj hcompact).1.symm

theorem limitExceeded_parseOperand (h : Operand.TooLong text.toList) :
    LimitExceeded (Operand.parse text) := by
  rw [Operand.parse, quotedText?_of_tooLong h]
  cases h with
  | @integer negative digits hinteger hlong =>
      refine ⟨.reading digits.length, ?_⟩
      simp only [hinteger, readWord, readDecimal_eq_error_iff.mpr ⟨hlong, rfl⟩]
      rfl
  | address hinteger h =>
      obtain ⟨limit, hplace⟩ := limitExceeded_parseAddress h
      exact ⟨limit, by simp only [hinteger, hplace]⟩

theorem limitExceeded_ofWords (h : Instruction.TooLong words) :
    LimitExceeded (Instruction.ofWords line words) := by
  cases h with
  | ret hword h =>
      simp only [Instruction.ofWords, Instruction.read₂, hword]
      exact (limitExceeded_parseOperand h).bind _
  | moveDest hword h =>
      simp only [Instruction.ofWords, Instruction.read₃, hword]
      exact (limitExceeded_parseAddress h).bind _
  | moveSource hword hdest h =>
      simp only [Instruction.ofWords, Instruction.read₃, hword, hdest]
      exact (limitExceeded_parseOperand h).bind _
  | loadDest hword h =>
      simp only [Instruction.ofWords, Instruction.read₃, hword]
      exact (limitExceeded_parseAddress h).bind _
  | loadSource hword hdest h =>
      simp only [Instruction.ofWords, Instruction.read₃, hword, hdest]
      exact (limitExceeded_parseAddress h).bind _
  | callDest hword h =>
      simp only [Instruction.ofWords, Instruction.read₃, hword]
      exact (limitExceeded_parseAddress h).bind _
  | computeDest hword h =>
      rw [Instruction.ofWords, Instruction.read₄_of_mnemonic hword]
      exact (limitExceeded_parseAddress h).bind _
  | computeLeft hword hdest h =>
      rw [Instruction.ofWords, Instruction.read₄_of_mnemonic hword, hdest]
      exact (limitExceeded_parseOperand h).bind _
  | computeRight hword hdest hleft h =>
      rw [Instruction.ofWords, Instruction.read₄_of_mnemonic hword, hdest, ok_bind, hleft]
      exact (limitExceeded_parseOperand h).bind _

theorem limitExceeded_parse_iff (hline : line ≠ "") :
    LimitExceeded (Instruction.parse line) ↔ Instruction.HasLongNumber line := by
  constructor
  · rintro ⟨limit, h⟩
    exact (Instruction.explained_parse hline h).1
  · rintro ⟨words, hwords, h⟩
    rw [Instruction.parse, hwords]
    exact limitExceeded_ofWords h

end TooLong

namespace Program

/-- The lines that are not skipped, each with its number. The first line has number `n`. -/
def writtenLines (n : Nat) (texts : List (List Char)) : List (List Char × Nat) :=
  (texts.zipIdx n).filter fun entry => !isSkipped entry.1

/-- The lines of a source that are not skipped, each with its number. -/
def sourceLines (source : String) : List (List Char × Nat) :=
  writtenLines 1 (lines source.toList)

/-- The instruction that a numbered line writes, with the number of the line. -/
def readEntry (entry : List Char × Nat) : Except SourceError (Nat × Instruction) :=
  (onLine entry.2 (Instruction.parse (String.ofList entry.1))).map fun i => (entry.2, i)

/-- The first line that writes no instruction, with its number and what is wrong with it. -/
def FirstRejected (source : String) (line : List Char) (n : Nat) (e : SourceError) : Prop :=
  ∃ before after : List (List Char × Nat), sourceLines source = before ++ (line, n) :: after ∧
    (∀ entry ∈ before, ∃ i, Instruction.parse (String.ofList entry.1) = .ok i) ∧
      Instruction.parse (String.ofList line) = .error e

/-- The result of loading accounts for the lines that are not skipped: either each of them wrote an
instruction, or the error is about the first of them that did not. -/
inductive Accounted (source : String) : Except SourceError Program → Prop
  | program {p : Program}
      (hcode : List.Forall₂ (fun entry i => Instruction.parse (String.ofList entry.1) = .ok i)
        (sourceLines source) p.code)
      (hnumbers : p.lineNumbers = (sourceLines source).map (·.2)) : Accounted source (.ok p)
  | located {line : List Char} {n : Nat} {e : ParseError}
      (hrejected : FirstRejected source line n (.malformed e)) (htext : e.text ≠ "")
      (hmessage : { e with line := (n : Int) }.message =
        "Line " ++ toString n ++ ": " ++ e.cause.message) :
      Accounted source (.error (.malformed { e with line := n }))

/-- The first line that writes no instruction has a number with too many digits. -/
def HasLongNumber (source : String) : Prop :=
  ∃ line n e, FirstRejected source line n e ∧ Instruction.HasLongNumber (String.ofList line)

section WrittenLines

variable {source : String} {entry : List Char × Nat} {e : SourceError} {p : Program}

theorem writtenLines_cons (n : Nat) (line : List Char) (texts : List (List Char)) :
    writtenLines n (line :: texts) =
      if isSkipped line then writtenLines (n + 1) texts
      else (line, n) :: writtenLines (n + 1) texts := by
  rw [writtenLines, List.zipIdx_cons, List.filter_cons]
  cases isSkipped line <;> rfl

theorem readLines_eq_mapM (n : Nat) (texts : List (List Char)) :
    readLines n texts = (writtenLines n texts).mapM readEntry := by
  induction texts generalizing n with
  | nil => rfl
  | cons line texts ih =>
      rw [readLines, ih, writtenLines_cons]
      cases hskipped : isSkipped line with
      | true => rfl
      | false =>
          rw [if_neg Bool.false_ne_true, if_neg Bool.false_ne_true, List.mapM_cons, readEntry]
          cases onLine n (Instruction.parse (String.ofList line)) <;> rfl

theorem load_eq_map (source : String) :
    load source = ((sourceLines source).mapM readEntry).map ofNumbered := by
  rw [load, bind_pure_eq_map, readLines_eq_mapM, sourceLines]

theorem ne_nil_and_pos_of_mem_sourceLines (h : entry ∈ sourceLines source) :
    entry.1 ≠ [] ∧ 1 ≤ entry.2 := by
  obtain ⟨hmem, hwritten⟩ := List.mem_filter.mp h
  refine ⟨?_, (List.mem_zipIdx hmem).1⟩
  intro hempty
  rw [hempty] at hwritten
  cases hwritten

theorem readEntry_eq_ok_iff {read : Nat × Instruction} : readEntry entry = .ok read ↔
    Instruction.parse (String.ofList entry.1) = .ok read.2 ∧ read.1 = entry.2 := by
  rw [readEntry, map_eq_ok_iff]
  constructor
  · rintro ⟨i, hi, rfl⟩
    exact ⟨onLine_eq_ok_iff.mp hi, rfl⟩
  · rintro ⟨hi, hn⟩
    exact ⟨read.2, onLine_eq_ok_iff.mpr hi, by rw [← hn]⟩

theorem readEntry_eq_error_iff : readEntry entry = .error e ↔
    ∃ e', Instruction.parse (String.ofList entry.1) = .error e' ∧ e = e'.atLine entry.2 := by
  rw [readEntry, map_eq_error_iff]
  cases Instruction.parse (String.ofList entry.1) <;> simp [onLine, eq_comm]

theorem exists_readEntry_iff : (∃ read, readEntry entry = .ok read) ↔
    ∃ i, Instruction.parse (String.ofList entry.1) = .ok i := by
  constructor
  · rintro ⟨read, h⟩
    exact ⟨read.2, (readEntry_eq_ok_iff.mp h).1⟩
  · rintro ⟨i, h⟩
    exact ⟨(entry.2, i), readEntry_eq_ok_iff.mpr ⟨h, rfl⟩⟩

theorem forall₂_of_load (h : load source = .ok p) :
    List.Forall₂ (fun entry i => Instruction.parse (String.ofList entry.1) = .ok i)
      (sourceLines source) p.code ∧ p.lineNumbers = (sourceLines source).map (·.2) := by
  rw [load_eq_map, map_eq_ok_iff] at h
  obtain ⟨numbered, hread, rfl⟩ := h
  rw [mapM_eq_ok_iff] at hread
  have hnumbers : List.Forall₂ (· = ·) (numbered.map (·.1)) ((sourceLines source).map (·.2)) :=
    List.forall₂_map_left_iff.mpr (List.forall₂_map_right_iff.mpr
      (hread.flip.imp fun _ _ h => (readEntry_eq_ok_iff.mp h).2))
  refine ⟨?_, List.forall₂_eq_eq_eq ▸ hnumbers⟩
  exact List.forall₂_map_right_iff.mpr (hread.imp fun _ _ h => (readEntry_eq_ok_iff.mp h).1)

theorem load_eq_error_iff : load source = .error e ↔
    ∃ line n e', FirstRejected source line n e' ∧ e = e'.atLine n := by
  rw [load_eq_map, map_eq_error_iff, mapM_eq_error_iff]
  constructor
  · rintro ⟨before, ⟨line, n⟩, after, hsplit, hbefore, hline⟩
    obtain ⟨e', hrejected, rfl⟩ := readEntry_eq_error_iff.mp hline
    refine ⟨line, n, e', ⟨before, after, hsplit, ?_, hrejected⟩, rfl⟩
    intro entry hentry
    exact exists_readEntry_iff.mp (hbefore entry hentry)
  · rintro ⟨line, n, e', ⟨before, after, hsplit, hbefore, hrejected⟩, rfl⟩
    refine ⟨before, (line, n), after, hsplit, ?_, readEntry_eq_error_iff.mpr ⟨e', hrejected, rfl⟩⟩
    intro entry hentry
    exact exists_readEntry_iff.mpr (hbefore entry hentry)

theorem FirstRejected.explained {line : List Char} {n : Nat} (h : FirstRejected source line n e) :
    n ≠ 0 ∧ String.ofList line ≠ "" ∧
      e.Explained (Instruction.HasLongNumber (String.ofList line)) := by
  obtain ⟨before, after, hsplit, -, hrejected⟩ := h
  have hmem : (line, n) ∈ sourceLines source := by simp [hsplit]
  obtain ⟨hne, hpos⟩ := ne_nil_and_pos_of_mem_sourceLines hmem
  have hline : String.ofList line ≠ "" := by simpa using hne
  exact ⟨Nat.pos_iff_ne_zero.mp hpos, hline, Instruction.explained_parse hline hrejected⟩

theorem hasLongNumber_iff : HasLongNumber source ↔
    ∃ digits, Numeral.maxDigits < digits ∧ load source = .error (.numeral (.reading digits)) := by
  constructor
  · rintro ⟨line, n, e, hrejected, hlong⟩
    obtain ⟨-, hline, hexplained⟩ := hrejected.explained
    obtain ⟨limit, hlimit⟩ := (limitExceeded_parse_iff hline).mpr hlong
    cases e with
    | malformed e =>
        obtain ⟨-, -, -, -, hparse⟩ := hrejected
        cases hparse.symm.trans hlimit
    | numeral limit =>
        obtain ⟨-, digits, hdigits, rfl⟩ := hexplained
        exact ⟨digits, hdigits, load_eq_error_iff.mpr ⟨line, n, _, hrejected, rfl⟩⟩
  · rintro ⟨digits, -, hload⟩
    obtain ⟨line, n, e, hrejected, he⟩ := load_eq_error_iff.mp hload
    obtain ⟨-, -, hexplained⟩ := hrejected.explained
    cases e with
    | malformed e => cases he
    | numeral limit => exact ⟨line, n, _, hrejected, hexplained.1⟩

/-- Loading accounts for the lines of a source exactly if the first line that writes no instruction
is not rejected for the length of a number. A source with such a number is refused for it. -/
theorem accounted_load_iff (source : String) :
    (Accounted source (load source) ↔ ¬ HasLongNumber source) ∧
      (HasLongNumber source ↔ ∃ digits, Numeral.maxDigits < digits ∧
        load source = .error (.numeral (.reading digits))) := by
  refine ⟨⟨?_, ?_⟩, hasLongNumber_iff⟩
  · intro haccounted hlong
    obtain ⟨digits, -, hload⟩ := hasLongNumber_iff.mp hlong
    rw [hload] at haccounted
    cases haccounted
  · intro hlong
    cases hload : load source with
    | ok p =>
        obtain ⟨hcode, hnumbers⟩ := forall₂_of_load hload
        exact .program hcode hnumbers
    | error e =>
        obtain ⟨line, n, e', hrejected, rfl⟩ := load_eq_error_iff.mp hload
        obtain ⟨hn, -, hexplained⟩ := hrejected.explained
        cases e' with
        | malformed e => exact .located hrejected hexplained (if_neg (by simpa using hn))
        | numeral limit => exact absurd ⟨line, n, _, hrejected, hexplained.1⟩ hlong

end WrittenLines

/-- A number with one digit more than a number may have. -/
def longNumber : List Char := List.replicate (Numeral.maxDigits + 1) '1'

/-- A return of that number. -/
def longReturn : List Char := ['r', 'e', 't'] ++ ([' '] ++ longNumber)

theorem longNumber_ne_nil : longNumber ≠ [] := List.cons_ne_nil _ _

theorem plain_longNumber : Plain longNumber := by
  intro c hc
  rw [List.eq_of_mem_replicate hc]
  decide

theorem tooLong_longNumber : Operand.TooLong (String.ofList longNumber).toList := by
  have hdigits : ∀ c ∈ longNumber, isDecimalDigit c = true := by
    intro c hc
    rw [List.eq_of_mem_replicate hc]
    decide
  have hsigned : signedDigits? longNumber = some (false, longNumber) :=
    Operand.signedDigits?_of_splitSign rfl longNumber_ne_nil hdigits
  have hlength : longNumber.length = Numeral.maxDigits + 1 := List.length_replicate
  rw [String.toList_ofList]
  exact .integer hsigned (hlength ▸ Nat.lt_succ_self _)

theorem words_longReturn : words longReturn = .ok [['r', 'e', 't'], longNumber] := by
  have hspaced : Spaced [['r', 'e', 't'], longNumber] longReturn :=
    .cons _ (List.cons_ne_nil _ _) (by decide) (.last longNumber)
  refine words_of_laid ⟨[], longReturn, [], blanks_nil, hspaced, .blanks blanks_nil, by simp⟩ ?_
  intro w hw
  simp only [List.mem_cons, List.not_mem_nil, or_false] at hw
  rcases hw with rfl | rfl
  · exact isWord_of_plain (List.cons_ne_nil _ _) (by decide)
  · exact isWord_of_plain longNumber_ne_nil plain_longNumber

theorem sourceLines_longReturn : sourceLines (String.ofList longReturn) = [(longReturn, 1)] := by
  have hunbroken : Unbroken longReturn :=
    Unbroken.append (by decide) (Unbroken.append (by decide) (unbroken_of_plain plain_longNumber))
  have hne : longReturn ≠ [] := List.cons_ne_nil _ _
  have hkept : isSkipped longReturn = false := by
    rw [Bool.eq_false_iff]
    intro hskipped
    cases (words_ending (isSkipped_iff.mp hskipped)).symm.trans words_longReturn
  rw [sourceLines, String.toList_ofList, lines_of_unbroken hne hunbroken, writtenLines_cons, hkept]
  rfl

theorem hasLongNumber_longReturn : HasLongNumber (String.ofList longReturn) := by
  have hwords : words (String.ofList longReturn).toList = .ok [['r', 'e', 't'], longNumber] := by
    rw [String.toList_ofList, words_longReturn]
  have hlong : Instruction.HasLongNumber (String.ofList longReturn) :=
    ⟨_, Instruction.tokenize_eq_ok_iff.mpr ⟨_, hwords, rfl⟩,
      .ret (by decide +kernel) tooLong_longNumber⟩
  obtain ⟨limit, hlimit⟩ := (limitExceeded_parse_iff (by simp [longReturn])).mpr hlong
  exact ⟨longReturn, 1, _, ⟨[], [], sourceLines_longReturn, List.forall_mem_nil _, hlimit⟩, hlong⟩

theorem longReturn_not_accounted : ¬ ∀ source, Accounted source (load source) := by
  intro h
  obtain ⟨digits, -, hload⟩ := hasLongNumber_iff.mp hasLongNumber_longReturn
  have haccounted := h (String.ofList longReturn)
  rw [hload] at haccounted
  cases haccounted

end Program

end TriReg
