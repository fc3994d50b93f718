import TriReg.Proofs.Reading

/-!
Lines that are read back. Reading any spelling of an instruction gives the instruction, and every
instruction that was read has a standard text from which it is read again. The reader is taken apart
once, in `Instruction.ReadAs`, which has one case for each form that the words of a line can have.
-/

namespace TriReg

open TriReg.Text TriReg.Token

theorem isPlain_of_isLabelRest {c : Char} (h : isLabelRest c = true) : isPlain c = true := by
  simp only [isLabelRest, isLabelStart, Bool.or_eq_true, beq_iff_eq] at h
  rcases h with ((h | rfl) | rfl) | h
  · exact isPlain_of_isAlphanum (by rw [Char.isAlphanum, h, Bool.true_or])
  · decide
  · decide
  · exact isPlain_of_isAlphanum (by rw [Char.isAlphanum, h, Bool.or_true])

theorem plain_of_isLabelName {name : List Char} (h : isLabelName name = true) :
    name ≠ [] ∧ Plain name := by
  cases name with
  | nil => cases h
  | cons c rest =>
      obtain ⟨hc, hrest⟩ := Bool.and_eq_true_iff.mp h
      refine ⟨List.cons_ne_nil c rest, ?_⟩
      intro d hd
      rcases List.mem_cons.mp hd with rfl | hd
      · exact isPlain_of_isLabelRest (by rw [isLabelRest, hc, Bool.true_or])
      · exact isPlain_of_isLabelRest (List.all_eq_true.mp hrest d hd)

theorem isWord_of_isLabelName {name : List Char} (h : isLabelName name = true) : IsWord name := by
  obtain ⟨hne, hplain⟩ := plain_of_isLabelName h
  exact isWord_of_plain hne hplain

theorem isPlain_of_isAlpha_toLower {c : Char} (h : c.toLower.isAlpha = true) :
    isPlain c = true := by
  apply isPlain_of_isAlphanum
  by_cases hupper : c.isUpper = true
  · change ((c.isUpper || c.isLower) || c.isDigit) = true
    rw [hupper, Bool.true_or, Bool.true_or]
  · have hlower : c.toLower = c := dif_neg fun hrange => hupper (decide_eq_true hrange)
    rw [hlower] at h
    rw [Char.isAlphanum, h, Bool.true_or]

theorem toLower_ofList (word : List Char) :
    (String.ofList word).toLower = String.ofList (word.map Char.toLower) := by
  change (String.ofList word).map Char.toLower = _
  rw [String.map_eq_internal, String.toList_ofList]

theorem readLabel_eq_ok_iff {line name label : String} :
    readLabel line name = .ok label ↔ isLabelName name.toList = true ∧ name = label := by
  unfold readLabel
  split
  · rename_i hname
    simp [hname]
  · rename_i hname
    simp [hname, misread]

namespace Argument

/-- Every spelling of the argument is one word. -/
def InWord (argument : Argument) : Prop := ∀ text, argument.Spelling text → IsWord text

theorem inWord_address (place : Address) : InWord (.operand (.address place)) := by
  intro text h
  exact Address.isWord_of_spelling h

theorem inWord_operand {source : Operand} (hwritable : source.Writable Quotable) :
    InWord (.operand source) := by
  intro text h
  exact Operand.isWord_of_spelling hwritable h

theorem inWord_name {given : String} (h : IsWord given.toList) : InWord (.name given) := by
  rintro text rfl
  exact h

theorem isWord_of_forall₂ {arguments : List Argument} {words : List (List Char)}
    (hwords : List.Forall₂ Spelling arguments words)
    (h : ∀ argument ∈ arguments, argument.InWord) : ∀ word ∈ words, IsWord word := by
  induction hwords with
  | nil =>
      intro word hword
      cases hword
  | @cons argument text arguments words hspelling hwords ih =>
      obtain ⟨hargument, harguments⟩ := List.forall_mem_cons.mp h
      exact List.forall_mem_cons.mpr ⟨hargument text hspelling, ih harguments⟩

end Argument

namespace Instruction

variable {i : Instruction} {line : String} {word : List Char} {words : List (List Char)}

theorem headSpelling_iff (hlabel : i.labelName? = none) :
    i.HeadSpelling word ↔ word.map Char.toLower = i.head.toList := by
  cases i with
  | label => cases hlabel
  | move | compute | loadAddress | call | jump | ret | syscall | leave => rfl

theorem headSpelling_label_iff {name : String} :
    (label name).HeadSpelling word ↔ word = name.toList ++ [':'] := by
  change word = (name ++ ":").toList ↔ _
  rw [String.toList_append]
  rfl

theorem toLower_of_headSpelling (hlabel : i.labelName? = none) (h : i.HeadSpelling word) :
    (String.ofList word).toLower = i.head := by
  rw [toLower_ofList, (headSpelling_iff hlabel).mp h, String.ofList_toList]

theorem all_isAlpha_head (hlabel : i.labelName? = none) :
    i.head.toList ≠ [] ∧ i.head.toList.all Char.isAlpha = true := by
  cases i with
  | label => cases hlabel
  | compute operation dest left right =>
      change operation.mnemonic.toList ≠ [] ∧ operation.mnemonic.toList.all Char.isAlpha = true
      cases operation <;> decide
  | move | loadAddress | call | jump | ret | syscall | leave =>
      simp only [head]
      decide

theorem plain_of_headSpelling {texts : String → Prop} (hwritable : i.Writable texts)
    (h : i.HeadSpelling word) : word ≠ [] ∧ Plain word := by
  cases hlabel : i.labelName? with
  | none =>
      obtain ⟨hne, halpha⟩ := all_isAlpha_head hlabel
      rw [← (headSpelling_iff hlabel).mp h] at hne halpha
      constructor
      · rintro rfl
        exact hne rfl
      · intro c hc
        exact isPlain_of_isAlpha_toLower (List.all_eq_true.mp halpha _ (List.mem_map_of_mem hc))
  | some name =>
      obtain rfl := labelName?_eq_some_iff.mp hlabel
      obtain ⟨hne, hplain⟩ := plain_of_isLabelName hwritable
      obtain rfl := headSpelling_label_iff.mp h
      have hcolon : Plain [':'] := by decide
      exact ⟨by simp, List.forall_mem_append.mpr ⟨hplain, hcolon⟩⟩

theorem isWord_of_headSpelling {texts : String → Prop} (hwritable : i.Writable texts)
    (h : i.HeadSpelling word) : IsWord word := by
  obtain ⟨hne, hplain⟩ := plain_of_headSpelling hwritable h
  exact isWord_of_plain hne hplain

theorem read₁_label {name : String} (hname : isLabelName name.toList = true)
    (h : (label name).HeadSpelling word) (line : String) :
    read₁ line (String.ofList word) = .ok (.label name) := by
  obtain rfl := headSpelling_label_iff.mp h
  have hleave : (String.ofList (name.toList ++ [':'])).toLower ≠ "leave" := by
    intro hleave
    rw [toLower_ofList, List.map_append] at hleave
    have hlast := congrArg (fun text => text.toList.getLast?) hleave
    simp at hlast
  rw [read₁, if_neg hleave, String.toList_ofList, List.getLast?_concat, if_pos rfl,
    List.dropLast_concat, String.ofList_toList, readLabel_eq_ok_iff.mpr ⟨hname, rfl⟩]
  rfl

theorem ofWords_of_spelling {texts : String → Prop} (hwritable : i.Writable texts)
    (hhead : i.HeadSpelling word) (harguments : List.Forall₂ Argument.Spelling i.arguments words)
    (line : String) : ofWords line ((word :: words).map String.ofList) = .ok i := by
  cases i with
  | move dest source =>
      rcases harguments with _ | ⟨h₁, _ | ⟨h₂, ⟨⟩⟩⟩
      simp only [List.map_cons, List.map_nil, ofWords, read₃, toLower_of_headSpelling rfl hhead,
        Address.parse_of_spelling hwritable.1 h₁, Operand.parse_of_spelling hwritable.2 h₂]
      rfl
  | compute operation dest left right =>
      rcases harguments with _ | ⟨h₁, _ | ⟨h₂, _ | ⟨h₃, ⟨⟩⟩⟩⟩
      simp only [List.map_cons, List.map_nil, ofWords, read₄, toLower_of_headSpelling rfl hhead,
        Address.parse_of_spelling hwritable.1 h₁, Operand.parse_of_spelling hwritable.2.1 h₂,
        Operand.parse_of_spelling hwritable.2.2 h₃]
      cases operation <;> rfl
  | loadAddress dest source =>
      rcases harguments with _ | ⟨h₁, _ | ⟨h₂, ⟨⟩⟩⟩
      simp only [List.map_cons, List.map_nil, ofWords, read₃, toLower_of_headSpelling rfl hhead,
        Address.parse_of_spelling hwritable.1 h₁, Address.parse_of_spelling hwritable.2 h₂]
      rfl
  | call dest target =>
      cases dest with
      | none =>
          rcases harguments with _ | ⟨rfl, ⟨⟩⟩
          simp only [List.map_cons, List.map_nil, ofWords, read₂, String.ofList_toList,
            toLower_of_headSpelling rfl hhead, readLabel_eq_ok_iff.mpr ⟨hwritable, rfl⟩]
          rfl
      | some dest =>
          rcases harguments with _ | ⟨h₁, _ | ⟨rfl, ⟨⟩⟩⟩
          simp only [List.map_cons, List.map_nil, ofWords, read₃, String.ofList_toList,
            toLower_of_headSpelling rfl hhead, Address.parse_of_spelling hwritable.1 h₁,
            readLabel_eq_ok_iff.mpr ⟨hwritable.2, rfl⟩]
          rfl
  | jump target =>
      rcases harguments with _ | ⟨rfl, ⟨⟩⟩
      simp only [List.map_cons, List.map_nil, ofWords, read₂, String.ofList_toList,
        toLower_of_headSpelling rfl hhead, readLabel_eq_ok_iff.mpr ⟨hwritable, rfl⟩]
      rfl
  | label name =>
      rcases harguments with ⟨⟩
      exact read₁_label hwritable hhead line
  | ret operand =>
      rcases harguments with _ | ⟨h₁, ⟨⟩⟩
      simp only [List.map_cons, List.map_nil, ofWords, read₂, toLower_of_headSpelling rfl hhead,
        Operand.parse_of_spelling hwritable h₁]
      rfl
  | syscall name =>
      rcases harguments with _ | ⟨rfl, ⟨⟩⟩
      have hname : syscallNames.contains name = true := List.contains_iff_mem.mpr hwritable
      simp only [List.map_cons, List.map_nil, ofWords, read₂, String.ofList_toList,
        toLower_of_headSpelling rfl hhead, hname]
      rfl
  | leave =>
      rcases harguments with ⟨⟩
      simp only [List.map_cons, List.map_nil, ofWords, read₁, toLower_of_headSpelling rfl hhead]
      rfl

/-- The words are read as the instruction. -/
inductive ReadAs : List String → Instruction → Prop
  | leave {word : String} (hword : word.toLower = "leave") : ReadAs [word] .leave
  | label {word name : String} (hword : word.toList = name.toList ++ [':'])
      (hname : isLabelName name.toList = true) : ReadAs [word] (.label name)
  | syscall {word name : String} (hword : word.toLower = "syscall") (hname : name ∈ syscallNames) :
      ReadAs [word, name] (.syscall name)
  | jump {word name : String} (hword : word.toLower = "jmp")
      (hname : isLabelName name.toList = true) : ReadAs [word, name] (.jump name)
  | ret {word arg : String} {operand : Operand} (hword : word.toLower = "ret")
      (harg : Operand.parse arg = .ok operand) : ReadAs [word, arg] (.ret operand)
  | call {word name : String} (hword : word.toLower = "call")
      (hname : isLabelName name.toList = true) : ReadAs [word, name] (.call none name)
  | move {word first second : String} {dest : Address} {source : Operand}
      (hword : word.toLower = "mov") (hfirst : Address.parse first = .ok dest)
      (hsecond : Operand.parse second = .ok source) :
      ReadAs [word, first, second] (.move dest source)
  | loadAddress {word first second : String} {dest source : Address}
      (hword : word.toLower = "lea") (hfirst : Address.parse first = .ok dest)
      (hsecond : Address.parse second = .ok source) :
      ReadAs [word, first, second] (.loadAddress dest source)
  | callInto {word first name : String} {dest : Address} (hword : word.toLower = "call")
      (hfirst : Address.parse first = .ok dest) (hname : isLabelName name.toList = true) :
      ReadAs [word, first, name] (.call (some dest) name)
  | compute {operation : Operation} {word first second third : String} {dest : Address}
      {left right : Operand} (hword : word.toLower = operation.mnemonic)
      (hfirst : Address.parse first = .ok dest) (hsecond : Operand.parse second = .ok left)
      (hthird : Operand.parse third = .ok right) :
      ReadAs [word, first, second, third] (.compute operation dest left right)

section Read

variable {word arg first second third : String} {words : List String}

theorem readAs_of_read₁ (h : read₁ line word = .ok i) : ReadAs [word] i := by
  unfold read₁ at h
  split at h
  · rename_i hword
    cases h
    exact .leave hword
  · split at h
    · rename_i hcolon
      obtain ⟨name, hname, hresult⟩ := bind_eq_ok_iff.mp h
      cases hresult
      obtain ⟨hvalid, rfl⟩ := readLabel_eq_ok_iff.mp hname
      refine .label ?_ hvalid
      rw [String.toList_ofList, List.dropLast_append_getLast? _ hcolon]
    · cases h

theorem readAs_of_read₂ (h : read₂ line word arg = .ok i) : ReadAs [word, arg] i := by
  unfold read₂ at h
  dsimp only at h
  split at h
  · rename_i hword
    split at h
    · rename_i hname
      cases h
      exact .syscall hword (List.contains_iff_mem.mp hname)
    · cases h
  · split at h
    · rename_i hword
      obtain ⟨name, hname, hresult⟩ := bind_eq_ok_iff.mp h
      cases hresult
      obtain ⟨hvalid, rfl⟩ := readLabel_eq_ok_iff.mp hname
      exact .jump hword hvalid
    · split at h
      · rename_i hword
        obtain ⟨operand, hoperand, hresult⟩ := bind_eq_ok_iff.mp h
        cases hresult
        exact .ret hword hoperand
      · split at h
        · rename_i hword
          obtain ⟨name, hname, hresult⟩ := bind_eq_ok_iff.mp h
          cases hresult
          obtain ⟨hvalid, rfl⟩ := readLabel_eq_ok_iff.mp hname
          exact .call hword hvalid
        · cases h

theorem readAs_of_read₃ (h : read₃ line word first second = .ok i) :
    ReadAs [word, first, second] i := by
  unfold read₃ at h
  dsimp only at h
  split at h
  · rename_i hword
    obtain ⟨dest, hdest, h⟩ := bind_eq_ok_iff.mp h
    obtain ⟨source, hsource, hresult⟩ := bind_eq_ok_iff.mp h
    cases hresult
    exact .move hword hdest hsource
  · split at h
    · rename_i hword
      obtain ⟨dest, hdest, h⟩ := bind_eq_ok_iff.mp h
      obtain ⟨source, hsource, hresult⟩ := bind_eq_ok_iff.mp h
      cases hresult
      exact .loadAddress hword hdest hsource
    · split at h
      · rename_i hword
        obtain ⟨dest, hdest, h⟩ := bind_eq_ok_iff.mp h
        obtain ⟨name, hname, hresult⟩ := bind_eq_ok_iff.mp h
        cases hresult
        obtain ⟨hvalid, rfl⟩ := readLabel_eq_ok_iff.mp hname
        exact .callInto hword hdest hvalid
      · cases h

theorem read₄_of_mnemonic {operation : Operation} (hword : word.toLower = operation.mnemonic) :
    read₄ line word first second third = (do
      return .compute operation (← Address.parse first) (← Operand.parse second)
        (← Operand.parse third)) := by
  have hsub : "sub" ≠ "add" := by decide
  cases operation <;> simp only [read₄, hword, Operation.mnemonic, if_true, if_neg hsub]

theorem read₄_of_unknown (h : ∀ operation : Operation, word.toLower ≠ operation.mnemonic) :
    read₄ line word first second third = misread (.unknownInstruction word) line := by
  have hadd : word.toLower ≠ "add" := h .add
  have hsub : word.toLower ≠ "sub" := h .subtract
  simp only [read₄, if_neg hadd, if_neg hsub]

theorem readAs_of_read₄ (h : read₄ line word first second third = .ok i) :
    ReadAs [word, first, second, third] i := by
  by_cases hmnemonic : ∃ operation : Operation, word.toLower = operation.mnemonic
  · obtain ⟨operation, hword⟩ := hmnemonic
    rw [read₄_of_mnemonic hword] at h
    obtain ⟨dest, hdest, h⟩ := bind_eq_ok_iff.mp h
    obtain ⟨left, hleft, h⟩ := bind_eq_ok_iff.mp h
    obtain ⟨right, hright, hresult⟩ := bind_eq_ok_iff.mp h
    cases hresult
    exact .compute hword hdest hleft hright
  · rw [read₄_of_unknown (not_exists.mp hmnemonic)] at h
    cases h

theorem readAs_of_ofWords (h : ofWords line words = .ok i) : ReadAs words i := by
  unfold ofWords at h
  split at h
  · exact readAs_of_read₁ h
  · exact readAs_of_read₂ h
  · exact readAs_of_read₃ h
  · exact readAs_of_read₄ h
  · cases h

theorem writable_of_ofWords {texts : String → Prop}
    (hwords : ∀ word ∈ words, Quotes texts word.toList) (h : ofWords line words = .ok i) :
    i.Writable texts := by
  have hread := readAs_of_ofWords h
  cases hread with
  | leave => exact trivial
  | label hword hname | syscall hword hname | jump hword hname | call hword hname => exact hname
  | ret hword harg => exact Operand.writable_of_parse (hwords _ (by simp)) harg
  | move hword hfirst hsecond =>
      exact ⟨Address.writable_of_readAddress hfirst,
        Operand.writable_of_parse (hwords _ (by simp)) hsecond⟩
  | loadAddress hword hfirst hsecond =>
      exact ⟨Address.writable_of_readAddress hfirst, Address.writable_of_readAddress hsecond⟩
  | callInto hword hfirst hname => exact ⟨Address.writable_of_readAddress hfirst, hname⟩
  | compute hword hfirst hsecond hthird =>
      exact ⟨Address.writable_of_readAddress hfirst,
        Operand.writable_of_parse (hwords _ (by simp)) hsecond,
        Operand.writable_of_parse (hwords _ (by simp)) hthird⟩

end Read

theorem tokenize_eq_ok_iff {words : List String} :
    tokenize line = .ok words ↔
      ∃ words', Token.words line.toList = .ok words' ∧ words'.map String.ofList = words := by
  unfold tokenize
  split
  · rename_i words' hwords
    simp [hwords]
  · rename_i cause hwords
    simp [hwords, misread]

theorem writable_within_of_parse (h : parse line = .ok i) :
    i.Writable fun s => Quotable s ∧ s.toList.Sublist line.toList := by
  obtain ⟨words, hwords, hread⟩ := bind_eq_ok_iff.mp h
  obtain ⟨words', hwords', rfl⟩ := tokenize_eq_ok_iff.mp hwords
  refine writable_of_ofWords ?_ hread
  intro word hword s hs
  obtain ⟨word', hmem, rfl⟩ := List.mem_map.mp hword
  rw [String.toList_ofList] at hs
  subst hs
  have hinside : s.toList.Sublist ('"' :: (s.toList ++ ['"'])) :=
    (List.sublist_append_left _ _).cons _
  exact ⟨isWord_of_mem_words hwords' _ hmem, hinside.trans (sublist_of_mem_words hwords' hmem)⟩

theorem writable_of_parse (h : parse line = .ok i) : i.Writable Quotable :=
  (writable_within_of_parse h).mono fun _ hs => hs.1

theorem inWord_of_mem_arguments (hwritable : i.Writable Quotable) :
    ∀ argument ∈ i.arguments, argument.InWord := by
  have hlabel {label : String} (h : isLabelName label.toList = true) :
      Argument.InWord (.name label) :=
    Argument.inWord_name (isWord_of_isLabelName h)
  cases i with
  | move dest source =>
      simp [arguments, Argument.inWord_address, Argument.inWord_operand hwritable.2]
  | compute operation dest left right =>
      simp [arguments, Argument.inWord_address, Argument.inWord_operand hwritable.2.1,
        Argument.inWord_operand hwritable.2.2]
  | loadAddress dest source => simp [arguments, Argument.inWord_address]
  | call dest target =>
      cases dest with
      | none => simp [arguments, hlabel hwritable]
      | some dest => simp [arguments, Argument.inWord_address, hlabel hwritable.2]
  | jump target => simp [arguments, hlabel hwritable]
  | ret operand => simp [arguments, Argument.inWord_operand hwritable]
  | syscall name =>
      obtain rfl := List.mem_singleton.mp hwritable
      have hprintf : IsWord "printf".toList := isWord_of_plain (by decide) (by decide)
      simp [arguments, Argument.inWord_name hprintf]
  | label | leave => simp [arguments]

theorem parse_of_spells (hwritable : i.Writable Quotable) (h : i.Spells line) :
    parse line = .ok i := by
  obtain ⟨word, words, hhead, harguments, hlaid⟩ := h
  have hwords : ∀ w ∈ word :: words, IsWord w :=
    List.forall_mem_cons.mpr ⟨isWord_of_headSpelling hwritable hhead,
      Argument.isWord_of_forall₂ harguments (inWord_of_mem_arguments hwritable)⟩
  rw [parse, tokenize_eq_ok_iff.mpr ⟨_, words_of_laid hlaid hwords, rfl⟩]
  exact ofWords_of_spelling hwritable hhead harguments line

/-- The standard text and every other spelling of an instruction are read as the instruction, and
the standard text of what was read is read as the same again. -/
theorem parse_round_trip :
    (∀ (i : Instruction) (line : String), i.Writable (fun s => '"' ∉ s.toList) → i.Spells line →
      parse line = .ok i) ∧
      (∀ i : Instruction, i.Spells i.render) ∧
      ∀ (line : String) (i : Instruction), parse line = .ok i → parse i.render = .ok i := by
  refine ⟨?_, spells_render, ?_⟩
  · intro i line hwritable hspells
    exact parse_of_spells (hwritable.mono fun s hs => isWord_in_quotes hs) hspells
  · intro line i hread
    exact parse_of_spells (writable_of_parse hread) i.spells_render

theorem parse_spaced_move :
    parse " Mov [ sp[3 ] ]\t\"a b\";c" =
      .ok (.move (.reference (.slot 3)) (.literal (.text "a b"))) := by
  have hblank : Blanks [' '] := by decide
  have htab : Blanks ['\t'] := by decide
  have hindex : (Nat.toDigits 10 3).length ≤ Numeral.maxDigits := by decide
  have hquote : '"' ∉ "a b".toList := by decide
  have hmnemonic : ['M', 'o', 'v'].map Char.toLower = "mov".toList := by decide
  have hslot : (Address.slot 3).Spelling ['s', 'p', '[', '3', ' ', ']'] :=
    .slot 3 blanks_nil hblank
  refine parse_round_trip.1 _ _ ⟨hindex, hquote⟩
    ⟨_, _, hmnemonic, .cons (.reference hslot hblank hblank) (.cons rfl .nil), ?_⟩
  refine ⟨[' '], _, [';', 'c'], hblank, .cons _ (List.cons_ne_nil ' ' []) hblank
    (.cons _ (List.cons_ne_nil '\t' []) htab (.last _)), .comment blanks_nil ['c'], ?_⟩
  decide

end Instruction

end TriReg
