import TriReg.Program.Reader
import TriReg.Proofs.Lines
import TriReg.Proofs.RoundTrip
import TriReg.Text.Padding

namespace TriReg

open TriReg.Text TriReg.Token

namespace Text

variable {c : Char} {gap : List Char}

theorem dropWhile_blanks_append (h : Blanks gap) (text : List Char) :
    (gap ++ text).dropWhile isBlank = text.dropWhile isBlank :=
  List.dropWhile_append_of_pos h

theorem trim_of_blanks (h : Blanks gap) : trim gap = [] := by
  have hdrop := dropWhile_blanks_append h []
  rw [List.append_nil] at hdrop
  rw [trim, hdrop]
  rfl

theorem exists_strip_eq_cons {drop : Char → Bool} (hc : drop c = false) (text : List Char) :
    ∃ more, (((c :: text).dropWhile drop).reverse.dropWhile drop).reverse = c :: more := by
  have hneg : ¬ drop c = true := by simp [hc]
  -- Characters are dropped from the reversed text, whose last character `c` stays.
  rw [List.dropWhile_cons_of_neg hneg, List.reverse_cons, List.dropWhile_append]
  split
  · rw [List.dropWhile_cons_of_neg hneg]
    exact ⟨[], rfl⟩
  · rw [List.reverse_append]
    exact ⟨_, rfl⟩

theorem exists_trim_eq_cons (hgap : Blanks gap) (hc : isBlank c = false) (text : List Char) :
    ∃ more, trim (gap ++ c :: text) = c :: more := by
  rw [trim, dropWhile_blanks_append hgap]
  exact exists_strip_eq_cons hc text

theorem exists_blanks_append (line : List Char) :
    ∃ gap, Blanks gap ∧ (line = gap ∨ ∃ c text, isBlank c = false ∧ line = gap ++ c :: text) := by
  induction line with
  | nil => exact ⟨[], blanks_nil, .inl rfl⟩
  | cons c line ih =>
      cases hc : isBlank c with
      | false => exact ⟨[], blanks_nil, .inr ⟨c, line, hc, rfl⟩⟩
      | true =>
          obtain ⟨gap, hgap, hline⟩ := ih
          refine ⟨c :: gap, List.forall_mem_cons.mpr ⟨hc, hgap⟩, ?_⟩
          rcases hline with rfl | ⟨d, text, hd, rfl⟩
          · exact .inl rfl
          · exact .inr ⟨d, text, hd, rfl⟩

end Text

namespace Token

variable {line ending : List Char}

theorem isSkipped_iff : isSkipped line = true ↔ Ending line := by
  constructor
  · intro h
    obtain ⟨gap, hgap, rfl | ⟨c, text, hc, rfl⟩⟩ := exists_blanks_append line
    · exact .blanks hgap
    · obtain ⟨more, htrim⟩ := exists_trim_eq_cons hgap hc text
      rw [isSkipped, htrim] at h
      rw [eq_of_beq h]
      exact .comment hgap text
  · intro h
    cases h with
    | blanks hgap => rw [isSkipped, trim_of_blanks hgap]
    | comment hgap text =>
        have hmark : isBlank commentMark = false := by decide
        obtain ⟨more, htrim⟩ := exists_trim_eq_cons hgap hmark text
        rw [isSkipped, htrim]
        exact beq_self_eq_true commentMark

theorem words_ending (h : Ending ending) : words ending = .ok [] := by
  rw [words, scan_ending h]
  rfl

end Token

theorem unbroken_of_plain {text : List Char} (h : Plain text) : Unbroken text :=
  unbroken_of_isBlank_eq_false fun c hc => isBlank_of_isPlain (h c hc)

theorem Address.unbroken_render (a : Address) : Unbroken a.render.toList := by
  apply unbroken_of_isBlank_eq_false
  intro c hc
  rw [← squeeze_of_spelling a.spelling_render, mem_squeeze_iff] at hc
  exact hc.2

namespace Operand

variable {operand : Operand}

theorem unbroken_render {texts : String → Prop} (htexts : ∀ s, texts s → Unbroken s.toList)
    (h : operand.Writable texts) : Unbroken operand.render.toList := by
  cases operand with
  | address place => exact place.unbroken_render
  | literal value =>
      cases value with
      | integer w => exact unbroken_of_plain (plain_toString w.toInt)
      | text s =>
          have hquote : Unbroken ['"'] := by decide
          rw [toList_render_text]
          exact Unbroken.append hquote ((htexts s h).append hquote)
      | pointer address => exact absurd h id
      | uninitialized => exact absurd h id

end Operand

namespace Instruction

variable {i : Instruction}

theorem unbroken_of_mem_arguments {texts : String → Prop}
    (htexts : ∀ s, texts s → Unbroken s.toList) (h : i.Writable texts) :
    ∀ argument ∈ i.arguments, Unbroken argument.render.toList := by
  have hplace (place : Address) :
      Unbroken (Argument.operand (.address place)).render.toList :=
    place.unbroken_render
  have hoperand {operand : Operand} (h : operand.Writable texts) :
      Unbroken (Argument.operand operand).render.toList :=
    Operand.unbroken_render htexts h
  have hlabel {label : String} (h : isLabelName label.toList = true) :
      Unbroken (Argument.name label).render.toList :=
    unbroken_of_plain (plain_of_isLabelName h).2
  cases i with
  | move dest source => simp [arguments, hplace, hoperand h.2]
  | compute operation dest left right =>
      simp [arguments, hplace, hoperand h.2.1, hoperand h.2.2]
  | loadAddress dest source => simp [arguments, hplace]
  | call dest target =>
      cases dest with
      | none => simp [arguments, hlabel h]
      | some dest => simp [arguments, hplace, hlabel h.2]
  | jump target => simp [arguments, hlabel h]
  | ret operand => simp [arguments, hoperand h]
  | syscall name =>
      obtain rfl := List.mem_singleton.mp h
      have hprintf : Unbroken (Argument.name "printf").render.toList :=
        unbroken_of_plain (by decide)
      simp [arguments, hprintf]
  | label | leave => simp [arguments]

theorem unbroken_render {texts : String → Prop} (htexts : ∀ s, texts s → Unbroken s.toList)
    (h : i.Writable texts) : Unbroken i.render.toList := by
  rw [render, String.toList_intercalate, List.map_cons]
  refine unbroken_intercalate (by decide) (List.forall_mem_cons.mpr ⟨?_, ?_⟩)
  · exact unbroken_of_plain (plain_of_headSpelling h i.headSpelling_head).2
  · rw [List.map_map]
    exact List.forall_mem_map.mpr (unbroken_of_mem_arguments htexts h)

theorem parse_render (h : i.Writable Quotable) :
    parse (String.ofList i.render.toList) = .ok i := by
  rw [String.ofList_toList]
  exact parse_of_spells h i.spells_render

theorem isSkipped_of_parse {line : List Char} (h : parse (String.ofList line) = .ok i) :
    isSkipped line = false := by
  rw [← Bool.not_eq_true]
  intro hskipped
  obtain ⟨words, hwords, hread⟩ := bind_eq_ok_iff.mp h
  obtain ⟨words', hwords', rfl⟩ := tokenize_eq_ok_iff.mp hwords
  rw [String.toList_ofList, words_ending (isSkipped_iff.mp hskipped)] at hwords'
  cases hwords'
  cases hread

theorem render_ne_nil (h : i.Writable Quotable) : i.render.toList ≠ [] := by
  intro hempty
  have hskipped := isSkipped_of_parse (parse_render h)
  rw [hempty] at hskipped
  cases hskipped

end Instruction

theorem onLine_eq_ok_iff {α : Type} {n : Int} {x : Except SourceError α} {a : α} :
    onLine n x = .ok a ↔ x = .ok a := by
  cases x <;> simp [onLine]

namespace Program

variable {p : Program} {source : String} {i : Instruction} {n : Nat}

theorem exists_line_of_readLines {texts : List (List Char)} {numbered : List (Nat × Instruction)}
    (h : readLines n texts = .ok numbered) :
    ∀ entry ∈ numbered, ∃ line ∈ texts, Instruction.parse (String.ofList line) = .ok entry.2 := by
  induction texts generalizing n numbered with
  | nil =>
      cases h
      exact List.forall_mem_nil _
  | cons line texts ih =>
      have hlater (entry : Nat × Instruction)
          (h : ∃ line' ∈ texts, Instruction.parse (String.ofList line') = .ok entry.2) :
          ∃ line' ∈ line :: texts, Instruction.parse (String.ofList line') = .ok entry.2 := by
        obtain ⟨line', hline', hparse⟩ := h
        exact ⟨line', List.mem_cons_of_mem line hline', hparse⟩
      rw [readLines] at h
      split at h
      · intro entry hentry
        exact hlater entry (ih h entry hentry)
      · obtain ⟨i, hi, h⟩ := bind_eq_ok_iff.mp h
        obtain ⟨others, hothers, hnumbered⟩ := bind_eq_ok_iff.mp h
        cases hnumbered
        refine List.forall_mem_cons.mpr ⟨?_, ?_⟩
        · exact ⟨line, List.mem_cons_self, onLine_eq_ok_iff.mp hi⟩
        · intro entry hentry
          exact hlater entry (ih hothers entry hentry)

theorem exists_line_of_load (h : load source = .ok p) (hi : i ∈ p.code) :
    ∃ line ∈ lines source.toList, Instruction.parse (String.ofList line) = .ok i := by
  obtain ⟨numbered, hread, hp⟩ := bind_eq_ok_iff.mp h
  cases hp
  obtain ⟨entry, hentry, rfl⟩ := List.mem_map.mp hi
  exact exists_line_of_readLines hread entry hentry

theorem writable_of_load (h : load source = .ok p) (hi : i ∈ p.code) : i.Writable Quotable := by
  obtain ⟨line, -, hparse⟩ := exists_line_of_load h hi
  exact Instruction.writable_of_parse hparse

theorem readLines_render {code : List Instruction} (h : ∀ i ∈ code, i.Writable Quotable) :
    readLines n (code.map fun i => i.render.toList) =
      .ok ((List.range' n code.length).zip code) := by
  induction code generalizing n with
  | nil => rfl
  | cons i code ih =>
      obtain ⟨hi, hcode⟩ := List.forall_mem_cons.mp h
      have hparse := Instruction.parse_render hi
      rw [List.map_cons, readLines, Instruction.isSkipped_of_parse hparse, hparse, ih hcode]
      rfl

theorem load_render {code : List Instruction}
    (h : ∀ i ∈ code, i.Writable fun s => Quotable s ∧ Unbroken s.toList) :
    load (joinLines (code.map Instruction.render)) =
      .ok { code, lineNumbers := List.range' 1 code.length } := by
  have hwritable : ∀ i ∈ code, i.Writable Quotable := fun i hi => (h i hi).mono fun s hs => hs.1
  have hlines : lines (joinLines (code.map Instruction.render)).toList =
      code.map fun i => i.render.toList := by
    rw [joinLines, String.toList_intercalate, List.map_map]
    refine lines_intercalate (List.forall_mem_map.mpr ?_)
    intro i hi
    exact ⟨Instruction.render_ne_nil (hwritable i hi),
      Instruction.unbroken_render (fun s hs => hs.2) (h i hi)⟩
  have hlength : (List.range' 1 code.length).length = code.length := List.length_range'
  rw [load, hlines, readLines_render hwritable]
  change Except.ok (ofNumbered _) = _
  simp only [ofNumbered, List.map_fst_zip hlength.le, List.map_snd_zip hlength.ge]

end Program

end TriReg
