import TriReg.Proofs.Rejection

namespace TriReg

open TriReg.Text TriReg.Token

namespace Token

variable {quoted : Bool} {depth : Nat} {line word : List Char} {words' : List (List Char)}

theorem consWord_eq_nil_iff : consWord word words' = [] ↔ word = [] ∧ words' = [] := by
  unfold consWord
  split <;> simp_all

theorem ending_of_scans (h : Scans quoted depth line word words') (hword : word = [])
    (hwords : words' = []) : Ending line := by
  induction h with
  | done => exact .blanks blanks_nil
  | comment rest => exact .comment blanks_nil rest
  | blank hblank h ih =>
      obtain ⟨hword, hwords⟩ := consWord_eq_nil_iff.mp hwords
      exact (ih hword hwords).blanks_append (List.forall_mem_singleton.mpr hblank)
  | follow => cases hword

theorem ending_of_words (h : words line = .ok []) : Ending line := by
  obtain ⟨word, words', hscans, hcons⟩ := words_eq_ok_iff.mp h
  obtain ⟨hword, hwords⟩ := consWord_eq_nil_iff.mp hcons
  exact ending_of_scans hscans hword hwords

theorem tokenize_eq_nil_iff {line : String} :
    tokenize line = .ok [] ↔ words line.toList = .ok [] := by
  rw [Instruction.tokenize_eq_ok_iff]
  constructor
  · rintro ⟨words', hwords, hnil⟩
    rwa [List.map_eq_nil_iff.mp hnil] at hwords
  · intro h
    exact ⟨[], h, rfl⟩

theorem isSkipped_iff_tokenize (line : String) :
    isSkipped line.toList = true ↔ tokenize line = .ok [] := by
  rw [isSkipped_iff, tokenize_eq_nil_iff]
  exact ⟨words_ending, ending_of_words⟩

end Token

namespace Program

/-- The lines that are not split into no words, each with its number. -/
def wordedLines (source : String) : List (List Char × Nat) :=
  ((lines source.toList).zipIdx 1).filter fun entry => tokenize (String.ofList entry.1) ≠ .ok []

theorem sourceLines_eq_wordedLines (source : String) : sourceLines source = wordedLines source := by
  unfold sourceLines writtenLines wordedLines
  congr 1
  funext entry
  have hskipped := isSkipped_iff_tokenize (String.ofList entry.1)
  rw [String.toList_ofList] at hskipped
  rw [Bool.eq_iff_iff, Bool.not_eq_true', decide_eq_true_iff, ← Bool.not_eq_true, hskipped]

/-- A line is skipped if and only if it is split into no words. No such line writes an instruction,
and loading reads every other line. -/
theorem skips_lines_without_words :
    (∀ line : String, isSkipped line.toList = true ↔ tokenize line = .ok []) ∧
      (∀ line : String, isSkipped line.toList = true → ∀ i, Instruction.parse line ≠ .ok i) ∧
      ∀ source : String,
        load source = ((wordedLines source).mapM readEntry).map ofNumbered := by
  refine ⟨isSkipped_iff_tokenize, ?_, ?_⟩
  · intro line hskipped i hparse
    rw [← String.ofList_toList (s := line)] at hparse
    rw [Instruction.isSkipped_of_parse hparse] at hskipped
    cases hskipped
  · intro source
    rw [load_eq_map, sourceLines_eq_wordedLines]

end Program

end TriReg
