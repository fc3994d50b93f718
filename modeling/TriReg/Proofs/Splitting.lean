import TriReg.Proofs.Rejection

namespace TriReg.Token

open TriReg.Text

/-- The characters of a text, each with all that stands in front of it. -/
def placed (before : List Char) : List Char → List (List Char × Char)
  | [] => []
  | c :: text => (before, c) :: placed (before ++ [c]) text

def outsideQuotes (before : List Char) : Bool := before.count '"' % 2 == 0

/-- How often a bracket occurs in a text outside quotes. -/
def brackets (bracket : Char) (text : List Char) : Nat :=
  (placed [] text).countP fun e => outsideQuotes e.1 && e.2 == bracket

def outsideBrackets (before : List Char) : Bool := brackets '[' before == brackets ']' before

/-- The character, with what stands in front of it, is a semicolon outside quotes. -/
def startsComment (e : List Char × Char) : Bool := outsideQuotes e.1 && e.2 == commentMark

/-- The character, with what stands in front of it, is a blank outside quotes and brackets. -/
def separates (e : List Char × Char) : Bool :=
  outsideQuotes e.1 && outsideBrackets e.1 && isBlank e.2

/-- The text in front of the comment. -/
def uncommented (line : List Char) : List Char :=
  ((placed [] line).takeWhile (!startsComment ·)).map (·.2)

/-- The text without the blanks outside quotes and brackets. -/
def unspaced (text : List Char) : List Char := ((placed [] text).filter (!separates ·)).map (·.2)

/-- The words with one gap after the other between them. -/
def joined : List (List Char) → List (List Char) → List Char
  | word :: next :: words, gap :: gaps => word ++ (gap ++ joined (next :: words) gaps)
  | words, _ => words.flatten

/-- The place of a scan that has read a text. -/
structure Behind (before : List Char) (quoted : Bool) (depth : Nat) : Prop where
  quotes : outsideQuotes before = !quoted
  brackets : brackets ']' before + depth = brackets '[' before

variable {before text line word : List Char} {quoted : Bool} {depth : Nat} {c : Char}
variable {words' gaps : List (List Char)}

theorem placed_append (before text more : List Char) :
    placed before (text ++ more) = placed before text ++ placed (before ++ text) more := by
  induction text generalizing before with
  | nil => rw [List.append_nil]; rfl
  | cons c text ih => simp [placed, ih]

theorem placed_takeWhile (p : List Char × Char → Bool) (before text : List Char) :
    placed before (((placed before text).takeWhile p).map (·.2)) =
      (placed before text).takeWhile p := by
  induction text generalizing before with
  | nil => rfl
  | cons c text ih =>
      rw [placed, List.takeWhile_cons]
      split
      · rw [List.map_cons, placed, ih]
      · rfl

theorem outsideQuotes_concat (before : List Char) (c : Char) :
    outsideQuotes (before ++ [c]) = (outsideQuotes before != (c == '"')) := by
  rw [outsideQuotes, outsideQuotes, List.count_append, List.count_singleton]
  cases c == '"' with
  | true =>
      rw [if_pos rfl, Bool.bne_true, Bool.eq_iff_iff, Bool.not_eq_true', beq_iff_eq,
        beq_eq_false_iff_ne]
      omega
  | false => rw [if_neg Bool.false_ne_true, Nat.add_zero, Bool.bne_false]

theorem brackets_concat (bracket : Char) (before : List Char) (c : Char) :
    brackets bracket (before ++ [c]) =
      brackets bracket before + if outsideQuotes before && c == bracket then 1 else 0 := by
  rw [brackets, placed_append, List.countP_append]
  simp [brackets, placed, List.countP_singleton]

theorem behind_nil : Behind [] false 0 := ⟨rfl, rfl⟩

theorem Behind.follow {place : Bool × Nat} (h : Behind before quoted depth)
    (hfollow : follow quoted depth c = some place) : Behind (before ++ [c]) place.1 place.2 := by
  -- Only a quote changes sides, and only a bracket outside quotes changes the depth.
  obtain ⟨hquotes, hbrackets⟩ := h
  constructor
  · rw [outsideQuotes_concat, hquotes]
    unfold Token.follow at hfollow
    repeat' split at hfollow
    all_goals grind
  · rw [brackets_concat, brackets_concat, hquotes]
    unfold Token.follow at hfollow
    repeat' split at hfollow
    all_goals grind

theorem Behind.blank (h : Behind before false 0) (hc : isBlank c = true) :
    Behind (before ++ [c]) false 0 := by
  have hquote : c ≠ '"' := ne_of_isBlank hc (by decide)
  have hopen : c ≠ '[' := ne_of_isBlank hc (by decide)
  have hclose : c ≠ ']' := ne_of_isBlank hc (by decide)
  constructor
  · simp [outsideQuotes_concat, h.quotes, hquote]
  · simpa [brackets_concat, hopen, hclose] using h.brackets

theorem Behind.startsComment_iff (h : Behind before quoted depth) :
    startsComment (before, c) = true ↔ quoted = false ∧ c = commentMark := by
  simp [startsComment, h.quotes]

theorem Behind.separates_iff (h : Behind before quoted depth) :
    separates (before, c) = true ↔ quoted = false ∧ depth = 0 ∧ isBlank c = true := by
  have hdepth : outsideBrackets before = true ↔ depth = 0 := by
    rw [outsideBrackets, beq_iff_eq, ← h.brackets]
    omega
  rw [separates, h.quotes, Bool.and_eq_true, Bool.and_eq_true, hdepth, Bool.not_eq_true',
    and_assoc]

theorem not_of_follow_eq_some {place : Bool × Nat} (h : follow quoted depth c = some place) :
    ¬(quoted = false ∧ c = commentMark) ∧ ¬(quoted = false ∧ depth = 0 ∧ isBlank c = true) := by
  constructor
  · rintro ⟨rfl, rfl⟩
    cases h
  · rintro ⟨rfl, rfl, hc⟩
    rw [follow_of_isBlank hc] at h
    cases h

/-- A scan keeps every character in front of the comment except the blanks between words. -/
theorem flatten_scans (h : Scans quoted depth line word words')
    (hbehind : Behind before quoted depth) :
    word ++ words'.flatten =
      (((placed before line).takeWhile (!startsComment ·)).filter (!separates ·)).map (·.2) := by
  induction h generalizing before with
  | done => rfl
  | comment rest =>
      have hcomment := hbehind.startsComment_iff.mpr ⟨rfl, rfl⟩
      simp [placed, hcomment]
  | @blank c rest word words hblank h ih =>
      have hcomment : startsComment (before, c) = false := by
        rw [← Bool.not_eq_true, hbehind.startsComment_iff]
        exact fun ⟨_, hc⟩ => ne_of_isBlank hblank (by decide) hc
      have hseparates := hbehind.separates_iff.mpr ⟨rfl, rfl, hblank⟩
      simp [placed, hcomment, hseparates, flatten_consWord, ih (hbehind.blank hblank)]
  | @follow quoted depth c place rest word words hfollow h ih =>
      obtain ⟨hcomment, hseparates⟩ := not_of_follow_eq_some hfollow
      rw [← hbehind.startsComment_iff, Bool.not_eq_true] at hcomment
      rw [← hbehind.separates_iff, Bool.not_eq_true] at hseparates
      simp [placed, hcomment, hseparates, ← ih (hbehind.follow hfollow)]

theorem flatten_words (h : words line = .ok words') :
    words'.flatten = unspaced (uncommented line) := by
  obtain ⟨word, others, hscans, rfl⟩ := words_eq_ok_iff.mp h
  rw [flatten_consWord, flatten_scans hscans behind_nil, unspaced, uncommented, placed_takeWhile]

theorem spaced_joined (word : List Char) (hgaps : ∀ gap ∈ gaps, gap ≠ [] ∧ Blanks gap)
    (hlength : words'.length ≤ gaps.length) :
    Spaced (word :: words') (joined (word :: words') gaps) := by
  induction words' generalizing word gaps with
  | nil => simpa [joined] using Spaced.last word
  | cons next words' ih =>
      cases gaps with
      | nil => cases hlength
      | cons gap gaps =>
          obtain ⟨⟨hne, hgap⟩, hgaps⟩ := List.forall_mem_cons.mp hgaps
          exact .cons word hne hgap (ih next hgaps (Nat.le_of_succ_le_succ hlength))

theorem words_joined (h : words line = .ok words') (hgaps : ∀ gap ∈ gaps, gap ≠ [] ∧ Blanks gap)
    (hlength : words'.length ≤ gaps.length + 1) : words (joined words' gaps) = .ok words' := by
  cases words' with
  | nil => rfl
  | cons word words' =>
      have hspaced := spaced_joined word hgaps (Nat.le_of_succ_le_succ hlength)
      have hwords := words_spaced_append hspaced (isWord_of_mem_words h) (.blanks blanks_nil)
      rwa [List.append_nil] at hwords

/-- The words of a line are not empty. Together they are what stands in front of the comment, but
for the blanks outside quotes and brackets. Joined with any blanks, they are the words again. -/
theorem tokenize_keeps_text {line : String} {tokens : List String}
    (h : tokenize line = .ok tokens) :
    "" ∉ tokens ∧
      (tokens.map String.toList).flatten = unspaced (uncommented line.toList) ∧
      ∀ gaps : List (List Char), (∀ gap ∈ gaps, gap ≠ [] ∧ Blanks gap) →
        tokens.length ≤ gaps.length + 1 →
        tokenize (String.ofList (joined (tokens.map String.toList) gaps)) = .ok tokens := by
  have hnonempty := Instruction.empty_not_mem_of_tokenize h
  obtain ⟨words', hwords, rfl⟩ := Instruction.tokenize_eq_ok_iff.mp h
  have hback : (words'.map String.ofList).map String.toList = words' := by
    simp [Function.comp_def]
  rw [hback]
  refine ⟨hnonempty, flatten_words hwords, ?_⟩
  intro gaps hgaps hlength
  rw [List.length_map] at hlength
  refine Instruction.tokenize_eq_ok_iff.mpr ⟨words', ?_, rfl⟩
  rw [String.toList_ofList]
  exact words_joined hwords hgaps hlength

/-- A semicolon, a bracket and blanks stand in quotes, blanks stand in brackets, and a quote stands
in the comment. -/
def quotedLine : String := "mov\tsp[ 3 ]  \"a ;[ b\"; \"x"

theorem quotedLine_keeps_text :
    unspaced (uncommented quotedLine.toList) = "movsp[ 3 ]\"a ;[ b\"".toList ∧
      tokenize "mov\n sp[ 3 ] \"a ;[ b\"" = .ok ["mov", "sp[ 3 ]", "\"a ;[ b\""] := by
  have hline : tokenize quotedLine = .ok ["mov", "sp[ 3 ]", "\"a ;[ b\""] := by decide +kernel
  obtain ⟨-, htext, hjoined⟩ := tokenize_keeps_text hline
  exact ⟨htext.symm.trans (by decide +kernel),
    hjoined [['\n', ' '], [' ']] (by decide +kernel) (by decide)⟩

end TriReg.Token
