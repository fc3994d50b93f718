import Mathlib.Data.List.Basic
import TriReg.Proofs.Except
import TriReg.Token

/-!
Lines and their words. `follow` says which characters go on with the current word and where they
lead, and a word is a text that can be followed from its start back to a place outside quotes and
brackets. A line is split into exactly the words that are laid out in it.
-/

namespace TriReg

namespace Text

def Blanks (gap : List Char) : Prop := ∀ c ∈ gap, isBlank c = true

instance (gap : List Char) : Decidable (Blanks gap) :=
  List.decidableBAll (fun c => isBlank c = true) gap

theorem blanks_nil : Blanks [] := by
  decide

theorem squeeze_of_blanks {gap : List Char} (h : Blanks gap) : squeeze gap = [] := by
  apply List.filter_eq_nil_iff.mpr
  intro c hc
  simp [h c hc]

end Text

namespace Token

open TriReg.Text

/-- The place behind one more character of a word. There is none where the word ends, the line ends
or a bracket is stray. -/
def follow (quoted : Bool) (depth : Nat) (c : Char) : Option (Bool × Nat) :=
  if quoted then some (c != '"', depth)
  else if c = commentMark then none
  else if c = '"' then some (true, depth)
  else if c = '[' then some (false, depth + 1)
  else if c = ']' then
    match depth with
    | 0 => none
    | depth + 1 => some (false, depth)
  else if isBlank c && depth == 0 then none
  else some (false, depth)

/-- A character that stands for itself wherever it is. -/
def isPlain (c : Char) : Bool :=
  !isBlank c && c != commentMark && c != '"' && c != '[' && c != ']'

def Plain (text : List Char) : Prop := ∀ c ∈ text, isPlain c = true

instance (text : List Char) : Decidable (Plain text) :=
  List.decidableBAll (fun c => isPlain c = true) text

def walk (place : Bool × Nat) (text : List Char) : Option (Bool × Nat) :=
  text.foldlM (fun place c => follow place.1 place.2 c) place

def IsWord (word : List Char) : Prop := word ≠ [] ∧ walk (false, 0) word = some (false, 0)

/-- Words one after another, set apart by blanks. -/
inductive Spaced : List (List Char) → List Char → Prop where
  | last (word : List Char) : Spaced [word] word
  | cons (word : List Char) {gap text : List Char} {words : List (List Char)} (hne : gap ≠ [])
      (hgap : Blanks gap) (h : Spaced words text) : Spaced (word :: words) (word ++ (gap ++ text))

/-- What may stand behind the last word of a line. -/
inductive Ending : List Char → Prop where
  | blanks {gap : List Char} (hgap : Blanks gap) : Ending gap
  | comment {gap : List Char} (hgap : Blanks gap) (text : List Char) :
      Ending (gap ++ commentMark :: text)

/-- The line holds the words: blanks may stand before the first of them, and blanks and a comment
behind the last. -/
def Laid (words : List (List Char)) (line : List Char) : Prop :=
  ∃ lead text ending, Blanks lead ∧ Spaced words text ∧ Ending ending ∧
    line = lead ++ (text ++ ending)

/-- The scans of a line that succeed, by what they do with its first character. -/
inductive Scans : Bool → Nat → List Char → List Char → List (List Char) → Prop where
  | done : Scans false 0 [] [] []
  | comment (rest : List Char) : Scans false 0 (commentMark :: rest) [] []
  | blank {c : Char} {rest word : List Char} {words : List (List Char)} (hblank : isBlank c = true)
      (h : Scans false 0 rest word words) : Scans false 0 (c :: rest) [] (consWord word words)
  | follow {quoted : Bool} {depth : Nat} {c : Char} {place : Bool × Nat} {rest word : List Char}
      {words : List (List Char)} (hfollow : follow quoted depth c = some place)
      (h : Scans place.1 place.2 rest word words) : Scans quoted depth (c :: rest) (c :: word) words

variable {quoted quoted' : Bool} {depth depth' : Nat} {c : Char}
variable {word text gap ending line rest : List Char} {words' : List (List Char)}

@[simp] theorem walk_nil (place : Bool × Nat) : walk place [] = some place := rfl

@[simp] theorem walk_cons (place : Bool × Nat) (c : Char) (text : List Char) :
    walk place (c :: text) = (follow place.1 place.2 c).bind (walk · text) := by
  simp [walk, List.foldlM_cons]

@[simp] theorem walk_append (place : Bool × Nat) (text more : List Char) :
    walk place (text ++ more) = (walk place text).bind (walk · more) := by
  simp [walk, List.foldlM_append]

theorem scan_cons (quoted : Bool) (depth : Nat) (c : Char) (rest : List Char) :
    scan quoted depth (c :: rest) =
      match follow quoted depth c with
      | some (quoted', depth') =>
        (scan quoted' depth' rest).map fun split => (c :: split.1, split.2)
      | none =>
        if c = commentMark then finish false depth
        else if c = ']' then .error .strayClosingBracket
        else (words rest).map fun words' => ([], words') := by
  rw [scan.eq_def]
  dsimp only
  unfold follow
  split
  · exact bind_pure_eq_map ..
  · split
    · rfl
    · split
      · exact bind_pure_eq_map ..
      · split
        · exact bind_pure_eq_map ..
        · split
          · cases depth with
            | zero => rfl
            | succ depth => exact bind_pure_eq_map ..
          · split
            · unfold words
              cases scan false 0 rest <;> rfl
            · exact bind_pure_eq_map ..

theorem finish_eq_ok_iff {split : List Char × List (List Char)} :
    finish quoted depth = .ok split ↔ quoted = false ∧ depth = 0 ∧ split = ([], []) := by
  unfold finish
  cases quoted with
  | true => simp
  | false =>
      rw [if_neg Bool.false_ne_true]
      split <;> simp_all [eq_comm]

theorem place_of_follow_eq_none (h : follow quoted depth c = none) :
    quoted = false ∧ (c = commentMark ∨ depth = 0) := by
  unfold follow at h
  repeat' split at h
  all_goals simp_all

/-- A word ends at a comment, at a stray bracket or at a blank. -/
theorem isBlank_of_follow_eq_none (h : follow quoted depth c = none) (hcomment : c ≠ commentMark)
    (hclose : c ≠ ']') : isBlank c = true := by
  unfold follow at h
  repeat' split at h
  all_goals simp_all

theorem ne_of_isBlank {d : Char} (h : isBlank c = true) (hd : isBlank d = false) : c ≠ d := by
  rintro rfl
  rw [h] at hd
  cases hd

theorem follow_of_isBlank (h : isBlank c = true) (depth : Nat) :
    follow false depth c = if depth = 0 then none else some (false, depth) := by
  have hcomment : c ≠ commentMark := ne_of_isBlank h (by decide)
  have hquote : c ≠ '"' := ne_of_isBlank h (by decide)
  have hopen : c ≠ '[' := ne_of_isBlank h (by decide)
  have hclose : c ≠ ']' := ne_of_isBlank h (by decide)
  simp [follow, *]

theorem scan_blank_cons (h : isBlank c = true) (rest : List Char) :
    scan false 0 (c :: rest) = (words rest).map fun words' => ([], words') := by
  have hcomment : c ≠ commentMark := ne_of_isBlank h (by decide)
  have hclose : c ≠ ']' := ne_of_isBlank h (by decide)
  rw [scan_cons, follow_of_isBlank h, if_pos rfl]
  simp only [if_neg hcomment, if_neg hclose]

theorem scans_of_scan (h : scan quoted depth line = .ok (word, words')) :
    Scans quoted depth line word words' := by
  induction line generalizing quoted depth word words' with
  | nil =>
      rw [scan] at h
      obtain ⟨rfl, rfl, hsplit⟩ := finish_eq_ok_iff.mp h
      cases hsplit
      exact .done
  | cons c rest ih =>
      rw [scan_cons] at h
      cases hfollow : follow quoted depth c with
      | some place =>
          simp only [hfollow, map_eq_ok_iff] at h
          obtain ⟨⟨word₁, words₁⟩, hscan, hsplit⟩ := h
          cases hsplit
          exact .follow hfollow (ih hscan)
      | none =>
          obtain ⟨rfl, hplace⟩ := place_of_follow_eq_none hfollow
          simp only [hfollow] at h
          split_ifs at h with hcomment hclose
          · obtain ⟨-, rfl, hsplit⟩ := finish_eq_ok_iff.mp h
            cases hsplit
            exact hcomment ▸ .comment rest
          · obtain rfl := hplace.resolve_left hcomment
            obtain ⟨words₁, hwords₁, hsplit⟩ := map_eq_ok_iff.mp h
            cases hsplit
            obtain ⟨⟨word₂, words₂⟩, hscan, hcons⟩ := bind_eq_ok_iff.mp hwords₁
            cases hcons
            exact .blank (isBlank_of_follow_eq_none hfollow hcomment hclose) (ih hscan)

theorem scan_of_scans (h : Scans quoted depth line word words') :
    scan quoted depth line = .ok (word, words') := by
  induction h with
  | done | comment => rfl
  | blank hblank h ih =>
      rw [scan_blank_cons hblank, words, ih]
      rfl
  | follow hfollow h ih =>
      rw [scan_cons, hfollow]
      simp only [ih, Except.map]

theorem words_eq_ok_iff {words₁ : List (List Char)} : words line = .ok words₁ ↔
    ∃ word words', Scans false 0 line word words' ∧ consWord word words' = words₁ := by
  constructor
  · intro h
    obtain ⟨⟨word, words'⟩, hscan, hcons⟩ := bind_eq_ok_iff.mp h
    exact ⟨word, words', scans_of_scan hscan, Except.ok.inj hcons⟩
  · rintro ⟨word, words', hscans, rfl⟩
    rw [words, scan_of_scans hscans]
    rfl

theorem follow_quoted (depth : Nat) (c : Char) : follow true depth c = some (c != '"', depth) :=
  rfl

theorem follow_open (depth : Nat) : follow false depth '[' = some (false, depth + 1) := rfl

theorem follow_of_isPlain (h : isPlain c = true) (depth : Nat) :
    follow false depth c = some (false, depth) := by
  simp only [isPlain, Bool.and_eq_true, Bool.not_eq_true', bne_iff_ne] at h
  simp [follow, h]

theorem walk_of_plain (h : Plain text) (depth : Nat) :
    walk (false, depth) text = some (false, depth) := by
  induction text with
  | nil => rfl
  | cons c text ih =>
      rw [walk_cons, follow_of_isPlain (h c List.mem_cons_self)]
      exact ih fun c hc => h c (List.mem_cons_of_mem _ hc)

theorem walk_of_blanks (h : Blanks gap) (depth : Nat) :
    walk (false, depth + 1) gap = some (false, depth + 1) := by
  induction gap with
  | nil => rfl
  | cons c gap ih =>
      rw [walk_cons, follow_of_isBlank (h c List.mem_cons_self), if_neg (Nat.succ_ne_zero depth)]
      exact ih fun c hc => h c (List.mem_cons_of_mem _ hc)

theorem walk_inside_quotes (h : '"' ∉ text) (depth : Nat) :
    walk (true, depth) text = some (true, depth) := by
  induction text with
  | nil => rfl
  | cons c text ih =>
      simp only [List.mem_cons, not_or] at h
      obtain ⟨hc, htext⟩ := h
      rw [walk_cons, follow_quoted, bne_iff_ne.mpr (Ne.symm hc)]
      exact ih htext

theorem walk_in_brackets {lead tail : List Char} (hlead : Blanks lead) (htail : Blanks tail)
    (h : walk (false, depth + 1) text = some (false, depth + 1)) :
    walk (false, depth) ('[' :: (lead ++ (text ++ (tail ++ [']'])))) = some (false, depth) := by
  rw [walk_cons, follow_open]
  simp only [Option.bind_some, walk_append, walk_of_blanks hlead, h, walk_of_blanks htail]
  rfl

theorem isWord_of_plain (hne : text ≠ []) (h : Plain text) : IsWord text :=
  ⟨hne, walk_of_plain h 0⟩

theorem isWord_in_quotes (h : '"' ∉ text) : IsWord ('"' :: (text ++ ['"'])) := by
  refine ⟨List.cons_ne_nil _ _, ?_⟩
  change walk (true, 0) (text ++ ['"']) = some (false, 0)
  rw [walk_append, walk_inside_quotes h]
  rfl

theorem isBlank_of_isPlain (h : isPlain c = true) : isBlank c = false := by
  simp only [isPlain, Bool.and_eq_true, Bool.not_eq_true'] at h
  exact h.1.1.1.1

theorem isPlain_of_isAlphanum (h : c.isAlphanum = true) : isPlain c = true := by
  have hne {d : Char} (hd : d.isAlphanum = false) : c ≠ d := by
    rintro rfl
    rw [h] at hd
    cases hd
  have hblank : isBlank c = false := by
    have hrange : 48 ≤ c.toNat ∧ c.toNat ≤ 122 := by
      have hval : c.val.toNat = c.toNat := rfl
      change ((decide (65 ≤ c.val ∧ c.val ≤ 90) || (decide (97 ≤ c.val) && decide (c.val ≤ 122))) ||
        (decide (48 ≤ c.val) && decide (c.val ≤ 57))) = true at h
      simp only [Bool.or_eq_true, Bool.and_eq_true, decide_eq_true_eq,
        UInt32.le_iff_toNat_le] at h
      simp at h
      omega
    simp [isBlank]
    omega
  have hcomment : c ≠ commentMark := hne (by decide)
  have hquote : c ≠ '"' := hne (by decide)
  have hopen : c ≠ '[' := hne (by decide)
  have hclose : c ≠ ']' := hne (by decide)
  simp [isPlain, *]

theorem scan_append_of_walk (h : walk (quoted, depth) text = some (quoted', depth'))
    (rest : List Char) :
    scan quoted depth (text ++ rest) =
      (scan quoted' depth' rest).map fun split => (text ++ split.1, split.2) := by
  induction text generalizing quoted depth with
  | nil =>
      cases h
      rw [List.nil_append]
      cases scan quoted' depth' rest <;> rfl
  | cons c text ih =>
      rw [walk_cons, Option.bind_eq_some_iff] at h
      obtain ⟨⟨quoted₁, depth₁⟩, hfollow, hwalk⟩ := h
      rw [List.cons_append, scan_cons, hfollow]
      simp only [ih hwalk]
      cases scan quoted' depth' rest <;> rfl

theorem isWord_of_mem_consWord (hword : walk (false, 0) word = some (false, 0))
    (hwords : ∀ w ∈ words', IsWord w) : ∀ w ∈ consWord word words', IsWord w := by
  intro w hw
  unfold consWord at hw
  split at hw
  · exact hwords w hw
  · rename_i hempty
    rcases List.mem_cons.mp hw with rfl | hw
    · exact ⟨by simpa using hempty, hword⟩
    · exact hwords w hw

theorem walk_of_scans (h : Scans quoted depth line word words') :
    walk (quoted, depth) word = some (false, 0) ∧ ∀ w ∈ words', IsWord w := by
  induction h with
  | done | comment => exact ⟨rfl, List.forall_mem_nil _⟩
  | blank hblank h ih =>
      obtain ⟨hword, hwords⟩ := ih
      exact ⟨rfl, isWord_of_mem_consWord hword hwords⟩
  | follow hfollow h ih =>
      obtain ⟨hword, hwords⟩ := ih
      rw [walk_cons, hfollow]
      exact ⟨hword, hwords⟩

theorem isWord_of_mem_words (h : words line = .ok words') : ∀ w ∈ words', IsWord w := by
  obtain ⟨word, others, hscans, rfl⟩ := words_eq_ok_iff.mp h
  obtain ⟨hword, hwords⟩ := walk_of_scans hscans
  exact isWord_of_mem_consWord hword hwords

theorem flatten_consWord (word : List Char) (words : List (List Char)) :
    (consWord word words).flatten = word ++ words.flatten := by
  unfold consWord
  split
  · rename_i hempty
    rw [List.isEmpty_iff.mp hempty, List.nil_append]
  · rw [List.flatten_cons]

theorem sublist_of_scans (h : Scans quoted depth line word words') :
    (word ++ words'.flatten).Sublist line := by
  induction h with
  | done | comment => exact List.nil_sublist _
  | @blank c rest word words hblank h ih =>
      rw [List.nil_append, flatten_consWord]
      exact ih.cons c
  | @follow quoted depth c place rest word words hfollow h ih => exact ih.cons_cons c

theorem sublist_of_mem_words (h : words line = .ok words') (hword : word ∈ words') :
    word.Sublist line := by
  obtain ⟨first, others, hscans, rfl⟩ := words_eq_ok_iff.mp h
  have hline := sublist_of_scans hscans
  rw [← flatten_consWord] at hline
  exact (List.sublist_flatten_of_mem hword).trans hline

theorem words_blanks_append (h : Blanks gap) (rest : List Char) :
    words (gap ++ rest) = words rest := by
  induction gap with
  | nil => rfl
  | cons c gap ih =>
      have hrest := ih (fun c hc => h c (List.mem_cons_of_mem _ hc))
      rw [List.cons_append, words, scan_blank_cons (h c List.mem_cons_self), hrest]
      cases words rest <;> rfl

theorem scan_blanks_append (hne : gap ≠ []) (h : Blanks gap) (rest : List Char) :
    scan false 0 (gap ++ rest) = (words rest).map fun words' => ([], words') := by
  cases gap with
  | nil => exact absurd rfl hne
  | cons c gap =>
      rw [List.cons_append, scan_blank_cons (h c List.mem_cons_self),
        words_blanks_append (fun c hc => h c (List.mem_cons_of_mem _ hc))]

theorem words_append (hword : IsWord word) (h : scan false 0 rest = .ok ([], words')) :
    words (word ++ rest) = .ok (word :: words') := by
  rw [words, scan_append_of_walk hword.2, h]
  simp [Except.map, consWord, hword.1]

theorem scan_ending (h : Ending ending) : scan false 0 ending = .ok ([], []) := by
  have hcomment (text : List Char) : scan false 0 (commentMark :: text) = .ok ([], []) := rfl
  have hwords (text : List Char) : words (commentMark :: text) = .ok [] := rfl
  cases h with
  | blanks hgap =>
      cases ending with
      | nil => rfl
      | cons c gap =>
          have hscan := scan_blanks_append (List.cons_ne_nil c gap) hgap []
          rwa [List.append_nil] at hscan
  | @comment gap hgap text =>
      cases gap with
      | nil => exact hcomment text
      | cons c gap => rw [scan_blanks_append (List.cons_ne_nil c gap) hgap, hwords, Except.map]

theorem words_spaced_append (h : Spaced words' text) (hwords : ∀ w ∈ words', IsWord w)
    (hending : Ending ending) : words (text ++ ending) = .ok words' := by
  induction h with
  | last word => exact words_append (hwords word List.mem_cons_self) (scan_ending hending)
  | @cons word gap text words' hne hgap h ih =>
      rw [List.append_assoc, List.append_assoc]
      apply words_append (hwords word List.mem_cons_self)
      rw [scan_blanks_append hne hgap, ih (fun w hw => hwords w (List.mem_cons_of_mem _ hw)),
        Except.map]

theorem spaced_intercalate (word : List Char) (words : List (List Char)) :
    Spaced (word :: words) ([' '].intercalate (word :: words)) := by
  induction words generalizing word with
  | nil => simpa using Spaced.last word
  | cons next words ih =>
      rw [List.intercalate_cons_cons, List.append_assoc]
      exact Spaced.cons word (List.cons_ne_nil _ _) (by decide) (ih next)

theorem Ending.blanks_append (hgap : Blanks gap) (h : Ending ending) : Ending (gap ++ ending) := by
  cases h with
  | blanks htail => exact .blanks (List.forall_mem_append.mpr ⟨hgap, htail⟩)
  | @comment tail htail text =>
      rw [← List.append_assoc]
      exact .comment (List.forall_mem_append.mpr ⟨hgap, htail⟩) text

theorem Ending.append (h : Ending line) (hending : Ending ending) : Ending (line ++ ending) := by
  cases h with
  | blanks hgap => exact hending.blanks_append hgap
  | comment hgap text =>
      rw [List.append_assoc, List.cons_append]
      exact .comment hgap (text ++ ending)

theorem words_of_laid (h : Laid words' line) (hwords : ∀ w ∈ words', IsWord w) :
    words line = .ok words' := by
  obtain ⟨lead, text, ending, hlead, hspaced, hending, rfl⟩ := h
  rw [words_blanks_append hlead]
  exact words_spaced_append hspaced hwords hending

end Token

end TriReg
