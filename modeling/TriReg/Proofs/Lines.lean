import Mathlib.Data.List.Basic
import TriReg.Text.Blank
import TriReg.Text.Lines

namespace TriReg.Text

variable {c : Char} {line rest text more : List Char} {texts : List (List Char)}

/-- The text has no line break. -/
def Unbroken (text : List Char) : Prop := ∀ c ∈ text, isLineBreak c = false

instance (text : List Char) : Decidable (Unbroken text) :=
  List.decidableBAll (fun c => isLineBreak c = false) text

theorem isBlank_of_isLineBreak (h : isLineBreak c = true) : isBlank c = true := by
  simp only [isLineBreak, isBlank, Bool.or_eq_true, Bool.and_eq_true, decide_eq_true_eq,
    beq_iff_eq] at h ⊢
  omega

theorem unbroken_of_isBlank_eq_false (h : ∀ c ∈ text, isBlank c = false) : Unbroken text := by
  intro c hc
  cases hbreak : isLineBreak c with
  | false => rfl
  | true => rw [← h c hc, isBlank_of_isLineBreak hbreak]

theorem Unbroken.append (h : Unbroken text) (hmore : Unbroken more) : Unbroken (text ++ more) :=
  List.forall_mem_append.mpr ⟨h, hmore⟩

theorem unbroken_intercalate {separator : List Char} (hseparator : Unbroken separator)
    (h : ∀ text ∈ texts, Unbroken text) : Unbroken (separator.intercalate texts) := by
  induction texts with
  | nil =>
      rw [List.intercalate_nil]
      exact List.forall_mem_nil _
  | cons text texts ih =>
      obtain ⟨htext, htexts⟩ := List.forall_mem_cons.mp h
      cases texts with
      | nil =>
          rw [List.intercalate_singleton]
          exact htext
      | cons next texts =>
          rw [List.intercalate_cons_cons]
          exact (htext.append hseparator).append (ih htexts)

theorem lines_append_lf (h : Unbroken line) (rest : List Char) :
    lines (line ++ '\n' :: rest) = line :: lines rest := by
  induction line with
  | nil => exact lines_lf rest
  | cons c line ih =>
      obtain ⟨hc, hline⟩ := List.forall_mem_cons.mp h
      rw [List.cons_append, lines_cons_of_not_isLineBreak _ hc, ih hline, consLine]

theorem lines_of_unbroken (hne : line ≠ []) (h : Unbroken line) : lines line = [line] := by
  induction line with
  | nil => exact absurd rfl hne
  | cons c line ih =>
      obtain ⟨hc, hline⟩ := List.forall_mem_cons.mp h
      rw [lines_cons_of_not_isLineBreak _ hc]
      cases line with
      | nil => rfl
      | cons d line => rw [ih (List.cons_ne_nil d line) hline, consLine]

/-- Lines that are joined by line feeds are found again, but for an empty one at the end. -/
theorem lines_intercalate_of_unbroken (h : ∀ text ∈ texts, Unbroken text) :
    lines (['\n'].intercalate texts) = texts ∨
      texts = lines (['\n'].intercalate texts) ++ [[]] := by
  induction texts with
  | nil => exact .inl rfl
  | cons text texts ih =>
      obtain ⟨htext, htexts⟩ := List.forall_mem_cons.mp h
      cases texts with
      | nil =>
          rw [List.intercalate_singleton]
          by_cases hne : text = []
          · exact .inr (by rw [hne]; rfl)
          · exact .inl (lines_of_unbroken hne htext)
      | cons next texts =>
          rw [List.intercalate_cons_cons, List.append_assoc, List.singleton_append,
            lines_append_lf htext]
          rcases ih htexts with ih | ih
          · exact .inl (congrArg (text :: ·) ih)
          · exact .inr (congrArg (text :: ·) ih)

theorem lines_intercalate (h : ∀ text ∈ texts, text ≠ [] ∧ Unbroken text) :
    lines (['\n'].intercalate texts) = texts := by
  rcases lines_intercalate_of_unbroken fun text htext => (h text htext).2 with hlines | hlines
  · exact hlines
  · have hempty : [] ∈ texts := hlines ▸ List.mem_append_right _ List.mem_cons_self
    exact absurd rfl (h [] hempty).1

theorem unbroken_of_mem_consLine (hc : isLineBreak c = false) (h : ∀ line ∈ texts, Unbroken line) :
    ∀ line ∈ consLine c texts, Unbroken line := by
  cases texts with
  | nil =>
      have hline : Unbroken [c] := List.forall_mem_singleton.mpr hc
      exact List.forall_mem_singleton.mpr hline
  | cons line texts =>
      obtain ⟨hline, htexts⟩ := List.forall_mem_cons.mp h
      exact List.forall_mem_cons.mpr ⟨List.forall_mem_cons.mpr ⟨hc, hline⟩, htexts⟩

theorem unbroken_of_mem_lines : ∀ line ∈ lines text, Unbroken line := by
  have hempty : Unbroken [] := List.forall_mem_nil _
  fun_induction lines text with
  | case1 => exact List.forall_mem_nil _
  | case2 rest ih => exact List.forall_mem_cons.mpr ⟨hempty, ih⟩
  | case3 c rest hcrlf hbreak ih => exact List.forall_mem_cons.mpr ⟨hempty, ih⟩
  | case4 c rest hcrlf hbreak ih =>
      exact unbroken_of_mem_consLine (Bool.not_eq_true _ ▸ hbreak) ih

theorem lines_cons_of_not_crlf (h : c = '\r' → rest.head? ≠ some '\n') :
    lines (c :: rest) = if isLineBreak c then [] :: lines rest else consLine c (lines rest) := by
  rw [lines]
  rintro rest' hc rfl
  exact h hc rfl

theorem lines_cons_of_ne (h : c ≠ '\r') (rest : List Char) :
    lines (c :: rest) = if isLineBreak c then [] :: lines rest else consLine c (lines rest) :=
  lines_cons_of_not_crlf fun hc => absurd hc h

theorem consLine_append (h : texts ≠ []) (more : List (List Char)) :
    consLine c (texts ++ more) = consLine c texts ++ more := by
  cases texts with
  | nil => exact absurd rfl h
  | cons line texts => rfl

theorem consLine_ne_nil (c : Char) (texts : List (List Char)) : consLine c texts ≠ [] := by
  cases texts <;> exact List.cons_ne_nil _ _

theorem lines_ne_nil (h : text ≠ []) : lines text ≠ [] := by
  fun_cases lines text with
  | case1 => exact absurd rfl h
  | case2 rest => exact List.cons_ne_nil _ _
  | case3 c rest hcrlf hbreak => exact List.cons_ne_nil _ _
  | case4 c rest hcrlf hbreak => exact consLine_ne_nil _ _

theorem lines_break_append (hbreak : isLineBreak c = true)
    (hcrlf : ∀ rest', c = '\r' → rest = '\n' :: rest' → False) (hlone : ¬ (c = '\r' ∧ rest = []))
    (more : List Char) : lines (c :: (rest ++ more)) = [] :: lines (rest ++ more) := by
  rw [lines_cons_of_not_crlf, if_pos hbreak]
  intro hc hhead
  cases rest with
  | nil => exact hlone ⟨hc, rfl⟩
  | cons d rest =>
      obtain rfl := Option.some.inj hhead
      exact hcrlf rest hc rfl

theorem lines_append_lf_append (text more : List Char) :
    lines (text ++ '\n' :: more) = lines (text ++ ['\n']) ++ lines more := by
  fun_induction lines text with
  | case1 => simp
  | case2 rest ih => simp only [List.cons_append, lines_crlf, ih]
  | case3 c rest hcrlf hbreak ih =>
      by_cases hlone : c = '\r' ∧ rest = []
      · obtain ⟨rfl, rfl⟩ := hlone
        simp
      · have hrest := lines_break_append hbreak hcrlf hlone
        rw [List.cons_append, List.cons_append, hrest, hrest, ih, List.cons_append]
  | case4 c rest hcrlf hbreak ih =>
      have hc : isLineBreak c = false := by simpa using hbreak
      have hne : lines (rest ++ ['\n']) ≠ [] := lines_ne_nil (by simp)
      rw [List.cons_append, List.cons_append, lines_cons_of_not_isLineBreak _ hc,
        lines_cons_of_not_isLineBreak _ hc, ih, consLine_append hne]

theorem lines_append_lf_singleton (text : List Char) :
    lines (text ++ ['\n']) = lines text ∨ lines (text ++ ['\n']) = lines text ++ [[]] := by
  fun_induction lines text with
  | case1 => exact .inr rfl
  | case2 rest ih =>
      simp only [List.cons_append, lines_crlf, List.cons.injEq, true_and]
      exact ih
  | case3 c rest hcrlf hbreak ih =>
      by_cases hlone : c = '\r' ∧ rest = []
      · obtain ⟨rfl, rfl⟩ := hlone
        exact .inl rfl
      · rw [List.cons_append, lines_break_append hbreak hcrlf hlone]
        simpa using ih
  | case4 c rest hcrlf hbreak ih =>
      have hc : isLineBreak c = false := by simpa using hbreak
      rw [List.cons_append, lines_cons_of_not_isLineBreak _ hc]
      cases rest with
      | nil => exact .inl rfl
      | cons d rest =>
          rcases ih with ih | ih
          · exact .inl (by rw [ih])
          · exact .inr (by rw [ih, consLine_append (lines_ne_nil (List.cons_ne_nil d rest))])

end TriReg.Text
