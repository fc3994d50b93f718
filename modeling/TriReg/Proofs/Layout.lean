import Mathlib.Logic.Relation
import TriReg.Proofs.Concatenation
import TriReg.Proofs.Reset

namespace TriReg

open TriReg.Text TriReg.Token

namespace Token

variable {quoted : Bool} {depth : Nat} {gap line ending word : List Char}
variable {words' : List (List Char)}

theorem Scans.append_ending (h : Scans quoted depth line word words') (hending : Ending ending) :
    Scans quoted depth (line ++ ending) word words' := by
  induction h with
  | done => exact scans_of_scan (scan_ending hending)
  | comment rest => exact .comment (rest ++ ending)
  | blank hblank h ih => exact .blank hblank ih
  | follow hfollow h ih => exact .follow hfollow ih

theorem words_append_ending (h : words line = .ok words') (hending : Ending ending) :
    words (line ++ ending) = .ok words' := by
  obtain ⟨word, others, hscans, hcons⟩ := words_eq_ok_iff.mp h
  exact words_eq_ok_iff.mpr ⟨word, others, hscans.append_ending hending, hcons⟩

end Token

namespace Instruction

variable {gap line ending : List Char} {i : Instruction}

theorem toOption_misread {α : Type} (cause : Misreading) (text : String) :
    (misread cause text : Except SourceError α).toOption = none := rfl

theorem toOption_readLabel (line name : String) :
    (readLabel line name).toOption = if isLabelName name.toList then some name else none := by
  unfold readLabel
  split <;> rfl

/-- The whole line is used in errors only. -/
theorem toOption_ofWords (line line' : String) (words : List String) :
    (ofWords line words).toOption = (ofWords line' words).toOption := by
  unfold ofWords
  split <;> simp only [read₁, read₂, read₃, read₄, apply_ite Except.toOption, toOption_bind,
    toOption_readLabel, toOption_misread]

theorem parse_relaid (h : parse (String.ofList line) = .ok i) (hgap : Blanks gap)
    (hending : Ending ending) : parse (String.ofList (gap ++ (line ++ ending))) = .ok i := by
  obtain ⟨words, hwords, hread⟩ := bind_eq_ok_iff.mp h
  obtain ⟨words', hwords', rfl⟩ := tokenize_eq_ok_iff.mp hwords
  rw [String.toList_ofList] at hwords'
  have hrelaid : Token.words (gap ++ (line ++ ending)) = .ok words' := by
    rw [words_blanks_append hgap, words_append_ending hwords' hending]
  refine bind_eq_ok_iff.mpr ⟨_, tokenize_eq_ok_iff.mpr ⟨words', ?_, rfl⟩, ?_⟩
  · rw [String.toList_ofList, hrelaid]
  · rwa [← toOption_eq_some_iff, toOption_ofWords _ (String.ofList line), toOption_eq_some_iff]

end Instruction

namespace Layout

/-- A line of a source, with the number that it had before the source was edited. A line that was
inserted had none. -/
structure Row where
  origin : Option Nat
  text : List Char
  deriving DecidableEq

/-- Lines that have not been edited, the first of which has number `n`. -/
def rowsOf (n : Nat) (texts : List (List Char)) : List Row :=
  (texts.zipIdx n).map fun entry => ⟨some entry.2, entry.1⟩

/-- The source that has the lines. -/
def sourceOf (rows : List Row) : String :=
  joinLines (rows.map fun row => String.ofList row.text)

/-- The place of the line that had number `n` before, counted from zero. -/
def placeOf (rows : List Row) (n : Nat) : Nat := (rows.map Row.origin).idxOf (some n)

/-- The numbers that lines had before. -/
def origins (rows : List Row) : List Nat := rows.filterMap Row.origin

/-- One change of the layout. -/
inductive Edit : List Row → List Row → Prop
  | indent {gap : List Char} (hgap : Blanks gap) (hunbroken : Unbroken gap) (row : Row)
      (rows : List Row) : Edit (row :: rows) ({ row with text := gap ++ row.text } :: rows)
  | pad {gap : List Char} (hgap : Blanks gap) (hunbroken : Unbroken gap) (row : Row)
      (rows : List Row) : Edit (row :: rows) ({ row with text := row.text ++ gap } :: rows)
  | comment {text : List Char} (hunbroken : Unbroken text) (row : Row) (rows : List Row) :
      Edit (row :: rows) ({ row with text := row.text ++ commentMark :: text } :: rows)
  | insert {text : List Char} (hskipped : Ending text) (hunbroken : Unbroken text)
      (rows : List Row) : Edit rows (⟨none, text⟩ :: rows)
  | next (row : Row) {rows rows' : List Row} (h : Edit rows rows') :
      Edit (row :: rows) (row :: rows')

/-- The lines write the numbered instructions, each with the number that its line had before. -/
inductive Reads : List Row → List (Nat × Instruction) → Prop
  | nil : Reads [] []
  | skip {row : Row} {rows : List Row} {numbered : List (Nat × Instruction)}
      (hskipped : Ending row.text) (h : Reads rows numbered) : Reads (row :: rows) numbered
  | read {n : Nat} {text : List Char} {i : Instruction} {rows : List Row}
      {numbered : List (Nat × Instruction)}
      (hparse : Instruction.parse (String.ofList text) = .ok i) (h : Reads rows numbered) :
      Reads (⟨some n, text⟩ :: rows) ((n, i) :: numbered)

section Edit

variable {row : Row} {rows rows' : List Row} {numbered : List (Nat × Instruction)}
variable {gap ending : List Char} {texts : List (List Char)} {n m : Nat}

theorem Reads.relaid (h : Reads (row :: rows) numbered) (hgap : Blanks gap)
    (hending : Ending ending) :
    Reads ({ row with text := gap ++ (row.text ++ ending) } :: rows) numbered := by
  cases h with
  | skip hskipped h => exact .skip ((hskipped.append hending).blanks_append hgap) h
  | read hparse h => exact .read (Instruction.parse_relaid hparse hgap hending) h

theorem Reads.edit (h : Reads rows numbered) (hedit : Edit rows rows') :
    Reads rows' numbered := by
  induction hedit generalizing numbered with
  | indent hgap hunbroken row rows =>
      have hrelaid := h.relaid hgap (.blanks blanks_nil)
      rwa [List.append_nil] at hrelaid
  | pad hgap hunbroken row rows => exact h.relaid blanks_nil (.blanks hgap)
  | comment hunbroken row rows => exact h.relaid blanks_nil (.comment blanks_nil _)
  | insert hskipped hunbroken rows => exact .skip hskipped h
  | next row hedit ih =>
      cases h with
      | skip hskipped h => exact .skip hskipped (ih h)
      | read hparse h => exact .read hparse (ih h)

theorem Edit.origins_eq (h : Edit rows rows') : origins rows' = origins rows := by
  induction h with
  | indent | pad | comment | insert => rfl
  | next row h ih =>
      simp only [origins, List.filterMap_cons] at ih ⊢
      rw [ih]

theorem Edit.unbroken (h : Edit rows rows') (hrows : ∀ row ∈ rows, Unbroken row.text) :
    ∀ row ∈ rows', Unbroken row.text := by
  have hmark : Unbroken [commentMark] := by decide
  induction h with
  | indent hgap hunbroken row rows =>
      obtain ⟨hrow, hrows⟩ := List.forall_mem_cons.mp hrows
      exact List.forall_mem_cons.mpr ⟨hunbroken.append hrow, hrows⟩
  | pad hgap hunbroken row rows =>
      obtain ⟨hrow, hrows⟩ := List.forall_mem_cons.mp hrows
      exact List.forall_mem_cons.mpr ⟨hrow.append hunbroken, hrows⟩
  | comment hunbroken row rows =>
      obtain ⟨hrow, hrows⟩ := List.forall_mem_cons.mp hrows
      exact List.forall_mem_cons.mpr ⟨hrow.append (hmark.append hunbroken), hrows⟩
  | insert hskipped hunbroken rows => exact List.forall_mem_cons.mpr ⟨hunbroken, hrows⟩
  | next row h ih =>
      obtain ⟨hrow, hrows⟩ := List.forall_mem_cons.mp hrows
      exact List.forall_mem_cons.mpr ⟨hrow, ih hrows⟩

theorem rowsOf_cons (n : Nat) (line : List Char) (texts : List (List Char)) :
    rowsOf n (line :: texts) = ⟨some n, line⟩ :: rowsOf (n + 1) texts := by
  rw [rowsOf, List.zipIdx_cons, List.map_cons, rowsOf]

theorem reads_rowsOf (h : Program.readLines n texts = .ok numbered) :
    Reads (rowsOf n texts) numbered := by
  induction texts generalizing n numbered with
  | nil =>
      cases h
      exact .nil
  | cons line texts ih =>
      rw [Program.readLines] at h
      rw [rowsOf_cons]
      split at h
      · rename_i hskipped
        exact .skip (isSkipped_iff.mp hskipped) (ih h)
      · obtain ⟨i, hi, h⟩ := bind_eq_ok_iff.mp h
        obtain ⟨others, hothers, hcons⟩ := bind_eq_ok_iff.mp h
        cases hcons
        exact .read (onLine_eq_ok_iff.mp hi) (ih hothers)

theorem nodup_origins_rowsOf (n : Nat) (texts : List (List Char)) :
    (origins (rowsOf n texts)).Nodup := by
  have horigins : origins (rowsOf n texts) = (texts.zipIdx n).map Prod.snd := by
    rw [origins, rowsOf, List.filterMap_map, ← List.filterMap_eq_map]
    rfl
  rw [horigins, List.zipIdx_map_snd]
  exact List.nodup_range'

theorem Reads.mem_origins (h : Reads rows numbered) : ∀ e ∈ numbered, e.1 ∈ origins rows := by
  induction h with
  | nil => exact List.forall_mem_nil _
  | @skip row rows numbered hskipped h ih =>
      intro e he
      obtain ⟨row', hrow', horigin⟩ := List.mem_filterMap.mp (ih e he)
      exact List.mem_filterMap.mpr ⟨row', List.mem_cons_of_mem _ hrow', horigin⟩
  | read hparse h ih =>
      refine List.forall_mem_cons.mpr ⟨List.mem_cons_self, ?_⟩
      intro e he
      exact List.mem_cons_of_mem _ (ih e he)

theorem getElem?_placeOf (h : m ∈ origins rows) :
    ∃ text, rows[placeOf rows m]? = some ⟨some m, text⟩ := by
  obtain ⟨row, hrow, horigin⟩ := List.mem_filterMap.mp h
  have hmem : some m ∈ rows.map Row.origin := horigin ▸ List.mem_map_of_mem hrow
  have hget := List.getElem?_idxOf hmem
  rw [List.getElem?_map, Option.map_eq_some_iff] at hget
  obtain ⟨⟨origin, text⟩, hplace, rfl⟩ := hget
  exact ⟨text, hplace⟩

theorem placeOf_cons (hnodup : (origins (row :: rows)).Nodup) (h : m ∈ origins rows) :
    placeOf (row :: rows) m = placeOf rows m + 1 := by
  have hne : row.origin ≠ some m := by
    intro horigin
    rw [origins, List.filterMap_cons_some horigin] at hnodup
    exact (List.nodup_cons.mp hnodup).1 h
  rw [placeOf, placeOf, List.map_cons, List.idxOf_cons_ne _ hne]

theorem nodup_origins_of_cons (h : (origins (row :: rows)).Nodup) : (origins rows).Nodup := by
  cases horigin : row.origin with
  | none =>
      rw [origins, List.filterMap_cons_none horigin] at h
      exact h
  | some m =>
      rw [origins, List.filterMap_cons_some horigin] at h
      exact (List.nodup_cons.mp h).2

theorem map_placeOf_cons (hnodup : (origins (row :: rows)).Nodup) (h : Reads rows numbered)
    (n : Nat) :
    numbered.map (fun e => (n + placeOf (row :: rows) e.1, e.2)) =
      numbered.map fun e => (n + 1 + placeOf rows e.1, e.2) := by
  apply List.map_congr_left
  intro e he
  rw [placeOf_cons hnodup (h.mem_origins e he), Nat.add_right_comm, Nat.add_assoc]

theorem Reads.readLines_eq (h : Reads rows numbered) (hnodup : (origins rows).Nodup) (n : Nat) :
    Program.readLines n (rows.map Row.text) =
      .ok (numbered.map fun e => (n + placeOf rows e.1, e.2)) := by
  induction h generalizing n with
  | nil => rfl
  | @skip row rows numbered hskipped h ih =>
      rw [List.map_cons, Program.readLines, if_pos (isSkipped_iff.mpr hskipped),
        ih (nodup_origins_of_cons hnodup), map_placeOf_cons hnodup h]
  | @read m text i rows numbered hparse h ih =>
      have hplace : placeOf (⟨some m, text⟩ :: rows) m = 0 := List.idxOf_cons_self
      rw [List.map_cons, Program.readLines, Instruction.isSkipped_of_parse hparse, hparse,
        ih (nodup_origins_of_cons hnodup), List.map_cons, map_placeOf_cons hnodup h, hplace]
      rfl

theorem readLines_sourceOf (hrows : ∀ row ∈ rows, Unbroken row.text) (n : Nat) :
    Program.readLines n (lines (sourceOf rows).toList) =
      Program.readLines n (rows.map Row.text) := by
  have htext : (sourceOf rows).toList = ['\n'].intercalate (rows.map Row.text) := by
    rw [sourceOf, joinLines, String.toList_intercalate, List.map_map]
    simp [Function.comp_def]
  have hunbroken : ∀ text ∈ rows.map Row.text, Unbroken text := by
    simpa using hrows
  rw [htext, Program.readLines_eq_mapM, Program.readLines_eq_mapM]
  rcases lines_intercalate_of_unbroken hunbroken with h | h
  · rw [h]
  · conv_rhs => rw [h, Program.writtenLines_append_nil]

end Edit

end Layout

namespace Session

/-- The session without the numbers of the lines of its program. -/
def unnumbered (s : Session) : Session :=
  { s with program := { code := s.program.code, lineNumbers := s.program.code.map fun _ => 0 } }

theorem hidden_unnumbered (code : List Instruction) : Hidden code unnumbered where
  code_eq _ := rfl
  machine _ := rfl
  pc _ := rfl
  runState _ := rfl
  result? _ := rfl
  untraceable _ _ _ := rfl
  withMachine _ _ := rfl
  halt _ _ := rfl
  fail _ _ := rfl
  record s line := by
    unfold record
    cases htracing : s.tracing <;> simp [unnumbered, htracing]
  print _ line? := by cases line? <;> rfl
  follow _ t := by cases t <;> rfl
  setTracing _ _ := rfl
  clearTrace _ := rfl
  reset _ := rfl

theorem transcript_of_code_eq {p q : Program} (h : q.code = p.code) (size : Nat)
    (commands : List Command) :
    (fresh q size).transcript commands = (fresh p size).transcript commands := by
  have hsame : (fresh q size).unnumbered = (fresh p size).unnumbered := by
    simp only [unnumbered, fresh, h]
  have hunseen (s : Session) : s.unnumbered.transcript commands = s.transcript commands :=
    (hidden_unnumbered s.program.code).transcript s (fun _ => rfl) rfl commands
  rw [← hunseen, hsame, hunseen]

end Session

namespace Layout

variable {source : String} {p : Program} {rows : List Row}

theorem unbroken_rowsOf (n : Nat) (text : List Char) :
    ∀ row ∈ rowsOf n (lines text), Unbroken row.text := by
  intro row hrow
  obtain ⟨entry, hentry, rfl⟩ := List.mem_map.mp hrow
  exact unbroken_of_mem_lines entry.1 (List.fst_mem_of_mem_zipIdx hentry)

/-- A source that is laid out anew is the same program. The instructions stand on the lines that
they were moved to, and checks and runs go as before. -/
theorem load_of_edits (hload : Program.load source = .ok p)
    (hedits : Relation.ReflTransGen Edit (rowsOf 1 (lines source.toList)) rows) :
    ∃ q, Program.load (sourceOf rows) = .ok q ∧ q.code = p.code ∧
      q.lineNumbers = p.lineNumbers.map (fun n => placeOf rows n + 1) ∧
      (∀ n ∈ p.lineNumbers, ∃ text, rows[placeOf rows n]? = some ⟨some n, text⟩) ∧
      q.check = p.check ∧ ∀ size commands,
        (Session.fresh q size).transcript commands =
          (Session.fresh p size).transcript commands := by
  obtain ⟨numbered, hread, hp⟩ := bind_eq_ok_iff.mp hload
  obtain rfl := Except.ok.inj hp
  have hkept : Reads rows numbered ∧ origins rows = origins (rowsOf 1 (lines source.toList)) ∧
      ∀ row ∈ rows, Unbroken row.text := by
    induction hedits with
    | refl => exact ⟨reads_rowsOf hread, rfl, unbroken_rowsOf 1 _⟩
    | tail hedits hedit ih =>
        obtain ⟨hreads, horigins, hunbroken⟩ := ih
        exact ⟨hreads.edit hedit, hedit.origins_eq.trans horigins, hedit.unbroken hunbroken⟩
  obtain ⟨hreads, horigins, hunbroken⟩ := hkept
  have hnodup : (origins rows).Nodup := by
    rw [horigins]
    exact nodup_origins_rowsOf 1 _
  have hsource := (readLines_sourceOf hunbroken 1).trans (hreads.readLines_eq hnodup 1)
  have hcode : (numbered.map fun e => (1 + placeOf rows e.1, e.2)).map (·.2) =
      numbered.map (·.2) := by
    rw [List.map_map]
    rfl
  refine ⟨_, bind_eq_ok_iff.mpr ⟨_, hsource, rfl⟩, hcode, ?_, ?_, ?_, ?_⟩
  · simp [Nat.add_comm]
  · intro n hn
    obtain ⟨e, he, rfl⟩ := List.mem_map.mp hn
    exact getElem?_placeOf (hreads.mem_origins e he)
  · exact Program.check_of_code_eq hcode
  · exact Session.transcript_of_code_eq hcode

/-- Two instructions, the first of which has a semicolon in a text. -/
def moveAndReturn : Program where
  code := [.move (.register .rax) (.literal (.text "a;b")), .ret (.address (.register .rax))]
  lineNumbers := [1, 2]

/-- The lines of these instructions, with quotes and brackets in comments. -/
def moveAndReturnRows : List Row :=
  [⟨some 1, [' '] ++ "mov rax \"a;b\"".toList ++ commentMark :: "it's [\"".toList⟩,
    ⟨none, " ; ret ]".toList⟩, ⟨some 2, "ret rax".toList ++ ['\u3000']⟩]

theorem moveAndReturn_edited : ∃ q,
    Program.load "mov rax \"a;b\"\r\nret rax" = .ok moveAndReturn ∧
      Program.load " mov rax \"a;b\";it's [\"\n ; ret ]\nret rax\u3000" = .ok q ∧
      q.code = moveAndReturn.code ∧ q.lineNumbers = [1, 3] := by
  have hload : Program.load "mov rax \"a;b\"\r\nret rax" = .ok moveAndReturn := by
    decide +kernel
  have hrows : rowsOf 1 (lines "mov rax \"a;b\"\r\nret rax".toList) =
      [⟨some 1, "mov rax \"a;b\"".toList⟩, ⟨some 2, "ret rax".toList⟩] := by
    decide +kernel
  have hedits : Relation.ReflTransGen Edit
      [⟨some 1, "mov rax \"a;b\"".toList⟩, ⟨some 2, "ret rax".toList⟩] moveAndReturnRows := by
    have hspace : Blanks [' '] ∧ Unbroken [' '] := by decide
    have hwide : Blanks ['\u3000'] ∧ Unbroken ['\u3000'] := by decide
    have hcomment : Unbroken "it's [\"".toList := by decide +kernel
    have hskipped : Ending " ; ret ]".toList := .comment hspace.1 _
    refine .head (.indent hspace.1 hspace.2 _ _) ?_
    refine .head (.comment hcomment _ _) ?_
    refine .head (.next _ (.insert hskipped (by decide +kernel) _)) ?_
    exact .head (.next _ (.next _ (.pad hwide.1 hwide.2 _ _))) .refl
  have hsource : sourceOf moveAndReturnRows =
      " mov rax \"a;b\";it's [\"\n ; ret ]\nret rax\u3000" := by
    decide +kernel
  obtain ⟨q, hq, hcode, hnumbers, -⟩ := load_of_edits hload (hrows ▸ hedits)
  exact ⟨q, hload, hsource ▸ hq, hcode, hnumbers.trans (by decide +kernel)⟩

end Layout

end TriReg
