import TriReg.Proofs.Rejection

namespace TriReg

open TriReg.Text TriReg.Token

/-- The error, on a line `k` further down. -/
def SourceError.later (k : Nat) : SourceError → SourceError
  | .malformed e => .malformed { e with line := e.line + k }
  | .numeral limit => .numeral limit

theorem SourceError.atLine_add (n k : Nat) (e : SourceError) :
    e.atLine (n + k : Nat) = (e.atLine n).later k := by
  cases e <;> rfl

namespace Program

/-- The lines of instructions increase, and there are as many as instructions. -/
def InOrder (p : Program) : Prop :=
  p.lineNumbers.Pairwise (· < ·) ∧ p.lineNumbers.length = p.code.length

/-- The results of loading two sources, and of loading the second one `k` lines below the first. -/
inductive Joined (k : Nat) :
    Except SourceError Program → Except SourceError Program → Except SourceError Program → Prop
  | firstRejected {e : SourceError} {second : Except SourceError Program} :
      Joined k (.error e) second (.error e)
  | secondRejected {p : Program} {e : ParseError} (hline : 1 ≤ e.line)
      (hmessage : e.message = "Line " ++ toString e.line ++ ": " ++ e.cause.message)
      (hlater : { e with line := e.line + k }.message =
        "Line " ++ toString (e.line + k) ++ ": " ++ e.cause.message) :
      Joined k (.ok p) (.error (.malformed e)) (.error (.malformed { e with line := e.line + k }))
  | secondTooLong {p : Program} {limit : Numeral.LimitError} :
      Joined k (.ok p) (.error (.numeral limit)) (.error (.numeral limit))
  | loaded {p q r : Program} (hcode : r.code = p.code ++ q.code)
      (hnumbers : r.lineNumbers = p.lineNumbers ++ q.lineNumbers.map (· + k))
      (hfirst : p.InOrder) (hsecond : q.InOrder) (hjoined : r.InOrder) :
      Joined k (.ok p) (.ok q) (.ok r)

section Append

variable {source : String} {p : Program} {e : ParseError}

theorem writtenLines_append (n : Nat) (texts more : List (List Char)) :
    writtenLines n (texts ++ more) =
      writtenLines n texts ++ writtenLines (n + texts.length) more := by
  rw [writtenLines, List.zipIdx_append, List.filter_append]
  rfl

theorem writtenLines_add (n k : Nat) (texts : List (List Char)) :
    writtenLines (n + k) texts = (writtenLines n texts).map (Prod.map id (· + k)) := by
  induction texts generalizing n with
  | nil => rfl
  | cons line texts ih =>
      have hnext : n + k + 1 = n + 1 + k := by omega
      rw [writtenLines_cons, writtenLines_cons, hnext, ih]
      cases isSkipped line <;> rfl

theorem writtenLines_append_nil (n : Nat) (texts : List (List Char)) :
    writtenLines n (texts ++ [[]]) = writtenLines n texts := by
  have hempty (m : Nat) : writtenLines m [[]] = [] := rfl
  rw [writtenLines_append, hempty, List.append_nil]

theorem writtenLines_append_lf (n : Nat) (text : List Char) :
    writtenLines n (lines (text ++ ['\n'])) = writtenLines n (lines text) := by
  rcases lines_append_lf_singleton text with h | h
  · rw [h]
  · rw [h, writtenLines_append_nil]

theorem sourceLines_append (first second : String) :
    sourceLines (first ++ "\n" ++ second) = sourceLines first ++
      (sourceLines second).map (Prod.map id (· + (lines (first ++ "\n").toList).length)) := by
  have htext : (first ++ "\n" ++ second).toList = first.toList ++ '\n' :: second.toList := by simp
  have hfirst : (first ++ "\n").toList = first.toList ++ ['\n'] := by simp
  rw [sourceLines, htext, lines_append_lf_append, writtenLines_append, writtenLines_append_lf,
    writtenLines_add, hfirst]
  rfl

theorem readEntry_later (k : Nat) (entry : List Char × Nat) :
    readEntry (entry.map id (· + k)) =
      ((readEntry entry).mapError (·.later k)).map (Prod.map (· + k) id) := by
  rw [readEntry, readEntry, Prod.map_fst, Prod.map_snd, id]
  cases Instruction.parse (String.ofList entry.1) with
  | ok i => rfl
  | error e =>
      have hlater := e.atLine_add entry.2 k
      simp only [onLine, hlater]
      rfl

theorem mapM_readEntry_later (k : Nat) (entries : List (List Char × Nat)) :
    (entries.map (Prod.map id (· + k))).mapM readEntry =
      ((entries.mapM readEntry).mapError (·.later k)).map (List.map (Prod.map (· + k) id)) := by
  induction entries with
  | nil => rfl
  | cons entry entries ih =>
      rw [List.map_cons, List.mapM_cons, List.mapM_cons, readEntry_later, ih]
      cases readEntry entry with
      | error e => rfl
      | ok read => cases entries.mapM readEntry <;> rfl

theorem inOrder_of_load (h : load source = .ok p) : p.InOrder := by
  refine ⟨?_, p.aligned⟩
  rw [(forall₂_of_load h).2, sourceLines, writtenLines]
  have hall : ((lines source.toList).zipIdx 1).Pairwise fun a b => a.2 < b.2 := by
    rw [← List.pairwise_map, List.zipIdx_map_snd]
    exact List.pairwise_lt_range'
  exact List.pairwise_map.mpr (hall.filter _)

theorem message_of_load (h : load source = .error (.malformed e)) :
    1 ≤ e.line ∧ e.message = "Line " ++ toString e.line ++ ": " ++ e.cause.message := by
  obtain ⟨line, n, e', hrejected, he⟩ := load_eq_error_iff.mp h
  have hn := hrejected.explained.1
  cases e' with
  | numeral limit => cases he
  | malformed e' =>
      cases he
      have hpos : (1 : Int) ≤ n := by omega
      exact ⟨hpos, if_neg (Int.ne_of_gt hpos)⟩

theorem load_append_eq (first second : String) {k : Nat}
    (hk : k = (lines (first ++ "\n").toList).length) :
    load (first ++ "\n" ++ second) = do
      let read ← (sourceLines first).mapM readEntry
      let more ← ((sourceLines second).mapM readEntry).mapError (·.later k)
      return ofNumbered (read ++ more.map (Prod.map (· + k) id)) := by
  rw [load_eq_map, sourceLines_append, ← hk, List.mapM_append, mapM_readEntry_later]
  cases (sourceLines first).mapM readEntry with
  | error e => rfl
  | ok read => cases (sourceLines second).mapM readEntry <;> rfl

/-- Two sources with a line feed between them are loaded one after the other. -/
theorem load_append (first second : String) :
    Joined (lines (first ++ "\n").toList).length (load first) (load second)
      (load (first ++ "\n" ++ second)) := by
  generalize hk : (lines (first ++ "\n").toList).length = k
  have hjoined := load_append_eq first second hk.symm
  have hfirst := load_eq_map first
  have hsecond := load_eq_map second
  cases hread : (sourceLines first).mapM readEntry with
  | error e =>
      rw [hread] at hjoined hfirst
      rw [hjoined, hfirst]
      exact .firstRejected
  | ok read =>
      rw [hread] at hjoined hfirst
      cases hmore : (sourceLines second).mapM readEntry with
      | error e =>
          rw [hmore] at hjoined hsecond
          rw [hjoined, hfirst, hsecond]
          cases e with
          | numeral limit => exact .secondTooLong
          | malformed e =>
              obtain ⟨hline, hmessage⟩ := message_of_load hsecond
              have hlater : e.line + k ≠ 0 := by omega
              exact .secondRejected hline hmessage (if_neg hlater)
      | ok more =>
          rw [hmore] at hjoined hsecond
          rw [hjoined, hfirst, hsecond]
          refine .loaded ?_ ?_ (inOrder_of_load hfirst) (inOrder_of_load hsecond)
            (inOrder_of_load hjoined)
          · simp
          · simp

/-- A carriage return at the end of the first source and the line feed behind it end one line. -/
example : load ("leave\r" ++ "\n" ++ "\x85here:") =
    .ok { code := [.leave, .label "here"], lineNumbers := [1, 3] } := by
  decide +kernel

end Append

end Program

end TriReg
