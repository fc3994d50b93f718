import TriReg.Machine.Listing
import Mathlib.Data.List.Chain

namespace TriReg

namespace StackLine

/-- Puts the line of a slot in front of the lines of the slots after it. An uninitialized slot joins
a run that follows it. -/
def consSlot (v : Value) (index : Nat) (lines : List StackLine) : List StackLine :=
  match v, lines with
  | .uninitialized, .run _ last :: rest => .run index last :: rest
  | .uninitialized, _ => .run index index :: lines
  | v, _ => .slot index v :: lines

/-- The lines of the slots from `index` on, made from the last slot to the first. -/
def ofSlots (slots : List Value) (index : Nat) : List StackLine :=
  (slots.zipIdx index).foldr (fun (v, i) lines => consSlot v i lines) []

/-- Puts a run that is open in front of the lines of the slots from `index` on, where it goes on if
they start with a run. -/
def resumeRun (start? : Option Nat) (index : Nat) (lines : List StackLine) : List StackLine :=
  match start?, lines with
  | none, lines => lines
  | some start, .run _ last :: rest => .run start last :: rest
  | some start, lines => .run start (index - 1) :: lines

/-- The first index that a line is about. -/
def first : StackLine → Nat
  | .slot index _ => index
  | .run first _ => first

/-- The last index that a line is about. -/
def last : StackLine → Nat
  | .slot index _ => index
  | .run _ last => last

def isRun : StackLine → Bool
  | .slot _ _ => false
  | .run _ _ => true

/-- The lines are about the indices from `start` on that are below `stop`, in order and about each
of them once. -/
def Covers : (start : Nat) → List StackLine → (stop : Nat) → Prop
  | start, [], stop => start = stop
  | start, line :: rest, stop =>
    line.first = start ∧ start ≤ line.last ∧ Covers (line.last + 1) rest stop

end StackLine

namespace Machine

open StackLine

/-- The slots from the first to the last index are uninitialized, and the slots next to them, if
there are any, are not. -/
structure MaximalRun (m : Machine) (first last : Nat) : Prop where
  le : first ≤ last
  unset : ∀ i, first ≤ i → i ≤ last → m.stack[i]? = some .uninitialized
  before : ∀ i, i + 1 = first → m.stack[i]? ≠ some .uninitialized
  after : m.stack[last + 1]? ≠ some .uninitialized

/-- The lines are about the whole stack, slot after slot: those that hold something have a line of
their own, and the runs of uninitialized slots are as long as can be. -/
structure Partitions (m : Machine) (lines : List StackLine) : Prop where
  covers : Covers 0 lines m.stack.size
  slot_mem_iff : ∀ index v,
    .slot index v ∈ lines ↔ m.stack[index]? = some v ∧ v ≠ .uninitialized
  run_mem_iff : ∀ first last, .run first last ∈ lines ↔ m.MaximalRun first last
  apart : lines.IsChain fun line next => ¬ (line.isRun = true ∧ next.isRun = true)

/-- What a line says is true of the stack, as far as it can be seen from the slot `start` on. -/
def ShowsFrom (m : Machine) (start : Nat) : StackLine → Prop
  | .slot index v => m.stack[index]? = some v ∧ v ≠ .uninitialized
  | .run first last =>
    (∀ i, first ≤ i → i ≤ last → m.stack[i]? = some .uninitialized) ∧
      (∀ i, start ≤ i → i + 1 = first → m.stack[i]? ≠ some .uninitialized) ∧
      m.stack[last + 1]? ≠ some .uninitialized

end Machine

namespace StackLine

variable {m : Machine} {start stop index : Nat} {line : StackLine} {lines lines' : List StackLine}
variable {v : Value}

theorem Covers.le_first (h : Covers start lines stop) (hline : line ∈ lines) :
    start ≤ line.first ∧ line.first ≤ line.last := by
  induction lines generalizing start with
  | nil => cases hline
  | cons head rest ih =>
      obtain ⟨hfirst, hlast, hrest⟩ := h
      rcases List.mem_cons.mp hline with rfl | hline
      · omega
      · have := ih hrest hline
        omega

theorem Covers.exists_line (h : Covers start lines stop) (hstart : start ≤ index)
    (hstop : index < stop) : ∃ line ∈ lines, line.first ≤ index ∧ index ≤ line.last := by
  induction lines generalizing start with
  | nil =>
      have h : start = stop := h
      omega
  | cons head rest ih =>
      obtain ⟨hfirst, -, hrest⟩ := h
      rcases Nat.lt_or_ge head.last index with hlast | hlast
      · obtain ⟨line, hline, hrange⟩ := ih hrest hlast
        exact ⟨line, List.mem_cons_of_mem head hline, hrange⟩
      · exact ⟨head, List.mem_cons_self, by omega, hlast⟩

theorem Covers.start_le (h : Covers start lines stop) : start ≤ stop := by
  induction lines generalizing start with
  | nil => exact Nat.le_of_eq h
  | cons head rest ih =>
      obtain ⟨-, hlast, hrest⟩ := h
      have := ih hrest
      omega

theorem Covers.isChain (h : Covers start lines stop) :
    lines.IsChain fun line next => next.first = line.last + 1 := by
  induction lines generalizing start with
  | nil => exact .nil
  | cons head rest ih =>
      obtain ⟨-, -, hrest⟩ := h
      cases rest with
      | nil => exact .singleton head
      | cons next rest => exact .cons_cons hrest.1 (ih hrest)

/-- Two coverings are the same if a line is determined by where it starts. -/
theorem Covers.eq (h : Covers start lines stop) (h' : Covers start lines' stop)
    (hsame : ∀ line ∈ lines, ∀ line' ∈ lines', line.first = line'.first → line = line') :
    lines = lines' := by
  induction lines generalizing start lines' with
  | nil =>
      cases lines' with
      | nil => rfl
      | cons head' rest' =>
          obtain rfl : start = stop := h
          obtain ⟨-, hlast', hrest'⟩ := h'
          have := hrest'.start_le
          omega
  | cons head rest ih =>
      obtain ⟨hfirst, hlast, hrest⟩ := h
      cases lines' with
      | nil =>
          obtain rfl : start = stop := h'
          have := hrest.start_le
          omega
      | cons head' rest' =>
          obtain ⟨hfirst', -, hrest'⟩ := h'
          obtain rfl := hsame head List.mem_cons_self head' List.mem_cons_self
            (hfirst.trans hfirst'.symm)
          rw [ih hrest hrest' fun line hline line' hline' =>
            hsame line (List.mem_cons_of_mem _ hline) line' (List.mem_cons_of_mem _ hline')]

@[simp] theorem ofSlots_nil (index : Nat) : ofSlots [] index = [] := rfl

@[simp] theorem ofSlots_cons (v : Value) (slots : List Value) (index : Nat) :
    ofSlots (v :: slots) index = consSlot v index (ofSlots slots (index + 1)) := by
  rw [ofSlots, List.zipIdx_cons, List.foldr_cons, ofSlots]

theorem resumeRun_consSlot_uninitialized (start? : Option Nat) (index : Nat)
    (lines : List StackLine) :
    resumeRun start? index (consSlot .uninitialized index lines) =
      resumeRun (start?.or (some index)) (index + 1) lines := by
  cases start? with
  | none | some =>
      cases lines with
      | nil => rfl
      | cons line rest => cases line <;> rfl

theorem toList_lines_flush (listing : PartialListing) (index : Nat) :
    (listing.flush index).lines.toList =
      listing.lines.toList ++ resumeRun listing.openRun? index [] := by
  obtain ⟨lines, openRun?⟩ := listing
  cases openRun? <;> simp [PartialListing.flush, resumeRun]

theorem toList_lines_visit {v : Value} (hv : v ≠ .uninitialized) (listing : PartialListing)
    (index : Nat) (lines : List StackLine) :
    (listing.visit (v, index)).openRun? = none ∧
      (listing.visit (v, index)).lines.toList ++ lines =
        listing.lines.toList ++ resumeRun listing.openRun? index (consSlot v index lines) := by
  obtain ⟨done, openRun?⟩ := listing
  cases v with
  | uninitialized => exact absurd rfl hv
  | integer | text | pointer =>
      cases openRun? <;> simp [PartialListing.visit, PartialListing.flush, consSlot, resumeRun]

/-- The loop from the first slot to the last makes the same lines as the fold from the last slot to
the first, with an open run in front of them. -/
theorem toList_lines_foldl_visit (slots : List Value) (listing : PartialListing) (index : Nat) :
    (((slots.zipIdx index).foldl PartialListing.visit listing).flush
        (index + slots.length)).lines.toList =
      listing.lines.toList ++ resumeRun listing.openRun? index (ofSlots slots index) := by
  induction slots generalizing listing index with
  | nil => exact toList_lines_flush listing index
  | cons v slots ih =>
      have hlength : index + (v :: slots).length = index + 1 + slots.length := by
        rw [List.length_cons]
        omega
      rw [List.zipIdx_cons, List.foldl_cons, hlength, ih, ofSlots_cons]
      by_cases hv : v = .uninitialized
      · subst hv
        rw [resumeRun_consSlot_uninitialized]
        rfl
      · obtain ⟨hopen, hlines⟩ := toList_lines_visit hv listing index (ofSlots slots (index + 1))
        rw [hopen, ← hlines]
        rfl

theorem covers_consSlot (v : Value) (h : Covers (index + 1) lines stop) :
    Covers index (consSlot v index lines) stop := by
  unfold consSlot
  split
  · rename_i first last rest
    obtain ⟨hfirst, hlast, hrest⟩ := h
    exact ⟨rfl, Nat.le_of_succ_le hlast, hrest⟩
  · exact ⟨rfl, Nat.le_refl index, h⟩
  · exact ⟨rfl, Nat.le_refl index, h⟩

end StackLine

namespace Machine

open StackLine

variable {m : Machine} {first first' last last' index : Nat} {line line' : StackLine}
variable {lines lines' : List StackLine} {slots : List Value} {v : Value}

theorem MaximalRun.last_le (h : m.MaximalRun first last) (h' : m.MaximalRun first last') :
    last ≤ last' := by
  by_contra hlt
  have hle := h'.le
  exact h'.after (h.unset (last' + 1) (by omega) (by omega))

theorem MaximalRun.eq_of_le (h : m.MaximalRun first last) (h' : m.MaximalRun first' last')
    (hfirst : first' ≤ first) (hlast : first ≤ last') : first' = first ∧ last' = last := by
  obtain rfl : first' = first := by
    by_contra hne
    exact h.before (first - 1) (by omega) (h'.unset (first - 1) (by omega) (by omega))
  exact ⟨rfl, Nat.le_antisymm (h'.last_le h) (h.last_le h')⟩

/-- What a line shows from the next slot on it also shows from this one on, if a run that starts
with the next slot cannot be made longer. -/
theorem ShowsFrom.back (h : m.ShowsFrom (index + 1) line)
    (hrun : line.isRun = true → line.first = index + 1 →
      m.stack[index]? ≠ some .uninitialized) : m.ShowsFrom index line := by
  cases line with
  | slot i v => exact h
  | run first last =>
      obtain ⟨hunset, hbefore, hafter⟩ := h
      refine ⟨hunset, ?_, hafter⟩
      intro i hi hfirst
      rcases Nat.eq_or_lt_of_le hi with rfl | hi
      · exact hrun rfl hfirst.symm
      · exact hbefore i hi hfirst

theorem ShowsFrom.isRun_iff (h : m.ShowsFrom index line) (hle : line.first ≤ line.last) :
    line.isRun = true ↔ m.stack[line.first]? = some .uninitialized := by
  cases line with
  | slot i v =>
      obtain ⟨hv, hset⟩ := h
      change false = true ↔ m.stack[i]? = some .uninitialized
      simp [hv, hset]
  | run first last => exact iff_of_true rfl (h.1 first (Nat.le_refl first) hle)

theorem showsFrom_consSlot (hcovers : Covers (index + 1) lines m.stack.size)
    (hshows : ∀ line ∈ lines, m.ShowsFrom (index + 1) line) (hv : m.stack[index]? = some v) :
    ∀ line ∈ consSlot v index lines, m.ShowsFrom index line := by
  unfold consSlot
  split
  · -- The slot joins the run behind it.
    rename_i first last rest
    obtain ⟨hunset, -, hafter⟩ := hshows _ List.mem_cons_self
    obtain ⟨hfirst, hlast, hrest⟩ := hcovers
    obtain rfl : first = index + 1 := hfirst
    refine List.forall_mem_cons.mpr ⟨⟨?_, by omega, hafter⟩, ?_⟩
    · intro i hi hilast
      rcases Nat.eq_or_lt_of_le hi with rfl | hi
      · exact hv
      · exact hunset i hi hilast
    · intro line hline
      refine (hshows line (List.mem_cons_of_mem _ hline)).back fun _ hstart => ?_
      have := (hrest.le_first hline).1
      omega
  · -- The slot is a run of its own.
    rename_i hnorun
    have hafter : m.stack[index + 1]? ≠ some .uninitialized := by
      cases lines with
      | nil =>
          have hsize : index + 1 = m.stack.size := hcovers
          simp [hsize]
      | cons head rest =>
          cases head with
          | slot i w =>
              obtain ⟨hi, -⟩ := hcovers
              obtain ⟨hw, hne⟩ := hshows _ List.mem_cons_self
              obtain rfl : i = index + 1 := hi
              simp [hw, hne]
          | run first last => exact absurd rfl (hnorun first last rest)
    refine List.forall_mem_cons.mpr ⟨⟨?_, by omega, hafter⟩, ?_⟩
    · intro i hi hilast
      rwa [Nat.le_antisymm hilast hi]
    · intro line hline
      refine (hshows line hline).back fun hrun hstart => absurd ?_ hafter
      rw [← hstart]
      exact ((hshows line hline).isRun_iff (hcovers.le_first hline).2).mp hrun
  · rename_i hset _
    refine List.forall_mem_cons.mpr ⟨⟨hv, hset⟩, ?_⟩
    intro line hline
    refine (hshows line hline).back fun _ _ hunset => ?_
    exact hset (Option.some.inj (hv.symm.trans hunset))

theorem covers_and_showsFrom (m : Machine) (slots : List Value) (index : Nat)
    (hslots : ∀ i, slots[i]? = m.stack[index + i]?) (hsize : index + slots.length = m.stack.size) :
    Covers index (ofSlots slots index) m.stack.size ∧
      ∀ line ∈ ofSlots slots index, m.ShowsFrom index line := by
  induction slots generalizing index with
  | nil => exact ⟨hsize, List.forall_mem_nil _⟩
  | cons v slots ih =>
      have hv : m.stack[index]? = some v := (hslots 0).symm
      have hrest (i : Nat) : slots[i]? = m.stack[index + 1 + i]? := by
        rw [Nat.add_right_comm]
        exact hslots (i + 1)
      rw [List.length_cons] at hsize
      obtain ⟨hcovers, hshows⟩ := ih (index + 1) hrest (by omega)
      rw [ofSlots_cons]
      exact ⟨covers_consSlot v hcovers, showsFrom_consSlot hcovers hshows hv⟩

theorem maximalRun_iff_showsFrom (hle : first ≤ last) :
    m.MaximalRun first last ↔ m.ShowsFrom 0 (.run first last) := by
  constructor
  · intro h
    exact ⟨h.unset, fun i _ => h.before i, h.after⟩
  · rintro ⟨hunset, hbefore, hafter⟩
    exact ⟨hle, hunset, fun i => hbefore i (Nat.zero_le i), hafter⟩

theorem maximalRun_of_mem (hcovers : Covers 0 lines m.stack.size)
    (hshows : ∀ line ∈ lines, m.ShowsFrom 0 line) (h : .run first last ∈ lines) :
    m.MaximalRun first last :=
  (maximalRun_iff_showsFrom (hcovers.le_first h).2).mpr (hshows _ h)

theorem partitions_of_shows (hcovers : Covers 0 lines m.stack.size)
    (hshows : ∀ line ∈ lines, m.ShowsFrom 0 line) : m.Partitions lines where
  covers := hcovers
  slot_mem_iff index v := by
    refine ⟨hshows (.slot index v), ?_⟩
    rintro ⟨hv, hset⟩
    obtain ⟨hsize, -⟩ := Array.getElem?_eq_some_iff.mp hv
    obtain ⟨line, hline, hfirst, hlast⟩ := hcovers.exists_line (Nat.zero_le index) hsize
    cases line with
    | slot i w =>
        obtain rfl : i = index := Nat.le_antisymm hfirst hlast
        obtain ⟨hw, -⟩ := hshows _ hline
        obtain rfl : w = v := Option.some.inj (hw.symm.trans hv)
        exact hline
    | run first last =>
        have hunset := (maximalRun_of_mem hcovers hshows hline).unset index hfirst hlast
        exact absurd (Option.some.inj (hv.symm.trans hunset)) hset
  run_mem_iff first last := by
    refine ⟨maximalRun_of_mem hcovers hshows, ?_⟩
    intro h
    have hunset := h.unset first (Nat.le_refl first) h.le
    obtain ⟨hsize, -⟩ := Array.getElem?_eq_some_iff.mp hunset
    obtain ⟨line, hline, hfirst, hlast⟩ := hcovers.exists_line (Nat.zero_le first) hsize
    cases line with
    | slot i w =>
        obtain rfl : i = first := Nat.le_antisymm hfirst hlast
        obtain ⟨hw, hset⟩ := hshows _ hline
        exact absurd (Option.some.inj (hw.symm.trans hunset)) hset
    | run first' last' =>
        obtain ⟨rfl, rfl⟩ := h.eq_of_le (maximalRun_of_mem hcovers hshows hline) hfirst hlast
        exact hline
  apart := by
    refine hcovers.isChain.imp_of_mem_imp ?_
    rintro line next hline hnext hfirst ⟨hrun, hrun'⟩
    have hunset := ((hshows next hnext).isRun_iff (hcovers.le_first hnext).2).mp hrun'
    cases line with
    | slot => cases hrun
    | run first last => exact (maximalRun_of_mem hcovers hshows hline).after (hfirst ▸ hunset)

theorem stackLines_eq_ofSlots (m : Machine) : m.stackLines = ofSlots m.stack.toList 0 := by
  have hloop := toList_lines_foldl_visit m.stack.toList {} 0
  rw [Array.length_toList, Nat.zero_add] at hloop
  exact hloop

theorem partitions_stackLines (m : Machine) : m.Partitions m.stackLines := by
  rw [stackLines_eq_ofSlots]
  obtain ⟨hcovers, hshows⟩ := covers_and_showsFrom m m.stack.toList 0 (by simp) (by simp)
  exact partitions_of_shows hcovers hshows

theorem Partitions.showsFrom (h : m.Partitions lines) (hline : line ∈ lines) :
    m.ShowsFrom 0 line := by
  cases line with
  | slot index v => exact (h.slot_mem_iff index v).mp hline
  | run first last =>
      have hrun := (h.run_mem_iff first last).mp hline
      exact (maximalRun_iff_showsFrom hrun.le).mp hrun

theorem ShowsFrom.eq (h : m.ShowsFrom 0 line) (h' : m.ShowsFrom 0 line')
    (hle : line.first ≤ line.last) (hle' : line'.first ≤ line'.last)
    (hfirst : line.first = line'.first) : line = line' := by
  have hrun : line.isRun = true ↔ line'.isRun = true := by
    rw [h.isRun_iff hle, h'.isRun_iff hle', hfirst]
  cases line with
  | slot index v =>
      cases line' with
      | slot index' v' =>
          obtain rfl : index = index' := hfirst
          rw [Option.some.inj (h.1.symm.trans h'.1)]
      | run => simp [isRun] at hrun
  | run first last =>
      cases line' with
      | slot => simp [isRun] at hrun
      | run first' last' =>
          obtain rfl : first = first' := hfirst
          have hmaximal := (maximalRun_iff_showsFrom hle).mpr h
          have hmaximal' := (maximalRun_iff_showsFrom hle').mpr h'
          obtain ⟨-, rfl⟩ := hmaximal.eq_of_le hmaximal' (Nat.le_refl first) hle'
          rfl

theorem Partitions.eq (h : m.Partitions lines) (h' : m.Partitions lines') : lines = lines' := by
  refine h.covers.eq h'.covers ?_
  intro line hline line' hline' hfirst
  exact (h.showsFrom hline).eq (h'.showsFrom hline') (h.covers.le_first hline).2
    (h'.covers.le_first hline').2 hfirst

/-- The listing of a stack is what the lines show that partition it, of which there is one list. -/
theorem stackListing_eq_iff (m : Machine) (texts : List String) :
    m.stackListing = texts ↔ ∃ lines, m.Partitions lines ∧ lines.map StackLine.display = texts := by
  constructor
  · rintro rfl
    exact ⟨m.stackLines, m.partitions_stackLines, rfl⟩
  · rintro ⟨lines, hlines, rfl⟩
    rw [stackListing, hlines.eq m.partitions_stackLines]

/-- A run that ends with the stack is listed, also if it has one slot. -/
example : stackListing { stack := #[.uninitialized, .uninitialized, .text "x", .uninitialized] } =
    ["0..1: Uninitialized", "2: String 'x'", "3..3: Uninitialized"] := by
  decide +kernel

end Machine

end TriReg
