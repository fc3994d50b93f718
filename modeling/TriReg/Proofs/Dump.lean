import TriReg.Proofs.Representation
import TriReg.Proofs.StackListing

/-!
Dumps lose nothing. The display of a value says which value it is, and the lines of a stack listing
say what every slot holds, so the listing can be expanded to the stack again. The values that a
session of a loaded program holds show no line break, so the lines of its dump are found again in
the text, and the dump of a session says its position, its registers and its stack
(`Session.dump_eq_iff`).
-/

namespace TriReg

open TriReg.Text

namespace Text

theorem digits_append_inj {digits digits' rest rest' : List Char}
    (hdigits : ∀ c ∈ digits, c.isDigit = true) (hdigits' : ∀ c ∈ digits', c.isDigit = true)
    (hrest : ∀ c ∈ rest.head?, c.isDigit = false) (hrest' : ∀ c ∈ rest'.head?, c.isDigit = false)
    (h : digits ++ rest = digits' ++ rest') : digits = digits' ∧ rest = rest' := by
  rcases List.append_eq_append_iff.mp h with ⟨more, rfl, rfl⟩ | ⟨more, rfl, rfl⟩
  · cases more with
    | nil => simp
    | cons c more =>
        have hdigit := hdigits' c (by simp)
        rw [hrest c rfl] at hdigit
        cases hdigit
  · cases more with
    | nil => simp
    | cons c more =>
        have hdigit := hdigits c (by simp)
        rw [hrest' c rfl] at hdigit
        cases hdigit

theorem toString_int_injective : Function.Injective (toString : Int → String) := by
  intro m n h
  have hdigits := Operand.signedDigits?_toString m
  rw [h, Operand.signedDigits?_toString, Option.some.injEq, Prod.mk.injEq,
    decide_eq_decide] at hdigits
  obtain ⟨hsign, habs⟩ := hdigits
  have hvalue := congrArg decimalValue habs
  rw [decimalValue_toDigits, decimalValue_toDigits] at hvalue
  omega

theorem toString_append_inj {m n : Nat} {rest rest' : String}
    (hrest : ∀ c ∈ rest.toList.head?, c.isDigit = false)
    (hrest' : ∀ c ∈ rest'.toList.head?, c.isDigit = false)
    (h : toString m ++ rest = toString n ++ rest') : m = n ∧ rest = rest' := by
  have hdigit (k : Nat) : ∀ c ∈ Nat.toDigits 10 k, c.isDigit = true :=
    fun c hc => Nat.isDigit_of_mem_toDigits (by decide) (by decide) hc
  rw [← String.toList_inj, String.toList_append, String.toList_append, Nat.toString_eq_repr,
    Nat.toString_eq_repr, Nat.toList_repr, Nat.toList_repr] at h
  obtain ⟨hdigits, hsame⟩ := digits_append_inj (hdigit m) (hdigit n) hrest hrest' h
  have hvalue := congrArg decimalValue hdigits
  rw [decimalValue_toDigits, decimalValue_toDigits] at hvalue
  exact ⟨hvalue, String.toList_inj.mp hsame⟩

theorem toString_nat_injective : Function.Injective (toString : Nat → String) := by
  intro m n h
  have hend : ∀ c ∈ "".toList.head?, c.isDigit = false := by simp
  exact (toString_append_inj hend hend (congrArg (· ++ "") h)).1

end Text

section Display

theorem toList_slotText (index : Nat) : ∃ count, (slotText index).toList =
    '0' :: 'x' :: (List.replicate count '0' ++ (Nat.toDigits 16 index).map Char.toUpper) :=
  ⟨_, by simp [slotText]; rfl⟩

theorem slotText_injective : Function.Injective slotText := by
  have hvalue (index : Nat) :
      Numeral.Base.hexadecimal.value ((slotText index).toList.drop 2) = index := by
    have hshown : ∀ d < 16, Text.hexDigitValue? (Nat.digitChar d).toUpper = some d := by decide
    obtain ⟨count, hcount⟩ := toList_slotText index
    rw [hcount, List.drop_succ_cons, List.drop_succ_cons, List.drop_zero,
      Numeral.Base.value_zeros_append]
    exact Numeral.Base.value_map_toDigits .hexadecimal hshown index
  intro i j h
  rw [← hvalue i, h, hvalue j]

/-- The first character of the text of a pointer. -/
def Address.mark : Address → Char
  | .register _ => 'r'
  | .slot _ => '0'
  | .reference _ => '['

theorem Address.head?_pointerText (a : Address) : a.pointerText.toList.head? = some a.mark := by
  cases a with
  | register r => cases r <;> rfl
  | slot index =>
      obtain ⟨count, hcount⟩ := toList_slotText index
      rw [pointerText, hcount]
      rfl
  | reference target =>
      rw [pointerText, String.toList_append, String.toList_append]
      rfl

theorem Address.mark_eq_of_pointerText {a b : Address} (h : a.pointerText = b.pointerText) :
    a.mark = b.mark := by
  rw [← Option.some.injEq, ← head?_pointerText, ← head?_pointerText, h]

theorem Register.name_injective : Function.Injective Register.name := by
  intro r r' h
  cases r <;> cases r' <;> first | rfl | exact absurd h (by decide)

theorem Address.pointerText_injective : Function.Injective Address.pointerText := by
  intro a b h
  -- The mark rules out different constructors, also for the target of a reference.
  have hmark := mark_eq_of_pointerText h
  induction a generalizing b with
  | register r =>
      cases b with
      | register r' => rw [Register.name_injective h]
      | slot | reference => cases hmark
  | slot index =>
      cases b with
      | slot index' => rw [slotText_injective h]
      | register | reference => cases hmark
  | reference target ih =>
      cases b with
      | reference target' =>
          have htarget : target.pointerText = target'.pointerText :=
            (String.append_right_inj _).mp ((String.append_left_inj _).mp h)
          rw [ih htarget (mark_eq_of_pointerText htarget)]
      | register | slot => cases hmark

/-- The first letter of the display of a value. -/
def Value.mark : Value → Char
  | .integer _ => 'I'
  | .text _ => 'S'
  | .pointer _ => 'P'
  | .uninitialized => 'U'

theorem Value.head?_display (v : Value) : v.display.toList.head? = some v.mark := by
  cases v with
  | integer | text =>
      rw [display, String.toList_append, String.toList_append]
      rfl
  | pointer address =>
      rw [display, String.toList_append]
      rfl
  | uninitialized => rfl

theorem Value.display_injective : Function.Injective Value.display := by
  intro v w h
  have hmark : v.mark = w.mark := by
    rw [← Option.some.injEq, ← head?_display, ← head?_display, h]
  cases v with
  | integer m =>
      cases w with
      | integer n =>
          have htext : toString m.toInt = toString n.toInt :=
            (String.append_right_inj _).mp ((String.append_left_inj _).mp h)
          rw [Int64.toInt_inj.mp (toString_int_injective htext)]
      | text | pointer | uninitialized => cases hmark
  | text s =>
      cases w with
      | text t => rw [(String.append_right_inj _).mp ((String.append_left_inj _).mp h)]
      | integer | pointer | uninitialized => cases hmark
  | pointer a =>
      cases w with
      | pointer b => rw [Address.pointerText_injective ((String.append_right_inj _).mp h)]
      | integer | text | uninitialized => cases hmark
  | uninitialized =>
      cases w with
      | uninitialized => rfl
      | integer | text | pointer => cases hmark

end Display

namespace StackLine

/-- What a line of a listing shows behind the index of its first slot. -/
def slotRest (v : Value) : String := ": " ++ v.display

def runRest (last : Nat) : String :=
  ".." ++ (toString last ++ (": " ++ Value.uninitialized.display))

theorem display_slot (index : Nat) (v : Value) :
    (slot index v).display = toString index ++ slotRest v :=
  String.append_assoc

theorem display_run (first last : Nat) :
    (run first last).display = toString first ++ runRest last := by
  simp only [display, runRest, String.append_assoc]

theorem head?_slotRest (v : Value) : (slotRest v).toList.head? = some ':' := by
  rw [slotRest, String.toList_append]
  rfl

theorem head?_runRest (last : Nat) : (runRest last).toList.head? = some '.' := by
  rw [runRest, String.toList_append]
  rfl

theorem display_injective : Function.Injective display := by
  have hslot (v : Value) : ∀ c ∈ (slotRest v).toList.head?, c.isDigit = false := by
    simp [head?_slotRest]
  have hrun (last : Nat) : ∀ c ∈ (runRest last).toList.head?, c.isDigit = false := by
    simp [head?_runRest]
  have hne (v : Value) (last : Nat) : slotRest v ≠ runRest last := by
    intro h
    have hhead := head?_slotRest v
    rw [h, head?_runRest] at hhead
    cases hhead
  intro k l h
  cases k with
  | slot i v =>
      cases l with
      | slot j w =>
          rw [display_slot, display_slot] at h
          obtain ⟨rfl, hrest⟩ := toString_append_inj (hslot v) (hslot w) h
          rw [Value.display_injective ((String.append_right_inj _).mp hrest)]
      | run first last =>
          rw [display_slot, display_run] at h
          exact absurd (toString_append_inj (hslot v) (hrun last) h).2 (hne v last)
  | run first last =>
      cases l with
      | slot j w =>
          rw [display_slot, display_run] at h
          exact absurd (toString_append_inj (hrun last) (hslot w) h).2.symm (hne w last)
      | run first' last' =>
          rw [display_run, display_run] at h
          obtain ⟨rfl, hrest⟩ := toString_append_inj (hrun last) (hrun last') h
          have hlast := (String.append_right_inj _).mp hrest
          rw [toString_nat_injective ((String.append_left_inj _).mp hlast)]

/-- The values of the slots that a line is about. -/
def values : StackLine → List Value
  | .slot _ v => [v]
  | .run first last => List.replicate (last + 1 - first) .uninitialized

/-- A run in front of the lines starts at the index and is not empty. -/
def StartAt (index : Nat) (lines : List StackLine) : Prop :=
  ∀ first last rest, lines = .run first last :: rest → first = index ∧ first ≤ last

theorem startAt_consSlot {index : Nat} {lines : List StackLine} (v : Value)
    (h : StartAt (index + 1) lines) : StartAt index (consSlot v index lines) := by
  intro first last rest heq
  unfold consSlot at heq
  split at heq
  · cases heq
    have hrun := h _ _ _ rfl
    omega
  · cases heq
    omega
  · cases heq

theorem values_consSlot {index : Nat} {lines : List StackLine} (v : Value)
    (h : StartAt (index + 1) lines) :
    (consSlot v index lines).flatMap values = v :: lines.flatMap values := by
  unfold consSlot
  split
  · rename_i first last rest
    obtain ⟨rfl, hle⟩ := h _ _ _ rfl
    have hlength : last + 1 - index = (last + 1 - (index + 1)) + 1 := by omega
    simp only [List.flatMap_cons, values, hlength, List.replicate_succ, List.cons_append]
  · simp [values]
  · simp [values]

theorem values_listing (slots : List Value) (index : Nat) :
    StartAt index (ofSlots slots index) ∧ (ofSlots slots index).flatMap values = slots := by
  induction slots generalizing index with
  | nil =>
      refine ⟨?_, rfl⟩
      rintro first last rest ⟨⟩
  | cons v slots ih =>
      obtain ⟨hstart, hvalues⟩ := ih (index + 1)
      rw [ofSlots_cons]
      refine ⟨startAt_consSlot v hstart, ?_⟩
      rw [values_consSlot v hstart, hvalues]

end StackLine

namespace Machine

variable {m m' : Machine}

theorem values_stackLines (m : Machine) :
    m.stackLines.flatMap StackLine.values = m.stack.toList := by
  rw [stackLines_eq_ofSlots]
  exact (StackLine.values_listing m.stack.toList 0).2

theorem stack_eq_of_stackListing (h : m.stackListing = m'.stackListing) : m.stack = m'.stack := by
  have hlines : m.stackLines = m'.stackLines :=
    List.map_injective_iff.mpr StackLine.display_injective h
  rw [← Array.toList_inj, ← values_stackLines, ← values_stackLines, hlines]

theorem unbroken_of_mem_stackListing (h : m.IsOneLine) :
    ∀ line ∈ m.stackListing, Unbroken line.toList := by
  refine List.forall_mem_map.mpr ?_
  intro line hline
  cases line with
  | slot index v =>
      have hv : v ∈ m.stack.toList := by
        rw [← values_stackLines]
        exact List.mem_flatMap.mpr ⟨_, hline, List.mem_singleton_self v⟩
      rw [StackLine.display]
      refine unbroken_toList_append (unbroken_toList_append ?_ (unbroken_ofList rfl)) ?_
      · exact unbroken_toString index
      · exact Value.unbroken_display (h v (.slot (Array.mem_toList_iff.mp hv)))
  | run first last =>
      rw [StackLine.display]
      refine unbroken_toList_append (unbroken_toList_append (unbroken_toList_append
        (unbroken_toList_append ?_ (unbroken_ofList rfl)) ?_) (unbroken_ofList rfl))
        (unbroken_ofList rfl)
      · exact unbroken_toString first
      · exact unbroken_toString last

end Machine

namespace Session

variable {s t : Session}

/-- The lines of a dump. -/
def dumpLines (s : Session) : List String :=
  ["pc: " ++ toString s.pc, "rax: " ++ s.machine.registers.rax.display,
    "rbx: " ++ s.machine.registers.rbx.display, "rcx: " ++ s.machine.registers.rcx.display,
    "stack:"] ++ s.machine.stackListing.map ("  " ++ ·)

theorem dump_eq_joinLines (s : Session) : s.dump = joinLines s.dumpLines :=
  String.intercalate_cons_cons.symm

theorem unbroken_of_mem_dumpLines (h : s.machine.IsOneLine) :
    ∀ line ∈ s.dumpLines, line.toList ≠ [] ∧ Unbroken line.toList := by
  have hlabeled {label text : String} (hlabel : label.toList.all (!isLineBreak ·) = true)
      (hne : label.toList ≠ []) (htext : Unbroken text.toList) :
      (label ++ text).toList ≠ [] ∧ Unbroken (label ++ text).toList := by
    rw [← String.ofList_toList (s := label)]
    refine ⟨?_, unbroken_toList_append (unbroken_ofList hlabel) htext⟩
    simp [hne]
  have hregister (r : Register) : Unbroken (s.machine.registers.get r).display.toList :=
    Value.unbroken_display (h _ (.register r rfl))
  simp only [dumpLines, List.forall_mem_append, List.forall_mem_cons, List.forall_mem_map]
  refine ⟨⟨hlabeled rfl (by simp) (unbroken_toString s.pc), hlabeled rfl (by simp) (hregister .rax),
    hlabeled rfl (by simp) (hregister .rbx), hlabeled rfl (by simp) (hregister .rcx),
    ⟨by simp, unbroken_ofList rfl⟩, by simp⟩, ?_⟩
  intro line hline
  exact hlabeled rfl (by simp) (Machine.unbroken_of_mem_stackListing h line hline)

theorem lines_dump (h : s.machine.IsOneLine) :
    lines s.dump.toList = s.dumpLines.map String.toList := by
  rw [dump_eq_joinLines, joinLines, String.toList_intercalate]
  exact lines_intercalate (List.forall_mem_map.mpr (unbroken_of_mem_dumpLines h))

theorem eq_of_dumpLines (h : s.dumpLines = t.dumpLines) :
    s.pc = t.pc ∧ s.machine.registers = t.machine.registers ∧
      s.machine.stack = t.machine.stack := by
  simp only [dumpLines, List.cons_append, List.nil_append, List.cons.injEq,
    String.append_right_inj] at h
  obtain ⟨hpc, hrax, hrbx, hrcx, -, hstack⟩ := h
  refine ⟨toString_int_injective hpc, Registers.ext_get ?_, Machine.stack_eq_of_stackListing ?_⟩
  · intro r
    cases r with
    | rax => exact Value.display_injective hrax
    | rbx => exact Value.display_injective hrbx
    | rcx => exact Value.display_injective hrcx
  · exact List.map_injective_iff.mpr (fun _ _ => (String.append_right_inj "  ").mp) hstack

/-- The dump of a session of a loaded program shows its position, its registers and the value of
every slot of its stack, and nothing besides. -/
theorem dump_eq_iff {p q : Program} {source source' : String} {m n : Nat}
    (hp : Program.load source = .ok p) (hq : Program.load source' = .ok q)
    (hs : Reachable p m s) (ht : Reachable q n t) :
    s.dump = t.dump ↔ s.pc = t.pc ∧ s.machine.registers = t.machine.registers ∧
      s.machine.stack = t.machine.stack := by
  constructor
  · intro h
    have hlines := lines_dump (hs.machine_isOneLine hp)
    rw [h, lines_dump (ht.machine_isOneLine hq)] at hlines
    exact eq_of_dumpLines (List.map_injective_iff.mpr (fun _ _ => String.toList_inj.mp) hlines).symm
  · rintro ⟨hpc, hregisters, hstack⟩
    simp only [dump, Machine.display, Machine.stackListing, Machine.stackLines, hpc, hregisters,
      hstack]

/-- Stores a text that looks like a line of a listing. -/
def storesFirst : Program where
  code := [.move (.slot 2) (.literal (.text "0..1: Uninitialized")),
    .loadAddress (.register .rax) (.slot 255)]
  lineNumbers := [1, 2]

def storesLast : Program where
  code := [.loadAddress (.register .rax) (.slot 255),
    .move (.slot 2) (.literal (.text "0..1: Uninitialized"))]
  lineNumbers := [1, 3]

def storedMachine : Machine where
  registers := { rax := .pointer (.slot 255) }
  stack := #[.uninitialized, .uninitialized, .text "0..1: Uninitialized", .uninitialized]

theorem dump_storesFirst_eq_dump_storesLast : ∃ s t,
    Program.load "mov sp[2] \"0..1: Uninitialized\"\nlea rax sp[255]\n" = .ok storesFirst ∧
      Program.load "lea rax sp[255]\n\nmov sp[2] \"0..1: Uninitialized\"" = .ok storesLast ∧
      Reachable storesFirst 4 s ∧ Reachable storesLast 4 t ∧ s.machine.stack.size = 4 ∧
      s.machine.registers.rax = .pointer (.slot 255) ∧ s.dump = t.dump ∧ s.pc = t.pc ∧
      s.machine.registers = t.machine.registers ∧ s.machine.stack = t.machine.stack := by
  have hfirst : Program.load "mov sp[2] \"0..1: Uninitialized\"\nlea rax sp[255]\n" =
      .ok storesFirst := by decide +kernel
  have hlast : Program.load "lea rax sp[255]\n\nmov sp[2] \"0..1: Uninitialized\"" =
      .ok storesLast := by decide +kernel
  have hs : ((fresh storesFirst 4).after? 2).map (fun s => (s.pc, s.machine)) =
      some (2, storedMachine) := by decide
  have ht : ((fresh storesLast 4).after? 2).map (fun s => (s.pc, s.machine)) =
      some (2, storedMachine) := by decide
  obtain ⟨s, hsrun, hs⟩ := Option.map_eq_some_iff.mp hs
  obtain ⟨t, htrun, ht⟩ := Option.map_eq_some_iff.mp ht
  obtain ⟨hspc, hsmachine⟩ := Prod.mk.inj hs
  obtain ⟨htpc, htmachine⟩ := Prod.mk.inj ht
  have hsreach := Reachable.fresh.after? hsrun
  have htreach := Reachable.fresh.after? htrun
  have hmachine : s.machine = t.machine := hsmachine.trans htmachine.symm
  have hsame : s.pc = t.pc ∧ s.machine.registers = t.machine.registers ∧
      s.machine.stack = t.machine.stack :=
    ⟨hspc.trans htpc.symm, congrArg _ hmachine, congrArg _ hmachine⟩
  refine ⟨s, t, hfirst, hlast, hsreach, htreach, hsreach.size_stack, ?_, ?_, hsame⟩
  · rw [hsmachine]
    rfl
  · exact (dump_eq_iff hfirst hlast hsreach htreach).mpr hsame

end Session

end TriReg
