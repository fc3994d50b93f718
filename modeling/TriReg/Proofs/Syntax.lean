import Mathlib.Data.List.Forall2
import TriReg.Instruction.Reader
import TriReg.Proofs.Decimal
import TriReg.Proofs.Words

/-!
The written syntax of instructions. Every instruction has one standard text; its spellings are the
lines that differ from it in the blanks between words and inside brackets, in the letter case of the
mnemonic, and in a comment behind the last word.
-/

namespace TriReg

open TriReg.Text TriReg.Token

namespace Address

def render : Address → String
  | .register r => r.name
  | .slot index => "sp[" ++ toString index ++ "]"
  | .reference target => "[" ++ target.render ++ "]"

inductive Spelling : Address → List Char → Prop where
  | register (r : Register) : Spelling (.register r) r.name.toList
  | slot (index : Nat) {lead tail : List Char} (hlead : Blanks lead) (htail : Blanks tail) :
      Spelling (.slot index)
        (['s', 'p', '['] ++ (lead ++ (Nat.toDigits 10 index ++ (tail ++ [']']))))
  | reference {target : Address} {text lead tail : List Char} (h : Spelling target text)
      (hlead : Blanks lead) (htail : Blanks tail) :
      Spelling (.reference target) (['['] ++ (lead ++ (text ++ (tail ++ [']']))))

/-- Every slot index of the address has few enough digits to be read. -/
def Writable : Address → Prop
  | .register _ => True
  | .slot index => (Nat.toDigits 10 index).length ≤ Numeral.maxDigits
  | .reference target => target.Writable

theorem Writable.displayable {a : Address} (h : a.Writable) : a.displayable = true := by
  induction a with
  | register r => rfl
  | slot index => exact Numeral.writable_iff.mpr h
  | reference target ih => exact ih h

theorem toList_render_slot (index : Nat) :
    (render (.slot index)).toList = ['s', 'p', '['] ++ (Nat.toDigits 10 index ++ [']']) := by
  simp [render]

theorem toList_render_reference (target : Address) :
    (render (.reference target)).toList = ['['] ++ (target.render.toList ++ [']']) := by
  simp [render]

theorem spelling_render (a : Address) : a.Spelling a.render.toList := by
  induction a with
  | register r => exact .register r
  | slot index =>
      rw [toList_render_slot]
      exact .slot index blanks_nil blanks_nil
  | reference target ih =>
      rw [toList_render_reference]
      exact .reference ih blanks_nil blanks_nil

end Address

namespace Operand

def render : Operand → String
  | .literal (.text s) => "\"" ++ s ++ "\""
  | .literal value => value.rawText
  | .address place => place.render

def Spelling : Operand → List Char → Prop
  | .literal value, text => text = (Operand.literal value).render.toList
  | .address place, text => place.Spelling text

/-- The operand is an address, an integer, or one of some texts. -/
def Writable (texts : String → Prop) : Operand → Prop
  | .literal (.integer _) => True
  | .literal (.text s) => texts s
  | .literal (.pointer _) => False
  | .literal .uninitialized => False
  | .address place => place.Writable

theorem Writable.mono {texts texts' : String → Prop} {operand : Operand}
    (h : operand.Writable texts) (himp : ∀ s, texts s → texts' s) : operand.Writable texts' := by
  cases operand with
  | address place => exact h
  | literal value =>
      cases value with
      | text s => exact himp s h
      | integer | pointer | uninitialized => exact h

theorem Writable.displayable {texts : String → Prop} {operand : Operand}
    (h : operand.Writable texts) : operand.displayable = true := by
  cases operand with
  | literal value => rfl
  | address place => exact Address.Writable.displayable h

theorem toList_render_text (s : String) :
    (render (.literal (.text s))).toList = '"' :: (s.toList ++ ['"']) := by
  simp [render]

theorem spelling_render (operand : Operand) : operand.Spelling operand.render.toList := by
  cases operand with
  | literal value => rfl
  | address place => exact place.spelling_render

end Operand

/-- What follows the first word of an instruction: operands, and the names of labels and of system
calls. -/
inductive Argument where
  | operand (operand : Operand)
  | name (name : String)

namespace Argument

def render : Argument → String
  | .operand source => source.render
  | .name text => text

def Spelling : Argument → List Char → Prop
  | .operand source, text => source.Spelling text
  | .name given, text => text = given.toList

theorem spelling_render (argument : Argument) : argument.Spelling argument.render.toList := by
  cases argument with
  | operand source => exact source.spelling_render
  | name text => rfl

end Argument

namespace Instruction

/-- The first word: the mnemonic, or the name of a label and a colon. -/
def head : Instruction → String
  | .move .. => "mov"
  | .compute operation .. => operation.mnemonic
  | .loadAddress .. => "lea"
  | .call .. => "call"
  | .jump _ => "jmp"
  | .label name => name ++ ":"
  | .ret _ => "ret"
  | .syscall _ => "syscall"
  | .leave => "leave"

def arguments : Instruction → List Argument
  | .move dest source => [.operand (.address dest), .operand source]
  | .compute _ dest left right => [.operand (.address dest), .operand left, .operand right]
  | .loadAddress dest source => [.operand (.address dest), .operand (.address source)]
  | .call none target => [.name target]
  | .call (some dest) target => [.operand (.address dest), .name target]
  | .jump target => [.name target]
  | .label _ => []
  | .ret operand => [.operand operand]
  | .syscall name => [.name name]
  | .leave => []

/-- The standard text of the instruction. -/
def render (i : Instruction) : String :=
  " ".intercalate (i.head :: i.arguments.map Argument.render)

/-- The letters of a mnemonic may have either case, those of a label may not. -/
def HeadSpelling : Instruction → List Char → Prop
  | .label name, word => word = (head (.label name)).toList
  | i, word => word.map Char.toLower = i.head.toList

/-- The line writes the instruction. -/
def Spells (i : Instruction) (line : String) : Prop :=
  ∃ word words, i.HeadSpelling word ∧ List.Forall₂ Argument.Spelling i.arguments words ∧
    Laid (word :: words) line.toList

/-- Labels and system calls have names that can be read, and so have the operands. -/
def Writable (texts : String → Prop) : Instruction → Prop
  | .move dest source => dest.Writable ∧ source.Writable texts
  | .compute _ dest left right => dest.Writable ∧ left.Writable texts ∧ right.Writable texts
  | .loadAddress dest source => dest.Writable ∧ source.Writable
  | .call none target => isLabelName target.toList = true
  | .call (some dest) target => dest.Writable ∧ isLabelName target.toList = true
  | .jump target => isLabelName target.toList = true
  | .label name => isLabelName name.toList = true
  | .ret operand => operand.Writable texts
  | .syscall name => name ∈ syscallNames
  | .leave => True

theorem Writable.mono {texts texts' : String → Prop} {i : Instruction} (h : i.Writable texts)
    (himp : ∀ s, texts s → texts' s) : i.Writable texts' := by
  cases i with
  | move dest source => exact ⟨h.1, h.2.mono himp⟩
  | compute operation dest left right => exact ⟨h.1, h.2.1.mono himp, h.2.2.mono himp⟩
  | call dest target =>
      cases dest with
      | none => exact h
      | some dest => exact h
  | ret operand => exact Operand.Writable.mono h himp
  | loadAddress | jump | label | syscall | leave => exact h

theorem Writable.displayable {texts : String → Prop} {i : Instruction} (h : i.Writable texts) :
    i.displayable = true := by
  cases i with
  | move dest source =>
      simp [Instruction.displayable, h.1.displayable, Operand.Writable.displayable h.2]
  | compute operation dest left right =>
      simp [Instruction.displayable, h.1.displayable, Operand.Writable.displayable h.2.1,
        Operand.Writable.displayable h.2.2]
  | loadAddress dest source =>
      simp [Instruction.displayable, h.1.displayable, h.2.displayable]
  | call dest target =>
      cases dest with
      | none => rfl
      | some dest => exact Address.Writable.displayable h.1
  | ret operand => exact Operand.Writable.displayable h
  | jump | label | syscall | leave => rfl

theorem headSpelling_head (i : Instruction) : i.HeadSpelling i.head.toList := by
  cases i with
  | label name => rfl
  | compute operation dest left right =>
      change operation.mnemonic.toList.map Char.toLower = operation.mnemonic.toList
      cases operation <;> decide
  | move | loadAddress | call | jump | ret | syscall | leave =>
      simp only [HeadSpelling, head]
      decide

theorem spells_render (i : Instruction) : i.Spells i.render := by
  have hspaced : Spaced (i.head.toList :: i.arguments.map fun argument => argument.render.toList)
      i.render.toList := by
    rw [render, String.toList_intercalate, List.map_cons, List.map_map]
    exact spaced_intercalate _ _
  refine ⟨_, _, i.headSpelling_head, ?_, [], _, [], blanks_nil, hspaced, .blanks blanks_nil, ?_⟩
  · rw [List.forall₂_map_right_iff]
    exact List.forall₂_same.mpr fun argument _ => argument.spelling_render
  · simp

end Instruction

end TriReg
