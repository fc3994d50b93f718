import TriReg.Numeral

namespace TriReg

inductive Register where
  | rax
  | rbx
  | rcx
  deriving DecidableEq

def Register.name : Register → String
  | .rax => "rax"
  | .rbx => "rbx"
  | .rcx => "rcx"

/-- The register of a name; names are written in lower case. -/
def Register.ofName? (name : String) : Option Register :=
  if name = "rax" then some .rax
  else if name = "rbx" then some .rbx
  else if name = "rcx" then some .rcx
  else none

theorem Register.ofName?_eq_some_iff {name : String} {r : Register} :
    Register.ofName? name = some r ↔ name = r.name := by
  constructor
  · intro h
    unfold Register.ofName? at h
    split at h
    · cases h; assumption
    · split at h
      · cases h; assumption
      · split at h
        · cases h; assumption
        · cases h
  · rintro rfl
    cases r <;> decide

/-- A place of the machine: a register, a slot of the stack, or the slot that the value at another
address names. -/
inductive Address where
  | register (r : Register)
  | slot (index : Nat)
  | reference (target : Address)
  deriving DecidableEq

/-- The display form, for messages and dumps. -/
def Address.display : Address → String
  | .register r => r.name
  | .slot index => "Stack[" ++ toString index ++ "]"
  | .reference target => "[" ++ target.display ++ "]"

/-- The display can be written: no slot index in it has too many digits. -/
def Address.displayable : Address → Bool
  | .register _ => true
  | .slot index => Numeral.writable index
  | .reference target => target.displayable

/-- A slot index in hexadecimal, with capital letters and at least two digits. -/
def slotText (index : Nat) : String :=
  let digits := (Nat.toDigits 16 index).map Char.toUpper
  "0x" ++ String.ofList (List.replicate (2 - digits.length) '0' ++ digits)

/-- The text of a pointer that holds the address. -/
def Address.pointerText : Address → String
  | .register r => r.name
  | .slot index => slotText index
  | .reference target => "[" ++ target.pointerText ++ "]"

end TriReg
