namespace TriReg.Text.Utf8

inductive Reason where
  | invalidStart
  | invalidContinuation
  | unexpectedEnd
  deriving DecidableEq

/-- Where the bytes stop being a text: the bytes from `position` on, `length` of them, the first of
which is `lead`. -/
structure Fault where
  reason : Reason
  lead : Nat
  position : Nat
  length : Nat
  deriving DecidableEq

def Reason.message : Reason → String
  | .invalidStart => "invalid start byte"
  | .invalidContinuation => "invalid continuation byte"
  | .unexpectedEnd => "unexpected end of data"

/-- The ranges that the continuation bytes after a lead byte lie in; none if no sequence starts with
that byte. The narrower ranges after E0, ED, F0 and F4 leave out overlong forms, surrogates and
numbers above the last code point. -/
def continuations (lead : Nat) : Option (List (Nat × Nat)) :=
  let any := (0x80, 0xBF)
  if lead < 0x80 then some []
  else if lead < 0xC2 then none
  else if lead < 0xE0 then some [any]
  else if lead = 0xE0 then some [(0xA0, 0xBF), any]
  else if lead = 0xED then some [(0x80, 0x9F), any]
  else if lead < 0xF0 then some [any, any]
  else if lead = 0xF0 then some [(0x90, 0xBF), any, any]
  else if lead < 0xF4 then some [any, any, any]
  else if lead = 0xF4 then some [(0x80, 0x8F), any, any]
  else none

/-- Where reading stops. `lead` opened the current sequence at `position`, `length` of its bytes
have been read and the others have to lie in the ranges `pending`. -/
def stop (lead position length : Nat) : (pending : List (Nat × Nat)) → List UInt8 → Fault
  | _, [] => ⟨.unexpectedEnd, lead, position, length⟩
  | [], byte :: rest =>
    let next := position + length
    match continuations byte.toNat with
    | none => ⟨.invalidStart, byte.toNat, next, 1⟩
    | some ranges => stop byte.toNat next 1 ranges rest
  | (low, high) :: pending, byte :: rest =>
    if low ≤ byte.toNat && byte.toNat ≤ high then stop lead position (length + 1) pending rest
    else ⟨.invalidContinuation, lead, position, length⟩

/-- Two hexadecimal digits of a byte, in lower case. -/
def byteText (n : Nat) : String :=
  String.ofList [Nat.digitChar (n / 16), Nat.digitChar (n % 16)]

def Fault.message (fault : Fault) : String :=
  let place :=
    if fault.length ≤ 1 then
      "byte 0x" ++ byteText fault.lead ++ " in position " ++ toString fault.position
    else
      "bytes in position " ++ toString fault.position ++ "-" ++
        toString (fault.position + fault.length - 1)
  "'utf-8' codec can't decode " ++ place ++ ": " ++ fault.reason.message

def decode (bytes : ByteArray) : Except Fault String :=
  match String.fromUTF8? bytes with
  | some text => .ok text
  | none => .error (stop 0 0 0 [] bytes.toList)

theorem decode_toUTF8 (text : String) : decode text.toUTF8 = .ok text := by
  have h : String.fromUTF8? text.toByteArray = some text := by
    simp [String.fromUTF8?, String.isValidUTF8, String.fromUTF8]
  simp [decode, h]

end TriReg.Text.Utf8
