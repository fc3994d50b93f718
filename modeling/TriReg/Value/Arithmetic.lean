import TriReg.Fault

namespace TriReg

/-- The word that is congruent to `n` modulo `2 ^ 64`. -/
def wrap (n : Int) : Int64 := Int64.ofInt n

namespace Value

/-- The pointer `address` moved by `offset` slots; `other` is the operand that gave the offset. -/
def movePointer (address : Address) (offset : Int) (other : Value) : Except Fault Value :=
  match address with
  | .slot index =>
    if 0 ≤ index + offset then .ok (.pointer (.slot (index + offset).toNat))
    else .error (.incompatible (.pointer address) other)
  | _ => .error (.incompatible (.pointer address) other)

/-- The sum of two values. A pointer to a slot moves by an integer or by the index of another slot,
and what is neither numbers nor such a move is joined as texts. -/
def add : Value → Value → Except Fault Value
  | .integer m, .integer n => .ok (.integer (wrap (m.toInt + n.toInt)))
  | .pointer a, .integer n => movePointer a n.toInt (.integer n)
  | .pointer a, .pointer (.slot index) => movePointer a index (.pointer (.slot index))
  | .pointer a, .pointer b => .error (.incompatible (.pointer a) (.pointer b))
  | a, b => .ok (.text (a.rawText ++ b.rawText))

/-- The difference of two values. The distance of two slots is an integer. -/
def sub : Value → Value → Except Fault Value
  | .integer m, .integer n => .ok (.integer (wrap (m.toInt - n.toInt)))
  | .pointer (.slot i), .pointer (.slot j) => .ok (.integer (wrap ((i : Int) - j)))
  | a, b => .error (.unsubtractable a b)

end Value

/-- The result of an operation on two values. -/
def Operation.apply : Operation → Value → Value → Except Fault Value
  | .add => Value.add
  | .subtract => Value.sub

end TriReg
