import TriReg.Fault
import TriReg.Program

namespace TriReg

/-- What follows the definition of a label reaches a terminator in time. Further definitions of the
same label do not end its block. -/
def Terminator.endsBlock (terminator : Terminator) (label : String) : List Instruction → Bool
  | [] => false
  | i :: rest =>
    match i.labelName? with
    | some other => if other = label then terminator.endsBlock label rest else false
    | none => if terminator.closes i then true else terminator.endsBlock label rest

namespace Program

/-- The block of a label reaches a terminator; none if the label is not defined. -/
def blockTerminates? (p : Program) (label : String) (terminator : Terminator) : Option Bool :=
  (p.findLabel label).map fun index => terminator.endsBlock label (p.code.drop (index + 1))

/-- The block of a label reaches a terminator, or the fault that it does not. -/
def checkBlock (p : Program) (label : String) (terminator : Terminator) : Except Fault Unit :=
  match p.blockTerminates? label terminator with
  | none => .error (.labelNotFound label)
  | some false => .error (.unterminated label terminator)
  | some true => .ok ()

end Program

/-- The label that an instruction enters, with the terminator that its block needs. -/
def Instruction.demand? : Instruction → Option (String × Terminator)
  | .call (some _) target => some (target, .ret)
  | .call none target => some (target, .retOrLeave)
  | .jump target => some (target, .retOrLeave)
  | _ => none

namespace Program

/-- Checks what instructions demand; the demands in `met` are known to be met. -/
def checkDemands (p : Program) (met : List (String × Terminator)) :
    List Instruction → Except Fault Unit
  | [] => .ok ()
  | i :: rest =>
    match i.demand? with
    | none => p.checkDemands met rest
    | some (label, terminator) =>
      if met.contains (label, terminator) then p.checkDemands met rest
      else do
        p.checkBlock label terminator
        p.checkDemands ((label, terminator) :: met) rest

/-- The static check of a program: the first demand that is not met. -/
def check (p : Program) : Except Fault Unit := p.checkDemands [] p.code

end Program

end TriReg
