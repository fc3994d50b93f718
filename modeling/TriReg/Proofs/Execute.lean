import TriReg.Proofs.Cell

namespace TriReg

section OrFail

variable {α : Type} {x : Except Fault α}

theorem orFail_eq_ok_iff {a : α} : orFail x = .ok a ↔ x = .ok a := by
  cases x <;> simp [orFail]

theorem orFail_eq_error_iff {failure : Failure} :
    orFail x = .error failure ↔ ∃ cause, x = .error cause ∧ .fault cause = failure := by
  cases x <;> simp [orFail]

end OrFail

namespace Machine

variable {m : Machine} {pc : Int} {i : Instruction} {effect : Effect} {failure : Failure}

/-- The data effects of the instruction that stands at `pc`. -/
inductive Executed (m : Machine) (pc : Int) : Instruction → Effect → Prop
  | move {dest source v after} (hsource : m.get source = .ok v) (hset : m.set dest v = .ok after) :
      Executed m pc (.move dest source) { machine := after }
  | compute {operation dest left right v w sum after} (hleft : m.get left = .ok v)
      (hright : m.get right = .ok w) (hsum : operation.apply v w = .ok sum)
      (hset : m.set dest sum = .ok after) :
      Executed m pc (.compute operation dest left right) { machine := after }
  | loadAddress {dest source after} (hset : m.set dest (.pointer source) = .ok after) :
      Executed m pc (.loadAddress dest source) { machine := after }
  | printf {line} (hline : m.printedLine = .ok line) :
      Executed m pc (.syscall "printf") { machine := m, printed := some line }
  | call {dest label} :
      Executed m pc (.call dest label) { machine := m.pushFrame (m.frameAt pc false dest) }
  | jump {label} :
      Executed m pc (.jump label) { machine := m.pushFrame (m.frameAt pc true none) }
  | label {name} : Executed m pc (.label name) { machine := m }
  | ret {operand} : Executed m pc (.ret operand) { machine := m }
  | leave : Executed m pc .leave { machine := m }

/-- The failures of data effects. What an instruction does before the failing part succeeds. -/
inductive Refused (m : Machine) : Instruction → Failure → Prop
  | source {dest source failure} (h : m.get source = .error failure) :
      Refused m (.move dest source) failure
  | move {dest source v failure} (hsource : m.get source = .ok v)
      (h : m.set dest v = .error failure) : Refused m (.move dest source) failure
  | left {operation dest left right failure} (h : m.get left = .error failure) :
      Refused m (.compute operation dest left right) failure
  | right {operation dest left right v failure} (hleft : m.get left = .ok v)
      (h : m.get right = .error failure) : Refused m (.compute operation dest left right) failure
  | operation {operation dest left right v w cause} (hleft : m.get left = .ok v)
      (hright : m.get right = .ok w) (h : operation.apply v w = .error cause) :
      Refused m (.compute operation dest left right) (.fault cause)
  | compute {operation dest left right v w sum failure} (hleft : m.get left = .ok v)
      (hright : m.get right = .ok w) (hsum : operation.apply v w = .ok sum)
      (h : m.set dest sum = .error failure) :
      Refused m (.compute operation dest left right) failure
  | loadAddress {dest source failure} (h : m.set dest (.pointer source) = .error failure) :
      Refused m (.loadAddress dest source) failure
  | printf {cause} (h : m.printedLine = .error cause) :
      Refused m (.syscall "printf") (.fault cause)
  | unknown {name} (hname : name ≠ "printf") :
      Refused m (.syscall name) (.fault (.unknownSyscall name))

theorem executed_of_execute (h : m.execute pc i = .ok effect) : m.Executed pc i effect := by
  cases i with
  | move dest source =>
      obtain ⟨v, hsource, h⟩ := bind_eq_ok_iff.mp h
      obtain ⟨after, hset, h⟩ := bind_eq_ok_iff.mp h
      cases h
      exact .move hsource hset
  | compute operation dest left right =>
      obtain ⟨v, hleft, h⟩ := bind_eq_ok_iff.mp h
      obtain ⟨w, hright, h⟩ := bind_eq_ok_iff.mp h
      obtain ⟨sum, hsum, h⟩ := bind_eq_ok_iff.mp h
      obtain ⟨after, hset, h⟩ := bind_eq_ok_iff.mp h
      cases h
      exact .compute hleft hright (orFail_eq_ok_iff.mp hsum) hset
  | loadAddress dest source =>
      obtain ⟨after, hset, h⟩ := bind_eq_ok_iff.mp h
      cases h
      exact .loadAddress hset
  | syscall name =>
      simp only [execute] at h
      split at h
      · rename_i hname
        obtain ⟨line, hline, h⟩ := bind_eq_ok_iff.mp h
        cases h
        subst hname
        exact .printf (orFail_eq_ok_iff.mp hline)
      · cases h
  | call | jump | label | ret | leave =>
      cases h
      constructor

theorem execute_of_executed (h : m.Executed pc i effect) : m.execute pc i = .ok effect := by
  cases h with
  | move hsource hset =>
      simp only [execute, hsource, hset, ok_bind]
      rfl
  | compute hleft hright hsum hset =>
      simp only [execute, hleft, hright, hsum, hset, orFail, ok_bind]
      rfl
  | loadAddress hset =>
      simp only [execute, hset, ok_bind]
      rfl
  | printf hline =>
      simp only [execute, hline, orFail, ok_bind]
      rfl
  | call | jump | label | ret | leave => rfl

theorem refused_of_execute (h : m.execute pc i = .error failure) : m.Refused i failure := by
  cases i with
  | move dest source =>
      rcases bind_eq_error_iff.mp h with h | ⟨v, hsource, h⟩
      · exact .source h
      · exact .move hsource (bind_pure_eq_error_iff.mp h)
  | compute operation dest left right =>
      rcases bind_eq_error_iff.mp h with h | ⟨v, hleft, h⟩
      · exact .left h
      · rcases bind_eq_error_iff.mp h with h | ⟨w, hright, h⟩
        · exact .right hleft h
        · rcases bind_eq_error_iff.mp h with h | ⟨sum, hsum, h⟩
          · obtain ⟨cause, hcause, rfl⟩ := orFail_eq_error_iff.mp h
            exact .operation hleft hright hcause
          · exact .compute hleft hright (orFail_eq_ok_iff.mp hsum) (bind_pure_eq_error_iff.mp h)
  | loadAddress dest source => exact .loadAddress (bind_pure_eq_error_iff.mp h)
  | syscall name =>
      simp only [execute] at h
      split at h
      · rename_i hname
        obtain ⟨cause, hcause, rfl⟩ := orFail_eq_error_iff.mp (bind_pure_eq_error_iff.mp h)
        subst hname
        exact .printf hcause
      · rename_i hname
        cases h
        exact .unknown hname
  | call | jump | label | ret | leave => cases h

theorem execute_of_refused (h : m.Refused i failure) : m.execute pc i = .error failure := by
  cases h with
  | source h => simp only [execute, h, error_bind]
  | move hsource h => simp only [execute, hsource, h, ok_bind, error_bind]
  | left h => simp only [execute, h, error_bind]
  | right hleft h => simp only [execute, hleft, h, ok_bind, error_bind]
  | operation hleft hright h => simp only [execute, hleft, hright, h, orFail, ok_bind, error_bind]
  | compute hleft hright hsum h =>
      simp only [execute, hleft, hright, hsum, h, orFail, ok_bind, error_bind]
  | loadAddress h => simp only [execute, h, error_bind]
  | printf h => simp only [execute, h, orFail, if_true, error_bind]
  | unknown hname => simp only [execute, hname, if_false]

end Machine

end TriReg
