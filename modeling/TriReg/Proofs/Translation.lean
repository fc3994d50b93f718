import TriReg.Proofs.Termination

namespace TriReg

variable {rename : Fault → Fault}

namespace Failure

def mapFault (rename : Fault → Fault) : Failure → Failure
  | .fault cause => .fault (rename cause)
  | .numeral limit => .numeral limit

@[simp] theorem mapFault_id (failure : Failure) : failure.mapFault id = failure := by
  cases failure <;> rfl

@[simp] theorem mapError_mapFault_id {α : Type} (x : Except Failure α) :
    x.mapError (mapFault id) = x := by
  cases x with
  | error failure => exact congrArg Except.error failure.mapFault_id
  | ok a => rfl

end Failure

namespace Machine

/-- The outcome with another name for its fault. -/
def Outcome.mapFault (rename : Fault → Fault) (outcome : Outcome) : Outcome :=
  { outcome with result := outcome.result.mapError (Failure.mapFault rename) }

theorem Outcome.mapFault_eq_self {outcome : Outcome}
    (h : ∀ failure, outcome.result = .error failure → failure.mapFault rename = failure) :
    outcome.mapFault rename = outcome := by
  obtain ⟨machine, printed, result⟩ := outcome
  cases result with
  | ok t => rfl
  | error failure => rw [mapFault, Except.mapError, h failure rfl]

/-- Only calls and jumps look at the program. -/
theorem perform_of_branchTarget?_eq_none {m : Machine} {pc : Int} {i : Instruction}
    (p q : Program) (h : i.branchTarget? = none) : m.perform q pc i = m.perform p pc i := by
  cases i <;> first | rfl | cases h

end Machine

namespace Session

/-- The session under another program, with the name that its fault has there. -/
def translate (s : Session) (q : Program) (rename : Fault → Fault) : Session :=
  { s with program := q, fault? := s.fault?.map rename }

/-- What the program of the session does at its position, the program `q` does there as well. -/
structure MirroredBy (s : Session) (q : Program) (rename : Fault → Fault) : Prop where
  inside : ∀ i, s.program.fetch s.pc = some i → ∃ j, q.fetch s.pc = some j ∧
    s.machine.perform q s.pc j = (s.machine.perform s.program s.pc i).mapFault rename
  outside : s.program.fetch s.pc = none → q.fetch s.pc = none

variable {s : Session} {q : Program} {k : Nat}

@[simp] theorem translate_id (s : Session) (q : Program) :
    s.translate q id = { s with program := q } := by
  simp [translate]

theorem record_of_tracing_eq_false (h : s.tracing = false) (line : String) : s.record line = s := by
  simp [record, h]

theorem untraceable_of_tracing_eq_false (h : s.tracing = false) (i : Instruction) :
    s.untraceable i = false := by
  simp [untraceable, h]

theorem print_translate (s : Session) (line? : Option String) :
    (s.translate q rename).print line? = (s.print line?).translate q rename := by
  cases line? <;> rfl

theorem follow_translate (s : Session) (t : Transition) :
    (s.translate q rename).follow t = (s.follow t).translate q rename := by
  cases t <;> rfl

theorem fail_translate (s : Session) (cause : Fault) :
    (s.translate q rename).fail (rename cause) = (s.fail cause).translate q rename :=
  rfl

theorem performed_translate {i j : Instruction} (htracing : s.tracing = false)
    (h : s.machine.perform q s.pc j = (s.machine.perform s.program s.pc i).mapFault rename) :
    (s.translate q rename).performed j = (s.performed i).translate q rename := by
  have hperform : (s.translate q rename).machine.perform (s.translate q rename).program
      (s.translate q rename).pc j = (s.machine.perform s.program s.pc i).mapFault rename := h
  have htracing' : (s.translate q rename).tracing = false := htracing
  rw [performed, performed, hperform, record_of_tracing_eq_false htracing,
    record_of_tracing_eq_false htracing']
  exact print_translate { s with machine := (s.machine.perform s.program s.pc i).machine } _

theorem advance_translate {i j : Instruction} (htracing : s.tracing = false)
    (h : s.machine.perform q s.pc j = (s.machine.perform s.program s.pc i).mapFault rename) :
    (s.translate q rename).advance j =
      ((s.advance i).1.translate q rename,
        (s.advance i).2.mapError (Failure.mapFault rename)) := by
  have hresult : ((s.translate q rename).machine.perform (s.translate q rename).program
      (s.translate q rename).pc j).result =
        (s.machine.perform s.program s.pc i).result.mapError (Failure.mapFault rename) :=
    congrArg Machine.Outcome.result h
  have hperformed := performed_translate htracing h
  cases hi : (s.machine.perform s.program s.pc i).result with
  | ok t =>
      rw [hi] at hresult
      rw [advance_of_ok hi, advance_of_ok hresult, hperformed, follow_translate]
      rfl
  | error failure =>
      rw [hi] at hresult
      cases failure with
      | fault cause =>
          have htraced : (s.performed i).tracing = false := by rw [tracing_performed, htracing]
          have htraced' : ((s.performed i).translate q rename).tracing = false := htraced
          rw [advance_of_fault hi, advance_of_fault hresult, hperformed,
            record_of_tracing_eq_false htraced, record_of_tracing_eq_false htraced',
            fail_translate]
          rfl
      | numeral limit =>
          rw [advance_of_numeral hi, advance_of_numeral hresult, hperformed]
          rfl

theorem step_translate (htracing : s.tracing = false)
    (hmirrored : s.runState = .running → s.MirroredBy q rename) :
    (s.translate q rename).step =
      (s.step.1.translate q rename, s.step.2.mapError (Failure.mapFault rename)) := by
  by_cases hrunning : s.runState = .running
  · have h := hmirrored hrunning
    have hrunning' : (s.translate q rename).runState = .running := hrunning
    cases hfetch : s.program.fetch s.pc with
    | none =>
        have hfetch' : (s.translate q rename).program.fetch (s.translate q rename).pc = none :=
          h.outside hfetch
        rw [step_of_fetch_none hrunning hfetch, step_of_fetch_none hrunning' hfetch']
        rfl
    | some i =>
        obtain ⟨j, hj, hperform⟩ := h.inside i hfetch
        have hfetch' : (s.translate q rename).program.fetch (s.translate q rename).pc = some j :=
          hj
        have htraced' : (s.translate q rename).tracing = false := htracing
        rw [step_of_fetch hrunning hfetch (untraceable_of_tracing_eq_false htracing i),
          step_of_fetch hrunning' hfetch' (untraceable_of_tracing_eq_false htraced' j)]
        exact advance_translate htracing hperform
  · have hfinished : (s.translate q rename).runState ≠ .running := hrunning
    rw [step_of_finished hrunning, step_of_finished hfinished]
    rfl

theorem program_iterate_next (s : Session) (k : Nat) : (next^[k] s).program = s.program := by
  induction k with
  | zero => rfl
  | succ k ih => rw [Function.iterate_succ_apply', next, program_step, ih]

theorem iterate_next_translate (htracing : s.tracing = false)
    (h : ∀ j < k, (next^[j] s).runState = .running → (next^[j] s).MirroredBy q rename) :
    next^[k] (s.translate q rename) = (next^[k] s).translate q rename := by
  induction k with
  | zero => rfl
  | succ k ih =>
      rw [Function.iterate_succ_apply', Function.iterate_succ_apply',
        ih fun j hj => h j (Nat.lt_succ_of_lt hj), next,
        step_translate ((tracing_iterate_next s k).trans htracing) (h k (Nat.lt_succ_self k))]
      rfl

end Session

end TriReg
