import TriReg.Proofs.DataFailure
import TriReg.Proofs.OneLine
import TriReg.Proofs.Reachable

namespace TriReg

open TriReg.Text

theorem Value.isOneLine_of_movePointer {address : Address} {offset : Int} {other sum : Value}
    (h : movePointer address offset other = .ok sum) : sum.IsOneLine := by
  unfold movePointer at h
  split at h
  · split at h
    · cases h
      exact trivial
    · cases h
  · cases h

theorem Value.cause_of_movePointer {address : Address} {offset : Int} {other : Value}
    {cause : Fault} (h : movePointer address offset other = .error cause) :
    cause = .incompatible (.pointer address) other := by
  unfold movePointer at h
  split at h
  · split at h
    · cases h
    · cases h
      rfl
  · cases h
    rfl

namespace Operation

variable {operation : Operation} {v w : Value}

theorem isOneLine_of_apply {sum : Value} (hv : v.IsOneLine) (hw : w.IsOneLine)
    (h : operation.apply v w = .ok sum) : sum.IsOneLine := by
  cases operation with
  | add =>
      change Value.add v w = .ok sum at h
      unfold Value.add at h
      split at h
      · cases h
        exact trivial
      · exact Value.isOneLine_of_movePointer h
      · exact Value.isOneLine_of_movePointer h
      · cases h
      · cases h
        exact unbroken_toList_append (Value.unbroken_rawText hv) (Value.unbroken_rawText hw)
  | subtract =>
      change Value.sub v w = .ok sum at h
      unfold Value.sub at h
      split at h
      · cases h
        exact trivial
      · cases h
        exact trivial
      · cases h

theorem isOneLine_cause_of_apply {cause : Fault} (hv : v.IsOneLine) (hw : w.IsOneLine)
    (h : operation.apply v w = .error cause) : cause.IsOneLine := by
  cases operation with
  | add =>
      change Value.add v w = .error cause at h
      unfold Value.add at h
      split at h
      · cases h
      · rw [Value.cause_of_movePointer h]
        exact ⟨hv, hw⟩
      · rw [Value.cause_of_movePointer h]
        exact ⟨hv, hw⟩
      · cases h
        exact ⟨hv, hw⟩
      · cases h
  | subtract =>
      change Value.sub v w = .error cause at h
      unfold Value.sub at h
      split at h
      · cases h
      · cases h
      · cases h
        exact ⟨hv, hw⟩

end Operation

theorem Failure.isOneLine_of_outOfReach {access : Access} {location : Location} {cause : Fault}
    (hv : ∀ v, location = .value v → v.IsOneLine)
    (h : Failure.outOfReach access location = .fault cause) : cause.IsOneLine := by
  cases location with
  | slot index =>
      cases hwritable : Numeral.writable index with
      | false => simp [outOfReach, hwritable] at h
      | true =>
          simp only [outOfReach, hwritable, if_true, fault.injEq] at h
          subst h
          exact trivial
  | value v =>
      cases h
      exact hv v rfl

theorem Instruction.unbroken_of_branchTarget? {texts : String → Prop} {i : Instruction}
    {label : String} (hi : i.Writable texts) (h : i.branchTarget? = some label) :
    Unbroken label.toList := by
  have hname : isLabelName label.toList = true := by
    cases i with
    | call dest target =>
        cases h
        cases dest with
        | none => exact hi
        | some dest => exact hi.2
    | jump target =>
        cases h
        exact hi
    | move | compute | loadAddress | label | ret | syscall | leave => cases h
  exact unbroken_of_plain (plain_of_isLabelName hname).2

namespace Machine

/-- The value is in a register, in a slot of the stack or among the registers of a frame. -/
inductive Holds (m : Machine) (v : Value) : Prop
  | register (r : Register) (h : m.registers.get r = v)
  | slot (h : v ∈ m.stack)
  | saved {frame : Frame} (hframe : frame ∈ m.frames) (r : Register) (h : frame.saved.get r = v)

def IsOneLine (m : Machine) : Prop := ∀ v, m.Holds v → v.IsOneLine

variable {m after : Machine} {p : Program} {pc : Int} {i : Instruction} {c : Cell} {v w : Value}
  {access : Access} {cause : Fault}

theorem holds_content (h : m.HasCell c) : m.Holds (m.content c) := by
  cases c with
  | register r => exact .register r rfl
  | slot index =>
      change index < m.stack.size at h
      refine .slot ?_
      simp [content, Array.getD_eq_getD_getElem?, h]

theorem holds_of_holds_store (h : (m.store c v).Holds w) : w = v ∨ m.Holds w := by
  cases c with
  | register r =>
      cases h with
      | register r' h =>
          by_cases hr : r' = r
          · subst hr
            exact .inl (h.symm.trans (m.registers.get_set_self r' v))
          · exact .inr (.register r' ((m.registers.get_set_of_ne v hr).symm.trans h))
      | slot h => exact .inr (.slot h)
      | saved hframe r' h => exact .inr (.saved hframe r' h)
  | slot index =>
      cases h with
      | register r h => exact .inr (.register r h)
      | slot h =>
          rcases Array.mem_or_eq_of_mem_setIfInBounds h with hold | rfl
          · exact .inr (.slot hold)
          · exact .inl rfl
      | saved hframe r h => exact .inr (.saved hframe r h)

theorem holds_of_holds_pushFrame {pc : Int} {viaJump : Bool} {dest : Option Address}
    (h : (m.pushFrame (m.frameAt pc viaJump dest)).Holds w) : m.Holds w := by
  cases h with
  | register r h => exact .register r h
  | slot h => exact .slot h
  | saved hframe r h =>
      rcases List.mem_cons.mp hframe with rfl | hframe
      -- The frame saves the registers as they are.
      · exact .register r h
      · exact .saved hframe r h

theorem holds_of_holds_popFrame {frame : Frame} {frames : List Frame}
    (hframes : m.frames = frame :: frames) (h : (m.popFrame frame frames).Holds w) :
    m.Holds w := by
  cases h with
  | register r h =>
      change (m.unwind frame).get r = w at h
      unfold unwind at h
      split at h
      · exact .register r h
      · exact .saved (by simp [hframes]) r h
  | slot h => exact .slot h
  | saved hframe r h => exact .saved (hframes ▸ List.mem_cons_of_mem _ hframe) r h

theorem isOneLine_fresh (size : Nat) : (fresh size).IsOneLine := by
  intro v h
  cases h with
  | register r h =>
      subst h
      cases r <;> exact trivial
  | slot h =>
      obtain ⟨-, rfl⟩ := Array.mem_replicate.mp h
      exact trivial
  | saved hframe => cases hframe

namespace IsOneLine

theorem store (h : m.IsOneLine) (hv : v.IsOneLine) : (m.store c v).IsOneLine := by
  intro w hw
  rcases holds_of_holds_store hw with rfl | hold
  · exact hv
  · exact h w hold

theorem set {dest : Address} (h : m.IsOneLine) (hv : v.IsOneLine)
    (hset : m.set dest v = .ok after) : after.IsOneLine := by
  obtain ⟨c, -, rfl⟩ := exists_store_of_set hset
  exact h.store hv

theorem get {operand : Operand} (h : m.IsOneLine)
    (hoperand : operand.Writable fun s => Unbroken s.toList) (hget : m.get operand = .ok v) :
    v.IsOneLine := by
  cases operand with
  | literal value =>
      cases hget
      cases v with
      | text s => exact hoperand
      | integer | pointer | uninitialized => exact trivial
  | address place =>
      obtain ⟨c, hcell, rfl⟩ := map_eq_ok_iff.mp hget
      exact h _ (holds_content (hasCell_of_cell hcell))

theorem popFrame {frame : Frame} {frames : List Frame} (h : m.IsOneLine)
    (hframes : m.frames = frame :: frames) : (m.popFrame frame frames).IsOneLine :=
  fun w hw => h w (holds_of_holds_popFrame hframes hw)

theorem execute {effect : Effect} (h : m.IsOneLine)
    (hi : i.Writable fun s => Unbroken s.toList) (hexecute : m.execute pc i = .ok effect) :
    effect.machine.IsOneLine := by
  cases executed_of_execute hexecute with
  | move hsource hset => exact h.set (h.get hi.2 hsource) hset
  | compute hleft hright hsum hset =>
      have hv := h.get hi.2.1 hleft
      have hw := h.get hi.2.2 hright
      exact h.set (Operation.isOneLine_of_apply hv hw hsum) hset
  | @loadAddress dest source after hset =>
      have hpointer : (Value.pointer source).IsOneLine := trivial
      exact h.set hpointer hset
  | call | jump => exact fun w hw => h w (holds_of_holds_pushFrame hw)
  | printf | label | ret | leave => exact h

theorem resumed {frame : Frame} {frames : List Frame} {v? : Option Value} (h : m.IsOneLine)
    (hi : i.Writable fun s => Unbroken s.toList) (hframes : m.frames = frame :: frames)
    (hresumed : m.Resumed frame frames i v? after) : after.IsOneLine := by
  cases hresumed with
  | leave | ret => exact h.popFrame hframes
  | deliver hdest hget hset => exact (h.popFrame hframes).set (h.get hi hget) hset

theorem perform (h : m.IsOneLine) (hi : i.Writable fun s => Unbroken s.toList) :
    (m.perform p pc i).machine.IsOneLine := by
  have hperformed := m.performed_perform p pc i
  generalize m.perform p pc i = outcome at hperformed
  cases hperformed with
  | plain hplain hexecute => exact h.execute hi hexecute
  | refused | unreadable | exit | exitLeave => exact h
  | enter | lost => exact fun w hw => h w (holds_of_holds_pushFrame hw)
  | resume hframes hresumed => exact h.resumed hi hframes hresumed
  | undelivered hframes => exact h.popFrame hframes
  | mismatched hframes | unnamed hframes =>
      intro w hw
      cases hw with
      | register r hr => exact h w (.register r hr)
      | slot hslot => exact h w (.slot hslot)
      | saved hframe r hr => exact h w (.saved (hframes ▸ List.mem_cons_of_mem _ hframe) r hr)

theorem halt (h : m.IsOneLine) (hi : i.Writable fun s => Unbroken s.toList)
    (hresult : (m.perform p pc i).result = .ok (.halt v)) : v.IsOneLine := by
  have hperformed := m.performed_perform p pc i
  generalize m.perform p pc i = outcome at hresult hperformed
  cases hperformed with
  | exit hframes hget =>
      cases hresult
      exact h.get hi hget
  | exitLeave =>
      cases hresult
      exact trivial
  | plain | refused | enter | lost | unreadable | resume | undelivered | mismatched | unnamed =>
      cases hresult

section Causes

theorem cause_of_slotIndex (hv : v.IsOneLine)
    (h : m.slotIndex access v = .error (.fault cause)) : cause.IsOneLine := by
  have hvalue (w : Value) (hw : Location.value v = .value w) : w.IsOneLine :=
    Location.value.inj hw ▸ hv
  unfold slotIndex at h
  split at h
  · split at h
    · cases h
    · exact Failure.isOneLine_of_outOfReach hvalue (Except.error.inj h)
  · split at h
    · cases h
    · exact Failure.isOneLine_of_outOfReach (fun w hw => by cases hw) (Except.error.inj h)
  · cases h
    exact trivial
  · cases h
    exact trivial
  · exact Failure.isOneLine_of_outOfReach hvalue (Except.error.inj h)

theorem cause_of_cell {place : Address} (h : m.IsOneLine)
    (hcell : m.cell access place = .error (.fault cause)) : cause.IsOneLine := by
  induction place generalizing access with
  | register r => cases hcell
  | slot index =>
      unfold cell at hcell
      split at hcell
      · cases hcell
      · exact Failure.isOneLine_of_outOfReach (fun w hw => by cases hw) (Except.error.inj hcell)
  | reference target ih =>
      rcases cell_reference_eq_error_iff.mp hcell with
        ⟨inner, rfl, hdouble⟩ | ⟨-, htarget | ⟨pointer, hpointer, hindex⟩⟩
      · cases hdouble
        exact trivial
      · exact ih htarget
      · exact cause_of_slotIndex (h _ (holds_content (hasCell_of_cell hpointer))) hindex

theorem cause_of_get {operand : Operand} (h : m.IsOneLine)
    (hget : m.get operand = .error (.fault cause)) : cause.IsOneLine := by
  cases operand with
  | literal v => cases hget
  | address place => exact h.cause_of_cell (map_eq_error_iff.mp hget)

theorem cause_of_set {dest : Address} (h : m.IsOneLine)
    (hset : m.set dest v = .error (.fault cause)) : cause.IsOneLine :=
  h.cause_of_cell (map_eq_error_iff.mp hset)

theorem cause_of_execute (h : m.IsOneLine) (hi : i.Writable fun s => Unbroken s.toList)
    (hexecute : m.execute pc i = .error (.fault cause)) : cause.IsOneLine := by
  cases refused_of_execute hexecute with
  | source hfails | left hfails | right _ hfails => exact h.cause_of_get hfails
  | move _ hfails | compute _ _ _ hfails | loadAddress hfails => exact h.cause_of_set hfails
  | operation hleft hright hfails =>
      exact Operation.isOneLine_cause_of_apply (h.get hi.2.1 hleft) (h.get hi.2.2 hright) hfails
  | printf hfails =>
      unfold printedLine at hfails
      split at hfails
      · cases hfails
      · cases hfails
        exact h _ (.register .rax rfl)
  | unknown hname => exact absurd (List.mem_singleton.mp hi) hname

theorem cause_of_perform (h : m.IsOneLine) (hi : i.Writable fun s => Unbroken s.toList)
    (hresult : (m.perform p pc i).result = .error (.fault cause)) : cause.IsOneLine := by
  have hperformed := m.performed_perform p pc i
  generalize m.perform p pc i = outcome at hresult hperformed
  cases hperformed with
  | refused hplain hexecute =>
      cases hresult
      exact h.cause_of_execute hi hexecute
  | lost htarget hlabel =>
      cases hresult
      exact Instruction.unbroken_of_branchTarget? hi htarget
  | unreadable hget =>
      cases hresult
      exact h.cause_of_get hget
  | undelivered hframes hdest hget hset =>
      cases hresult
      exact (h.popFrame hframes).cause_of_set hset
  | mismatched =>
      cases hresult
      exact trivial
  | plain | enter | exit | exitLeave | resume | unnamed => cases hresult

end Causes

end IsOneLine

end Machine

namespace Program

variable {p : Program} {source : String}

theorem isOneLine_of_checkBlock {label : String} {terminator : Terminator} {cause : Fault}
    (hlabel : Unbroken label.toList) (h : p.checkBlock label terminator = .error cause) :
    cause.IsOneLine := by
  unfold checkBlock at h
  split at h
  · cases h
    exact hlabel
  · cases h
    exact hlabel
  · cases h

theorem isOneLine_of_check {cause : Fault} (hload : load source = .ok p)
    (h : p.check = .error cause) : cause.IsOneLine := by
  obtain ⟨i, hi, label, terminator, hdemand, hblock⟩ := exists_demand_of_check h
  have htarget : i.branchTarget? = some label := by
    cases i with
    | call dest target => cases dest <;> cases hdemand <;> rfl
    | jump target =>
        cases hdemand
        rfl
    | move | compute | loadAddress | label | ret | syscall | leave => cases hdemand
  have hwritable := writable_unbroken_of_load hload hi
  exact isOneLine_of_checkBlock (Instruction.unbroken_of_branchTarget? hwritable htarget) hblock

end Program

namespace Session

/-- The value is in the machine, or the session ended with it. -/
def Holds (s : Session) (v : Value) : Prop := s.machine.Holds v ∨ s.result? = some v

/-- A session of the program with `size` slots, as every one of them is. -/
structure WellFormed (p : Program) (size : Nat) (s : Session) : Prop where
  size_stack : s.machine.stack.size = size
  pc_nonneg : 0 ≤ s.pc
  pc_le : s.pc ≤ p.code.length
  frames : ∀ frame ∈ s.machine.frames, 1 ≤ frame.returnPc ∧ frame.returnPc ≤ p.code.length ∧
    ((∃ label, p.fetch (frame.returnPc - 1) = some (.call frame.dest label) ∧
        frame.viaJump = false) ∨
      ∃ label, p.fetch (frame.returnPc - 1) = some (.jump label) ∧ frame.dest = none ∧
        frame.viaJump = true)
  integers : ∀ n, s.Holds (.integer n) → -2 ^ 63 ≤ n.toInt ∧ n.toInt < 2 ^ 63
  texts : ∀ t, s.Holds (.text t) → Unbroken t.toList

variable {p : Program} {source : String} {size : Nat} {s : Session}

theorem result_of_step {v : Value} (h : s.step.1.result? = some v) :
    s.result? = some v ∨ v = Machine.defaultResult ∨
      ∃ i, s.program.fetch s.pc = some i ∧
        (s.machine.perform s.program s.pc i).result = .ok (.halt v) := by
  cases hstep : s.step.2 with
  | ok t =>
      have hnext : s.next? = some s.step.1 := next?_eq_some_iff.mpr ⟨t, Prod.ext rfl hstep⟩
      rcases cases_of_next? hnext with
        ⟨-, hafter⟩ | ⟨-, -, hafter⟩ | ⟨i, t', -, hfetch, -, hresult, hafter⟩
      · rw [hafter] at h
        exact .inl h
      · rw [hafter] at h
        exact .inr (.inl (Option.some.inj h).symm)
      · rw [hafter] at h
        cases t' with
        | halt w =>
            cases h
            exact .inr (.inr ⟨i, hfetch, hresult⟩)
        | advance | enter | resume | stopped =>
            left
            simpa [follow] using h
  | error failure =>
      cases failure with
      | fault cause =>
          rw [(stopped_of_step_fault hstep).2.2] at h
          exact .inl h
      | numeral limit =>
          rw [(keeps_of_step_numeral hstep).2.2.1] at h
          exact .inl h

namespace Reachable

theorem machine_isOneLine (hload : Program.load source = .ok p) (h : Reachable p size s) :
    s.machine.IsOneLine :=
  (h.machine_invariant (Machine.isOneLine_fresh size) fun _ _ _ hfetch hm =>
    hm.perform (Program.writable_unbroken_of_load hload (Program.mem_of_fetch hfetch))).2.2

theorem result_isOneLine (hload : Program.load source = .ok p) (h : Reachable p size s) :
    ∀ v, s.result? = some v → v.IsOneLine := by
  induction h with
  | fresh =>
      intro v hv
      cases hv
  | step h ih =>
      intro v hv
      rcases result_of_step hv with hold | rfl | ⟨i, hfetch, hhalt⟩
      · exact ih v hold
      · exact trivial
      · rw [h.program] at hfetch
        have hi := Program.writable_unbroken_of_load hload (Program.mem_of_fetch hfetch)
        exact (h.machine_isOneLine hload).halt hi hhalt
  | @check s h ih =>
      -- A failing check keeps the result.
      have hresult : s.check.1.result? = s.result? := by
        unfold Session.check
        split <;> rfl
      rw [hresult]
      exact ih
  | setTracing on h ih => exact ih
  | clearTrace h ih => exact ih
  | reset h ih =>
      intro v hv
      cases hv

theorem frame_branch (h : Reachable p size s) : ∀ frame ∈ s.machine.frames,
    1 ≤ frame.returnPc ∧ frame.returnPc ≤ p.code.length ∧
      ((∃ label, p.fetch (frame.returnPc - 1) = some (.call frame.dest label) ∧
          frame.viaJump = false) ∨
        ∃ label, p.fetch (frame.returnPc - 1) = some (.jump label) ∧ frame.dest = none ∧
          frame.viaJump = true) := by
  intro frame hframe
  obtain ⟨i, label, hfetch, htarget, hjump, hdest⟩ := h.opened frame hframe
  obtain ⟨index, hindex, hcode⟩ := Program.fetch_eq_some_iff.mp hfetch
  have hlt := (List.getElem?_eq_some_iff.mp hcode).1
  refine ⟨by omega, by omega, ?_⟩
  cases i with
  | call dest target =>
      have hsame : frame.dest = dest := hdest
      subst hsame
      exact .inl ⟨target, hfetch, hjump⟩
  | jump target => exact .inr ⟨target, hfetch, hdest, hjump⟩
  | move | compute | loadAddress | label | ret | syscall | leave => cases htarget

theorem pc_bounds (h : Reachable p size s) : 0 ≤ s.pc ∧ s.pc ≤ p.code.length := by
  induction h with
  | fresh => exact ⟨Int.le_refl 0, Int.natCast_nonneg _⟩
  | @step s h ih =>
      cases hresult : s.step.2 with
      | ok t =>
          cases moved_of_step_ok hresult with
          | idle hfinished hafter =>
              rw [hafter]
              exact ih
          | finish hrunning hfetch hafter =>
              rw [hafter]
              exact ih
          | plain hrunning hfetch hplain hexecute hmachine hpc hstate =>
              rw [h.program] at hfetch
              obtain ⟨index, hindex, hcode⟩ := Program.fetch_eq_some_iff.mp hfetch
              have hlt := (List.getElem?_eq_some_iff.mp hcode).1
              omega
          | enter hrunning hfetch htarget hlabel hmachine hpc hstate =>
              rw [h.program] at hlabel
              have hlt := (List.getElem?_eq_some_iff.mp (Program.code_of_findLabel hlabel)).1
              omega
          | @resume i frame frames v? hrunning hfetch hframes hresumed hpc hstate =>
              obtain ⟨hpos, hle, -⟩ := h.frame_branch frame (by simp [hframes])
              omega
          | exit hrunning hfetch hterminator hframes hmachine hpc hstate =>
              rw [hpc]
              exact ih
      | error failure =>
          rw [pc_of_step_error hresult]
          exact ih
  | @check s h ih =>
      have hpc : s.check.1.pc = s.pc := by
        unfold Session.check
        split <;> rfl
      rw [hpc]
      exact ih
  | setTracing on h ih => exact ih
  | clearTrace h ih => exact ih
  | reset h ih => exact ⟨Int.le_refl 0, Int.natCast_nonneg _⟩

theorem isOneLine_of_step_fault {cause : Fault} (hload : Program.load source = .ok p)
    (h : Reachable p size s) (hfault : s.step.2 = .error (.fault cause)) : cause.IsOneLine := by
  obtain ⟨i, -, hfetch, -, hresult, -⟩ := advance_of_step_fault hfault
  rw [h.program] at hfetch
  have hi := Program.writable_unbroken_of_load hload (Program.mem_of_fetch hfetch)
  exact (h.machine_isOneLine hload).cause_of_perform hi hresult

/-- A session that comes from a new one of a loaded program is well formed, whatever was done with
it and whether it raised or not. -/
theorem wellFormed (hload : Program.load source = .ok p) (h : Reachable p size s) :
    s.WellFormed p size where
  size_stack := h.size_stack
  pc_nonneg := h.pc_bounds.1
  pc_le := h.pc_bounds.2
  frames := h.frame_branch
  integers n _ := ⟨Int64.le_toInt n, Int64.toInt_lt n⟩
  texts t ht := by
    rcases ht with hmachine | hresult
    · exact h.machine_isOneLine hload _ hmachine
    · exact h.result_isOneLine hload _ hresult

end Reachable

/-- Makes a text inside of a call for a value. -/
def madeText : Program where
  code := [.call (some (.slot 1)) "f", .label "f",
    .compute .add (.register .rax) (.literal (.text "a b")) (.address (.register .rbx)),
    .ret (.address (.register .rax))]
  lineNumbers := List.range' 1 4

theorem madeText_wellFormed : ∃ s,
    Program.load "call sp[1] f\nf:\nadd rax \"a b\" rbx\nret rax\n" = .ok madeText ∧
      Reachable madeText 4 s ∧ s.depth = 1 ∧ s.Holds (.text "a b") ∧
        s.WellFormed madeText 4 := by
  have hload : Program.load "call sp[1] f\nf:\nadd rax \"a b\" rbx\nret rax\n" = .ok madeText := by
    decide +kernel
  have hinside : ((fresh madeText 4).after? 3).map
      (fun s => (s.depth, s.machine.registers.rax)) = some (1, .text "a b") := by decide
  obtain ⟨s, hrun, hs⟩ := Option.map_eq_some_iff.mp hinside
  obtain ⟨hdepth, htext⟩ := Prod.ext_iff.mp hs
  have hreach := Reachable.fresh.after? hrun
  exact ⟨s, hload, hreach, hdepth, .inl (.register .rax htext), hreach.wellFormed hload⟩

end Session

end TriReg
