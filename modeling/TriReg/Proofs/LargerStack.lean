import TriReg.Proofs.Reachable

/-!
Larger stacks. Every slot that a program touches without failing lies within its stack, so a run
that raises nothing is the same on any larger stack, and the further slots stay uninitialized. The
simulation goes from `Machine.cell_widen` for one address over `Machine.perform_widen` for one
instruction to `Session.step_widen` for one step.
-/

namespace TriReg

namespace Machine

/-- The machine with `extra` further slots behind its stack, all uninitialized. -/
def widen (m : Machine) (extra : Nat) : Machine :=
  { m with stack := m.stack ++ Array.replicate extra .uninitialized }

variable {m after : Machine} {access : Access}

@[simp] theorem size_widen (m : Machine) (extra : Nat) :
    (m.widen extra).stack.size = m.stack.size + extra := by
  simp [widen]

theorem widen_fresh (size extra : Nat) : (fresh size).widen extra = fresh (size + extra) := by
  simp [widen, fresh, Array.replicate_append_replicate]

@[simp] theorem content_widen (m : Machine) (extra : Nat) (c : Cell) :
    (m.widen extra).content c = m.content c := by
  cases c with
  | register r => rfl
  | slot index =>
      simp only [content, widen, Array.getD_eq_getD_getElem?]
      rcases Nat.lt_or_ge index m.stack.size with hindex | hindex
      · rw [Array.getElem?_append_left hindex]
      · rw [Array.getElem?_append_right hindex, Array.getElem?_eq_none hindex,
          Array.getElem?_replicate]
        split <;> rfl

theorem store_widen {c : Cell} (h : m.HasCell c) (extra : Nat) (v : Value) :
    (m.widen extra).store c v = (m.store c v).widen extra := by
  cases c with
  | register r => rfl
  | slot index =>
      have hindex : index < m.stack.size := h
      simp only [store, widen, Array.setIfInBounds_append_left hindex]

theorem slotIndex_widen {v : Value} {index : Nat} (h : m.slotIndex access v = .ok index)
    (extra : Nat) : (m.widen extra).slotIndex access v = .ok index := by
  unfold slotIndex at h ⊢
  split at h
  · split at h
    · rw [if_pos (by rw [size_widen]; omega)]
      exact h
    · cases h
  · split at h
    · rw [if_pos (by rw [size_widen]; omega)]
      exact h
    · cases h
  all_goals cases h

theorem cell_widen {place : Address} {c : Cell} (h : m.cell access place = .ok c) (extra : Nat) :
    (m.widen extra).cell access place = .ok c := by
  induction place generalizing access c with
  | register r => exact h
  | slot index =>
      unfold cell at h ⊢
      split at h
      · rw [if_pos (by rw [size_widen]; omega)]
        exact h
      · cases h
  | reference target ih =>
      obtain ⟨hsingle, pointer, index, hpointer, hindex, rfl⟩ := cell_reference_eq_ok_iff.mp h
      refine cell_reference_eq_ok_iff.mpr ⟨hsingle, pointer, index, ih hpointer, ?_, rfl⟩
      rw [content_widen]
      exact slotIndex_widen hindex extra

theorem get_widen {operand : Operand} {v : Value} (h : m.get operand = .ok v) (extra : Nat) :
    (m.widen extra).get operand = .ok v := by
  cases operand with
  | literal w => exact h
  | address place =>
      obtain ⟨c, hcell, rfl⟩ := map_eq_ok_iff.mp h
      exact map_eq_ok_iff.mpr ⟨c, cell_widen hcell extra, content_widen m extra c⟩

theorem set_widen {dest : Address} {v : Value} (h : m.set dest v = .ok after) (extra : Nat) :
    (m.widen extra).set dest v = .ok (after.widen extra) := by
  obtain ⟨c, hcell, rfl⟩ := map_eq_ok_iff.mp h
  exact map_eq_ok_iff.mpr
    ⟨c, cell_widen hcell extra, store_widen (hasCell_of_cell hcell) extra v⟩

theorem executed_widen {pc : Int} {i : Instruction} {effect : Effect}
    (h : m.Executed pc i effect) (extra : Nat) :
    (m.widen extra).Executed pc i { effect with machine := effect.machine.widen extra } := by
  cases h with
  | move hsource hset => exact .move (get_widen hsource extra) (set_widen hset extra)
  | compute hleft hright hsum hset =>
      exact .compute (get_widen hleft extra) (get_widen hright extra) hsum (set_widen hset extra)
  | loadAddress hset => exact .loadAddress (set_widen hset extra)
  | printf hline => exact .printf hline
  | call => exact .call
  | jump => exact .jump
  | label => exact .label
  | ret => exact .ret
  | leave => exact .leave

theorem execute_widen {pc : Int} {i : Instruction} {effect : Effect}
    (h : m.execute pc i = .ok effect) (extra : Nat) :
    (m.widen extra).execute pc i = .ok { effect with machine := effect.machine.widen extra } :=
  execute_of_executed (executed_widen (executed_of_execute h) extra)

theorem resumed_widen {frame : Frame} {frames : List Frame} {i : Instruction} {v? : Option Value}
    (h : m.Resumed frame frames i v? after) (extra : Nat) :
    (m.widen extra).Resumed frame frames i v? (after.widen extra) := by
  cases h with
  | leave hdest => exact .leave hdest
  | ret hdest hget => exact .ret hdest (get_widen hget extra)
  | deliver hdest hget hset => exact .deliver hdest (get_widen hget extra) (set_widen hset extra)

theorem perform_widen {p : Program} {pc : Int} {i : Instruction} {t : Transition}
    (h : (m.perform p pc i).result = .ok t) (extra : Nat) :
    (m.widen extra).perform p pc i =
      { m.perform p pc i with machine := (m.perform p pc i).machine.widen extra } := by
  apply perform_eq_of_performed
  have hperformed := m.performed_perform p pc i
  generalize m.perform p pc i = outcome at h hperformed
  cases hperformed with
  | plain hplain hexecute => exact .plain hplain (execute_widen hexecute extra)
  | enter htarget hlabel => exact .enter htarget hlabel
  | exit hframes hget => exact .exit hframes (get_widen hget extra)
  | exitLeave hframes => exact .exitLeave hframes
  | resume hframes hresumed => exact .resume hframes (resumed_widen hresumed extra)
  | refused | lost | unreadable | undelivered | mismatched | unnamed => cases h

end Machine

namespace Session

/-- The session on a stack with `extra` further slots, all uninitialized. -/
def widen (s : Session) (extra : Nat) : Session :=
  { s with machine := s.machine.widen extra }

variable {s after : Session}

theorem record_widen (s : Session) (line : String) (extra : Nat) :
    (s.widen extra).record line = (s.record line).widen extra := by
  by_cases htracing : s.tracing = true <;> simp [record, widen, htracing]

theorem print_widen (s : Session) (line? : Option String) (extra : Nat) :
    (s.widen extra).print line? = (s.print line?).widen extra := by
  cases line? <;> rfl

theorem follow_widen (s : Session) (t : Transition) (extra : Nat) :
    (s.widen extra).follow t = (s.follow t).widen extra := by
  cases t <;> rfl

theorem performed_widen {i : Instruction} {t : Transition}
    (h : (s.machine.perform s.program s.pc i).result = .ok t) (extra : Nat) :
    (s.widen extra).performed i = (s.performed i).widen extra := by
  have hperform :
      (s.widen extra).machine.perform (s.widen extra).program (s.widen extra).pc i = _ :=
    Machine.perform_widen h extra
  rw [performed, hperform, record_widen]
  exact print_widen { s.record (traceLine s.pc.toNat i s.machine.registers) with
    machine := (s.machine.perform s.program s.pc i).machine } _ extra

theorem step_widen {t : Transition} (h : s.step = (after, .ok t)) (extra : Nat) :
    (s.widen extra).step = (after.widen extra, .ok t) := by
  rcases s.cases_of_step with ⟨hfinished, hidle⟩ | ⟨hrunning, hfetch, hend⟩ |
    ⟨i, hrunning, hfetch, ⟨-, hraise⟩ | ⟨htrace, hadvance⟩⟩
  · cases hidle.symm.trans h
    exact step_of_finished (s := s.widen extra) hfinished
  · cases hend.symm.trans h
    exact step_of_fetch_none (s := s.widen extra) hrunning hfetch
  · cases hraise.symm.trans h
  · rw [hadvance] at h
    have hresult : (s.machine.perform s.program s.pc i).result = .ok t := by
      rw [← result_of_advance, h]
    cases (advance_of_ok hresult).symm.trans h
    have hwide : ((s.widen extra).machine.perform s.program s.pc i).result = .ok t := by
      rw [widen, Machine.perform_widen hresult extra]
      exact hresult
    rw [step_of_fetch (s := s.widen extra) hrunning hfetch htrace, advance_of_ok hwide,
      performed_widen hresult, follow_widen]

theorem next?_widen (h : s.next? = some after) (extra : Nat) :
    (s.widen extra).next? = some (after.widen extra) := by
  obtain ⟨t, hstep⟩ := next?_eq_some_iff.mp h
  exact next?_eq_some_iff.mpr ⟨t, step_widen hstep extra⟩

theorem after?_widen {n : Nat} (h : s.after? n = some after) (extra : Nat) :
    (s.widen extra).after? n = some (after.widen extra) := by
  induction n generalizing after with
  | zero =>
      cases h
      rfl
  | succ n ih =>
      obtain ⟨u, hu, hnext⟩ := Option.bind_eq_some_iff.mp h
      exact Option.bind_eq_some_iff.mpr ⟨u.widen extra, ih hu, next?_widen hnext extra⟩

theorem check_widen (s : Session) (extra : Nat) :
    (s.widen extra).check = (s.check.1.widen extra, s.check.2) := by
  simp only [check, widen]
  split <;> rfl

theorem runSteps_widen {limit : Nat} (h : s.runSteps limit = (after, .ok ())) (extra : Nat) :
    (s.widen extra).runSteps limit = (after.widen extra, .ok ()) := by
  induction limit generalizing s with
  | zero =>
      unfold runSteps at h ⊢
      split at h
      · rename_i hfinished
        cases h
        exact if_pos hfinished
      · cases h
  | succ limit ih =>
      unfold runSteps at h ⊢
      split at h
      · rename_i hfinished
        cases h
        exact if_pos hfinished
      · rename_i hrunning
        rw [if_neg (show ¬ (s.widen extra).runState.isFinished = true from hrunning)]
        split at h
        · rename_i u t hstep
          rw [step_widen hstep extra]
          exact ih h
        · cases h

theorem run_widen {checked : Bool} {limit : Nat} {code : Option Int}
    (h : s.run checked limit = (after, .ok code)) (extra : Nat) :
    (s.widen extra).run checked limit = (after.widen extra, .ok code) := by
  have hcheck : (if checked then (s.widen extra).check else (s.widen extra, .ok ())) =
      ((if checked then s.check else (s, .ok ())).1.widen extra,
        (if checked then s.check else (s, .ok ())).2) := by
    split
    · exact check_widen s extra
    · rfl
  unfold run at h ⊢
  rw [hcheck]
  split at h
  · cases h
  · rename_i u heq
    rw [heq]
    cases hsteps : u.runSteps limit with
    | mk v result =>
        rw [hsteps] at h
        cases result with
        | error stop => cases h
        | ok done =>
            cases h
            simp only [runSteps_widen hsteps extra]
            rfl

/-- A run that raises nothing is the same on any larger stack, up to the further slots, which stay
uninitialized; and so is a run up to its end. -/
theorem run_on_larger_stack {p : Program} {m n : Nat} (hsize : m ≤ n) :
    (∀ k s, (fresh p m).after? k = some s →
      s.machine.stack.size = m ∧ (fresh p n).after? k = some (s.widen (n - m))) ∧
      ∀ checked limit s code, (fresh p m).run checked limit = (s, .ok code) →
        s.machine.stack.size = m ∧
          (fresh p n).run checked limit = (s.widen (n - m), .ok code) := by
  have hwiden : (fresh p m).widen (n - m) = fresh p n := by
    rw [widen, fresh, fresh, Machine.widen_fresh, Nat.add_sub_cancel' hsize]
  constructor
  · intro k s hrun
    refine ⟨(Reachable.fresh.after? hrun).size_stack, ?_⟩
    rw [← hwiden]
    exact after?_widen hrun (n - m)
  · intro checked limit s code hrun
    have hreach : Reachable p m ((fresh p m).run checked limit).1 :=
      Reachable.fresh.run checked limit
    rw [hrun] at hreach
    refine ⟨hreach.size_stack, ?_⟩
    rw [← hwiden]
    exact run_widen hrun (n - m)

/-- Moves a pointer to the last of three slots, where the value of a call goes. -/
def pointerWalk : Program where
  code := [.loadAddress (.register .rax) (.slot 1),
    .compute .add (.register .rax) (.address (.register .rax)) (.literal (.integer 1)),
    .call (some (.reference (.register .rax))) "f", .leave, .label "f",
    .move (.register .rax) (.literal (.integer 7)), .ret (.literal (.text "done"))]
  lineNumbers := List.range' 1 7

theorem pointerWalk_on_larger_stack : 3 ≤ 5 ∧ ∃ s,
    s.machine.stack = #[.uninitialized, .uninitialized, .text "done"] ∧
      (fresh pointerWalk 3).after? 7 = some s ∧
      (fresh pointerWalk 5).after? 7 = some (s.widen 2) ∧
      (fresh pointerWalk 3).run true 7 = (s, .ok (some 0)) ∧
      (fresh pointerWalk 5).run true 7 = (s.widen 2, .ok (some 0)) := by
  have hsize : 3 ≤ 5 := by decide
  obtain ⟨hsteps, hrun⟩ := run_on_larger_stack (p := pointerWalk) hsize
  have hstack : ((fresh pointerWalk 3).after? 7).map (fun s => s.machine.stack) =
      some #[.uninitialized, .uninitialized, .text "done"] := by decide
  have hend : (fresh pointerWalk 3).after? 7 = some ((fresh pointerWalk 3).run true 7).1 ∧
      ((fresh pointerWalk 3).run true 7).2 = .ok (some 0) := by decide
  obtain ⟨s, hs, hslots⟩ := Option.map_eq_some_iff.mp hstack
  have hsame := hend.1
  rw [hs] at hsame
  have hhalted : (fresh pointerWalk 3).run true 7 = (s, .ok (some 0)) :=
    Prod.ext (Option.some.inj hsame).symm hend.2
  exact ⟨hsize, s, hslots, hs, (hsteps 7 s hs).2, hhalted, (hrun true 7 s _ hhalted).2⟩

end Session

end TriReg
