import TriReg.Proofs.Step

namespace TriReg

/-- What the call or jump `i` comes to when `terminator` closes it: `before` is the machine at the
call, `last` the one just before the terminator. A call puts the registers back; a value goes to the
cell that its destination denotes after that, on the stack that the callee leaves. -/
def Machine.ReturnsTo (before last : Machine) (i terminator : Instruction) (after : Machine) :
    Prop :=
  let resumed := { last with registers := before.registers, frames := before.frames }
  match i with
  | .call none _ => after = resumed
  | .call (some dest) _ => ∃ operand v c, terminator = .ret operand ∧ last.get operand = .ok v ∧
      resumed.cell .write dest = .ok c ∧ after = resumed.store c v
  | .jump _ => after = { last with frames := before.frames }
  | _ => False

theorem Machine.returnsTo_of_resumed {before last after : Machine} {i terminator : Instruction}
    {pc : Int} {label : String} {v? : Option Value} (htarget : i.branchTarget? = some label)
    (h : last.Resumed (before.branchFrame pc i) before.frames terminator v? after) :
    before.ReturnsTo last i terminator after := by
  cases i with
  | call dest target =>
      cases dest with
      | none =>
          cases h with
          | leave | ret => rfl
          | deliver hdest => cases hdest
      | some dest =>
          cases h with
          | leave hdest | ret hdest => cases hdest
          | deliver hdest hget hset =>
              cases hdest
              obtain ⟨c, hcell, hstore⟩ := map_eq_ok_iff.mp hset
              exact ⟨_, _, c, rfl, hget, hcell, hstore.symm⟩
  | jump target =>
      cases h with
      | leave | ret => rfl
      | deliver hdest => cases hdest
  | _ => cases htarget

namespace Session

variable {s t after : Session} {i : Instruction} {label : String} {frame : Frame}
  {frames : List Frame}

theorem Moved.suffix_or_resumed (h : t.Moved after)
    (hbelow : frame :: frames <:+ t.machine.frames) :
    frame :: frames <:+ after.machine.frames ∨
      ∃ terminator v?, t.program.fetch t.pc = some terminator ∧
        t.machine.Resumed frame frames terminator v? after.machine ∧ after.pc = frame.returnPc := by
  cases h with
  | idle hfinished hafter =>
      subst hafter
      exact .inl hbelow
  | finish hrunning hfetch hafter =>
      subst hafter
      exact .inl hbelow
  | plain hrunning hfetch hplain hexecute hmachine hpc hstate =>
      rw [hmachine, Machine.frames_of_execute hplain hexecute]
      exact .inl hbelow
  | enter hrunning hfetch htarget hlabel hmachine hpc hstate =>
      rw [hmachine]
      exact .inl (hbelow.trans (List.suffix_cons _ _))
  | resume hrunning hfetch hframes hresumed hpc hstate =>
      rw [hframes, List.suffix_cons_iff] at hbelow
      rcases hbelow with hsame | hbelow
      · cases hsame
        exact .inr ⟨_, _, hfetch, hresumed, hpc⟩
      · rw [Machine.frames_of_resumed hresumed]
        exact .inl hbelow
  | exit hrunning hfetch hterminator hframes hmachine hpc hstate =>
      rw [hframes] at hbelow
      exact absurd (List.suffix_nil.mp hbelow) (List.cons_ne_nil _ _)

theorem depth_of_resumed {terminator : Instruction} {v? : Option Value}
    (h : t.machine.Resumed frame frames terminator v? after.machine) :
    after.depth = frames.length := by
  rw [depth, Machine.frames_of_resumed h]

theorem lt_depth_of_suffix (h : frame :: frames <:+ t.machine.frames) :
    frames.length < t.depth := by
  have hlength := h.length_le
  rw [List.length_cons] at hlength
  exact hlength

theorem frames_of_branch (hrunning : s.runState = .running)
    (hfetch : s.program.fetch s.pc = some i) (htarget : i.branchTarget? = some label)
    (hnext : s.next? = some after) :
    after.machine.frames = s.machine.branchFrame s.pc i :: s.machine.frames := by
  have hi := Instruction.not_isTerminator_of_branchTarget? htarget
  cases moved_of_next? hnext with
  | idle hfinished => exact absurd hrunning hfinished
  | finish _ hnone =>
      rw [hfetch] at hnone
      cases hnone
  | plain _ hfetch' hplain =>
      rw [hfetch] at hfetch'
      cases hfetch'
      rw [Instruction.branchTarget?_of_isPlain hplain] at htarget
      cases htarget
  | enter _ hfetch' _ _ hmachine =>
      rw [hfetch] at hfetch'
      cases hfetch'
      rw [hmachine]
      rfl
  | resume _ hfetch' _ hresumed =>
      rw [hfetch] at hfetch'
      cases hfetch'
      exact absurd (Machine.isTerminator_of_resumed hresumed) hi
  | exit _ hfetch' hterminator =>
      rw [hfetch] at hfetch'
      cases hfetch'
      exact absurd hterminator hi

/-- Before the first return to its depth, the frame of a call or a jump stays on those of the
caller. -/
theorem suffix_of_after? (hrunning : s.runState = .running)
    (hfetch : s.program.fetch s.pc = some i) (htarget : i.branchTarget? = some label) {k : Nat}
    (hdeep : ∀ j ≤ k + 1, 0 < j → ∀ u, s.after? j = some u → u.depth ≠ s.depth)
    (hrun : s.after? (k + 1) = some t) :
    s.machine.branchFrame s.pc i :: s.machine.frames <:+ t.machine.frames := by
  induction k generalizing t with
  | zero =>
      have hnext : s.next? = some t := hrun
      exact frames_of_branch hrunning hfetch htarget hnext ▸ List.suffix_refl _
  | succ k ih =>
      obtain ⟨u, hu, hnext⟩ := Option.bind_eq_some_iff.mp hrun
      have hbelow := ih (fun j hj => hdeep j (by omega)) hu
      rcases (moved_of_next? hnext).suffix_or_resumed hbelow with hbelow | hclosed
      · exact hbelow
      · obtain ⟨terminator, v?, -, hresumed, -⟩ := hclosed
        exact absurd (depth_of_resumed hresumed) (hdeep (k + 2) (by omega) (by omega) t hrun)

/-- A call or a jump comes back, at the first return to its depth, to the frames of the caller, to
the instruction after it, and with what its kind of call keeps and returns. -/
theorem balanced_call {n : Nat} (hrunning : s.runState = .running)
    (hfetch : s.program.fetch s.pc = some i) (htarget : i.branchTarget? = some label)
    (hrun : s.after? (n + 1) = some after) (hdepth : after.depth = s.depth)
    (hfirst : ∀ k ≤ n, 0 < k → ∀ u, s.after? k = some u → u.depth ≠ s.depth) :
    after.machine.frames = s.machine.frames ∧ after.pc = s.pc + 1 ∧
      ∃ last terminator, s.after? n = some last ∧ s.program.fetch last.pc = some terminator ∧
        terminator.IsTerminator ∧
        s.machine.ReturnsTo last.machine i terminator after.machine := by
  obtain ⟨last, hlast, hnext⟩ := Option.bind_eq_some_iff.mp hrun
  rcases n with _ | n
  · cases hlast
    rw [depth, frames_of_branch hrunning hfetch htarget hnext] at hdepth
    simp [depth] at hdepth
  · have hbelow := suffix_of_after? hrunning hfetch htarget hfirst hlast
    rcases (moved_of_next? hnext).suffix_or_resumed hbelow with hbelow | hclosed
    · have hlt := lt_depth_of_suffix hbelow
      rw [hdepth] at hlt
      exact absurd hlt (Nat.lt_irrefl _)
    · obtain ⟨terminator, v?, hterminator, hresumed, hpc⟩ := hclosed
      rw [program_of_after? hlast] at hterminator
      exact ⟨Machine.frames_of_resumed hresumed, hpc, last, terminator, hlast, hterminator,
        Machine.isTerminator_of_resumed hresumed, Machine.returnsTo_of_resumed htarget hresumed⟩

/-- A call for a value goes to the slot that `rbx` names, and the callee changes `rbx`. -/
def nestedCalls : Program where
  code := [.move (.register .rbx) (.literal (.integer 2)),
    .call (some (.reference (.register .rbx))) "f", .leave, .label "f",
    .move (.register .rbx) (.literal (.integer 1)), .call none "g", .jump "g",
    .ret (.literal (.text "done")), .label "g", .leave]
  lineNumbers := List.range' 1 10

def nestedCallSite : Session where
  program := nestedCalls
  machine := { registers := { rbx := .integer 2 }, stack := Array.replicate 4 .uninitialized }
  pc := 1
  steps := 1

theorem nestedCalls_balanced : (fresh nestedCalls 4).after? 1 = some nestedCallSite ∧
    ∃ after, nestedCallSite.after? 10 = some after ∧
      after.machine.frames = nestedCallSite.machine.frames ∧ after.pc = 2 ∧
      after.machine.stack[2]? = some (.text "done") ∧
      ∃ last terminator, nestedCallSite.after? 9 = some last ∧
        nestedCalls.fetch last.pc = some terminator ∧ terminator.IsTerminator ∧
        nestedCallSite.machine.ReturnsTo last.machine
          (.call (some (.reference (.register .rbx))) "f") terminator after.machine := by
  have hback : (nestedCallSite.after? 10).map (fun u => (u.depth, u.machine.stack[2]?)) =
      some (0, some (.text "done")) := by decide
  obtain ⟨after, hrun, hafter⟩ := Option.map_eq_some_iff.mp hback
  have hdeep : ∀ k ≤ 9, 0 < k → (nestedCallSite.after? k).map depth ≠ some 0 := by decide
  have hfirst : ∀ k ≤ 9, 0 < k → ∀ u, nestedCallSite.after? k = some u →
      u.depth ≠ nestedCallSite.depth := by
    intro k hk hpos u hu hdepth
    exact hdeep k hk hpos (by rw [hu, Option.map_some, hdepth]; rfl)
  obtain ⟨hframes, hpc, hreturns⟩ :=
    balanced_call rfl rfl rfl hrun (congrArg Prod.fst hafter) hfirst
  exact ⟨by decide, after, hrun, hframes, hpc, congrArg Prod.snd hafter, hreturns⟩

end Session

end TriReg
