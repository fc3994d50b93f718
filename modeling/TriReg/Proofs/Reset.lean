import TriReg.Proofs.Unseen

namespace TriReg

namespace Session

/-- What can be seen of a session. -/
structure View where
  pc : Int
  steps : Nat
  runState : RunState
  result? : Option Value
  fault? : Option Fault
  exitCode? : Option Int
  output : Array String
  registers : Registers
  stack : Array Value
  frames : List Frame
  traceText : String
  dump : String
  deriving DecidableEq

def view (s : Session) : View where
  pc := s.pc
  steps := s.steps
  runState := s.runState
  result? := s.result?
  fault? := s.fault?
  exitCode? := s.exitCode?
  output := s.output
  registers := s.machine.registers
  stack := s.machine.stack
  frames := s.machine.frames
  traceText := s.traceText
  dump := s.dump

/-- What a command comes back with. -/
inductive Reply where
  | stepped (result : Except Failure Transition)
  | ran (result : Except Stop (Option Int))
  | checked (result : Except Fault Unit)
  | nothing

def reply (s : Session) : Command → Reply
  | .step => .stepped s.step.2
  | .run checked limit => .ran (s.run checked limit).2
  | .check => .checked s.check.2
  | .setTracing _ | .clearTrace | .reset => .nothing

/-- What commands come back with, each with the view it leaves. -/
def transcript (s : Session) : List Command → List (Reply × View)
  | [] => []
  | c :: commands => (s.reply c, (s.obey c).view) :: (s.obey c).transcript commands

section Hidden

variable {code : List Instruction} {f : Session → Session} (s : Session)

theorem Unseen.reply (hf : Unseen code f) (hs : s.program.code = code) (c : Command) :
    (f s).reply c = s.reply c := by
  cases c with
  | step => rw [Session.reply, hf.step s hs, Session.reply]
  | run checked limit => rw [Session.reply, hf.run s hs, Session.reply]
  | check => rw [Session.reply, hf.check, Session.reply]
  | setTracing | clearTrace | reset => rfl

theorem Hidden.transcript (hf : Hidden code f) (hview : ∀ u, (f u).view = u.view)
    (hs : s.program.code = code) (commands : List Command) :
    (f s).transcript commands = s.transcript commands := by
  induction commands generalizing s with
  | nil => rfl
  | cons c commands ih =>
      have hafter : (s.obey c).program.code = code := (congrArg _ (program_obey s c)).trans hs
      rw [Session.transcript, Session.transcript, hf.reply s hs, hf.obey s hs, hview,
        ih (s.obey c) hafter]

end Hidden

/-- The session with lines that were printed before its own. -/
def printedAfter (s : Session) (lines : Array String) : Session :=
  { s with printed := lines ++ s.printed }

theorem hidden_printedAfter (code : List Instruction) (lines : Array String) :
    Hidden code (·.printedAfter lines) where
  code_eq _ := rfl
  machine _ := rfl
  pc _ := rfl
  runState _ := rfl
  result? _ := rfl
  untraceable _ _ _ := rfl
  withMachine _ _ := rfl
  halt _ _ := rfl
  fail _ _ := rfl
  record s line := by
    unfold record
    cases htracing : s.tracing <;> simp [printedAfter, htracing]
  print s line? := by
    cases line? with
    | none => rfl
    | some line => simp only [print, printedAfter, Array.push_append]
  follow _ t := by cases t <;> rfl
  setTracing _ _ := rfl
  clearTrace _ := rfl
  reset _ := rfl

variable {p : Program} {size : Nat} {s : Session} {before : List Command}

/-- A reset goes back to the new session, since no command changes the program or the size of the
stack. -/
theorem Reachable.reset_eq (h : Reachable p size s) :
    s.reset = ((Session.fresh p size).setTracing s.tracing).printedAfter s.printed := by
  rw [Session.reset, Machine.reset, h.program, h.size_stack, printedAfter]
  simp only [Session.fresh, Session.setTracing, Array.append_empty]

/-- After a reset a session looks like a new one, whatever was done to it before, and everything
that is done to it later goes as with a new one whose tracing is switched the same way. -/
theorem reset_as_new (hs : (fresh p size).obeyAll before = s) :
    s.reset.view = (fresh p size).view ∧ ∀ later,
      s.reset.transcript later = ((fresh p size).setTracing s.tracing).transcript later ∧
        (s.reset.obeyAll later).printed =
          s.printed ++ (((fresh p size).setTracing s.tracing).obeyAll later).printed := by
  have hreach : Reachable p size s := hs ▸ Reachable.fresh.obeyAll before
  rw [hreach.reset_eq]
  -- The view has neither the lines that were printed before nor the switch of the tracing.
  refine ⟨rfl, ?_⟩
  intro later
  have hhidden := hidden_printedAfter p.code s.printed
  exact ⟨hhidden.transcript _ (fun _ => rfl) rfl later,
    congrArg Session.printed (hhidden.obeyAll _ rfl later)⟩

/-- Prints a line and calls a block that calls one that is missing. -/
def brokenOff : Program where
  code := [.move (.register .rax) (.literal (.text "a")), .syscall "printf", .call none "f",
    .label "f", .call none "g", .leave]
  lineNumbers := List.range' 1 6

theorem brokenOff_reset_as_new : ∃ s,
    (fresh brokenOff 2).obeyAll [.setTracing true, .run false 5, .check] = s ∧
      s.runState = .faulted ∧ s.status = .faulted (.labelNotFound "g") none ∧ s.depth = 2 ∧
      s.reset.view = (fresh brokenOff 2).view ∧
      s.reset.transcript [.step, .run true 5] =
        ((fresh brokenOff 2).setTracing true).transcript [.step, .run true 5] := by
  obtain ⟨s, hs⟩ : ∃ s,
      (fresh brokenOff 2).obeyAll [.setTracing true, .run false 5, .check] = s := ⟨_, rfl⟩
  have h := reset_as_new hs
  have hstate : s.runState = .faulted := hs ▸ by decide
  have hstatus : s.status = .faulted (.labelNotFound "g") none := hs ▸ by decide
  have hdepth : s.depth = 2 := hs ▸ by decide
  have htracing : s.tracing = true := hs ▸ by decide
  exact ⟨s, hs, hstate, hstatus, hdepth, h.1, htracing ▸ (h.2 [.step, .run true 5]).1⟩

end Session

end TriReg
