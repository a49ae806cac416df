import DripStone.Library.MethodRun

/-!
# Blocks that report

A block of instructions prepares operands above the stack it finds and ends
with a call that takes them all and reports.  Whatever the instructions before
the call do with their operands, the block as a whole leaves the stack and the
local variables as they were, or throws.
-/

namespace DripStone.Library

section Blocks

variable {B Event V : Type}

/-- A block runs from a frame: the events it emits, and the outcome with the
local variables of the frame it comes from. -/
inductive Passage
    (inserted : B → Frame V → List Event → Outcome V → Prop) :
    List B → Frame V → List Event → (Nat → V) → Outcome V → Prop where
  | through (frame : Frame V) :
      Passage inserted [] frame [] frame.locals (.next frame)
  | next {instr : B} {rest : List B} {frame after : Frame V}
      {here later : List Event} {locals : Nat → V} {outcome : Outcome V} :
      inserted instr frame here (.next after) →
        Passage inserted rest after later locals outcome →
          Passage inserted (instr :: rest) frame (here ++ later) locals
            outcome
  | stop {instr : B} {rest : List B} {frame : Frame V} {here : List Event}
      {outcome : Outcome V} :
      inserted instr frame here outcome →
        (∀ after, outcome ≠ .next after) →
          Passage inserted (instr :: rest) frame here frame.locals outcome

/-- A block comes through with the frame it found, having reported once, or
throws before or after its report; and it may do each. -/
structure Transparent
    (inserted : B → Frame V → List Event → Outcome V → Prop)
    (block : List B) (report : Event) : Prop where
  sound : ∀ frame events locals outcome,
    Passage inserted block frame events locals outcome →
      locals = frame.locals ∧
        ((outcome = .next frame ∧ events = [report]) ∨
          ∃ exception, outcome = .throw exception ∧
            (events = [] ∨ events = [report]))
  passes : ∀ frame,
    Passage inserted block frame [report] frame.locals (.next frame)
  fails : ∀ frame exception,
    Passage inserted block frame [] frame.locals (.throw exception) ∧
      Passage inserted block frame [report] frame.locals (.throw exception)

variable (inserted : B → Frame V → List Event → Outcome V → Prop)

/-- An instruction that takes so many operands, gives so many, and reports
nothing.  It may throw. -/
structure Silent (instr : B) (takes gives : Nat) : Prop where
  sound : ∀ operands stack locals events outcome,
    operands.length = takes →
      inserted instr ⟨operands ++ stack, locals⟩ events outcome →
        events = [] ∧
          ((∃ results : List V, results.length = gives ∧
            outcome = .next ⟨results ++ stack, locals⟩) ∨
          ∃ exception, outcome = .throw exception)
  passes : ∀ operands stack locals, operands.length = takes →
    ∃ results : List V, results.length = gives ∧
      inserted instr ⟨operands ++ stack, locals⟩ []
        (.next ⟨results ++ stack, locals⟩)
  fails : ∀ frame exception, inserted instr frame [] (.throw exception)

/-- An instruction that takes so many operands and reports once.  It may
throw, before its report or after it. -/
structure Reporting (instr : B) (takes : Nat) (report : Event) : Prop where
  sound : ∀ operands stack locals events outcome,
    operands.length = takes →
      inserted instr ⟨operands ++ stack, locals⟩ events outcome →
        (outcome = .next ⟨stack, locals⟩ ∧ events = [report]) ∨
          ∃ exception, outcome = .throw exception ∧
            (events = [] ∨ events = [report])
  passes : ∀ operands stack locals, operands.length = takes →
    inserted instr ⟨operands ++ stack, locals⟩ [report]
      (.next ⟨stack, locals⟩)
  fails : ∀ frame exception,
    inserted instr frame [] (.throw exception) ∧
      inserted instr frame [report] (.throw exception)

/-- An instruction does not touch what lies below its operands. -/
theorem Silent.below
    {inserted : B → Frame V → List Event → Outcome V → Prop} {instr : B}
    {takes gives : Nat}
    (silent : Silent inserted instr takes gives)
    (below : Nat) :
    Silent inserted instr (takes + below) (gives + below) where
  sound operands stack locals events outcome count step := by
    have shape : operands ++ stack =
        operands.take takes ++ (operands.drop takes ++ stack) := by
      rw [← List.append_assoc, List.take_append_drop]
    rw [shape] at step
    obtain ⟨quiet, ⟨results, given, isNext⟩ | throws⟩ :=
      silent.sound _ _ locals events outcome (by simp; omega) step
    · refine ⟨quiet, Or.inl ⟨results ++ operands.drop takes, ?_, ?_⟩⟩
      · simp only [List.length_append, List.length_drop]
        omega
      · rw [isNext, List.append_assoc]
    · exact ⟨quiet, Or.inr throws⟩
  passes operands stack locals count := by
    have shape : operands ++ stack =
        operands.take takes ++ (operands.drop takes ++ stack) := by
      rw [← List.append_assoc, List.take_append_drop]
    obtain ⟨results, given, step⟩ := silent.passes (operands.take takes)
      (operands.drop takes ++ stack) locals (by simp; omega)
    refine ⟨results ++ operands.drop takes, ?_, ?_⟩
    · simp only [List.length_append, List.length_drop]
      omega
    · rw [shape, List.append_assoc]
      exact step
  fails := silent.fails

/-- From so many operands on, the block prepares the operands of the call that
ends it. -/
inductive Prepares (report : Event) : Nat → List B → Prop where
  | report {instr : B} {takes : Nat} :
      Reporting inserted instr takes report → Prepares report takes [instr]
  | silent {instr : B} {rest : List B} {takes gives : Nat} :
      Silent inserted instr takes gives → Prepares report gives rest →
        Prepares report takes (instr :: rest)

namespace Prepares

variable {inserted} {report : Event} {takes : Nat} {block : List B}

theorem sound (prepares : Prepares inserted report takes block) :
    ∀ (operands stack : List V) (start : Nat → V) (events : List Event)
      (locals : Nat → V) (outcome : Outcome V), operands.length = takes →
        Passage inserted block ⟨operands ++ stack, start⟩ events locals
            outcome →
          locals = start ∧
            ((outcome = .next ⟨stack, start⟩ ∧ events = [report]) ∨
              ∃ exception, outcome = .throw exception ∧
                (events = [] ∨ events = [report])) := by
  induction prepares with
  | report reporting =>
      intro operands stack start events locals outcome count passage
      cases passage with
      | next step ends =>
          obtain ⟨isNext, once⟩ | ⟨exception, isThrow, _⟩ :=
            reporting.sound operands stack start _ _ count step
          · cases isNext
            cases ends
            exact ⟨rfl, Or.inl ⟨rfl, by simpa using once⟩⟩
          · cases isThrow
      | stop step stops =>
          exact ⟨rfl, reporting.sound operands stack start _ _ count step⟩
  | silent silent _ inductionHypothesis =>
      intro operands stack start events locals outcome count passage
      cases passage with
      | next step ends =>
          obtain ⟨rfl, ⟨results, given, isNext⟩ | ⟨exception, isThrow⟩⟩ :=
            silent.sound operands stack start _ _ count step
          · cases isNext
            simpa using inductionHypothesis results stack start _ locals
              outcome given ends
          · cases isThrow
      | stop step stops =>
          obtain ⟨rfl, ⟨results, _, isNext⟩ | ⟨exception, isThrow⟩⟩ :=
            silent.sound operands stack start _ _ count step
          · exact absurd isNext (stops _)
          · exact ⟨rfl, Or.inr ⟨exception, isThrow, Or.inl rfl⟩⟩

theorem passes (prepares : Prepares inserted report takes block) :
    ∀ (operands stack : List V) (locals : Nat → V),
      operands.length = takes →
        Passage inserted block ⟨operands ++ stack, locals⟩ [report] locals
          (.next ⟨stack, locals⟩) := by
  induction prepares with
  | report reporting =>
      intro operands stack locals count
      exact .next (reporting.passes operands stack locals count)
        (.through ⟨stack, locals⟩)
  | silent silent _ inductionHypothesis =>
      intro operands stack locals count
      obtain ⟨results, given, step⟩ :=
        silent.passes operands stack locals count
      exact .next step (inductionHypothesis results stack locals given)

theorem fails (prepares : Prepares inserted report takes block) :
    ∀ (operands stack : List V) (locals : Nat → V) (exception : V),
      operands.length = takes →
        Passage inserted block ⟨operands ++ stack, locals⟩ [] locals
            (.throw exception) ∧
          Passage inserted block ⟨operands ++ stack, locals⟩ [report] locals
            (.throw exception) := by
  induction prepares with
  | report reporting =>
      intro operands stack locals exception count
      have thrown := reporting.fails ⟨operands ++ stack, locals⟩ exception
      exact ⟨.stop thrown.1 (by simp), .stop thrown.2 (by simp)⟩
  | silent silent _ inductionHypothesis =>
      intro operands stack locals exception count
      obtain ⟨results, given, step⟩ :=
        silent.passes operands stack locals count
      exact ⟨.stop (silent.fails _ exception) (by simp),
        .next step
          (inductionHypothesis results stack locals exception given).2⟩

/-- A block that prepares everything its call takes is transparent. -/
theorem transparent (prepares : Prepares inserted report 0 block) :
    Transparent inserted block report where
  sound frame events locals outcome passage :=
    prepares.sound [] frame.stack frame.locals events locals outcome rfl
      passage
  passes frame := prepares.passes [] frame.stack frame.locals rfl
  fails frame exception :=
    prepares.fails [] frame.stack frame.locals exception rfl

end Prepares

end Blocks

end DripStone.Library
