import Mathlib

/-!
# Deterministic machines with outputs

A component whose calls arrive one after the other is a machine: an input
moves the state and emits a list of outputs.  This module gives the run and
the trace of a machine on a list of inputs, their composition laws, and the
two forms in which a property of a whole run is used below:

* an invariant that every accepted input keeps;
* a condition `AtEvery` on each input, stated against the inputs before it.
-/

namespace DripStone.Library

universe u v w

/-- A deterministic machine: an input moves the state and emits outputs. -/
structure Mealy (State : Type u) (Input : Type v) (Output : Type w) where
  step : State → Input → State × List Output

namespace Mealy

variable {State : Type u} {Input : Type v} {Output : Type w}

/-- The state reached by feeding the inputs in order. -/
def run (machine : Mealy State Input Output) (state : State)
    (inputs : List Input) : State :=
  inputs.foldl (fun current input => (machine.step current input).1) state

/-- The outputs emitted while feeding the inputs in order. -/
def trace (machine : Mealy State Input Output) :
    State → List Input → List Output
  | _, [] => []
  | state, input :: rest =>
      (machine.step state input).2 ++
        machine.trace (machine.step state input).1 rest

section Laws

variable (machine : Mealy State Input Output) (state : State)

@[simp]
theorem run_nil : machine.run state [] = state := rfl

@[simp]
theorem run_cons (input : Input) (rest : List Input) :
    machine.run state (input :: rest) =
      machine.run (machine.step state input).1 rest := rfl

theorem run_append (initial suffix : List Input) :
    machine.run state (initial ++ suffix) =
      machine.run (machine.run state initial) suffix := by
  simp [run]

theorem run_concat (initial : List Input) (input : Input) :
    machine.run state (initial ++ [input]) =
      (machine.step (machine.run state initial) input).1 := by
  simp [run_append]

@[simp]
theorem trace_nil : machine.trace state [] = [] := rfl

@[simp]
theorem trace_cons (input : Input) (rest : List Input) :
    machine.trace state (input :: rest) =
      (machine.step state input).2 ++
        machine.trace (machine.step state input).1 rest := rfl

theorem trace_append (initial suffix : List Input) :
    machine.trace state (initial ++ suffix) =
      machine.trace state initial ++
        machine.trace (machine.run state initial) suffix := by
  induction initial generalizing state with
  | nil => rfl
  | cons input rest inductionHypothesis =>
      simp only [List.cons_append, trace_cons, run_cons,
        inductionHypothesis, List.append_assoc]

theorem trace_concat (initial : List Input) (input : Input) :
    machine.trace state (initial ++ [input]) =
      machine.trace state initial ++
        (machine.step (machine.run state initial) input).2 := by
  simp [trace_append]

/-- A trace, cut at one of its inputs. -/
theorem trace_split (before after : List Input) (input : Input) :
    machine.trace state (before ++ input :: after) =
      machine.trace state before ++
        (machine.step (machine.run state before) input).2 ++
          machine.trace
            (machine.step (machine.run state before) input).1 after := by
  rw [trace_append, trace_cons, List.append_assoc]

/-- A property kept by every step of a machine holds after every run. -/
theorem run_invariant {invariant : State → Prop}
    (kept : ∀ current input, invariant current →
      invariant (machine.step current input).1)
    (initial : invariant state) (inputs : List Input) :
    invariant (machine.run state inputs) := by
  induction inputs generalizing state with
  | nil => exact initial
  | cons input rest inductionHypothesis =>
      exact inductionHypothesis _ (kept state input initial)

end Laws

end Mealy

section AtEvery

variable {α : Type u}

/-- `holds before input` at every input of the list, `before` being the
inputs in front of it. -/
def AtEvery (holds : List α → α → Prop) (inputs : List α) : Prop :=
  ∀ before input after,
    inputs = before ++ input :: after → holds before input

theorem atEvery_nil (holds : List α → α → Prop) : AtEvery holds [] := by
  intro before input after equality
  simp at equality

theorem atEvery_concat {holds : List α → α → Prop}
    {initial : List α} {last : α} :
    AtEvery holds (initial ++ [last]) ↔
      AtEvery holds initial ∧ holds initial last := by
  constructor
  · intro every
    constructor
    · intro before input after equality
      exact every before input (after ++ [last]) (by simp [equality])
    · exact every initial last [] rfl
  · rintro ⟨every, atLast⟩ before input after equality
    rcases List.eq_nil_or_concat after with rfl | ⟨middle, final, rfl⟩
    · obtain ⟨rfl, same⟩ := List.append_inj' equality rfl
      simpa using List.cons.inj same |>.1 ▸ atLast
    · have regrouped :
          initial ++ [last] = (before ++ input :: middle) ++ [final] := by
        simpa using equality
      obtain ⟨same, _⟩ := List.append_inj' regrouped rfl
      exact every before input middle same

theorem atEvery_cons {holds : List α → α → Prop}
    {head : α} {rest : List α} :
    AtEvery holds (head :: rest) ↔
      holds [] head ∧
        AtEvery (fun before => holds (head :: before)) rest := by
  constructor
  · intro every
    constructor
    · exact every [] head rest rfl
    · intro before input after equality
      exact every (head :: before) input after (by rw [equality]; rfl)
  · rintro ⟨atHead, every⟩ before input after equality
    cases before with
    | nil =>
        obtain ⟨rfl, -⟩ := List.cons.inj equality
        exact atHead
    | cons first middle =>
        obtain ⟨rfl, inRest⟩ := List.cons.inj equality
        exact every middle input after inRest

instance AtEvery.decidable :
    ∀ (holds : List α → α → Prop)
      [∀ before input, Decidable (holds before input)] (inputs : List α),
      Decidable (AtEvery holds inputs)
  | holds, _, [] => isTrue (atEvery_nil holds)
  | holds, _, head :: rest =>
      have := AtEvery.decidable (fun before => holds (head :: before)) rest
      decidable_of_iff _ atEvery_cons.symm

theorem AtEvery.of_append {holds : List α → α → Prop}
    {initial suffix : List α} (every : AtEvery holds (initial ++ suffix)) :
    AtEvery holds initial :=
  fun before input after equality =>
    every before input (after ++ suffix) (by simp [equality])

theorem AtEvery.mono {weak strong : List α → α → Prop} {inputs : List α}
    (every : AtEvery strong inputs)
    (weaken : ∀ before input, strong before input → weak before input) :
    AtEvery weak inputs :=
  fun before input after equality =>
    weaken before input (every before input after equality)

/-- Two conditions that agree at an input when one of them holds at the inputs
before it hold along the same lists. -/
theorem atEvery_congr {first second : List α → α → Prop} {inputs : List α}
    (agree : ∀ before input after, inputs = before ++ input :: after →
      AtEvery second before → (first before input ↔ second before input)) :
    AtEvery first inputs ↔ AtEvery second inputs := by
  induction inputs using List.reverseRecOn with
  | nil => exact iff_of_true (atEvery_nil _) (atEvery_nil _)
  | append_singleton initial last inductionHypothesis =>
      have further := inductionHypothesis fun before input after whole =>
        agree before input (after ++ [last]) (by simp [whole])
      rw [atEvery_concat, atEvery_concat, further]
      apply and_congr_right
      intro every
      exact agree initial last [] rfl every

/-- Induction along a list all of whose inputs meet a condition. -/
theorem AtEvery.induction {holds : List α → α → Prop}
    {motive : List α → Prop} {inputs : List α}
    (every : AtEvery holds inputs) (nil : motive [])
    (concat : ∀ before input, motive before → holds before input →
      motive (before ++ [input])) :
    motive inputs := by
  induction inputs using List.reverseRecOn with
  | nil => exact nil
  | append_singleton initial last inductionHypothesis =>
      obtain ⟨everyInitial, atLast⟩ := atEvery_concat.mp every
      exact concat initial last (inductionHypothesis everyInitial) atLast

/-- The first input that breaks a condition. -/
theorem exists_first_failure {holds : List α → α → Prop}
    {inputs : List α} (broken : ¬ AtEvery holds inputs) :
    ∃ before input after,
      inputs = before ++ input :: after ∧
        AtEvery holds before ∧ ¬ holds before input := by
  induction inputs using List.reverseRecOn with
  | nil => exact absurd (atEvery_nil holds) broken
  | append_singleton initial last inductionHypothesis =>
      by_cases everyInitial : AtEvery holds initial
      · refine ⟨initial, last, [], rfl, everyInitial, ?_⟩
        intro atLast
        exact broken (atEvery_concat.mpr ⟨everyInitial, atLast⟩)
      · obtain ⟨before, input, after, equality, every, fails⟩ :=
          inductionHypothesis everyInitial
        exact ⟨before, input, after ++ [last], by simp [equality],
          every, fails⟩

/-- All outputs of a run meet a condition if those of each input do. -/
theorem Mealy.forall_mem_trace_iff {State : Type u} {Input : Type v}
    {Output : Type w} (machine : Mealy State Input Output) (state : State)
    (holds : Output → Prop) (inputs : List Input) :
    (∀ output ∈ machine.trace state inputs, holds output) ↔
      AtEvery (fun before input =>
        ∀ output ∈ (machine.step (machine.run state before) input).2,
          holds output) inputs := by
  induction inputs using List.reverseRecOn with
  | nil => simp [atEvery_nil]
  | append_singleton initial last inductionHypothesis =>
      rw [machine.trace_concat, atEvery_concat, ← inductionHypothesis]
      simp only [List.mem_append, or_imp, forall_and]

end AtEvery

end DripStone.Library
