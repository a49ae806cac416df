import Mathlib

/-!
# Machines with guarded events

An event is possible in some states only.  A list of events that are possible
one after the other is a history of the machine, and what holds of a history
and the state behind it is shown event by event.
-/

namespace DripStone.Library

/-- A machine whose step has no value where the event is not possible. -/
structure Guarded (State Event : Type) where
  start : State
  step : State → Event → Option State

namespace Guarded

variable {State Event : Type} (machine : Guarded State Event)

/-- The state behind a history. -/
def after (history : List Event) : Option State :=
  history.foldlM machine.step machine.start

variable {machine} {history : List Event} {state next : State} {event : Event}

theorem after_append {rest : List Event} :
    machine.after (history ++ rest) =
      (machine.after history).bind fun state =>
        (⟨state, machine.step⟩ : Guarded State Event).after rest := by
  rw [after, List.foldlM_append]
  rfl

theorem after_concat :
    machine.after (history ++ [event]) =
      (machine.after history).bind fun state => machine.step state event := by
  simp only [after, List.foldlM_append, List.foldlM_cons, List.foldlM_nil,
    bind_pure]
  rfl

theorem after_concat_eq_some :
    machine.after (history ++ [event]) = some next ↔
      ∃ state, machine.after history = some state ∧
        machine.step state event = some next := by
  rw [after_concat, Option.bind_eq_some_iff]

/-- The beginning of a history is one. -/
theorem exists_after_of_append {initial rest : List Event}
    (isHistory : machine.after (initial ++ rest) = some state) :
    ∃ between, machine.after initial = some between := by
  rw [after, List.foldlM_append] at isHistory
  obtain ⟨between, isBetween, _⟩ := Option.bind_eq_some_iff.mp isHistory
  exact ⟨between, isBetween⟩

/-- What holds at the start and is kept by each possible event holds behind
every history. -/
theorem after_induction (holds : List Event → State → Prop)
    (atStart : holds [] machine.start)
    (kept : ∀ history state event next, holds history state →
      machine.step state event = some next → holds (history ++ [event]) next)
    (isHistory : machine.after history = some state) :
    holds history state := by
  induction history using List.reverseRecOn generalizing state with
  | nil =>
      rw [← Option.some_inj.mp isHistory]
      exact atStart
  | append_singleton history event inductionHypothesis =>
      obtain ⟨between, isBetween, stepped⟩ :=
        after_concat_eq_some.mp isHistory
      exact kept history between event state (inductionHypothesis isBetween)
        stepped

/-- A condition on each event of a history and the state in front of it. -/
def Along (machine : Guarded State Event) (holds : State → Event → Prop)
    (history : List Event) : Prop :=
  ∀ before event rest state, history = before ++ event :: rest →
    machine.after before = some state → holds state event

theorem Along.of_append {holds : State → Event → Prop}
    {initial rest : List Event}
    (along : machine.Along holds (initial ++ rest)) :
    machine.Along holds initial := by
  intro before event others between split isBefore
  exact along before event (others ++ rest) between (by simp [split]) isBefore

theorem along_nil (machine : Guarded State Event)
    (holds : State → Event → Prop) : machine.Along holds [] := by
  intro before event rest state split
  simp at split

theorem along_concat {holds : State → Event → Prop} :
    machine.Along holds (history ++ [event]) ↔
      machine.Along holds history ∧
        ∀ state, machine.after history = some state →
          holds state event := by
  constructor
  · intro along
    exact ⟨along.of_append, fun state isHistory =>
      along history event [] state rfl isHistory⟩
  · rintro ⟨along, atLast⟩ before last rest state split isBefore
    rcases List.eq_nil_or_concat rest with rfl | ⟨middle, final, rfl⟩
    · obtain ⟨rfl, same⟩ := List.append_inj' split rfl
      rw [← (List.cons.inj same).1]
      exact atLast state isBefore
    · have regrouped :
          history ++ [event] = (before ++ last :: middle) ++ [final] := by
        simpa using split
      obtain ⟨same, _⟩ := List.append_inj' regrouped rfl
      exact along before last middle state same isBefore

theorem after_cons :
    machine.after (event :: history) =
      (machine.step machine.start event).bind fun next =>
        (⟨next, machine.step⟩ : Guarded State Event).after history := by
  rw [after, List.foldlM_cons]
  rfl

/-- A condition along a history holds of its first event, and along the rest
behind it. -/
theorem along_cons {holds : State → Event → Prop} :
    machine.Along holds (event :: history) ↔
      holds machine.start event ∧
        ∀ next, machine.step machine.start event = some next →
          (⟨next, machine.step⟩ : Guarded State Event).Along holds
            history := by
  constructor
  · intro along
    refine ⟨along [] event history machine.start rfl rfl, ?_⟩
    intro next stepped before last rest state split isBefore
    refine along (event :: before) last rest state (by simp [split]) ?_
    rw [after_cons, stepped]
    exact isBefore
  · rintro ⟨atFirst, behind⟩ before last rest state split isBefore
    cases before with
    | nil =>
        rw [← (List.cons.inj split).1, ← Option.some.inj isBefore]
        exact atFirst
    | cons first middle =>
        obtain ⟨rfl, same⟩ := List.cons.inj split
        rw [after_cons] at isBefore
        obtain ⟨next, stepped, isMiddle⟩ :=
          Option.bind_eq_some_iff.mp isBefore
        exact behind next stepped middle last rest state same isMiddle

instance Along.decidable {holds : State → Event → Prop}
    [∀ state event, Decidable (holds state event)] :
    ∀ (history : List Event) (machine : Guarded State Event),
      Decidable (machine.Along holds history)
  | [], machine => isTrue (machine.along_nil holds)
  | event :: rest, machine =>
      have (next : State) : Decidable
          ((⟨next, machine.step⟩ : Guarded State Event).Along holds rest) :=
        Along.decidable rest ⟨next, machine.step⟩
      match stepped : machine.step machine.start event with
      | none => decidable_of_iff (holds machine.start event) (by
          rw [along_cons, stepped]
          exact (and_iff_left fun next impossible => by cases impossible).symm)
      | some next => decidable_of_iff (holds machine.start event ∧
            (⟨next, machine.step⟩ : Guarded State Event).Along holds rest) (by
          rw [along_cons, stepped]
          simp)

/-- What holds at the start and is kept by each event that meets a condition
holds behind every history whose events all meet it. -/
theorem along_induction {holds : State → Prop}
    {condition : State → Event → Prop} (atStart : holds machine.start)
    (kept : ∀ state event next, holds state → condition state event →
      machine.step state event = some next → holds next)
    (isHistory : machine.after history = some state)
    (along : machine.Along condition history) : holds state := by
  induction history using List.reverseRecOn generalizing state with
  | nil =>
      rw [← Option.some_inj.mp isHistory]
      exact atStart
  | append_singleton history event inductionHypothesis =>
      obtain ⟨between, isBetween, stepped⟩ :=
        after_concat_eq_some.mp isHistory
      exact kept between event state
        (inductionHypothesis isBetween along.of_append)
        (along history event [] between rfl isBetween) stepped

/-- Two conditions that agree in every state with an invariant, which the
second one keeps, hold along the same histories. -/
theorem along_congr {first second : State → Event → Prop}
    (invariant : State → Prop) (atStart : invariant machine.start)
    (kept : ∀ state event next, invariant state → second state event →
      machine.step state event = some next → invariant next)
    (agree : ∀ state event, invariant state →
      (first state event ↔ second state event)) :
    machine.Along first history ↔ machine.Along second history := by
  induction history using List.reverseRecOn with
  | nil => exact iff_of_true (machine.along_nil _) (machine.along_nil _)
  | append_singleton history event inductionHypothesis =>
      rw [along_concat, along_concat, inductionHypothesis]
      refine and_congr_right fun along => forall_congr' fun state => ?_
      refine forall_congr' fun isHistory => agree state event ?_
      exact along_induction atStart kept isHistory along

/-- The state behind an event has a property, if there is one. -/
def Leads (machine : Guarded State Event) (law : State → Prop) (state : State)
    (event : Event) : Prop :=
  ∀ next, machine.step state event = some next → law next

/-- Every state that a history reaches has a property exactly when each of
its events meets a condition. -/
theorem along_leads_iff {law : State → Prop}
    {condition : State → Event → Prop} (invariant : State → Prop)
    (atStart : invariant machine.start)
    (kept : ∀ state event next, invariant state → condition state event →
      machine.step state event = some next → invariant next)
    (exact_ : ∀ state event next, invariant state →
      machine.step state event = some next →
        (law next ↔ condition state event))
    (impossible : ∀ state event, machine.step state event = none →
      condition state event) :
    machine.Along (machine.Leads law) history ↔
      machine.Along condition history := by
  refine along_congr invariant atStart kept fun state event holds => ?_
  cases stepped : machine.step state event with
  | none =>
      refine iff_of_true (fun next isNext => ?_)
        (impossible state event stepped)
      rw [stepped] at isNext
      cases isNext
  | some next =>
      rw [← exact_ state event next holds stepped]
      refine ⟨fun leads => leads next stepped,
        fun holdsNext other isNext => ?_⟩
      rw [stepped] at isNext
      rw [← Option.some_inj.mp isNext]
      exact holdsNext

end Guarded

/-! ## The last event of a kind -/

/-- The event is in the list, and none of the kind comes behind it. -/
def LastOf {Event : Type} (kind : Event → Prop) (history : List Event)
    (event : Event) : Prop :=
  ∃ before rest, history = before ++ event :: rest ∧
    ∀ later ∈ rest, ¬ kind later

section LastOf

variable {Event : Type} {kind : Event → Prop} {history : List Event}
variable {event last : Event}

theorem LastOf.mem (isLast : LastOf kind history event) :
    event ∈ history := by
  obtain ⟨before, rest, rfl, _⟩ := isLast
  simp

theorem not_lastOf_nil : ¬ LastOf kind [] event := fun isLast =>
  List.not_mem_nil isLast.mem

theorem lastOf_concat :
    LastOf kind (history ++ [last]) event ↔
      event = last ∨ ¬ kind last ∧ LastOf kind history event := by
  constructor
  · rintro ⟨before, rest, split, noLater⟩
    rcases List.eq_nil_or_concat rest with rfl | ⟨middle, final, rfl⟩
    · obtain ⟨_, same⟩ := List.append_inj' split rfl
      exact Or.inl (List.cons.inj same).1.symm
    · have regrouped :
          history ++ [last] = (before ++ event :: middle) ++ [final] := by
        simpa using split
      obtain ⟨isHistory, isLast⟩ := List.append_inj' regrouped rfl
      rw [(List.cons.inj isLast).1]
      exact Or.inr ⟨noLater final (by simp), before, middle, isHistory,
        fun later inMiddle => noLater later (by simp [inMiddle])⟩
  · rintro (rfl | ⟨otherKind, before, rest, rfl, noLater⟩)
    · exact ⟨history, [], rfl, fun _ impossible => by cases impossible⟩
    · refine ⟨before, rest ++ [last], by simp, fun later inRest => ?_⟩
      rcases List.mem_append.mp inRest with inRest | isLast
      · exact noLater later inRest
      · rw [List.mem_singleton.mp isLast]
        exact otherKind

end LastOf

end DripStone.Library
