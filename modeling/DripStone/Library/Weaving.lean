import DripStone.Library.ReportingBlock

/-!
# Weaving probes into a method body

A probe is a block of inserted instructions; one is placed at the entry of the
method and one in front of some of its instructions.  The blocks contain no
labels, so they change neither the targets of jumps nor what the exception
table covers.  When every block either comes through with the frame it found,
having reported once, or throws, the runs of the woven body are the runs of
the original one in which the probes report or fail on the way.
-/

namespace DripStone.Library

section Weave

variable {A B : Type}

/-- The body with a block in front of each instruction. -/
def weave (probe : A → List B) (code : List (Item A)) :
    List (Item (A ⊕ B)) :=
  code.flatMap fun
    | .label id => [.label id]
    | .instr instr =>
        (probe instr).map (fun inserted => .instr (.inr inserted)) ++
          [.instr (.inl instr)]

def insertedItems (block : List B) : List (Item (A ⊕ B)) :=
  block.map fun inserted => .instr (.inr inserted)

def hasProbe (probe : A → List B) (instr : A) : Bool :=
  !(probe instr).isEmpty

variable {probe : A → List B}

@[simp]
theorem hasProbe_iff (instr : A) :
    hasProbe probe instr = true ↔ probe instr ≠ [] := by
  simp [hasProbe]

@[simp]
theorem labels_insertedItems (block : List B) :
    labels (insertedItems block : List (Item (A ⊕ B))) = [] := by
  simp [labels, insertedItems]

@[simp]
theorem labels_weave (code : List (Item A)) :
    labels (weave probe code) = labels code := by
  induction code with
  | nil => rfl
  | cons item rest inductionHypothesis =>
      cases item <;>
        simp_all [weave, labels]

theorem takeWhile_insertedItems (block : List B) (label : Nat)
    (rest : List (Item (A ⊕ B))) :
    (insertedItems block ++ rest).takeWhile
        (fun item => !item.isLabel label) =
      insertedItems block ++
        rest.takeWhile (fun item => !item.isLabel label) ∧
    (insertedItems block ++ rest).dropWhile
        (fun item => !item.isLabel label) =
      rest.dropWhile (fun item => !item.isLabel label) := by
  induction block with
  | nil => exact ⟨rfl, rfl⟩
  | cons inserted more inductionHypothesis =>
      have notLabel :
          (Item.instr (.inr inserted) : Item (A ⊕ B)).isLabel label =
            false := rfl
      constructor
      · simpa [insertedItems, notLabel] using inductionHypothesis.1
      · simpa [insertedItems, notLabel] using inductionHypothesis.2

/-- A jump in the woven body goes to the woven target. -/
theorem takeWhile_weave (code : List (Item A)) (label : Nat) :
    (weave probe code).takeWhile (fun item => !item.isLabel label) =
      weave probe (code.takeWhile fun item => !item.isLabel label) ∧
    (weave probe code).dropWhile (fun item => !item.isLabel label) =
      weave probe (code.dropWhile fun item => !item.isLabel label) := by
  induction code with
  | nil => exact ⟨rfl, rfl⟩
  | cons item rest inductionHypothesis =>
      cases item with
      | label id =>
          by_cases same : id = label
          · simp [weave, Item.isLabel, same]
          · simpa [weave, Item.isLabel, same] using inductionHypothesis
      | instr instr =>
          have block := @takeWhile_insertedItems A B (probe instr) label
            (.instr (.inl instr) :: weave probe rest)
          have shape : weave probe (.instr instr :: rest) =
              insertedItems (probe instr) ++
                (.instr (.inl instr) :: weave probe rest) := by
            simp [weave, insertedItems]
          have notLabel :
              (Item.instr (.inl instr) : Item (A ⊕ B)).isLabel label =
                false := rfl
          rw [shape, block.1, block.2]
          constructor
          · rw [List.takeWhile_cons_of_pos (by simp [notLabel]),
              List.takeWhile_cons_of_pos (by simp [Item.isLabel]),
              inductionHypothesis.1]
            simp [weave, insertedItems]
          · rw [List.dropWhile_cons_of_pos (by simp [notLabel]),
              List.dropWhile_cons_of_pos (by simp [Item.isLabel])]
            exact inductionHypothesis.2

end Weave

/-! ## The two machines -/

section Machines

variable {A B Event V : Type}

/-- Both kinds of instructions, the original and the inserted ones. -/
def wovenMachine (effect : A → Frame V → List Event → Outcome V → Prop)
    (inserted : B → Frame V → List Event → Outcome V → Prop)
    (catches : Option String → V → Bool) : Machine (A ⊕ B) Event V where
  effect
    | .inl instr, frame, events, outcome => effect instr frame events outcome
    | .inr instr, frame, events, outcome =>
        inserted instr frame events outcome
  catches := catches

/-- What happens where a run comes to an instruction: it is executed, after
its probe if it has one, or the probe throws, before or after its report. -/
inductive Visit (A Event : Type) where
  | ran (instr : A) (events : List Event)
  | failed (instr : A) (reported : Bool)

/-- The original machine on its way past the probes. -/
inductive ProbedEffect (probed : A → Bool)
    (effect : A → Frame V → List Event → Outcome V → Prop) :
    A → Frame V → List (Visit A Event) → Outcome V → Prop where
  | ran {instr : A} {frame : Frame V} {events : List Event}
      {outcome : Outcome V} :
      effect instr frame events outcome →
        ProbedEffect probed effect instr frame [.ran instr events] outcome
  | failed {instr : A} (frame : Frame V) (reported : Bool) (exception : V) :
      probed instr = true →
        ProbedEffect probed effect instr frame [.failed instr reported]
          (.throw exception)

def probedMachine (probed : A → Bool)
    (effect : A → Frame V → List Event → Outcome V → Prop)
    (catches : Option String → V → Bool) :
    Machine A (Visit A Event) V where
  effect := ProbedEffect probed effect
  catches := catches

/-- What the woven body emits on such a visit. -/
def Visit.emitted (probed : A → Bool) (report : Event) :
    Visit A Event → List Event
  | .ran instr events =>
      (if probed instr then [report] else []) ++ events
  | .failed _ reported => if reported then [report] else []

end Machines

/-! ## Corresponding configurations -/

section Simulation

variable {A B Event V : Type} {probe : A → List B}
  {effect : A → Frame V → List Event → Outcome V → Prop}
  {inserted : B → Frame V → List Event → Outcome V → Prop}
  {catches : Option String → V → Bool}
  {table : List TryCatchBlock} {entry : List B} {code : List (Item A)}
  {report : Event}

/-- The woven body is at the same place.  Of what lies behind it only the
labels count. -/
inductive Matches (probe : A → List B) :
    Config A V → Config (A ⊕ B) V → Prop where
  | running {before after : List (Item A)}
      {wovenBefore : List (Item (A ⊕ B))} {frame : Frame V} :
      labels wovenBefore = labels before →
        Matches probe (.running before after frame)
          (.running wovenBefore (weave probe after) frame)
  | left (exception : Option V) :
      Matches probe (.left exception) (.left exception)

theorem jumpTo_matches (label : Nat) (frame : Frame V) :
    Matches probe (jumpTo code label frame)
      (jumpTo (insertedItems entry ++ weave probe code) label frame) := by
  unfold jumpTo
  rw [(takeWhile_insertedItems entry label (weave probe code)).1,
    (takeWhile_insertedItems entry label (weave probe code)).2,
    (takeWhile_weave code label).1, (takeWhile_weave code label).2]
  exact .running (by simp)

theorem unwind_matches {before : List (Item A)}
    {wovenBefore : List (Item (A ⊕ B))}
    (sameLabels : labels wovenBefore = labels before)
    (locals : Nat → V) (exception : V) :
    Matches probe
      (unwind (probedMachine (hasProbe probe) effect catches) code table
        before locals exception)
      (unwind (wovenMachine effect inserted catches)
        (insertedItems entry ++ weave probe code) table wovenBefore locals
          exception) := by
  have sameTest : (fun block : TryCatchBlock =>
      block.covers wovenBefore && catches block.type exception) =
      fun block => block.covers before && catches block.type exception := by
    funext block
    simp [TryCatchBlock.covers, sameLabels]
  unfold unwind
  simp only [probedMachine, wovenMachine, sameTest]
  cases table.find? (fun block =>
      block.covers before && catches block.type exception) with
  | none => exact .left _
  | some block => exact jumpTo_matches block.handler _

theorem proceed_matches {before after : List (Item A)}
    {wovenBefore : List (Item (A ⊕ B))}
    (sameLabels : labels wovenBefore = labels before) (instr : A)
    (locals : Nat → V) (outcome : Outcome V) :
    Matches probe
      (proceed (probedMachine (hasProbe probe) effect catches) code table
        before instr after locals outcome)
      (proceed (wovenMachine effect inserted catches)
        (insertedItems entry ++ weave probe code) table wovenBefore
          (.inl instr) (weave probe after) locals outcome) := by
  cases outcome with
  | next frame =>
      refine .running ?_
      simpa using sameLabels
  | jump label frame => exact jumpTo_matches label frame
  | leave => exact .left none
  | throw exception => exact unwind_matches sameLabels locals exception

/-! ## Runs through a block -/

/-- A run starting with inserted instructions is a passage through them and a
run from where it ends. -/
theorem leaves_inserted {wovenCode : List (Item (A ⊕ B))} {n : Nat}
    (block : List B) {before after : List (Item (A ⊕ B))}
    {frame : Frame V} {events : List Event} {exception : Option V}
    (leaves : Leaves (wovenMachine effect inserted catches) wovenCode table n
      (.running before (insertedItems block ++ after) frame) events
        exception) :
    ∃ here later locals outcome m,
      events = here ++ later ∧
        Passage inserted block frame here locals outcome ∧ m ≤ n ∧
        ((∃ through, outcome = .next through ∧
            Leaves (wovenMachine effect inserted catches) wovenCode table m
              (.running (before ++ insertedItems block) after through) later
                exception) ∨
          (∃ stopped instr rest, (∀ through, outcome ≠ .next through) ∧
            labels stopped = labels before ∧
            Leaves (wovenMachine effect inserted catches) wovenCode table m
              (proceed (wovenMachine effect inserted catches) wovenCode table
                stopped instr rest locals outcome) later exception) ∧
            m < n) := by
  induction block generalizing before frame n events with
  | nil =>
      refine ⟨[], events, frame.locals, .next frame, n, rfl, .through frame,
        le_rfl, Or.inl ⟨frame, rfl, ?_⟩⟩
      simpa [insertedItems] using leaves
  | cons instr rest inductionHypothesis =>
      have first : Leaves (wovenMachine effect inserted catches) wovenCode
          table n
          (.running before
            (.instr (.inr instr) :: (insertedItems rest ++ after)) frame)
          events exception := by
        simpa [insertedItems] using leaves
      cases first with
      | @instr n' _ _ _ _ here later outcome _ step remaining =>
          cases outcome with
          | next through =>
              obtain ⟨here', later', locals, outcome', m, rfl, passage,
                bound, ends⟩ := inductionHypothesis remaining
              refine ⟨here ++ here', later', locals, outcome', m, by simp,
                .next step passage, by omega, ?_⟩
              rcases ends with ⟨final, isNext, run⟩ |
                ⟨⟨stopped, last, more, stops, sameLabels, run⟩, less⟩
              · exact Or.inl ⟨final, isNext, by
                  simpa [insertedItems] using run⟩
              · exact Or.inr ⟨⟨stopped, last, more, stops,
                  by simpa using sameLabels, run⟩, by omega⟩
          | _ =>
              exact ⟨here, later, frame.locals, _, n', rfl,
                .stop step (by simp), by omega,
                Or.inr ⟨⟨before, _, _, by simp, rfl, remaining⟩,
                  by omega⟩⟩

theorem leaves_of_through {wovenCode : List (Item (A ⊕ B))} {m : Nat}
    {block : List B} {before after : List (Item (A ⊕ B))}
    {frame final : Frame V} {here later : List Event} {locals : Nat → V}
    {outcome : Outcome V} {exception : Option V}
    (passage : Passage inserted block frame here locals outcome)
    (isNext : outcome = .next final)
    (leaves : Leaves (wovenMachine effect inserted catches) wovenCode table m
      (.running (before ++ insertedItems block) after final) later
        exception) :
    ∃ n, Leaves (wovenMachine effect inserted catches) wovenCode table n
      (.running before (insertedItems block ++ after) frame) (here ++ later)
        exception := by
  induction passage generalizing before with
  | through frame =>
      cases isNext
      exact ⟨m, by simpa [insertedItems] using leaves⟩
  | @next instr rest frame between here more locals outcome step _
      inductionHypothesis =>
      obtain ⟨n, remaining⟩ := @inductionHypothesis
        (before ++ [.instr (.inr instr)]) isNext
        (by simpa [insertedItems] using leaves)
      have wovenStep : (wovenMachine effect inserted catches).effect
          (.inr instr) frame here (.next between) := step
      refine ⟨n + 1, ?_⟩
      rw [List.append_assoc]
      exact .instr wovenStep remaining
  | stop step stops => exact absurd isNext (stops final)

theorem leaves_of_stop {wovenCode : List (Item (A ⊕ B))}
    {block : List B} {before after : List (Item (A ⊕ B))}
    {frame : Frame V} {here later : List Event} {locals : Nat → V}
    {outcome : Outcome V} {thrown : V} {exception : Option V}
    (passage : Passage inserted block frame here locals outcome)
    (isThrow : outcome = .throw thrown)
    (continues : ∀ stopped, labels stopped = labels before →
      ∃ m, Leaves (wovenMachine effect inserted catches) wovenCode table m
        (unwind (wovenMachine effect inserted catches) wovenCode table
          stopped locals thrown) later exception) :
    ∃ n, Leaves (wovenMachine effect inserted catches) wovenCode table n
      (.running before (insertedItems block ++ after) frame) (here ++ later)
        exception := by
  induction passage generalizing before with
  | through frame => cases isThrow
  | @next instr rest frame between here more locals outcome step _
      inductionHypothesis =>
      obtain ⟨n, remaining⟩ := @inductionHypothesis
        (before ++ [.instr (.inr instr)]) isThrow
        (fun stopped sameLabels =>
          continues stopped (by simpa using sameLabels))
      have wovenStep : (wovenMachine effect inserted catches).effect
          (.inr instr) frame here (.next between) := step
      refine ⟨n + 1, ?_⟩
      rw [List.append_assoc]
      exact .instr wovenStep remaining
  | @stop instr rest frame here outcome step stops =>
      subst isThrow
      have wovenStep : (wovenMachine effect inserted catches).effect
          (.inr instr) frame here (.throw thrown) := step
      obtain ⟨m, remaining⟩ := continues before rfl
      exact ⟨m + 1, .instr wovenStep remaining⟩

/-! ## The simulation -/

theorem weave_instr (instr : A) (rest : List (Item A)) :
    weave probe (.instr instr :: rest) =
      insertedItems (probe instr) ++
        (.instr (.inl instr) :: weave probe rest) := by
  simp [weave, insertedItems]

/-- Where the woven body comes to the block in front of an instruction, it
passes the block and the instruction as the probed machine does in one
step. -/
theorem visit_of_leaves
    (transparent : ∀ instr, hasProbe probe instr →
      Transparent inserted (probe instr) report)
    {n : Nat} {instr : A} {before rest : List (Item A)}
    {wovenBefore : List (Item (A ⊕ B))} {frame : Frame V}
    {events : List Event} {exception : Option V}
    (sameLabels : labels wovenBefore = labels before)
    (leaves : Leaves (wovenMachine effect inserted catches)
      (insertedItems entry ++ weave probe code) table n
      (.running wovenBefore (weave probe (.instr instr :: rest)) frame)
        events exception) :
    ∃ m visit outcome later wovenConfig,
      m < n ∧ events = visit.emitted (hasProbe probe) report ++ later ∧
        ProbedEffect (hasProbe probe) effect instr frame [visit] outcome ∧
        Matches probe
          (proceed (probedMachine (hasProbe probe) effect catches) code table
            before instr rest frame.locals outcome) wovenConfig ∧
        Leaves (wovenMachine effect inserted catches)
          (insertedItems entry ++ weave probe code) table m wovenConfig later
            exception := by
  rw [weave_instr] at leaves
  obtain ⟨here, later, locals, outcome, m, rfl, passage, bound, ends⟩ :=
    leaves_inserted (probe instr) leaves
  -- an empty block is passed as a transparent one, without a report
  have passed : (outcome = .next frame ∧
        here = if hasProbe probe instr then [report] else []) ∨
      (hasProbe probe instr ∧ locals = frame.locals ∧
        ∃ thrown, outcome = .throw thrown ∧
          (here = [] ∨ here = [report])) := by
    by_cases placed : hasProbe probe instr
    · obtain ⟨sameLocals, ⟨isNext, once⟩ | throws⟩ :=
        (transparent instr placed).sound frame here locals outcome passage
      · exact Or.inl ⟨isNext, by simpa [placed] using once⟩
      · exact Or.inr ⟨placed, sameLocals, throws⟩
    · have empty : probe instr = [] := by simpa using placed
      rw [empty] at passage
      cases passage
      simp [placed]
  rcases passed with ⟨rfl, once⟩ | ⟨placed, rfl, thrown, rfl, reported⟩
  · rcases ends with ⟨final, isNext, run⟩ |
      ⟨⟨stopped, last, more, stops, _⟩, _⟩
    · cases isNext
      cases run with
      | @instr m' _ _ _ _ own remaining outcome _ step continued =>
          refine ⟨m', .ran instr own, outcome, remaining, _, by omega, ?_,
            .ran step, proceed_matches (by simpa using sameLabels) instr
              frame.locals outcome, continued⟩
          simp [Visit.emitted, once]
    · exact absurd rfl (stops frame)
  · rcases ends with ⟨final, isNext, _⟩ |
      ⟨⟨stopped, last, more, _, stoppedLabels, run⟩, less⟩
    · cases isNext
    · refine ⟨m, .failed instr (!here.isEmpty), .throw thrown, later, _,
        less, ?_, .failed frame _ thrown placed,
        unwind_matches (stoppedLabels.trans sameLabels) frame.locals thrown,
        run⟩
      rcases reported with rfl | rfl <;> simp [Visit.emitted]

/-- Every run of the woven body is a run past the probes. -/
theorem probed_of_woven
    (transparent : ∀ instr, hasProbe probe instr →
      Transparent inserted (probe instr) report) {n : Nat} :
    ∀ {config : Config A V} {wovenConfig : Config (A ⊕ B) V}
      {events : List Event} {exception : Option V},
      Matches probe config wovenConfig →
        Leaves (wovenMachine effect inserted catches)
            (insertedItems entry ++ weave probe code) table n wovenConfig
              events exception →
          ∃ m visits,
            Leaves (probedMachine (hasProbe probe) effect catches) code table
                m config visits exception ∧
              events =
                visits.flatMap (Visit.emitted (hasProbe probe) report) := by
  induction n using Nat.strong_induction_on with
  | h n inductionHypothesis =>
      intro config wovenConfig events exception same leaves
      cases same with
      | left =>
          cases leaves
          exact ⟨0, [], .left _, rfl⟩
      | @running before after wovenBefore frame sameLabels =>
          cases after with
          | nil => cases leaves
          | cons item rest =>
              cases item with
              | label id =>
                  have step : Leaves (wovenMachine effect inserted catches)
                      (insertedItems entry ++ weave probe code) table n
                      (.running wovenBefore (.label id :: weave probe rest)
                        frame) events exception := by
                    simpa [weave] using leaves
                  cases step with
                  | @label n' _ _ _ _ _ _ remaining =>
                      have still : labels (wovenBefore ++ [.label id]) =
                          labels (before ++ [.label id]) := by
                        simp [sameLabels]
                      obtain ⟨m, visits, run, emits⟩ :=
                        inductionHypothesis n' (by omega) (.running still)
                          remaining
                      exact ⟨m + 1, visits, .label run, emits⟩
              | instr instr =>
                  obtain ⟨n', visit, outcome, later, next, less, rfl, step,
                    follows, continued⟩ :=
                      visit_of_leaves transparent sameLabels leaves
                  obtain ⟨m, visits, run, rfl⟩ :=
                    inductionHypothesis n' less follows continued
                  have probedStep :
                      (probedMachine (hasProbe probe) effect catches).effect
                        instr frame [visit] outcome := step
                  exact ⟨m + 1, [visit] ++ visits, .instr probedStep run,
                    by simp⟩

/-- In front of an instruction that ran, the woven body has reported. -/
theorem passage_of_ran
    (transparent : ∀ instr, hasProbe probe instr →
      Transparent inserted (probe instr) report)
    (instr : A) (frame : Frame V) :
    Passage inserted (probe instr) frame
      (if hasProbe probe instr then [report] else []) frame.locals
        (.next frame) := by
  by_cases placed : hasProbe probe instr
  · simpa [placed] using (transparent instr placed).passes frame
  · have empty : probe instr = [] := by simpa using placed
    simpa [placed, empty] using Passage.through frame

/-- Every run past the probes is a run of the woven body. -/
theorem woven_of_probed
    (transparent : ∀ instr, hasProbe probe instr →
      Transparent inserted (probe instr) report)
    {m : Nat} {config : Config A V} {visits : List (Visit A Event)}
    {exception : Option V}
    (leaves : Leaves (probedMachine (hasProbe probe) effect catches) code
      table m config visits exception) :
    ∀ {wovenConfig : Config (A ⊕ B) V}, Matches probe config wovenConfig →
      ∃ n, Leaves (wovenMachine effect inserted catches)
        (insertedItems entry ++ weave probe code) table n wovenConfig
          (visits.flatMap (Visit.emitted (hasProbe probe) report))
            exception := by
  induction leaves with
  | left exception =>
      intro wovenConfig same
      cases same
      exact ⟨0, .left _⟩
  | @label m id before after frame visits exception _ inductionHypothesis =>
      intro wovenConfig same
      cases same with
      | @running _ _ wovenBefore _ sameLabels =>
          have still : labels (wovenBefore ++ [.label id]) =
              labels (before ++ [.label id]) := by
            simp [sameLabels]
          obtain ⟨n, run⟩ := inductionHypothesis (.running still)
          exact ⟨n + 1, .label run⟩
  | @instr m instr before after frame here visits outcome exception step _
      inductionHypothesis =>
      intro wovenConfig same
      cases same with
      | @running _ _ wovenBefore _ sameLabels =>
          rw [weave_instr]
          cases step with
          | @ran events _ step =>
              have wovenStep : (wovenMachine effect inserted catches).effect
                  (.inl instr) frame events outcome := step
              have still : labels (wovenBefore ++ insertedItems (probe instr))
                  = labels before := by
                simpa using sameLabels
              obtain ⟨n, run⟩ := inductionHypothesis
                (proceed_matches still instr frame.locals outcome)
              obtain ⟨n', through⟩ := leaves_of_through
                (passage_of_ran transparent instr frame) rfl
                (.instr wovenStep run)
              exact ⟨n', by simpa [Visit.emitted] using through⟩
          | failed reported thrown placed =>
              have passage : Passage inserted (probe instr) frame
                  (if reported then [report] else []) frame.locals
                  (.throw thrown) := by
                cases reported
                · exact ((transparent instr placed).fails frame thrown).1
                · exact ((transparent instr placed).fails frame thrown).2
              obtain ⟨n, stopped⟩ := leaves_of_stop passage rfl
                (fun stopped stoppedLabels => inductionHypothesis
                  (unwind_matches (stoppedLabels.trans sameLabels)
                    frame.locals thrown))
              exact ⟨n, by simpa [Visit.emitted] using stopped⟩

end Simulation

/-! ## Executions of the woven method -/

section Executions

/-- An execution of a method, from its first instruction to where control
leaves it. -/
def Executes {Instr Event V : Type} (machine : Machine Instr Event V)
    (code : List (Item Instr)) (table : List TryCatchBlock)
    (frame : Frame V) (events : List Event) (exception : Option V) : Prop :=
  ∃ n, Leaves machine code table n (.running [] code frame) events exception

variable {A B Event V : Type} {probe : A → List B}
  {effect : A → Frame V → List Event → Outcome V → Prop}
  {inserted : B → Frame V → List Event → Outcome V → Prop}
  {catches : Option String → V → Bool}
  {table : List TryCatchBlock} {entry : List B} {code : List (Item A)}
  {entered report : Event}

/-- Nothing covers the place behind no label. -/
theorem unwind_unlabelled {Instr : Type} (machine : Machine Instr Event V)
    (wovenCode before : List (Item Instr)) (locals : Nat → V)
    (exception : V) (unlabelled : labels before = []) :
    unwind machine wovenCode table before locals exception =
      .left (some exception) := by
  have uncovered : table.find? (fun block =>
      block.covers before && machine.catches block.type exception) =
        none :=
    List.find?_eq_none.2 (by simp [TryCatchBlock.covers, unlabelled])
  rw [unwind, uncovered]

/-- The executions of a woven method: the entry throws, before or after its
report, and no handler of the method gets control; or it reports and an
execution past the probes follows. -/
theorem executes_woven_iff
    (entryTransparent : Transparent inserted entry entered)
    (transparent : ∀ instr, hasProbe probe instr →
      Transparent inserted (probe instr) report)
    (frame : Frame V) (events : List Event) (exception : Option V) :
    Executes (wovenMachine effect inserted catches)
        (insertedItems entry ++ weave probe code) table frame events
          exception ↔
      (∃ thrown, exception = some thrown ∧
        (events = [] ∨ events = [entered])) ∨
      ∃ visits,
        Executes (probedMachine (hasProbe probe) effect catches) code table
            frame visits exception ∧
          events = entered ::
            visits.flatMap (Visit.emitted (hasProbe probe) report) := by
  constructor
  · rintro ⟨n, leaves⟩
    obtain ⟨here, later, locals, outcome, m, rfl, passage, -, ends⟩ :=
      leaves_inserted entry leaves
    obtain ⟨-, ⟨rfl, rfl⟩ | ⟨thrown, rfl, reported⟩⟩ :=
      entryTransparent.sound frame here locals outcome passage
    · rcases ends with ⟨final, isNext, run⟩ |
        ⟨⟨stopped, last, more, stops, _⟩, _⟩
      · cases isNext
        have start : Matches probe (.running [] code frame)
            (.running (insertedItems entry) (weave probe code) frame) :=
          .running (by simp)
        obtain ⟨k, visits, probed, rfl⟩ :=
          probed_of_woven transparent start run
        exact Or.inr ⟨visits, ⟨k, probed⟩, rfl⟩
      · exact absurd rfl (stops frame)
    · rcases ends with ⟨final, isNext, _⟩ |
        ⟨⟨stopped, last, more, _, stoppedLabels, run⟩, _⟩
      · cases isNext
      · simp only [proceed] at run
        rw [unwind_unlabelled _ _ _ _ _ (by simpa using stoppedLabels)] at run
        cases run
        exact Or.inl ⟨thrown, rfl, by simpa using reported⟩
  · rintro (⟨thrown, rfl, reported⟩ | ⟨visits, ⟨m, probed⟩, rfl⟩)
    · have passage : Passage inserted entry frame events frame.locals
          (.throw thrown) := by
        rcases reported with rfl | rfl
        · exact (entryTransparent.fails frame thrown).1
        · exact (entryTransparent.fails frame thrown).2
      have continues : ∀ stopped : List (Item (A ⊕ B)),
          labels stopped = labels ([] : List (Item (A ⊕ B))) →
            ∃ m, Leaves (wovenMachine effect inserted catches)
              (insertedItems entry ++ weave probe code) table m
              (unwind (wovenMachine effect inserted catches)
                (insertedItems entry ++ weave probe code) table stopped
                  frame.locals thrown) [] (some thrown) := by
        intro stopped stoppedLabels
        rw [unwind_unlabelled _ _ _ _ _ (by simpa using stoppedLabels)]
        exact ⟨0, .left _⟩
      obtain ⟨n, leaves⟩ := leaves_of_stop passage rfl continues
      exact ⟨n, by simpa using leaves⟩
    · have start : Matches probe (.running [] code frame)
          (.running (insertedItems entry) (weave probe code) frame) :=
        .running (by simp)
      obtain ⟨m', woven⟩ := woven_of_probed transparent probed start
      exact leaves_of_through (entryTransparent.passes frame) rfl woven

end Executions

end DripStone.Library
