import DripStone.BlockCanary.LogMonitor

/-!
# What a report lists

The start of a blocked dispatch is read when its runnable runs.  A dispatch
that began by then has overwritten it, and the report lists nothing.
-/

namespace DripStone.BlockCanary

open DripStone.Library

/-- A report lists the retained samples of its own dispatch. -/
def Exact (format : Millis → Text) (report : Report) : Prop :=
  report.logged = StackSampler.getStacks format report.retained
    report.block.start report.block.endTime

/-- The times of the main thread's calls. -/
def printlnTimes (actions : List Action) : List Millis :=
  actions.filterMap fun action =>
    match action with
    | .println now => some now
    | _ => none

/-- The main thread's clock does not run backwards. -/
def Increasing (before : List Action) : Action → Prop
  | .println now => ∀ earlier ∈ printlnTimes before, earlier ≤ now
  | _ => True

instance (before : List Action) : DecidablePred (Increasing before)
  | .println now =>
      inferInstanceAs (Decidable (∀ earlier ∈ printlnTimes before,
        earlier ≤ now))
  | .sample _ _ => isTrue trivial
  | .readStartTimestamp => isTrue trivial
  | .getStacks => isTrue trivial

/-- When the stacks are taken, the start that was read is still the start of
the dispatch, or no sample of its time is retained. -/
def Undisturbed (format : Millis → Text) (before : List Action) :
    Action → Prop
  | .getStacks => ∀ block startTime,
      (monitorAfter format before).underWay = some (block, startTime) →
      startTime = block.start ∨
        StackSampler.between
          (monitorAfter format before).mStackSampler.mStackMap
          block.start block.endTime = []
  | _ => True

/-- The start that a runnable finds is its own, or lies past its end. -/
def Found (block : BlockEvent) (startTime : Millis) : Prop :=
  startTime = block.start ∨ block.endTime ≤ startTime

/-- What the posted runnables have to do with the calls so far. -/
structure Posted (monitor : LogMonitor) (times : List Millis) : Prop where
  timed : ∀ block ∈ monitor.runnables, block.endTime ∈ times
  found : ∀ block ∈ monitor.runnables,
    Found block monitor.mStartTimestamp
  read : ∀ block startTime, monitor.underWay = some (block, startTime) →
    Found block startTime

theorem Posted.println {monitor : LogMonitor} {times : List Millis}
    {now : Millis} (posted : Posted monitor times)
    (increasing : ∀ earlier ∈ times, earlier ≤ now) :
    Posted (monitor.println now) (times ++ [now]) := by
  rw [LogMonitor.println]
  by_cases starts : monitor.mPrintingStarted = false
  · rw [if_pos starts]
    constructor
    · intro block inRunnables
      exact List.mem_append_left _ (posted.timed block inRunnables)
    · intro block inRunnables
      exact Or.inr (increasing _ (posted.timed block inRunnables))
    · exact posted.read
  · rw [if_neg starts]
    by_cases blocked : monitor.isBlock now = true
    · simp only [blocked, ↓reduceIte]
      constructor
      · intro block inRunnables
        rcases List.mem_append.mp inRunnables with earlier | new
        · exact List.mem_append_left _ (posted.timed block earlier)
        · rw [List.mem_singleton.mp new]
          simp
      · intro block inRunnables
        rcases List.mem_append.mp inRunnables with earlier | new
        · exact posted.found block earlier
        · rw [List.mem_singleton.mp new]
          exact Or.inl rfl
      · exact posted.read
    · simp only [blocked]
      constructor
      · intro block inRunnables
        exact List.mem_append_left _ (posted.timed block inRunnables)
      · exact posted.found
      · exact posted.read

theorem Posted.perform {format : Millis → Text} {monitor : LogMonitor}
    {before : List Action} {action : Action}
    (posted : Posted monitor (printlnTimes before))
    (increasing : Increasing before action) :
    Posted (monitor.perform format action).1
      (printlnTimes (before ++ [action])) := by
  have same : (∀ now, action ≠ .println now) →
      printlnTimes (before ++ [action]) = printlnTimes before := by
    intro other
    rw [printlnTimes, List.filterMap_append]
    cases action with
    | println now => exact absurd rfl (other now)
    | _ => simp [printlnTimes]
  cases action with
  | println now =>
      have times : printlnTimes (before ++ [.println now]) =
          printlnTimes before ++ [now] := by
        simp [printlnTimes]
      rw [times]
      exact posted.println increasing
  | sample now stack =>
      rw [same (by simp)]
      exact ⟨posted.timed, posted.found, posted.read⟩
  | readStartTimestamp =>
      rw [same (by simp)]
      dsimp only [LogMonitor.perform]
      split
      · rename_i block rest _ waiting
        have inRunnables : ∀ other ∈ block :: rest,
            other ∈ monitor.runnables := by
          intro other isOne
          rw [waiting]
          exact isOne
        constructor
        · exact fun other inRest => posted.timed other
            (inRunnables other (List.mem_cons_of_mem _ inRest))
        · exact fun other inRest => posted.found other
            (inRunnables other (List.mem_cons_of_mem _ inRest))
        · intro other startTime isRead
          obtain ⟨rfl, rfl⟩ := Prod.mk.inj (Option.some.inj isRead)
          exact posted.found _ (inRunnables _ List.mem_cons_self)
      · exact posted
  | getStacks =>
      rw [same (by simp)]
      dsimp only [LogMonitor.perform]
      split
      · exact ⟨posted.timed, posted.found, by simp⟩
      · exact posted

theorem posted_of_increasing (format : Millis → Text) {actions : List Action}
    (increasing : AtEvery Increasing actions) :
    Posted (monitorAfter format actions) (printlnTimes actions) := by
  apply increasing.induction
  · exact ⟨by simp [monitorAfter, LogMonitor.new],
      by simp [monitorAfter, LogMonitor.new],
      by simp [monitorAfter, LogMonitor.new]⟩
  · intro before action inductionHypothesis atAction
    have moved : monitorAfter format (before ++ [action]) =
        ((monitorAfter format before).perform format action).1 :=
      (machine format).run_concat _ _ _
    rw [moved]
    exact inductionHypothesis.perform atAction

/-- What the runnable takes with the start that it read is what the dispatch
asks for, if it is its own start or there is nothing to take. -/
theorem getStacks_eq_iff (format : Millis → Text) {block : BlockEvent}
    {startTime : Millis} (found : Found block startTime)
    (stackMap : StackMap) :
    StackSampler.getStacks format stackMap startTime block.endTime =
        StackSampler.getStacks format stackMap block.start block.endTime ↔
      startTime = block.start ∨
        StackSampler.between stackMap block.start block.endTime = [] := by
  rcases found with rfl | past
  · exact iff_of_true rfl (Or.inl rfl)
  · have nothing := @StackSampler.between_eq_nil stackMap _ _ past
    rw [(StackSampler.getStacks_eq_nil_iff format _ _ _).mpr nothing, eq_comm,
      StackSampler.getStacks_eq_nil_iff]
    constructor
    · exact Or.inr
    · rintro (rfl | nothingOwn)
      · exact nothing
      · exact nothingOwn

theorem exact_getStacks_iff (format : Millis → Text) {before : List Action}
    (posted : Posted (monitorAfter format before) (printlnTimes before)) :
    (∀ report ∈ ((machine format).step ((machine format).run .new before)
        .getStacks).2, Exact format report) ↔
      Undisturbed format before .getStacks := by
  change (∀ report ∈ ((monitorAfter format before).perform format
    .getStacks).2, Exact format report) ↔ _
  rw [LogMonitor.perform, Undisturbed]
  cases underWay : (monitorAfter format before).underWay with
  | none => simp
  | some reading =>
      obtain ⟨block, startTime⟩ := reading
      have found := posted.read block startTime underWay
      simp only [List.mem_singleton, forall_eq, Option.some.injEq,
        Prod.mk.injEq, and_imp, Exact]
      rw [getStacks_eq_iff format found]
      constructor
      · rintro undisturbed _ _ rfl rfl
        exact undisturbed
      · intro undisturbed
        exact undisturbed block startTime rfl rfl

/-- With a clock that does not run backwards, every report lists the retained
samples of its dispatch if and only if each is taken undisturbed. -/
theorem exact_iff_undisturbed (format : Millis → Text)
    {actions : List Action} (increasing : AtEvery Increasing actions) :
    (∀ report ∈ reportsOf format actions, Exact format report) ↔
      AtEvery (Undisturbed format) actions := by
  rw [reportsOf, Mealy.forall_mem_trace_iff]
  apply forall_congr'
  intro before
  apply forall_congr'
  intro action
  apply forall_congr'
  intro after
  apply imp_congr_right
  intro whole
  have posted := posted_of_increasing format
    (AtEvery.of_append (whole ▸ increasing))
  cases action with
  | println now => simp [Undisturbed, machine, LogMonitor.perform]
  | sample now stack => simp [Undisturbed, machine, LogMonitor.perform]
  | readStartTimestamp =>
      simp only [Undisturbed, iff_true]
      intro report reported
      have silent : ((monitorAfter format before).perform format
          .readStartTimestamp).2 = [] := by
        dsimp only [LogMonitor.perform]
        split
        · rfl
        · rfl
      exact absurd (silent ▸ reported) (by simp)
  | getStacks => exact exact_getStacks_iff format posted

/-- The start is read before the next dispatch begins, and the stacks are
taken after that. -/
theorem readInTime_exact :
    ((∀ report ∈ reportsOf (fun _ => []) [.println 0, .sample 3000 ['s'],
          .println 6000, .readStartTimestamp, .println 6001, .getStacks],
        Exact (fun _ => []) report) ↔
      AtEvery (Undisturbed fun _ => []) [.println 0, .sample 3000 ['s'],
        .println 6000, .readStartTimestamp, .println 6001, .getStacks]) ∧
    (reportsOf (fun _ => []) [.println 0, .sample 3000 ['s'], .println 6000,
      .readStartTimestamp, .println 6001, .getStacks]).map Report.logged =
        [["\r\n\r\ns".toList]] :=
  ⟨exact_iff_undisturbed _ (by decide), by decide⟩

/-- A dispatch that was blocked for six seconds, and the next one, which
begins before the log thread reads the start. -/
def overtaken : List Action :=
  [.println 0, .sample 3000 ['s'], .println 6000, .println 6001,
    .readStartTimestamp, .getStacks]

theorem overtaken_lists_nothing :
    AtEvery Increasing overtaken ∧
      ¬ ∀ report ∈ reportsOf (fun _ => []) overtaken,
        Exact (fun _ => []) report := by
  refine ⟨by decide, ?_⟩
  intro every
  have logged : (reportsOf (fun _ => []) overtaken).map Report.logged =
      [[]] := by decide
  have asked : (reportsOf (fun _ => []) overtaken).map (fun report =>
      StackSampler.getStacks (fun _ => []) report.retained
        report.block.start report.block.endTime) =
      [["\r\n\r\ns".toList]] := by decide
  rw [List.map_congr_left every, asked] at logged
  exact absurd logged (by decide)

end DripStone.BlockCanary
