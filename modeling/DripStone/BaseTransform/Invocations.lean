import DripStone.BaseTransform.JarsKept
import DripStone.Library.Mealy

/-!
# Several invocations of one transform

The list of tasks is a field of the transform and is never cleared, so an
invocation runs the tasks of the earlier ones again, each with the output it
was submitted with.
-/

namespace DripStone.BaseTransform

open DripStone.Library

/-- The transform after some invocations. -/
def Instance.submitAll (transform : Instance)
    (transformInvocations : List TransformInvocation) : Instance :=
  transformInvocations.foldl Instance.submit transform

theorem Instance.taskList_submitAll (transform : Instance)
    (transformInvocations : List TransformInvocation) :
    (transform.submitAll transformInvocations).taskList =
      transform.taskList ++
        transformInvocations.flatMap TransformInvocation.tasks := by
  induction transformInvocations generalizing transform with
  | nil => simp [Instance.submitAll]
  | cons first rest inductionHypothesis =>
      have atRest := inductionHypothesis (transform.submit first)
      rw [Instance.submitAll] at atRest ⊢
      rw [List.foldl_cons, atRest, List.flatMap_cons, Instance.submit,
        List.append_assoc]

/-- The output, the temporary directory and the inputs of an invocation lie
apart. -/
def TransformInvocation.Laid (transformInvocation : TransformInvocation) :
    Prop :=
  Layout transformInvocation.outputProvider.root
    transformInvocation.context.temporaryDir transformInvocation.tasks

/-- An invocation after some others does what it does on a fresh transform,
writes its own output only and leaves the outputs of the others alone. -/
structure Isolated (tools : Tools) (before : List TransformInvocation)
    (transformInvocation : TransformInvocation) : Prop where
  same : ∀ files outcome,
    Transforms tools (Instance.fresh.submitAll before) transformInvocation
        files outcome ↔
      Transforms tools .fresh transformInvocation files outcome
  own : ∀ files outcome,
    Transforms tools (Instance.fresh.submitAll before) transformInvocation
      files outcome →
    ∀ path, ¬ transformInvocation.outputProvider.root <+: path →
      ¬ transformInvocation.context.temporaryDir <+: path →
        outcome.files.fileAt path = files.fileAt path
  earlier : ∀ files outcome,
    Transforms tools (Instance.fresh.submitAll before) transformInvocation
      files outcome →
    ∀ other ∈ before,
      Apart other.outputProvider.root
        transformInvocation.outputProvider.root →
      Apart other.outputProvider.root
        transformInvocation.context.temporaryDir →
      ∀ path, other.outputProvider.root <+: path →
        outcome.files.find path = files.find path

/-- No earlier invocation had an input, so that none queued a task. -/
def NothingQueued (before : List TransformInvocation)
    (_ : TransformInvocation) : Prop :=
  ∀ earlier ∈ before, ∀ input ∈ earlier.inputs,
    input.jarInputs = [] ∧ input.directoryInputs = []

theorem NothingQueued.tasks_eq {before : List TransformInvocation}
    {transformInvocation : TransformInvocation}
    (nothing : NothingQueued before transformInvocation) :
    (Instance.fresh.submitAll before).taskList = [] := by
  rw [Instance.taskList_submitAll]
  apply List.append_eq_nil_iff.mpr
  refine ⟨rfl, ?_⟩
  rw [List.flatMap_eq_nil_iff]
  intro earlier isEarlier
  rw [TransformInvocation.tasks, List.flatMap_eq_nil_iff]
  intro input inInputs
  obtain ⟨noJars, noDirectories⟩ := nothing earlier isEarlier input inInputs
  rw [noJars, noDirectories]
  rfl

/-- What a transform with no task left over leaves alone. -/
theorem Transforms.spares {tools : Tools}
    {transformInvocation : TransformInvocation} {files : FileSystem Bytes}
    {outcome : Outcome} (laid : transformInvocation.Laid)
    (transforms :
      Transforms tools .fresh transformInvocation files outcome) :
    Spares transformInvocation.outputProvider.root
      transformInvocation.context.temporaryDir files outcome.files := by
  obtain ⟨order, permuted, rfl⟩ := transforms
  have prepared : Spares transformInvocation.outputProvider.root
      transformInvocation.context.temporaryDir files
      (transformInvocation.prepare files) := by
    rw [TransformInvocation.prepare]
    cases transformInvocation.isIncremental with
    | true => exact Spares.refl _ _ files
    | false => exact spares_deleteAll laid.apart files
  have subset : ∀ task ∈ order, task ∈ transformInvocation.tasks :=
    fun task inOrder => permuted.mem_iff.mp inOrder
  exact prepared.trans
    ((laid.of_subset subset).spares_invokeAll tools _)

theorem isolated_of_nothingQueued (tools : Tools)
    {before : List TransformInvocation}
    {transformInvocation : TransformInvocation}
    (laid : transformInvocation.Laid)
    (nothing : NothingQueued before transformInvocation) :
    Isolated tools before transformInvocation := by
  have fresh : Instance.fresh.submitAll before = .fresh := by
    have empty := nothing.tasks_eq
    cases whole : Instance.fresh.submitAll before with
    | mk taskList =>
        rw [whole] at empty
        exact congrArg Instance.mk empty
  constructor
  · intro files outcome
    rw [fresh]
  · intro files outcome transforms path outsideRoot outsideTemporary
    rw [fresh] at transforms
    rcases (transforms.spares laid).outside path outsideRoot
        outsideTemporary with kept | ⟨wasNone, made, _⟩
    · exact FileSystem.fileAt_congr kept
    · rw [FileSystem.fileAt_eq_none_iff.mpr (Or.inl wasNone),
        FileSystem.fileAt_eq_none_iff.mpr (Or.inr made)]
  · intro files outcome transforms other _ fromRoot fromTemporary path below
    rw [fresh] at transforms
    exact (transforms.spares laid).find_eq fromRoot fromTemporary below

/-- On a transform whose earlier invocations queued nothing, every invocation
is isolated. -/
theorem isolated_of_no_leftover (tools : Tools)
    (transformInvocations : List TransformInvocation)
    (laid : ∀ transformInvocation ∈ transformInvocations,
      transformInvocation.Laid)
    (nothing : AtEvery NothingQueued transformInvocations) :
    AtEvery (Isolated tools) transformInvocations := by
  intro before transformInvocation after whole
  have inInvocations : transformInvocation ∈ transformInvocations := by
    rw [whole]
    exact List.mem_append_right before List.mem_cons_self
  exact isolated_of_nothingQueued tools (laid _ inInvocations)
    (nothing before transformInvocation after whole)

/-! ## Two variants -/

/-- The jars of another variant, to the output `/new` with the temporary
directory `/scratch`. -/
def otherVariant (jarFiles : List Path) : TransformInvocation where
  inputs := (jarsOnly jarFiles).inputs
  outputProvider := listedOutput "new".toList (by decide)
  context := ⟨["scratch".toList]⟩
  isIncremental := false

theorem laid_otherVariant {jarFiles : List Path}
    (among : ∀ file ∈ jarFiles, file = firstJar ∨ file = secondJar) :
    (otherVariant jarFiles).Laid := by
  have tasks : ∀ task ∈ (otherVariant jarFiles).tasks,
      task.Of ["new".toList] ["scratch".toList] ∧
        (task.source = firstJar ∨ task.source = secondJar) := by
    intro task inTasks
    rcases mem_tasks_iff.mp inTasks with
      ⟨jarInput, inJars, rfl⟩ | ⟨directoryInput, inDirectories, rfl⟩
    · refine ⟨⟨rfl, rfl⟩, ?_⟩
      simp only [otherVariant, jarsOnly, TransformInvocation.jarInputs,
        List.flatMap_cons, List.flatMap_nil, List.append_nil,
        List.mem_map] at inJars
      obtain ⟨file, inFiles, rfl⟩ := inJars
      exact among file inFiles
    · simp [otherVariant, jarsOnly,
        TransformInvocation.directoryInputs] at inDirectories
  have apartFrom : ∀ file, file = firstJar ∨ file = secondJar →
      Apart file ["new".toList] ∧ Apart file ["scratch".toList] := by
    rintro file (rfl | rfl) <;> decide
  have apart : Apart ["new".toList] ["scratch".toList] := by decide
  exact ⟨apart, fun task inTasks => (tasks task inTasks).1,
    fun task inTasks => (apartFrom _ (tasks task inTasks).2).1,
    fun task inTasks => (apartFrom _ (tasks task inTasks).2).2⟩

/-- After an invocation without inputs the next one is isolated. -/
theorem second_isolated :
    AtEvery (Isolated countingTools)
      [otherVariant [], otherVariant [firstJar]] := by
  apply isolated_of_no_leftover countingTools
  · intro transformInvocation inInvocations
    rcases List.mem_cons.mp inInvocations with rfl | inRest
    · exact laid_otherVariant (by simp)
    · rw [List.mem_singleton.mp inRest]
      exact laid_otherVariant (by simp)
  · rw [atEvery_cons, atEvery_cons]
    refine ⟨?_, ?_, atEvery_nil _⟩
    · intro earlier isEarlier
      exact absurd isEarlier List.not_mem_nil
    · intro earlier isEarlier input inInputs
      rw [List.mem_singleton.mp isEarlier] at inInputs
      rw [List.mem_singleton.mp inInputs]
      exact ⟨rfl, rfl⟩

def firstInput : JarInput :=
  ⟨firstJar, {.classes}, {.externalLibraries}, .notChanged⟩

/-- Two variants on one transform: the second invocation writes the first
one's output again. -/
theorem first_output_rewritten :
    (∀ transformInvocation ∈ [jarsOnly [firstJar], otherVariant [secondJar]],
      transformInvocation.Laid) ∧
    ¬ AtEvery (Isolated countingTools)
      [jarsOnly [firstJar], otherVariant [secondJar]] := by
  have first := fullBuild_twoJars
    (show ∀ file ∈ [firstJar], file = firstJar ∨ file = secondJar by simp)
    [] []
  have second := laid_otherVariant
    (show ∀ file ∈ [secondJar], file = firstJar ∨ file = secondJar by simp)
  constructor
  · intro transformInvocation inInvocations
    rcases List.mem_cons.mp inInvocations with rfl | inRest
    · exact first.layout
    · rw [List.mem_singleton.mp inRest]
      exact second
  intro isolated
  have atSecond := isolated [jarsOnly [firstJar]]
    (otherVariant [secondJar]) [] rfl
  -- the order in which the task left over comes last
  have ran : ∀ files, Transforms countingTools
      (Instance.fresh.submitAll [jarsOnly [firstJar]])
      (otherVariant [secondJar]) files
      (invokeAll countingTools ((otherVariant [secondJar]).tasks ++
          [(jarsOnly [firstJar]).jarTask firstInput])
        ((otherVariant [secondJar]).prepare files)) := by
    intro files
    refine ⟨_, ?_, rfl⟩
    exact List.perm_append_comm
  have kept := atSecond.earlier _ _ (ran (twoJars [] []))
    (jarsOnly [firstJar]) (by simp) (by decide) (by decide)
    (jarPlace (jarsOnly [firstJar]) firstInput) (List.prefix_append _ _)
  have prepared := spares_deleteAll second.apart (twoJars [] [])
  have spares := prepared.trans (second.spares_invokeAll countingTools _)
  have atOut := fun path below => @Spares.find_eq _ _ _ _ spares
    ["out".toList] path (by decide) (by decide) below
  have atTmp := fun path below => @Spares.find_eq _ _ _ _ spares
    ["tmp".toList] path (by decide) (by decide) below
  have atJar := fun path below => @Spares.find_eq _ _ _ _ spares
    firstJar path (by decide) (by decide) below
  have ready : Ready ["out".toList] ["tmp".toList]
      (invokeAll countingTools (otherVariant [secondJar]).tasks
        ((otherVariant [secondJar]).prepare (twoJars [] []))).files := by
    refine ⟨?_, ?_, ?_⟩
    · exact (atOut _ List.prefix_rfl).trans first.ready.root
    · exact (atTmp _ List.prefix_rfl).trans first.ready.stays
    · intro name directory
      apply first.ready.onlyFiles name
      exact (atTmp _ (List.prefix_append _ _)).symm.trans directory
  have found : (invokeAll countingTools (otherVariant [secondJar]).tasks
      ((otherVariant [secondJar]).prepare
        (twoJars [] []))).files.fileAt firstInput.file = some [] :=
    (FileSystem.fileAt_congr (atJar _ List.prefix_rfl)).trans rfl
  have long : LongPath firstInput.file := by decide
  have left := replaceJar_leaves countingTools long found
    ((jarsOnly [firstJar]).outputProvider.plain_getContentLocation
      (jarName firstJar) {.classes} {.externalLibraries} .jar)
    first.layout.apart (by decide) (by decide) ready
  rw [invokeAll_concat] at kept
  have written := FileSystem.fileAt_eq_some_iff.mp left.1
  have missing : (twoJars [] []).find
      (jarPlace (jarsOnly [firstJar]) firstInput) = none := by decide
  rw [missing] at kept
  exact absurd (kept.symm.trans written) (by simp)

end DripStone.BaseTransform
