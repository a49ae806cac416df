import DripStone.BaseTransform.RunOutput

/-!
# What a run leaves at each place

A full run starts from an empty output and an incremental one from the output
it finds.  Either way each task makes its own place what it has to be.
-/

namespace DripStone.BaseTransform

open DripStone.Library

section Calls

variable (tools : Tools) {transformInvocation : TransformInvocation}
  {jarInput : JarInput} (long : LongPath jarInput.file)
include long

theorem call_jarTask_of_present
    (isPresent : transformInvocation.IsPresent jarInput) :
    (transformInvocation.jarTask jarInput).call tools =
      replaceJar tools jarInput (jarPlace transformInvocation jarInput)
        transformInvocation.context :=
  forEachJar_of_replacing tools long isPresent

theorem call_jarTask_of_removed
    (isGone : ¬ transformInvocation.IsPresent jarInput) :
    (transformInvocation.jarTask jarInput).call tools =
      forceDeleteIfExists (jarPlace transformInvocation jarInput) := by
  rw [TransformInvocation.IsPresent, not_or, Bool.not_eq_false,
    not_not] at isGone
  show forEachJar tools jarInput _ _ _ = _
  rw [forEachJar, generateJarFileName_of_long long, Action.ofExcept_ok_bind,
    isGone.1, isGone.2]
  rfl

end Calls

theorem jarPlace_ne_nil (transformInvocation : TransformInvocation)
    (jarInput : JarInput) : jarPlace transformInvocation jarInput ≠ [] := by
  simp [jarPlace, TransformOutputProvider.getContentLocation]

/-- The tasks of an invocation in some order, and the files they start with. -/
structure Started (transformInvocation : TransformInvocation)
    (files start : FileSystem Bytes) (order : List Task) : Prop where
  placed : WellPlaced transformInvocation files
  distinct : Distinct transformInvocation
  permuted : order.Perm transformInvocation.tasks
  ready : Ready transformInvocation.outputProvider.root
    transformInvocation.context.temporaryDir start
  spares : Spares transformInvocation.outputProvider.root
    transformInvocation.context.temporaryDir files start

section Started

variable {tools : Tools} {transformInvocation : TransformInvocation}
  {files start : FileSystem Bytes} {order : List Task}
  (started : Started transformInvocation files start order)
include started

theorem Started.layout : Layout transformInvocation.outputProvider.root
    transformInvocation.context.temporaryDir order :=
  started.placed.layout.of_subset fun _ inOrder =>
    started.permuted.mem_iff.mp inOrder

/-- A task that writes finds its place and its source as they were at the
start. -/
theorem Started.exists_owner (tools : Tools) {task : Task}
    (inTasks : task ∈ transformInvocation.tasks) (writes : task.Writes) :
    ∃ current, Ready transformInvocation.outputProvider.root
        transformInvocation.context.temporaryDir current ∧
      (∀ path, task.dest <+: path → current.find path = start.find path) ∧
      (∀ path, task.source <+: path →
        current.find path = files.find path) ∧
      ∀ path, task.dest <+: path →
        (invokeAll tools order start).files.find path =
          ((task.call tools).after current).find path := by
  have symmetric : ∀ {task other : Task}, ¬ task.Clashes other →
      ¬ other.Clashes task := fun apart clashes => apart clashes.symm
  have pairwise := (started.permuted.pairwise_iff symmetric).mpr
    started.distinct.pairwise
  have inOrder := started.permuted.mem_iff.mpr inTasks
  obtain ⟨current, ready, atPlace, atSource, left⟩ :=
    started.layout.exists_owner tools started.ready pairwise inOrder writes
  refine ⟨current, ready, atPlace, ?_, left⟩
  intro path below
  rw [atSource path below]
  exact started.spares.find_eq
    (started.placed.layout.source_root task inTasks)
    (started.placed.layout.source_temporaryDir task inTasks) below

variable {jarInput : JarInput}
  (inJars : jarInput ∈ transformInvocation.jarInputs)
  (long : LongPath jarInput.file)
include inJars

omit started in
theorem mem_tasks_of_jarInputs :
    transformInvocation.jarTask jarInput ∈ transformInvocation.tasks :=
  mem_tasks_iff.mpr (Or.inl ⟨jarInput, inJars, rfl⟩)

include long

theorem Started.fileAt_jarPlace
    (isPresent : transformInvocation.IsPresent jarInput) :
    (invokeAll tools order start).files.fileAt
        (jarPlace transformInvocation jarInput) =
      (files.fileAt jarInput.file).bind (jarOutput tools jarInput.file) := by
  have inTasks := mem_tasks_of_jarInputs inJars
  obtain ⟨current, ready, _, atSource, left⟩ :=
    started.exists_owner tools inTasks long
  obtain ⟨content, found⟩ := Option.ne_none_iff_exists'.mp
    (started.placed.jars jarInput inJars isPresent)
  have source : current.fileAt jarInput.file = some content := by
    rw [← found]
    exact FileSystem.fileAt_congr (atSource _ List.prefix_rfl)
  have leaves := replaceJar_leaves tools long source
    (transformInvocation.outputProvider.plain_getContentLocation
      (jarName jarInput.file) jarInput.contentTypes jarInput.scopes .jar)
    started.placed.layout.apart
    (started.placed.layout.source_root _ inTasks)
    (started.placed.layout.source_temporaryDir _ inTasks) ready
  have same := left _ List.prefix_rfl
  rw [call_jarTask_of_present tools long isPresent] at same
  rw [found]
  exact (FileSystem.fileAt_congr same).trans leaves.1

theorem Started.find_jarPlace_of_removed
    (isGone : ¬ transformInvocation.IsPresent jarInput) (rest : Path) :
    (invokeAll tools order start).files.find
        (jarPlace transformInvocation jarInput ++ rest) = none := by
  have inTasks := mem_tasks_of_jarInputs inJars
  obtain ⟨current, _, _, _, left⟩ := started.exists_owner tools inTasks long
  obtain ⟨deleted, returned, atDeleted⟩ := forceDeleteIfExists_ok
    (jarPlace_ne_nil transformInvocation jarInput) current
  have same := left _
    (List.prefix_append (jarPlace transformInvocation jarInput) rest)
  rw [call_jarTask_of_removed tools long isGone, Action.after_of_ok returned,
    atDeleted, if_pos (List.prefix_append _ rest)] at same
  exact same

theorem Started.find_below_jarPlace {rest : Path} (more : rest ≠ []) :
    (invokeAll tools order start).files.find
        (jarPlace transformInvocation jarInput ++ rest) = none := by
  by_cases isPresent : transformInvocation.IsPresent jarInput
  · have inTasks := mem_tasks_of_jarInputs inJars
    obtain ⟨current, _, _, _, left⟩ :=
      started.exists_owner tools inTasks long
    have same := left _
      (List.prefix_append (jarPlace transformInvocation jarInput) rest)
    rw [call_jarTask_of_present tools long isPresent] at same
    have fromRoot := started.placed.layout.source_root _ inTasks
    have apart := started.placed.layout.apart
    exact same.trans (find_below_replaceJar
      (jarPlace_ne_nil transformInvocation jarInput)
      (fromRoot.symm.append _).symm
      (started.placed.layout.source_temporaryDir _ inTasks)
      (apart.append _) more)
  · exact started.find_jarPlace_of_removed inJars long isPresent rest

end Started

/-! ## Every place -/

/-- The task of a directory makes its place what it has to be, from any files
that hold there what the tasks started with. -/
def Completes (tools : Tools) (transformInvocation : TransformInvocation)
    (files start : FileSystem Bytes) (directoryInput : DirectoryInput) :
    Prop :=
  ∀ current : FileSystem Bytes,
    Ready transformInvocation.outputProvider.root
      transformInvocation.context.temporaryDir current →
    (∀ path, transformInvocation.outputProvider.directoryPlace
        directoryInput <+: path → current.find path = start.find path) →
    (∀ path, directoryInput.file <+: path →
      current.find path = files.find path) →
    ∀ rest, (((transformInvocation.directoryTask directoryInput).call
        tools).after current).fileAt
          (transformInvocation.outputProvider.directoryPlace directoryInput ++
            rest) =
      (files.fileAt (directoryInput.file ++ rest)).map
        (classOutput tools (directoryInput.file ++ rest))

section Places

variable {tools : Tools} {transformInvocation : TransformInvocation}
  {files start : FileSystem Bytes} {order : List Task}

/-- In any order, each task completes its own place. -/
theorem Started.placeByPlace
    (started : Started transformInvocation files start order)
    (completes : ∀ directoryInput ∈ transformInvocation.directoryInputs,
      Completes tools transformInvocation files start directoryInput) :
    PlaceByPlace tools transformInvocation files start
      (invokeAll tools order start).files where
  directory := by
    intro directoryInput inDirectories rest
    have inTasks : transformInvocation.directoryTask directoryInput ∈
        transformInvocation.tasks :=
      mem_tasks_iff.mpr (Or.inr ⟨directoryInput, inDirectories, rfl⟩)
    obtain ⟨current, ready, atPlace, atSource, left⟩ :=
      started.exists_owner tools inTasks trivial
    rw [← completes directoryInput inDirectories current ready atPlace
      atSource rest]
    exact FileSystem.fileAt_congr (left _ (List.prefix_append _ rest))
  jar := fun _ inJars long => started.fileAt_jarPlace inJars long
  removed := by
    intro jarInput inJars long isGone
    apply FileSystem.fileAt_eq_none_iff.mpr
    left
    rw [← List.append_nil (jarPlace transformInvocation jarInput)]
    exact started.find_jarPlace_of_removed inJars long isGone []
  belowJar := fun jarInput inJars long rest more =>
    FileSystem.fileAt_eq_none_iff.mpr
      (Or.inl (started.find_below_jarPlace inJars long more))
  others := by
    intro leaf unowned path below
    apply started.layout.find_of_unowned tools _ below
    intro task isTask
    exact unowned task (started.permuted.mem_iff.mp isTask)
  root := (started.layout.ready_invokeAll tools started.ready).root

end Places

/-! ## The two kinds of runs -/

section Kinds

variable {tools : Tools} {transformInvocation : TransformInvocation}
  {files start : FileSystem Bytes} {directoryInput : DirectoryInput}

/-- The task of a directory, when its place holds the output of earlier
contents. -/
theorem WellPlaced.directoryRun
    (placed : WellPlaced transformInvocation files)
    (inDirectories : directoryInput ∈ transformInvocation.directoryInputs)
    {was : Path → Option Bytes}
    (holds : ∀ rest, start.fileAt
        (transformInvocation.outputProvider.directoryPlace directoryInput ++
          rest) =
      (was (directoryInput.file ++ rest)).map
        (classOutput tools (directoryInput.file ++ rest)))
    (noFile : was directoryInput.file = none)
    (plainWas : ∀ rest, was (directoryInput.file ++ rest) ≠ none →
      ∀ name ∈ rest, Plain name)
    (once : ∀ rest, was (directoryInput.file ++ rest) ≠ none ∨
      files.fileAt (directoryInput.file ++ rest) ≠ none →
        ReadOnce directoryInput.file rest)
    {current : FileSystem Bytes}
    (ready : Ready transformInvocation.outputProvider.root
      transformInvocation.context.temporaryDir current)
    (atPlace : ∀ path, transformInvocation.outputProvider.directoryPlace
      directoryInput <+: path → current.find path = start.find path)
    (atSource : ∀ path, directoryInput.file <+: path →
      current.find path = files.find path) :
    DirectoryRun tools directoryInput.file
      (transformInvocation.outputProvider.directoryPlace directoryInput)
      transformInvocation.context.temporaryDir was current := by
  have inTasks : transformInvocation.directoryTask directoryInput ∈
      transformInvocation.tasks :=
    mem_tasks_iff.mpr (Or.inr ⟨directoryInput, inDirectories, rfl⟩)
  have fromRoot := placed.layout.source_root _ inTasks
  have sourceFile : ∀ rest, current.fileAt (directoryInput.file ++ rest) =
      files.fileAt (directoryInput.file ++ rest) := fun rest =>
    FileSystem.fileAt_congr (atSource _ (List.prefix_append _ rest))
  have placeFile : ∀ rest, current.fileAt
      (transformInvocation.outputProvider.directoryPlace directoryInput ++
        rest) =
      (was (directoryInput.file ++ rest)).map
        (classOutput tools (directoryInput.file ++ rest)) := by
    intro rest
    rw [← holds rest]
    exact FileSystem.fileAt_congr (atPlace _ (List.prefix_append _ rest))
  constructor
  · exact transformInvocation.outputProvider.plain_getContentLocation _ _ _ _
  · exact placed.layout.apart.append _
  · exact (fromRoot.symm.append _).symm
  · exact placed.layout.source_temporaryDir _ inTasks
  · exact placeFile
  · intro above isAbove
    by_cases here : above =
        transformInvocation.outputProvider.directoryPlace directoryInput
    · have noStored := placeFile []
      rw [List.append_nil, List.append_nil, noFile] at noStored
      rw [here]
      exact FileSystem.fileAt_eq_none_iff.mp noStored
    · have shorter : above <+: transformInvocation.outputProvider.root := by
        rcases List.prefix_concat_iff.mp isAbove with whole | shorter
        · exact absurd whole here
        · exact shorter
      obtain ⟨rest, whole⟩ := shorter
      have isRoot := ready.root
      rw [← whole] at isRoot
      exact Or.inr (current.directory_of_append isRoot)
  · exact ready.stays
  · exact ready.onlyFiles
  · have atDirectory := sourceFile []
    rw [List.append_nil] at atDirectory
    rw [atDirectory]
    exact ⟨noFile, placed.directories directoryInput inDirectories⟩
  · exact plainWas
  · intro rest known
    rw [sourceFile] at known
    exact once rest known

/-- What is in the way does not depend on files elsewhere. -/
theorem ClearWay.congr {directory dest : Path}
    {changes : List (Path × Status)} {current : FileSystem Bytes}
    (clear : ClearWay directory dest files changes)
    (same : ∀ path, dest <+: path → current.find path = files.find path) :
    ClearWay directory dest current changes := by
  intro earlier file status later whole written rest isRest
  obtain ⟨above, inside⟩ :=
    clear earlier file status later whole written rest isRest
  constructor
  · intro path isAbove shorter isFile
    apply above path isAbove shorter
    rwa [FileSystem.fileAt_congr (same _ (List.prefix_append dest path))]
      at isFile
  · intro isDirectory name listed
    rw [same _ (List.prefix_append dest rest)] at isDirectory
    have below : dest <+: dest ++ rest ++ [name] := by
      rw [List.append_assoc]
      exact List.prefix_append _ _
    rw [same _ below] at listed
    rw [FileSystem.fileAt_congr (same _ below)]
    exact inside isDirectory name listed

/-- A full run completes the place of a directory from nothing. -/
theorem completes_full (isFull : transformInvocation.isIncremental = false)
    (placed : WellPlaced transformInvocation files)
    (inDirectories : directoryInput ∈ transformInvocation.directoryInputs)
    (once : ∀ rest, files.fileAt (directoryInput.file ++ rest) ≠ none →
      ReadOnce directoryInput.file rest)
    (nothing : ∀ path, transformInvocation.outputProvider.root <+: path →
      path ≠ transformInvocation.outputProvider.root →
        start.find path = none) :
    Completes tools transformInvocation files start directoryInput := by
  intro current ready atPlace atSource rest
  have empty : ∀ rest, start.find
      (transformInvocation.outputProvider.directoryPlace directoryInput ++
        rest) = none := by
    intro rest
    apply nothing
    · rw [TransformOutputProvider.directoryPlace,
        TransformOutputProvider.getContentLocation, List.append_assoc]
      exact List.prefix_append _ _
    · simp [TransformOutputProvider.directoryPlace,
        TransformOutputProvider.getContentLocation]
  have run : DirectoryRun tools directoryInput.file
      (transformInvocation.outputProvider.directoryPlace directoryInput)
      transformInvocation.context.temporaryDir (fun _ => none) current := by
    apply placed.directoryRun inDirectories _ rfl _ _ ready atPlace atSource
    · intro rest
      exact FileSystem.fileAt_eq_none_iff.mpr (Or.inl (empty rest))
    · intro rest wasFile
      exact absurd rfl wasFile
    · intro rest known
      exact once rest (known.resolve_left fun wasFile => wasFile rfl)
  have emptyNow : ∀ rest, rest ≠ [] → current.find
      (transformInvocation.outputProvider.directoryPlace directoryInput ++
        rest) = none := by
    intro rest _
    rw [atPlace _ (List.prefix_append _ rest), empty]
  obtain ⟨left, returned, atLeft⟩ := forEachDirectory_full run emptyNow
  have call : (transformInvocation.directoryTask directoryInput).call tools
      current = .ok () left := by
    show forEachDirectory tools directoryInput _ _ _ current = _
    rw [isFull]
    exact returned
  rw [Action.after_of_ok call, atLeft]
  have source := atSource _ (List.prefix_append directoryInput.file rest)
  rw [FileSystem.fileAt_congr source]

/-- An incremental run completes the place of a directory from the contents
that the map of changed files is about. -/
theorem completes_incremental
    (isIncremental : transformInvocation.isIncremental = true)
    (placed : WellPlaced transformInvocation files)
    (inDirectories : directoryInput ∈ transformInvocation.directoryInputs)
    {was : Path → Option Bytes}
    (holds : ∀ rest, files.fileAt
        (transformInvocation.outputProvider.directoryPlace directoryInput ++
          rest) =
      (was (directoryInput.file ++ rest)).map
        (classOutput tools (directoryInput.file ++ rest)))
    (noFile : was directoryInput.file = none)
    (plainWas : ∀ rest, was (directoryInput.file ++ rest) ≠ none →
      ∀ name ∈ rest, Plain name)
    (once : ∀ rest, was (directoryInput.file ++ rest) ≠ none ∨
      files.fileAt (directoryInput.file ++ rest) ≠ none →
        ReadOnce directoryInput.file rest)
    (exact_ : ∀ entry ∈ directoryInput.changedFiles,
      entry.2 = statusOf (was entry.1) (files.fileAt entry.1))
    (complete : ∀ rest, was (directoryInput.file ++ rest) ≠
      files.fileAt (directoryInput.file ++ rest) →
        directoryInput.file ++ rest ∈
          directoryInput.changedFiles.map Prod.fst)
    (clear : ClearWay directoryInput.file
      (transformInvocation.outputProvider.directoryPlace directoryInput)
      files directoryInput.changedFiles) :
    Completes tools transformInvocation files files directoryInput := by
  intro current ready atPlace atSource rest
  have run := placed.directoryRun inDirectories holds noFile plainWas once
    ready atPlace atSource
  have sourceFile : ∀ path, directoryInput.file <+: path →
      current.fileAt path = files.fileAt path := fun path below =>
    FileSystem.fileAt_congr (atSource path below)
  have exactNow : ∀ entry ∈ directoryInput.changedFiles,
      entry.2 = statusOf (was entry.1) (current.fileAt entry.1) := by
    intro entry inChanges
    rw [sourceFile _ (directoryInput.changedFiles_below entry inChanges)]
    exact exact_ entry inChanges
  have completeNow : ∀ rest, was (directoryInput.file ++ rest) ≠
      current.fileAt (directoryInput.file ++ rest) →
        directoryInput.file ++ rest ∈
          directoryInput.changedFiles.map Prod.fst := by
    intro rest differs
    rw [sourceFile _ (List.prefix_append _ rest)] at differs
    exact complete rest differs
  obtain ⟨left, returned, atLeft⟩ := forEachDirectory_incremental run
    exactNow completeNow (clear.congr atPlace)
  have call : (transformInvocation.directoryTask directoryInput).call tools
      current = .ok () left := by
    show forEachDirectory tools directoryInput _ _ _ current = _
    rw [isIncremental]
    exact returned
  rw [Action.after_of_ok call, atLeft, sourceFile _ (List.prefix_append _ rest)]

end Kinds

/-! ## An emptied output -/

theorem find_deleteAll {outputProvider : TransformOutputProvider}
    (named : outputProvider.root ≠ []) (files : FileSystem Bytes)
    {path : Path} (below : outputProvider.root <+: path)
    (inside : path ≠ outputProvider.root) :
    (outputProvider.deleteAll files).find path = none := by
  have gone : (files.removeTree outputProvider.root).find path = none := by
    rw [FileSystem.find_removeTree named, if_pos below]
  rw [TransformOutputProvider.deleteAll]
  rcases (files.removeTree outputProvider.root).find_mkdirs_cases
      outputProvider.root path with kept | ⟨above, _, _⟩
  · rw [kept, gone]
  · exact absurd (above.eq_of_length_le below.length_le) inside

end DripStone.BaseTransform
