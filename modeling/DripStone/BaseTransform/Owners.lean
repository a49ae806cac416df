import DripStone.BaseTransform.JarsKept
import DripStone.BaseTransform.ChangedFiles

/-!
# One task for each place

When no two tasks write to one place, each of them finds its place as it was
when the tasks started and leaves it as it stays, whatever the order.
-/

namespace DripStone.BaseTransform

open DripStone.Library

/-- A task that comes to its output; that of a jar with a short path throws
before. -/
def Task.Writes : Task → Prop
  | .jar jarInput _ _ _ => LongPath jarInput.file
  | .directory _ _ _ _ => True

/-- Two tasks for one place. -/
def Task.Clashes (task other : Task) : Prop :=
  task.Writes ∧ other.Writes ∧ task.dest = other.dest

theorem Task.Clashes.symm {task other : Task} (clashes : task.Clashes other) :
    other.Clashes task :=
  ⟨clashes.2.1, clashes.1, clashes.2.2.symm⟩

section Owners

variable (tools : Tools) {root temporaryDir : Path}
  {files : FileSystem Bytes} {order : List Task} {task : Task}

theorem after_of_not_writes (idle : ¬ task.Writes)
    (files : FileSystem Bytes) : (task.call tools).after files = files := by
  cases task with
  | jar jarInput outputProvider context isIncremental =>
      have call : forEachJar tools jarInput outputProvider context
          isIncremental =
          throw Failure.stringIndexOutOfBoundsException := by
        rw [forEachJar, generateJarFileName_of_not_long idle,
          Action.ofExcept_error_bind]
      show (forEachJar tools jarInput outputProvider context
        isIncremental).after files = files
      rw [call]
      rfl
  | directory => exact absurd trivial idle

theorem files_invokeAll_append (order others : List Task)
    (files : FileSystem Bytes) :
    (invokeAll tools (order ++ others) files).files =
      (invokeAll tools others (invokeAll tools order files).files).files := by
  induction others using List.reverseRecOn with
  | nil => rw [List.append_nil]; rfl
  | append_singleton others last inductionHypothesis =>
      rw [← List.append_assoc, invokeAll_concat, invokeAll_concat,
        inductionHypothesis]

/-- A place that no task writes to stays. -/
theorem Layout.find_of_unowned (layout : Layout root temporaryDir order)
    {leaf : Name}
    (unowned : ∀ task ∈ order, task.Writes → task.dest ≠ root ++ [leaf])
    {path : Path} (below : root ++ [leaf] <+: path) :
    (invokeAll tools order files).files.find path = files.find path := by
  induction order using List.reverseRecOn with
  | nil => rfl
  | append_singleton order task inductionHypothesis =>
      have initial := layout.of_subset fun other inOrder =>
        List.mem_append_left [task] inOrder
      have inTasks : task ∈ order ++ [task] := by simp
      have earlier := inductionHypothesis initial fun other inOrder =>
        unowned other (List.mem_append_left [task] inOrder)
      rw [invokeAll_concat, ← earlier]
      by_cases writes : task.Writes
      · have spares := layout.spares_call tools inTasks
          (invokeAll tools order files).files
        obtain ⟨other, isBelow⟩ := (layout.isOf task inTasks).dest_eq
        have different : leaf ≠ other := by
          rintro rfl
          exact unowned task inTasks writes isBelow
        rw [isBelow] at spares
        exact spares.find_eq_of_ne layout.apart different below
      · rw [after_of_not_writes tools writes]

/-- The task of a place alone decides what stands there. -/
theorem Layout.exists_owner (layout : Layout root temporaryDir order)
    (ready : Ready root temporaryDir files)
    (distinct : order.Pairwise fun task other => ¬ task.Clashes other)
    (inOrder : task ∈ order) (writes : task.Writes) :
    ∃ current, Ready root temporaryDir current ∧
      (∀ path, task.dest <+: path → current.find path = files.find path) ∧
      (∀ path, task.source <+: path → current.find path = files.find path) ∧
      ∀ path, task.dest <+: path →
        (invokeAll tools order files).files.find path =
          ((task.call tools).after current).find path := by
  obtain ⟨before, later, rfl⟩ := List.append_of_mem inOrder
  obtain ⟨leaf, isBelow⟩ := (layout.isOf task inOrder).dest_eq
  rw [List.pairwise_append, List.pairwise_cons] at distinct
  obtain ⟨_, ⟨apartLater, _⟩, apartBefore⟩ := distinct
  have layoutBefore := layout.of_subset fun other isBefore =>
    List.mem_append_left (task :: later) isBefore
  have layoutLater : Layout root temporaryDir later :=
    layout.of_subset fun other isLater => by simp [isLater]
  have regrouped : before ++ task :: later = (before ++ [task]) ++ later := by
    simp
  refine ⟨(invokeAll tools before files).files,
    layoutBefore.ready_invokeAll tools ready, ?_, ?_, ?_⟩
  · intro path below
    rw [isBelow] at below
    apply layoutBefore.find_of_unowned tools _ below
    intro other isBefore otherWrites same
    exact apartBefore other isBefore task List.mem_cons_self
      ⟨otherWrites, writes, same.trans isBelow.symm⟩
  · intro path below
    exact (layoutBefore.spares_invokeAll tools files).find_eq
      (layout.source_root task inOrder)
      (layout.source_temporaryDir task inOrder) below
  · intro path below
    rw [isBelow] at below
    rw [regrouped, files_invokeAll_append, invokeAll_concat]
    apply layoutLater.find_of_unowned tools _ below
    intro other isLater otherWrites same
    exact apartLater other isLater
      ⟨writes, otherWrites, isBelow.trans same.symm⟩

end Owners

/-! ## The tasks of an invocation -/

section Invocation

variable {transformInvocation : TransformInvocation}

theorem dest_jarTask (transformInvocation : TransformInvocation)
    (jarInput : JarInput) :
    (transformInvocation.jarTask jarInput).dest =
      jarPlace transformInvocation jarInput := rfl

theorem dest_directoryTask (transformInvocation : TransformInvocation)
    (directoryInput : DirectoryInput) :
    (transformInvocation.directoryTask directoryInput).dest =
      transformInvocation.outputProvider.directoryPlace directoryInput := rfl

theorem directoryPlace_eq_iff {outputProvider : TransformOutputProvider}
    {directoryInput other : DirectoryInput} :
    outputProvider.directoryPlace directoryInput =
        outputProvider.directoryPlace other ↔
      directoryInput.name = other.name ∧
        directoryInput.contentTypes = other.contentTypes ∧
        directoryInput.scopes = other.scopes := by
  constructor
  · intro same
    have leaves := (List.append_inj' same rfl).2
    obtain ⟨names, types, scopes, _⟩ :=
      outputProvider.leaf_injective _ _ _ _ _ _ _ _
        (List.singleton_inj.mp leaves)
    exact ⟨names, types, scopes⟩
  · rintro ⟨names, types, scopes⟩
    rw [TransformOutputProvider.directoryPlace,
      TransformOutputProvider.directoryPlace, names, types, scopes]

/-- The place of a jar is not that of a directory. -/
theorem jarPlace_ne_directoryPlace (jarInput : JarInput)
    (directoryInput : DirectoryInput) :
    jarPlace transformInvocation jarInput ≠
      transformInvocation.outputProvider.directoryPlace directoryInput := by
  intro same
  have leaves := (List.append_inj' same rfl).2
  have formats := (transformInvocation.outputProvider.leaf_injective
    _ _ _ _ _ _ _ _ (List.singleton_inj.mp leaves)).2.2.2
  exact absurd formats (by decide)

/-- Jars with different generated names, and directories that are not alike in
name, content types and scopes. -/
structure Distinct (transformInvocation : TransformInvocation) : Prop where
  jars : transformInvocation.jarInputs.Pairwise fun jarInput other =>
    ∀ name, generateJarFileName jarInput.file = .ok name →
      generateJarFileName other.file ≠ .ok name
  directories : transformInvocation.directoryInputs.Pairwise
    fun directoryInput other =>
      ¬(directoryInput.name = other.name ∧
        directoryInput.contentTypes = other.contentTypes ∧
        directoryInput.scopes = other.scopes)

/-- The tasks of an invocation are, up to their order, those of its jars and
those of its directories. -/
theorem tasks_perm (transformInvocation : TransformInvocation) :
    transformInvocation.tasks.Perm
      (transformInvocation.jarInputs.map transformInvocation.jarTask ++
        transformInvocation.directoryInputs.map
          transformInvocation.directoryTask) := by
  rw [TransformInvocation.jarInputs, TransformInvocation.directoryInputs,
    List.map_flatMap, List.map_flatMap]
  exact (List.flatMap_append_perm _ _ _).symm

theorem Distinct.pairwise (distinct : Distinct transformInvocation) :
    transformInvocation.tasks.Pairwise
      fun task other => ¬ task.Clashes other := by
  have symmetric : ∀ {task other : Task}, ¬ task.Clashes other →
      ¬ other.Clashes task := fun apart clashes => apart clashes.symm
  rw [(tasks_perm transformInvocation).pairwise_iff symmetric,
    List.pairwise_append, List.pairwise_map, List.pairwise_map]
  refine ⟨?_, ?_, ?_⟩
  · apply distinct.jars.imp
    rintro jarInput other apart ⟨long, longOther, same⟩
    apply apart _ (generateJarFileName_of_long long)
    rw [generateJarFileName_of_long longOther,
      (jarPlace_eq_iff.mp same).1]
  · apply distinct.directories.imp
    rintro directoryInput other apart ⟨_, _, same⟩
    exact apart (directoryPlace_eq_iff.mp same)
  · intro task isJar other isDirectory
    obtain ⟨jarInput, _, rfl⟩ := List.mem_map.mp isJar
    obtain ⟨directoryInput, _, rfl⟩ := List.mem_map.mp isDirectory
    rintro ⟨_, _, same⟩
    exact jarPlace_ne_directoryPlace jarInput directoryInput same

end Invocation

end DripStone.BaseTransform
