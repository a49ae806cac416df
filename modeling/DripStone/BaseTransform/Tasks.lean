import DripStone.BaseTransform.Frame

/-!
# The tasks of one output

The tasks of an invocation share an output directory and a temporary one.
Each has a place of its own in the output, so that a run of them in any order
can be followed one task at a time.
-/

namespace DripStone.BaseTransform

open DripStone.Library

/-- The output of a task. -/
def Task.dest : Task → Path
  | .jar jarInput outputProvider _ _ =>
      outputProvider.getContentLocation (jarName jarInput.file)
        jarInput.contentTypes jarInput.scopes .jar
  | .directory directoryInput outputProvider _ _ =>
      outputProvider.getContentLocation directoryInput.name
        directoryInput.contentTypes directoryInput.scopes .directory

/-- What a task reads. -/
def Task.source : Task → Path
  | .jar jarInput _ _ _ => jarInput.file
  | .directory directoryInput _ _ _ => directoryInput.file

def Task.outputProvider : Task → TransformOutputProvider
  | .jar _ outputProvider _ _ => outputProvider
  | .directory _ outputProvider _ _ => outputProvider

def Task.context : Task → Context
  | .jar _ _ context _ => context
  | .directory _ _ context _ => context

/-- A task that writes into an output and has a temporary directory. -/
def Task.Of (root temporaryDir : Path) (task : Task) : Prop :=
  task.outputProvider.root = root ∧ task.context = ⟨temporaryDir⟩

theorem Task.Of.dest_eq {root temporaryDir : Path} {task : Task}
    (isOf : task.Of root temporaryDir) :
    ∃ leaf, task.dest = root ++ [leaf] := by
  obtain ⟨rfl, _⟩ := isOf
  cases task with
  | jar => exact ⟨_, rfl⟩
  | directory => exact ⟨_, rfl⟩

/-- An output and a temporary directory, and inputs apart from both. -/
structure Layout (root temporaryDir : Path) (tasks : List Task) : Prop where
  apart : Apart root temporaryDir
  isOf : ∀ task ∈ tasks, task.Of root temporaryDir
  source_root : ∀ task ∈ tasks, Apart task.source root
  source_temporaryDir : ∀ task ∈ tasks, Apart task.source temporaryDir

theorem Apart.ne_nil {first second : Path} (apart : Apart first second) :
    first ≠ [] := by
  rintro rfl
  exact apart.1 List.nil_prefix

theorem sparing_call (tools : Tools) {root temporaryDir : Path} {task : Task}
    (apart : Apart root temporaryDir) (isOf : task.Of root temporaryDir)
    (named : task.source ≠ []) :
    SparingCall task.dest temporaryDir (task.call tools) := by
  obtain ⟨leaf, isBelow⟩ := isOf.dest_eq
  have apartDest : Apart task.dest temporaryDir := by
    rw [isBelow]
    exact apart.append [leaf]
  obtain ⟨_, sameContext⟩ := isOf
  cases task with
  | jar jarInput outputProvider context isIncremental =>
      obtain rfl : context = ⟨temporaryDir⟩ := sameContext
      exact sparing_forEachJar tools jarInput outputProvider isIncremental
        apartDest
  | directory directoryInput outputProvider context isIncremental =>
      obtain rfl : context = ⟨temporaryDir⟩ := sameContext
      exact sparing_forEachDirectory tools directoryInput outputProvider
        isIncremental named apartDest

/-! ## What the tasks rely on -/

/-- The output directory exists; so does the temporary directory, and it holds
files only. -/
structure Ready (root temporaryDir : Path) (files : FileSystem Bytes) :
    Prop where
  root : files.find root = some .directory
  stays : files.find temporaryDir = some .directory
  onlyFiles : ∀ name, files.find (temporaryDir ++ [name]) ≠ some .directory

section Stable

variable {root temporaryDir : Path} {before after : FileSystem Bytes}

theorem Spares.ready (apart : Apart root temporaryDir) {leaf : Name}
    (spares : Spares (root ++ [leaf]) temporaryDir before after)
    (ready : Ready root temporaryDir before) :
    Ready root temporaryDir after where
  root := by
    have outside :=
      spares.outside root (not_prefix_concat leaf) apart.symm.1
    rcases outside with kept | ⟨_, made, _⟩
    · rw [kept, ready.root]
    · exact made
  stays := spares.stays ready.stays
  onlyFiles := fun name directory =>
    ready.onlyFiles name (spares.onlyFiles name directory)

/-- What a task leaves alone, seen from the whole output. -/
theorem Spares.widen {leaf : Name}
    (spares : Spares (root ++ [leaf]) temporaryDir before after) :
    Spares root temporaryDir before after where
  outside := by
    intro path outsideRoot outsideTemporary
    have outsideDest : ¬ root ++ [leaf] <+: path := fun below =>
      outsideRoot ((List.prefix_append root [leaf]).trans below)
    rcases spares.outside path outsideDest outsideTemporary with
      kept | ⟨wasNone, made, above⟩
    · exact Or.inl kept
    · refine Or.inr ⟨wasNone, made, ?_⟩
      rcases prefix_or_prefix above (List.prefix_append root [leaf]) with
        inRoot | below
      · exact inRoot
      · exact absurd below outsideRoot
  stays := spares.stays
  onlyFiles := spares.onlyFiles

/-- A tree apart from the output and the temporary directory stays. -/
theorem Spares.find_eq (spares : Spares root temporaryDir before after)
    {source path : Path} (fromRoot : Apart source root)
    (fromTemporary : Apart source temporaryDir) (below : source <+: path) :
    after.find path = before.find path := by
  have outsideRoot := fromRoot.not_below below
  have outsideTemporary := fromTemporary.not_below below
  rcases spares.outside path outsideRoot outsideTemporary with
    kept | ⟨_, _, above⟩
  · exact kept
  · exact absurd (below.trans above) fromRoot.1

/-- The place of another task stays. -/
theorem Spares.find_eq_of_ne (apart : Apart root temporaryDir)
    {leaf other : Name} (different : other ≠ leaf)
    (spares : Spares (root ++ [leaf]) temporaryDir before after)
    {path : Path} (below : root ++ [other] <+: path) :
    after.find path = before.find path := by
  have unrelated : ∀ first second : Name,
      root ++ [first] <+: root ++ [second] → first = second := by
    intro first second above
    simpa [List.prefix_append_right_inj] using above
  have outsideDest : ¬ root ++ [leaf] <+: path := by
    intro inDest
    rcases prefix_or_prefix below inDest with above | above
    · exact different (unrelated other leaf above)
    · exact different (unrelated leaf other above).symm
  have outsideTemporary : ¬ temporaryDir <+: path :=
    (apart.append [other]).not_below below
  rcases spares.outside path outsideDest outsideTemporary with
    kept | ⟨_, _, above⟩
  · exact kept
  · exact absurd (unrelated other leaf (below.trans above)) different

end Stable

/-! ## Runs -/

section Runs

variable (tools : Tools)

theorem invokeAll_concat (order : List Task) (task : Task)
    (files : FileSystem Bytes) :
    invokeAll tools (order ++ [task]) files =
      ⟨(task.call tools).after (invokeAll tools order files).files,
        (invokeAll tools order files).thrown ||
          isError (task.call tools (invokeAll tools order files).files)⟩ := by
  rw [invokeAll, List.foldl_append]
  rfl

variable {root temporaryDir : Path}

theorem Layout.of_subset {tasks others : List Task}
    (layout : Layout root temporaryDir tasks)
    (subset : ∀ task ∈ others, task ∈ tasks) :
    Layout root temporaryDir others where
  apart := layout.apart
  isOf := fun task inOthers => layout.isOf task (subset task inOthers)
  source_root := fun task inOthers =>
    layout.source_root task (subset task inOthers)
  source_temporaryDir := fun task inOthers =>
    layout.source_temporaryDir task (subset task inOthers)

/-- One task of a layout, from any files. -/
theorem Layout.spares_call {tasks : List Task}
    (layout : Layout root temporaryDir tasks) {task : Task}
    (inTasks : task ∈ tasks) (files : FileSystem Bytes) :
    Spares task.dest temporaryDir files
      ((task.call tools).after files) := by
  have named := (layout.source_root task inTasks).ne_nil
  exact sparing_call tools layout.apart (layout.isOf task inTasks) named files

/-- Any run of the tasks of a layout. -/
theorem Layout.spares_invokeAll {order : List Task}
    (layout : Layout root temporaryDir order) (files : FileSystem Bytes) :
    Spares root temporaryDir files (invokeAll tools order files).files := by
  induction order using List.reverseRecOn with
  | nil => exact Spares.refl root temporaryDir files
  | append_singleton order task inductionHypothesis =>
      have initial := layout.of_subset fun other inOrder =>
        List.mem_append_left [task] inOrder
      have inTasks : task ∈ order ++ [task] := by simp
      have last := layout.spares_call tools inTasks
        (invokeAll tools order files).files
      obtain ⟨leaf, isBelow⟩ := (layout.isOf task inTasks).dest_eq
      rw [isBelow] at last
      rw [invokeAll_concat]
      exact (inductionHypothesis initial).trans last.widen

theorem Layout.ready_invokeAll {order : List Task}
    (layout : Layout root temporaryDir order) {files : FileSystem Bytes}
    (ready : Ready root temporaryDir files) :
    Ready root temporaryDir (invokeAll tools order files).files := by
  induction order using List.reverseRecOn with
  | nil => exact ready
  | append_singleton order task inductionHypothesis =>
      have initial := layout.of_subset fun other inOrder =>
        List.mem_append_left [task] inOrder
      have inTasks : task ∈ order ++ [task] := by simp
      have last := layout.spares_call tools inTasks
        (invokeAll tools order files).files
      obtain ⟨leaf, isBelow⟩ := (layout.isOf task inTasks).dest_eq
      rw [isBelow] at last
      rw [invokeAll_concat]
      exact last.ready layout.apart (inductionHypothesis initial)

end Runs

/-! ## Preparing the output -/

theorem spares_deleteAll {outputProvider : TransformOutputProvider}
    {temporaryDir : Path} (apart : Apart outputProvider.root temporaryDir)
    (files : FileSystem Bytes) :
    Spares outputProvider.root temporaryDir files
      (outputProvider.deleteAll files) := by
  apply Spares.of_changes apart
  intro path
  by_cases below : outputProvider.root <+: path
  · exact Or.inr (Or.inl below)
  · have kept : (files.removeTree outputProvider.root).find path =
        files.find path := by
      rw [FileSystem.find_removeTree apart.ne_nil, if_neg below]
    rw [TransformOutputProvider.deleteAll, ← kept]
    rcases (files.removeTree outputProvider.root).find_mkdirs_cases
        outputProvider.root path with same | ⟨above, wasNone, made⟩
    · exact Or.inl same
    · exact Or.inr (Or.inr (Or.inr ⟨above, wasNone, made⟩))

end DripStone.BaseTransform
