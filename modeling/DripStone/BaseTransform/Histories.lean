import DripStone.BaseTransform.Invocations
import DripStone.BaseTransform.Rebuilds

/-!
# Incremental builds

A build runs the transform again and again.  An incremental run works on the
output of the run before it, with the changes since then.  What it leaves is
what a full run of the same inputs leaves.
-/

namespace DripStone.BaseTransform

open DripStone.Library

/-- One run: what it is passed, the files it finds and what it leaves. -/
structure Run where
  transformInvocation : TransformInvocation
  files : FileSystem Bytes
  outcome : Outcome

/-- The same directory, whatever changed in it. -/
def DirectoryInput.SameAs (directoryInput other : DirectoryInput) : Prop :=
  directoryInput.name = other.name ∧ directoryInput.file = other.file ∧
    directoryInput.contentTypes = other.contentTypes ∧
    directoryInput.scopes = other.scopes

instance (directoryInput other : DirectoryInput) :
    Decidable (directoryInput.SameAs other) :=
  inferInstanceAs (Decidable (_ ∧ _ ∧ _ ∧ _))

/-- The same jar, whatever its status. -/
def JarInput.SameAs (jarInput other : JarInput) : Prop :=
  jarInput.file = other.file ∧
    jarInput.contentTypes = other.contentTypes ∧
    jarInput.scopes = other.scopes

/-- The contents that the files of a directory had in a run; none, when it was
not passed that directory. -/
def Run.contentOf (run : Run) (directoryInput : DirectoryInput)
    (path : Path) : Option Bytes :=
  if ∃ other ∈ run.transformInvocation.directoryInputs,
      other.SameAs directoryInput
  then run.files.fileAt path else none

/-- An incremental run after another: it finds the output of that one, is
passed its jars and directories again, if only to be told that they are gone,
and each directory with all that changed in it since then. -/
structure Follows (previous next : Run) : Prop where
  incremental : next.transformInvocation.isIncremental = true
  output : next.transformInvocation.outputProvider =
    previous.transformInvocation.outputProvider
  found : ∀ path, next.transformInvocation.outputProvider.root <+: path →
    next.files.find path = previous.outcome.files.find path
  jars : ∀ jarInput ∈ previous.transformInvocation.jarInputs,
    previous.transformInvocation.IsPresent jarInput →
      ∃ other ∈ next.transformInvocation.jarInputs, other.SameAs jarInput
  directories : ∀ directoryInput ∈
      previous.transformInvocation.directoryInputs,
    ∀ rest, previous.files.fileAt (directoryInput.file ++ rest) ≠ none →
      ∃ other ∈ next.transformInvocation.directoryInputs,
        other.SameAs directoryInput
  statuses : ∀ directoryInput ∈ next.transformInvocation.directoryInputs,
    ∀ entry ∈ directoryInput.changedFiles,
      entry.2 = statusOf (previous.contentOf directoryInput entry.1)
        (next.files.fileAt entry.1)
  changes : ∀ directoryInput ∈ next.transformInvocation.directoryInputs,
    ∀ rest, previous.contentOf directoryInput (directoryInput.file ++ rest) ≠
      next.files.fileAt (directoryInput.file ++ rest) →
        directoryInput.file ++ rest ∈
          directoryInput.changedFiles.map Prod.fst

/-- A run that the transform is made for: inputs that exist and have places of
their own, and no directory whose path is repeated in that of one of its
files. -/
structure Run.Orderly (run : Run) : Prop where
  placed : WellPlaced run.transformInvocation run.files
  distinct : Distinct run.transformInvocation
  once : ∀ directoryInput ∈ run.transformInvocation.directoryInputs,
    ∀ rest, run.files.fileAt (directoryInput.file ++ rest) ≠ none →
      ReadOnce directoryInput.file rest

/-- Changes are listed in an order in which nothing is in the way of what is
written: what makes room comes first. -/
def Run.Clear (run : Run) : Prop :=
  ∀ directoryInput ∈ run.transformInvocation.directoryInputs,
    ClearWay directoryInput.file
      (run.transformInvocation.outputProvider.directoryPlace directoryInput)
      run.files directoryInput.changedFiles

/-- The runs of a build, the latest first; each is on a transform of its
own. -/
inductive History (tools : Tools) : List Run → Prop
  | nil : History tools []
  | full {run : Run} {runs : List Run} (earlier : History tools runs)
      (isFull : run.transformInvocation.isIncremental = false)
      (orderly : run.Orderly)
      (transforms : Transforms tools .fresh run.transformInvocation run.files
        run.outcome) :
      History tools (run :: runs)
  | incremental {run previous : Run} {runs : List Run}
      (earlier : History tools (previous :: runs))
      (follows : Follows previous run) (orderly : run.Orderly)
      (clear : run.Clear)
      (transforms : Transforms tools .fresh run.transformInvocation run.files
        run.outcome) :
      History tools (run :: previous :: runs)

/-! ## A full run -/

section Full

variable {tools : Tools} {transformInvocation : TransformInvocation}
  {files : FileSystem Bytes} {outcome : Outcome}

theorem isOutput_full
    (isFull : transformInvocation.isIncremental = false)
    (placed : WellPlaced transformInvocation files)
    (distinct : Distinct transformInvocation)
    (once : ∀ directoryInput ∈ transformInvocation.directoryInputs,
      ∀ rest, files.fileAt (directoryInput.file ++ rest) ≠ none →
        ReadOnce directoryInput.file rest)
    (transforms :
      Transforms tools .fresh transformInvocation files outcome) :
    IsOutput tools transformInvocation files outcome.files := by
  obtain ⟨order, permuted, rfl⟩ := transforms
  have prepared : transformInvocation.prepare files =
      transformInvocation.outputProvider.deleteAll files := by
    rw [TransformInvocation.prepare, isFull]
    rfl
  have apart := placed.layout.apart
  have nothing : ∀ path,
      transformInvocation.outputProvider.root <+: path →
      path ≠ transformInvocation.outputProvider.root →
        (transformInvocation.outputProvider.deleteAll files).find path =
          none := fun path below inside =>
    find_deleteAll apart.ne_nil files below inside
  have started : Started transformInvocation files
      (transformInvocation.outputProvider.deleteAll files) order :=
    ⟨placed, distinct, permuted, ready_deleteAll apart placed.ready,
      spares_deleteAll apart files⟩
  rw [prepared]
  have completes : ∀ directoryInput ∈ transformInvocation.directoryInputs,
      Completes tools transformInvocation files
        (transformInvocation.outputProvider.deleteAll files) directoryInput :=
    fun directoryInput inDirectories => completes_full isFull placed
      inDirectories (once directoryInput inDirectories) nothing
  apply (started.placeByPlace completes).isOutput
  intro leaf _ rest
  apply FileSystem.fileAt_eq_none_iff.mpr
  left
  apply nothing
  · rw [List.append_assoc]
    exact List.prefix_append _ _
  · simp

end Full

/-! ## An incremental run -/

section Incremental

variable {tools : Tools} {previous run : Run}

/-- In one run there is only one directory for a place. -/
theorem Distinct.directory_eq {transformInvocation : TransformInvocation}
    (distinct : Distinct transformInvocation)
    {directoryInput other : DirectoryInput}
    (inDirectories :
      directoryInput ∈ transformInvocation.directoryInputs)
    (isOther : other ∈ transformInvocation.directoryInputs)
    (same : transformInvocation.outputProvider.directoryPlace
        directoryInput =
      transformInvocation.outputProvider.directoryPlace other) :
    directoryInput = other := by
  by_contra different
  have symmetric : Std.Symm fun directoryInput other : DirectoryInput =>
      ¬(directoryInput.name = other.name ∧
        directoryInput.contentTypes = other.contentTypes ∧
        directoryInput.scopes = other.scopes) := by
    constructor
    intro first second apart same
    exact apart ⟨same.1.symm, same.2.1.symm, same.2.2.symm⟩
  exact distinct.directories.forall inDirectories isOther different
    (directoryPlace_eq_iff.mp same)

theorem DirectoryInput.SameAs.directoryPlace_eq
    {directoryInput other : DirectoryInput}
    (same : directoryInput.SameAs other)
    (outputProvider : TransformOutputProvider) :
    outputProvider.directoryPlace directoryInput =
      outputProvider.directoryPlace other :=
  directoryPlace_eq_iff.mpr ⟨same.1, same.2.2⟩

/-- What an output holds at the place of a directory of the next run are its
files as they were. -/
theorem Follows.fileAt_directoryPlace (follows : Follows previous run)
    (distinct : Distinct run.transformInvocation)
    (isOutput : IsOutput tools previous.transformInvocation previous.files
      previous.outcome.files)
    {directoryInput : DirectoryInput}
    (inDirectories :
      directoryInput ∈ run.transformInvocation.directoryInputs)
    (rest : Path) :
    run.files.fileAt
        (run.transformInvocation.outputProvider.directoryPlace
          directoryInput ++ rest) =
      (previous.contentOf directoryInput (directoryInput.file ++ rest)).map
        (classOutput tools (directoryInput.file ++ rest)) := by
  have below : run.transformInvocation.outputProvider.root <+:
      run.transformInvocation.outputProvider.directoryPlace directoryInput ++
        rest := by
    rw [TransformOutputProvider.directoryPlace,
      TransformOutputProvider.getContentLocation, List.append_assoc]
    exact List.prefix_append _ _
  rw [FileSystem.fileAt_congr (follows.found _ below)]
  rw [follows.output] at below ⊢
  apply Option.ext
  intro bytes
  rw [isOutput _ below]
  constructor
  · intro expected
    generalize whole :
      previous.transformInvocation.outputProvider.directoryPlace
        directoryInput ++ rest = path at expected
    cases expected with
    | jar inJars isPresent long found output =>
        have sameParent : previous.transformInvocation.outputProvider.root ++
            [previous.transformInvocation.outputProvider.leaf
              directoryInput.name directoryInput.contentTypes
              directoryInput.scopes .directory] ++ rest =
            previous.transformInvocation.outputProvider.root ++
              [previous.transformInvocation.outputProvider.leaf _ _ _ .jar] ++
                [] :=
          whole.trans (List.append_nil _).symm
        have leaves := (place_eq_of_append_eq sameParent).1
        have formats := (previous.transformInvocation.outputProvider
          |>.leaf_injective _ _ _ _ _ _ _ _ leaves).2.2.2
        cases formats
    | @directory other rest' content isOther found =>
        obtain ⟨leaves, rfl⟩ := place_eq_of_append_eq whole
        obtain ⟨names, types, scopes, _⟩ :=
          previous.transformInvocation.outputProvider.leaf_injective
            _ _ _ _ _ _ _ _ leaves
        obtain ⟨again, inNext, sameAgain⟩ :=
          follows.directories other isOther rest (by simp [found])
        obtain rfl : directoryInput = again := by
          apply distinct.directory_eq inDirectories inNext
          rw [directoryPlace_eq_iff, sameAgain.1, sameAgain.2.2.1,
            sameAgain.2.2.2]
          exact ⟨names, types, scopes⟩
        have known : ∃ other ∈ previous.transformInvocation.directoryInputs,
            other.SameAs directoryInput :=
          ⟨other, isOther, names.symm, sameAgain.2.1.symm, types.symm,
            scopes.symm⟩
        rw [Run.contentOf, if_pos known, sameAgain.2.1, found]
        rfl
  · intro stored
    rw [Option.map_eq_some_iff] at stored
    obtain ⟨content, found, rfl⟩ := stored
    rw [Run.contentOf] at found
    split at found
    · obtain ⟨other, isOther, same⟩ := ‹∃ _, _›
      rw [← same.2.1] at found ⊢
      rw [← same.directoryPlace_eq]
      exact .directory isOther found
    · cases found

/-- Nothing stands at a place that no task of the next run writes to. -/
theorem Follows.fileAt_unowned (follows : Follows previous run)
    (isOutput : IsOutput tools previous.transformInvocation previous.files
      previous.outcome.files)
    {leaf : Name}
    (unowned : ∀ task ∈ run.transformInvocation.tasks, task.Writes →
      task.dest ≠ run.transformInvocation.outputProvider.root ++ [leaf])
    (rest : Path) :
    run.files.fileAt
      (run.transformInvocation.outputProvider.root ++ [leaf] ++ rest) =
        none := by
  by_contra isFile
  obtain ⟨bytes, found⟩ := Option.ne_none_iff_exists'.mp isFile
  have below : run.transformInvocation.outputProvider.root <+:
      run.transformInvocation.outputProvider.root ++ [leaf] ++ rest := by
    rw [List.append_assoc]
    exact List.prefix_append _ _
  rw [FileSystem.fileAt_congr (follows.found _ below)] at found
  rw [follows.output] at below found unowned
  have expected := (isOutput _ below bytes).mp found
  generalize whole : previous.transformInvocation.outputProvider.root ++
    [leaf] ++ rest = path at expected
  cases expected with
  | @jar jarInput content bytes inJars isPresent long _ _ =>
      obtain ⟨other, isOther, sameFile, sameTypes, sameScopes⟩ :=
        follows.jars jarInput inJars isPresent
      have sameParent : previous.transformInvocation.outputProvider.root ++
          [leaf] ++ rest = previous.transformInvocation.outputProvider.root ++
            [previous.transformInvocation.outputProvider.leaf
              (jarName jarInput.file) jarInput.contentTypes jarInput.scopes
              .jar] ++ [] :=
        whole.trans (List.append_nil _).symm
      have leaves := (place_eq_of_append_eq sameParent).1
      apply unowned _ (mem_tasks_of_jarInputs isOther)
      · show LongPath other.file
        rwa [sameFile]
      · rw [dest_jarTask, jarPlace, sameFile, sameTypes, sameScopes, leaves,
          follows.output]
        rfl
  | @directory directoryInput rest' content inDirectories isSource =>
      have leaves := (place_eq_of_append_eq whole).1
      obtain ⟨other, isOther, same⟩ :=
        follows.directories directoryInput inDirectories rest'
          (by simp [isSource])
      apply unowned (run.transformInvocation.directoryTask other)
        (mem_tasks_iff.mpr (Or.inr ⟨other, isOther, rfl⟩)) trivial
      rw [dest_directoryTask, follows.output, same.directoryPlace_eq, leaves]
      rfl

theorem Run.contentOf_ne_none {directoryInput : DirectoryInput}
    {path : Path}
    (known : previous.contentOf directoryInput path ≠ none) :
    (∃ other ∈ previous.transformInvocation.directoryInputs,
      other.SameAs directoryInput) ∧ previous.files.fileAt path ≠ none := by
  rw [Run.contentOf] at known
  split at known
  · exact ⟨‹_›, known⟩
  · exact absurd rfl known

/-- An incremental run brings a right output to a right output. -/
theorem Follows.isOutput (follows : Follows previous run)
    (orderlyBefore : previous.Orderly) (orderly : run.Orderly)
    (clear : run.Clear)
    (isOutput : IsOutput tools previous.transformInvocation previous.files
      previous.outcome.files)
    (transforms : Transforms tools .fresh run.transformInvocation run.files
      run.outcome) :
    IsOutput tools run.transformInvocation run.files run.outcome.files := by
  obtain ⟨order, permuted, whole⟩ := transforms
  have prepared : run.transformInvocation.prepare run.files = run.files := by
    rw [TransformInvocation.prepare, follows.incremental]
    rfl
  rw [whole, prepared]
  have started : Started run.transformInvocation run.files run.files order :=
    ⟨orderly.placed, orderly.distinct, permuted, orderly.placed.ready,
      Spares.refl _ _ _⟩
  have completes : ∀ directoryInput ∈
      run.transformInvocation.directoryInputs,
      Completes tools run.transformInvocation run.files run.files
        directoryInput := by
    intro directoryInput inDirectories
    apply completes_incremental follows.incremental orderly.placed
      inDirectories
      (follows.fileAt_directoryPlace orderly.distinct isOutput inDirectories)
    · by_contra isFile
      obtain ⟨⟨other, isOther, same⟩, wasFile⟩ := Run.contentOf_ne_none isFile
      rw [← same.2.1] at wasFile
      exact wasFile (orderlyBefore.placed.directories other isOther)
    · intro rest known name inRest
      have wasFile := (Run.contentOf_ne_none known).2
      apply previous.files.plain (directoryInput.file ++ rest) _ name
        (List.mem_append_right _ inRest)
      intro missing
      exact wasFile (FileSystem.fileAt_eq_none_iff.mpr (Or.inl missing))
    · intro rest known
      rcases known with before | now
      · obtain ⟨⟨other, isOther, same⟩, wasFile⟩ :=
          Run.contentOf_ne_none before
        rw [← same.2.1] at wasFile ⊢
        exact orderlyBefore.once other isOther rest wasFile
      · exact orderly.once directoryInput inDirectories rest now
    · exact follows.statuses directoryInput inDirectories
    · exact follows.changes directoryInput inDirectories
    · exact clear directoryInput inDirectories
  apply (started.placeByPlace completes).isOutput
  intro leaf unowned rest
  exact follows.fileAt_unowned isOutput unowned rest

end Incremental

/-! ## All runs of a build -/

section Histories

variable {tools : Tools} {runs : List Run}

/-- After every run of a build its output holds what it has to. -/
theorem History.isOutput (history : History tools runs) :
    ∀ run ∈ runs, run.Orderly ∧
      IsOutput tools run.transformInvocation run.files run.outcome.files := by
  induction history with
  | nil =>
      intro run inRuns
      exact absurd inRuns List.not_mem_nil
  | full earlier isFull orderly transforms inductionHypothesis =>
      intro run inRuns
      rcases List.mem_cons.mp inRuns with rfl | inEarlier
      · exact ⟨orderly, isOutput_full isFull orderly.placed orderly.distinct
          orderly.once transforms⟩
      · exact inductionHypothesis run inEarlier
  | incremental earlier follows orderly clear transforms
      inductionHypothesis =>
      intro run inRuns
      rcases List.mem_cons.mp inRuns with rfl | inEarlier
      · obtain ⟨orderlyBefore, isOutput⟩ :=
          inductionHypothesis _ List.mem_cons_self
        exact ⟨orderly, follows.isOutput orderlyBefore orderly clear isOutput
          transforms⟩
      · exact inductionHypothesis run inEarlier

theorem WellPlaced.full {transformInvocation : TransformInvocation}
    {files : FileSystem Bytes}
    (placed : WellPlaced transformInvocation files) :
    WellPlaced transformInvocation.full files := by
  have isTask : ∀ task ∈ transformInvocation.full.tasks,
      ∃ other ∈ transformInvocation.tasks, other.source = task.source ∧
        task.Of transformInvocation.outputProvider.root
          transformInvocation.context.temporaryDir := by
    intro task inTasks
    rcases mem_tasks_iff.mp inTasks with
      ⟨jarInput, inJars, rfl⟩ | ⟨directoryInput, inDirectories, rfl⟩
    · rw [TransformInvocation.mem_jarInputs_full] at inJars
      exact ⟨_, mem_tasks_of_jarInputs inJars.1, rfl, rfl, rfl⟩
    · rw [TransformInvocation.directoryInputs_full] at inDirectories
      exact ⟨transformInvocation.directoryTask directoryInput,
        mem_tasks_iff.mpr (Or.inr ⟨_, inDirectories, rfl⟩), rfl, rfl, rfl⟩
  constructor
  · constructor
    · exact placed.layout.apart
    · intro task inTasks
      obtain ⟨_, _, _, isOf⟩ := isTask task inTasks
      exact isOf
    · intro task inTasks
      obtain ⟨other, isOther, same, _⟩ := isTask task inTasks
      rw [← same]
      exact placed.layout.source_root other isOther
    · intro task inTasks
      obtain ⟨other, isOther, same, _⟩ := isTask task inTasks
      rw [← same]
      exact placed.layout.source_temporaryDir other isOther
  · exact placed.ready
  · intro jarInput inJars _
    rw [TransformInvocation.mem_jarInputs_full] at inJars
    exact placed.jars jarInput inJars.1 inJars.2
  · rw [TransformInvocation.directoryInputs_full]
    exact placed.directories

theorem Distinct.full {transformInvocation : TransformInvocation}
    (distinct : Distinct transformInvocation) :
    Distinct transformInvocation.full := by
  have filtered : transformInvocation.full.jarInputs =
      transformInvocation.jarInputs.filter fun jarInput =>
        transformInvocation.IsPresent jarInput := by
    simp [TransformInvocation.jarInputs, TransformInvocation.full,
      List.flatMap_map, List.filter_flatMap]
  constructor
  · rw [filtered]
    exact distinct.jars.filter _
  · rw [TransformInvocation.directoryInputs_full]
    exact distinct.directories

end Histories

/-! ## A class that changes -/

/-- A class is modified by a byte in front; there are no jars. -/
def classTools : Tools where
  modifyClass := fun bytes => 0 :: bytes
  jarEntries := fun _ => none
  jarBytes := fun _ => []

def mainFile : Path :=
  ["src".toList, "Main.class".toList]

/-- The directory `/src` with what changed in it. -/
def sources (status : Option Status) : DirectoryInput where
  name := "src".toList
  file := ["src".toList]
  contentTypes := {.classes}
  scopes := {.project}
  changedFiles := status.toList.map fun status => (mainFile, status)
  changedFiles_below := by
    intro entry inChanges
    obtain ⟨status, _, rfl⟩ := List.mem_map.mp inChanges
    exact List.prefix_append ["src".toList] ["Main.class".toList]
  changedFiles_nodup := by
    cases status with
    | none => exact List.nodup_nil
    | some status => exact List.nodup_singleton mainFile

theorem plain_out : Plain "out".toList := by decide

/-- The directory alone, to `/out` with the temporary directory `/tmp`. -/
def sourcesOnly (status : Option Status) : TransformInvocation where
  inputs := [⟨[], [sources status]⟩]
  outputProvider := listedOutput "out".toList plain_out
  context := ⟨["tmp".toList]⟩
  isIncremental := status.isSome

def beforeFirst : FileSystem Bytes :=
  (((FileSystem.empty.mkdirs ["out".toList]).mkdirs ["tmp".toList]).mkdirs
    ["src".toList]).put mainFile (.file [1]) (by decide)

def firstRun : Run where
  transformInvocation := sourcesOnly none
  files := beforeFirst
  outcome := invokeAll classTools (sourcesOnly none).tasks
    ((sourcesOnly none).prepare beforeFirst)

section Src

variable {transformInvocation : TransformInvocation}
  {directoryInput : DirectoryInput}

/-- The directory `/src` lies apart from `/out` and `/tmp`. -/
theorem laid_of_src
    (isSole : transformInvocation.inputs = [⟨[], [directoryInput]⟩])
    (isSrc : directoryInput.file = ["src".toList])
    (isOut : transformInvocation.outputProvider.root = ["out".toList])
    (isTmp : transformInvocation.context = ⟨["tmp".toList]⟩) :
    transformInvocation.Laid := by
  have sole : ∀ task ∈ transformInvocation.tasks,
      task.source = ["src".toList] ∧
        task.Of ["out".toList] ["tmp".toList] := by
    intro task inTasks
    have isTask : task =
        transformInvocation.directoryTask directoryInput := by
      simpa [TransformInvocation.tasks, isSole] using inTasks
    rw [isTask]
    exact ⟨isSrc, isOut, isTmp⟩
  have apart : Apart ["src".toList] ["out".toList] ∧
      Apart ["src".toList] ["tmp".toList] := by decide
  have fromTemporary : Apart ["out".toList] ["tmp".toList] := by decide
  rw [TransformInvocation.Laid, isOut, isTmp]
  refine ⟨fromTemporary, fun task inTasks => (sole task inTasks).2, ?_, ?_⟩
  · intro task inTasks
    rw [(sole task inTasks).1]
    exact apart.1
  · intro task inTasks
    rw [(sole task inTasks).1]
    exact apart.2

/-- A run on the directory `/src` alone has what it takes. -/
theorem wellPlaced_of_src {files : FileSystem Bytes}
    (isSole : transformInvocation.inputs = [⟨[], [directoryInput]⟩])
    (isSrc : directoryInput.file = ["src".toList])
    (isOut : transformInvocation.outputProvider.root = ["out".toList])
    (isTmp : transformInvocation.context = ⟨["tmp".toList]⟩)
    (ready : Ready ["out".toList] ["tmp".toList] files)
    (noFile : files.fileAt ["src".toList] = none) :
    WellPlaced transformInvocation files ∧ Distinct transformInvocation := by
  have noJars : transformInvocation.jarInputs = [] := by
    simp [TransformInvocation.jarInputs, isSole]
  have oneDirectory : transformInvocation.directoryInputs =
      [directoryInput] := by
    simp [TransformInvocation.directoryInputs, isSole]
  constructor
  · refine ⟨laid_of_src isSole isSrc isOut isTmp, ?_, ?_, ?_⟩
    · rw [isOut, isTmp]
      exact ready
    · intro jarInput inJars
      rw [noJars] at inJars
      cases inJars
    · intro other inDirectories
      rw [oneDirectory] at inDirectories
      rw [List.mem_singleton.mp inDirectories, isSrc]
      exact noFile
  · constructor
    · rw [noJars]
      exact List.Pairwise.nil
    · rw [oneDirectory]
      exact List.pairwise_singleton _ directoryInput

end Src

theorem laid_sourcesOnly (status : Option Status) :
    (sourcesOnly status).Laid :=
  laid_of_src rfl rfl rfl rfl

theorem ready_beforeFirst :
    Ready ["out".toList] ["tmp".toList] beforeFirst := by
  have empty : beforeFirst.list ["tmp".toList] = [] := rfl
  refine ⟨rfl, rfl, ?_⟩
  intro name directory
  have exists_ : beforeFirst.find (["tmp".toList] ++ [name]) ≠ none := by
    rw [directory]
    simp
  have listed := (beforeFirst.mem_list_iff ["tmp".toList] name).mpr exists_
  rw [empty] at listed
  exact absurd listed List.not_mem_nil

/-- The only file of the directory is the class. -/
theorem fileAt_beforeFirst {rest : Path}
    (isFile : beforeFirst.fileAt (["src".toList] ++ rest) ≠ none) :
    rest = ["Main.class".toList] := by
  have walks : ∀ path ∈ beforeFirst.walkTopDown ["src".toList],
      path = ["src".toList] ∨ path = mainFile := by decide
  have exists_ : beforeFirst.find (["src".toList] ++ rest) ≠ none := by
    intro missing
    exact isFile (FileSystem.fileAt_eq_none_iff.mpr (Or.inl missing))
  rcases walks _ (FileSystem.mem_walkTopDown
    (List.prefix_append ["src".toList] rest) exists_) with isTop | isMain
  · rw [isTop] at isFile
    exact absurd rfl isFile
  · exact (List.cons.inj isMain).2

theorem firstRun_transforms : Transforms classTools .fresh
    firstRun.transformInvocation firstRun.files firstRun.outcome :=
  ⟨_, .refl _, rfl⟩

/-- The directory is as it was when the first run started. -/
theorem find_afterFirst {path : Path} (below : ["src".toList] <+: path) :
    firstRun.outcome.files.find path = beforeFirst.find path :=
  (firstRun_transforms.spares (laid_sourcesOnly none)).find_eq
    (show Apart ["src".toList] ["out".toList] by decide)
    (show Apart ["src".toList] ["tmp".toList] by decide) below

theorem open_mainFile : firstRun.outcome.files.Open mainFile := by
  refine ⟨by decide, ?_, by decide, ?_⟩
  · rw [find_afterFirst (by decide)]
    rfl
  · rw [find_afterFirst (by decide)]
    decide

def beforeSecond : FileSystem Bytes :=
  firstRun.outcome.files.put mainFile (.file [2]) open_mainFile

/-- The class was changed, and nothing else. -/
def secondRun : Run where
  transformInvocation := sourcesOnly (some .changed)
  files := beforeSecond
  outcome := invokeAll classTools (sourcesOnly (some .changed)).tasks
    ((sourcesOnly (some .changed)).prepare beforeSecond)

theorem find_beforeSecond {path : Path} (elsewhere : path ≠ mainFile) :
    beforeSecond.find path = firstRun.outcome.files.find path := by
  rw [beforeSecond, FileSystem.find_put, if_neg elsewhere]

theorem fileAt_beforeSecond {rest : Path} :
    beforeSecond.fileAt (["src".toList] ++ rest) =
      if rest = ["Main.class".toList] then some [2] else none := by
  by_cases isMain : rest = ["Main.class".toList]
  · rw [if_pos isMain, isMain]
    apply FileSystem.fileAt_eq_some_iff.mpr
    rw [beforeSecond, FileSystem.find_put]
    rfl
  · have elsewhere : ["src".toList] ++ rest ≠ mainFile := by
      intro same
      exact isMain (List.cons.inj same).2
    have same := find_beforeSecond elsewhere
    rw [find_afterFirst (List.prefix_append _ rest)] at same
    rw [if_neg isMain, FileSystem.fileAt_congr same]
    by_contra isFile
    exact isMain (fileAt_beforeFirst isFile)

/-- A run on the directory alone, when the class is its only file. -/
theorem orderly_of_sourcesOnly {run : Run} {status : Option Status}
    (isSources : run.transformInvocation = sourcesOnly status)
    (ready : Ready ["out".toList] ["tmp".toList] run.files)
    (sole : ∀ rest, run.files.fileAt (["src".toList] ++ rest) ≠ none →
      rest = ["Main.class".toList]) : run.Orderly := by
  have noFile : run.files.fileAt ["src".toList] = none := by
    by_contra isFile
    cases sole [] isFile
  have placed : WellPlaced (sourcesOnly status) run.files ∧
      Distinct (sourcesOnly status) :=
    wellPlaced_of_src rfl rfl rfl rfl ready noFile
  rw [← isSources] at placed
  refine ⟨placed.1, placed.2, ?_⟩
  intro directoryInput inDirectories rest isFile
  rw [isSources] at inDirectories
  rw [List.mem_singleton.mp inDirectories] at isFile ⊢
  rw [sole rest isFile]
  show ReadOnce ["src".toList] ["Main.class".toList]
  decide

theorem firstRun_orderly : firstRun.Orderly :=
  orderly_of_sourcesOnly rfl ready_beforeFirst fun _ => fileAt_beforeFirst

theorem secondRun_orderly : secondRun.Orderly := by
  have readyStart := ready_deleteAll (laid_sourcesOnly none).apart
    ready_beforeFirst
  have ready : Ready ["out".toList] ["tmp".toList]
      firstRun.outcome.files :=
    (laid_sourcesOnly none).ready_invokeAll classTools readyStart
  apply @orderly_of_sourcesOnly secondRun (some .changed) rfl
  · constructor
    · exact (find_beforeSecond (by decide)).trans ready.root
    · exact (find_beforeSecond (by decide)).trans ready.stays
    · intro name directory
      have elsewhere : ["tmp".toList] ++ [name] ≠ mainFile := by
        intro same
        exact absurd (List.cons.inj same).1 (by decide)
      exact ready.onlyFiles name
        ((find_beforeSecond elsewhere).symm.trans directory)
  · intro rest isFile
    by_contra elsewhere
    apply isFile
    exact fileAt_beforeSecond.trans (if_neg elsewhere)

theorem contentOf_firstRun (path : Path) :
    firstRun.contentOf (sources (some .changed)) path =
      beforeFirst.fileAt path := by
  rw [Run.contentOf, if_pos]
  · rfl
  · exact ⟨sources none, List.mem_cons_self, rfl, rfl, rfl, rfl⟩

theorem second_follows : Follows firstRun secondRun where
  incremental := rfl
  output := rfl
  found := by
    intro path below
    apply find_beforeSecond
    rintro rfl
    exact absurd below (by decide)
  jars := by
    intro jarInput inJars
    cases inJars
  directories := by
    intro directoryInput inDirectories _ _
    rw [List.mem_singleton.mp inDirectories]
    exact ⟨sources (some .changed), List.mem_cons_self, rfl, rfl, rfl, rfl⟩
  statuses := by
    intro directoryInput inDirectories entry inChanges
    rw [List.mem_singleton.mp inDirectories] at inChanges ⊢
    rw [List.mem_singleton.mp inChanges, contentOf_firstRun]
    exact congrArg (statusOf (some [1])) (@fileAt_beforeSecond
      ["Main.class".toList]).symm
  changes := by
    intro directoryInput inDirectories rest differs
    rw [List.mem_singleton.mp inDirectories, contentOf_firstRun] at differs
    rw [List.mem_singleton.mp inDirectories]
    by_cases isMain : rest = ["Main.class".toList]
    · rw [isMain]
      exact List.mem_cons_self
    · exfalso
      apply differs
      have now : secondRun.files.fileAt (["src".toList] ++ rest) = none :=
        fileAt_beforeSecond.trans (if_neg isMain)
      refine Eq.trans ?_ now.symm
      by_contra wasFile
      exact isMain (fileAt_beforeFirst wasFile)

theorem secondRun_clear : secondRun.Clear := by
  have stored := second_follows.fileAt_directoryPlace
    secondRun_orderly.distinct (isOutput_full rfl firstRun_orderly.placed
      firstRun_orderly.distinct firstRun_orderly.once firstRun_transforms)
    (show sources (some .changed) ∈ [sources (some .changed)] from
      List.mem_cons_self)
  intro directoryInput inDirectories
  rw [List.mem_singleton.mp inDirectories]
  intro earlier file status later whole _ rest isRest
  have first : earlier = [] ∧ file = mainFile := by
    cases earlier with
    | nil => exact ⟨rfl, (Prod.mk.inj (List.cons.inj whole).1).1.symm⟩
    | cons entry earlier =>
        have short := (List.cons.inj whole).2
        exact absurd short.symm (by simp)
  obtain rfl : rest = ["Main.class".toList] := by
    rw [first.2] at isRest
    exact (List.cons.inj isRest).2.symm
  constructor
  · intro above isAbove shorter isFile
    have top : above = [] := by
      rcases List.prefix_cons_iff.mp isAbove with none | ⟨more, rfl, isMore⟩
      · exact none
      · rw [List.prefix_nil.mp isMore] at shorter
        exact absurd rfl shorter
    rw [top] at isFile
    exact absurd (stored []) (by
      intro atTop
      rw [contentOf_firstRun] at atTop
      exact isFile atTop)
  · intro isDirectory
    have atMain := stored ["Main.class".toList]
    rw [contentOf_firstRun] at atMain
    have isFile := FileSystem.fileAt_eq_some_iff.mp atMain
    rw [isDirectory] at isFile
    cases isFile

end DripStone.BaseTransform
