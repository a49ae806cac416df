import DripStone.BaseTransform.Histories

/-!
# Incremental builds as full ones

A build as Gradle makes it: a full run, and incremental runs that are told
what changed.  Nothing is asked of the names of its files, of the order of the
changes or of the transform.  When these are harmless, every run leaves what a
full run leaves, with each file at its own place.
-/

namespace DripStone.BaseTransform

open DripStone.Library

/-! ## Builds -/

/-- A run with the transform that it is on. -/
structure Turn where
  transform : Instance
  run : Run

/-- The inputs exist and have places of their own, and the outcome is one of
running all tasks that the transform has. -/
structure Turn.TakesPlace (tools : Tools) (turn : Turn) : Prop where
  placed : WellPlaced turn.run.transformInvocation turn.run.files
  distinct : Distinct turn.run.transformInvocation
  transforms : Transforms tools turn.transform turn.run.transformInvocation
    turn.run.files turn.run.outcome

/-- The runs of a build, the latest first: a full one and the incremental ones
behind it, each on a new transform or on the one of the run before. -/
inductive Build (tools : Tools) : List Turn → Prop
  | full {turn : Turn} (isNew : turn.transform = .fresh)
      (isFull : turn.run.transformInvocation.isIncremental = false)
      (takesPlace : turn.TakesPlace tools) : Build tools [turn]
  | incremental {turn previous : Turn} {turns : List Turn}
      (earlier : Build tools (previous :: turns))
      (isOn : turn.transform = .fresh ∨ turn.transform =
        previous.transform.submit previous.run.transformInvocation)
      (follows : Follows previous.run turn.run)
      (takesPlace : turn.TakesPlace tools) :
      Build tools (turn :: previous :: turns)

/-- The transform has no task left from an earlier run, no file of a directory
repeats the directory's path in its own, and the changes come in an order in
which nothing is in the way. -/
structure Turn.Harmless (turn : Turn) : Prop where
  noneLeft : turn.transform.taskList = []
  once : ∀ directoryInput ∈ turn.run.transformInvocation.directoryInputs,
    ∀ rest, turn.run.files.fileAt (directoryInput.file ++ rest) ≠ none →
      ReadOnce directoryInput.file rest
  clear : turn.run.transformInvocation.isIncremental = true → turn.run.Clear

/-! ## What a run has to leave -/

/-- Each file of a directory is stored under the place of the directory, at
its path relative to the directory. -/
def TransformInvocation.Stores (tools : Tools)
    (transformInvocation : TransformInvocation)
    (files output : FileSystem Bytes) : Prop :=
  ∀ directoryInput ∈ transformInvocation.directoryInputs,
    ∀ rest content,
      files.fileAt (directoryInput.file ++ rest) = some content →
        output.fileAt
            (transformInvocation.outputProvider.directoryPlace
              directoryInput ++ rest) =
          some (classOutput tools (directoryInput.file ++ rest) content)

section Builds

variable {tools : Tools} {turns : List Turn}

theorem IsOutput.stores {transformInvocation : TransformInvocation}
    {files output : FileSystem Bytes}
    (isOutput : IsOutput tools transformInvocation files output) :
    transformInvocation.Stores tools files output := by
  intro directoryInput inDirectories rest content found
  have below : transformInvocation.outputProvider.root <+:
      transformInvocation.outputProvider.directoryPlace directoryInput ++
        rest := by
    rw [TransformOutputProvider.directoryPlace,
      TransformOutputProvider.getContentLocation, List.append_assoc]
    exact List.prefix_append _ _
  exact (isOutput _ below _).mpr (.directory inDirectories found)

/-- A transform with nothing left is as good as a new one. -/
theorem Turn.Harmless.transforms {turn : Turn} (harmless : turn.Harmless)
    (takesPlace : turn.TakesPlace tools) :
    Transforms tools .fresh turn.run.transformInvocation turn.run.files
      turn.run.outcome := by
  have isNew : turn.transform = .fresh :=
    congrArg Instance.mk harmless.noneLeft
  rw [← isNew]
  exact takesPlace.transforms

theorem Turn.Harmless.orderly {turn : Turn} (harmless : turn.Harmless)
    (takesPlace : turn.TakesPlace tools) : turn.run.Orderly :=
  ⟨takesPlace.placed, takesPlace.distinct, harmless.once⟩

/-- The runs of a harmless build are a history. -/
theorem Build.history (build : Build tools turns)
    (harmless : ∀ turn ∈ turns, turn.Harmless) :
    History tools (turns.map Turn.run) := by
  induction build with
  | full isNew isFull takesPlace =>
      have here := harmless _ List.mem_cons_self
      exact .full .nil isFull (here.orderly takesPlace)
        (here.transforms takesPlace)
  | incremental earlier isOn follows takesPlace inductionHypothesis =>
      have here := harmless _ List.mem_cons_self
      have before := inductionHypothesis fun turn inTurns =>
        harmless turn (List.mem_cons_of_mem _ inTurns)
      exact .incremental before follows (here.orderly takesPlace)
        (here.clear follows.incremental) (here.transforms takesPlace)

end Builds

/-! ## A class that gives place to a directory -/

def innerFile : Path :=
  ["src".toList, "Main.class".toList, "Inner.class".toList]

/-- A directory of the class's name, with a class in it, in place of the
class: the two changes in one order or in the other. -/
def replacements (removedFirst : Bool) : List (Path × Status) :=
  if removedFirst then [(mainFile, .removed), (innerFile, .added)]
  else [(innerFile, .added), (mainFile, .removed)]

theorem mem_replacements {removedFirst : Bool} {entry : Path × Status} :
    entry ∈ replacements removedFirst ↔
      entry = (mainFile, .removed) ∨ entry = (innerFile, .added) := by
  cases removedFirst with
  | true => simp [replacements]
  | false => simp [replacements, or_comm]

def replacedSources (removedFirst : Bool) : DirectoryInput :=
  { sources none with
    changedFiles := replacements removedFirst
    changedFiles_below := by
      intro entry inChanges
      rcases mem_replacements.mp inChanges with rfl | rfl <;> decide
    changedFiles_nodup := by
      cases removedFirst <;> decide }

def replacedOnly (removedFirst : Bool) : TransformInvocation :=
  { sourcesOnly none with
    inputs := [⟨[], [replacedSources removedFirst]⟩]
    isIncremental := true }

theorem secondRun_transforms : Transforms classTools .fresh
    secondRun.transformInvocation secondRun.files secondRun.outcome :=
  ⟨_, .refl _, rfl⟩

theorem find_afterSecond {path : Path} (below : ["src".toList] <+: path) :
    secondRun.outcome.files.find path = beforeSecond.find path :=
  (secondRun_transforms.spares (laid_sourcesOnly (some .changed))).find_eq
    (show Apart ["src".toList] ["out".toList] by decide)
    (show Apart ["src".toList] ["tmp".toList] by decide) below

theorem find_mainFile :
    secondRun.outcome.files.find mainFile = some (.file [2]) := by
  rw [find_afterSecond (by decide), beforeSecond, FileSystem.find_put]
  exact if_pos rfl

/-- A directory has the place of the class. -/
theorem find_withDirectory (path : Path) :
    ((secondRun.outcome.files.delete mainFile).mkdirs mainFile).find path =
      if path <+: mainFile then some .directory
      else secondRun.outcome.files.find path := by
  have plain : ∀ name ∈ mainFile, Plain name := by decide
  have deletable := FileSystem.deletable_of_file find_mainFile
  have unblocked :
      (secondRun.outcome.files.delete mainFile).Unblocked mainFile := by
    intro above isAbove
    rw [FileSystem.find_delete]
    by_cases isMain : above = mainFile
    · exact Or.inl (if_pos ⟨deletable, isMain⟩)
    · obtain ⟨rest, whole⟩ := isAbove
      right
      rw [if_neg fun both => isMain both.2]
      have isFound : secondRun.outcome.files.find (above ++ rest) ≠ none := by
        rw [whole, find_mainFile]
        simp
      apply secondRun.outcome.files.find_of_append isFound
      rintro rfl
      rw [List.append_nil] at whole
      exact isMain whole
  rw [FileSystem.find_mkdirs plain unblocked]
  by_cases isAbove : path <+: mainFile
  · rw [if_pos isAbove, if_pos isAbove]
  · rw [if_neg isAbove, if_neg isAbove, FileSystem.find_delete, if_neg]
    rintro ⟨_, rfl⟩
    exact isAbove (List.prefix_refl _)

theorem open_innerFile :
    ((secondRun.outcome.files.delete mainFile).mkdirs mainFile).Open
      innerFile := by
  have noDirectory : secondRun.outcome.files.find mainFile ≠
      some .directory := by
    rw [find_mainFile]
    simp
  have below : innerFile = mainFile ++ ["Inner.class".toList] := rfl
  have missing : secondRun.outcome.files.find innerFile = none := by
    rw [below]
    exact secondRun.outcome.files.find_eq_none_of_append noDirectory
      (List.cons_ne_nil _ _)
  have isAbove : innerFile.dropLast <+: mainFile := by decide
  have notAbove : ¬ innerFile <+: mainFile := by decide
  refine ⟨by decide, ?_, by decide, ?_⟩
  · rw [find_withDirectory, if_pos isAbove]
  · rw [find_withDirectory, if_neg notAbove, missing]
    simp

def beforeReplaced : FileSystem Bytes :=
  ((secondRun.outcome.files.delete mainFile).mkdirs mainFile).put innerFile
    (.file [3]) open_innerFile

def replacedRun (removedFirst : Bool) : Run where
  transformInvocation := replacedOnly removedFirst
  files := beforeReplaced
  outcome := invokeAll classTools (replacedOnly removedFirst).tasks
    ((replacedOnly removedFirst).prepare beforeReplaced)

theorem find_beforeReplaced (path : Path) :
    beforeReplaced.find path =
      if path = innerFile then some (.file [3])
      else if path <+: mainFile then some .directory
      else secondRun.outcome.files.find path := by
  rw [beforeReplaced, FileSystem.find_put, find_withDirectory]

/-- Outside the directory nothing is touched. -/
theorem find_beforeReplaced_of_apart {place path : Path}
    (apart : Apart ["src".toList] place) (below : place <+: path) :
    beforeReplaced.find path = secondRun.outcome.files.find path := by
  have notBelow := apart.symm.not_below below
  have isMain : ["src".toList] <+: mainFile := by decide
  have isInner : ["src".toList] <+: innerFile := by decide
  have notInner : path ≠ innerFile := by
    rintro rfl
    exact notBelow isInner
  have notAbove : ¬ path <+: mainFile := by
    intro isAbove
    exact apart.not_below isMain (below.trans isAbove)
  rw [find_beforeReplaced, if_neg notInner, if_neg notAbove]

theorem fileAt_beforeReplaced {rest : Path} :
    beforeReplaced.fileAt (["src".toList] ++ rest) =
      if rest = ["Main.class".toList, "Inner.class".toList] then some [3]
      else none := by
  by_cases isInner : rest = ["Main.class".toList, "Inner.class".toList]
  · rw [if_pos isInner, isInner]
    apply FileSystem.fileAt_eq_some_iff.mpr
    exact (find_beforeReplaced _).trans (if_pos rfl)
  · have elsewhere : ["src".toList] ++ rest ≠ innerFile := by
      intro same
      exact isInner (List.cons.inj same).2
    have found := find_beforeReplaced (["src".toList] ++ rest)
    rw [if_neg elsewhere] at found
    rw [if_neg isInner]
    by_cases isAbove : ["src".toList] ++ rest <+: mainFile
    · rw [if_pos isAbove] at found
      exact FileSystem.fileAt_eq_none_iff.mpr (Or.inr found)
    · rw [if_neg isAbove, find_afterSecond (List.prefix_append _ _)] at found
      rw [FileSystem.fileAt_congr found, fileAt_beforeSecond, if_neg]
      rintro rfl
      exact isAbove (List.prefix_refl _)

/-- The run finds the output and the temporary directory as the run before
left them. -/
theorem ready_beforeReplaced :
    Ready ["out".toList] ["tmp".toList] beforeReplaced := by
  have ready : Ready ["out".toList] ["tmp".toList]
      secondRun.outcome.files :=
    (laid_sourcesOnly (some .changed)).ready_invokeAll classTools
      secondRun_orderly.placed.ready
  have fromOut : Apart ["src".toList] ["out".toList] := by decide
  have fromTmp : Apart ["src".toList] ["tmp".toList] := by decide
  constructor
  · rw [find_beforeReplaced_of_apart fromOut (List.prefix_refl _)]
    exact ready.root
  · rw [find_beforeReplaced_of_apart fromTmp (List.prefix_refl _)]
    exact ready.stays
  · intro name
    rw [find_beforeReplaced_of_apart fromTmp (List.prefix_append _ _)]
    exact ready.onlyFiles name

theorem replacedRun_takesPlace (removedFirst : Bool) :
    Turn.TakesPlace classTools ⟨.fresh, replacedRun removedFirst⟩ := by
  have placed := @wellPlaced_of_src (replacedOnly removedFirst) _ _ rfl rfl
    rfl rfl ready_beforeReplaced (@fileAt_beforeReplaced [])
  exact ⟨placed.1, placed.2, _, .refl _, rfl⟩

theorem contentOf_secondRun (removedFirst : Bool) (rest : Path) :
    secondRun.contentOf (replacedSources removedFirst)
        (["src".toList] ++ rest) =
      if rest = ["Main.class".toList] then some [2] else none := by
  rw [Run.contentOf, if_pos]
  · exact fileAt_beforeSecond
  · exact ⟨sources (some .changed), List.mem_cons_self, rfl, rfl, rfl, rfl⟩

theorem replacedRun_follows (removedFirst : Bool) :
    Follows secondRun (replacedRun removedFirst) where
  incremental := rfl
  output := rfl
  found := by
    intro path below
    have fromOut : Apart ["src".toList] ["out".toList] := by decide
    exact find_beforeReplaced_of_apart fromOut below
  jars := by
    intro jarInput inJars
    cases inJars
  directories := by
    intro directoryInput inDirectories _ _
    rw [List.mem_singleton.mp inDirectories]
    exact ⟨replacedSources removedFirst, List.mem_cons_self, rfl, rfl, rfl,
      rfl⟩
  statuses := by
    intro directoryInput inDirectories entry inChanges
    rw [List.mem_singleton.mp inDirectories] at inChanges ⊢
    rcases mem_replacements.mp inChanges with rfl | rfl
    · have before := contentOf_secondRun removedFirst ["Main.class".toList]
      have now := @fileAt_beforeReplaced ["Main.class".toList]
      exact (congrArg₂ statusOf before now).symm
    · have before := contentOf_secondRun removedFirst
        ["Main.class".toList, "Inner.class".toList]
      have now := @fileAt_beforeReplaced
        ["Main.class".toList, "Inner.class".toList]
      exact (congrArg₂ statusOf before now).symm
  changes := by
    intro directoryInput inDirectories rest differs
    rw [List.mem_singleton.mp inDirectories] at differs ⊢
    have differs : (if rest = ["Main.class".toList] then some [2] else none) ≠
        beforeReplaced.fileAt (["src".toList] ++ rest) := by
      rw [← contentOf_secondRun removedFirst]
      exact differs
    rw [fileAt_beforeReplaced] at differs
    rw [List.mem_map]
    by_cases isMain : rest = ["Main.class".toList]
    · exact ⟨_, mem_replacements.mpr (Or.inl rfl), by rw [isMain]; rfl⟩
    · by_cases isInner : rest = ["Main.class".toList, "Inner.class".toList]
      · exact ⟨_, mem_replacements.mpr (Or.inr rfl), by rw [isInner]; rfl⟩
      · rw [if_neg isMain, if_neg isInner] at differs
        exact absurd rfl differs

/-- What the output holds before the class is given up: the class, modified. -/
theorem fileAt_place (removedFirst : Bool) (rest : Path) :
    beforeReplaced.fileAt
        ((replacedOnly removedFirst).outputProvider.directoryPlace
          (replacedSources removedFirst) ++ rest) =
      (if rest = ["Main.class".toList] then some [2] else none).map
        (classOutput classTools (["src".toList] ++ rest)) := by
  have byFirst := isOutput_full rfl firstRun_orderly.placed
    firstRun_orderly.distinct firstRun_orderly.once firstRun_transforms
  have bySecond := second_follows.isOutput firstRun_orderly secondRun_orderly
    secondRun_clear byFirst secondRun_transforms
  have stored := (replacedRun_follows removedFirst).fileAt_directoryPlace
    (replacedRun_takesPlace removedFirst).distinct bySecond
    (show replacedSources removedFirst ∈ [replacedSources removedFirst] from
      List.mem_cons_self) rest
  have before := contentOf_secondRun removedFirst rest
  exact stored.trans (congrArg (Option.map _) before)

end DripStone.BaseTransform
