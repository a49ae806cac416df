import DripStone.BaseTransform.Owners

/-!
# The output of one run

What a run has to leave for its inputs is a relation between paths of the
output and bytes, in which neither the order of the tasks nor the mode of the
run occurs.
-/

namespace DripStone.BaseTransform

open DripStone.Library

/-! ## The output of some inputs -/

namespace TransformInvocation

variable (transformInvocation : TransformInvocation)

/-- An incremental run is passed the jars that were removed as well. -/
def IsPresent (jarInput : JarInput) : Prop :=
  transformInvocation.isIncremental = false ∨ jarInput.status ≠ .removed

instance (jarInput : JarInput) :
    Decidable (transformInvocation.IsPresent jarInput) :=
  inferInstanceAs (Decidable (_ ∨ _))

/-- The same inputs for a run that is not incremental. -/
def full : TransformInvocation where
  inputs := transformInvocation.inputs.map fun input =>
    { input with
      jarInputs := input.jarInputs.filter fun jarInput =>
        transformInvocation.IsPresent jarInput }
  outputProvider := transformInvocation.outputProvider
  context := transformInvocation.context
  isIncremental := false

theorem mem_jarInputs_full (jarInput : JarInput) :
    jarInput ∈ transformInvocation.full.jarInputs ↔
      jarInput ∈ transformInvocation.jarInputs ∧
        transformInvocation.IsPresent jarInput := by
  simp only [jarInputs, full, List.flatMap_map, List.mem_flatMap,
    List.mem_filter, decide_eq_true_eq]
  constructor
  · rintro ⟨input, inInputs, inJars, isPresent⟩
    exact ⟨⟨input, inInputs, inJars⟩, isPresent⟩
  · rintro ⟨⟨input, inInputs, inJars⟩, isPresent⟩
    exact ⟨input, inInputs, inJars, isPresent⟩

theorem directoryInputs_full :
    transformInvocation.full.directoryInputs =
      transformInvocation.directoryInputs := by
  simp [directoryInputs, full, List.flatMap_map]

end TransformInvocation

/-- What an output holds for some inputs: a jar that is present and can be
written is at its place, and a file of a directory under the place of the
directory, at its path relative to that directory. -/
inductive Expected (tools : Tools) (transformInvocation : TransformInvocation)
    (files : FileSystem Bytes) : Path → Bytes → Prop
  | jar {jarInput : JarInput} {content bytes : Bytes}
      (inJars : jarInput ∈ transformInvocation.jarInputs)
      (isPresent : transformInvocation.IsPresent jarInput)
      (long : LongPath jarInput.file)
      (found : files.fileAt jarInput.file = some content)
      (output : jarOutput tools jarInput.file content = some bytes) :
      Expected tools transformInvocation files
        (jarPlace transformInvocation jarInput) bytes
  | directory {directoryInput : DirectoryInput} {rest : Path}
      {content : Bytes}
      (inDirectories : directoryInput ∈ transformInvocation.directoryInputs)
      (found : files.fileAt (directoryInput.file ++ rest) = some content) :
      Expected tools transformInvocation files
        (transformInvocation.outputProvider.directoryPlace directoryInput ++
          rest)
        (classOutput tools (directoryInput.file ++ rest) content)

/-- Below the root, an output holds what it has to and nothing else. -/
def IsOutput (tools : Tools) (transformInvocation : TransformInvocation)
    (files output : FileSystem Bytes) : Prop :=
  ∀ path, transformInvocation.outputProvider.root <+: path →
    ∀ bytes, output.fileAt path = some bytes ↔
      Expected tools transformInvocation files path bytes

section Jar

variable {tools : Tools} {root temporaryDir place : Path}
  {files : FileSystem Bytes}

/-- A call that makes no directory at a place. -/
def LeavesFile (place : Path) (before after : FileSystem Bytes) : Prop :=
  after.find place = some .directory → before.find place = some .directory

theorem LeavesFile.refl (place : Path) (files : FileSystem Bytes) :
    LeavesFile place files files := id

theorem LeavesFile.trans (first second third : FileSystem Bytes)
    (before : LeavesFile place first second)
    (after : LeavesFile place second third) :
    LeavesFile place first third := fun directory => before (after directory)

theorem leavesFile_copyFile (below : place ≠ []) (source : Path) :
    Action.Within (LeavesFile place) (copyFile source place) := by
  have reflexive := LeavesFile.refl place
  have reading : Action.Within (LeavesFile place) (readFile source) := by
    apply Action.within_bind LeavesFile.trans (Action.within_get reflexive)
    intro files
    cases files.fileAt source with
    | none => exact Action.within_throw reflexive _
    | some content => exact Action.within_pure reflexive _
  have making : Action.Within (LeavesFile place)
      (modify fun files => files.mkdirs place.dropLast : Call PUnit) := by
    apply Action.within_modify
    intro files directory
    rcases files.find_mkdirs_cases place.dropLast place with
      kept | ⟨above, _, _⟩
    · rwa [kept] at directory
    · have lengths := above.length_le
      have positive := List.length_pos_iff.mpr below
      rw [List.length_dropLast] at lengths
      omega
  have writing : ∀ content, Action.Within (LeavesFile place)
      (writeFile place content) := by
    intro content files
    cases result : files.write place content with
    | none =>
        have failed : writeFile place content files =
            .error .fileNotFoundException files := by
          rw [writeFile, Action.get_bind, result]
          rfl
        rw [Action.after_of_error failed]
        exact reflexive files
    | some written =>
        have returned : writeFile place content files = .ok () written := by
          rw [writeFile, Action.get_bind, result]
          rfl
        rw [Action.after_of_ok returned]
        obtain ⟨isOpen, rfl⟩ := FileSystem.write_eq_some_iff.mp result
        intro directory
        rw [FileSystem.find_put, if_pos rfl] at directory
        cases directory
  apply Action.within_bind LeavesFile.trans reading
  intro content
  have copying : Action.Within (LeavesFile place) (do
      modify fun files => files.mkdirs place.dropLast
      writeFile place content) :=
    Action.within_bind LeavesFile.trans making fun _ => writing content
  by_cases same : source = place
  · simp only [same, ↓reduceIte]
    exact Action.within_bind LeavesFile.trans
      (Action.within_throw reflexive _) fun _ => copying
  · simp only [same, ↓reduceIte]
    exact copying

/-- Below the place of a jar that was replaced there is nothing. -/
theorem find_below_replaceJar {jarInput : JarInput} (below : place ≠ [])
    (fromPlace : Apart jarInput.file place)
    (fromTemporary : Apart jarInput.file temporaryDir)
    (apart : Apart place temporaryDir) {rest : Path} (more : rest ≠ []) :
    ((replaceJar tools jarInput place ⟨temporaryDir⟩).after files).find
      (place ++ rest) = none := by
  apply FileSystem.find_eq_none_of_append _ _ more
  obtain ⟨cleared, deleted, atCleared⟩ := forceDeleteIfExists_ok below files
  have reflexive := LeavesFile.refl place
  have modifying : Action.Within (LeavesFile place)
      (modifyJar tools jarInput.file temporaryDir) := by
    intro files directory
    rwa [find_modifyJar tools fromTemporary fromPlace apart.2] at directory
  have asking : Action.Within (LeavesFile place)
      (isLegalJarFile jarInput.file) := by
    apply Action.within_bind LeavesFile.trans (Action.within_get reflexive)
    intro files
    cases files.fileAt jarInput.file with
    | none => exact Action.within_pure reflexive _
    | some content => exact Action.within_pure reflexive _
  have replacing : Action.Within (LeavesFile place) (do
      let modifiedJar ←
        if ← isLegalJarFile jarInput.file then
          modifyJar tools jarInput.file temporaryDir
        else pure jarInput.file
      copyFile modifiedJar place) := by
    apply Action.within_bind LeavesFile.trans asking
    intro legal
    have copying := leavesFile_copyFile below
    cases legal with
    | true => exact Action.within_bind LeavesFile.trans modifying copying
    | false =>
        exact Action.within_bind LeavesFile.trans
          (Action.within_pure reflexive _) copying
  rw [replaceJar, Action.after_bind_of_ok deleted]
  intro directory
  have before := replacing cleared directory
  rw [atCleared, if_pos List.prefix_rfl] at before
  cases before

end Jar

/-! ## The places of the inputs -/

/-- The inputs of a run exist, apart from its output and its temporary
directory: a jar is a file and a directory is none. -/
structure WellPlaced (transformInvocation : TransformInvocation)
    (files : FileSystem Bytes) : Prop where
  layout : Layout transformInvocation.outputProvider.root
    transformInvocation.context.temporaryDir transformInvocation.tasks
  ready : Ready transformInvocation.outputProvider.root
    transformInvocation.context.temporaryDir files
  jars : ∀ jarInput ∈ transformInvocation.jarInputs,
    transformInvocation.IsPresent jarInput →
      files.fileAt jarInput.file ≠ none
  directories : ∀ directoryInput ∈ transformInvocation.directoryInputs,
    files.fileAt directoryInput.file = none

/-- What the tasks of a run leave at each place, from what stood there when
they started. -/
structure PlaceByPlace (tools : Tools)
    (transformInvocation : TransformInvocation)
    (files start output : FileSystem Bytes) : Prop where
  directory : ∀ directoryInput ∈ transformInvocation.directoryInputs,
    ∀ rest, output.fileAt
        (transformInvocation.outputProvider.directoryPlace directoryInput ++
          rest) =
      (files.fileAt (directoryInput.file ++ rest)).map
        (classOutput tools (directoryInput.file ++ rest))
  jar : ∀ jarInput ∈ transformInvocation.jarInputs, LongPath jarInput.file →
    transformInvocation.IsPresent jarInput →
      output.fileAt (jarPlace transformInvocation jarInput) =
        (files.fileAt jarInput.file).bind (jarOutput tools jarInput.file)
  removed : ∀ jarInput ∈ transformInvocation.jarInputs,
    LongPath jarInput.file → ¬ transformInvocation.IsPresent jarInput →
      output.fileAt (jarPlace transformInvocation jarInput) = none
  belowJar : ∀ jarInput ∈ transformInvocation.jarInputs,
    LongPath jarInput.file → ∀ rest, rest ≠ [] →
      output.fileAt (jarPlace transformInvocation jarInput ++ rest) = none
  others : ∀ leaf, (∀ task ∈ transformInvocation.tasks, task.Writes →
      task.dest ≠ transformInvocation.outputProvider.root ++ [leaf]) →
    ∀ path, transformInvocation.outputProvider.root ++ [leaf] <+: path →
      output.find path = start.find path
  root : output.find transformInvocation.outputProvider.root =
    some .directory

section Places

variable {tools : Tools} {transformInvocation : TransformInvocation}
  {files : FileSystem Bytes}

theorem place_eq_of_append_eq {root : Path} {leaf other : Name}
    {rest rest' : Path}
    (same : root ++ [leaf] ++ rest = root ++ [other] ++ rest') :
    leaf = other ∧ rest = rest' := by
  simpa using same

/-- The places of all inputs together make the output. -/
theorem PlaceByPlace.isOutput {start output : FileSystem Bytes}
    (places : PlaceByPlace tools transformInvocation files start output)
    (nothingElse : ∀ leaf, (∀ task ∈ transformInvocation.tasks,
        task.Writes →
          task.dest ≠ transformInvocation.outputProvider.root ++ [leaf]) →
      ∀ rest, start.fileAt
        (transformInvocation.outputProvider.root ++ [leaf] ++ rest) = none) :
    IsOutput tools transformInvocation files output := by
  intro path below bytes
  constructor
  · intro found
    obtain ⟨rest, rfl⟩ := below
    cases rest with
    | nil =>
        rw [List.append_nil, FileSystem.fileAt_eq_some_iff,
          places.root] at found
        cases found
    | cons leaf rest =>
        have regrouped : transformInvocation.outputProvider.root ++
            leaf :: rest =
            transformInvocation.outputProvider.root ++ [leaf] ++ rest := by
          simp
        rw [regrouped] at found ⊢
        by_cases owned : ∀ task ∈ transformInvocation.tasks, task.Writes →
            task.dest ≠ transformInvocation.outputProvider.root ++ [leaf]
        · have kept := places.others leaf owned _
            (List.prefix_append _ rest)
          rw [FileSystem.fileAt_congr kept, nothingElse leaf owned] at found
          cases found
        · push Not at owned
          obtain ⟨task, inTasks, writes, isPlace⟩ := owned
          rw [← isPlace] at found ⊢
          rcases mem_tasks_iff.mp inTasks with
            ⟨jarInput, inJars, rfl⟩ | ⟨directoryInput, inDirectories, rfl⟩
          · rw [dest_jarTask] at found ⊢
            by_cases here : rest = []
            · subst here
              rw [List.append_nil] at found ⊢
              by_cases isPresent : transformInvocation.IsPresent jarInput
              · rw [places.jar jarInput inJars writes isPresent,
                  Option.bind_eq_some_iff] at found
                obtain ⟨content, read, output⟩ := found
                exact .jar inJars isPresent writes read output
              · rw [places.removed jarInput inJars writes isPresent] at found
                cases found
            · rw [places.belowJar jarInput inJars writes rest here] at found
              cases found
          · rw [dest_directoryTask] at found ⊢
            rw [places.directory directoryInput inDirectories,
              Option.map_eq_some_iff] at found
            obtain ⟨content, read, rfl⟩ := found
            exact .directory inDirectories read
  · intro expected
    cases expected with
    | jar inJars isPresent long found output =>
        rw [places.jar _ inJars long isPresent, found]
        exact output
    | directory inDirectories found =>
        rw [places.directory _ inDirectories, found]
        rfl

end Places

end DripStone.BaseTransform
