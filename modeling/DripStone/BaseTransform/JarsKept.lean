import DripStone.BaseTransform.JarTasks
import DripStone.BaseTransform.ListedOutput

/-!
# Jars with one name

Jars whose derived names agree share their place in the output, and the last
task of them decides what stands there.
-/

namespace DripStone.BaseTransform

open DripStone.Library

def TransformInvocation.jarInputs
    (transformInvocation : TransformInvocation) : List JarInput :=
  transformInvocation.inputs.flatMap TransformInput.jarInputs

def TransformInvocation.directoryInputs
    (transformInvocation : TransformInvocation) : List DirectoryInput :=
  transformInvocation.inputs.flatMap TransformInput.directoryInputs

theorem mem_tasks_iff {transformInvocation : TransformInvocation}
    {task : Task} :
    task ∈ transformInvocation.tasks ↔
      (∃ jarInput ∈ transformInvocation.jarInputs,
        transformInvocation.jarTask jarInput = task) ∨
      ∃ directoryInput ∈ transformInvocation.directoryInputs,
        transformInvocation.directoryTask directoryInput = task := by
  simp only [TransformInvocation.tasks, TransformInvocation.jarInputs,
    TransformInvocation.directoryInputs, List.mem_flatMap, List.mem_append,
    List.mem_map]
  constructor
  · rintro ⟨input, inInputs,
      ⟨jarInput, inJars, rfl⟩ | ⟨directory, inDirs, rfl⟩⟩
    · exact Or.inl ⟨jarInput, ⟨input, inInputs, inJars⟩, rfl⟩
    · exact Or.inr ⟨directory, ⟨input, inInputs, inDirs⟩, rfl⟩
  · rintro (⟨jarInput, ⟨input, inInputs, inJars⟩, rfl⟩ |
      ⟨directory, ⟨input, inInputs, inDirs⟩, rfl⟩)
    · exact ⟨input, inInputs, Or.inl ⟨jarInput, inJars, rfl⟩⟩
    · exact ⟨input, inInputs, Or.inr ⟨directory, inDirs, rfl⟩⟩

/-! ## The setting -/

/-- The streams write entries of different names so that they are read
back. -/
def Tools.Reproduce (tools : Tools) : Prop :=
  ∀ jarEntries : List JarEntry, (jarEntries.map JarEntry.name).Nodup →
    tools.jarEntries (tools.jarBytes jarEntries) = some jarEntries

/-- A full transform of jars that exist, all with the same content types and
scopes. -/
structure FullBuild (transformInvocation : TransformInvocation)
    (files : FileSystem Bytes) : Prop where
  full : transformInvocation.isIncremental = false
  layout : Layout transformInvocation.outputProvider.root
    transformInvocation.context.temporaryDir transformInvocation.tasks
  ready : Ready transformInvocation.outputProvider.root
    transformInvocation.context.temporaryDir files
  jars : ∀ jarInput ∈ transformInvocation.jarInputs,
    files.fileAt jarInput.file ≠ none
  alike : ∀ jarInput ∈ transformInvocation.jarInputs,
    ∀ other ∈ transformInvocation.jarInputs,
      jarInput.contentTypes = other.contentTypes ∧
        jarInput.scopes = other.scopes

section Given

variable (tools : Tools)

def JarEntry.isClass (jarEntry : JarEntry) : Bool :=
  endsWith jarEntry.name ".class".toList

/-- The entry that the task of a jar makes of one of its own. -/
def givenEntry (jarFile : Path) (content : Bytes) (jarEntry : JarEntry) :
    JarEntry :=
  if isLegalJar jarFile content then
    ⟨jarEntry.name, modifiedBytes tools jarEntry⟩
  else jarEntry

/-- The entries that the task of a jar gives; nothing when the jar cannot be
read, or holds one name twice. -/
def givenEntries (jarFile : Path) (content : Bytes) :
    Option (List JarEntry) :=
  (tools.jarEntries content).bind fun jarEntries =>
    if isLegalJar jarFile content then
      if ((keptEntries tools jarEntries).map JarEntry.name).Nodup then
        some (keptEntries tools jarEntries)
      else none
    else some jarEntries

variable {tools}

theorem jarOutput_bind_jarEntries (reproduce : tools.Reproduce)
    (jarFile : Path) (content : Bytes) :
    (jarOutput tools jarFile content).bind tools.jarEntries =
      givenEntries tools jarFile content := by
  rw [jarOutput, givenEntries]
  by_cases legal : isLegalJar jarFile content = true
  · simp only [legal, ↓reduceIte]
    cases tools.jarEntries content with
    | none => rfl
    | some jarEntries =>
        have distinct : (([] : List JarEntry).map JarEntry.name).Nodup := by
          simp
        simp only [Option.bind_some]
        rcases putEntries_eq tools jarEntries [] distinct with
          ⟨nodup, loop⟩ | ⟨repeated, initial, loop⟩
        · rw [List.nil_append] at nodup loop
          rw [loop, if_pos nodup]
          exact reproduce _ nodup
        · rw [List.nil_append] at repeated
          rw [loop, if_neg repeated]
          rfl
  · simp only [legal, ↓reduceIte, Bool.false_eq_true]
    cases read : tools.jarEntries content with
    | none => simp [read]
    | some jarEntries => simp [read]

end Given

/-! ## One task after another -/

section Order

variable (tools : Tools) {transformInvocation : TransformInvocation}
  {files : FileSystem Bytes}

theorem ready_deleteAll {outputProvider : TransformOutputProvider}
    {temporaryDir : Path} (apart : Apart outputProvider.root temporaryDir)
    (ready : Ready outputProvider.root temporaryDir files) :
    Ready outputProvider.root temporaryDir
      (outputProvider.deleteAll files) where
  root := by
    have unblocked : (files.removeTree outputProvider.root).Unblocked
        outputProvider.root := by
      rintro above ⟨rest, whole⟩
      rw [FileSystem.find_removeTree apart.ne_nil]
      by_cases below : outputProvider.root <+: above
      · rw [if_pos below]
        exact Or.inl rfl
      · rw [if_neg below]
        have directory := ready.root
        rw [← whole] at directory
        exact Or.inr (files.directory_of_append directory)
    rw [TransformOutputProvider.deleteAll,
      FileSystem.find_mkdirs outputProvider.root_plain unblocked,
      if_pos List.prefix_rfl]
  stays := (spares_deleteAll apart files).stays ready.stays
  onlyFiles := fun name directory => ready.onlyFiles name
    ((spares_deleteAll apart files).onlyFiles name directory)

variable (build : FullBuild transformInvocation files)
include build

theorem FullBuild.prepare_eq :
    transformInvocation.prepare files =
      transformInvocation.outputProvider.deleteAll files := by
  rw [TransformInvocation.prepare, build.full]
  rfl

theorem FullBuild.of_subset {order : List Task}
    (subset : ∀ task ∈ order, task ∈ transformInvocation.tasks) :
    Layout transformInvocation.outputProvider.root
      transformInvocation.context.temporaryDir order :=
  build.layout.of_subset subset

/-- In the middle of a run, the jars are as they were. -/
theorem FullBuild.fileAt_source {order : List Task}
    (subset : ∀ task ∈ order, task ∈ transformInvocation.tasks)
    {jarInput : JarInput}
    (inJars : jarInput ∈ transformInvocation.jarInputs) :
    (invokeAll tools order
        (transformInvocation.prepare files)).files.fileAt jarInput.file =
      files.fileAt jarInput.file := by
  have inTasks : transformInvocation.jarTask jarInput ∈
      transformInvocation.tasks :=
    mem_tasks_iff.mpr (Or.inl ⟨jarInput, inJars, rfl⟩)
  have fromRoot := build.layout.source_root _ inTasks
  have fromTemporary := build.layout.source_temporaryDir _ inTasks
  have prepared := spares_deleteAll build.layout.apart files
  have ran := (build.of_subset subset).spares_invokeAll tools
    (transformInvocation.prepare files)
  rw [build.prepare_eq] at ran ⊢
  apply FileSystem.fileAt_congr
  exact (prepared.trans ran).find_eq fromRoot fromTemporary List.prefix_rfl

theorem FullBuild.ready_run {order : List Task}
    (subset : ∀ task ∈ order, task ∈ transformInvocation.tasks) :
    Ready transformInvocation.outputProvider.root
      transformInvocation.context.temporaryDir
      (invokeAll tools order (transformInvocation.prepare files)).files := by
  rw [build.prepare_eq]
  exact (build.of_subset subset).ready_invokeAll tools
    (ready_deleteAll build.layout.apart build.ready)

/-- The place of a jar in the output. -/
def jarPlace (transformInvocation : TransformInvocation)
    (jarInput : JarInput) : Path :=
  transformInvocation.outputProvider.getContentLocation
    (jarName jarInput.file) jarInput.contentTypes jarInput.scopes .jar

/-- A jar task that comes last decides what stands at its place. -/
theorem FullBuild.fileAt_last {order : List Task} {jarInput : JarInput}
    (subset : ∀ task ∈ order, task ∈ transformInvocation.tasks)
    (inJars : jarInput ∈ transformInvocation.jarInputs)
    (long : LongPath jarInput.file) {content : Bytes}
    (found : files.fileAt jarInput.file = some content) :
    (invokeAll tools
        (order ++ [transformInvocation.jarTask jarInput])
        (transformInvocation.prepare files)).files.fileAt
          (jarPlace transformInvocation jarInput) =
      jarOutput tools jarInput.file content := by
  have inTasks : transformInvocation.jarTask jarInput ∈
      transformInvocation.tasks :=
    mem_tasks_iff.mpr (Or.inl ⟨jarInput, inJars, rfl⟩)
  have source := build.fileAt_source tools subset inJars
  rw [found] at source
  have ready := build.ready_run tools subset
  have left := replaceJar_leaves tools long source
    (transformInvocation.outputProvider.plain_getContentLocation
      (jarName jarInput.file) jarInput.contentTypes jarInput.scopes .jar)
    build.layout.apart (build.layout.source_root _ inTasks)
    (build.layout.source_temporaryDir _ inTasks) ready
  rw [invokeAll_concat]
  have call : (transformInvocation.jarTask jarInput).call tools =
      replaceJar tools jarInput (jarPlace transformInvocation jarInput)
        transformInvocation.context :=
    forEachJar_of_replacing tools long (Or.inl build.full)
  rw [call]
  exact left.1

omit build in
theorem jarPlace_eq_iff {jarInput other : JarInput} :
    jarPlace transformInvocation jarInput =
        jarPlace transformInvocation other ↔
      jarName jarInput.file = jarName other.file ∧
        jarInput.contentTypes = other.contentTypes ∧
        jarInput.scopes = other.scopes := by
  constructor
  · intro same
    have leaves := (List.append_inj' same rfl).2
    obtain ⟨names, types, scopes, _⟩ :=
      transformInvocation.outputProvider.leaf_injective _ _ _ _ _ _ _ _
        (List.singleton_inj.mp leaves)
    exact ⟨names, types, scopes⟩
  · rintro ⟨names, types, scopes⟩
    rw [jarPlace, jarPlace, names, types, scopes]

/-- Any other task leaves the place of a jar alone. -/
theorem FullBuild.find_other {task : Task} {jarInput : JarInput}
    (inTasks : task ∈ transformInvocation.tasks)
    (unrelated : ∀ other ∈ transformInvocation.jarInputs,
      transformInvocation.jarTask other = task → LongPath other.file →
        jarPlace transformInvocation other ≠
          jarPlace transformInvocation jarInput)
    (current : FileSystem Bytes) :
    ((task.call tools).after current).find
        (jarPlace transformInvocation jarInput) =
      current.find (jarPlace transformInvocation jarInput) := by
  have spares := build.layout.spares_call tools inTasks current
  rcases mem_tasks_iff.mp inTasks with
    ⟨other, inJars, rfl⟩ | ⟨directoryInput, inDirectories, rfl⟩
  · by_cases long : LongPath other.file
    · have elsewhere := unrelated other inJars rfl long
      have different : transformInvocation.outputProvider.leaf
            (jarName jarInput.file) jarInput.contentTypes jarInput.scopes
            .jar ≠
          transformInvocation.outputProvider.leaf
            (jarName other.file) other.contentTypes other.scopes .jar := by
        intro same
        apply elsewhere
        rw [jarPlace, TransformOutputProvider.getContentLocation, ← same]
        rfl
      exact spares.find_eq_of_ne build.layout.apart different
        List.prefix_rfl
    · have call : (transformInvocation.jarTask other).call tools =
          throw Failure.stringIndexOutOfBoundsException := by
        show forEachJar tools other _ _ _ = _
        rw [forEachJar, generateJarFileName_of_not_long long,
          Action.ofExcept_error_bind]
      rw [call]
      rfl
  · have different : transformInvocation.outputProvider.leaf
          (jarName jarInput.file) jarInput.contentTypes jarInput.scopes
          .jar ≠
        transformInvocation.outputProvider.leaf directoryInput.name
          directoryInput.contentTypes directoryInput.scopes .directory := by
      intro same
      have formats := (transformInvocation.outputProvider.leaf_injective
        _ _ _ _ _ _ _ _ same).2.2.2
      exact absurd formats (by decide)
    exact spares.find_eq_of_ne build.layout.apart different List.prefix_rfl

/-- After any run the place of a jar holds what one of the jars of that place
gives. -/
theorem FullBuild.fileAt_place {order : List Task} {jarInput : JarInput}
    (subset : ∀ task ∈ order, task ∈ transformInvocation.tasks)
    (inJars : jarInput ∈ transformInvocation.jarInputs)
    (long : LongPath jarInput.file)
    (inOrder : transformInvocation.jarTask jarInput ∈ order) :
    ∃ other ∈ transformInvocation.jarInputs, LongPath other.file ∧
      jarPlace transformInvocation other =
        jarPlace transformInvocation jarInput ∧
      ∃ content, files.fileAt other.file = some content ∧
        (invokeAll tools order
            (transformInvocation.prepare files)).files.fileAt
              (jarPlace transformInvocation jarInput) =
          jarOutput tools other.file content := by
  induction order using List.reverseRecOn with
  | nil => exact absurd inOrder List.not_mem_nil
  | append_singleton order task inductionHypothesis =>
      have initial : ∀ task ∈ order, task ∈ transformInvocation.tasks :=
        fun earlier isEarlier => subset earlier
          (List.mem_append_left [task] isEarlier)
      by_cases decides : ∃ other ∈ transformInvocation.jarInputs,
          transformInvocation.jarTask other = task ∧
            LongPath other.file ∧
            jarPlace transformInvocation other =
              jarPlace transformInvocation jarInput
      · obtain ⟨other, isJar, rfl, longOther, samePlace⟩ := decides
        obtain ⟨content, found⟩ :=
          Option.ne_none_iff_exists'.mp (build.jars other isJar)
        refine ⟨other, isJar, longOther, samePlace, content, found, ?_⟩
        rw [← samePlace]
        exact build.fileAt_last tools initial isJar longOther found
      · have earlier : transformInvocation.jarTask jarInput ∈ order := by
          rcases List.mem_append.mp inOrder with here | last
          · exact here
          · have isTask := List.mem_singleton.mp last
            exact absurd ⟨jarInput, inJars, isTask, long, rfl⟩ decides
        obtain ⟨other, isJar, longOther, samePlace, content, found, left⟩ :=
          inductionHypothesis initial earlier
        refine ⟨other, isJar, longOther, samePlace, content, found, ?_⟩
        rw [← left, invokeAll_concat]
        apply FileSystem.fileAt_congr
        apply build.find_other tools (subset task (by simp))
        intro another isAnother isTask longAnother same
        exact decides ⟨another, isAnother, isTask, longAnother, same⟩

end Order

/-! ## No jar is lost -/

section Kept

variable (tools : Tools) (transformInvocation : TransformInvocation)

/-- Every class of a jar is in its output, as its own task gives it. -/
def KeepsJar (before after : FileSystem Bytes) (jarInput : JarInput) :
    Prop :=
  ∀ content jarEntries, before.fileAt jarInput.file = some content →
    tools.jarEntries content = some jarEntries →
    ∀ jarEntry ∈ jarEntries, jarEntry.isClass →
      ∃ name bytes outputEntries,
        generateJarFileName jarInput.file = .ok name ∧
        after.fileAt (transformInvocation.outputProvider.getContentLocation
          name jarInput.contentTypes jarInput.scopes .jar) = some bytes ∧
        tools.jarEntries bytes = some outputEntries ∧
        givenEntry tools jarInput.file content jarEntry ∈ outputEntries

/-- Whatever the order of the tasks, no jar is lost. -/
def KeepsJars (files : FileSystem Bytes) : Prop :=
  ∀ outcome,
    Transforms tools .fresh transformInvocation files outcome →
      ∀ jarInput ∈ transformInvocation.jarInputs,
        KeepsJar tools transformInvocation files outcome.files jarInput

/-- A jar gives an entry. -/
def Gives (files : FileSystem Bytes) (jarInput : JarInput)
    (jarEntry : JarEntry) : Prop :=
  ∃ content given, files.fileAt jarInput.file = some content ∧
    givenEntries tools jarInput.file content = some given ∧
    jarEntry ∈ given

/-- The path of a jar with classes has four bytes; and every jar whose path
starts with the same four bytes and ends in the same name, itself included,
gives the same classes. -/
def Unmistakable (files : FileSystem Bytes) : Prop :=
  ∀ jarInput ∈ transformInvocation.jarInputs, ∀ content jarEntries,
    files.fileAt jarInput.file = some content →
    tools.jarEntries content = some jarEntries →
    ∀ jarEntry ∈ jarEntries, jarEntry.isClass →
      LongPath jarInput.file ∧
      ∀ other ∈ transformInvocation.jarInputs,
        pathStart other.file = pathStart jarInput.file →
        getName other.file = getName jarInput.file →
          Gives tools files other
            (givenEntry tools jarInput.file content jarEntry)

variable {tools transformInvocation} {files : FileSystem Bytes}

theorem longPath_of_pathStart_eq {file other : Path} (long : LongPath file)
    (same : pathStart other = pathStart file) : LongPath other := by
  have lengths := congrArg List.length same
  rw [LongPath] at long
  rw [pathStart, pathStart, List.length_take, List.length_take] at lengths
  rw [LongPath]
  omega

private theorem keepsJars_of_unmistakable (reproduce : tools.Reproduce)
    (build : FullBuild transformInvocation files)
    (unmistakable : Unmistakable tools transformInvocation files) :
    KeepsJars tools transformInvocation files := by
  rintro outcome ⟨order, permuted, rfl⟩ jarInput inJars content jarEntries
    found entries jarEntry inEntries isClass
  obtain ⟨long, alike⟩ := unmistakable jarInput inJars content jarEntries
    found entries jarEntry inEntries isClass
  have inOrder : ∀ task, task ∈ order ↔
      task ∈ transformInvocation.tasks := fun task => permuted.mem_iff
  have isTask : transformInvocation.jarTask jarInput ∈ order :=
    (inOrder _).mpr (mem_tasks_iff.mpr (Or.inl ⟨jarInput, inJars, rfl⟩))
  obtain ⟨other, isJar, longOther, samePlace, content', found', left⟩ :=
    build.fileAt_place tools (fun task => (inOrder task).mp) inJars long
      isTask
  obtain ⟨sameStart, sameName⟩ :=
    (jarName_eq_iff longOther long).mp (jarPlace_eq_iff.mp samePlace).1
  obtain ⟨content'', given, foundAgain, gives, inGiven⟩ :=
    alike other isJar sameStart sameName
  obtain rfl : content' = content'' :=
    Option.some.inj (found'.symm.trans foundAgain)
  rw [← jarOutput_bind_jarEntries reproduce,
    Option.bind_eq_some_iff] at gives
  obtain ⟨bytes, output, reread⟩ := gives
  exact ⟨jarName jarInput.file, bytes, given,
    generateJarFileName_of_long long, left.trans output, reread, inGiven⟩

/-- The order in which one task comes last. -/
theorem exists_perm_last {tasks : List Task} {task : Task}
    (inTasks : task ∈ tasks) :
    ∃ initial, (initial ++ [task]).Perm tasks := by
  obtain ⟨before, after, rfl⟩ := List.append_of_mem inTasks
  refine ⟨before ++ after, ?_⟩
  rw [List.append_assoc]
  exact (List.perm_append_singleton task after).append_left before

private theorem unmistakable_of_keepsJars (reproduce : tools.Reproduce)
    (build : FullBuild transformInvocation files)
    (keeps : KeepsJars tools transformInvocation files) :
    Unmistakable tools transformInvocation files := by
  intro jarInput inJars content jarEntries found entries jarEntry inEntries
    isClass
  have long : LongPath jarInput.file := by
    obtain ⟨name, _, _, named, _⟩ := keeps _ ⟨_, .rfl, rfl⟩ jarInput inJars
      content jarEntries found entries jarEntry inEntries isClass
    by_contra short
    rw [generateJarFileName_of_not_long short] at named
    exact absurd named (by simp)
  refine ⟨long, ?_⟩
  intro other isJar sameStart sameName
  have longOther := longPath_of_pathStart_eq long sameStart
  obtain ⟨content', found'⟩ :=
    Option.ne_none_iff_exists'.mp (build.jars other isJar)
  have isTask : transformInvocation.jarTask other ∈
      transformInvocation.tasks :=
    mem_tasks_iff.mpr (Or.inl ⟨other, isJar, rfl⟩)
  obtain ⟨initial, permuted⟩ := exists_perm_last isTask
  have subset : ∀ task ∈ initial, task ∈ transformInvocation.tasks :=
    fun task isInitial =>
      permuted.mem_iff.mp (List.mem_append_left _ isInitial)
  have last := build.fileAt_last tools subset isJar longOther found'
  obtain ⟨name, bytes, outputEntries, named, left, reread, inOutput⟩ :=
    keeps _ ⟨_, permuted, rfl⟩ jarInput inJars content jarEntries found
      entries jarEntry inEntries isClass
  rw [generateJarFileName_of_long long] at named
  obtain rfl := Except.ok.inj named
  have samePlace : jarPlace transformInvocation other =
      jarPlace transformInvocation jarInput := by
    apply jarPlace_eq_iff.mpr
    have alike := build.alike other isJar jarInput inJars
    exact ⟨(jarName_eq_iff longOther long).mpr ⟨sameStart, sameName⟩,
      alike.1, alike.2⟩
  rw [samePlace] at last
  have output : jarOutput tools other.file content' = some bytes :=
    last.symm.trans left
  refine ⟨content', outputEntries, found', ?_, inOutput⟩
  rw [← jarOutput_bind_jarEntries reproduce, output]
  exact reread

/-- After a full transform no jar is lost, whatever the order of the tasks, if
and only if jars that get one name give the same classes. -/
theorem keepsJars_iff_unmistakable (reproduce : tools.Reproduce)
    (build : FullBuild transformInvocation files) :
    KeepsJars tools transformInvocation files ↔
      Unmistakable tools transformInvocation files := by
  constructor
  · exact unmistakable_of_keepsJars reproduce build
  · exact keepsJars_of_unmistakable reproduce build

end Kept

/-! ## Two jars -/

theorem countingTools_reproduce : countingTools.Reproduce :=
  fun jarEntries _ => countedValue_countedBytes jarEntries

/-- Jars of the project, to the output `/out` with the temporary directory
`/tmp`. -/
def jarsOnly (jarFiles : List Path) : TransformInvocation where
  inputs := [{
    jarInputs := jarFiles.map fun file =>
      ⟨file, {.classes}, {.externalLibraries}, .notChanged⟩
    directoryInputs := [] }]
  outputProvider := listedOutput "out".toList (by decide)
  context := ⟨["tmp".toList]⟩
  isIncremental := false

def firstJar : Path :=
  ["home".toList, "u".toList, "a".toList, "classes.jar".toList]

def secondJar : Path :=
  ["home".toList, "u".toList, "b".toList, "classes.jar".toList]

/-- A jar of the same name whose path starts otherwise. -/
def apartJar : Path :=
  ["opt".toList, "b".toList, "classes.jar".toList]

/-- The first jar and another one with these contents, an output and a
temporary directory. -/
def jarBeside (other : Path) (first second : Bytes) : FileSystem Bytes :=
  let made := (((FileSystem.empty.mkdirs ["out".toList]).mkdirs
    ["tmp".toList]).mkdirs firstJar.dropLast).mkdirs other.dropLast
  let one := (made.write firstJar first).getD made
  (one.write other second).getD one

def twoJars (first second : Bytes) : FileSystem Bytes :=
  jarBeside secondJar first second

theorem ready_of_list_eq_nil {root temporaryDir : Path}
    {files : FileSystem Bytes} (isRoot : files.find root = some .directory)
    (stays : files.find temporaryDir = some .directory)
    (empty : files.list temporaryDir = []) :
    Ready root temporaryDir files := by
  refine ⟨isRoot, stays, ?_⟩
  intro name directory
  have listed := (files.mem_list_iff temporaryDir name).mpr (by
    rw [directory]
    simp)
  rw [empty] at listed
  exact absurd listed List.not_mem_nil

theorem fullBuild_jarsOnly {jarFiles : List Path} {files : FileSystem Bytes}
    (ready : Ready ["out".toList] ["tmp".toList] files)
    (apart : ∀ file ∈ jarFiles,
      Apart file ["out".toList] ∧ Apart file ["tmp".toList])
    (found : ∀ file ∈ jarFiles, files.fileAt file ≠ none) :
    FullBuild (jarsOnly jarFiles) files := by
  have jars : ∀ jarInput ∈ (jarsOnly jarFiles).jarInputs,
      jarInput.file ∈ jarFiles ∧ jarInput.contentTypes = {.classes} ∧
        jarInput.scopes = {.externalLibraries} := by
    intro jarInput inJars
    simp only [jarsOnly, TransformInvocation.jarInputs, List.flatMap_cons,
      List.flatMap_nil, List.append_nil, List.mem_map] at inJars
    obtain ⟨file, inFiles, rfl⟩ := inJars
    exact ⟨inFiles, rfl, rfl⟩
  have tasks : ∀ task ∈ (jarsOnly jarFiles).tasks,
      task.Of ["out".toList] ["tmp".toList] ∧ task.source ∈ jarFiles := by
    intro task inTasks
    rcases mem_tasks_iff.mp inTasks with
      ⟨jarInput, inJars, rfl⟩ | ⟨directoryInput, inDirectories, rfl⟩
    · exact ⟨⟨rfl, rfl⟩, (jars jarInput inJars).1⟩
    · simp [jarsOnly, TransformInvocation.directoryInputs] at inDirectories
  have fromRoot : Apart ["out".toList] ["tmp".toList] := by decide
  refine ⟨rfl, ⟨fromRoot, ?_, ?_, ?_⟩, ready, ?_, ?_⟩
  · exact fun task inTasks => (tasks task inTasks).1
  · exact fun task inTasks => (apart _ (tasks task inTasks).2).1
  · exact fun task inTasks => (apart _ (tasks task inTasks).2).2
  · exact fun jarInput inJars => found _ (jars jarInput inJars).1
  · intro jarInput inJars other isJar
    rw [(jars jarInput inJars).2.1, (jars other isJar).2.1,
      (jars jarInput inJars).2.2, (jars other isJar).2.2]
    exact ⟨rfl, rfl⟩

theorem fullBuild_twoJars {jarFiles : List Path}
    (among : ∀ file ∈ jarFiles, file = firstJar ∨ file = secondJar)
    (first second : Bytes) :
    FullBuild (jarsOnly jarFiles) (twoJars first second) := by
  refine fullBuild_jarsOnly (ready_of_list_eq_nil rfl rfl rfl) ?_ ?_
  · intro file inFiles
    rcases among file inFiles with rfl | rfl <;> decide
  · intro file inFiles
    rcases among file inFiles with rfl | rfl
    · rw [show (twoJars first second).fileAt firstJar = some first from rfl]
      simp
    · rw [show (twoJars first second).fileAt secondJar = some second
        from rfl]
      simp

theorem fullBuild_apartJars (first second : Bytes) :
    FullBuild (jarsOnly [firstJar, apartJar])
      (jarBeside apartJar first second) := by
  refine fullBuild_jarsOnly (ready_of_list_eq_nil rfl rfl rfl)
    (by decide) ?_
  rintro file (_ | ⟨_, _ | ⟨_, impossible⟩⟩)
  · rw [show (jarBeside apartJar first second).fileAt firstJar = some first
      from rfl]
    simp
  · rw [show (jarBeside apartJar first second).fileAt apartJar = some second
      from rfl]
    simp
  · cases impossible

def firstClass : JarEntry :=
  ⟨"A.class".toList, [1]⟩

def secondClass : JarEntry :=
  ⟨"B.class".toList, [2]⟩

/-- The bytes of a jar with one class. -/
noncomputable def oneClass (jarEntry : JarEntry) : Bytes :=
  countingTools.jarBytes [jarEntry]

theorem givenEntries_oneClass {jarFile : Path}
    (isNamed : getName jarFile = "classes.jar".toList)
    {jarEntry : JarEntry} (unsigned : isSignature jarEntry.name = false) :
    isLegalJar jarFile (oneClass jarEntry) = true ∧
      givenEntries countingTools jarFile (oneClass jarEntry) =
        some [⟨jarEntry.name, modifiedBytes countingTools jarEntry⟩] := by
  have legal : isLegalJar jarFile (oneClass jarEntry) = true := by
    have some := length_countedBytes_pos [jarEntry]
    have named : (getName jarFile ≠ "R.jar".toList &&
        endsWith (getName jarFile) ".jar".toList) = true := by
      rw [isNamed]
      decide
    rw [isLegalJar, Bool.and_assoc, named, Bool.and_true]
    exact decide_eq_true some
  refine ⟨legal, ?_⟩
  have entries : countingTools.jarEntries (oneClass jarEntry) =
      some [jarEntry] :=
    countedValue_countedBytes [jarEntry]
  simp [givenEntries, entries, legal, keptEntries, unsigned]

/-- A jar with one class gives that class. -/
theorem gives_oneClass {files : FileSystem Bytes} {jarInput : JarInput}
    (isNamed : getName jarInput.file = "classes.jar".toList)
    {jarEntry : JarEntry} (unsigned : isSignature jarEntry.name = false)
    (found : files.fileAt jarInput.file = some (oneClass jarEntry)) :
    Gives countingTools files jarInput
      (givenEntry countingTools jarInput.file (oneClass jarEntry)
        jarEntry) := by
  obtain ⟨legal, given⟩ := givenEntries_oneClass isNamed unsigned
  refine ⟨oneClass jarEntry, _, found, given, ?_⟩
  rw [givenEntry, if_pos legal]
  exact List.mem_singleton.mpr rfl

/-- Jars of one class whose paths all start otherwise. -/
theorem unmistakable_oneClass {transformInvocation : TransformInvocation}
    {files : FileSystem Bytes} (entryOf : Path → JarEntry)
    (named : ∀ jarInput ∈ transformInvocation.jarInputs,
      getName jarInput.file = "classes.jar".toList)
    (long : ∀ jarInput ∈ transformInvocation.jarInputs,
      LongPath jarInput.file)
    (different : ∀ jarInput ∈ transformInvocation.jarInputs,
      ∀ other ∈ transformInvocation.jarInputs,
        pathStart other.file = pathStart jarInput.file → other = jarInput)
    (unsigned : ∀ file, isSignature (entryOf file).name = false)
    (found : ∀ jarInput ∈ transformInvocation.jarInputs,
      files.fileAt jarInput.file = some (oneClass (entryOf jarInput.file))) :
    Unmistakable countingTools transformInvocation files := by
  intro jarInput inJars content jarEntries isContent entries jarEntry
    inEntries _
  have isFound := found jarInput inJars
  obtain rfl := Option.some.inj (isFound.symm.trans isContent)
  obtain rfl := Option.some.inj
    ((countedValue_countedBytes [entryOf jarInput.file]).symm.trans entries)
  rw [List.mem_singleton.mp inEntries]
  refine ⟨long jarInput inJars, fun other isJar sameStart _ => ?_⟩
  rw [different jarInput inJars other isJar sameStart]
  exact gives_oneClass (named jarInput inJars) (unsigned _) isFound

/-- Two jars of one name whose paths start otherwise are both kept. -/
theorem apartJars_kept :
    KeepsJars countingTools (jarsOnly [firstJar, apartJar])
      (jarBeside apartJar (oneClass firstClass) (oneClass secondClass)) := by
  apply (keepsJars_iff_unmistakable countingTools_reproduce
    (fullBuild_apartJars _ _)).mpr
  have each {holds : JarInput → Prop}
      (first : holds
        ⟨firstJar, {.classes}, {.externalLibraries}, .notChanged⟩)
      (second : holds
        ⟨apartJar, {.classes}, {.externalLibraries}, .notChanged⟩) :
      ∀ jarInput ∈ (jarsOnly [firstJar, apartJar]).jarInputs,
        holds jarInput :=
    List.forall_mem_cons.mpr ⟨first, List.forall_mem_singleton.mpr second⟩
  have apart : pathStart firstJar ≠ pathStart apartJar := by decide
  apply unmistakable_oneClass fun file =>
    if file = firstJar then firstClass else secondClass
  · exact each rfl rfl
  · exact each (by decide) (by decide)
  · refine each ?_ ?_
    · exact each (fun _ => rfl) fun sameStart => absurd sameStart.symm apart
    · exact each (fun sameStart => absurd sameStart apart) fun _ => rfl
  · intro file
    split <;> decide
  · exact each rfl rfl

/-- Two jars of one name whose paths start alike: one of them is lost. -/
theorem alikeJars_lost :
    FullBuild (jarsOnly [firstJar, secondJar])
      (twoJars (oneClass firstClass) (oneClass secondClass)) ∧
    firstJar ≠ secondJar ∧
    ¬ KeepsJars countingTools (jarsOnly [firstJar, secondJar])
      (twoJars (oneClass firstClass) (oneClass secondClass)) := by
  refine ⟨fullBuild_twoJars (by simp) _ _, by decide, ?_⟩
  intro keeps
  have unmistakable := unmistakable_of_keepsJars countingTools_reproduce
    (fullBuild_twoJars (by simp) _ _) keeps
  obtain ⟨legal, _⟩ := @givenEntries_oneClass firstJar rfl firstClass
    (by decide)
  obtain ⟨_, given⟩ := @givenEntries_oneClass secondJar rfl secondClass
    (by decide)
  obtain ⟨_, alike⟩ := unmistakable
    ⟨firstJar, {.classes}, {.externalLibraries}, .notChanged⟩
    List.mem_cons_self _ _ rfl (countedValue_countedBytes _) firstClass
    List.mem_cons_self (by decide)
  obtain ⟨content, others, found, gives, inOthers⟩ := alike
    ⟨secondJar, {.classes}, {.externalLibraries}, .notChanged⟩
    (List.mem_cons_of_mem _ List.mem_cons_self) (by decide) (by decide)
  obtain rfl : oneClass secondClass = content := Option.some.inj found
  rw [given] at gives
  rw [← Option.some.inj gives, List.mem_singleton, givenEntry,
    if_pos legal] at inOthers
  have names := congrArg JarEntry.name inOthers
  exact absurd names (by decide)

end DripStone.BaseTransform
