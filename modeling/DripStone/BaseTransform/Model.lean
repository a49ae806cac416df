import DripStone.BaseTransform.Names
import DripStone.Library.Action
import DripStone.Library.FileTrees

/-!
# `BaseTransform`

A transform submits one task for each jar and for each directory of its
inputs and then invokes all the tasks it has.  A task goes through to its end
or throws; the order in which the pool takes the tasks is not fixed.

How a class is modified and how jars are read and written is left to the
parameters `Tools`.
-/

namespace DripStone.BaseTransform

open DripStone.Library

/-! ## Inputs and outputs -/

inductive Status where
  | notChanged
  | added
  | changed
  | removed
deriving DecidableEq, Repr

inductive Format where
  | jar
  | directory
deriving DecidableEq, Repr

inductive ContentType where
  | classes
  | resources
deriving DecidableEq, Repr

inductive Scope where
  | project
  | subProjects
  | externalLibraries
deriving DecidableEq, Repr

/-- The output of one transform: a directory, and a name in it for each
content. -/
structure TransformOutputProvider where
  root : Path
  leaf : Text → Finset ContentType → Finset Scope → Format → Name
  root_plain : ∀ name ∈ root, Plain name
  leaf_plain : ∀ name types scopes format,
    Plain (leaf name types scopes format)
  leaf_injective : ∀ name types scopes format name' types' scopes' format',
    leaf name types scopes format = leaf name' types' scopes' format' →
      name = name' ∧ types = types' ∧ scopes = scopes' ∧ format = format'

structure JarInput where
  file : Path
  contentTypes : Finset ContentType
  scopes : Finset Scope
  status : Status

/-- A directory; the map of its changed files has its files as keys. -/
structure DirectoryInput where
  name : Text
  file : Path
  contentTypes : Finset ContentType
  scopes : Finset Scope
  changedFiles : List (Path × Status)
  changedFiles_below : ∀ entry ∈ changedFiles, file <+: entry.1
  changedFiles_nodup : (changedFiles.map Prod.fst).Nodup

structure TransformInput where
  jarInputs : List JarInput
  directoryInputs : List DirectoryInput

structure Context where
  temporaryDir : Path

structure TransformInvocation where
  inputs : List TransformInput
  outputProvider : TransformOutputProvider
  context : Context
  isIncremental : Bool

structure JarEntry where
  name : Text
  content : Bytes
deriving DecidableEq, Repr

def JarEntry.isDirectory (jarEntry : JarEntry) : Bool :=
  endsWith jarEntry.name ['/']

/-- `modifyClass` of the subclass, and the jar streams: the entries of a jar,
when it is one, and the bytes of a jar with some entries. -/
structure Tools where
  modifyClass : Bytes → Bytes
  jarEntries : Bytes → Option (List JarEntry)
  jarBytes : List JarEntry → Bytes

def TransformOutputProvider.getContentLocation
    (outputProvider : TransformOutputProvider) (name : Text)
    (types : Finset ContentType) (scopes : Finset Scope)
    (format : Format) : Path :=
  outputProvider.root ++ [outputProvider.leaf name types scopes format]

/-! ## Calls on files -/

abbrev Call := Action Failure (FileSystem Bytes)

def fileExists (file : Path) : Call Bool := do
  return ((← get).find file).isSome

def isFile (file : Path) : Call Bool := do
  return ((← get).fileAt file).isSome

def delete (file : Path) : Call Unit :=
  modify fun files => files.delete file

/-- `FileUtils.forceDelete`, of what exists. -/
def forceDelete (file : Path) : Call Unit :=
  modify fun files => files.removeTree file

/-- `FileUtils.forceMkdir`. -/
def forceMkdir (directory : Path) : Call Unit := do
  modify fun files => files.mkdirs directory
  unless (← get).find directory = some .directory do
    throw .ioException

/-- All bytes of a new `FileInputStream`. -/
def readFile (file : Path) : Call Bytes := do
  match (← get).fileAt file with
  | some content => return content
  | none => throw .fileNotFoundException

/-- A new `FileOutputStream`, and what is written to it. -/
def writeFile (file : Path) (content : Bytes) : Call Unit := do
  match (← get).write file content with
  | some written => set written
  | none => throw .fileNotFoundException

def createNewFile (file : Path) : Call Unit := do
  unless ← fileExists file do
    writeFile file []

/-- `if (file.exists()) file.delete()`. -/
def deleteIfExists (file : Path) : Call Unit := do
  if ← fileExists file then
    delete file

def forceDeleteIfExists (file : Path) : Call Unit := do
  if ← fileExists file then
    forceDelete file

/-- `FileUtils.copyFile`. -/
def copyFile (source destination : Path) : Call Unit := do
  let content ← readFile source
  if source = destination then
    throw .ioException
  modify fun files => files.mkdirs destination.dropLast
  writeFile destination content

/-! ## Jars -/

section Tasks

variable (tools : Tools)

def modifiedBytes (jarEntry : JarEntry) : Bytes :=
  if jarEntry.isDirectory || !isLegalClass jarEntry.name then
    jarEntry.content
  else tools.modifyClass jarEntry.content

def isSignature (jarEntryName : Text) : Bool :=
  endsWith jarEntryName ".DSA".toList || endsWith jarEntryName ".SF".toList

/-- The loop over the entries of a jar: what it has written when it ends, and
the exception that ended it. -/
def putEntries (written : List JarEntry) :
    List JarEntry → List JarEntry × Option Failure
  | [] => (written, none)
  | jarEntry :: rest =>
      if isSignature jarEntry.name then putEntries written rest
      else if (written.map JarEntry.name).contains jarEntry.name then
        (written, some .zipException)
      else
        putEntries
          (written ++ [⟨jarEntry.name, modifiedBytes tools jarEntry⟩]) rest

def modifyJar (jarFile temporaryDir : Path) : Call Path := do
  let name ← Action.ofExcept (generateJarFileName jarFile)
  let tempOutputJarFile := temporaryDir ++ [name]
  deleteIfExists tempOutputJarFile
  writeFile tempOutputJarFile []
  let content ← readFile jarFile
  match tools.jarEntries content with
  | none => throw .zipException
  | some jarEntries =>
      let loop := putEntries tools [] jarEntries
      -- the stream is closed whether the loop threw or not
      writeFile tempOutputJarFile (tools.jarBytes loop.1)
      match loop.2 with
      | some failure => throw failure
      | none => return tempOutputJarFile

/-- `ClassUtils.isLegalJar(file)`. -/
def isLegalJarFile (file : Path) : Call Bool := do
  match (← get).fileAt file with
  | some content => return isLegalJar file content
  | none => return false

def replaceJar (jarInput : JarInput) (destFile : Path) (context : Context) :
    Call Unit := do
  forceDeleteIfExists destFile
  let modifiedJar ←
    if ← isLegalJarFile jarInput.file then
      modifyJar tools jarInput.file context.temporaryDir
    else pure jarInput.file
  copyFile modifiedJar destFile

def forEachJar (jarInput : JarInput)
    (outputProvider : TransformOutputProvider) (context : Context)
    (isIncremental : Bool) : Call Unit := do
  let name ← Action.ofExcept (generateJarFileName jarInput.file)
  let destFile := outputProvider.getContentLocation name
    jarInput.contentTypes jarInput.scopes .jar
  match isIncremental, jarInput.status with
  | true, .removed => forceDeleteIfExists destFile
  -- an unchanged jar is replaced too
  | _, _ => replaceJar tools jarInput destFile context

/-! ## Directories -/

/-- The modified class in the temporary directory. -/
def modifyClass (classFile temporaryDir : Path) : Call Path := do
  let byteArray ← readFile classFile
  let modifiedByteArray := tools.modifyClass byteArray
  let name ← Action.ofExcept (generateClassFileName classFile)
  let modifiedFile := temporaryDir ++ [name]
  deleteIfExists modifiedFile
  createNewFile modifiedFile
  writeFile modifiedFile modifiedByteArray
  return modifiedFile

/-- `File(classFile.absolutePath.replace(srcDirPath, destDirPath))`. -/
def destFileOf (classFile : Path) (srcDirPath destDirPath : Text) : Path :=
  namesOf (replace (absolutePath classFile) srcDirPath destDirPath)

def modifyClassFile (classFile : Path) (srcDirPath destDirPath : Text)
    (temporaryDir : Path) : Call Unit := do
  let destFile := destFileOf classFile srcDirPath destDirPath
  deleteIfExists destFile
  if (← isFile classFile) && isLegalClass (getName classFile) then
    let modified ← modifyClass tools classFile temporaryDir
    copyFile modified destFile
    delete modified
  else copyFile classFile destFile

/-- The body of the loop over the changed files. -/
def changeClassFile (srcDirPath destDirPath : Text) (temporaryDir : Path)
    (mutableEntry : Path × Status) : Call Unit :=
  match mutableEntry.2 with
  | .notChanged => pure ()
  | .removed =>
      deleteIfExists (destFileOf mutableEntry.1 srcDirPath destDirPath)
  | .added | .changed =>
      modifyClassFile tools mutableEntry.1 srcDirPath destDirPath temporaryDir

def forEachDirectory (directoryInput : DirectoryInput)
    (outputProvider : TransformOutputProvider) (context : Context)
    (isIncremental : Bool) : Call Unit := do
  let dest := outputProvider.getContentLocation directoryInput.name
    directoryInput.contentTypes directoryInput.scopes .directory
  let srcDirPath := absolutePath directoryInput.file
  let destDirPath := absolutePath dest
  forceMkdir dest
  if isIncremental then
    forM directoryInput.changedFiles
      (changeClassFile tools srcDirPath destDirPath context.temporaryDir)
  else
    let files ← get
    forM ((files.walkTopDown directoryInput.file).filter fun file =>
        (files.fileAt file).isSome) fun classFile =>
      modifyClassFile tools classFile srcDirPath destDirPath
        context.temporaryDir

end Tasks

/-! ## The transform -/

/-- A submitted closure with what it captured. -/
inductive Task where
  | jar (jarInput : JarInput) (outputProvider : TransformOutputProvider)
      (context : Context) (isIncremental : Bool)
  | directory (directoryInput : DirectoryInput)
      (outputProvider : TransformOutputProvider) (context : Context)
      (isIncremental : Bool)

def Task.call (tools : Tools) : Task → Call Unit
  | .jar jarInput outputProvider context isIncremental =>
      forEachJar tools jarInput outputProvider context isIncremental
  | .directory directoryInput outputProvider context isIncremental =>
      forEachDirectory tools directoryInput outputProvider context
        isIncremental

/-- The transform's own state. -/
structure Instance where
  taskList : List Task

/-- A transform just created. -/
def Instance.fresh : Instance :=
  ⟨[]⟩

def TransformInvocation.jarTask (transformInvocation : TransformInvocation)
    (jarInput : JarInput) : Task :=
  .jar jarInput transformInvocation.outputProvider
    transformInvocation.context transformInvocation.isIncremental

def TransformInvocation.directoryTask
    (transformInvocation : TransformInvocation)
    (directoryInput : DirectoryInput) : Task :=
  .directory directoryInput transformInvocation.outputProvider
    transformInvocation.context transformInvocation.isIncremental

/-- The tasks that one invocation submits. -/
def TransformInvocation.tasks (transformInvocation : TransformInvocation) :
    List Task :=
  transformInvocation.inputs.flatMap fun input =>
    input.jarInputs.map transformInvocation.jarTask ++
      input.directoryInputs.map transformInvocation.directoryTask

/-- The list of tasks is never cleared. -/
def Instance.submit (transform : Instance)
    (transformInvocation : TransformInvocation) : Instance :=
  ⟨transform.taskList ++ transformInvocation.tasks⟩

/-- `deleteAll`: the output directory, empty. -/
def TransformOutputProvider.deleteAll
    (outputProvider : TransformOutputProvider) (files : FileSystem Bytes) :
    FileSystem Bytes :=
  (files.removeTree outputProvider.root).mkdirs outputProvider.root

/-- The files when the tasks start. -/
def TransformInvocation.prepare (transformInvocation : TransformInvocation)
    (files : FileSystem Bytes) : FileSystem Bytes :=
  if transformInvocation.isIncremental then files
  else transformInvocation.outputProvider.deleteAll files

def isError {α : Type} :
    EStateM.Result Failure (FileSystem Bytes) α → Bool
  | .ok _ _ => false
  | .error _ _ => true

/-- What a transform leaves: the files, and whether one of its tasks threw,
which it then does too. -/
structure Outcome where
  files : FileSystem Bytes
  thrown : Bool

/-- The tasks taken in an order; one that throws does not keep the others
from running. -/
def invokeAll (tools : Tools) (order : List Task) (files : FileSystem Bytes) :
    Outcome :=
  order.foldl (fun outcome task =>
      ⟨(task.call tools).after outcome.files,
        outcome.thrown || isError (task.call tools outcome.files)⟩)
    ⟨files, false⟩

/-- `transform`: what an invocation may leave. -/
def Transforms (tools : Tools) (transform : Instance)
    (transformInvocation : TransformInvocation) (files : FileSystem Bytes)
    (outcome : Outcome) : Prop :=
  ∃ order : List Task,
    order.Perm (transform.submit transformInvocation).taskList ∧
      outcome = invokeAll tools order (transformInvocation.prepare files)

end DripStone.BaseTransform
