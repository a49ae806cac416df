import DripStone.Library.FileSystem
import DripStone.Library.Mealy

/-!
# Three extractors

`FileUtils.onUnzip`, `Zip.unZip` of the reinforcement and
`Utils.unZipFolder` go through the entries of an archive and write each one
below a destination.  An exception ends the loop.  What is done for an entry
removes no directory and puts no file in its place.
-/

namespace DripStone.Unzip

open DripStone.Library

abbrev Bytes := List UInt8

@[ext]
structure ZipEntry where
  name : Text
  content : Bytes
deriving DecidableEq, Repr

def ZipEntry.isDirectory (zipEntry : ZipEntry) : Bool :=
  zipEntry.name.getLast? = some '/'

/-! ## Calls of `java.io.File` -/

/-- What a call leaves: the files, the paths it created or overwrote, and
whether it threw. -/
structure Outcome where
  files : FileSystem Bytes
  touched : List Path
  thrown : Bool

/-- A call that did nothing. -/
def Outcome.unchanged (files : FileSystem Bytes) : Outcome :=
  ⟨files, [], false⟩

def Outcome.failed (files : FileSystem Bytes) : Outcome :=
  ⟨files, [], true⟩

/-- The next call, unless one threw. -/
def Outcome.bind (first : Outcome)
    (next : FileSystem Bytes → Outcome) : Outcome :=
  if first.thrown then first
  else
    let second := next first.files
    ⟨second.files, first.touched ++ second.touched, second.thrown⟩

section Calls

variable (workingDirectory : Path) (file : File) (files : FileSystem Bytes)

/-- The place the operating system finds. -/
def place : Option Path :=
  files.resolve (file.start workingDirectory) file.names

def isFound : Bool :=
  match place workingDirectory file files with
  | some path => (files.find path).isSome
  | none => false

/-- `if (!file.exists()) file.mkdirs()`. -/
def mkdirs : Outcome :=
  if isFound workingDirectory file files then .unchanged files
  else
    let path := file.normalized workingDirectory
    ⟨files.mkdirs path, files.made path, false⟩

/-- A write through a new stream on the file. -/
def fileOutputStream (content : Bytes) : Outcome :=
  match place workingDirectory file files with
  | none => .failed files
  | some path =>
      match files.write path content with
      | none => .failed files
      | some written => ⟨written, [path], false⟩

def createNewFile : Outcome :=
  match place workingDirectory file files with
  | none => .failed files
  | some path =>
      if (files.find path).isSome then .unchanged files
      else
        match files.write path [] with
        | none => .failed files
        | some written => ⟨written, [path], false⟩

/-- The directory a file stands in, made when it is missing; a
`NullPointerException` when there is none. -/
def mkdirsOfParent : Outcome :=
  match file.getParentFile with
  | none => .failed files
  | some parent => mkdirs workingDirectory parent files

end Calls

/-- A copying loop: `read` into a buffer, until it has nothing left. -/
def copy (bufferSize : Nat) : Bytes → Nat → Bytes
  | _, 0 => []
  | input, reads + 1 =>
      if input = [] then []
      else
        input.take bufferSize ++ copy bufferSize (input.drop bufferSize) reads

/-- The bytes that a loop copies. -/
def copied (bufferSize : Nat) (input : Bytes) : Bytes :=
  copy bufferSize input (input.length + 1)

theorem copy_eq {bufferSize : Nat} (positive : 0 < bufferSize)
    (input : Bytes) {reads : Nat} (enough : input.length < reads) :
    copy bufferSize input reads = input := by
  induction reads generalizing input with
  | zero => omega
  | succ reads inductionHypothesis =>
      rw [copy]
      by_cases empty : input = []
      · rw [if_pos empty, empty]
      · have some : 0 < input.length := List.length_pos_iff.mpr empty
        rw [if_neg empty, inductionHypothesis, List.take_append_drop]
        rw [List.length_drop]
        omega

@[simp]
theorem copied_eq {bufferSize : Nat} (positive : 0 < bufferSize)
    (input : Bytes) : copied bufferSize input = input :=
  copy_eq positive input (Nat.lt_succ_self _)

/-! ## The loop -/

/-- The files, and whether the loop still runs. -/
structure Extraction where
  files : FileSystem Bytes
  running : Bool

/-- The loop over the entries; its trace is the paths it creates or
overwrites. -/
def loop (body : ZipEntry → FileSystem Bytes → Outcome) :
    Mealy Extraction ZipEntry Path where
  step extraction zipEntry :=
    if extraction.running then
      let outcome := body zipEntry extraction.files
      (⟨outcome.files, !outcome.thrown⟩, outcome.touched)
    else (extraction, [])

/-! ## The extractors -/

inductive Extractor where
  | onUnzip
  | unZip
  | unZipFolder
deriving DecidableEq, Repr

/-- The loop body that `FileUtils.onUnzip` and `Utils.unZipFolder` share. -/
def extractEntry (workingDirectory : Path) (destPath : Text)
    (zipEntry : ZipEntry) (files : FileSystem Bytes) : Outcome :=
  let file := File.ofText (destPath ++ '/' :: zipEntry.name)
  if zipEntry.isDirectory then mkdirs workingDirectory file files
  else
    (mkdirsOfParent workingDirectory file files).bind fun files =>
      (createNewFile workingDirectory file files).bind fun files =>
        fileOutputStream workingDirectory file files
          (copied 1024 zipEntry.content)

/-- The signature files `Zip.unZip` leaves out. -/
def signatureFiles : List Text :=
  ["META-INF/CERT.RSA".toList, "META-INF/CERT.SF".toList,
    "META-INF/MANIFEST.MF".toList]

/-- `Zip.unZip`, at an entry. -/
def unZipEntry (workingDirectory : Path) (dir : File)
    (zipEntry : ZipEntry) (files : FileSystem Bytes) : Outcome :=
  if zipEntry.name ∈ signatureFiles then .unchanged files
  else if zipEntry.isDirectory then .unchanged files
  else
    let file := dir.child zipEntry.name
    (mkdirsOfParent workingDirectory file files).bind fun files =>
      fileOutputStream workingDirectory file files
        (copied 1024 zipEntry.content)

/-- `dir.delete()`: a file or an empty directory, by its own name. -/
def deleteDir (workingDirectory : Path) (dir : File)
    (files : FileSystem Bytes) : FileSystem Bytes :=
  match place workingDirectory dir files with
  | none => files
  | some path =>
      if Plain dir.getName then files.delete path else files

namespace Extractor

def atEntry (workingDirectory : Path) (destination : Text) :
    Extractor → ZipEntry → FileSystem Bytes → Outcome
  | .onUnzip => extractEntry workingDirectory destination
  | .unZip => unZipEntry workingDirectory (File.ofText destination)
  | .unZipFolder => extractEntry workingDirectory destination

/-- What stands in front of the loop. -/
def prepare (workingDirectory : Path) (destination : Text)
    (files : FileSystem Bytes) : Extractor → Outcome
  | .onUnzip => mkdirs workingDirectory (File.ofText destination) files
  | .unZip =>
      .unchanged (deleteDir workingDirectory (File.ofText destination) files)
  | .unZipFolder => .unchanged files

end Extractor

/-! ## What an extraction keeps -/

/-- A call keeps every directory. -/
def Keeps (before after : FileSystem Bytes) : Prop :=
  ∀ path, before.find path = some .directory →
    after.find path = some .directory

theorem Keeps.refl (files : FileSystem Bytes) : Keeps files files :=
  fun _ directory => directory

theorem Keeps.trans {first second third : FileSystem Bytes}
    (keeps : Keeps first second) (later : Keeps second third) :
    Keeps first third :=
  fun path directory => later path (keeps path directory)

theorem keeps_mkdirs (files : FileSystem Bytes) (path : Path) :
    Keeps files (files.mkdirs path) := by
  intro other directory
  rcases files.find_mkdirs_cases path other with kept | ⟨_, missing, _⟩
  · rw [kept, directory]
  · rw [missing] at directory
    exact absurd directory (by simp)

theorem keeps_write {files written : FileSystem Bytes} {path : Path}
    {content : Bytes} (succeeded : files.write path content = some written) :
    Keeps files written := by
  obtain ⟨isOpen, rfl⟩ := FileSystem.write_eq_some_iff.mp succeeded
  intro other directory
  rw [FileSystem.find_put]
  by_cases same : other = path
  · subst same
    exact absurd directory isOpen.2.2.2
  · rw [if_neg same, directory]

section Calls

variable {workingDirectory : Path} {file : File} {files : FileSystem Bytes}

theorem keeps_mkdirs_call :
    Keeps files (mkdirs workingDirectory file files).files := by
  unfold mkdirs
  by_cases found : isFound workingDirectory file files
  · rw [if_pos found]
    exact Keeps.refl files
  · rw [if_neg found]
    exact keeps_mkdirs files _

theorem keeps_mkdirsOfParent :
    Keeps files (mkdirsOfParent workingDirectory file files).files := by
  unfold mkdirsOfParent
  cases file.getParentFile with
  | none => exact Keeps.refl files
  | some parent => exact keeps_mkdirs_call

theorem keeps_fileOutputStream (content : Bytes) :
    Keeps files
      (fileOutputStream workingDirectory file files content).files := by
  unfold fileOutputStream
  cases place workingDirectory file files with
  | none => exact Keeps.refl files
  | some path =>
      dsimp only
      cases succeeded : files.write path content with
      | none => exact Keeps.refl files
      | some written => exact keeps_write succeeded

theorem keeps_createNewFile :
    Keeps files (createNewFile workingDirectory file files).files := by
  unfold createNewFile
  cases place workingDirectory file files with
  | none => exact Keeps.refl files
  | some path =>
      dsimp only
      by_cases found : (files.find path).isSome
      · rw [if_pos found]
        exact Keeps.refl files
      · rw [if_neg found]
        cases succeeded : files.write path [] with
        | none => exact Keeps.refl files
        | some written => exact keeps_write succeeded

theorem keeps_bind {first : Outcome} {next : FileSystem Bytes → Outcome}
    (keeps : Keeps files first.files)
    (later : ∀ files, Keeps files (next files).files) :
    Keeps files (first.bind next).files := by
  unfold Outcome.bind
  by_cases thrown : first.thrown
  · rw [if_pos thrown]
    exact keeps
  · rw [if_neg thrown]
    exact keeps.trans (later first.files)

theorem keeps_atEntry (extractor : Extractor) (destination : Text)
    (zipEntry : ZipEntry) :
    Keeps files (extractor.atEntry workingDirectory destination zipEntry
      files).files := by
  cases extractor with
  | unZip =>
      show Keeps files (unZipEntry _ _ _ _).files
      unfold unZipEntry
      by_cases signature : zipEntry.name ∈ signatureFiles
      · rw [if_pos signature]
        exact Keeps.refl files
      · rw [if_neg signature]
        by_cases directory : zipEntry.isDirectory
        · rw [if_pos directory]
          exact Keeps.refl files
        · rw [if_neg directory]
          exact keeps_bind keeps_mkdirsOfParent fun files =>
            keeps_fileOutputStream _
  | _ =>
      show Keeps files (extractEntry _ _ _ _).files
      unfold extractEntry
      by_cases directory : zipEntry.isDirectory
      · simp only [if_pos directory]
        exact keeps_mkdirs_call
      · simp only [if_neg directory]
        exact keeps_bind keeps_mkdirsOfParent fun files =>
          keeps_bind keeps_createNewFile fun files =>
            keeps_fileOutputStream _

end Calls

end DripStone.Unzip
