import DripStone.Library.IntLoop
import DripStone.Reinforce.Rename
import DripStone.Unzip.Unpacked

/-!
# The reinforcement pipeline

`DexReinforce.main` unpacks an application below a directory, encrypts and
renames the dex files at its top, puts the dex file of the shell beside them
and packs the directory again.  The steps hand on nothing but that directory.
-/

namespace DripStone.Reinforce

open DripStone.Library DripStone.Unzip

inductive Thrown where
  | failure (failure : Unzip.Failure)
  | negativeArraySizeException
  | stringIndexOutOfBoundsException
  | runtimeException (message : String)
deriving DecidableEq, Repr

/-- The streams, the cipher and the programs that the pipeline calls, and
whether `renameTo` replaces a file in its way. -/
structure Platform where
  streams : ZipStreams
  encrypt : Bytes → Bytes
  dx : Bytes → Bytes
  jarsigner : Bytes → Bytes
  replaces : Bool

/-- The order in which directories are listed. -/
structure ListingOrder where
  names : FileSystem Bytes → Path → List Name
  perm : ∀ files path, (names files path).Perm (files.list path)

/-! ## Calls of `java.io` -/

section Calls

variable (order : ListingOrder) (workingDirectory : Path)

/-- What is found at a file. -/
def entryOf (file : File) (files : FileSystem Bytes) : Option (Entry Bytes) :=
  (place workingDirectory file files).bind files.find

/-- `listFiles`, without a value where there is no directory. -/
def listFiles (dir : File) (files : FileSystem Bytes) :
    Option (List File) :=
  match place workingDirectory dir files with
  | none => none
  | some path =>
      if files.find path = some .directory then
        some ((order.names files path).map dir.child)
      else none

/-- `if (file.isFile()) file.delete()` -/
def deleteFile (files : FileSystem Bytes) (file : File) : FileSystem Bytes :=
  match place workingDirectory file files with
  | none => files
  | some path =>
      match files.find path with
      | some (.file _) => files.delete path
      | _ => files

/-- A new stream on a file, and what is written to it. -/
def writeFile (file : File) (content : Bytes) (files : FileSystem Bytes) :
    Except Thrown (FileSystem Bytes) :=
  (writeArchive workingDirectory files file content).mapError .failure

/-- A call that can throw an `IOException`. -/
def resultOf (outcome : Outcome) : Except Thrown (FileSystem Bytes) :=
  if outcome.thrown then .error (.failure .ioException)
  else .ok outcome.files

/-- `file.renameTo(target)` for a file. -/
def renameTo (replaces : Bool) (file target : File)
    (files : FileSystem Bytes) : FileSystem Bytes :=
  match place workingDirectory file files,
      place workingDirectory target files with
  | some path, some targetPath => files.renameFile replaces path targetPath
  | _, _ => files

/-- `new byte[(int) fis.length()]`, filled from the file. -/
def readFully (content : Bytes) : Except Thrown Bytes :=
  let length := wrapInt content.length
  if length < 0 then .error .negativeArraySizeException
  else .ok (content.take length.toNat)

/-- `Utils.getBytes` -/
def getBytes (dexFile : File) (files : FileSystem Bytes) :
    Except Thrown Bytes :=
  match entryOf workingDirectory dexFile files with
  | some (.file content) => readFully content
  | _ => .error (.failure .fileNotFoundException)

end Calls

/-! ## The steps -/

section Steps

variable (platform : Platform) (order : ListingOrder)
variable (workingDirectory : Path)

/-- The files at the top of a directory are deleted. -/
def deleteFiles (temp : File) (files : FileSystem Bytes) :
    Except Thrown (FileSystem Bytes) :=
  if isFound workingDirectory temp files then
    match listFiles order workingDirectory temp files with
    | none => .error (.failure .nullPointerException)
    | some listed => .ok (listed.foldl (deleteFile workingDirectory) files)
  else .ok files

/-- The loop body of `AES.encryptAPKFile`. -/
def encryptDex (state : FileSystem Bytes × Option File) (dexFile : File) :
    Except Thrown (FileSystem Bytes × Option File) := do
  let buffer ← getBytes workingDirectory dexFile state.1
  let encryptBytes := platform.encrypt buffer
  let mainDexFile :=
    if classesDex.isSuffixOf dexFile.getName then some dexFile else state.2
  let written ← writeFile workingDirectory dexFile encryptBytes state.1
  pure (written, mainDexFile)

/-- `AES.encryptAPKFile` -/
def encryptAPKFile (srcAPKfile : File) (dstApkFile : Text)
    (files : FileSystem Bytes) :
    Except Thrown (FileSystem Bytes × Option File) :=
  let unzipped :=
    unZip platform.streams workingDirectory srcAPKfile dstApkFile files
  match listFiles order workingDirectory (File.ofText dstApkFile)
      unzipped with
  | none => .error (.failure .nullPointerException)
  | some listed =>
      (listed.filter fun file => endsWithDex file.getName).foldlM
        (encryptDex platform workingDirectory) (unzipped, none)

/-- The loop body that renames a dex file. -/
def renameDexFile (files : FileSystem Bytes) (file : File) :
    Except Thrown (FileSystem Bytes) :=
  match entryOf workingDirectory file files with
  | some (.file _) =>
      if endsWithDex file.getName then
        match newName file.getName with
        | none => .error .stringIndexOutOfBoundsException
        | some name =>
            .ok (renameTo workingDirectory platform.replaces file
              (File.ofText (getParent file ++ '/' :: name)) files)
      else .ok files
  | _ => .ok files

def renameDexFiles (newApkFile : File) (files : FileSystem Bytes) :
    Except Thrown (FileSystem Bytes) :=
  match listFiles order workingDirectory newApkFile files with
  | none => .ok files
  | some listed => listed.foldlM (renameDexFile platform workingDirectory) files

/-- `Dx.dxCommand`: the program reads the jar and writes the dex file. -/
def dxCommand (aarDex classes_jar : File) (files : FileSystem Bytes) :
    Except Thrown (FileSystem Bytes) :=
  match entryOf workingDirectory classes_jar files with
  | some (.file content) =>
      match writeArchive workingDirectory files aarDex
          (platform.dx content) with
      | .ok written => .ok written
      | .error _ => .error (.runtimeException "dx run failed")
  | _ => .error (.runtimeException "dx run failed")

/-- `aarFile.getParent() + File.separator + "temp"` -/
def fakeDexOf (aarFile : File) : Text :=
  getParent aarFile ++ '/' :: "temp".toList

/-- `Dx.jar2Dex` -/
def jar2Dex (aarFile : File) (files : FileSystem Bytes) :
    Except Thrown (FileSystem Bytes × File) :=
  let fakeDex := fakeDexOf aarFile
  let unzipped :=
    unZip platform.streams workingDirectory aarFile fakeDex files
  let accepted :=
    (listFiles order workingDirectory (File.ofText fakeDex) unzipped).map
      (List.filter fun file => file.getName = "classes.jar".toList)
  match accepted with
  | some (classes_jar :: _) =>
      let aarDex :=
        match classes_jar.getParentFile with
        | some parent => parent.child classesDex
        | none => File.ofText classesDex
      (dxCommand platform workingDirectory aarDex classes_jar unzipped).map
        (·, aarDex)
  | _ => .error (.runtimeException "the aar is invalidate")

/-- `Signature.signature`: the program reads one archive and writes the
other. -/
def signature (unsignedApk signedApk : File) (files : FileSystem Bytes) :
    Except Thrown (FileSystem Bytes) :=
  match entryOf workingDirectory unsignedApk files with
  | some (.file content) =>
      match writeArchive workingDirectory files signedApk
          (platform.jarsigner content) with
      | .ok written => .ok written
      | .error _ => .error (.runtimeException "签名执行失败")
  | _ => .error (.runtimeException "签名执行失败")

end Steps

/-! ## `DexReinforce.main` -/

def tempFileApk : File := File.ofText "security/source/apk/temp".toList

def tempFileAar : File := File.ofText "security/source/aar/temp".toList

def apkFile : File :=
  File.ofText "security/source/apk/app-release.apk".toList

/-- The pathname of `newApkFile`. -/
def newApkFile : Text := getParent apkFile ++ '/' :: "temp".toList

def aarFile : File := File.ofText "security/source/aar/shell.aar".toList

def tempMainDex : File :=
  File.ofText ((File.ofText newApkFile).getPath ++ '/' :: classesDex)

def unsignedApk : File :=
  File.ofText "security/result/apk-unsigned.apk".toList

def signedApk : File := File.ofText "security/result/apk-signed.apk".toList

section Main

variable (platform : Platform) (order : ListingOrder)
variable (workingDirectory : Path)

/-- The shell's dex file is put beside those of the application. -/
def addShellDex (aarDex : File) (files : FileSystem Bytes) :
    Except Thrown (FileSystem Bytes) := do
  let created ← resultOf (createNewFile workingDirectory tempMainDex files)
  let opened ← writeFile workingDirectory tempMainDex [] created
  let fbytes ← getBytes workingDirectory aarDex opened
  writeFile workingDirectory tempMainDex fbytes opened

def main (files : FileSystem Bytes) : Except Thrown (FileSystem Bytes) := do
  let files ← deleteFiles order workingDirectory tempFileApk files
  let files ← deleteFiles order workingDirectory tempFileAar files
  let files := (mkdirs workingDirectory (File.ofText newApkFile) files).files
  let (files, _) ←
    encryptAPKFile platform order workingDirectory apkFile newApkFile files
  let files ←
    renameDexFiles platform order workingDirectory (File.ofText newApkFile)
      files
  let (files, aarDex) ← jar2Dex platform order workingDirectory aarFile files
  let files ← addShellDex workingDirectory aarDex files
  let files ← resultOf (mkdirsOfParent workingDirectory unsignedApk files)
  let files ←
    (zip platform.streams workingDirectory (File.ofText newApkFile)
      unsignedApk files).mapError .failure
  signature platform workingDirectory unsignedApk signedApk files

end Main

end DripStone.Reinforce
