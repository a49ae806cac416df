import DripStone.Library.Fallible
import DripStone.Unzip.Extractors

/-!
# `FileUtils.onZip`

The writer goes down the tree by its path texts.  A file is an entry named by
its path from the root of the tree; a directory is one only when it is empty.
-/

namespace DripStone.Unzip

open DripStone.Library

/-- The streams of `java.util.zip`: the bytes of an archive with some entries,
and the entries read back. -/
structure ZipStreams where
  bytes : List ZipEntry → Bytes
  zipEntries : Bytes → List ZipEntry

/-- The streams reproduce names and contents in order. -/
def ZipStreams.Reproduce (streams : ZipStreams) : Prop :=
  ∀ zipEntries, streams.zipEntries (streams.bytes zipEntries) = zipEntries

inductive Failure where
  | fileNotFoundException
  | nullPointerException
  | zipException
  | stackOverflowError
  | ioException
deriving DecidableEq, Repr

section Writer

variable (workingDirectory : Path) (files : FileSystem Bytes)

/-- `onZipFiles`: the entries put for a file; the first argument bounds the
depth of the recursion. -/
def onZipFiles : Nat → Text → Text → Except Failure (List ZipEntry)
  | 0, _, _ => .error .stackOverflowError
  | depth + 1, folderString, fileString =>
      let file := File.ofText (folderString ++ fileString)
      match place workingDirectory file files with
      | none => .error .nullPointerException
      | some path =>
          match files.find path with
          | none => .error .nullPointerException
          | some (.file content) =>
              .ok [⟨fileString, copied 4096 content⟩]
          | some .directory =>
              let fileList := files.list path
              let own : List ZipEntry :=
                if fileList = [] then [⟨fileString ++ ['/'], []⟩] else []
              (fileList.mapM fun element =>
                onZipFiles depth folderString
                  (fileString ++ '/' :: element)).map
                fun below => own ++ below.flatten

/-- `file.getParent()`, as it is concatenated. -/
def getParent (file : File) : Text :=
  match file.getParentFile with
  | some parent => parent.getPath
  | none => "null".toList

/-- The stream of an archive; a second entry of one name is refused. -/
def zipOutputStream (streams : ZipStreams) (zipEntries : List ZipEntry) :
    Except Failure Bytes :=
  if (zipEntries.map ZipEntry.name).Nodup then
    .ok (streams.bytes zipEntries)
  else .error .zipException

/-- A new stream on a file, and what is written to it. -/
def writeArchive (zipFile : File) (content : Bytes) :
    Except Failure (FileSystem Bytes) :=
  match place workingDirectory zipFile files with
  | none => .error .fileNotFoundException
  | some path =>
      match files.write path content with
      | none => .error .fileNotFoundException
      | some written => .ok written

end Writer

/-- `onZip`.  The archive is open, and empty, while the tree is read. -/
def onZip (streams : ZipStreams) (workingDirectory : Path)
    (srcFileString zipFileString : Text) (files : FileSystem Bytes) :
    Except Failure (FileSystem Bytes) := do
  let zipFile := File.ofText zipFileString
  let opened ← writeArchive workingDirectory files zipFile []
  let file := File.ofText srcFileString
  let zipEntries ← onZipFiles workingDirectory opened (opened.height + 1)
    (getParent file ++ ['/']) file.getName
  let bytes ← zipOutputStream streams zipEntries
  writeArchive workingDirectory opened zipFile bytes

/-- `onUnzip`: the destination, then the archive. -/
def onUnzip (streams : ZipStreams) (workingDirectory : Path)
    (zipFilePath destPath : Text) (files : FileSystem Bytes) :
    Except Failure (FileSystem Bytes) :=
  let prepared :=
    (Extractor.onUnzip.prepare workingDirectory destPath files).files
  match (place workingDirectory (File.ofText zipFilePath) prepared).bind
      prepared.find with
  | some (.file content) =>
      let extraction :=
        (loop (Extractor.onUnzip.atEntry workingDirectory destPath)).run
          ⟨prepared, true⟩ (streams.zipEntries content)
      if extraction.running then .ok extraction.files
      else .error .ioException
  | _ => .error .fileNotFoundException

end DripStone.Unzip
