import DripStone.Library.ListParts
import DripStone.Library.Mealy

/-!
# `BaseLogger`

The thread of the logger writes each message to one of two files and changes
over to the other file when the current one has become too large.  Every call
on a file may fail.  The lengths of the files are taken to be far below
`2 ^ 63`.
-/

namespace DripStone.Logger

open DripStone.Library

abbrev Bytes := List UInt8

/-! ## Files -/

inductive LogFile where
  | log1
  | log2
deriving DecidableEq, Repr

def LogFile.another : LogFile → LogFile
  | .log1 => .log2
  | .log2 => .log1

theorem LogFile.another_ne (name : LogFile) : name.another ≠ name := by
  cases name <;> decide

/-- `curLogFileFlag == 0 ? FIRST_FILE_NAME : SECOND_FILE_NAME` -/
def fileName (curLogFileFlag : Int) : LogFile :=
  if curLogFileFlag = 0 then .log1 else .log2

/-- The names in the directory and the contents of all files, also of those
that have been deleted. -/
structure Directory where
  names : LogFile → Option Nat
  contents : Nat → Bytes
  created : Nat

namespace Directory

def empty : Directory :=
  ⟨fun _ => none, fun _ => [], 0⟩

variable (directory : Directory)

def delete (name : LogFile) : Directory :=
  { directory with names := Function.update directory.names name none }

def createNewFile (name : LogFile) : Directory :=
  match directory.names name with
  | some _ => directory
  | none =>
      { names := Function.update directory.names name
          (some directory.created)
        contents := Function.update directory.contents directory.created []
        created := directory.created + 1 }

def write (file position : Nat) (bytes : Bytes) : Directory :=
  { directory with
    contents := Function.update directory.contents file
      (overwrite (directory.contents file) position bytes) }

/-- The bytes under a name. -/
def bytesOf (name : LogFile) : Bytes :=
  match directory.names name with
  | none => []
  | some file => directory.contents file

variable {directory : Directory} {name other : LogFile}

theorem exists_createNewFile (directory : Directory) (name : LogFile) :
    ∃ file, (directory.createNewFile name).names name = some file := by
  rw [createNewFile]
  split
  · next file found => exact ⟨file, found⟩
  · exact ⟨directory.created, Function.update_self ..⟩

theorem names_createNewFile_of_ne (isOther : other ≠ name) :
    (directory.createNewFile name).names other = directory.names other := by
  rw [createNewFile]
  split
  · rfl
  · exact Function.update_of_ne isOther ..

theorem names_delete_of_ne (isOther : other ≠ name) :
    (directory.delete name).names other = directory.names other :=
  Function.update_of_ne isOther ..

theorem bytesOf_of_some {file : Nat}
    (found : directory.names name = some file) :
    directory.bytesOf name = directory.contents file := by
  rw [bytesOf, found]

theorem bytesOf_congr {next : Directory}
    (sameName : next.names name = directory.names name)
    (sameContents : ∀ file, directory.names name = some file →
      next.contents file = directory.contents file) :
    next.bytesOf name = directory.bytesOf name := by
  rw [bytesOf, bytesOf, sameName]
  split
  · rfl
  · next file found => exact sameContents file found

end Directory

/-- A `RandomAccessFile`. -/
structure RandomAccessFile where
  file : Nat
  position : Nat
deriving DecidableEq, Repr

/-- The calls that fail while a message is written or the thread is
started.  A `write` that fails has written some of its bytes. -/
structure Faults where
  length : Bool
  delete : Bool
  createNewFile : Bool
  randomAccessFile : Bool
  write : Option Nat
  writeBytes : Option Nat
deriving DecidableEq, Repr

def noFaults : Faults :=
  ⟨false, false, false, false, none, none⟩

/-- A file cannot be created or opened. -/
def Faults.Closed (faults : Faults) : Prop :=
  faults.createNewFile = true ∨ faults.randomAccessFile = true

/-! ## The logger -/

structure BaseLogger where
  mMaxFileSize : Int
  directory : Directory
  -- the value for `SP_KEY_CUR_LOG_FILE_FLAG`
  preference : Int
  curLogFileFlag : Int
  curWriteTime : Nat
  mLogRandomAccessFile : Option RandomAccessFile

/-- `init`, on a device without log files. -/
def installed (maxFileSize preference : Int) : BaseLogger where
  mMaxFileSize := if maxFileSize < 1048576 then 1048576 else maxFileSize
  directory := .empty
  preference := preference
  curLogFileFlag := 0
  curWriteTime := 0
  mLogRandomAccessFile := none

namespace BaseLogger

variable (logger : BaseLogger) (faults : Faults)

/-- `RandomAccessFile.write`, and whether it throws. -/
def writeTo (file : RandomAccessFile) (bytes : Bytes)
    (failsAfter : Option Nat) : BaseLogger × Bool :=
  let written := match failsAfter with
    | none => bytes
    | some count => bytes.take count
  ({ logger with
      directory := logger.directory.write file.file file.position written
      mLogRandomAccessFile :=
        some { file with position := file.position + written.length } },
    failsAfter.isSome)

/-- The `catch` block of `doWriteDisk`. -/
def giveUp : BaseLogger :=
  { logger with mLogRandomAccessFile := none }

/-- The last three statements of `doWriteDisk`. -/
def append (msgByte : Bytes) : BaseLogger :=
  match logger.mLogRandomAccessFile with
  | none => logger
  | some file =>
      match logger.writeTo file msgByte faults.write with
      | (next, true) => next.giveUp
      | (next, false) =>
          match next.mLogRandomAccessFile with
          | none => next
          | some file =>
              match next.writeTo file [0x0d, 0x0a] faults.writeBytes with
              | (last, true) => last.giveUp
              | (last, false) =>
                  { last with curWriteTime := last.curWriteTime + 1 }

def switchLogRandomAccessFile (name : LogFile) : BaseLogger :=
  let directory :=
    if (logger.directory.names name).isSome ∧ faults.delete = false then
      logger.directory.delete name
    else logger.directory
  if faults.createNewFile then { logger with directory }
  else
    let directory := directory.createNewFile name
    if faults.randomAccessFile then { logger with directory }
    else
      { logger with
        directory
        mLogRandomAccessFile :=
          (directory.names name).map fun file => ⟨file, 0⟩ }

/-- `curLogFileFlag == 0 ? 1 : 0` -/
def nextFlag : Int :=
  if logger.curLogFileFlag = 0 then 1 else 0

theorem fileName_nextFlag :
    fileName logger.nextFlag = (fileName logger.curLogFileFlag).another := by
  rw [nextFlag]
  by_cases isFirst : logger.curLogFileFlag = 0
  · rw [if_pos isFirst, isFirst]
    rfl
  · rw [if_neg isFirst, fileName, if_pos rfl, fileName, if_neg isFirst]
    rfl

theorem nextFlag_ne : logger.nextFlag ≠ logger.curLogFileFlag := by
  rw [nextFlag]
  split <;> omega

/-- The three statements under `//切换文件`. -/
def changeOver : BaseLogger :=
  let flipped := { logger with curLogFileFlag := logger.nextFlag }
  let changed := flipped.switchLogRandomAccessFile faults
    (fileName logger.nextFlag)
  { changed with preference := logger.nextFlag }

/-- The size of the current file is looked at and is too large. -/
def IsFull (file : RandomAccessFile) (msgByte : Bytes) : Prop :=
  logger.mMaxFileSize <
    (logger.directory.contents file.file).length + msgByte.length

instance (file : RandomAccessFile) (msgByte : Bytes) :
    Decidable (logger.IsFull file msgByte) :=
  inferInstanceAs (Decidable (_ < _))

/-- `doWriteDisk`, for a message as the bytes of its UTF-8 form. -/
def doWriteDisk (msgByte : Bytes) : BaseLogger :=
  match logger.mLogRandomAccessFile with
  | none => logger
  | some file =>
      if logger.curWriteTime % 10 = 0 then
        if faults.length then logger.giveUp
        else
          let checked :=
            if logger.IsFull file msgByte then logger.changeOver faults
            else logger
          { checked with curWriteTime := 0 }.append faults msgByte
      else logger.append faults msgByte

theorem doWriteDisk_of_open {logger : BaseLogger} {file : RandomAccessFile}
    (isFile : logger.mLogRandomAccessFile = some file) (faults : Faults)
    (msgByte : Bytes) :
    logger.doWriteDisk faults msgByte =
      if logger.curWriteTime % 10 = 0 then
        if faults.length then logger.giveUp
        else
          { (if logger.IsFull file msgByte then logger.changeOver faults
              else logger) with curWriteTime := 0 }.append faults msgByte
      else logger.append faults msgByte := by
  rw [doWriteDisk, isFile]

/-- A new process, up to the loop of `LoggerTaskThread.run`. -/
def run : BaseLogger :=
  let name := fileName logger.preference
  let started := { logger with
    curLogFileFlag := logger.preference
    curWriteTime := 0
    mLogRandomAccessFile := none }
  if (logger.directory.names name).isNone ∧ faults.createNewFile = true then
    started
  else
    let directory := logger.directory.createNewFile name
    if faults.randomAccessFile then { started with directory }
    else
      { started with
        directory
        mLogRandomAccessFile := (directory.names name).map fun file =>
          -- `seek(length())`
          ⟨file, if faults.length then 0
            else (directory.contents file).length⟩ }

end BaseLogger

/-! ## Runs -/

inductive Event where
  | run (faults : Faults)
  | doWriteDisk (msgByte : Bytes) (faults : Faults)
deriving DecidableEq, Repr

def BaseLogger.step (logger : BaseLogger) : Event → BaseLogger
  | .run faults => logger.run faults
  | .doWriteDisk msgByte faults => logger.doWriteDisk faults msgByte

def BaseLogger.after (logger : BaseLogger) (events : List Event) :
    BaseLogger :=
  events.foldl BaseLogger.step logger

end DripStone.Logger
