import DripStone.Library.RollingLog
import DripStone.Logger.BaseLogger

/-!
# The rolling files

As long as no call on a file fails, the two files are those of a rolling log:
whole records in their order, bounded sizes, and a change-over removes only
the records of the other file.
-/

namespace DripStone.Logger

open DripStone.Library

/-! ## Runs without failures -/

inductive Input where
  | restart
  | message (msgByte : Bytes)
deriving DecidableEq, Repr

def Input.event : Input → Event
  | .restart => .run noFaults
  | .message msgByte => .doWriteDisk msgByte noFaults

/-- The messages in their order. -/
def written (inputs : List Input) : List Bytes :=
  inputs.filterMap fun
    | .restart => none
    | .message msgByte => some msgByte

/-- The bytes of a record, with the end of its line. -/
def line (msgByte : Bytes) : Bytes :=
  msgByte ++ [0x0d, 0x0a]

def lines (messages : List Bytes) : Bytes :=
  messages.flatMap line

/-- The logger on a device without log files, and a first process. -/
def launched (maxFileSize preference : Int) : BaseLogger :=
  (installed maxFileSize preference).run noFaults

def BaseLogger.afterInputs (logger : BaseLogger) (inputs : List Input) :
    BaseLogger :=
  logger.after (inputs.map Input.event)

/-- The file that is not written to. -/
def BaseLogger.otherBytes (logger : BaseLogger) : Bytes :=
  logger.directory.bytesOf (fileName logger.curLogFileFlag).another

def BaseLogger.currentBytes (logger : BaseLogger) : Bytes :=
  logger.directory.bytesOf (fileName logger.curLogFileFlag)

/-! ## The law -/

/-- The files hold the last of the records, and no file is larger than
`most`. -/
structure Holds (most : Nat) (logger : BaseLogger) (log : RollingLog Bytes)
    (records : List Bytes) : Prop where
  other : logger.otherBytes = lines log.other
  current : logger.currentBytes = lines log.current
  suffix : log.other ++ log.current <:+ records
  other_le : logger.otherBytes.length ≤ most
  current_le : logger.currentBytes.length ≤ most

/-- No record is removed but by a change-over, which removes those of the
other file. -/
def MovesBy (before after : RollingLog Bytes) : Input → Prop
  | .restart => after.other = before.other ∧ after.current = before.current
  | .message msgByte => RollingLog.Moves msgByte before after

/-! ## The rolling log of the logger -/

def rolling (limit : Nat) (log : RollingLog Bytes) : Input → RollingLog Bytes
  | .restart => log.restart
  | .message msgByte => log.write List.length 2 limit 10 msgByte

theorem rolling_movesBy (limit : Nat) (log : RollingLog Bytes)
    (input : Input) : MovesBy log (rolling limit log input) input := by
  cases input with
  | restart => exact ⟨rfl, rfl⟩
  | message msgByte => exact RollingLog.write_moves msgByte log

/-- The state of the logger and its files, in terms of records. -/
structure Represents (logger : BaseLogger) (log : RollingLog Bytes) :
    Prop where
  open_ : ∃ file, logger.mLogRandomAccessFile =
      some ⟨file, (logger.directory.contents file).length⟩ ∧
    logger.directory.names (fileName logger.curLogFileFlag) = some file ∧
      logger.directory.names (fileName logger.curLogFileFlag).another ≠
        some file
  preference : logger.preference = logger.curLogFileFlag
  known : ∀ name file, logger.directory.names name = some file →
    file < logger.directory.created
  other : logger.otherBytes = lines log.other
  current : logger.currentBytes = lines log.current
  writes : logger.curWriteTime = log.writes

theorem length_lines (messages : List Bytes) :
    (lines messages).length = RollingLog.total List.length 2 messages := by
  rw [lines, List.length_flatMap, RollingLog.total]
  congr 1
  apply List.map_congr_left
  intro message _
  rw [line, List.length_append]
  rfl

theorem lines_concat (messages : List Bytes) (msgByte : Bytes) :
    lines (messages ++ [msgByte]) = lines messages ++ line msgByte := by
  rw [lines, List.flatMap_append, lines, List.flatMap_singleton]

section Append

variable {logger : BaseLogger} {file : Nat}

theorem overwrite_at_end (dest src : Bytes) :
    overwrite dest dest.length src = dest ++ src := by
  rw [overwrite, List.take_length, List.drop_eq_nil_iff.mpr (by omega),
    List.append_nil]

/-- Spec lemma: a message is written behind the end of the open file. -/
theorem append_noFaults
    (isOpen : logger.mLogRandomAccessFile =
      some ⟨file, (logger.directory.contents file).length⟩)
    (msgByte : Bytes) :
    logger.append noFaults msgByte =
      { logger with
        directory := { logger.directory with
          contents := Function.update logger.directory.contents file
            (logger.directory.contents file ++ line msgByte) }
        mLogRandomAccessFile := some ⟨file,
          (logger.directory.contents file ++ line msgByte).length⟩
        curWriteTime := logger.curWriteTime + 1 } := by
  have first : overwrite (logger.directory.contents file)
      (logger.directory.contents file).length msgByte =
        logger.directory.contents file ++ msgByte :=
    overwrite_at_end _ _
  have second : overwrite (logger.directory.contents file ++ msgByte)
      ((logger.directory.contents file).length + msgByte.length)
        [0x0d, 0x0a] =
        logger.directory.contents file ++ msgByte ++ [0x0d, 0x0a] := by
    rw [← List.length_append]
    exact overwrite_at_end _ _
  rw [BaseLogger.append, isOpen]
  simp only [BaseLogger.writeTo, noFaults, Option.isSome_none,
    Directory.write, first, Function.update_self, second,
    Function.update_idem, line, List.append_assoc, List.length_append,
    Nat.add_assoc]

end Append

/-! ## The steps -/

section Steps

variable {logger : BaseLogger} {log : RollingLog Bytes}

theorem Represents.append (represents : Represents logger log)
    (msgByte : Bytes) :
    Represents (logger.append noFaults msgByte)
      ⟨log.other, log.current ++ [msgByte], log.writes + 1⟩ := by
  obtain ⟨file, isOpen, isCurrent, apart⟩ := represents.open_
  have current := represents.current
  rw [BaseLogger.currentBytes, Directory.bytesOf_of_some isCurrent] at current
  rw [append_noFaults isOpen]
  refine ⟨⟨file, ?_, isCurrent, apart⟩, represents.preference,
    represents.known, ?_, ?_, congrArg (· + 1) represents.writes⟩
  · simp only [Function.update_self]
  · rw [← represents.other]
    refine Directory.bytesOf_congr rfl fun inode isOther => ?_
    have differs : inode ≠ file := by
      intro same
      rw [same] at isOther
      exact apart isOther
    exact Function.update_of_ne differs ..
  · rw [lines_concat, ← current]
    simp only [BaseLogger.currentBytes, Directory.bytesOf, isCurrent,
      Function.update_self]

/-- The directory without a file of this name. -/
theorem exists_emptied (directory : Directory) (name : LogFile) :
    ∃ emptied : Directory,
      (if (directory.names name).isSome ∧ noFaults.delete = false then
        directory.delete name
      else directory) = emptied ∧
      emptied.createNewFile name =
        { names := Function.update directory.names name
            (some directory.created)
          contents := Function.update directory.contents directory.created []
          created := directory.created + 1 } := by
  by_cases present : (directory.names name).isSome
  · rw [if_pos ⟨present, rfl⟩]
    refine ⟨_, rfl, ?_⟩
    have gone : (directory.delete name).names name = none :=
      Function.update_self ..
    rw [Directory.createNewFile, gone, Directory.delete]
    simp only [Function.update_idem]
  · rw [if_neg fun both => present both.1]
    refine ⟨_, rfl, ?_⟩
    rw [Directory.createNewFile, Option.not_isSome_iff_eq_none.mp present]

/-- The other file is deleted and made anew. -/
theorem changeOver_noFaults (logger : BaseLogger) :
    logger.changeOver noFaults =
      { logger with
        directory :=
          { names := Function.update logger.directory.names
              (fileName logger.nextFlag) (some logger.directory.created)
            contents := Function.update logger.directory.contents
              logger.directory.created []
            created := logger.directory.created + 1 }
        preference := logger.nextFlag
        curLogFileFlag := logger.nextFlag
        mLogRandomAccessFile := some ⟨logger.directory.created, 0⟩ } := by
  obtain ⟨emptied, isEmptied, created⟩ :=
    exists_emptied logger.directory (fileName logger.nextFlag)
  rw [BaseLogger.changeOver, BaseLogger.switchLogRandomAccessFile]
  simp only [isEmptied, created, Function.update_self, Option.map_some]
  rfl

theorem Represents.changeOver (represents : Represents logger log) :
    Represents (logger.changeOver noFaults)
      ⟨log.current, [], log.writes⟩ := by
  obtain ⟨file, -, isCurrent, -⟩ := represents.open_
  have old := represents.known _ _ isCurrent
  have back : (fileName logger.nextFlag).another =
      fileName logger.curLogFileFlag := by
    rw [logger.fileName_nextFlag]
    cases fileName logger.curLogFileFlag <;> rfl
  have isOther :
      fileName logger.curLogFileFlag ≠ fileName logger.nextFlag := by
    rw [logger.fileName_nextFlag]
    exact (LogFile.another_ne _).symm
  have kept : Function.update logger.directory.names
      (fileName logger.nextFlag) (some logger.directory.created)
        (fileName logger.nextFlag).another =
          logger.directory.names (fileName logger.curLogFileFlag) := by
    rw [back, Function.update_of_ne isOther]
  rw [changeOver_noFaults]
  refine ⟨⟨logger.directory.created, ?_, Function.update_self .., ?_⟩, rfl, ?_,
    ?_, ?_, represents.writes⟩
  · simp only [Function.update_self, List.length_nil]
  · intro same
    have isFile := kept.symm.trans same
    rw [isCurrent] at isFile
    exact old.ne (Option.some.inj isFile)
  · intro name inode found
    have updated : Function.update logger.directory.names
        (fileName logger.nextFlag) (some logger.directory.created) name =
          some inode := found
    by_cases isName : name = fileName logger.nextFlag
    · rw [isName, Function.update_self] at updated
      cases updated
      exact Nat.lt_succ_self _
    · rw [Function.update_of_ne isName] at updated
      exact Nat.lt_succ_of_lt (represents.known name inode updated)
  · have isOld := kept.trans isCurrent
    rw [← represents.current, BaseLogger.currentBytes,
      Directory.bytesOf_of_some isCurrent]
    exact (Directory.bytesOf_of_some isOld).trans
      (Function.update_of_ne old.ne ..)
  · exact (Directory.bytesOf_of_some (Function.update_self ..)).trans
      (Function.update_self ..)

theorem Represents.restart (represents : Represents logger log) :
    Represents (logger.run noFaults) log.restart := by
  obtain ⟨file, isOpen, isCurrent, apart⟩ := represents.open_
  have present : ¬((logger.directory.names
      (fileName logger.curLogFileFlag)).isNone ∧
        noFaults.createNewFile = true) := by
    rw [isCurrent]
    exact fun both => absurd both.1 Bool.false_ne_true
  have same : logger.directory.createNewFile
      (fileName logger.curLogFileFlag) = logger.directory := by
    rw [Directory.createNewFile, isCurrent]
  have started : logger.run noFaults =
      { logger with
        curLogFileFlag := logger.curLogFileFlag
        curWriteTime := 0
        mLogRandomAccessFile :=
          some ⟨file, (logger.directory.contents file).length⟩ } := by
    rw [BaseLogger.run, represents.preference, if_neg present]
    simp only [same, isCurrent, Option.map_some]
    rfl
  rw [started]
  exact ⟨⟨file, rfl, isCurrent, apart⟩, represents.preference,
    represents.known, represents.other, represents.current, rfl⟩

theorem represents_launched (maxFileSize preference : Int) :
    Represents (launched maxFileSize preference) .empty := by
  have isOther := LogFile.another_ne (fileName preference)
  have started : launched maxFileSize preference =
      { installed maxFileSize preference with
        directory := ⟨Function.update (fun _ => none) (fileName preference)
          (some 0), Function.update (fun _ => []) 0 [], 1⟩
        curLogFileFlag := preference
        mLogRandomAccessFile := some ⟨0, 0⟩ } := by
    have opened : Directory.empty.createNewFile (fileName preference) =
        ⟨Function.update (fun _ => none) (fileName preference) (some 0),
          Function.update (fun _ => []) 0 [], 1⟩ := rfl
    rw [launched, BaseLogger.run, installed]
    simp only [opened, Function.update_self, Option.map_some]
    rfl
  rw [started]
  refine ⟨⟨0, ?_, ?_, ?_⟩, rfl, ?_, ?_, ?_, rfl⟩
  · simp only [Function.update_self, List.length_nil]
  · simp only [Function.update_self]
  · simp only [Function.update_of_ne isOther, ne_eq, reduceCtorEq,
      not_false_eq_true]
  · intro name file found
    have updated : Function.update (fun _ => none) (fileName preference)
        (some 0) name = some file := found
    by_cases isName : name = fileName preference
    · rw [isName, Function.update_self] at updated
      cases updated
      exact Nat.lt_succ_self _
    · rw [Function.update_of_ne isName] at updated
      cases updated
  · have absent : Function.update (fun _ => none) (fileName preference)
        (some 0) (fileName preference).another = none :=
      Function.update_of_ne isOther ..
    rw [BaseLogger.otherBytes, Directory.bytesOf]
    simp only [absent]
    rfl
  · simp only [BaseLogger.currentBytes, Directory.bytesOf,
      Function.update_self]
    rfl

/-- Spec lemma: the size is looked at. -/
theorem Represents.checked (represents : Represents logger log)
    (msgByte : Bytes) :
    Represents
      { (if logger.mMaxFileSize.toNat <
            RollingLog.total List.length 2 log.current + msgByte.length then
          logger.changeOver noFaults else logger) with curWriteTime := 0 }
      (if logger.mMaxFileSize.toNat <
          RollingLog.total List.length 2 log.current + msgByte.length then
        ⟨log.current, [], 0⟩ else ⟨log.other, log.current, 0⟩) := by
  split
  · have changed := represents.changeOver
    exact ⟨changed.open_, changed.preference, changed.known, changed.other,
      changed.current, rfl⟩
  · exact ⟨represents.open_, represents.preference, represents.known,
      represents.other, represents.current, rfl⟩

/-- Step lemma: the files follow the rolling log. -/
theorem Represents.doWriteDisk (represents : Represents logger log)
    (positive : 0 ≤ logger.mMaxFileSize) (msgByte : Bytes) :
    Represents (logger.doWriteDisk noFaults msgByte)
      (log.write List.length 2 logger.mMaxFileSize.toNat 10 msgByte) := by
  obtain ⟨file, isOpen, isCurrent, -⟩ := represents.open_
  have size : (logger.directory.contents file).length =
      RollingLog.total List.length 2 log.current := by
    rw [← length_lines, ← represents.current, BaseLogger.currentBytes,
      Directory.bytesOf_of_some isCurrent]
  have isFull : logger.IsFull
      ⟨file, (logger.directory.contents file).length⟩ msgByte ↔
        logger.mMaxFileSize.toNat <
          RollingLog.total List.length 2 log.current + msgByte.length := by
    rw [BaseLogger.IsFull, size]
    omega
  rw [BaseLogger.doWriteDisk_of_open isOpen, RollingLog.write,
    represents.writes]
  split
  · have lengthOk : ¬noFaults.length = true := Bool.false_ne_true
    rw [if_neg lengthOk]
    simp only [isFull]
    have next := represents.checked msgByte
    split at next
    · next tooLarge =>
        rw [if_pos tooLarge, if_pos tooLarge]
        exact next.append msgByte
    · next fits =>
        rw [if_neg fits, if_neg fits]
        exact next.append msgByte
  · exact represents.append msgByte

theorem mMaxFileSize_append (logger : BaseLogger) (msgByte : Bytes) :
    (logger.append noFaults msgByte).mMaxFileSize = logger.mMaxFileSize := by
  rw [BaseLogger.append]
  split
  · rfl
  · rfl

theorem mMaxFileSize_step (logger : BaseLogger) (input : Input) :
    (logger.step input.event).mMaxFileSize = logger.mMaxFileSize := by
  cases input with
  | restart =>
      rw [Input.event, BaseLogger.step, BaseLogger.run]
      split
      · rfl
      · rfl
  | message msgByte =>
      rw [Input.event, BaseLogger.step, BaseLogger.doWriteDisk]
      split
      · rfl
      · split
        · simp only [noFaults, Bool.false_eq_true, if_false]
          rw [← noFaults, mMaxFileSize_append]
          split
          · rw [changeOver_noFaults]
          · rfl
        · exact mMaxFileSize_append logger msgByte

end Steps

/-! ## Whole runs -/

section Runs

/-- The largest size of a file, for messages of at most `largest` bytes. -/
def mostBytes (maxFileSize : Int) (largest : Nat) : Nat :=
  max (max maxFileSize 1048576).toNat largest + 2 + 9 * (largest + 2)

variable {maxFileSize preference : Int} {largest : Nat}

/-- The records of both files after each number of inputs. -/
def logAfter (maxFileSize : Int) (inputs : List Input) : RollingLog Bytes :=
  inputs.foldl (rolling (max maxFileSize 1048576).toNat) .empty

theorem logAfter_concat (before : List Input) (input : Input) :
    logAfter maxFileSize (before ++ [input]) =
      rolling (max maxFileSize 1048576).toNat (logAfter maxFileSize before)
        input := by
  rw [logAfter, List.foldl_concat, logAfter]

theorem BaseLogger.afterInputs_concat (logger : BaseLogger)
    (before : List Input) (input : Input) :
    logger.afterInputs (before ++ [input]) =
      (logger.afterInputs before).step input.event := by
  rw [afterInputs, List.map_append, after, List.foldl_append]
  rfl

theorem written_concat (before : List Input) (input : Input) :
    written (before ++ [input]) = written before ++ written [input] := by
  rw [written, List.filterMap_append, written, written]

theorem mMaxFileSize_afterInputs (inputs : List Input) :
    ((launched maxFileSize preference).afterInputs inputs).mMaxFileSize =
      max maxFileSize 1048576 := by
  induction inputs using List.reverseRecOn with
  | nil =>
      have set : (launched maxFileSize preference).mMaxFileSize =
          if maxFileSize < 1048576 then 1048576 else maxFileSize := rfl
      rw [BaseLogger.afterInputs, List.map_nil, BaseLogger.after,
        List.foldl_nil, set]
      split <;> omega
  | append_singleton before input inductionHypothesis =>
      rw [BaseLogger.afterInputs_concat, mMaxFileSize_step,
        inductionHypothesis]

/-- Run lemma: the files follow the rolling log. -/
theorem represents_afterInputs (maxFileSize preference : Int)
    (inputs : List Input) :
    Represents ((launched maxFileSize preference).afterInputs inputs)
      (logAfter maxFileSize inputs) := by
  induction inputs using List.reverseRecOn with
  | nil => exact represents_launched maxFileSize preference
  | append_singleton before input inductionHypothesis =>
      rw [BaseLogger.afterInputs_concat, logAfter_concat]
      cases input with
      | restart => exact inductionHypothesis.restart
      | message msgByte =>
          have size := @mMaxFileSize_afterInputs maxFileSize preference before
          rw [rolling, ← size]
          exact inductionHypothesis.doWriteDisk (by omega) msgByte

theorem suffix_logAfter (inputs : List Input) :
    (logAfter maxFileSize inputs).other ++
      (logAfter maxFileSize inputs).current <:+ written inputs := by
  induction inputs using List.reverseRecOn with
  | nil => exact List.suffix_refl _
  | append_singleton before input inductionHypothesis =>
      rw [written_concat, logAfter_concat]
      have moves := rolling_movesBy (max maxFileSize 1048576).toNat
        (logAfter maxFileSize before) input
      cases input with
      | restart =>
          rw [moves.1, moves.2]
          have none : written [Input.restart] = [] := rfl
          rw [none, List.append_nil]
          exact inductionHypothesis
      | message msgByte => exact moves.isSuffix inductionHypothesis

theorem bounded_logAfter (inputs : List Input)
    (small : ∀ msgByte, .message msgByte ∈ inputs →
      msgByte.length ≤ largest) :
    (logAfter maxFileSize inputs).Bounded List.length 2
      (max maxFileSize 1048576).toNat 10 largest := by
  induction inputs using List.reverseRecOn with
  | nil => exact RollingLog.bounded_empty
  | append_singleton before input inductionHypothesis =>
      have bounded := inductionHypothesis fun msgByte isInput =>
        small msgByte (List.mem_append_left _ isInput)
      rw [logAfter_concat]
      cases input with
      | restart => exact bounded.restart
      | message msgByte =>
          exact bounded.write (by omega) (small msgByte (by simp))

theorem holds_afterInputs (preference : Int) (inputs : List Input)
    (small : ∀ msgByte, .message msgByte ∈ inputs →
      msgByte.length ≤ largest) :
    Holds (mostBytes maxFileSize largest)
      ((launched maxFileSize preference).afterInputs inputs)
      (logAfter maxFileSize inputs) (written inputs) := by
  have represents := represents_afterInputs maxFileSize preference inputs
  have bounded : (logAfter maxFileSize inputs).Bounded _ _ _ _ _ :=
    bounded_logAfter inputs small
  refine ⟨represents.other, represents.current, suffix_logAfter inputs,
    ?_, ?_⟩
  · rw [represents.other, length_lines]
    exact bounded.other
  · rw [represents.current, length_lines]
    exact bounded.current

/-- In every run without failures the files have bounded sizes and hold the
last records, and only a change-over removes records. -/
theorem rolls (maxFileSize preference : Int) (largest : Nat)
    (inputs : List Input)
    (small : ∀ msgByte, .message msgByte ∈ inputs →
      msgByte.length ≤ largest) :
    ∃ logs : List Input → RollingLog Bytes,
      (∀ before, before <+: inputs →
        Holds (mostBytes maxFileSize largest)
          ((launched maxFileSize preference).afterInputs before)
          (logs before) (written before)) ∧
      ∀ before input, before ++ [input] <+: inputs →
        MovesBy (logs before) (logs (before ++ [input])) input := by
  refine ⟨logAfter maxFileSize, fun before isBefore => ?_,
    fun before input _ => ?_⟩
  · exact holds_afterInputs preference before fun msgByte isInput =>
      small msgByte (isBefore.subset isInput)
  · rw [logAfter_concat]
    exact rolling_movesBy _ _ input

theorem rolls_restarted :
    ∃ logs : List Input → RollingLog Bytes,
      (∀ before, before <+: [.message [1], .restart, .message [2]] →
        Holds (mostBytes 0 1) ((launched 0 0).afterInputs before)
          (logs before) (written before)) ∧
      ∀ before input,
        before ++ [input] <+: [.message [1], .restart, .message [2]] →
          MovesBy (logs before) (logs (before ++ [input])) input :=
  rolls 0 0 1 [.message [1], .restart, .message [2]] fun msgByte isInput => by
    simp only [List.mem_cons, Input.message.injEq, reduceCtorEq,
      List.not_mem_nil, or_false, false_or] at isInput
    rcases isInput with rfl | rfl <;> decide

end Runs

end DripStone.Logger
