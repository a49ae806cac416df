import DripStone.Logger.BaseLogger

/-!
# A change-over that fails

The flags are set before the other file is opened.  They name the file that is
written to exactly as long as each change-over gets its new file open.
-/

namespace DripStone.Logger

open DripStone.Library

namespace BaseLogger

/-! ## The law -/

/-- Both flags name the file that is written to. -/
def Designates (logger : BaseLogger) : Prop :=
  ∀ file, logger.mLogRandomAccessFile = some file →
    logger.directory.names (fileName logger.curLogFileFlag) =
        some file.file ∧
      logger.directory.names (fileName logger.preference) = some file.file

/-- The message makes the logger change over to the other file. -/
def ChangesOver (logger : BaseLogger) (msgByte : Bytes) (faults : Faults) :
    Prop :=
  ∃ file, logger.mLogRandomAccessFile = some file ∧
    logger.curWriteTime % 10 = 0 ∧ faults.length = false ∧
      logger.IsFull file msgByte

/-- The flags are as before, and the old file is written to, if any, with
nothing lost in front of the new bytes. -/
structure StaysOn (logger next : BaseLogger) (file : RandomAccessFile) :
    Prop where
  curLogFileFlag : next.curLogFileFlag = logger.curLogFileFlag
  preference : next.preference = logger.preference
  writer : ∀ other, next.mLogRandomAccessFile = some other →
    other.file = file.file
  contents : (next.directory.contents file.file).take file.position =
    (logger.directory.contents file.file).take file.position

/-- What a step has to keep. -/
structure StepLaw (logger : BaseLogger) (event : Event) : Prop where
  designates : (logger.step event).Designates
  stays : ∀ msgByte faults, event = .doWriteDisk msgByte faults →
    logger.ChangesOver msgByte faults → faults.Closed →
      ∀ file, logger.mLogRandomAccessFile = some file →
        logger.StaysOn (logger.step event) file
  notDeleted : ∀ msgByte faults, event = .doWriteDisk msgByte faults →
    ∀ file, logger.mLogRandomAccessFile = some file →
      ∃ name, (logger.step event).directory.names name = some file.file

/-- Each change-over gets its new file open. -/
def OpensOther (logger : BaseLogger) (event : Event) : Prop :=
  ∀ msgByte faults, event = .doWriteDisk msgByte faults →
    logger.ChangesOver msgByte faults → ¬faults.Closed

/-! ## What the parts of a step change -/

section Parts

variable {logger next : BaseLogger} {faults : Faults} {msgByte : Bytes}
variable {file : RandomAccessFile}

/-- The names and the flags stay, and the file that is written to. -/
structure SameFiles (logger next : BaseLogger) : Prop where
  names : next.directory.names = logger.directory.names
  curLogFileFlag : next.curLogFileFlag = logger.curLogFileFlag
  preference : next.preference = logger.preference
  writer : ∀ file, next.mLogRandomAccessFile = some file →
    ∃ old, logger.mLogRandomAccessFile = some old ∧ file.file = old.file

theorem SameFiles.designates (same : SameFiles logger next)
    (designates : logger.Designates) : next.Designates := by
  intro file isFile
  obtain ⟨old, isOld, sameFile⟩ := same.writer file isFile
  rw [same.names, same.curLogFileFlag, same.preference, sameFile]
  exact designates old isOld

/-- Spec lemma: writing a message. -/
theorem sameFiles_append (logger : BaseLogger) (faults : Faults)
    (msgByte : Bytes) : SameFiles logger (logger.append faults msgByte) := by
  cases isFile : logger.mLogRandomAccessFile with
  | none =>
      rw [append, isFile]
      exact ⟨rfl, rfl, rfl, fun file found => ⟨file, found, rfl⟩⟩
  | some file =>
      rw [append, isFile]
      cases first : faults.write with
      | some count => exact ⟨rfl, rfl, rfl, fun file found => by cases found⟩
      | none =>
          cases second : faults.writeBytes with
          | some count =>
              exact ⟨rfl, rfl, rfl, fun file found => by cases found⟩
          | none =>
              refine ⟨rfl, rfl, rfl, fun other found => ⟨file, isFile, ?_⟩⟩
              cases found
              rfl

/-- Spec lemma: a change-over that gets its file open. -/
theorem changeOver_of_open (logger : BaseLogger) {faults : Faults}
    (opens : ¬faults.Closed) :
    (logger.changeOver faults).Designates ∧
      (logger.changeOver faults).directory.names
          (fileName logger.curLogFileFlag) =
        logger.directory.names (fileName logger.curLogFileFlag) := by
  rw [Faults.Closed, not_or, Bool.not_eq_true, Bool.not_eq_true] at opens
  have isOther :
      fileName logger.curLogFileFlag ≠ fileName logger.nextFlag := by
    rw [fileName_nextFlag]
    exact (LogFile.another_ne _).symm
  rw [changeOver, switchLogRandomAccessFile]
  simp only [opens.1, opens.2, Bool.false_eq_true, if_false]
  constructor
  · intro file isFile
    obtain ⟨created, isCreated⟩ := Directory.exists_createNewFile
      (if (logger.directory.names (fileName logger.nextFlag)).isSome ∧
          faults.delete = false then
        logger.directory.delete (fileName logger.nextFlag)
      else logger.directory) (fileName logger.nextFlag)
    simp only [isCreated, Option.map_some, Option.some.injEq] at isFile ⊢
    rw [← isFile]
    exact ⟨rfl, rfl⟩
  · rw [Directory.names_createNewFile_of_ne isOther]
    split
    · exact Directory.names_delete_of_ne isOther
    · rfl

/-- Spec lemma: one that does not. -/
theorem changeOver_of_closed (logger : BaseLogger) {faults : Faults}
    (closed : faults.Closed) :
    (logger.changeOver faults).curLogFileFlag = logger.nextFlag ∧
      (logger.changeOver faults).mLogRandomAccessFile =
        logger.mLogRandomAccessFile := by
  rw [changeOver, switchLogRandomAccessFile]
  rcases closed with creating | opening
  · simp only [creating, if_true, and_self]
  · simp only [opening, if_true]
    split <;> exact ⟨rfl, rfl⟩

/-- Spec lemma: a message, from the file that it is written to. -/
theorem doWriteDisk_cases (logger : BaseLogger) (msgByte : Bytes)
    (faults : Faults) :
    (¬logger.ChangesOver msgByte faults ∧
      SameFiles logger (logger.doWriteDisk faults msgByte)) ∨
    logger.ChangesOver msgByte faults ∧
      SameFiles (logger.changeOver faults)
        (logger.doWriteDisk faults msgByte) := by
  cases isFile : logger.mLogRandomAccessFile with
  | none =>
      refine Or.inl ⟨fun changes => ?_, ?_⟩
      · obtain ⟨file, found, -⟩ := changes
        rw [isFile] at found
        cases found
      · rw [doWriteDisk, isFile]
        exact ⟨rfl, rfl, rfl, fun file found => ⟨file, found, rfl⟩⟩
  | some file =>
      rw [doWriteDisk_of_open isFile]
      by_cases isTime : logger.curWriteTime % 10 = 0
      · rw [if_pos isTime]
        cases isLength : faults.length with
        | true =>
            refine Or.inl ⟨fun changes => ?_, ?_⟩
            · obtain ⟨-, -, -, readable, -⟩ := changes
              rw [isLength] at readable
              cases readable
            · exact ⟨rfl, rfl, rfl, fun file found => by cases found⟩
        | false =>
            by_cases isFull : logger.IsFull file msgByte
            · have appended := sameFiles_append
                { logger.changeOver faults with curWriteTime := 0 } faults
                msgByte
              simp only [isFull, if_true, Bool.false_eq_true, if_false]
              exact Or.inr ⟨⟨file, isFile, isTime, isLength, isFull⟩,
                ⟨appended.names, appended.curLogFileFlag, appended.preference,
                  appended.writer⟩⟩
            · have appended := sameFiles_append
                { logger with curWriteTime := 0 } faults msgByte
              simp only [isFull, Bool.false_eq_true, if_false]
              refine Or.inl ⟨fun changes => ?_,
                ⟨appended.names, appended.curLogFileFlag, appended.preference,
                  appended.writer⟩⟩
              obtain ⟨other, isOther, -, -, full⟩ := changes
              rw [isFile] at isOther
              cases isOther
              exact isFull full
      · rw [if_neg isTime]
        refine Or.inl ⟨fun changes => ?_, sameFiles_append logger faults _⟩
        obtain ⟨-, -, due, -⟩ := changes
        exact isTime due

theorem run_designates (logger : BaseLogger) (faults : Faults) :
    (logger.run faults).Designates := by
  intro file isFile
  rw [run] at isFile ⊢
  split at isFile
  · cases isFile
  · next notFailed =>
      split at isFile
      · cases isFile
      · next opens =>
          rw [if_neg notFailed, if_neg opens]
          obtain ⟨created, isCreated⟩ := logger.directory.exists_createNewFile
            (fileName logger.preference)
          simp only [isCreated, Option.map_some, Option.some.injEq]
            at isFile ⊢
          rw [← isFile]
          exact ⟨rfl, rfl⟩

end Parts

/-! ## The steps and the runs -/

section Runs

variable {logger : BaseLogger} {event : Event}

/-- Step lemma: a step keeps the law exactly if a change-over opens its
file. -/
theorem stepLaw_iff (designates : logger.Designates) :
    logger.StepLaw event ↔ logger.OpensOther event := by
  constructor
  · intro law msgByte faults isEvent changes closed
    subst isEvent
    obtain ⟨file, isFile, -⟩ := id changes
    have stays := law.stays msgByte faults rfl changes closed file isFile
    rcases logger.doWriteDisk_cases msgByte faults with same | same
    · exact same.1 changes
    · refine logger.nextFlag_ne ?_
      rw [← (logger.changeOver_of_closed closed).1, ← same.2.curLogFileFlag]
      exact stays.curLogFileFlag
  · intro opens
    cases event with
    | run faults =>
        refine ⟨logger.run_designates faults, ?_, ?_⟩
        · intro _ _ isEvent
          cases isEvent
        · intro _ _ isEvent
          cases isEvent
    | doWriteDisk msgByte faults =>
        rcases logger.doWriteDisk_cases msgByte faults with same | same
        · refine ⟨same.2.designates designates, ?_, ?_⟩
          · intro _ _ isEvent changes
            cases isEvent
            exact absurd changes same.1
          · intro _ _ isEvent file isFile
            refine ⟨fileName logger.curLogFileFlag, ?_⟩
            rw [step, same.2.names]
            exact (designates file isFile).1
        · have moved :=
            logger.changeOver_of_open (opens msgByte faults rfl same.1)
          refine ⟨same.2.designates moved.1, ?_, ?_⟩
          · intro _ _ isEvent changes closed
            cases isEvent
            exact absurd closed (opens msgByte faults rfl changes)
          · intro _ _ isEvent file isFile
            refine ⟨fileName logger.curLogFileFlag, ?_⟩
            rw [step, same.2.names, moved.2]
            exact (designates file isFile).1

theorem after_concat (logger : BaseLogger) (before : List Event)
    (event : Event) :
    logger.after (before ++ [event]) = (logger.after before).step event := by
  rw [after, List.foldl_append]
  rfl

/-- Run lemma: the flags name the open file. -/
theorem designates_after (designates : logger.Designates) {events : List Event}
    (opens : AtEvery (fun before => (logger.after before).OpensOther) events) :
    (logger.after events).Designates :=
  @AtEvery.induction _ _ (fun events => (logger.after events).Designates) _
    opens designates fun before event here opensEvent => by
      rw [after_concat]
      exact ((stepLaw_iff here).mpr opensEvent).designates

end Runs

/-- Every step of a run keeps the law exactly if each change-over of the run
gets its new file open. -/
theorem law_iff_opensOther {logger : BaseLogger}
    (designates : logger.Designates) (events : List Event) :
    AtEvery (fun before => (logger.after before).StepLaw) events ↔
      AtEvery (fun before => (logger.after before).OpensOther) events :=
  atEvery_congr fun _ _ _ _ opens =>
    stepLaw_iff (designates_after designates opens)

/-- The first message does not fit, and the second file gets open; only
`delete()` fails.  Another message follows. -/
def rolling : List Event :=
  [.run noFaults,
    .doWriteDisk (List.replicate 1048577 0) { noFaults with delete := true },
    .doWriteDisk [0x61] noFaults]

theorem rolling_changes_over :
    AtEvery (fun before => ((installed 0 0).after before).StepLaw) rolling ∧
    ((installed 0 0).after (rolling.take 1)).ChangesOver
      (List.replicate 1048577 0) { noFaults with delete := true } ∧
    ((installed 0 0).after (rolling.take 2)).curLogFileFlag = 1 := by
  have changes : ((installed 0 0).after (rolling.take 1)).ChangesOver
      (List.replicate 1048577 0) { noFaults with delete := true } := by
    refine ⟨⟨0, 0⟩, rfl, rfl, rfl, ?_⟩
    rw [IsFull, List.length_replicate]
    decide
  refine ⟨?_, changes, ?_⟩
  · have closed : (installed 0 0).Designates := by
      intro file found
      cases found
    refine (law_iff_opensOther closed _).mpr ?_
    intro before event rest isSplit msgByte faults isEvent _
    have member : event ∈ rolling := by simp [isSplit]
    subst isEvent
    simp only [rolling, List.mem_cons, List.not_mem_nil, or_false,
      reduceCtorEq, false_or, Event.doWriteDisk.injEq] at member
    rcases member with ⟨-, rfl⟩ | ⟨-, rfl⟩ <;> simp [Faults.Closed, noFaults]
  · have split : rolling.take 2 = rolling.take 1 ++ [.doWriteDisk
        (List.replicate 1048577 0) { noFaults with delete := true }] := rfl
    rw [split, after_concat]
    rcases doWriteDisk_cases _ _ _ with ⟨notFull, -⟩ | ⟨-, same⟩
    · exact absurd changes notFull
    · exact same.curLogFileFlag.trans rfl

/-- The first message does not fit, and the second file cannot be created. -/
def refused : List Event :=
  [.run noFaults,
    .doWriteDisk (List.replicate 1048577 0)
      { noFaults with createNewFile := true }]

theorem refused_changes_flags :
    ¬AtEvery (fun before => ((installed 0 0).after before).StepLaw)
      refused := by
  intro law
  have atMessage := law [.run noFaults] _ [] rfl
  have designates := (installed 0 0).run_designates noFaults
  refine (stepLaw_iff designates).mp atMessage _ _ rfl ?_ (Or.inl rfl)
  refine ⟨⟨0, 0⟩, rfl, rfl, rfl, ?_⟩
  rw [IsFull, List.length_replicate]
  decide

end BaseLogger

end DripStone.Logger
