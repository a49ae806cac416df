import DripStone.Library.Mealy
import DripStone.Library.Paths

/-!
# `LogMonitor` and `StackSampler`

The main thread prints before and after every message it dispatches.  When the
time between the two is over the threshold, a runnable is posted that lists
the stacks of that time, later and in another thread.
-/

namespace DripStone.BlockCanary

open DripStone.Library

abbrev Millis := Int

def mBlockThresholdMillis : Millis := 5000

def mMaxCount : Nat := 100

/-! ## The samples -/

/-- `LinkedHashMap<Long, String>`, with the samples that it keeps. -/
structure StackMap where
  entries : List (Millis × Text)
  distinct : (entries.map Prod.fst).Nodup
  bounded : entries.length ≤ mMaxCount

namespace StackMap

def empty : StackMap := ⟨[], by simp, by simp⟩

/-- The samples left when there is to be room for one more. -/
def evicted (stackMap : StackMap) : List (Millis × Text) :=
  if stackMap.entries.length = mMaxCount then stackMap.entries.tail
  else stackMap.entries

theorem evicted_sublist (stackMap : StackMap) :
    List.Sublist stackMap.evicted stackMap.entries := by
  rw [evicted]
  by_cases full : stackMap.entries.length = mMaxCount
  · rw [if_pos full]
    exact List.tail_sublist _
  · rw [if_neg full]

theorem length_evicted_lt (stackMap : StackMap) :
    stackMap.evicted.length < mMaxCount := by
  have bounded := stackMap.bounded
  rw [evicted]
  by_cases full : stackMap.entries.length = mMaxCount
  · rw [if_pos full, List.length_tail, full]
    decide
  · rw [if_neg full]
    omega

/-- A value put under a key that is there replaces the one it finds. -/
def putEntry (entries : List (Millis × Text)) (time : Millis)
    (stack : Text) : List (Millis × Text) :=
  if time ∈ entries.map Prod.fst then
    entries.map fun entry => if entry.1 = time then (time, stack) else entry
  else entries ++ [(time, stack)]

theorem keys_putEntry (entries : List (Millis × Text)) (time : Millis)
    (stack : Text) :
    (putEntry entries time stack).map Prod.fst =
      if time ∈ entries.map Prod.fst then entries.map Prod.fst
      else entries.map Prod.fst ++ [time] := by
  rw [putEntry]
  by_cases there : time ∈ entries.map Prod.fst
  · rw [if_pos there, if_pos there, List.map_map]
    apply List.map_congr_left
    intro entry _
    by_cases same : entry.1 = time
    · simp [same]
    · simp [same]
  · rw [if_neg there, if_neg there, List.map_append]
    rfl

/-- `mStackMap` when `mRunnable` has put its stack. -/
def put (stackMap : StackMap) (time : Millis) (stack : Text) : StackMap where
  entries := putEntry stackMap.evicted time stack
  distinct := by
    have distinct := stackMap.distinct.sublist
      (stackMap.evicted_sublist.map Prod.fst)
    rw [keys_putEntry]
    by_cases there : time ∈ stackMap.evicted.map Prod.fst
    · rw [if_pos there]
      exact distinct
    · rw [if_neg there]
      exact List.nodup_append.mpr ⟨distinct, by simp, by
        intro key inKeys other isTime
        rw [List.mem_singleton.mp isTime]
        rintro rfl
        exact there inKeys⟩
  bounded := by
    have room := stackMap.length_evicted_lt
    have length : (putEntry stackMap.evicted time stack).length ≤
        stackMap.evicted.length + 1 := by
      rw [putEntry]
      by_cases there : time ∈ stackMap.evicted.map Prod.fst
      · rw [if_pos there, List.length_map]
        omega
      · rw [if_neg there, List.length_append]
        exact Nat.le_refl _
    omega

end StackMap

structure StackSampler where
  mStackMap : StackMap
  mShouldSample : Bool
  -- `mRunnable` waits in the handler
  posted : Bool

namespace StackSampler

def new : StackSampler := ⟨.empty, false, false⟩

def startDump (sampler : StackSampler) : StackSampler :=
  if sampler.mShouldSample then sampler
  else { sampler with mShouldSample := true, posted := true }

def stopDump (sampler : StackSampler) : StackSampler :=
  if sampler.mShouldSample then
    { sampler with mShouldSample := false, posted := false }
  else sampler

/-- `mRunnable.run()`. -/
def runSample (sampler : StackSampler) (time : Millis) (stack : Text) :
    StackSampler :=
  { sampler with
    mStackMap := sampler.mStackMap.put time stack
    posted := sampler.posted || sampler.mShouldSample }

/-- The samples between two times. -/
def between (stackMap : StackMap) (startTime endTime : Millis) :
    List (Millis × Text) :=
  stackMap.entries.filter fun entry =>
    decide (startTime < entry.1) && decide (entry.1 < endTime)

def separator : Text := ['\r', '\n']

/-- `getStacks`, for one way to format a time. -/
def getStacks (format : Millis → Text) (stackMap : StackMap)
    (startTime endTime : Millis) : List Text :=
  (between stackMap startTime endTime).map fun entry =>
    format entry.1 ++ separator ++ separator ++ entry.2

theorem getStacks_eq_nil_iff (format : Millis → Text) (stackMap : StackMap)
    (startTime endTime : Millis) :
    getStacks format stackMap startTime endTime = [] ↔
      between stackMap startTime endTime = [] := by
  rw [getStacks, List.map_eq_nil_iff]

/-- Nothing lies between two times that do not follow one another. -/
theorem between_eq_nil {stackMap : StackMap} {startTime endTime : Millis}
    (past : endTime ≤ startTime) :
    between stackMap startTime endTime = [] := by
  rw [between, List.filter_eq_nil_iff]
  intro entry _
  simp only [Bool.and_eq_true, decide_eq_true_eq, not_and]
  intro after before
  exact absurd (after.trans (before.trans_le past)) (lt_irrefl _)

end StackSampler

/-! ## The monitor -/

/-- A posted runnable.  It carries the end time only: the start of the
dispatch is here for the laws. -/
structure BlockEvent where
  start : Millis
  endTime : Millis
deriving DecidableEq, Repr

structure LogMonitor where
  mStackSampler : StackSampler
  mPrintingStarted : Bool
  mStartTimestamp : Millis
  -- the runnables in `mLogHandler`
  runnables : List BlockEvent
  -- the one under way, with the start that it read
  underWay : Option (BlockEvent × Millis)

/-- A runnable that is through: the stacks it logged, and the samples there
were when it took them. -/
structure Report where
  block : BlockEvent
  retained : StackMap
  logged : List Text

/-- The steps of the main thread, of the sampler and of the log thread. -/
inductive Action where
  | println (now : Millis)
  | sample (now : Millis) (stack : Text)
  | readStartTimestamp
  | getStacks
deriving DecidableEq, Repr

namespace LogMonitor

def new : LogMonitor := ⟨.new, false, 0, [], none⟩

def isBlock (monitor : LogMonitor) (endTime : Millis) : Bool :=
  endTime - monitor.mStartTimestamp > mBlockThresholdMillis

def notifyBlockEvent (monitor : LogMonitor) (endTime : Millis) : LogMonitor :=
  { monitor with
    runnables :=
      monitor.runnables ++ [⟨monitor.mStartTimestamp, endTime⟩] }

def println (monitor : LogMonitor) (now : Millis) : LogMonitor :=
  if monitor.mPrintingStarted = false then
    { monitor with
      mStartTimestamp := now
      mPrintingStarted := true
      mStackSampler := monitor.mStackSampler.startDump }
  else
    let notified :=
      if monitor.isBlock now then monitor.notifyBlockEvent now else monitor
    { notified with
      mPrintingStarted := false
      mStackSampler := monitor.mStackSampler.stopDump }

def perform (format : Millis → Text) (monitor : LogMonitor) :
    Action → LogMonitor × List Report
  | .println now => (monitor.println now, [])
  | .sample now stack =>
      ({ monitor with
          mStackSampler := monitor.mStackSampler.runSample now stack }, [])
  | .readStartTimestamp =>
      match monitor.underWay, monitor.runnables with
      | none, block :: rest =>
          ({ monitor with
              runnables := rest
              underWay := some (block, monitor.mStartTimestamp) }, [])
      | _, _ => (monitor, [])
  | .getStacks =>
      match monitor.underWay with
      | some (block, startTime) =>
          ({ monitor with underWay := none },
            [⟨block, monitor.mStackSampler.mStackMap,
              StackSampler.getStacks format
                monitor.mStackSampler.mStackMap startTime block.endTime⟩])
      | none => (monitor, [])

end LogMonitor

section Machine

variable (format : Millis → Text)

/-- The monitor under the steps of its threads; its trace is the reports. -/
def machine : Mealy LogMonitor Action Report :=
  ⟨LogMonitor.perform format⟩

def monitorAfter (actions : List Action) : LogMonitor :=
  (machine format).run .new actions

def reportsOf (actions : List Action) : List Report :=
  (machine format).trace .new actions

end Machine

end DripStone.BlockCanary
