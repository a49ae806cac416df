import DripStone.Library.Mealy

/-!
# The throttle of a speed-limited body

Both wrappers count the bytes of a window that began with a read or a write.
A window that has lasted at most a second and holds enough bytes ends with a
sleep for the rest of the second; the count starts again from zero.
-/

namespace DripStone.SpeedLimit

open DripStone.Library

/-- `cacheTotalBytesRead` or `cacheTotalBytesWritten`, and `cacheStartTime`,
which is zero between the windows. -/
structure Throttle where
  cacheTotalBytes : Int
  cacheStartTime : Int
deriving DecidableEq, Repr

/-- A sleep at the end of a window, with the count that is then reset. -/
structure Pause where
  sleep : Int
  cacheTotalBytes : Int
deriving DecidableEq, Repr

namespace Throttle

def new : Throttle := ⟨0, 0⟩

/-- What stands in front of the call of the delegate. -/
def begin_ (throttle : Throttle) (uptimeMillis : Int) : Throttle :=
  if throttle.cacheStartTime = 0 then
    { throttle with cacheStartTime := uptimeMillis }
  else throttle

/-- What stands behind it. -/
def count (mSpeedByte : Int) (throttle : Throttle) (byteCount : Nat)
    (uptimeMillis : Int) : Throttle × Option Pause :=
  let cacheTotalBytes := throttle.cacheTotalBytes + byteCount
  let costTime := uptimeMillis - throttle.cacheStartTime
  if costTime ≤ 1000 ∧ mSpeedByte ≤ cacheTotalBytes then
    (new, some ⟨1000 - costTime, cacheTotalBytes⟩)
  else ({ throttle with cacheTotalBytes }, none)

end Throttle

/-! ## `SpeedLimitResponseBody` -/

/-- One call of `read`: what the delegate answers, and the clock when the call
begins, when the delegate has answered and when the call returns. -/
structure Read where
  bytesRead : Option Nat
  few : ∀ byteCount ∈ bytesRead, 0 < byteCount ∧ byteCount ≤ 1024
  began : Int
  answered : Int
  returned : Int

/-- The bytes that a call delivers. -/
def Read.delivered (read : Read) : Nat :=
  read.bytesRead.getD 0

/-- `read` -/
def Throttle.read (mSpeedByte : Int) (throttle : Throttle) (read : Read) :
    Throttle × Option Pause :=
  let begun := throttle.begin_ read.began
  match read.bytesRead with
  | none => (begun, none)
  | some bytesRead => begun.count mSpeedByte bytesRead read.answered

/-- The source under calls. -/
def responseMachine (mSpeedByte : Int) : Mealy Throttle Read Pause :=
  ⟨fun throttle read =>
    ((throttle.read mSpeedByte read).1,
      (throttle.read mSpeedByte read).2.toList)⟩

section Runs

variable (mSpeedByte : Int)

def throttleAfter (reads : List Read) : Throttle :=
  (responseMachine mSpeedByte).run .new reads

def pausesOf (reads : List Read) : List Pause :=
  (responseMachine mSpeedByte).trace .new reads

/-- The throttle while the delegate is asked. -/
def throttleAt (before : List Read) (read : Read) : Throttle :=
  (throttleAfter mSpeedByte before).begin_ read.began

def pauseOf (before : List Read) (read : Read) : Option Pause :=
  ((throttleAfter mSpeedByte before).read mSpeedByte read).2

def delivered (reads : List Read) : Nat :=
  (reads.map Read.delivered).sum

/-- When the first call began. -/
def firstBegan (reads : List Read) : Int :=
  (reads.head?.map Read.began).getD 0

/-- The bytes beyond the limit in the windows that have ended. -/
def surplus (reads : List Read) : Int :=
  ((pausesOf mSpeedByte reads).map fun pause =>
    pause.cacheTotalBytes - mSpeedByte).sum

/-! ## The law and the condition -/

/-- The clock starts positive and never goes back, and a sleep lasts at least
as long as asked. -/
structure Timely (before : List Read) (read : Read) : Prop where
  positive : 0 < read.began
  later : ∀ last ∈ before.getLast?, last.returned ≤ read.began
  answers : read.began ≤ read.answered
  returns : read.answered ≤ read.returned
  sleeps : ∀ pause ∈ pauseOf mSpeedByte before read,
    read.answered + pause.sleep ≤ read.returned

/-- `mSpeedByte * (T / 1000 + 1) + 1024`, times a thousand, bounds the bytes
delivered when a call returns. -/
def Throttled (before : List Read) (read : Read) : Prop :=
  1000 * (delivered (before ++ [read]) : Int) ≤
    mSpeedByte *
        (read.returned - firstBegan (before ++ [read]) + 1000) +
      1024 * 1000

/-- Bytes come within a second of the beginning of the window, and the windows
that have ended held at most 1024 bytes too many together. -/
structure Orderly (before : List Read) (read : Read) : Prop where
  inWindow : read.bytesRead ≠ none →
    read.answered -
      (throttleAt mSpeedByte before read).cacheStartTime ≤ 1000
  full : surplus mSpeedByte (before ++ [read]) ≤ 1024

instance (before : List Read) (read : Read) :
    Decidable (Timely mSpeedByte before read) :=
  decidable_of_iff
    (0 < read.began ∧ (∀ last ∈ before.getLast?, last.returned ≤ read.began) ∧
      read.began ≤ read.answered ∧ read.answered ≤ read.returned ∧
      ∀ pause ∈ pauseOf mSpeedByte before read,
        read.answered + pause.sleep ≤ read.returned)
    ⟨fun ⟨positive, later, answers, returns, sleeps⟩ =>
        ⟨positive, later, answers, returns, sleeps⟩,
      fun timely => ⟨timely.positive, timely.later, timely.answers,
        timely.returns, timely.sleeps⟩⟩

instance (before : List Read) (read : Read) :
    Decidable (Throttled mSpeedByte before read) :=
  inferInstanceAs (Decidable (_ ≤ _))

instance (before : List Read) (read : Read) :
    Decidable (Orderly mSpeedByte before read) :=
  decidable_of_iff
    ((read.bytesRead ≠ none → read.answered -
        (throttleAt mSpeedByte before read).cacheStartTime ≤ 1000) ∧
      surplus mSpeedByte (before ++ [read]) ≤ 1024)
    ⟨fun ⟨inWindow, full⟩ => ⟨inWindow, full⟩,
      fun orderly => ⟨orderly.inWindow, orderly.full⟩⟩

end Runs

/-! ## One call -/

section Step

variable {mSpeedByte : Int} {before : List Read} {read : Read}

theorem delivered_concat (before : List Read) (read : Read) :
    delivered (before ++ [read]) = delivered before + read.delivered := by
  simp [delivered]

theorem throttleAfter_concat (before : List Read) (read : Read) :
    throttleAfter mSpeedByte (before ++ [read]) =
      ((throttleAfter mSpeedByte before).read mSpeedByte read).1 :=
  (responseMachine mSpeedByte).run_concat _ _ _

theorem pausesOf_concat (before : List Read) (read : Read) :
    pausesOf mSpeedByte (before ++ [read]) =
      pausesOf mSpeedByte before ++ (pauseOf mSpeedByte before read).toList :=
  (responseMachine mSpeedByte).trace_concat _ _ _

theorem firstBegan_concat (before : List Read) (read : Read) :
    firstBegan (before ++ [read]) =
      if before = [] then read.began else firstBegan before := by
  cases before with
  | nil => rfl
  | cons first rest => rfl

/-- What a call can do: nothing, let bytes pass, or end the window. -/
theorem read_cases (mSpeedByte : Int) (before : List Read) (read : Read) :
    let at_ := throttleAt mSpeedByte before read
    let after := throttleAfter mSpeedByte (before ++ [read])
    (read.bytesRead = none ∧ after = at_ ∧
        pauseOf mSpeedByte before read = none) ∨
      (read.bytesRead ≠ none ∧
        (1000 < read.answered - at_.cacheStartTime ∨
          at_.cacheTotalBytes + read.delivered < mSpeedByte) ∧
        after = ⟨at_.cacheTotalBytes + read.delivered,
          at_.cacheStartTime⟩ ∧
        pauseOf mSpeedByte before read = none) ∨
      (read.bytesRead ≠ none ∧ after = .new ∧
        pauseOf mSpeedByte before read =
          some ⟨1000 - (read.answered - at_.cacheStartTime),
            at_.cacheTotalBytes + read.delivered⟩) := by
  simp only [throttleAfter_concat, pauseOf, throttleAt, Throttle.read,
    Read.delivered]
  cases answer : read.bytesRead with
  | none => exact Or.inl ⟨rfl, rfl, rfl⟩
  | some bytesRead =>
      refine Or.inr ?_
      simp only [Throttle.count, Option.getD_some]
      split
      · exact Or.inr ⟨by simp, rfl, rfl⟩
      · next open_ =>
          refine Or.inl ⟨by simp, ?_, rfl, rfl⟩
          omega

end Step

/-! ## The windows so far -/

/-- Each window that has ended took a second, and the bytes of all windows are
those delivered. -/
structure Ledger (mSpeedByte : Int) (reads : List Read) : Prop where
  delivered_eq : (delivered reads : Int) =
    (pausesOf mSpeedByte reads).length * mSpeedByte +
      surplus mSpeedByte reads +
      (throttleAfter mSpeedByte reads).cacheTotalBytes
  below : (throttleAfter mSpeedByte reads).cacheTotalBytes < mSpeedByte
  idle : (throttleAfter mSpeedByte reads).cacheStartTime = 0 →
    (throttleAfter mSpeedByte reads).cacheTotalBytes = 0
  started : (throttleAfter mSpeedByte reads).cacheStartTime ≠ 0 →
    firstBegan reads + 1000 * (pausesOf mSpeedByte reads).length ≤
      (throttleAfter mSpeedByte reads).cacheStartTime
  elapsed : ∀ last ∈ reads.getLast?,
    firstBegan reads + 1000 * (pausesOf mSpeedByte reads).length ≤
      last.returned

section Run

variable {mSpeedByte : Int} {before reads : List Read} {read : Read}

theorem Ledger.nil (positive : 0 < mSpeedByte) : Ledger mSpeedByte [] where
  delivered_eq := by simp [delivered, surplus, pausesOf, throttleAfter,
    Throttle.new]
  below := positive
  idle := fun _ => rfl
  started := fun started => absurd rfl started
  elapsed := by simp

/-- When the delegate is asked the windows that have ended are over. -/
theorem Ledger.begun (ledger : Ledger mSpeedByte before)
    (timely : Timely mSpeedByte before read) :
    (throttleAt mSpeedByte before read).cacheTotalBytes =
        (throttleAfter mSpeedByte before).cacheTotalBytes ∧
      (throttleAt mSpeedByte before read).cacheStartTime ≠ 0 ∧
      firstBegan (before ++ [read]) +
          1000 * (pausesOf mSpeedByte before).length ≤
        (throttleAt mSpeedByte before read).cacheStartTime ∧
      firstBegan (before ++ [read]) +
          1000 * (pausesOf mSpeedByte before).length ≤ read.began := by
  have passed : firstBegan (before ++ [read]) +
      1000 * (pausesOf mSpeedByte before).length ≤ read.began := by
    rw [firstBegan_concat]
    rcases List.eq_nil_or_concat before with rfl | ⟨initial, last, rfl⟩
    · simp [pausesOf]
    · have atLast := ledger.elapsed last (by simp)
      have next := timely.later last (by simp)
      rw [if_neg (by simp)]
      omega
  have positive := timely.positive
  simp only [throttleAt, Throttle.begin_]
  split
  · exact ⟨rfl, by simp only; omega, passed, passed⟩
  · next running =>
      refine ⟨rfl, running, ?_, passed⟩
      have started := ledger.started running
      have nonempty : before ≠ [] := by
        rintro rfl
        exact running rfl
      rwa [firstBegan_concat, if_neg nonempty]

theorem surplus_concat (before : List Read) (read : Read) :
    surplus mSpeedByte (before ++ [read]) =
      surplus mSpeedByte before +
        ((pauseOf mSpeedByte before read).toList.map fun pause =>
          pause.cacheTotalBytes - mSpeedByte).sum := by
  rw [surplus, pausesOf_concat, List.map_append, List.sum_append, surplus]

/-- Step lemma: a call that keeps to the window. -/
theorem Ledger.step (positive : 0 < mSpeedByte)
    (ledger : Ledger mSpeedByte before)
    (timely : Timely mSpeedByte before read)
    (inWindow : read.bytesRead ≠ none → read.answered -
      (throttleAt mSpeedByte before read).cacheStartTime ≤ 1000) :
    Ledger mSpeedByte (before ++ [read]) := by
  obtain ⟨sameTotal, running, started, passed⟩ := ledger.begun timely
  have bytes := ledger.delivered_eq
  have below := ledger.below
  have answers := timely.answers
  have returns := timely.returns
  rcases read_cases mSpeedByte before read with
    ⟨nothing, after, pause⟩ | ⟨some_, open_, after, pause⟩ |
      ⟨some_, after, pause⟩
  · have deliversNothing : read.delivered = 0 := by
      rw [Read.delivered, nothing]
      rfl
    constructor
    · rw [delivered_concat, surplus_concat, pausesOf_concat, pause, after,
        deliversNothing, sameTotal]
      simpa using bytes
    · rwa [after, sameTotal]
    · rw [after]
      exact fun stopped => absurd stopped running
    · rw [after, pausesOf_concat, pause]
      simpa using fun _ => started
    · rw [pausesOf_concat, pause]
      simp only [List.getLast?_concat, Option.mem_some_iff, forall_eq',
        Option.toList_none, List.append_nil]
      omega
  · have inTime := inWindow some_
    constructor
    · rw [delivered_concat, surplus_concat, pausesOf_concat, pause, after,
        sameTotal]
      simp only [Option.toList_none, List.append_nil, List.map_nil,
        List.sum_nil]
      push_cast
      omega
    · rw [after]
      show _ + _ < mSpeedByte
      omega
    · rw [after]
      exact fun stopped => absurd stopped running
    · rw [after, pausesOf_concat, pause]
      simpa using fun _ => started
    · rw [pausesOf_concat, pause]
      simp only [List.getLast?_concat, Option.mem_some_iff, forall_eq',
        Option.toList_none, List.append_nil]
      omega
  · have sleeps := timely.sleeps _ (by rw [pause]; rfl)
    simp only at sleeps
    constructor
    · rw [delivered_concat, surplus_concat, pausesOf_concat, pause, after,
        sameTotal]
      simp only [Option.toList_some, List.length_append, List.length_singleton,
        List.map_singleton, List.sum_singleton, Throttle.new]
      push_cast
      rw [bytes]
      ring
    · rw [after]
      exact positive
    · rw [after]
      exact fun _ => rfl
    · rw [after]
      exact fun running => absurd rfl running
    · rw [pausesOf_concat, pause]
      simp only [List.getLast?_concat, Option.mem_some_iff, forall_eq',
        Option.toList_some, List.length_append, List.length_singleton]
      push_cast
      omega

/-- Run lemma: the windows of an orderly run. -/
theorem Ledger.run (positive : 0 < mSpeedByte)
    (timely : AtEvery (Timely mSpeedByte) reads)
    (orderly : AtEvery (Orderly mSpeedByte) reads) :
    Ledger mSpeedByte reads := by
  induction reads using List.reverseRecOn with
  | nil => exact Ledger.nil positive
  | append_singleton before read inductionHypothesis =>
      obtain ⟨timelyBefore, timelyNow⟩ := atEvery_concat.mp timely
      obtain ⟨orderlyBefore, orderlyNow⟩ := atEvery_concat.mp orderly
      exact (inductionHypothesis timelyBefore orderlyBefore).step positive
        timelyNow orderlyNow.inWindow

end Run

/-- In a run all of whose calls keep to their window and lose few bytes the
throttle bounds what has been delivered, at every call. -/
theorem throttled_of_orderly {mSpeedByte : Int} (positive : 0 < mSpeedByte)
    (reads : List Read) (timely : AtEvery (Timely mSpeedByte) reads)
    (orderly : AtEvery (Orderly mSpeedByte) reads) :
    AtEvery (Throttled mSpeedByte) reads := by
  intro before read after whole
  have upTo : reads = (before ++ [read]) ++ after := by simp [whole]
  rw [upTo] at timely orderly
  have ledger := Ledger.run positive timely.of_append orderly.of_append
  have full := (atEvery_concat.mp orderly.of_append).2.full
  have bytes := ledger.delivered_eq
  have below := ledger.below
  have elapsed := ledger.elapsed read (by simp)
  have windows : mSpeedByte *
      (1000 * (pausesOf mSpeedByte (before ++ [read])).length) ≤
        mSpeedByte * (read.returned - firstBegan (before ++ [read])) :=
    mul_le_mul_of_nonneg_left (by omega) positive.le
  rw [Throttled, bytes]
  linarith

/-- Two full windows of a limit of 1024 bytes. -/
def twoWindows : List Read :=
  [⟨some 1024, by decide, 1, 1, 1001⟩,
    ⟨some 24, by decide, 1001, 1500, 1500⟩,
    ⟨some 1024, by decide, 1500, 1600, 2001⟩,
    ⟨none, by decide, 2001, 2001, 2001⟩]

theorem twoWindows_throttled : AtEvery (Throttled 1024) twoWindows :=
  throttled_of_orderly (by decide) twoWindows (by decide) (by decide)

/-- After two bytes with two seconds between them nothing is held back. -/
def longPause : List Read :=
  ⟨some 1, by decide, 1, 1, 1⟩ :: ⟨some 1, by decide, 1, 2001, 2001⟩ ::
    List.replicate 4 ⟨some 1024, by decide, 2001, 2001, 2001⟩

theorem longPause_not_throttled :
    AtEvery (Timely 1024) longPause ∧
      ¬ AtEvery (Throttled 1024) longPause := by
  decide

/-- Windows that end with a byte less than twice the limit. -/
def fullWindows : List Read :=
  (List.range 3).flatMap fun window =>
    [⟨some 1023, by decide, 1 + 1000 * window, 1 + 1000 * window,
        1 + 1000 * window⟩,
      ⟨some 1024, by decide, 1 + 1000 * window, 1 + 1000 * window,
        1001 + 1000 * window⟩]

example :
    AtEvery (Timely 1024) fullWindows ∧
      ¬ AtEvery (Throttled 1024) fullWindows := by
  decide

end DripStone.SpeedLimit
