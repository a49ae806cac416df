import DripStone.Library.Guarded

/-!
# `ANRWatchDog`

The watchdog posts a probe to the main thread, waits, and judges from the
times that the probes leave in one checker whether the main thread is blocked.
All times are those of `uptimeMillis`.
-/

namespace DripStone.WatchDog

open DripStone.Library

structure ANRChecker where
  mCompleted : Bool
  mStartTime : Int
  executeTime : Int
deriving DecidableEq, Repr

namespace ANRChecker

def run (checker : ANRChecker) (uptimeMillis : Int) : ANRChecker :=
  { checker with mCompleted := true, executeTime := uptimeMillis }

def schedule (checker : ANRChecker) (uptimeMillis : Int) : ANRChecker :=
  { checker with mCompleted := false, mStartTime := uptimeMillis }

def isBlocked (checker : ANRChecker) : Bool :=
  !checker.mCompleted || 5000 ≤ checker.executeTime - checker.mStartTime

end ANRChecker

/-! ## Rounds -/

/-- Where the watchdog is: at the head of its loop, in the loop around
`wait`, or in the outer loop, which it does not leave once interrupted. -/
inductive Stage where
  | head
  | waiting (start : Int)
  | interrupted
deriving DecidableEq, Repr

/-- A round: the number of its probe, the time at which it was scheduled, and
the probes that ran during its waits, the last one first. -/
structure Round where
  number : Nat
  scheduled : Int
  ran : List (Nat × Int)
deriving DecidableEq, Repr

/-- The end of a round: the timeout, and how often the listener is called. -/
structure Verdict where
  round : Round
  timeout : Int
  calls : Nat
deriving DecidableEq, Repr

structure ANRWatchDog where
  timeout : Int
  anrChecker : ANRChecker
  -- whether a listener is there
  anrListener : Bool
  stage : Stage
  uptimeMillis : Int
  -- the posted probes, the next one first, and the one that is running
  queue : List Nat
  running : Option Nat
  round : Round
  verdicts : List Verdict
deriving DecidableEq, Repr

namespace ANRWatchDog

variable (watchDog : ANRWatchDog)

/-- A watchdog with a listener, before its first round. -/
def new (timeout uptimeMillis : Int) : ANRWatchDog where
  timeout := timeout
  anrChecker := ⟨false, 0, uptimeMillis⟩
  anrListener := true
  stage := .head
  uptimeMillis := uptimeMillis
  queue := []
  running := none
  round := ⟨0, uptimeMillis, []⟩
  verdicts := []

/-- The rest of a round behind its waits.  `ignoreDebugger` is set, so that
the debugger is not asked. -/
def judge : ANRWatchDog :=
  { watchDog with
    stage := .head
    verdicts := watchDog.verdicts ++
      [{ round := watchDog.round
         timeout := watchDog.timeout
         calls :=
          if watchDog.anrChecker.isBlocked && watchDog.anrListener then 1
          else 0 }] }

/-- The head of the loop around `wait`. -/
def await (start waitTime : Int) : ANRWatchDog :=
  if 0 < waitTime then { watchDog with stage := .waiting start }
  else watchDog.judge

/-- A round begins.  Its probe comes in front of those that were posted. -/
def schedule (uptimeMillis start : Int) : ANRWatchDog :=
  { watchDog with
    anrChecker := watchDog.anrChecker.schedule uptimeMillis
    uptimeMillis := start
    queue := (watchDog.round.number + 1) :: watchDog.queue
    round := ⟨watchDog.round.number + 1, uptimeMillis, []⟩ }

/-- `wait` returns or throws, for any reason. -/
def wake (start uptimeMillis : Int) : ANRWatchDog :=
  { watchDog with uptimeMillis := uptimeMillis }.await start
    (watchDog.timeout - (uptimeMillis - start))

/-- The running probe has the monitor, which the watchdog leaves free at the
head of its loop and while it waits. -/
def run (number : Nat) (uptimeMillis : Int) : ANRWatchDog :=
  { watchDog with
    anrChecker := watchDog.anrChecker.run uptimeMillis
    uptimeMillis := uptimeMillis
    running := none
    round :=
      match watchDog.stage with
      | .waiting _ =>
          { watchDog.round with
            ran := (number, uptimeMillis) :: watchDog.round.ran }
      | _ => watchDog.round }

end ANRWatchDog

inductive Event where
  | setTimeout (timeout : Int)
  -- with the time of the probe, and the one at the beginning of the waits
  | schedule (uptimeMillis start : Int)
  | wake (uptimeMillis : Int)
  -- outside of `wait`
  | interrupt
  -- the main thread comes to the next probe, and the probe to the monitor
  | dispatch
  | run (uptimeMillis : Int)
deriving DecidableEq, Repr

/-- What can happen to a watchdog and the main thread. -/
def watching (timeout uptimeMillis : Int) : Guarded ANRWatchDog Event where
  start := .new timeout uptimeMillis
  step watchDog event :=
    match event with
    | .setTimeout timeout => some { watchDog with timeout := timeout }
    | .schedule scheduled start =>
        if watchDog.stage = .head ∧ watchDog.uptimeMillis ≤ scheduled ∧
            scheduled ≤ start then
          some ((watchDog.schedule scheduled start).await start
            watchDog.timeout)
        else none
    | .wake uptimeMillis =>
        match watchDog.stage with
        | .waiting start =>
            if watchDog.uptimeMillis ≤ uptimeMillis then
              some (watchDog.wake start uptimeMillis)
            else none
        | _ => none
    | .interrupt =>
        if watchDog.stage = .head then
          some { watchDog with stage := .interrupted, anrListener := false }
        else none
    | .dispatch =>
        match watchDog.running, watchDog.queue with
        | none, number :: queue =>
            some { watchDog with queue := queue, running := some number }
        | _, _ => none
    | .run uptimeMillis =>
        match watchDog.running with
        | some number =>
            if watchDog.uptimeMillis ≤ uptimeMillis then
              some (watchDog.run number uptimeMillis)
            else none
        | none => none

/-! ## The law -/

/-- The probe of the round ran at a time, while the round waited. -/
def Round.RanAt (round : Round) (uptimeMillis : Int) : Prop :=
  (round.number, uptimeMillis) ∈ round.ran

instance (round : Round) (uptimeMillis : Int) :
    Decidable (round.RanAt uptimeMillis) :=
  inferInstanceAs (Decidable (_ ∈ _))

/-- A round whose probe ran in time is not reported, and one whose probe did
not run is reported once. -/
structure Verdict.Right (verdict : Verdict) : Prop where
  inTime : ∀ uptimeMillis, verdict.round.RanAt uptimeMillis →
    uptimeMillis - verdict.round.scheduled ≤ verdict.timeout →
      verdict.calls = 0
  missing : (∀ uptimeMillis, ¬verdict.round.RanAt uptimeMillis) →
    verdict.calls = 1

def AllRight (watchDog : ANRWatchDog) : Prop :=
  ∀ verdict ∈ watchDog.verdicts, verdict.Right

/-- The last probe that ran while a round waited, its own or a late one, ran
within 5000 ms where its own ran in time; and where its own did not run, the
last one ran later than that, if one did. -/
structure Round.Clear (round : Round) (timeout : Int) : Prop where
  inTime : ∀ uptimeMillis, round.RanAt uptimeMillis →
    uptimeMillis - round.scheduled ≤ timeout →
      ∀ last ∈ round.ran.head?, last.2 - round.scheduled < 5000
  missing : (∀ uptimeMillis, ¬round.RanAt uptimeMillis) →
    ∀ last ∈ round.ran.head?, 5000 ≤ last.2 - round.scheduled

/-- The wake-up that ends a round ends a clear one. -/
def EndsClear (watchDog : ANRWatchDog) : Event → Prop
  | .wake uptimeMillis =>
      ∀ start, watchDog.stage = .waiting start →
        watchDog.uptimeMillis ≤ uptimeMillis →
          watchDog.timeout - (uptimeMillis - start) ≤ 0 →
            watchDog.round.Clear watchDog.timeout
  | _ => True

/-! ## What each event keeps -/

/-- The checker knows the last probe that ran in a round. -/
structure Probed (checker : ANRChecker) (round : Round) : Prop where
  started : checker.mStartTime = round.scheduled
  completed : checker.mCompleted = !round.ran.isEmpty
  executed : ∀ last ∈ round.ran.head?, checker.executeTime = last.2

structure Checked (watchDog : ANRWatchDog) : Prop where
  right : AllRight watchDog
  listening : watchDog.stage ≠ .interrupted → watchDog.anrListener = true
  probed : ∀ start, watchDog.stage = .waiting start →
    Probed watchDog.anrChecker watchDog.round

section Events

variable {watchDog next : ANRWatchDog} {timeout : Int}

theorem Probed.isBlocked_iff {checker : ANRChecker} {round : Round}
    (probed : Probed checker round) :
    checker.isBlocked = true ↔
      ∀ last ∈ round.ran.head?, 5000 ≤ last.2 - round.scheduled := by
  rw [ANRChecker.isBlocked, probed.completed, probed.started]
  cases isRan : round.ran with
  | nil => simp
  | cons last earlier =>
      have isTime : checker.executeTime = last.2 :=
        probed.executed last (by rw [isRan]; rfl)
      simp [isTime]

theorem Probed.schedule (checker : ANRChecker) (number : Nat)
    (uptimeMillis : Int) :
    Probed (checker.schedule uptimeMillis) ⟨number, uptimeMillis, []⟩ := by
  refine ⟨rfl, rfl, fun last isLast => ?_⟩
  cases isLast

theorem Probed.run {checker : ANRChecker} {round : Round}
    (probed : Probed checker round) (number : Nat) (uptimeMillis : Int) :
    Probed (checker.run uptimeMillis)
      { round with ran := (number, uptimeMillis) :: round.ran } := by
  refine ⟨probed.started, rfl, fun last isLast => ?_⟩
  rw [← Option.some_inj.mp isLast]
  rfl

/-- Spec lemma: a verdict that goes by the last probe is right exactly when
the round is clear. -/
theorem right_iff_clear {round : Round} {calls : Nat} {blocked : Bool}
    (isBlocked : blocked = true ↔
      ∀ last ∈ round.ran.head?, 5000 ≤ last.2 - round.scheduled)
    (isCalls : calls = if blocked then 1 else 0) :
    Verdict.Right ⟨round, timeout, calls⟩ ↔ round.Clear timeout := by
  have calledOnce : calls = 1 ↔ blocked = true := by
    rw [isCalls]
    split
    · next isIt => exact iff_of_true rfl isIt
    · next isNot => exact iff_of_false Nat.zero_ne_one isNot
  have notCalled : calls = 0 ↔ ¬blocked = true := by
    rw [isCalls]
    split
    · next isIt => exact iff_of_false Nat.one_ne_zero (not_not.mpr isIt)
    · next isNot => exact iff_of_true rfl isNot
  constructor
  · intro right
    refine ⟨fun uptimeMillis ranAt inTime last isLast => ?_,
      fun missing => isBlocked.mp (calledOnce.mp (right.missing missing))⟩
    have notBlocked := notCalled.mp (right.inTime uptimeMillis ranAt inTime)
    rw [isBlocked] at notBlocked
    by_contra late
    refine notBlocked fun other isOther => ?_
    rw [Option.mem_unique isOther isLast]
    exact not_lt.mp late
  · intro clear
    refine ⟨fun uptimeMillis ranAt inTime => notCalled.mpr fun isIt => ?_,
      fun missing => calledOnce.mpr (isBlocked.mpr (clear.missing missing))⟩
    obtain ⟨last, isLast⟩ :
        ∃ last, last ∈ round.ran.head? := by
      cases isRan : round.ran with
      | nil =>
          rw [Round.RanAt, isRan] at ranAt
          cases ranAt
      | cons last earlier => exact ⟨last, rfl⟩
    exact absurd (clear.inTime uptimeMillis ranAt inTime last isLast)
      (not_lt.mpr (isBlocked.mp isIt last isLast))

theorem allRight_judge_iff (right : AllRight watchDog)
    (listening : watchDog.anrListener = true)
    (probed : Probed watchDog.anrChecker watchDog.round) :
    AllRight watchDog.judge ↔ watchDog.round.Clear watchDog.timeout := by
  have lastRight :
      Verdict.Right ⟨watchDog.round, watchDog.timeout,
        if watchDog.anrChecker.isBlocked && watchDog.anrListener then 1
        else 0⟩ ↔ watchDog.round.Clear watchDog.timeout :=
    right_iff_clear probed.isBlocked_iff (by rw [listening, Bool.and_true])
  rw [← lastRight]
  constructor
  · intro rightNext
    exact rightNext _ (List.mem_append_right _ (List.mem_singleton_self _))
  · intro rightLast verdict isVerdict
    rcases List.mem_append.mp isVerdict with isOld | isLast
    · exact right verdict isOld
    · rw [List.mem_singleton.mp isLast]
      exact rightLast

/-- Spec lemma: the head of the loop around `wait` judges rightly exactly
when it does not end a round that is not clear. -/
theorem await_spec (start waitTime : Int) (right : AllRight watchDog)
    (listening : watchDog.anrListener = true)
    (probed : Probed watchDog.anrChecker watchDog.round) :
    (AllRight (watchDog.await start waitTime) ↔
      (waitTime ≤ 0 → watchDog.round.Clear watchDog.timeout)) ∧
      (AllRight (watchDog.await start waitTime) →
        Checked (watchDog.await start waitTime)) := by
  rw [ANRWatchDog.await]
  split
  · next waits =>
      refine ⟨iff_of_true right fun ends => absurd waits (not_lt.mpr ends),
        fun rightNext => ⟨rightNext, fun _ => listening, fun _ _ => probed⟩⟩
  · next ends =>
      rw [allRight_judge_iff right listening probed]
      refine ⟨⟨fun clear _ => clear, fun clear => clear (not_lt.mp ends)⟩,
        fun clear => ⟨?_, fun _ => listening, fun other isWaiting => ?_⟩⟩
      · exact (allRight_judge_iff right listening probed).mpr clear
      · cases isWaiting

theorem clear_nil {number : Nat} {scheduled : Int} :
    Round.Clear ⟨number, scheduled, []⟩ timeout := by
  constructor
  · intro uptimeMillis ranAt
    cases ranAt
  · intro _ last isLast
    cases isLast

theorem schedule_spec (checked : Checked watchDog)
    (isHead : watchDog.stage = .head) (scheduled start : Int) :
    Checked ((watchDog.schedule scheduled start).await start
      watchDog.timeout) := by
  have listening : watchDog.anrListener = true :=
    checked.listening (by simp [isHead])
  have right : AllRight (watchDog.schedule scheduled start) := checked.right
  have spec := await_spec start watchDog.timeout right listening
    (Probed.schedule watchDog.anrChecker _ scheduled)
  exact spec.2 (spec.1.mpr fun _ => clear_nil)

theorem wake_spec {start uptimeMillis : Int} (checked : Checked watchDog)
    (isWaiting : watchDog.stage = .waiting start) :
    (AllRight (watchDog.wake start uptimeMillis) ↔
      (watchDog.timeout - (uptimeMillis - start) ≤ 0 →
        watchDog.round.Clear watchDog.timeout)) ∧
      (AllRight (watchDog.wake start uptimeMillis) →
        Checked (watchDog.wake start uptimeMillis)) := by
  have listening : watchDog.anrListener = true :=
    checked.listening (by simp [isWaiting])
  have right : AllRight { watchDog with uptimeMillis := uptimeMillis } :=
    checked.right
  exact await_spec _ _ right listening (checked.probed start isWaiting)

theorem checked_run (checked : Checked watchDog) (number : Nat)
    (uptimeMillis : Int) : Checked (watchDog.run number uptimeMillis) := by
  refine ⟨checked.right, checked.listening, fun start isWaiting => ?_⟩
  have wasWaiting : watchDog.stage = .waiting start := isWaiting
  simp only [ANRWatchDog.run, wasWaiting]
  exact (checked.probed start wasWaiting).run number uptimeMillis

/-- Step lemma: an event leaves all verdicts right exactly when it does not
end a round that is not clear. -/
theorem checked_step {event : Event} {since : Int} (checked : Checked watchDog)
    (stepped : (watching timeout since).step watchDog event = some next) :
    (AllRight next ↔ EndsClear watchDog event) ∧
      (AllRight next → Checked next) := by
  have both (checkedNext : Checked next)
      (endsClear : EndsClear watchDog event) :
      (AllRight next ↔ EndsClear watchDog event) ∧
        (AllRight next → Checked next) :=
    ⟨iff_of_true checkedNext.right endsClear, fun _ => checkedNext⟩
  cases event with
  | setTimeout newTimeout =>
      refine both ?_ trivial
      rw [← Option.some_inj.mp stepped]
      exact ⟨checked.right, checked.listening, checked.probed⟩
  | schedule scheduled start =>
      obtain ⟨⟨isHead, _, _⟩, isNext⟩ :=
        Option.ite_none_right_eq_some.mp stepped
      refine both ?_ trivial
      rw [← Option.some_inj.mp isNext]
      exact schedule_spec checked isHead scheduled start
  | wake uptimeMillis =>
      simp only [watching] at stepped
      split at stepped
      · next start isWaiting =>
          obtain ⟨notBefore, isNext⟩ :=
            Option.ite_none_right_eq_some.mp stepped
          rw [← Option.some_inj.mp isNext]
          obtain ⟨right, keeps⟩ := wake_spec checked isWaiting
          refine ⟨right.trans ⟨fun clear other isOther _ ends => ?_,
            fun endsClear => endsClear start isWaiting notBefore⟩, keeps⟩
          rw [isWaiting] at isOther
          cases isOther
          exact clear ends
      · cases stepped
  | interrupt =>
      obtain ⟨_, isNext⟩ := Option.ite_none_right_eq_some.mp stepped
      refine both ?_ trivial
      rw [← Option.some_inj.mp isNext]
      exact ⟨checked.right, fun notSo => absurd rfl notSo,
        fun _ isWaiting => by cases isWaiting⟩
  | dispatch =>
      simp only [watching] at stepped
      split at stepped
      · refine both ?_ trivial
        rw [← Option.some_inj.mp stepped]
        exact ⟨checked.right, checked.listening, checked.probed⟩
      · cases stepped
  | run uptimeMillis =>
      simp only [watching] at stepped
      split at stepped
      · obtain ⟨_, isNext⟩ := Option.ite_none_right_eq_some.mp stepped
        refine both ?_ trivial
        rw [← Option.some_inj.mp isNext]
        exact checked_run checked _ uptimeMillis
      · cases stepped

theorem endsClear_of_step_eq_none {event : Event} {since : Int}
    (impossible : (watching timeout since).step watchDog event = none) :
    EndsClear watchDog event := by
  cases event with
  | wake uptimeMillis =>
      intro start isWaiting notBefore
      simp only [watching, isWaiting, if_pos notBefore] at impossible
      cases impossible
  | setTimeout _ => trivial
  | schedule _ _ => trivial
  | interrupt => trivial
  | dispatch => trivial
  | run _ => trivial

end Events

/-! ## Whole runs -/

theorem checked_new (timeout uptimeMillis : Int) :
    Checked (ANRWatchDog.new timeout uptimeMillis) := by
  refine ⟨?_, fun _ => rfl, ?_⟩
  · intro verdict isVerdict
    cases isVerdict
  · intro start isWaiting
    cases isWaiting

/-- Along a run all verdicts are right exactly when the rounds that end are
clear. -/
theorem allRight_iff_endsClear (timeout uptimeMillis : Int)
    (history : List Event) :
    (watching timeout uptimeMillis).Along
        ((watching timeout uptimeMillis).Leads AllRight) history ↔
      (watching timeout uptimeMillis).Along EndsClear history :=
  Guarded.along_leads_iff Checked (checked_new timeout uptimeMillis)
    (fun _ _ _ checked endsClear stepped =>
      (checked_step checked stepped).2
        ((checked_step checked stepped).1.mpr endsClear))
    (fun _ _ _ checked stepped => (checked_step checked stepped).1)
    fun _ _ impossible => endsClear_of_step_eq_none impossible

/-- With a timeout of six seconds, a probe that runs in time is reported. -/
theorem probeInTime_reported :
    ∃ watchDog : ANRWatchDog,
      (watching 5000 0).after [.setTimeout 6000, .schedule 0 0, .dispatch,
        .run 5500, .wake 6000] = some watchDog ∧ ¬AllRight watchDog := by
  refine ⟨_, rfl, fun right => ?_⟩
  have verdict := right _ (List.mem_singleton_self _)
  exact absurd (verdict.inTime 5500 (by decide) (by decide)) (by decide)

end DripStone.WatchDog
