import DripStone.Library.Guarded

/-!
# `DeviceBandwidthSampler`

The main thread starts and stops the sampling.  A message lets the thread of
the handler read the bytes received so far, hand what came since the reading
before to the `ConnectionClassManager`, and send the message again.

One message is in flight while the sampling is on, unless the last
`stopSampling` came while a message was handled: that message is sent again.
Without such a stop the bytes handed over are those of the sessions, and none
that came between two of them.
-/

namespace DripStone.NetSpeed

open DripStone.Library

/-! ## The two threads -/

/-- What the main thread has still to do. -/
inductive CallPc where
  | idle
  | starting
  | stopping
deriving DecidableEq, Repr

/-- What `handleMessage` has still to do with the message it has taken. -/
inductive HandlerPc where
  | idle
  | sampling
  | sending
deriving DecidableEq, Repr

structure DeviceBandwidthSampler where
  mSamplingCounter : Bool
  mLastTimeReading : Int
  sPreviousBytes : Int
  -- how many messages wait in the queue of `mHandler`
  messages : Nat
  main : CallPc
  handler : HandlerPc
  -- what `addBandwidth` was called with
  handed : List (Int × Int)

/-- The statements of the two threads.  Only the main thread reads
`mSamplingCounter`, so a call sets it together with the queue. -/
inductive SamplerEvent where
  | startSampling
  | setLastTimeReading (now : Int)
  | stopSampling
  | addFinalSample (newBytes now : Int)
  | takeMessage
  | addSample (newBytes now : Int)
  | sendAgain
deriving DecidableEq, Repr

namespace DeviceBandwidthSampler

def new : DeviceBandwidthSampler where
  mSamplingCounter := false
  mLastTimeReading := 0
  sPreviousBytes := -1
  messages := 0
  main := .idle
  handler := .idle
  handed := []

def addSample (sampler : DeviceBandwidthSampler) (newBytes now : Int) :
    DeviceBandwidthSampler :=
  let counted :=
    if 0 ≤ sampler.sPreviousBytes then
      { sampler with
        handed := sampler.handed ++
          [(newBytes - sampler.sPreviousBytes, now - sampler.mLastTimeReading)]
        mLastTimeReading := now }
    else sampler
  { counted with sPreviousBytes := newBytes }

def addFinalSample (sampler : DeviceBandwidthSampler) (newBytes now : Int) :
    DeviceBandwidthSampler :=
  { sampler.addSample newBytes now with sPreviousBytes := -1 }

def step (sampler : DeviceBandwidthSampler) :
    SamplerEvent → Option DeviceBandwidthSampler
  | .startSampling =>
      if sampler.main ≠ .idle then none
      else if sampler.mSamplingCounter then some sampler
      else some { sampler with
        mSamplingCounter := true
        messages := sampler.messages + 1
        main := .starting }
  | .setLastTimeReading now =>
      if sampler.main ≠ .starting then none
      else some { sampler with mLastTimeReading := now, main := .idle }
  | .stopSampling =>
      if sampler.main ≠ .idle then none
      else if ¬ sampler.mSamplingCounter then some sampler
      else some { sampler with
        mSamplingCounter := false
        messages := 0
        main := .stopping }
  | .addFinalSample newBytes now =>
      if sampler.main ≠ .stopping then none
      else some { sampler.addFinalSample newBytes now with main := .idle }
  | .takeMessage =>
      if sampler.handler ≠ .idle ∨ sampler.messages = 0 then none
      else some { sampler with
        messages := sampler.messages - 1
        handler := .sampling }
  | .addSample newBytes now =>
      if sampler.handler ≠ .sampling then none
      else some { sampler.addSample newBytes now with handler := .sending }
  | .sendAgain =>
      if sampler.handler ≠ .sending then none
      else some { sampler with
        messages := sampler.messages + 1
        handler := .idle }

end DeviceBandwidthSampler

/-- The sampler under the statements of both threads, in any order. -/
def bandwidthSampler : Guarded DeviceBandwidthSampler SamplerEvent :=
  ⟨.new, DeviceBandwidthSampler.step⟩

namespace DeviceBandwidthSampler

variable {sampler next : DeviceBandwidthSampler} {newBytes now : Int}

/-- What each statement does where it is possible. -/
inductive Stepped (sampler : DeviceBandwidthSampler) :
    SamplerEvent → DeviceBandwidthSampler → Prop
  | started (idle : sampler.main = .idle)
      (off : sampler.mSamplingCounter = false) :
      Stepped sampler .startSampling { sampler with
        mSamplingCounter := true
        messages := sampler.messages + 1
        main := .starting }
  | running (idle : sampler.main = .idle)
      (on : sampler.mSamplingCounter = true) :
      Stepped sampler .startSampling sampler
  | timed (starting : sampler.main = .starting) (now : Int) :
      Stepped sampler (.setLastTimeReading now)
        { sampler with mLastTimeReading := now, main := .idle }
  | stopped (idle : sampler.main = .idle)
      (on : sampler.mSamplingCounter = true) :
      Stepped sampler .stopSampling { sampler with
        mSamplingCounter := false
        messages := 0
        main := .stopping }
  | resting (idle : sampler.main = .idle)
      (off : sampler.mSamplingCounter = false) :
      Stepped sampler .stopSampling sampler
  | finished (stopping : sampler.main = .stopping) (newBytes now : Int) :
      Stepped sampler (.addFinalSample newBytes now)
        { sampler.addFinalSample newBytes now with main := .idle }
  | took (free : sampler.handler = .idle) (waits : 0 < sampler.messages) :
      Stepped sampler .takeMessage { sampler with
        messages := sampler.messages - 1
        handler := .sampling }
  | sampled (busy : sampler.handler = .sampling) (newBytes now : Int) :
      Stepped sampler (.addSample newBytes now)
        { sampler.addSample newBytes now with handler := .sending }
  | sent (busy : sampler.handler = .sending) :
      Stepped sampler .sendAgain { sampler with
        messages := sampler.messages + 1
        handler := .idle }

theorem stepped_of_step {event : SamplerEvent}
    (isStep : bandwidthSampler.step sampler event = some next) :
    Stepped sampler event next := by
  change sampler.step event = some next at isStep
  cases event with
  | startSampling =>
      rw [step] at isStep
      split at isStep
      · cases isStep
      · next idle =>
          rw [not_not] at idle
          cases on : sampler.mSamplingCounter with
          | false =>
              rw [on, if_neg Bool.false_ne_true] at isStep
              rw [← Option.some.inj isStep]
              exact .started idle on
          | true =>
              rw [on, if_pos rfl] at isStep
              rw [← Option.some.inj isStep]
              exact .running idle on
  | setLastTimeReading now =>
      rw [step] at isStep
      split at isStep
      · cases isStep
      · next starting =>
          rw [← Option.some.inj isStep]
          exact .timed (not_not.mp starting) now
  | stopSampling =>
      rw [step] at isStep
      split at isStep
      · cases isStep
      · next idle =>
          rw [not_not] at idle
          cases on : sampler.mSamplingCounter with
          | false =>
              rw [on, if_pos Bool.false_ne_true] at isStep
              rw [← Option.some.inj isStep]
              exact .resting idle on
          | true =>
              rw [on, if_neg (not_not.mpr rfl)] at isStep
              rw [← Option.some.inj isStep]
              exact .stopped idle on
  | addFinalSample newBytes now =>
      rw [step] at isStep
      split at isStep
      · cases isStep
      · next stopping =>
          rw [← Option.some.inj isStep]
          exact .finished (not_not.mp stopping) newBytes now
  | takeMessage =>
      rw [step] at isStep
      split at isStep
      · cases isStep
      · next free =>
          rw [not_or, not_not] at free
          rw [← Option.some.inj isStep]
          exact .took free.1 (Nat.pos_of_ne_zero free.2)
  | addSample newBytes now =>
      rw [step] at isStep
      split at isStep
      · cases isStep
      · next busy =>
          rw [← Option.some.inj isStep]
          exact .sampled (not_not.mp busy) newBytes now
  | sendAgain =>
      rw [step] at isStep
      split at isStep
      · cases isStep
      · next busy =>
          rw [← Option.some.inj isStep]
          exact .sent (not_not.mp busy)

variable {event : SamplerEvent} {history : List SamplerEvent}

/-! ## Messages in flight -/

def isHandling (sampler : DeviceBandwidthSampler) : Bool :=
  sampler.handler ≠ .idle

/-- The messages in the queue and the one that is handled. -/
def inFlight (sampler : DeviceBandwidthSampler) : Nat :=
  sampler.messages + sampler.isHandling.toNat

theorem isHandling_eq_false (free : sampler.handler = .idle) :
    sampler.isHandling = false := by
  rw [isHandling, free]
  rfl

theorem isHandling_eq_true (busy : sampler.handler ≠ .idle) :
    sampler.isHandling = true := decide_eq_true busy

/-- Only `stopSampling` takes messages away from a sampling that is on. -/
theorem inFlight_of_ne_stop (stepped : Stepped sampler event next)
    (goesOn : event ≠ .stopSampling) :
    next.inFlight + sampler.mSamplingCounter.toNat =
      sampler.inFlight + next.mSamplingCounter.toNat := by
  cases stepped with
  | started idle off =>
      rw [off, inFlight, inFlight, isHandling, isHandling]
      simp only [Bool.toNat_false, Bool.toNat_true]
      omega
  | running | timed => rfl
  | stopped | resting => exact absurd rfl goesOn
  | finished stopping newBytes now =>
      rw [addFinalSample, addSample]
      split <;> rfl
  | took free waits =>
      rw [inFlight, inFlight, isHandling_eq_false free,
        isHandling_eq_true (by simp)]
      simp only [Bool.toNat_false, Bool.toNat_true]
      omega
  | sampled busy newBytes now =>
      have both : sampler.isHandling = true :=
        isHandling_eq_true (by simp [busy])
      rw [addSample]
      split <;> rw [inFlight, inFlight, both] <;> rfl
  | sent busy =>
      rw [inFlight, inFlight, isHandling_eq_false rfl,
        isHandling_eq_true (by simp [busy])]
      simp only [Bool.toNat_false, Bool.toNat_true]

/-- After a stop, whatever follows up to the next one, there is a message in
flight while the sampling is on, and one more if the stop came while a message
was handled. -/
theorem inFlight_after_stop {before rest : List SamplerEvent}
    {reached : DeviceBandwidthSampler}
    (isBefore : bandwidthSampler.after before = some sampler)
    (on : sampler.mSamplingCounter = true)
    (isHistory : bandwidthSampler.after (before ++ .stopSampling :: rest) =
      some reached)
    (noStop : .stopSampling ∉ rest) :
    reached.inFlight =
      reached.mSamplingCounter.toNat + sampler.isHandling.toNat := by
  induction rest using List.reverseRecOn generalizing reached with
  | nil =>
      obtain ⟨state, isState, isStep⟩ :=
        Guarded.after_concat_eq_some.mp isHistory
      obtain rfl := Option.some.inj (isBefore.symm.trans isState)
      cases stepped_of_step isStep with
      | stopped idle _ =>
          rw [inFlight, isHandling, isHandling]
          rfl
      | resting idle off => exact absurd (on.symm.trans off) (by decide)
  | append_singleton rest event inductionHypothesis =>
      have regrouped :
          before ++ SamplerEvent.stopSampling :: (rest ++ [event]) =
            (before ++ .stopSampling :: rest) ++ [event] := by simp
      rw [regrouped] at isHistory
      obtain ⟨state, isState, isStep⟩ :=
        Guarded.after_concat_eq_some.mp isHistory
      have further := inductionHypothesis isState
        fun inRest => noStop (List.mem_append_left _ inRest)
      have same := inFlight_of_ne_stop (stepped_of_step isStep)
        fun isStop => noStop (by simp [isStop])
      omega

/-- A sampling whose first message is handled, and what may follow a stop
then. -/
def firstMessage : List SamplerEvent :=
  [.startSampling, .setLastTimeReading 0, .takeMessage]

def afterwards : List SamplerEvent :=
  [.addFinalSample 350 900, .addSample 350 901, .sendAgain]

theorem inFlight_after_stop_handling :
    ∃ reached, bandwidthSampler.after
        (firstMessage ++ .stopSampling :: afterwards) = some reached ∧
      reached.mSamplingCounter = false ∧ reached.inFlight = 1 := by
  refine ⟨_, rfl, rfl, ?_⟩
  exact @inFlight_after_stop _ firstMessage afterwards _ rfl rfl rfl
    (by decide)

/-! ## The bytes of the sessions -/

/-- The first reading of a session that has begun, and the bytes of the
sessions before it. -/
structure Counted where
  first : Option Int
  total : Int

namespace Counted

/-- A session counts from its first reading to the one that ends it. -/
def step (counted : Counted) : SamplerEvent → Counted
  | .addSample newBytes _ =>
      { counted with first := some (counted.first.getD newBytes) }
  | .addFinalSample newBytes _ =>
      ⟨none, counted.total + (newBytes - counted.first.getD newBytes)⟩
  | _ => counted

def after (history : List SamplerEvent) : Counted :=
  history.foldl step ⟨none, 0⟩

theorem after_concat (history : List SamplerEvent) (event : SamplerEvent) :
    after (history ++ [event]) = (after history).step event := by
  rw [after, List.foldl_append]
  rfl

end Counted

/-- No stop while a message is handled, and a count of bytes for each sample
(`TrafficStats` returns a negative number where it counts nothing). -/
def BetweenMessages (sampler : DeviceBandwidthSampler) :
    SamplerEvent → Prop
  | .stopSampling => sampler.handler = .idle
  | .addSample newBytes _ => 0 ≤ newBytes
  | _ => True

instance (sampler : DeviceBandwidthSampler) :
    ∀ event, Decidable (BetweenMessages sampler event)
  | .stopSampling => inferInstanceAs (Decidable (_ = _))
  | .addSample _ _ => inferInstanceAs (Decidable (_ ≤ _))
  | .startSampling | .setLastTimeReading _ | .addFinalSample _ _
  | .takeMessage | .sendAgain => isTrue trivial

def handedBytes (sampler : DeviceBandwidthSampler) : Int :=
  (sampler.handed.map Prod.fst).sum

/-- The bytes handed over are those of the sessions so far, those of the last
one up to the reading before. -/
structure Accounted (sampler : DeviceBandwidthSampler) (counted : Counted) :
    Prop where
  off : sampler.mSamplingCounter = false →
    sampler.messages = 0 ∧ sampler.handler = .idle
  stopping : sampler.main = .stopping → sampler.mSamplingCounter = false
  between : sampler.mSamplingCounter = false → sampler.main ≠ .stopping →
    counted.first = none
  fresh : counted.first = none →
    sampler.sPreviousBytes = -1 ∧ sampler.handedBytes = counted.total
  begun : ∀ first, counted.first = some first →
    0 ≤ sampler.sPreviousBytes ∧
      sampler.handedBytes = counted.total + (sampler.sPreviousBytes - first)

theorem accounted_new : Accounted new ⟨none, 0⟩ where
  off := fun _ => ⟨rfl, rfl⟩
  stopping := fun impossible => (by cases impossible)
  between := fun _ _ => rfl
  fresh := fun _ => ⟨rfl, rfl⟩
  begun := fun _ impossible => (by cases impossible)

/-- A sample of a session that has not begun hands nothing over, one of a
session that has begun what came since the reading before. -/
theorem handedBytes_addSample {counted : Counted}
    (accounted : Accounted sampler counted) (newBytes now : Int) :
    (sampler.addSample newBytes now).handedBytes =
      counted.total + (newBytes - counted.first.getD newBytes) := by
  cases isFirst : counted.first with
  | none =>
      obtain ⟨fresh, total⟩ := accounted.fresh isFirst
      rw [addSample, if_neg (by rw [fresh]; decide), Option.getD_none,
        sub_self, add_zero]
      exact total
  | some first =>
      obtain ⟨begun, total⟩ := accounted.begun first isFirst
      rw [addSample, if_pos begun, handedBytes, List.map_append,
        List.sum_append]
      rw [handedBytes] at total
      rw [total]
      simp only [List.map_cons, List.map_nil, List.sum_singleton,
        Option.getD_some]
      omega

theorem addSample_keeps (sampler : DeviceBandwidthSampler)
    (newBytes now : Int) :
    (sampler.addSample newBytes now).mSamplingCounter =
        sampler.mSamplingCounter ∧
      (sampler.addSample newBytes now).messages = sampler.messages ∧
      (sampler.addSample newBytes now).main = sampler.main ∧
      (sampler.addSample newBytes now).handler = sampler.handler ∧
      (sampler.addSample newBytes now).sPreviousBytes = newBytes := by
  rw [addSample]
  split <;> exact ⟨rfl, rfl, rfl, rfl, rfl⟩

theorem accounted_stepped {counted : Counted}
    (accounted : Accounted sampler counted)
    (between : sampler.BetweenMessages event)
    (stepped : Stepped sampler event next) :
    Accounted next (counted.step event) := by
  cases stepped with
  | started idle off =>
      exact ⟨fun impossible => (by cases impossible),
        fun impossible => (by cases impossible),
        fun impossible => (by cases impossible), accounted.fresh,
        accounted.begun⟩
  | running | resting => exact accounted
  | timed starting now =>
      refine ⟨accounted.off, fun impossible => (by cases impossible),
        fun off _ => ?_, accounted.fresh, accounted.begun⟩
      exact accounted.between off (by simp [starting])
  | stopped idle on =>
      exact ⟨fun _ => ⟨rfl, between⟩, fun _ => rfl,
        fun _ other => absurd rfl other, accounted.fresh, accounted.begun⟩
  | finished stopping newBytes now =>
      obtain ⟨flag, messages, main, handler, -⟩ :=
        addSample_keeps sampler newBytes now
      have off := accounted.stopping stopping
      have total := handedBytes_addSample accounted newBytes now
      refine ⟨fun _ => ?_, fun impossible => (by cases impossible),
        fun _ _ => rfl, fun _ => ⟨rfl, total⟩,
        fun _ impossible => (by cases impossible)⟩
      rw [addFinalSample]
      exact ⟨messages.trans (accounted.off off).1,
        handler.trans (accounted.off off).2⟩
  | took free waits =>
      refine ⟨fun off => ?_, accounted.stopping, accounted.between,
        accounted.fresh, accounted.begun⟩
      rw [(accounted.off off).1] at waits
      exact absurd waits (lt_irrefl 0)
  | sampled busy newBytes now =>
      obtain ⟨flag, messages, main, handler, previous⟩ :=
        addSample_keeps sampler newBytes now
      have on : sampler.mSamplingCounter = true := by
        by_contra off
        rw [Bool.not_eq_true] at off
        rw [(accounted.off off).2] at busy
        cases busy
      have total := handedBytes_addSample accounted newBytes now
      refine ⟨fun off => ?_, fun stopping => ?_, fun off _ => ?_,
        fun impossible => (by cases impossible), fun first isFirst => ?_⟩
      · exact absurd (on.symm.trans (flag.symm.trans off)) (by decide)
      · exact flag.trans (accounted.stopping (main.symm.trans stopping))
      · exact absurd (on.symm.trans (flag.symm.trans off)) (by decide)
      · obtain rfl := Option.some.inj isFirst
        refine ⟨?_, ?_⟩
        · exact le_of_le_of_eq between previous.symm
        · exact total.trans (by rw [previous]; rfl)
  | sent busy =>
      refine ⟨fun off => ?_, accounted.stopping, accounted.between,
        accounted.fresh, accounted.begun⟩
      rw [(accounted.off off).2] at busy
      cases busy

/-- When no stop comes while a message is handled, the bytes handed over are
those of the sessions, each counted from its first reading to its end. -/
theorem handed_of_sessions
    (isHistory : bandwidthSampler.after history = some sampler)
    (along : bandwidthSampler.Along BetweenMessages history)
    (off : sampler.mSamplingCounter = false)
    (finished : sampler.main = .idle) :
    sampler.handedBytes = (Counted.after history).total := by
  have accounted : Accounted sampler (Counted.after history) := by
    clear off finished
    induction history using List.reverseRecOn generalizing sampler with
    | nil =>
        rw [← Option.some.inj isHistory]
        exact accounted_new
    | append_singleton history event inductionHypothesis =>
        obtain ⟨state, isState, isStep⟩ :=
          Guarded.after_concat_eq_some.mp isHistory
        rw [Counted.after_concat]
        exact accounted_stepped
          (inductionHypothesis isState along.of_append)
          (along history event [] state rfl isState) (stepped_of_step isStep)
  have between := accounted.between off (by simp [finished])
  exact (accounted.fresh between).2

/-- A session from 100 bytes to 350 and one from 1000 bytes to 1600; the 650
bytes between them are not counted. -/
def twoSessions : List SamplerEvent :=
  [.startSampling, .setLastTimeReading 0, .takeMessage, .addSample 100 0,
    .sendAgain, .stopSampling, .addFinalSample 350 900,
    .startSampling, .takeMessage, .setLastTimeReading 2000,
    .addSample 1000 2001, .sendAgain, .takeMessage, .addSample 1200 3001,
    .sendAgain, .stopSampling, .addFinalSample 1600 3500]

theorem handed_of_twoSessions :
    ∃ sampler, bandwidthSampler.after twoSessions = some sampler ∧
      sampler.handedBytes = 850 := by
  refine ⟨_, rfl, ?_⟩
  exact @handed_of_sessions _ twoSessions rfl (by decide) rfl rfl

end DeviceBandwidthSampler

end DripStone.NetSpeed
