import DripStone.BlockCanary.LogMonitor
import DripStone.Library.Guarded

/-!
# The schedule of `mRunnable`

The main thread starts and stops the sampling, and the thread of the sampler
takes `mRunnable` from the queue of its handler, runs it, and lets it post
itself again.  Each access to the flag, to the queue and to the map is a step
of its own.
-/

namespace DripStone.BlockCanary

open DripStone.Library

/-! ## The two threads -/

/-- The statement that the main thread comes to. -/
inductive MainPc where
  | idle
  | setTrue
  | removeOld
  | postDelayed
  | setFalse
  | removeCallbacks
deriving DecidableEq, Repr

/-- The statement of `mRunnable.run()` that the sampler comes to. -/
inductive SamplerPc where
  | idle
  | store
  | readShouldSample
  | rePost
deriving DecidableEq, Repr

structure Sampling where
  mStackMap : StackMap
  mShouldSample : Bool
  -- how often `mRunnable` waits in `mHandler`
  pending : Nat
  main : MainPc
  sampler : SamplerPc

/-- The calls of the main thread with their statements, and those of
`mRunnable`. -/
inductive SamplingEvent where
  | startDump
  | setTrue
  | removeOld
  | postDelayed
  | stopDump
  | setFalse
  | removeCallbacks
  | take
  | store (time : Millis) (stack : Text)
  | readShouldSample
  | rePost
deriving DecidableEq, Repr

namespace Sampling

def new : Sampling := ⟨.empty, false, 0, .idle, .idle⟩

/-- A statement of the main thread. -/
def mainStep (state : Sampling) (here : MainPc) (next : Sampling) :
    Option Sampling :=
  if state.main = here then some next else none

/-- A statement of the sampler. -/
def samplerStep (state : Sampling) (here : SamplerPc) (next : Sampling) :
    Option Sampling :=
  if state.sampler = here then some next else none

def step (state : Sampling) : SamplingEvent → Option Sampling
  | .startDump =>
      state.mainStep .idle
        (if state.mShouldSample then state
        else { state with main := .setTrue })
  | .setTrue =>
      state.mainStep .setTrue
        { state with mShouldSample := true, main := .removeOld }
  | .removeOld =>
      state.mainStep .removeOld
        { state with pending := 0, main := .postDelayed }
  | .postDelayed =>
      state.mainStep .postDelayed
        { state with pending := state.pending + 1, main := .idle }
  | .stopDump =>
      state.mainStep .idle
        (if state.mShouldSample then { state with main := .setFalse }
        else state)
  | .setFalse =>
      state.mainStep .setFalse
        { state with mShouldSample := false, main := .removeCallbacks }
  | .removeCallbacks =>
      state.mainStep .removeCallbacks
        { state with pending := 0, main := .idle }
  | .take =>
      if state.pending = 0 then none
      else
        state.samplerStep .idle
          { state with pending := state.pending - 1, sampler := .store }
  | .store time stack =>
      state.samplerStep .store
        { state with
          mStackMap := state.mStackMap.put time stack
          sampler := .readShouldSample }
  | .readShouldSample =>
      state.samplerStep .readShouldSample
        { state with
          sampler := if state.mShouldSample then .rePost else .idle }
  | .rePost =>
      state.samplerStep .rePost
        { state with pending := state.pending + 1, sampler := .idle }

variable {state next changed : Sampling}

theorem mainStep_eq_some {here : MainPc} :
    state.mainStep here changed = some next ↔
      state.main = here ∧ changed = next := by
  rw [mainStep]
  split
  · next isHere => rw [Option.some_inj, and_iff_right isHere]
  · next isOther =>
      exact iff_of_false (Option.some_ne_none _ ·.symm)
        fun both => isOther both.1

theorem samplerStep_eq_some {here : SamplerPc} :
    state.samplerStep here changed = some next ↔
      state.sampler = here ∧ changed = next := by
  rw [samplerStep]
  split
  · next isHere => rw [Option.some_inj, and_iff_right isHere]
  · next isOther =>
      exact iff_of_false (Option.some_ne_none _ ·.symm)
        fun both => isOther both.1

/-- The flag is down, and no `stopDump` has still to remove `mRunnable`. -/
def Stopped (state : Sampling) : Prop :=
  state.mShouldSample = false ∧ state.main ≠ .removeCallbacks

instance (state : Sampling) : Decidable state.Stopped :=
  inferInstanceAs (Decidable (_ ∧ _))

end Sampling

/-- The sampler under the statements of both threads, in any order. -/
def stackSampler : Guarded Sampling SamplingEvent :=
  ⟨.new, Sampling.step⟩

/-! ## The samples that were stored -/

/-- What is stored, in its order. -/
def storesOf (history : List SamplingEvent) : List (Millis × Text) :=
  history.filterMap fun
    | .store time stack => some (time, stack)
    | _ => none

namespace StackMap

def keys (stackMap : StackMap) : List Millis :=
  stackMap.entries.map Prod.fst

/-- The times that come into the map as new keys, in their order. -/
def inserted : StackMap → List (Millis × Text) → List Millis
  | _, [] => []
  | stackMap, (time, stack) :: rest =>
      (if time ∈ stackMap.evicted.map Prod.fst then [] else [time]) ++
        (stackMap.put time stack).inserted rest

def putAll (stackMap : StackMap) (stores : List (Millis × Text)) : StackMap :=
  stores.foldl (fun stackMap entry => stackMap.put entry.1 entry.2) stackMap

/-- A store drops keys at the front only, where the oldest stand. -/
theorem keys_put_isSuffix (stackMap : StackMap) (time : Millis)
    (stack : Text) :
    (stackMap.put time stack).keys <:+
      stackMap.keys ++
        if time ∈ stackMap.evicted.map Prod.fst then [] else [time] := by
  have dropped : stackMap.evicted.map Prod.fst <:+ stackMap.keys := by
    rw [evicted, keys]
    split
    · rw [List.map_tail]
      exact List.tail_suffix _
    · exact List.suffix_refl _
  have putKeys := keys_putEntry stackMap.evicted time stack
  rw [keys, put, putKeys]
  split
  · rw [List.append_nil]
    exact dropped
  · exact List.suffix_append_self_iff.mpr dropped

/-- What is left is what came last. -/
theorem keys_putAll_isSuffix (stackMap : StackMap)
    (stores : List (Millis × Text)) :
    (stackMap.putAll stores).keys <:+
      stackMap.keys ++ stackMap.inserted stores := by
  induction stores generalizing stackMap with
  | nil => exact List.suffix_append [] _ |>.trans (by simp [putAll, inserted])
  | cons entry rest inductionHypothesis =>
      have first := stackMap.keys_put_isSuffix entry.1 entry.2
      have behind := inductionHypothesis (stackMap.put entry.1 entry.2)
      rw [inserted, ← List.append_assoc]
      exact behind.trans (List.suffix_append_self_iff.mpr first)

end StackMap

/-! ## The law -/

/-- What is meant of the queue and of the map. -/
structure Orderly (history : List SamplingEvent) (state : Sampling) :
    Prop where
  onePending : state.pending ≤ 1
  noneWhileStopped : state.Stopped → state.sampler = .idle →
    state.pending = 0
  bounded : state.mStackMap.entries.length ≤ mMaxCount
  -- the map holds the times that were inserted last
  latest : state.mStackMap.keys <:+
    StackMap.empty.inserted (storesOf history)

/-- A step behind which a new run, or a new waiting runnable, begins. -/
def Renews (event : SamplingEvent) : Prop :=
  event = .take ∨ event = .removeOld

instance (event : SamplingEvent) : Decidable (Renews event) :=
  inferInstanceAs (Decidable (_ ∨ _))

/-- No `startDump` has begun to post since `mRunnable` was taken. -/
def Unrestarted (history : List SamplingEvent) : Prop :=
  LastOf Renews history .take

/-- `mRunnable` posts itself again only when the sampling was not started
anew during its run, and is not stopped. -/
def PostsInTime (history : List SamplingEvent) : Prop :=
  ∀ before rest, history = before ++ .rePost :: rest →
    Unrestarted before ∧
      ∀ state, stackSampler.after before = some state → ¬state.Stopped

theorem PostsInTime.of_append {history rest : List SamplingEvent}
    (inTime : PostsInTime (history ++ rest)) : PostsInTime history := by
  intro before others split
  exact inTime before (others ++ rest) (by simp [split])

/-! ## The steps -/

/-- What holds behind a history that posts in time. -/
structure Scheduled (history : List SamplingEvent) (state : Sampling) :
    Prop where
  onePending : state.pending ≤ 1
  noneStopped : state.Stopped → state.pending = 0
  noneBeforePost : state.main = .postDelayed → state.pending = 0
  raised : state.main = .removeOld ∨ state.main = .postDelayed →
    state.mShouldSample = true
  -- the run that goes on is the only one
  noneInRun : state.sampler ≠ .idle → Unrestarted history →
    state.pending = 0 ∧ state.main ≠ .postDelayed

theorem unrestarted_concat {history : List SamplingEvent}
    {event : SamplingEvent} :
    Unrestarted (history ++ [event]) ↔
      event = .take ∨ event ≠ .removeOld ∧ Unrestarted history := by
  rw [Unrestarted, lastOf_concat, eq_comm, Renews, not_or]
  constructor
  · rintro (isTake | ⟨⟨_, isOther⟩, before⟩)
    · exact Or.inl isTake
    · exact Or.inr ⟨isOther, before⟩
  · intro either
    by_cases isTake : event = .take
    · exact Or.inl isTake
    · obtain ⟨isOther, before⟩ := either.resolve_left isTake
      exact Or.inr ⟨⟨isTake, isOther⟩, before⟩

section Steps

variable {history : List SamplingEvent} {event : SamplingEvent}
  {state next : Sampling}

theorem scheduled_new : Scheduled [] Sampling.new where
  onePending := Nat.zero_le _
  noneStopped := fun _ => rfl
  noneBeforePost := fun _ => rfl
  raised := by
    rintro (isHere | isHere)
    · cases isHere
    · cases isHere
  noneInRun := fun inRun => absurd rfl inRun

theorem Unrestarted.of_concat (isOther : event ≠ .take)
    (unrestarted : Unrestarted (history ++ [event])) :
    Unrestarted history :=
  ((unrestarted_concat.mp unrestarted).resolve_left isOther).2

/-- A step of the main thread that leaves the queue as it is. -/
theorem Scheduled.of_main (scheduled : Scheduled history state)
    (isOther : event ≠ .take)
    (pending : next.pending = state.pending)
    (sampler : next.sampler = state.sampler)
    (notPost : next.main ≠ .postDelayed)
    (stopped : next.Stopped → state.Stopped)
    (raised : next.main = .removeOld → next.mShouldSample = true) :
    Scheduled (history ++ [event]) next where
  onePending := pending ▸ scheduled.onePending
  noneStopped := fun nextStopped =>
    pending ▸ scheduled.noneStopped (stopped nextStopped)
  noneBeforePost := fun isPost => absurd isPost notPost
  raised := fun either =>
    either.elim raised fun isPost => absurd isPost notPost
  noneInRun := by
    intro inRun again
    rw [sampler] at inRun
    rw [pending]
    exact ⟨(scheduled.noneInRun inRun (again.of_concat isOther)).1, notPost⟩

/-- A step of the sampler that leaves the queue as it is. -/
theorem Scheduled.of_sampler (scheduled : Scheduled history state)
    (isOther : event ≠ .take)
    (pending : next.pending = state.pending)
    (main : next.main = state.main)
    (mShouldSample : next.mShouldSample = state.mShouldSample)
    (inRun : state.sampler ≠ .idle) :
    Scheduled (history ++ [event]) next where
  onePending := pending ▸ scheduled.onePending
  noneStopped := by
    intro stopped
    rw [Sampling.Stopped, main, mShouldSample] at stopped
    rw [pending]
    exact scheduled.noneStopped stopped
  noneBeforePost := by
    rw [main, pending]
    exact scheduled.noneBeforePost
  raised := by
    rw [main, mShouldSample]
    exact scheduled.raised
  noneInRun := by
    intro _ again
    rw [main, pending]
    exact scheduled.noneInRun inRun (again.of_concat isOther)

theorem Scheduled.startDump (scheduled : Scheduled history state)
    (stepped : state.step .startDump = some next) :
    Scheduled (history ++ [.startDump]) next := by
  obtain ⟨isIdle, rfl⟩ := Sampling.mainStep_eq_some.mp stepped
  split
  · exact scheduled.of_main (by simp) rfl rfl (by simp [isIdle]) id
      (by simp [isIdle])
  · exact scheduled.of_main (by simp) rfl rfl (by simp)
      (fun stopped => ⟨stopped.1, by simp [isIdle]⟩) (by simp)

theorem Scheduled.stopDump (scheduled : Scheduled history state)
    (stepped : state.step .stopDump = some next) :
    Scheduled (history ++ [.stopDump]) next := by
  obtain ⟨isIdle, rfl⟩ := Sampling.mainStep_eq_some.mp stepped
  split
  · exact scheduled.of_main (by simp) rfl rfl (by simp)
      (fun stopped => ⟨stopped.1, by simp [isIdle]⟩) (by simp)
  · exact scheduled.of_main (by simp) rfl rfl (by simp [isIdle]) id
      (by simp [isIdle])

theorem Scheduled.setTrue (scheduled : Scheduled history state)
    (stepped : state.step .setTrue = some next) :
    Scheduled (history ++ [.setTrue]) next := by
  obtain ⟨_, rfl⟩ := Sampling.mainStep_eq_some.mp stepped
  exact scheduled.of_main (by simp) rfl rfl (by simp)
    (fun stopped => absurd stopped.1 (by simp)) fun _ => rfl

theorem Scheduled.setFalse (scheduled : Scheduled history state)
    (stepped : state.step .setFalse = some next) :
    Scheduled (history ++ [.setFalse]) next := by
  obtain ⟨_, rfl⟩ := Sampling.mainStep_eq_some.mp stepped
  exact scheduled.of_main (by simp) rfl rfl (by simp)
    (fun stopped => absurd rfl stopped.2) (by simp)

/-- `startDump` clears the queue before it posts. -/
theorem Scheduled.removeOld (scheduled : Scheduled history state)
    (stepped : state.step .removeOld = some next) :
    Scheduled (history ++ [.removeOld]) next := by
  obtain ⟨isHere, rfl⟩ := Sampling.mainStep_eq_some.mp stepped
  exact {
    onePending := Nat.zero_le _
    noneStopped := fun _ => rfl
    noneBeforePost := fun _ => rfl
    raised := fun _ => scheduled.raised (Or.inl isHere)
    noneInRun := fun _ again => by simp [unrestarted_concat] at again }

/-- `startDump` posts into an empty queue. -/
theorem Scheduled.postDelayed (scheduled : Scheduled history state)
    (stepped : state.step .postDelayed = some next) :
    Scheduled (history ++ [.postDelayed]) next := by
  obtain ⟨isHere, rfl⟩ := Sampling.mainStep_eq_some.mp stepped
  have none := scheduled.noneBeforePost isHere
  have raised := scheduled.raised (Or.inr isHere)
  exact {
    onePending := by simp [none]
    noneStopped := fun stopped => by
      rw [Sampling.Stopped, raised] at stopped
      cases stopped.1
    noneBeforePost := by simp
    raised := by simp
    noneInRun := fun inRun again =>
      absurd isHere
        (scheduled.noneInRun inRun (again.of_concat (by simp))).2 }

theorem scheduled_removeCallbacks
    (stepped : state.step .removeCallbacks = some next) :
    Scheduled (history ++ [.removeCallbacks]) next := by
  obtain ⟨_, rfl⟩ := Sampling.mainStep_eq_some.mp stepped
  exact {
    onePending := Nat.zero_le _
    noneStopped := fun _ => rfl
    noneBeforePost := fun _ => rfl
    raised := by simp
    noneInRun := fun _ _ => ⟨rfl, by simp⟩ }

/-- The only waiting runnable is taken. -/
theorem Scheduled.take (scheduled : Scheduled history state)
    (stepped : state.step .take = some next) :
    Scheduled (history ++ [.take]) next := by
  rw [Sampling.step] at stepped
  split at stepped
  · cases stepped
  · next waiting =>
      obtain ⟨_, rfl⟩ := Sampling.samplerStep_eq_some.mp stepped
      have one := scheduled.onePending
      have none : state.pending - 1 = 0 := by omega
      exact {
        onePending := by simp [none]
        noneStopped := fun _ => none
        noneBeforePost := fun _ => none
        raised := scheduled.raised
        noneInRun := fun _ _ =>
          ⟨none, fun isPost => waiting (scheduled.noneBeforePost isPost)⟩ }

theorem Scheduled.store (scheduled : Scheduled history state)
    {time : Millis} {stack : Text}
    (stepped : state.step (.store time stack) = some next) :
    Scheduled (history ++ [.store time stack]) next := by
  obtain ⟨isHere, rfl⟩ := Sampling.samplerStep_eq_some.mp stepped
  exact scheduled.of_sampler (by simp) rfl rfl rfl (by simp [isHere])

theorem Scheduled.readShouldSample (scheduled : Scheduled history state)
    (stepped : state.step .readShouldSample = some next) :
    Scheduled (history ++ [.readShouldSample]) next := by
  obtain ⟨isHere, rfl⟩ := Sampling.samplerStep_eq_some.mp stepped
  exact scheduled.of_sampler (by simp) rfl rfl rfl (by simp [isHere])

/-- `mRunnable` posts itself in the run that was posted last. -/
theorem Scheduled.rePost (scheduled : Scheduled history state)
    (unrestarted : Unrestarted history) (goesOn : ¬state.Stopped)
    (stepped : state.step .rePost = some next) :
    Scheduled (history ++ [.rePost]) next := by
  obtain ⟨isHere, rfl⟩ := Sampling.samplerStep_eq_some.mp stepped
  obtain ⟨none, notPost⟩ :=
    scheduled.noneInRun (by simp [isHere]) unrestarted
  exact {
    onePending := by simp [none]
    noneStopped := fun stopped => absurd stopped goesOn
    noneBeforePost := fun isPost => absurd isPost notPost
    raised := scheduled.raised
    noneInRun := fun inRun => absurd rfl inRun }

/-- Step lemma. -/
theorem Scheduled.step (scheduled : Scheduled history state)
    (allowed : event = .rePost → Unrestarted history ∧ ¬state.Stopped)
    (stepped : state.step event = some next) :
    Scheduled (history ++ [event]) next := by
  cases event with
  | startDump => exact scheduled.startDump stepped
  | setTrue => exact scheduled.setTrue stepped
  | removeOld => exact scheduled.removeOld stepped
  | postDelayed => exact scheduled.postDelayed stepped
  | stopDump => exact scheduled.stopDump stepped
  | setFalse => exact scheduled.setFalse stepped
  | removeCallbacks => exact scheduled_removeCallbacks stepped
  | take => exact scheduled.take stepped
  | store time stack => exact scheduled.store stepped
  | readShouldSample => exact scheduled.readShouldSample stepped
  | rePost =>
      obtain ⟨unrestarted, goesOn⟩ := allowed rfl
      exact scheduled.rePost unrestarted goesOn stepped

/-- The map is what the stores have put into it. -/
theorem mStackMap_step (stepped : state.step event = some next) :
    next.mStackMap = state.mStackMap.putAll (storesOf [event]) := by
  cases event with
  | take =>
      rw [Sampling.step] at stepped
      split at stepped
      · cases stepped
      · obtain ⟨_, rfl⟩ := Sampling.samplerStep_eq_some.mp stepped
        rfl
  | startDump | stopDump =>
      obtain ⟨_, rfl⟩ := Sampling.mainStep_eq_some.mp stepped
      split
      · rfl
      · rfl
  | setTrue | removeOld | postDelayed | setFalse | removeCallbacks =>
      obtain ⟨_, rfl⟩ := Sampling.mainStep_eq_some.mp stepped
      rfl
  | store time stack | readShouldSample | rePost =>
      obtain ⟨_, rfl⟩ := Sampling.samplerStep_eq_some.mp stepped
      rfl

end Steps

/-! ## Whole runs -/

section Runs

variable {history : List SamplingEvent} {state : Sampling}

theorem storesOf_append (initial rest : List SamplingEvent) :
    storesOf (initial ++ rest) = storesOf initial ++ storesOf rest :=
  List.filterMap_append

theorem mStackMap_after
    (isHistory : stackSampler.after history = some state) :
    state.mStackMap = StackMap.empty.putAll (storesOf history) := by
  induction history using List.reverseRecOn generalizing state with
  | nil =>
      rw [← Option.some_inj.mp isHistory]
      rfl
  | append_singleton before event inductionHypothesis =>
      obtain ⟨between, isBetween, stepped⟩ :=
        Guarded.after_concat_eq_some.mp isHistory
      rw [mStackMap_step stepped, inductionHypothesis isBetween,
        storesOf_append, StackMap.putAll, StackMap.putAll, StackMap.putAll,
        List.foldl_append]

/-- Run lemma. -/
theorem scheduled_after (isHistory : stackSampler.after history = some state)
    (inTime : PostsInTime history) : Scheduled history state := by
  induction history using List.reverseRecOn generalizing state with
  | nil =>
      rw [← Option.some_inj.mp isHistory]
      exact scheduled_new
  | append_singleton before event inductionHypothesis =>
      obtain ⟨between, isBetween, stepped⟩ :=
        Guarded.after_concat_eq_some.mp isHistory
      refine (inductionHypothesis isBetween inTime.of_append).step ?_
        stepped
      rintro rfl
      obtain ⟨unrestarted, goesOn⟩ := inTime before [] rfl
      exact ⟨unrestarted, goesOn between isBetween⟩

/-- In such a run the sampling is orderly behind every step. -/
theorem orderly_of_postsInTime
    (isHistory : stackSampler.after history = some state)
    (inTime : PostsInTime history) : Orderly history state where
  onePending := (scheduled_after isHistory inTime).onePending
  noneWhileStopped := fun stopped _ =>
    (scheduled_after isHistory inTime).noneStopped stopped
  bounded := state.mStackMap.bounded
  latest := by
    rw [mStackMap_after isHistory]
    exact StackMap.empty.keys_putAll_isSuffix (storesOf history)

theorem postsInTime_of_notMem (noRePost : .rePost ∉ history) :
    PostsInTime history := by
  intro before rest split
  refine absurd ?_ noRePost
  rw [split]
  exact List.mem_append_right _ List.mem_cons_self

/-- The runnable that posts itself now does so in time. -/
theorem PostsInTime.rePost (inTime : PostsInTime history)
    (unrestarted : Unrestarted history)
    (goesOn : ∀ state, stackSampler.after history = some state →
      ¬state.Stopped) : PostsInTime (history ++ [.rePost]) := by
  intro before rest split
  rcases List.eq_nil_or_concat rest with rfl | ⟨middle, final, rfl⟩
  · rw [← (List.append_inj' split rfl).1]
    exact ⟨unrestarted, goesOn⟩
  · have regrouped : history ++ [.rePost] =
        (before ++ .rePost :: middle) ++ [final] := by
      simpa using split
    exact inTime before middle (List.append_inj' regrouped rfl).1

end Runs

/-! ## Runs with one sample -/

def started : List SamplingEvent :=
  [.startDump, .setTrue, .removeOld, .postDelayed]

def stopped : List SamplingEvent :=
  [.stopDump, .setFalse, .removeCallbacks]

/-- Up to the flag that a run reads. -/
def sampled : List SamplingEvent :=
  started ++ [.take, .store 1000 "main".toList, .readShouldSample]

def restartedInRun : List SamplingEvent :=
  started ++ [.take] ++ stopped ++ started ++
    [.store 1000 "main".toList, .readShouldSample, .rePost]

def stoppedInRun : List SamplingEvent :=
  sampled ++ stopped ++ [.rePost]

theorem postsInTime_sampled : PostsInTime (sampled ++ [.rePost]) := by
  refine (postsInTime_of_notMem (by decide)).rePost ?_ ?_
  · exact ⟨started, _, rfl, by decide⟩
  · intro state isHistory
    rw [← Option.some.inj isHistory]
    decide

theorem sampled_orderly :
    ∃ state, stackSampler.after (sampled ++ [.rePost]) = some state ∧
      Orderly (sampled ++ [.rePost]) state :=
  ⟨_, rfl, orderly_of_postsInTime rfl postsInTime_sampled⟩

/-- Started anew during a run, `mRunnable` waits twice; stopped between the
flag and the post, it waits although the sampling is stopped. -/
theorem restarted_and_stopped_not_orderly :
    (∃ state, stackSampler.after restartedInRun = some state ∧
      state.pending = 2 ∧ ¬Orderly restartedInRun state) ∧
    ∃ state, stackSampler.after stoppedInRun = some state ∧
      state.Stopped ∧ state.sampler = .idle ∧ state.pending = 1 ∧
        ¬Orderly stoppedInRun state := by
  refine ⟨⟨_, rfl, rfl, fun orderly => ?_⟩,
    ⟨_, rfl, by decide, rfl, rfl, fun orderly => ?_⟩⟩
  · exact absurd orderly.onePending (by decide)
  · exact absurd (orderly.noneWhileStopped (by decide) rfl) (by decide)

end DripStone.BlockCanary
