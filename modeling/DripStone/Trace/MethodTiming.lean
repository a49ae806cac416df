import DripStone.Trace.TimeObserver

/-!
# The costs of nested methods

The observer keeps one time for each key.  It gets through a well nested
sequence of entries and exits, and reports the cost of each activation,
exactly if a method is never entered while an activation with the same key is
still open.
-/

namespace DripStone.Trace

/-- A method and the thread that runs it. -/
structure Call where
  tag : String
  methodName : String
  threadName : String
deriving DecidableEq, Repr

def Call.key (call : Call) : String :=
  TimeObserver.generateKey call.tag call.methodName call.threadName

/-- Each event has its time. -/
inductive TimedCall where
  | onMethodEnter (call : Call) (currentTimeMillis : Int)
  | onMethodExit (call : Call) (currentTimeMillis : Int)
deriving DecidableEq, Repr

/-! ## Open activations -/

/-- The activations that are not finished, with their times of entry, the
latest first. -/
abbrev Pending := List (Call × Int)

/-- Takes out the innermost activation of a thread. -/
def close (threadName : String) : Pending → Option ((Call × Int) × Pending)
  | [] => none
  | activation :: rest =>
      if activation.1.threadName = threadName then some (activation, rest)
      else
        (close threadName rest).map fun closed =>
          (closed.1, activation :: closed.2)

/-- In each thread an exit belongs to the innermost activation, and all
activations are finished in the end. -/
def WellNested : Pending → List TimedCall → Prop
  | pending, [] => pending = []
  | pending, .onMethodEnter call now :: rest =>
      WellNested ((call, now) :: pending) rest
  | pending, .onMethodExit call _ :: rest =>
      match close call.threadName pending with
      | none => False
      | some (activation, others) =>
          activation.1 = call ∧ WellNested others rest

/-- Each exit gets through and reports the time since its own entry. -/
def Measures : TimeObserver → Pending → List TimedCall → Prop
  | _, _, [] => True
  | observer, pending, .onMethodEnter call now :: rest =>
      Measures (observer.onMethodEnter call.tag call.methodName
        call.threadName now) ((call, now) :: pending) rest
  | observer, pending, .onMethodExit call now :: rest =>
      match close call.threadName pending, observer.onMethodExit call.tag
        call.methodName call.threadName now with
      | some (activation, others), .ok (next, cost) =>
          cost = now - activation.2 ∧ Measures next others rest
      | _, _ => False

/-- No method is entered while its key is in use. -/
def KeysApart : Pending → List TimedCall → Prop
  | _, [] => True
  | pending, .onMethodEnter call now :: rest =>
      (∀ activation ∈ pending, activation.1.key ≠ call.key) ∧
        KeysApart ((call, now) :: pending) rest
  | pending, .onMethodExit call _ :: rest =>
      match close call.threadName pending with
      | none => True
      | some (_, others) => KeysApart others rest

section Close

variable {threadName : String} {pending others : Pending}
variable {activation : Call × Int}

theorem close_perm
    (closes : close threadName pending = some (activation, others)) :
    pending.Perm (activation :: others) := by
  induction pending generalizing others with
  | nil => cases closes
  | cons first rest inductionHypothesis =>
      rw [close] at closes
      split at closes
      · cases closes
        exact List.Perm.refl _
      · obtain ⟨⟨found, remaining⟩, later, isClosed⟩ :=
          Option.map_eq_some_iff.mp closes
        cases isClosed
        exact ((inductionHypothesis later).cons first).trans
          (List.Perm.swap _ _ _)

end Close

/-! ## One time for each activation -/

namespace TimeObserver

variable {observer : TimeObserver} {pending others : Pending}

/-- The observer has the time of each activation, under different keys. -/
structure Keeps (observer : TimeObserver) (pending : Pending) : Prop where
  times : ∀ activation ∈ pending,
    observer.enterTimeMap activation.1.key = some activation.2
  distinct : (pending.map fun activation => activation.1.key).Nodup

theorem keeps_nil (observer : TimeObserver) : observer.Keeps [] := by
  constructor
  · intro activation member
    cases member
  · exact List.nodup_nil

/-- Step lemma: an entry under a free key. -/
theorem Keeps.enter (keeps : observer.Keeps pending) {call : Call}
    (free : ∀ activation ∈ pending, activation.1.key ≠ call.key) (now : Int) :
    (observer.onMethodEnter call.tag call.methodName call.threadName
      now).Keeps ((call, now) :: pending) := by
  constructor
  · intro activation member
    rcases List.mem_cons.mp member with rfl | inPending
    · exact Function.update_self ..
    · exact (Function.update_of_ne (free activation inPending) _ _).trans
        (keeps.times activation inPending)
  · rw [List.map_cons, List.nodup_cons]
    refine ⟨fun used => ?_, keeps.distinct⟩
    obtain ⟨activation, member, sameKey⟩ := List.mem_map.mp used
    exact free activation member sameKey

/-- Step lemma: an exit takes out the time of its own entry. -/
theorem Keeps.exit (keeps : observer.Keeps pending) {activation : Call × Int}
    (closed : pending.Perm (activation :: others)) (now : Int) :
    ∃ next, observer.onMethodExit activation.1.tag activation.1.methodName
        activation.1.threadName now = .ok (next, now - activation.2) ∧
      next.Keeps others := by
  have time := keeps.times activation (closed.mem_iff.mpr List.mem_cons_self)
  have distinct := (closed.map fun entry => entry.1.key).nodup_iff.mp
    keeps.distinct
  rw [List.map_cons, List.nodup_cons] at distinct
  refine ⟨⟨Function.update observer.enterTimeMap activation.1.key none⟩, ?_,
    ?_, distinct.2⟩
  · rw [Call.key] at time
    rw [onMethodExit, time]
    rfl
  · intro other member
    have isOther : other.1.key ≠ activation.1.key := by
      intro sameKey
      exact distinct.1 (List.mem_map.mpr ⟨other, member, sameKey⟩)
    exact (Function.update_of_ne isOther _ _).trans
      (keeps.times other (closed.mem_iff.mpr (List.mem_cons_of_mem _ member)))

theorem Keeps.measures (keeps : observer.Keeps pending)
    {events : List TimedCall} (nested : WellNested pending events)
    (apart : KeysApart pending events) : Measures observer pending events := by
  induction events generalizing observer pending with
  | nil => trivial
  | cons event rest inductionHypothesis =>
      cases event with
      | onMethodEnter call now =>
          exact inductionHypothesis (keeps.enter apart.1 now) nested apart.2
      | onMethodExit call now =>
          rw [WellNested] at nested
          rw [KeysApart] at apart
          rw [Measures]
          cases closes : close call.threadName pending with
          | none =>
              rw [closes] at nested
              exact nested.elim
          | some closed =>
              obtain ⟨activation, others⟩ := closed
              rw [closes] at nested apart
              obtain ⟨rfl, nestedRest⟩ := nested
              obtain ⟨next, exits, keepsRest⟩ :=
                keeps.exit (close_perm closes) now
              rw [exits]
              exact ⟨rfl, inductionHypothesis keepsRest nestedRest apart⟩

/-! ## Two activations for one time -/

/-- How many times the observer has for a key. -/
def slots (observer : TimeObserver) (key : String) : Nat :=
  if (observer.enterTimeMap key).isSome then 1 else 0

def openUnder (key : String) (pending : Pending) : Nat :=
  pending.countP fun activation => activation.1.key = key

theorem enterTimeMap_enter (observer : TimeObserver) (call : Call)
    (now : Int) :
    (observer.onMethodEnter call.tag call.methodName call.threadName
      now).enterTimeMap =
        Function.update observer.enterTimeMap call.key (some now) :=
  rfl

theorem slots_enter (observer : TimeObserver) (call : Call) (now : Int)
    (key : String) :
    (observer.onMethodEnter call.tag call.methodName call.threadName
        now).slots key =
      if key = call.key then 1 else observer.slots key := by
  rw [slots, enterTimeMap_enter]
  by_cases same : key = call.key
  · rw [if_pos same, same, Function.update_self]
    rfl
  · rw [if_neg same, Function.update_of_ne same, slots]

theorem enterTimeMap_exit {call : Call} {now : Int} {next : TimeObserver}
    {cost : Int}
    (exits : observer.onMethodExit call.tag call.methodName call.threadName
      now = .ok (next, cost)) :
    next.enterTimeMap = Function.update observer.enterTimeMap call.key none ∧
      (observer.enterTimeMap call.key).isSome := by
  rw [onMethodExit] at exits
  split at exits
  · cases exits
  · next enterTime isTime =>
      cases exits
      refine ⟨rfl, ?_⟩
      rw [Call.key, isTime]
      rfl

theorem slots_exit {call : Call} {now : Int} {next : TimeObserver}
    {cost : Int}
    (exits : observer.onMethodExit call.tag call.methodName call.threadName
      now = .ok (next, cost)) (key : String) :
    next.slots key = (if key = call.key then 0 else observer.slots key) ∧
      (key = call.key → observer.slots key = 1) := by
  obtain ⟨isUpdate, found⟩ := enterTimeMap_exit exits
  rw [slots, isUpdate]
  by_cases same : key = call.key
  · rw [if_pos same, same, Function.update_self]
    exact ⟨rfl, fun _ => if_pos found⟩
  · rw [if_neg same, Function.update_of_ne same]
    exact ⟨rfl, fun isSame => absurd isSame same⟩

/-- More open activations than times: an exit finds none. -/
theorem not_measures_of_openUnder {events : List TimedCall} {key : String}
    (nested : WellNested pending events)
    (more : observer.slots key < openUnder key pending) :
    ¬Measures observer pending events := by
  induction events generalizing observer pending with
  | nil =>
      rw [WellNested] at nested
      subst nested
      exact absurd more (Nat.not_lt_zero _)
  | cons event rest inductionHypothesis =>
      cases event with
      | onMethodEnter call now =>
          refine inductionHypothesis nested ?_
          rw [slots_enter, openUnder, List.countP_cons, ← openUnder]
          by_cases same : key = call.key
          · simp only [same, if_true, decide_true]
            rw [same] at more
            omega
          · simp only [same, Ne.symm same, if_false, decide_false,
              Bool.false_eq_true]
            exact more
      | onMethodExit call now =>
          rw [WellNested] at nested
          rw [Measures]
          cases closes : close call.threadName pending with
          | none =>
              rw [closes] at nested
              exact nested.elim
          | some closed =>
              obtain ⟨activation, others⟩ := closed
              rw [closes] at nested
              obtain ⟨rfl, nestedRest⟩ := nested
              cases exits : observer.onMethodExit activation.1.tag
                  activation.1.methodName activation.1.threadName now with
              | error message => exact fun measures => measures
              | ok result =>
                  obtain ⟨next, cost⟩ := result
                  have slot := slots_exit exits key
                  have counts := (close_perm closes).countP_eq
                    fun entry => entry.1.key = key
                  rw [List.countP_cons] at counts
                  have stillMore : next.slots key < openUnder key others := by
                    rw [openUnder] at more ⊢
                    by_cases same : key = activation.1.key
                    · have one := slot.2 same
                      rw [slot.1, if_pos same]
                      simp only [same, decide_true, if_true] at counts more ⊢
                      rw [same] at one
                      omega
                    · rw [slot.1, if_neg same]
                      simp only [Ne.symm same, decide_false, if_false,
                        Bool.false_eq_true] at counts
                      omega
                  exact fun measures =>
                    inductionHypothesis nestedRest stillMore measures.2

theorem keysApart_of_measures {events : List TimedCall}
    (nested : WellNested pending events)
    (measures : Measures observer pending events) :
    KeysApart pending events := by
  induction events generalizing observer pending with
  | nil => trivial
  | cons event rest inductionHypothesis =>
      cases event with
      | onMethodEnter call now =>
          have nestedRest : WellNested ((call, now) :: pending) rest := nested
          refine ⟨fun activation member sameKey => ?_,
            inductionHypothesis nestedRest measures⟩
          refine @not_measures_of_openUnder _ _ rest call.key nestedRest ?_
            measures
          have one : 0 < openUnder call.key pending :=
            List.countP_pos_iff.mpr
              ⟨activation, member, by simpa using sameKey⟩
          rw [slots_enter, if_pos rfl, openUnder, List.countP_cons,
            ← openUnder]
          simp only [decide_true, if_true]
          omega
      | onMethodExit call now =>
          rw [WellNested] at nested
          rw [Measures] at measures
          rw [KeysApart]
          cases closes : close call.threadName pending with
          | none => trivial
          | some closed =>
              obtain ⟨activation, others⟩ := closed
              rw [closes] at nested measures
              cases exits : observer.onMethodExit call.tag call.methodName
                  call.threadName now with
              | error message =>
                  rw [exits] at measures
                  exact measures.elim
              | ok result =>
                  rw [exits] at measures
                  exact inductionHypothesis nested.2 measures.2

end TimeObserver

theorem measures_iff_keysApart {events : List TimedCall}
    (nested : WellNested [] events) :
    Measures .new [] events ↔ KeysApart [] events :=
  ⟨TimeObserver.keysApart_of_measures nested,
    (TimeObserver.keeps_nil .new).measures nested⟩

/-- Two methods, one inside the other. -/
theorem measures_nested :
    Measures .new []
      [.onMethodEnter ⟨"a", "outer", "main"⟩ 0,
        .onMethodEnter ⟨"a", "inner", "main"⟩ 5,
        .onMethodExit ⟨"a", "inner", "main"⟩ 7,
        .onMethodExit ⟨"a", "outer", "main"⟩ 9] :=
  (measures_iff_keysApart (by simp [WellNested, close])).mpr
    (by simp [KeysApart, close, Call.key, TimeObserver.generateKey])

def recursion : List TimedCall :=
  [.onMethodEnter ⟨"a", "m", "main"⟩ 0, .onMethodEnter ⟨"a", "m", "main"⟩ 5,
    .onMethodExit ⟨"a", "m", "main"⟩ 7, .onMethodExit ⟨"a", "m", "main"⟩ 9]

theorem recursion_throws :
    WellNested [] recursion ∧ ¬Measures .new [] recursion := by
  constructor
  · simp [recursion, WellNested, close]
  · simp [recursion, Measures, close, TimeObserver.onMethodEnter,
      TimeObserver.onMethodExit, TimeObserver.generateKey]

end DripStone.Trace
