import DripStone.Library.Mealy

/-!
# `RouterFragment`

Requests are told apart by random codes.  The code of a new request is drawn
until it belongs to no pending callback, but ten times at most.
-/

namespace DripStone.ActivityResult

open DripStone.Library

/-- The callbacks by request code, and the codes under which the requests that
have no result yet were started. -/
structure RouterFragment (Request : Type) where
  mCallbacks : Int → Option Request
  started : Request → Option Int

/-- `mCodeGenerator.nextInt(0x0000FFFF)`. -/
abbrev Draw := Fin 65535

inductive Event (Request Answer : Type) where
  -- with the numbers that the generator would draw
  | startActivityForResult (request : Request) (draws : Nat → Draw)
  -- the result of a started request
  | answer (request : Request) (result : Answer)
  -- a result for a code that no request waits for
  | unknown (requestCode : Int) (result : Answer)

/-- A callback invoked. -/
structure Invocation (Request Answer : Type) where
  request : Request
  result : Answer
deriving DecidableEq, Repr

section Fragment

variable {Request Answer : Type}

namespace RouterFragment

def new : RouterFragment Request :=
  ⟨fun _ => none, fun _ => none⟩

def isPending (fragment : RouterFragment Request) (requestCode : Int) :
    Bool :=
  (fragment.mCallbacks requestCode).isSome

/-- The loop of `makeRequestCode` after `tryCount` draws, with so many retries
left. -/
def drawRequestCode (fragment : RouterFragment Request)
    (draws : Nat → Draw) : (retries tryCount : Nat) → Int
  | 0, tryCount => (draws tryCount).val
  | retries + 1, tryCount =>
      if fragment.isPending (draws tryCount).val then
        fragment.drawRequestCode draws retries (tryCount + 1)
      else (draws tryCount).val

def makeRequestCode (fragment : RouterFragment Request)
    (draws : Nat → Draw) : Int :=
  fragment.drawRequestCode draws 9 0

variable [DecidableEq Request]

def startActivityForResult (fragment : RouterFragment Request)
    (request : Request) (draws : Nat → Draw) : RouterFragment Request :=
  let requestCode := fragment.makeRequestCode draws
  { mCallbacks :=
      Function.update fragment.mCallbacks requestCode (some request)
    started := Function.update fragment.started request (some requestCode) }

def onActivityResult (fragment : RouterFragment Request) (requestCode : Int)
    (result : Answer) :
    RouterFragment Request × List (Invocation Request Answer) :=
  ({ fragment with
      mCallbacks := Function.update fragment.mCallbacks requestCode none },
    match fragment.mCallbacks requestCode with
    | some request => [⟨request, result⟩]
    | none => [])

def step (fragment : RouterFragment Request) :
    Event Request Answer →
      RouterFragment Request × List (Invocation Request Answer)
  | .startActivityForResult request draws =>
      (fragment.startActivityForResult request draws, [])
  | .answer request result =>
      match fragment.started request with
      | some requestCode =>
          { fragment with
              started := Function.update fragment.started request none }
            |>.onActivityResult requestCode result
      | none => (fragment, [])
  | .unknown requestCode result =>
      fragment.onActivityResult requestCode result

end RouterFragment

variable [DecidableEq Request]

/-- The fragment under events; its trace is the callbacks invoked. -/
def machine :
    Mealy (RouterFragment Request) (Event Request Answer)
      (Invocation Request Answer) :=
  ⟨RouterFragment.step⟩

def fragmentAfter (events : List (Event Request Answer)) :
    RouterFragment Request :=
  machine.run .new events

/-! ## The law -/

/-- A started request is answered once, and an unknown code belongs to no
request that waits. -/
def Orderly (before : List (Event Request Answer)) :
    Event Request Answer → Prop
  | .startActivityForResult request _ =>
      (fragmentAfter before).started request = none
  | .answer request _ => (fragmentAfter before).started request ≠ none
  | .unknown requestCode _ => ∀ request,
      (fragmentAfter before).started request ≠ some requestCode

/-- A new request does not take the place of a pending callback. -/
def ReplacesNothing (before : List (Event Request Answer)) :
    Event Request Answer → Prop
  | .startActivityForResult _ draws =>
      (fragmentAfter before).isPending
        ((fragmentAfter before).makeRequestCode draws) = false
  | _ => True

/-- The results given for a request. -/
def answersOf (request : Request) (events : List (Event Request Answer)) :
    List Answer :=
  events.filterMap fun event =>
    match event with
    | .answer other result => if other = request then some result else none
    | _ => none

/-- The results that the callback of a request was invoked with. -/
def invocationsOf (request : Request)
    (invocations : List (Invocation Request Answer)) : List Answer :=
  invocations.filterMap fun invocation =>
    if invocation.request = request then some invocation.result else none

/-- No pending callback is replaced, and every callback is invoked with the
results of its own request and no others. -/
structure Routed (events : List (Event Request Answer)) : Prop where
  replacesNothing : AtEvery ReplacesNothing events
  own : ∀ request : Request,
    invocationsOf request (machine.trace .new events) =
      answersOf request events

/-- One of the ten numbers drawn for a request belongs to no pending
callback. -/
def Drawable (before : List (Event Request Answer)) :
    Event Request Answer → Prop
  | .startActivityForResult _ draws =>
      ∃ tryCount < 10,
        (fragmentAfter before).isPending (draws tryCount).val = false
  | _ => True

/-! ## The code drawn -/

omit [DecidableEq Request] in
theorem isPending_drawRequestCode (fragment : RouterFragment Request)
    (draws : Nat → Draw) (retries tryCount : Nat) :
    fragment.isPending (fragment.drawRequestCode draws retries tryCount) =
        true ↔
      ∀ further ≤ retries,
        fragment.isPending (draws (tryCount + further)).val = true := by
  induction retries generalizing tryCount with
  | zero =>
      rw [RouterFragment.drawRequestCode]
      constructor
      · intro pending further isLast
        obtain rfl : further = 0 := by omega
        exact pending
      · intro each
        exact each 0 (Nat.le_refl 0)
  | succ retries inductionHypothesis =>
      rw [RouterFragment.drawRequestCode]
      by_cases first : fragment.isPending (draws tryCount).val = true
      · rw [if_pos first, inductionHypothesis]
        constructor
        · intro each further bounded
          cases further with
          | zero => exact first
          | succ further =>
              have later := each further (by omega)
              rwa [Nat.add_right_comm] at later
        · intro each further bounded
          have later := each (further + 1) (by omega)
          rwa [← Nat.add_assoc, Nat.add_right_comm] at later
      · rw [if_neg first]
        constructor
        · intro pending
          exact absurd pending first
        · intro each
          exact absurd (each 0 (Nat.zero_le _)) first

/-- A code is free exactly when one of the ten draws is. -/
theorem replacesNothing_iff_drawable {before : List (Event Request Answer)}
    {event : Event Request Answer} :
    ReplacesNothing before event ↔ Drawable before event := by
  cases event with
  | startActivityForResult request draws =>
      have drawn := isPending_drawRequestCode (fragmentAfter before) draws 9 0
      rw [ReplacesNothing, Drawable, RouterFragment.makeRequestCode,
        ← Bool.not_eq_true, drawn]
      constructor
      · intro free
        simp only [not_forall, Nat.zero_add] at free
        obtain ⟨tryCount, bounded, isFree⟩ := free
        exact ⟨tryCount, by omega, by simpa using isFree⟩
      · rintro ⟨tryCount, bounded, isFree⟩ each
        have pending := each tryCount (by omega)
        rw [Nat.zero_add, isFree] at pending
        exact absurd pending (by simp)
  | answer request result => exact Iff.rfl
  | unknown requestCode result => exact Iff.rfl

/-! ## Callbacks and requests -/

/-- The pending callbacks are those of the requests that wait. -/
def Matched (fragment : RouterFragment Request) : Prop :=
  ∀ request requestCode,
    fragment.started request = some requestCode ↔
      fragment.mCallbacks requestCode = some request

omit [DecidableEq Request] in
theorem matched_new : Matched (.new : RouterFragment Request) := by
  intro request requestCode
  simp [RouterFragment.new]

theorem Matched.start {fragment : RouterFragment Request}
    (matched : Matched fragment) {request : Request} {draws : Nat → Draw}
    (idle : fragment.started request = none)
    (free : fragment.isPending (fragment.makeRequestCode draws) = false) :
    Matched (fragment.startActivityForResult request draws) := by
  have noCallback :
      fragment.mCallbacks (fragment.makeRequestCode draws) = none := by
    simpa [RouterFragment.isPending] using free
  intro other requestCode
  simp only [RouterFragment.startActivityForResult]
  by_cases same : other = request
  · subst same
    rw [Function.update_self]
    by_cases here : requestCode = fragment.makeRequestCode draws
    · subst here
      simp
    · have neverPending :
          fragment.mCallbacks requestCode ≠ some other := by
        intro pending
        rw [← matched, idle] at pending
        exact absurd pending (by simp)
      rw [Function.update_of_ne here, Option.some_inj]
      constructor
      · intro equal
        exact absurd equal.symm here
      · intro pending
        exact absurd pending neverPending
  · rw [Function.update_of_ne same, matched]
    by_cases here : requestCode = fragment.makeRequestCode draws
    · subst here
      rw [noCallback, Function.update_self, Option.some_inj]
      constructor
      · intro impossible
        exact absurd impossible (by simp)
      · intro equal
        exact absurd equal.symm same
    · rw [Function.update_of_ne here]

/-- Its own result comes to the callback of a request that waits. -/
theorem Matched.answer {fragment : RouterFragment Request}
    (matched : Matched fragment) {request : Request}
    (waits : fragment.started request ≠ none) (result : Answer) :
    Matched (fragment.step (.answer request result)).1 ∧
      (fragment.step (.answer request result)).2 = [⟨request, result⟩] := by
  obtain ⟨requestCode, isCode⟩ := Option.ne_none_iff_exists'.mp waits
  have pending := (matched request requestCode).mp isCode
  simp only [RouterFragment.step, isCode, RouterFragment.onActivityResult,
    pending, and_true]
  intro other otherCode
  simp only
  by_cases same : other = request
  · subst same
    rw [Function.update_self]
    by_cases here : otherCode = requestCode
    · subst here
      simp
    · have neverPending : fragment.mCallbacks otherCode ≠ some other := by
        intro isPending
        rw [← matched, isCode] at isPending
        exact here (Option.some.inj isPending).symm
      rw [Function.update_of_ne here]
      simp [neverPending]
  · rw [Function.update_of_ne same, matched]
    by_cases here : otherCode = requestCode
    · subst here
      rw [pending, Function.update_self, Option.some_inj]
      constructor
      · intro equal
        exact absurd equal.symm same
      · intro impossible
        exact absurd impossible (by simp)
    · rw [Function.update_of_ne here]

/-- A result for an unknown code comes to no callback. -/
theorem Matched.unknown {fragment : RouterFragment Request}
    (matched : Matched fragment) {requestCode : Int}
    (nobody : ∀ request, fragment.started request ≠ some requestCode)
    (result : Answer) :
    fragment.step (.unknown requestCode result) = (fragment, []) := by
  have noCallback : fragment.mCallbacks requestCode = none := by
    by_contra pending
    obtain ⟨request, isPending⟩ := Option.ne_none_iff_exists'.mp pending
    exact nobody request ((matched request requestCode).mpr isPending)
  have unchanged : Function.update fragment.mCallbacks requestCode none =
      fragment.mCallbacks := by
    rw [← noCallback, Function.update_eq_self]
  simp [RouterFragment.step, RouterFragment.onActivityResult, noCallback,
    unchanged]

/-! ## Runs -/

/-- While every new request gets a free code, each result comes to its own
callback. -/
theorem routed_initial {events : List (Event Request Answer)}
    (orderly : AtEvery Orderly events)
    (free : AtEvery ReplacesNothing events) :
    Matched (fragmentAfter events) ∧ ∀ request : Request,
      invocationsOf request (machine.trace .new events) =
        answersOf request events := by
  induction events using List.reverseRecOn with
  | nil => exact ⟨matched_new, fun _ => rfl⟩
  | append_singleton before event inductionHypothesis =>
      obtain ⟨orderlyBefore, atEvent⟩ := atEvery_concat.mp orderly
      obtain ⟨freeBefore, isFree⟩ := atEvery_concat.mp free
      obtain ⟨matched, own⟩ :=
        inductionHypothesis orderlyBefore freeBefore
      have state : fragmentAfter (before ++ [event]) =
          ((fragmentAfter before).step event).1 :=
        machine.run_concat _ _ _
      have trace : machine.trace .new (before ++ [event]) =
          machine.trace .new before ++
            ((fragmentAfter before).step event).2 :=
        machine.trace_concat _ _ _
      rw [state, trace]
      cases event with
      | startActivityForResult request draws =>
          refine ⟨matched.start atEvent isFree, ?_⟩
          intro other
          have atOther := own other
          rw [invocationsOf, answersOf] at atOther ⊢
          rw [List.filterMap_append, List.filterMap_append, atOther]
          rfl
      | answer request result =>
          obtain ⟨matchedAfter, invoked⟩ := matched.answer atEvent result
          refine ⟨matchedAfter, ?_⟩
          intro other
          have atOther := own other
          rw [invocationsOf, answersOf] at atOther ⊢
          rw [invoked, List.filterMap_append, List.filterMap_append, atOther]
          rfl
      | unknown requestCode result =>
          rw [matched.unknown atEvent result]
          refine ⟨matched, ?_⟩
          intro other
          have atOther := own other
          rw [invocationsOf, answersOf] at atOther ⊢
          rw [List.filterMap_append, List.filterMap_append, atOther]
          rfl

/-- In an orderly sequence every result comes to its own callback and no
callback is replaced, if and only if every new request draws a free code within
ten tries. -/
theorem routed_iff_drawable {events : List (Event Request Answer)}
    (orderly : AtEvery Orderly events) :
    Routed events ↔ AtEvery Drawable events := by
  constructor
  · intro routed
    exact routed.replacesNothing.mono fun _ _ =>
      replacesNothing_iff_drawable.mp
  · intro drawable
    have free : AtEvery ReplacesNothing events :=
      drawable.mono fun _ _ => replacesNothing_iff_drawable.mpr
    exact ⟨free, (routed_initial orderly free).2⟩

end Fragment

/-! ## Two requests -/

/-- Two requests, the second with its own draws; the answers come in the other
order. -/
def twoRequests (draws : Nat → Draw) : List (Event Bool Nat) :=
  [.startActivityForResult false (fun _ => 7),
    .startActivityForResult true draws, .answer true 1, .answer false 0]

theorem twoRequests_orderly (draws : Nat → Draw) :
    AtEvery Orderly (twoRequests draws) := by
  simp only [twoRequests, atEvery_cons, atEvery_nil, and_true]
  refine ⟨rfl, rfl, ?_, ?_⟩
  · exact Option.some_ne_none _
  · exact Option.some_ne_none _

theorem twoRequests_routed : Routed (twoRequests fun _ => 8) := by
  apply (routed_iff_drawable (twoRequests_orderly _)).mpr
  simp only [twoRequests, atEvery_cons, atEvery_nil, and_true]
  refine ⟨⟨0, by decide, rfl⟩, ⟨0, by decide, ?_⟩, trivial, trivial⟩
  decide

/-- Ten draws of a pending code: the callback of the first request is replaced
and never invoked. -/
theorem pending_callback_replaced :
    AtEvery Orderly (twoRequests fun _ => 7) ∧
      ¬ Routed (twoRequests fun _ => 7) ∧
      invocationsOf false
        (machine.trace .new (twoRequests fun _ => 7)) = [] := by
  refine ⟨twoRequests_orderly _, ?_, by decide⟩
  intro routed
  let first : List (Event Bool Nat) :=
    [.startActivityForResult false (fun _ => 7)]
  have isFree : (fragmentAfter first).isPending
      ((fragmentAfter first).makeRequestCode fun _ => 7) = false :=
    routed.replacesNothing first _ _ rfl
  exact absurd isFree (by decide)

end DripStone.ActivityResult
