import DripStone.Library.Interning
import DripStone.Library.JavaText

/-!
# `LiveDataBus`

One map keeps the channels of both kinds.  A channel without sticky events is
kept under its key with a suffix, and is of a class of its own.
-/

namespace DripStone.DataBus

open DripStone.Library

/-! ## The bus -/

inductive LiveDataClass where
  | mutableLiveData
  | busMutableLiveData
deriving DecidableEq, Repr

/-- What `StringBuilder.append` appends for a value, which may be `null`. -/
def appended : Option JString → JString
  | none => literal "null"
  | some text => text

def plicePlus (values : List (Option JString)) : JString :=
  (values.map appended).flatten

inductive ClassCastException where
  | classCastException
deriving DecidableEq, Repr

/-- The object of a channel and its class. -/
abbrev Channel := Nat × LiveDataClass

/-- `bus`, with keys that may be `null`. -/
abbrev LiveDataBus := Interned (Option JString) LiveDataClass

namespace LiveDataBus

variable (bus : LiveDataBus) (key : Option JString)

def with_ : LiveDataBus :=
  bus.request key .mutableLiveData

/-- `with`, the channel that is returned. -/
def withResult : Option Channel :=
  (bus.with_ key).entries key

def keyNotStick : Option JString :=
  some (plicePlus [key, some (literal "_not_stick")])

def withNotStick : LiveDataBus :=
  bus.request (keyNotStick key) .busMutableLiveData

/-- `withNotStick`, the channel that is returned, by a cast. -/
def withNotStickResult : Except ClassCastException (Option Channel) :=
  match (bus.withNotStick key).entries (keyNotStick key) with
  | none => .ok none
  | some (object, .busMutableLiveData) =>
      .ok (some (object, .busMutableLiveData))
  | some (_, .mutableLiveData) => .error .classCastException

end LiveDataBus

/-! ## Sequences of calls -/

inductive Call where
  | with_ (key : Option JString)
  | withNotStick (key : Option JString)
deriving DecidableEq

abbrev Result := Except ClassCastException (Option Channel)

def perform (bus : LiveDataBus) : Call → LiveDataBus × Result
  | .with_ key => (bus.with_ key, .ok (bus.withResult key))
  | .withNotStick key => (bus.withNotStick key, bus.withNotStickResult key)

def results : LiveDataBus → List Call → List (Call × Result)
  | _, [] => []
  | bus, call :: rest =>
      (call, (perform bus call).2) :: results (perform bus call).1 rest

/-- No call throws, and two calls return the same channel exactly if they are
of the same kind and have the same key. -/
structure Lawful (results : List (Call × Result)) : Prop where
  returns : ∀ call result, (call, result) ∈ results →
    ∃ channel, result = .ok (some channel)
  same_iff : ∀ call other channel otherChannel,
    (call, .ok (some channel)) ∈ results →
      (other, .ok (some otherChannel)) ∈ results →
        (channel.1 = otherChannel.1 ↔ call = other)

/-- No key with the suffix is also asked for with sticky events, and not both
`null` and `"null"` are asked for without them. -/
structure Separate (calls : List Call) : Prop where
  suffix : ∀ key, .withNotStick key ∈ calls →
    .with_ (some (appended key ++ literal "_not_stick")) ∉ calls
  null : .withNotStick none ∈ calls →
    .withNotStick (some (literal "null")) ∉ calls

/-! ## The map behind the calls -/

namespace Call

/-- The key of the map. -/
def location : Call → Option JString
  | .with_ key => key
  | .withNotStick key => LiveDataBus.keyNotStick key

def liveDataClass : Call → LiveDataClass
  | .with_ _ => .mutableLiveData
  | .withNotStick _ => .busMutableLiveData

/-- What a call returns, from the entry of the map. -/
def answer (call : Call) (object : Channel) : Result :=
  match call, object.2 with
  | .withNotStick _, .mutableLiveData => .error .classCastException
  | _, _ => .ok (some object)

end Call

theorem keyNotStick_eq (key : Option JString) :
    LiveDataBus.keyNotStick key =
      some (appended key ++ literal "_not_stick") := by
  simp [LiveDataBus.keyNotStick, plicePlus, appended]

theorem perform_fst (bus : LiveDataBus) (call : Call) :
    (perform bus call).1 = bus.request call.location call.liveDataClass := by
  cases call <;> rfl

theorem perform_snd (bus : LiveDataBus) (call : Call) {object : Channel}
    (found : (perform bus call).1.entries call.location = some object) :
    (perform bus call).2 = call.answer object := by
  cases call with
  | with_ key => exact congrArg Except.ok found
  | withNotStick key =>
      have isEntry : (bus.withNotStick key).entries
          (LiveDataBus.keyNotStick key) = some object := found
      obtain ⟨number, liveDataClass⟩ := object
      rw [perform, LiveDataBus.withNotStickResult, isEntry]
      cases liveDataClass <;> rfl

/-- The map behind all the calls. -/
def final (bus : LiveDataBus) (calls : List Call) : LiveDataBus :=
  bus.requestAll (calls.map fun call => (call.location, call.liveDataClass))

/-- Each call returns what the map holds in the end. -/
theorem mem_results {bus : LiveDataBus} {calls : List Call} {call : Call}
    {result : Result} :
    (call, result) ∈ results bus calls →
      call ∈ calls ∧ ∃ object,
        (final bus calls).entries call.location = some object ∧
          result = call.answer object := by
  intro member
  induction calls generalizing bus with
  | nil => cases member
  | cons first rest inductionHypothesis =>
      rcases List.mem_cons.mp member with here | later
      · obtain ⟨rfl, rfl⟩ := Prod.mk.inj here
        obtain ⟨object, found⟩ := bus.exists_request call.location
          call.liveDataClass
        have kept := Interned.requestAll_keeps
          (rest.map fun call => (call.location, call.liveDataClass)) found
        refine ⟨List.mem_cons_self, object, kept, perform_snd bus call ?_⟩
        rw [perform_fst, found]
      · obtain ⟨inRest, object, found, isResult⟩ := inductionHypothesis later
        rw [perform_fst] at found
        exact ⟨List.mem_cons_of_mem first inRest, object, found, isResult⟩

theorem exists_result {bus : LiveDataBus} {calls : List Call} {call : Call}
    (member : call ∈ calls) :
    ∃ result, (call, result) ∈ results bus calls := by
  induction calls generalizing bus with
  | nil => cases member
  | cons first rest inductionHypothesis =>
      rcases List.mem_cons.mp member with rfl | inRest
      · exact ⟨_, List.mem_cons_self⟩
      · obtain ⟨result, later⟩ := inductionHypothesis inRest
        exact ⟨result, List.mem_cons_of_mem _ later⟩

/-! ## The separation of the channels -/

/-- Calls with the same place in the map are the same call. -/
theorem Separate.location_injective {calls : List Call}
    (separate : Separate calls) {call other : Call} (member : call ∈ calls)
    (otherMember : other ∈ calls) (same : call.location = other.location) :
    call = other := by
  cases call with
  | with_ key =>
      cases other with
      | with_ otherKey => exact congrArg Call.with_ same
      | withNotStick otherKey =>
          have isKey : key = LiveDataBus.keyNotStick otherKey := same
          rw [isKey, keyNotStick_eq] at member
          exact absurd member (separate.suffix otherKey otherMember)
  | withNotStick key =>
      cases other with
      | with_ otherKey =>
          have isKey : LiveDataBus.keyNotStick key = otherKey := same
          rw [← isKey, keyNotStick_eq] at otherMember
          exact absurd otherMember (separate.suffix key member)
      | withNotStick otherKey =>
          have keys : LiveDataBus.keyNotStick key =
              LiveDataBus.keyNotStick otherKey := same
          rw [keyNotStick_eq, keyNotStick_eq] at keys
          have texts := List.append_cancel_right (Option.some.inj keys)
          cases key with
          | none =>
              cases otherKey with
              | none => rfl
              | some otherText =>
                  have isNull : otherText = literal "null" := texts.symm
                  rw [isNull] at otherMember
                  exact absurd otherMember (separate.null member)
          | some text =>
              cases otherKey with
              | none =>
                  have isNull : text = literal "null" := texts
                  rw [isNull] at member
                  exact absurd member (separate.null otherMember)
              | some otherText =>
                  have sameText : text = otherText := texts
                  rw [sameText]

theorem Call.answer_of_class {call : Call} {object : Channel}
    (isOwn : object.2 = call.liveDataClass) :
    call.answer object = .ok (some object) := by
  obtain ⟨number, liveDataClass⟩ := object
  cases call <;> cases isOwn <;> rfl

theorem Call.answer_eq_ok {call : Call} {object channel : Channel}
    (isOk : call.answer object = .ok (some channel)) : object = channel := by
  obtain ⟨number, liveDataClass⟩ := object
  cases call <;> cases liveDataClass <;> cases isOk <;> rfl

/-- In a map of separated calls each entry is of the class of its call. -/
theorem Separate.answer {calls : List Call} (separate : Separate calls)
    {call : Call} (member : call ∈ calls) {object : Channel}
    (found : (final .empty calls).entries call.location = some object) :
    call.answer object = .ok (some object) := by
  rcases Interned.exists_request_of_entry found with absent | requested
  · cases absent
  · obtain ⟨other, otherMember, isOther⟩ := List.mem_map.mp requested
    obtain ⟨sameLocation, sameClass⟩ := Prod.mk.inj isOther
    have same := separate.location_injective otherMember member sameLocation
    rw [same] at sameClass
    exact Call.answer_of_class sameClass.symm

theorem Separate.lawful {calls : List Call} (separate : Separate calls) :
    Lawful (results .empty calls) := by
  have distinct : (final .empty calls).Distinct :=
    Interned.distinct_empty.requestAll _
  constructor
  · intro call result isResult
    obtain ⟨member, object, found, rfl⟩ := mem_results isResult
    exact ⟨object, separate.answer member found⟩
  · intro call other channel otherChannel isResult isOther
    obtain ⟨member, object, found, answer⟩ := mem_results isResult
    obtain ⟨otherMember, otherObject, otherFound, otherAnswer⟩ :=
      mem_results isOther
    obtain rfl := Call.answer_eq_ok answer.symm
    obtain rfl := Call.answer_eq_ok otherAnswer.symm
    constructor
    · intro same
      exact separate.location_injective member otherMember
        (distinct.injective _ _ _ _ found otherFound same)
    · intro same
      rw [same, otherFound] at found
      rw [Option.some.inj found]

/-- Two calls with the same place in the map are the same one. -/
theorem Lawful.location_injective {calls : List Call}
    (lawful : Lawful (results .empty calls)) {call other : Call}
    (member : call ∈ calls) (otherMember : other ∈ calls)
    (same : call.location = other.location) : call = other := by
  obtain ⟨result, isResult⟩ := @exists_result .empty _ _ member
  obtain ⟨otherResult, isOther⟩ := @exists_result .empty _ _ otherMember
  obtain ⟨channel, rfl⟩ := lawful.returns call result isResult
  obtain ⟨otherChannel, rfl⟩ := lawful.returns other otherResult isOther
  obtain ⟨-, object, found, answer⟩ := mem_results isResult
  obtain ⟨-, otherObject, otherFound, otherAnswer⟩ := mem_results isOther
  obtain rfl := Call.answer_eq_ok answer.symm
  obtain rfl := Call.answer_eq_ok otherAnswer.symm
  rw [same, otherFound] at found
  exact (lawful.same_iff _ _ _ _ isResult isOther).mp
    (congrArg Prod.fst (Option.some.inj found).symm)

theorem lawful_iff_separate (calls : List Call) :
    Lawful (results .empty calls) ↔ Separate calls := by
  constructor
  · intro lawful
    constructor
    · intro key member otherMember
      have same := lawful.location_injective member otherMember
        (keyNotStick_eq key)
      cases same
    · intro member otherMember
      have same := lawful.location_injective member otherMember
        ((keyNotStick_eq none).trans (keyNotStick_eq _).symm)
      cases same
  · exact Separate.lawful

/-- A key that ends with the suffix is asked for first. -/
theorem sticky_suffix_throws :
    ¬Lawful (results .empty [.with_ (some (literal "a_not_stick")),
      .withNotStick (some (literal "a"))]) := by
  intro lawful
  obtain ⟨channel, isOk⟩ := lawful.returns
    (.withNotStick (some (literal "a"))) (.error .classCastException)
    (by decide)
  cases isOk

end DripStone.DataBus
