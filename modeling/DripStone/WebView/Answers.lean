import DripStone.WebView.Bridge

/-!
# Answers of a command

A callback of the page gets the results of its own command, in their order, up
to the first for which it returns something else than `false`, whatever else is
under way on the bridge.
-/

namespace DripStone.WebView

open DripStone.Library
open DripStone.Library.ScriptLiteral

variable {commands : List Text} {history : List BridgeEvent}
variable {bridge next : Bridge} {event : BridgeEvent}
variable {name : List JChar} {callback : CallbackObject}

/-! ## What a history says of a name -/

/-- The names under which callbacks were registered. -/
def namesOf (history : List BridgeEvent) : List (List JChar) :=
  history.filterMap fun
    | .takeNativeActionWithCallback _ _ time random _ =>
        some (callbackname time random)
    | _ => none

/-- The callback that was registered under a name. -/
def registered (history : List BridgeEvent) (name : List JChar) :
    Option CallbackObject :=
  history.findSome? fun
    | .takeNativeActionWithCallback _ _ time random callback =>
        if callbackname time random = name then some callback else none
    | _ => none

/-- The results of the commands asked for under a name. -/
def answersOf (history : List BridgeEvent) (name : List JChar) :
    List (List JChar) :=
  history.filterMap fun
    | .onResult command response =>
        if command.callbackName = some name then some response else none
    | _ => none

/-- The calls of a callback to which these answers were given: they pass the
answers in their order, up to the first call after which it is deleted. -/
structure Answered (answers : List (List JChar))
    (calls : List (List JChar × CallEnd)) : Prop where
  inOrder : calls.map Prod.fst <+: answers
  goesOn : ∀ call ∈ calls.dropLast, call.2.keeps = true
  complete : (∀ call ∈ calls, call.2.keeps = true) →
    calls.map Prod.fst = answers

namespace Page

/-- What the callback of a name has got, and how it ended each time. -/
def received (page : Page) (name : List JChar) :
    List (List JChar × CallEnd) :=
  page.calls.filterMap fun call =>
    if call.1 = name then some call.2 else none

end Page

namespace Bridge

/-- The results for a name that wait in the main looper. -/
def waiting (bridge : Bridge) (name : List JChar) : List (List JChar) :=
  bridge.results.filterMap fun entry =>
    if entry.1 = some name then some entry.2 else none

end Bridge

/-- One more answer for a callback that is still registered. -/
theorem Answered.concat {answers : List (List JChar)}
    {calls : List (List JChar × CallEnd)} (answered : Answered answers calls)
    (keep : ∀ call ∈ calls, call.2.keeps = true) (response : List JChar)
    (callEnd : CallEnd) :
    Answered (answers ++ [response]) (calls ++ [(response, callEnd)]) := by
  have all : (calls ++ [(response, callEnd)]).map Prod.fst =
      answers ++ [response] := by
    rw [List.map_append, answered.complete keep]
    rfl
  refine ⟨all ▸ List.prefix_rfl, ?_, fun _ => all⟩
  rw [List.dropLast_concat]
  exact keep

/-- One more answer for a callback that was deleted. -/
theorem Answered.of_deleted {answers : List (List JChar)}
    {calls : List (List JChar × CallEnd)} (answered : Answered answers calls)
    (deleted : ¬∀ call ∈ calls, call.2.keeps = true)
    (response : List JChar) : Answered (answers ++ [response]) calls :=
  ⟨answered.inOrder.trans (List.prefix_append _ _), answered.goesOn,
    fun keep => absurd keep deleted⟩

/-! ## Names -/

theorem registered_concat :
    registered (history ++ [event]) name =
      (registered history name).or (registered [event] name) := by
  rw [registered, List.findSome?_append]
  rfl

theorem answersOf_concat :
    answersOf (history ++ [event]) name =
      answersOf history name ++ answersOf [event] name := by
  rw [answersOf, List.filterMap_append]
  rfl

/-- What has become of a callback and of the responses given to it. -/
structure Standing (callback : CallbackObject)
    (given : List (List JChar)) (calls : List (List JChar × CallEnd))
    (left : Option CallbackObject) : Prop where
  undefined : callback.isDefined = false → calls = [] ∧ left = some callback
  defined : callback.isDefined = true →
    Answered given calls ∧ left =
      if ∀ call ∈ calls, call.2.keeps = true then some callback else none

/-- The responses to a name that the page has been given so far, and what has
become of them. -/
structure Served (history : List BridgeEvent) (bridge : Bridge)
    (name : List JChar) (given : List (List JChar)) : Prop where
  answers : answersOf history name = given ++ bridge.waiting name
  unknown : registered history name = none →
    answersOf history name = [] ∧ bridge.page.callbacks name = none ∧
      bridge.page.received name = []
  known : ∀ callback, registered history name = some callback →
    Standing callback given (bridge.page.received name)
      (bridge.page.callbacks name)

/-- Every name on the bridge belongs to a callback of the page, and every
result to a command. -/
structure Orderly (history : List BridgeEvent) (bridge : Bridge) : Prop where
  answered : ∀ entry ∈ bridge.results,
    ∃ command, .onResult command entry.2 ∈ history
  requested : ∀ request ∈ bridge.requests, ∀ name,
    request.callbackname = some name → (registered history name).isSome
  running : ∀ command ∈ bridge.running, ∀ name,
    command.callbackName = some name → (registered history name).isSome
  served : ∀ name, ∃ given, Served history bridge name given

theorem Orderly.answered_append (orderly : Orderly history bridge) :
    ∀ entry ∈ bridge.results,
      ∃ command, .onResult command entry.2 ∈ history ++ [event] := by
  intro entry inResults
  obtain ⟨command, inHistory⟩ := orderly.answered entry inResults
  exact ⟨command, List.mem_append_left _ inHistory⟩

/-- An event that neither registers a callback nor moves a result. -/
theorem Orderly.of_same (orderly : Orderly history bridge)
    (page : next.page = bridge.page) (results : next.results = bridge.results)
    (requested : ∀ request ∈ next.requests, ∀ name,
      request.callbackname = some name → (registered history name).isSome)
    (running : ∀ command ∈ next.running, ∀ name,
      command.callbackName = some name → (registered history name).isSome)
    (registers : ∀ name, registered [event] name = none)
    (answers : ∀ name, answersOf [event] name = []) :
    Orderly (history ++ [event]) next := by
  have sameRegistered : ∀ name,
      registered (history ++ [event]) name = registered history name := by
    intro name
    rw [registered_concat, registers, Option.or_none]
  have sameAnswers : ∀ name,
      answersOf (history ++ [event]) name = answersOf history name := by
    intro name
    rw [answersOf_concat, answers, List.append_nil]
  refine ⟨?_, ?_, ?_, fun name => ?_⟩
  · rw [results]
    exact orderly.answered_append
  · simpa only [sameRegistered] using requested
  · simpa only [sameRegistered] using running
  · obtain ⟨given, served⟩ := orderly.served name
    refine ⟨given, ?_, ?_, ?_⟩
    · rw [sameAnswers, Bridge.waiting, results]
      exact served.answers
    · rw [sameAnswers, sameRegistered, page]
      exact served.unknown
    · rw [sameRegistered, page]
      exact served.known

/-! ## The steps of the bridge -/

section Page

variable {page : Page} {other response : List JChar} {callEnd : CallEnd}

theorem callback_of_none (missing : page.callbacks name = none) :
    page.callback name response callEnd = page := by
  rw [Page.callback, missing]

theorem callback_of_undefined
    (undefined : page.callbacks name = some ⟨false⟩) :
    page.callback name response callEnd = page := by
  rw [Page.callback, undefined]

theorem callback_of_defined (defined : page.callbacks name = some ⟨true⟩) :
    (page.callback name response callEnd).received name =
        page.received name ++ [(response, callEnd)] ∧
      (page.callback name response callEnd).callbacks name =
        if callEnd.keeps then some ⟨true⟩ else none := by
  simp only [Page.callback, defined]
  refine ⟨?_, ?_⟩
  · simp [Page.received, List.filterMap_append]
  · cases callEnd.keeps with
    | false => exact Function.update_self name none page.callbacks
    | true => exact defined

/-- One more response at the page. -/
theorem Standing.called {given : List (List JChar)}
    (standing : Standing callback given (page.received name)
      (page.callbacks name)) :
    Standing callback (given ++ [response])
      ((page.callback name response callEnd).received name)
      ((page.callback name response callEnd).callbacks name) := by
  obtain ⟨isDefined⟩ := callback
  cases isDefined with
  | false =>
      have undefined := (standing.undefined rfl).2
      rw [callback_of_undefined undefined]
      exact ⟨standing.undefined, fun impossible => (by cases impossible)⟩
  | true =>
      refine ⟨fun impossible => (by cases impossible), fun _ => ?_⟩
      obtain ⟨answered, left⟩ := standing.defined rfl
      by_cases keep : ∀ call ∈ page.received name, call.2.keeps = true
      · rw [if_pos keep] at left
        obtain ⟨received, further⟩ :=
          @callback_of_defined name page response callEnd left
        rw [received, further]
        refine ⟨answered.concat keep response callEnd, ?_⟩
        simp only [List.forall_mem_append, List.forall_mem_singleton]
        exact (if_congr (and_iff_right keep) rfl rfl).symm
      · rw [if_neg keep] at left
        rw [callback_of_none left]
        exact ⟨answered.of_deleted keep response,
          left.trans (if_neg keep).symm⟩

end Page

end DripStone.WebView
