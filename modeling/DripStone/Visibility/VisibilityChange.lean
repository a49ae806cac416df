import DripStone.Library.Mealy

/-!
# `View.onVisibilityChange`

Listeners of layout, scrolling, focus and inserted views share one tag, the
visibility they delivered last.  Two of them deliver without looking at it: a
layout while a view is inserted, and the focus before anything was delivered.
-/

namespace DripStone.Visibility

open DripStone.Library

structure Rect where
  left : Int
  top : Int
  right : Int
  bottom : Int
deriving DecidableEq, Repr

/-- `Rect.contains(Rect)` -/
def Rect.contains (outer inner : Rect) : Bool :=
  outer.left < outer.right && outer.top < outer.bottom &&
    outer.left ≤ inner.left && outer.top ≤ inner.top &&
    inner.right ≤ outer.right && inner.bottom ≤ outer.bottom

/-- What the view can be asked for at an event. -/
structure Screen where
  isAttachedToWindow : Bool
  visible : Bool
  getLocalVisibleRect : Bool
deriving DecidableEq, Repr

def Screen.isInScreen (screen : Screen) : Bool :=
  screen.isAttachedToWindow && screen.visible && screen.getLocalVisibleRect

inductive Event where
  -- with the rectangles of the inserted view and of the view itself
  | globalLayout (screen : Screen) (addedRect rect : Rect)
  | scrollChanged (screen : Screen)
  | windowFocusChanged (hasFocus : Bool) (screen : Screen)
  | childViewAdded
  | childViewRemoved
deriving DecidableEq, Repr

structure View where
  -- the tag `KEY_VISIBILITY`
  visibility : Option Bool
  -- whether `addedView` is set
  addedView : Bool
deriving DecidableEq, Repr

namespace View

/-- The view when the listeners are installed. -/
def new : View := ⟨none, false⟩

/-- `block` and then `setTag`. -/
def deliver (view : View) (isVisible : Bool) : View × List Bool :=
  ({ view with visibility := some isVisible }, [isVisible])

def checkVisibility (view : View) (isInScreen : Bool) :
    View × List Bool :=
  match view.visibility with
  | none => if isInScreen then view.deliver true else (view, [])
  | some lastVisibility =>
      if lastVisibility ≠ isInScreen then view.deliver isInScreen
      else (view, [])

def onGlobalLayout (view : View) (isInScreen : Bool)
    (addedRect rect : Rect) : View × List Bool :=
  if view.addedView then
    if addedRect.contains rect then view.deliver false
    else view.deliver true
  else view.checkVisibility isInScreen

def onWindowFocusChanged (view : View) (hasFocus isInScreen : Bool) :
    View × List Bool :=
  if hasFocus then
    if view.visibility ≠ some isInScreen then view.deliver isInScreen
    else (view, [])
  else if view.visibility = some true then view.deliver false
  else (view, [])

end View

/-- The view under its listeners; the outputs are what `block` receives. -/
def machine (needScrollListener : Bool) : Mealy View Event Bool :=
  ⟨fun view event =>
    match event with
    | .globalLayout screen addedRect rect =>
        view.onGlobalLayout screen.isInScreen addedRect rect
    | .scrollChanged screen =>
        if needScrollListener then view.checkVisibility screen.isInScreen
        else (view, [])
    | .windowFocusChanged hasFocus screen =>
        view.onWindowFocusChanged hasFocus screen.isInScreen
    | .childViewAdded => ({ view with addedView := true }, [])
    | .childViewRemoved => ({ view with addedView := false }, [])⟩

/-! ## The law and the condition -/

section Laws

variable (needScrollListener : Bool)

def viewAfter (events : List Event) : View :=
  (machine needScrollListener).run .new events

def delivered (events : List Event) : List Bool :=
  (machine needScrollListener).trace .new events

/-- Values that begin with `true` and then take turns. -/
def Alternates (values : List Bool) : Prop :=
  values.head? ≠ some false ∧ values.IsChain (· ≠ ·)

/-- What is delivered takes turns, and after every event the tag is what was
delivered last. -/
structure Lawful (events : List Event) : Prop where
  alternates : Alternates (delivered needScrollListener events)
  tagged : ∀ initial, initial <+: events →
    (viewAfter needScrollListener initial).visibility =
      (delivered needScrollListener initial).getLast?

/-- A layout with a view inserted finds a change of what was delivered last,
and nothing delivered counts as not visible; and the first focus finds the view
on the screen, if nothing was delivered before. -/
def Changes (before : List Event) : Event → Prop
  | .globalLayout _ addedRect rect =>
      (viewAfter needScrollListener before).addedView = true →
        addedRect.contains rect =
          (viewAfter needScrollListener before).visibility.getD false
  | .windowFocusChanged hasFocus screen =>
      hasFocus = true →
        (viewAfter needScrollListener before).visibility = none →
          screen.isInScreen = true
  | _ => True

end Laws

/-! ## One event -/

theorem alternates_concat {values : List Bool} {value : Bool} :
    Alternates (values ++ [value]) ↔
      Alternates values ∧ value ≠ values.getLast?.getD false := by
  rcases List.eq_nil_or_concat values with rfl | ⟨initial, last, rfl⟩
  · cases value <;> simp [Alternates]
  · have sameHead : ((initial ++ [last]) ++ [value]).head? =
        (initial ++ [last]).head? := by
      rw [List.head?_append_of_ne_nil _ (by simp)]
    rw [List.concat_eq_append, Alternates, Alternates, List.isChain_append,
      sameHead, and_assoc]
    simp only [List.isChain_singleton, List.getLast?_concat,
      Option.mem_some_iff, List.head?_cons, forall_eq', true_and,
      Option.getD_some]
    rw [@ne_comm _ last value]

variable {needScrollListener : Bool}

/-- What checking delivers is the new tag, and a change. -/
theorem View.checkVisibility_spec (view : View) (isInScreen : Bool) :
    (view.checkVisibility isInScreen).1.visibility =
        ((view.checkVisibility isInScreen).2.getLast?).or view.visibility ∧
      ∀ value ∈ (view.checkVisibility isInScreen).2,
        value ≠ view.visibility.getD false := by
  obtain ⟨visibility, addedView⟩ := view
  cases visibility with
  | none => cases isInScreen <;> simp [checkVisibility, deliver]
  | some last =>
      cases last <;> cases isInScreen <;> simp [checkVisibility, deliver]

/-- What an event delivers is the new tag. -/
theorem visibility_step (view : View) (event : Event) :
    ((machine needScrollListener).step view event).1.visibility =
      (((machine needScrollListener).step view event).2.getLast?).or
        view.visibility := by
  cases event with
  | globalLayout screen addedRect rect =>
      simp only [machine, View.onGlobalLayout]
      split_ifs
      · rfl
      · rfl
      · exact (view.checkVisibility_spec _).1
  | scrollChanged screen =>
      simp only [machine]
      split_ifs
      · exact (view.checkVisibility_spec _).1
      · rfl
  | windowFocusChanged hasFocus screen =>
      simp only [machine, View.onWindowFocusChanged]
      split_ifs <;> rfl
  | childViewAdded | childViewRemoved => rfl

theorem visibility_after (events : List Event) :
    (viewAfter needScrollListener events).visibility =
      (delivered needScrollListener events).getLast? := by
  induction events using List.reverseRecOn with
  | nil => rfl
  | append_singleton initial event inductionHypothesis =>
      rw [viewAfter, Mealy.run_concat, visibility_step, delivered,
        Mealy.trace_concat, List.getLast?_append, ← delivered,
        ← inductionHypothesis]
      rfl

/-- An event delivers nothing or a change if and only if it meets the
condition. -/
theorem changes_iff (before : List Event) (event : Event) :
    Changes needScrollListener before event ↔
      ∀ value ∈ ((machine needScrollListener).step
          (viewAfter needScrollListener before) event).2,
        value ≠ (viewAfter needScrollListener before).visibility.getD
          false := by
  rw [Changes.eq_def]
  generalize viewAfter needScrollListener before = view
  cases event with
  | globalLayout screen addedRect rect =>
      simp only [machine, View.onGlobalLayout]
      cases view.addedView with
      | true =>
          cases covered : addedRect.contains rect with
          | true => cases view.visibility.getD false <;> simp [View.deliver]
          | false => cases view.visibility.getD false <;> simp [View.deliver]
      | false =>
          simp only [Bool.false_eq_true, ↓reduceIte, false_implies,
            true_iff]
          exact (view.checkVisibility_spec _).2
  | scrollChanged screen =>
      simp only [machine, true_iff]
      split_ifs
      · exact (view.checkVisibility_spec _).2
      · simp
  | windowFocusChanged hasFocus screen =>
      simp only [machine, View.onWindowFocusChanged]
      obtain ⟨visibility, addedView⟩ := view
      cases hasFocus with
      | true =>
          cases visibility with
          | none => simp [View.deliver]
          | some last =>
              cases last <;> cases screen.isInScreen <;>
                simp [View.deliver]
      | false =>
          simp only [Bool.false_eq_true, ↓reduceIte, false_implies,
            true_iff]
          split_ifs with shown
          · simp [View.deliver, shown]
          · simp
  | childViewAdded | childViewRemoved => simp [machine]

/-! ## The whole run -/

theorem View.checkVisibility_eq (view : View) (isInScreen : Bool) :
    (view.checkVisibility isInScreen).2 = [] ∨
      ∃ value, (view.checkVisibility isInScreen).2 = [value] := by
  rw [checkVisibility]
  cases view.visibility with
  | none => cases isInScreen <;> simp [deliver]
  | some last => cases last <;> cases isInScreen <;> simp [deliver]

/-- An event delivers at most one value. -/
theorem step_eq (view : View) (event : Event) :
    ((machine needScrollListener).step view event).2 = [] ∨
      ∃ value,
        ((machine needScrollListener).step view event).2 = [value] := by
  cases event with
  | globalLayout screen addedRect rect =>
      simp only [machine, View.onGlobalLayout]
      split_ifs
      · exact Or.inr ⟨false, rfl⟩
      · exact Or.inr ⟨true, rfl⟩
      · exact view.checkVisibility_eq _
  | scrollChanged screen =>
      simp only [machine]
      split_ifs
      · exact view.checkVisibility_eq _
      · exact Or.inl rfl
  | windowFocusChanged hasFocus screen =>
      simp only [machine, View.onWindowFocusChanged]
      split_ifs
      · exact Or.inr ⟨screen.isInScreen, rfl⟩
      · exact Or.inl rfl
      · exact Or.inr ⟨false, rfl⟩
      · exact Or.inl rfl
  | childViewAdded | childViewRemoved => exact Or.inl rfl

theorem alternates_iff (events : List Event) :
    Alternates (delivered needScrollListener events) ↔
      AtEvery (Changes needScrollListener) events := by
  induction events using List.reverseRecOn with
  | nil =>
      have silent : Alternates (delivered needScrollListener []) := by
        simp [Alternates, delivered]
      exact iff_of_true silent (atEvery_nil _)
  | append_singleton initial event inductionHypothesis =>
      have here := @changes_iff needScrollListener initial event
      rw [visibility_after] at here
      rw [atEvery_concat, ← inductionHypothesis, here, delivered,
        Mealy.trace_concat]
      rcases @step_eq needScrollListener
        (viewAfter needScrollListener initial) event with
        silent | ⟨value, speaks⟩
      · rw [← viewAfter, silent]
        simp [delivered]
      · rw [← viewAfter, speaks, ← delivered, alternates_concat]
        simp

/-- What `block` receives takes turns from `true` on, and the tag follows it,
if and only if every event meets the condition. -/
theorem lawful_iff_changes (needScrollListener : Bool)
    (events : List Event) :
    Lawful needScrollListener events ↔
      AtEvery (Changes needScrollListener) events := by
  rw [← alternates_iff]
  constructor
  · intro lawful
    exact lawful.alternates
  · intro alternates
    exact ⟨alternates, fun initial _ => visibility_after initial⟩

/-- Two layouts while a view covers the shown view: `false` comes twice. -/
theorem covered_twice_delivers_twice :
    ¬ Lawful true
      [.globalLayout ⟨true, true, true⟩ ⟨0, 0, 0, 0⟩ ⟨0, 0, 10, 10⟩,
        .childViewAdded,
        .globalLayout ⟨true, true, true⟩ ⟨0, 0, 20, 20⟩ ⟨0, 0, 10, 10⟩,
        .globalLayout ⟨true, true, true⟩ ⟨0, 0, 20, 20⟩ ⟨0, 0, 10, 10⟩] := by
  intro lawful
  exact absurd lawful.alternates.2 (by decide)

end DripStone.Visibility
