import DripStone.Library.LineBreaking

/-!
# `FloatLayout`

A view group that puts its children on lines.  `onMeasure` breaks the lines
and adds up the size that is needed, `onLayout` places the children from the
lines that were kept; the two keep sums of their own.  The sizes of the
children are those that they have measured.
-/

namespace DripStone.FloatLayout

open DripStone.Library

/-- A child, as its `measure` leaves it. -/
structure View where
  measuredWidth : Nat
  measuredHeight : Nat
deriving DecidableEq, Repr

inductive MeasureMode where
  | unspecified
  | exactly
  | atMost
deriving DecidableEq, Repr

/-- A `MeasureSpec`. -/
structure MeasureSpec where
  size : Nat
  mode : MeasureMode
deriving DecidableEq, Repr

structure Rect where
  left : Int
  top : Int
  right : Int
  bottom : Int
deriving DecidableEq, Repr

def horizontalSpace : Nat := 50

def verticalSpace : Nat := 60

/-- The fields that stay from one call to the next. -/
structure Layout where
  childViewList : List (List View)
  lineHeightList : List Nat
  lineViews : List View
deriving DecidableEq, Repr

/-! ## `onMeasure` -/

/-- The fields and the local variables of the loop. -/
structure Measuring where
  layout : Layout
  lineUsedWidth : Nat
  lineUsedHeight : Nat
  selfNeedWidth : Nat
  selfNeedHeight : Nat
deriving DecidableEq, Repr

def clearMeasureParams (_ : Layout) : Layout :=
  ⟨[], [], []⟩

/-- The line that is used goes to the lines. -/
def Layout.addLine (layout : Layout) (lineUsedHeight : Nat) :
    Layout :=
  { layout with
    childViewList := layout.childViewList ++ [layout.lineViews]
    lineHeightList := layout.lineHeightList ++ [lineUsedHeight] }

def Layout.addView (layout : Layout) (view : View) : Layout :=
  { layout with lineViews := layout.lineViews ++ [view] }

/-- The lines are wrapped in front of a child that would not fit. -/
def Measuring.wrap (measuring : Measuring) (selfHeight : Nat) : Measuring where
  layout :=
    { measuring.layout.addLine measuring.lineUsedHeight with lineViews := [] }
  lineUsedWidth := 0
  lineUsedHeight := 0
  selfNeedWidth := max measuring.selfNeedWidth
    (measuring.lineUsedWidth + horizontalSpace)
  -- the available height, not the one that is needed so far
  selfNeedHeight := selfHeight + measuring.lineUsedHeight + verticalSpace

/-- A child is put on the line. -/
def Measuring.put (measuring : Measuring) (view : View) : Measuring :=
  { measuring with
    layout := measuring.layout.addView view
    lineUsedWidth := measuring.lineUsedWidth +
      (view.measuredWidth + horizontalSpace)
    lineUsedHeight := max measuring.lineUsedHeight view.measuredHeight }

/-- The last line goes to the lines. -/
def Measuring.finish (measuring : Measuring) : Measuring :=
  let selfNeedWidth := max measuring.selfNeedWidth
    (measuring.lineUsedWidth + horizontalSpace)
  { measuring with
    layout := measuring.layout.addLine measuring.lineUsedHeight
    selfNeedWidth := selfNeedWidth
    -- the width that is needed, not the height
    selfNeedHeight :=
      selfNeedWidth + measuring.lineUsedHeight + verticalSpace }

/-- The body of the loop; the last child ends its line. -/
def measureChild (selfWidth selfHeight : Nat) (isLast : Bool) (view : View)
    (measuring : Measuring) : Measuring :=
  let wrapped :=
    if selfWidth <
        view.measuredWidth + measuring.lineUsedWidth + horizontalSpace then
      measuring.wrap selfHeight
    else measuring
  let filled := wrapped.put view
  if isLast then filled.finish else filled

def measureChildren (selfWidth selfHeight : Nat) :
    List View → Measuring → Measuring
  | [], measuring => measuring
  | view :: rest, measuring =>
      measureChildren selfWidth selfHeight rest
        (measureChild selfWidth selfHeight rest.isEmpty view measuring)

/-- The lines and the size that `setMeasuredDimension` is called with. -/
structure Measured where
  layout : Layout
  width : Nat
  height : Nat
deriving DecidableEq, Repr

def onMeasure (layout : Layout)
    (widthMeasureSpec heightMeasureSpec : MeasureSpec) (children : List View) :
    Measured :=
  let measuring :=
    measureChildren widthMeasureSpec.size heightMeasureSpec.size children
      ⟨clearMeasureParams layout, 0, 0, 0, 0⟩
  { layout := measuring.layout
    width :=
      if widthMeasureSpec.mode = .exactly then widthMeasureSpec.size
      else measuring.selfNeedWidth
    height :=
      if heightMeasureSpec.mode = .exactly then heightMeasureSpec.size
      else measuring.selfNeedHeight }

/-! ## `onLayout` -/

/-- The children of one line, from the left. -/
def layoutLine (curT : Int) : Int → List View → List Rect
  | _, [] => []
  | curL, view :: rest =>
      ⟨curL, curT, curL + view.measuredWidth, curT + view.measuredHeight⟩ ::
        layoutLine curT (curL + view.measuredWidth + horizontalSpace) rest

/-- The lines from the top; a line without a height has no value. -/
def layoutLines (paddingLeft : Int) :
    Int → List (List View) → List Nat → Option (List (List Rect))
  | _, [], _ => some []
  | _, _ :: _, [] => none
  | curT, line :: lines, lineHeight :: lineHeights =>
      (layoutLines paddingLeft (curT + (lineHeight + verticalSpace)) lines
        lineHeights).map (layoutLine curT paddingLeft line :: ·)

/-- `onLayout`: the places of the children, line by line. -/
def onLayout (paddingLeft paddingTop : Int) (layout : Layout) :
    Option (List (List Rect)) :=
  layoutLines paddingLeft paddingTop layout.childViewList
    layout.lineHeightList

/-! ## Lines -/

/-- The width that a line uses, with a space behind each child. -/
def usedWidth (line : List View) : Nat :=
  (line.map fun view => view.measuredWidth + horizontalSpace).sum

def usedHeight (line : List View) : Nat :=
  (line.map View.measuredHeight).foldr max 0

/-- A child fits on a line with the space behind it. -/
def fitsLine (selfWidth : Nat) (line : List View) (view : View) : Bool :=
  usedWidth line + (view.measuredWidth + horizontalSpace) ≤ selfWidth

/-- The lines of the children, broken where one does not fit. -/
def linesOf (selfWidth : Nat) (children : List View) : List (List View) :=
  breakLines (fitsLine selfWidth) children

/-- The width that the widest line needs, with one more space. -/
def neededWidth (lines : List (List View)) : Nat :=
  (lines.map fun line => usedWidth line + horizontalSpace).foldr max 0

@[simp]
theorem usedWidth_nil : usedWidth [] = 0 := rfl

@[simp]
theorem usedHeight_nil : usedHeight [] = 0 := rfl

@[simp]
theorem usedWidth_append (line : List View) (view : View) :
    usedWidth (line ++ [view]) =
      usedWidth line + (view.measuredWidth + horizontalSpace) := by
  simp [usedWidth]

@[simp]
theorem usedWidth_cons (view : View) (line : List View) :
    usedWidth (view :: line) =
      view.measuredWidth + horizontalSpace + usedWidth line := by
  simp [usedWidth]

@[simp]
theorem usedHeight_cons (view : View) (line : List View) :
    usedHeight (view :: line) =
      max view.measuredHeight (usedHeight line) := rfl

@[simp]
theorem usedHeight_append (line : List View) (view : View) :
    usedHeight (line ++ [view]) =
      max (usedHeight line) view.measuredHeight := by
  induction line with
  | nil => simp [usedHeight]
  | cons first rest inductionHypothesis =>
      rw [List.cons_append, usedHeight_cons, usedHeight_cons,
        inductionHypothesis, max_assoc]

/-! ## What the loop measures -/

/-- The local variables belong to the line that is used. -/
structure OnLine (measuring : Measuring) : Prop where
  width : measuring.lineUsedWidth = usedWidth measuring.layout.lineViews
  height : measuring.lineUsedHeight = usedHeight measuring.layout.lineViews

section Loop

variable {selfWidth selfHeight : Nat} {view : View} {measuring : Measuring}

theorem OnLine.put (onLine : OnLine measuring) :
    OnLine (measuring.put view) where
  width := by
    simp [Measuring.put, Layout.addView, onLine.width]
  height := by
    simp [Measuring.put, Layout.addView, onLine.height]

theorem onLine_wrap : OnLine (measuring.wrap selfHeight) :=
  ⟨rfl, rfl⟩

/-- The test of the loop is whether the child fits. -/
theorem wraps_iff (onLine : OnLine measuring) :
    selfWidth < view.measuredWidth + measuring.lineUsedWidth +
        horizontalSpace ↔
      ¬fitsLine selfWidth measuring.layout.lineViews view = true := by
  rw [fitsLine, decide_eq_true_iff, onLine.width]
  omega

/-- The lines that a loop ends with. -/
structure EndsWith (measuring ended : Measuring) (lines : List (List View)) :
    Prop where
  childViewList : ended.layout.childViewList =
    measuring.layout.childViewList ++ lines
  lineHeightList : ended.layout.lineHeightList =
    measuring.layout.lineHeightList ++ lines.map usedHeight
  selfNeedWidth : ended.selfNeedWidth =
    max measuring.selfNeedWidth (neededWidth lines)
  selfNeedHeight : ∀ last ∈ lines.getLast?, ended.selfNeedHeight =
    ended.selfNeedWidth + usedHeight last + verticalSpace

theorem neededWidth_cons (line : List View) (lines : List (List View)) :
    neededWidth (line :: lines) =
      max (usedWidth line + horizontalSpace) (neededWidth lines) := rfl

/-- The last child ends the loop with its line. -/
theorem endsWith_finish (onLine : OnLine measuring) :
    EndsWith measuring measuring.finish [measuring.layout.lineViews] where
  childViewList := rfl
  lineHeightList := by
    simp [Measuring.finish, Layout.addLine, onLine.height]
  selfNeedWidth := by
    simp [Measuring.finish, neededWidth, onLine.width]
  selfNeedHeight := by
    intro last isLast
    cases isLast
    simp [Measuring.finish, onLine.height]

/-- A line that is wrapped comes before the others. -/
theorem EndsWith.of_wrap {ended : Measuring} {lines : List (List View)}
    (onLine : OnLine measuring) (some : lines ≠ [])
    (ends : EndsWith ((measuring.wrap selfHeight).put view) ended lines) :
    EndsWith measuring ended (measuring.layout.lineViews :: lines) where
  childViewList := by
    rw [ends.childViewList]
    simp [Measuring.put, Measuring.wrap, Layout.addLine,
      Layout.addView]
  lineHeightList := by
    rw [ends.lineHeightList]
    simp [Measuring.put, Measuring.wrap, Layout.addLine,
      Layout.addView, onLine.height]
  selfNeedWidth := by
    rw [ends.selfNeedWidth, neededWidth_cons, ← max_assoc]
    simp [Measuring.put, Measuring.wrap, onLine.width]
  selfNeedHeight := by
    intro last isLast
    refine ends.selfNeedHeight last ?_
    rwa [List.getLast?_cons_of_ne_nil some] at isLast

/-- A child on the line changes none of the sums. -/
theorem EndsWith.of_put {ended : Measuring} {lines : List (List View)}
    (ends : EndsWith (measuring.put view) ended lines) :
    EndsWith measuring ended lines :=
  ⟨ends.childViewList, ends.lineHeightList, ends.selfNeedWidth,
    ends.selfNeedHeight⟩

/-- Run lemma: the loop breaks the lines as `breakFrom` does. -/
theorem endsWith_measureChildren {children : List View}
    (onLine : OnLine measuring) (some : children ≠ []) :
    EndsWith measuring
      (measureChildren selfWidth selfHeight children measuring)
      (breakFrom (fitsLine selfWidth) measuring.layout.lineViews
        children) := by
  induction children generalizing measuring with
  | nil => exact absurd rfl some
  | cons view rest inductionHypothesis =>
      rw [measureChildren, measureChild]
      by_cases isFit :
          fitsLine selfWidth measuring.layout.lineViews view = true
      · rw [if_neg fun wraps => (wraps_iff onLine).mp wraps isFit,
          breakFrom_of_fits isFit]
        cases rest with
        | nil => exact (endsWith_finish onLine.put).of_put
        | cons next rest =>
            exact (inductionHypothesis onLine.put
              (List.cons_ne_nil _ _)).of_put
      · rw [if_pos ((wraps_iff onLine).mpr isFit),
          breakFrom_of_not_fits isFit]
        cases rest with
        | nil =>
            exact (endsWith_finish (onLine_wrap.put)).of_wrap onLine
              (List.cons_ne_nil _ _)
        | cons next rest =>
            exact (inductionHypothesis (onLine_wrap.put)
              (List.cons_ne_nil _ _)).of_wrap onLine breakFrom_ne_nil

end Loop

/-! ## What `onMeasure` keeps and reports -/

section Measure

variable (layout : Layout) (widthSpec heightSpec : MeasureSpec)
  (children : List View)

theorem endsWith_onMeasure (some : children ≠ []) :
    EndsWith ⟨⟨[], [], []⟩, 0, 0, 0, 0⟩
      (measureChildren widthSpec.size heightSpec.size children
        ⟨clearMeasureParams layout, 0, 0, 0, 0⟩)
      (linesOf widthSpec.size children) := by
  cases children with
  | nil => exact absurd rfl some
  | cons view rest =>
      exact endsWith_measureChildren ⟨rfl, rfl⟩ (List.cons_ne_nil _ _)

/-- Spec lemma: the lines are those of the children, from any state. -/
theorem childViewList_onMeasure :
    (onMeasure layout widthSpec heightSpec children).layout.childViewList =
      linesOf widthSpec.size children := by
  cases children with
  | nil => rfl
  | cons view rest =>
      have ends := endsWith_onMeasure layout widthSpec heightSpec
        (view :: rest) (List.cons_ne_nil _ _)
      exact ends.childViewList

theorem lineHeightList_onMeasure :
    (onMeasure layout widthSpec heightSpec children).layout.lineHeightList =
      (linesOf widthSpec.size children).map usedHeight := by
  cases children with
  | nil => rfl
  | cons view rest =>
      have ends := endsWith_onMeasure layout widthSpec heightSpec
        (view :: rest) (List.cons_ne_nil _ _)
      exact ends.lineHeightList

theorem width_onMeasure (inexact : widthSpec.mode ≠ .exactly) :
    (onMeasure layout widthSpec heightSpec children).width =
      neededWidth (linesOf widthSpec.size children) := by
  rw [onMeasure, if_neg inexact]
  cases children with
  | nil => rfl
  | cons view rest =>
      have ends := endsWith_onMeasure layout widthSpec heightSpec
        (view :: rest) (List.cons_ne_nil _ _)
      exact ends.selfNeedWidth.trans (Nat.zero_max _)

/-- The height that is reported is that of the last line, below the width. -/
theorem height_onMeasure (inexact : heightSpec.mode ≠ .exactly) :
    (onMeasure layout widthSpec heightSpec children).height =
      match (linesOf widthSpec.size children).getLast? with
      | none => 0
      | some last =>
          neededWidth (linesOf widthSpec.size children) + usedHeight last +
            verticalSpace := by
  rw [onMeasure, if_neg inexact]
  cases children with
  | nil => rfl
  | cons view rest =>
      have ends := endsWith_onMeasure layout widthSpec heightSpec
        (view :: rest) (List.cons_ne_nil _ _)
      cases isLast : (linesOf widthSpec.size (view :: rest)).getLast? with
      | none =>
          exact absurd (List.getLast?_eq_none_iff.mp isLast) breakFrom_ne_nil
      | some last =>
          have needed := ends.selfNeedHeight last isLast
          rw [ends.selfNeedWidth, Nat.zero_max] at needed
          exact needed

end Measure

end DripStone.FloatLayout
