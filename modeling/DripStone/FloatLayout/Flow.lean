import DripStone.FloatLayout.Placement

/-!
# Measuring and placing

When the lines that `onMeasure` breaks and the size that it reports agree with
the places that `onLayout` gives the children.
-/

namespace DripStone.FloatLayout

open DripStone.Library

/-! ## The law -/

/-- The children of a layout with some paddings, measured from some state. -/
structure Setting where
  layout : Layout
  widthSpec : MeasureSpec
  heightSpec : MeasureSpec
  paddingLeft : Int
  paddingTop : Int
  children : List View

namespace Setting

variable (setting : Setting)

def measured : Measured :=
  onMeasure setting.layout setting.widthSpec setting.heightSpec
    setting.children

def lines : List (List View) :=
  setting.measured.layout.childViewList

/-- The places that `onLayout` gives after this measuring. -/
def placed : Option (List (List Rect)) :=
  onLayout setting.paddingLeft setting.paddingTop setting.measured.layout

/-- The lines as they are meant to be. -/
structure Flows (places : List (List Rect)) : Prop where
  inOrder : setting.lines.flatten = setting.children
  nonempty : ∀ line ∈ setting.lines, line ≠ []
  -- lines with more than one child end within the available width
  withinWidth : ∀ pair ∈ setting.lines.zip places, 1 < pair.1.length →
    ∀ rect ∈ pair.2, rect.right ≤ setting.widthSpec.size
  wideEnough : setting.widthSpec.mode ≠ .exactly →
    ∀ rect ∈ places.flatten, rect.right ≤ setting.measured.width
  highEnough : setting.heightSpec.mode ≠ .exactly →
    ∀ rect ∈ places.flatten, rect.bottom ≤ setting.measured.height
  independent : setting.heightSpec.mode ≠ .exactly →
    ∀ heightSpec : MeasureSpec, heightSpec.mode ≠ .exactly →
      (onMeasure setting.layout setting.widthSpec heightSpec
        setting.children).height = setting.measured.height

/-- The lines that the widths of the children and the available width call
for. -/
def brokenLines : List (List View) :=
  linesOf setting.widthSpec.size setting.children

/-- The first child fits on a line; the left padding is no wider than a space,
or the lines have room for the rest of it; it is no wider than two spaces
where the width is reported; and what stands above the last line is no higher
than the needed width with a space, where the height is. -/
structure Fitting : Prop where
  firstFits : ∀ first ∈ setting.children.head?,
    first.measuredWidth + horizontalSpace ≤ setting.widthSpec.size
  padded : setting.paddingLeft ≤ horizontalSpace ∨
    ∀ line ∈ setting.brokenLines, 1 < line.length →
      setting.paddingLeft + usedWidth line ≤
        (setting.widthSpec.size : Int) + horizontalSpace
  wide : setting.widthSpec.mode ≠ .exactly → setting.children ≠ [] →
    setting.paddingLeft ≤ 2 * horizontalSpace
  high : setting.heightSpec.mode ≠ .exactly → setting.children ≠ [] →
    setting.paddingTop + heightAbove setting.brokenLines ≤
      (neededWidth setting.brokenLines : Int) + verticalSpace

variable {setting}

theorem lines_eq : setting.lines = setting.brokenLines :=
  childViewList_onMeasure _ _ _ _

/-- Spec lemma: the places are those of the broken lines. -/
theorem placed_eq :
    setting.placed = some (placeLines setting.paddingLeft setting.paddingTop
      setting.brokenLines) := by
  have lines := @lines_eq setting
  rw [Setting.lines] at lines
  rw [placed, onLayout, lines, measured, lineHeightList_onMeasure]
  exact layoutLines_eq

/-! ## One part of the law after the other -/

theorem nonempty_iff :
    (∀ line ∈ setting.brokenLines, line ≠ []) ↔
      ∀ first ∈ setting.children.head?,
        first.measuredWidth + horizontalSpace ≤ setting.widthSpec.size := by
  have empty := @nil_notMem_breakLines_iff View
    (fitsLine setting.widthSpec.size) setting.children
  have asMembers : (∀ line ∈ setting.brokenLines, line ≠ []) ↔
      [] ∉ setting.brokenLines := by
    constructor
    · exact fun filled isLine => filled [] isLine rfl
    · rintro notLine line isLine rfl
      exact notLine isLine
  rw [asMembers, brokenLines, linesOf, empty]
  simp [fitsLine]

/-- A line of more than one child leaves a space behind its last child. -/
theorem usedWidth_le_of_long {line : List View}
    (isLine : line ∈ setting.brokenLines) (long : 1 < line.length) :
    usedWidth line ≤ setting.widthSpec.size := by
  rcases List.eq_nil_or_concat line with rfl | ⟨before, last, split⟩
  · simp at long
  · rw [List.concat_eq_append] at split
    subst split
    have some : before ≠ [] := by
      rintro rfl
      simp at long
    have isFit := lastFits_of_mem_breakLines isLine before last rfl some
    rw [fitsLine, decide_eq_true_iff] at isFit
    rw [usedWidth_append]
    exact isFit

theorem withinWidth_iff :
    (∀ pair ∈ setting.brokenLines.zip (placeLines setting.paddingLeft
          setting.paddingTop setting.brokenLines),
        1 < pair.1.length → ∀ rect ∈ pair.2,
          rect.right ≤ setting.widthSpec.size) ↔
      setting.paddingLeft ≤ horizontalSpace ∨
        ∀ line ∈ setting.brokenLines, 1 < line.length →
          setting.paddingLeft + usedWidth line ≤
            (setting.widthSpec.size : Int) + horizontalSpace := by
  rw [right_le_of_longLines_iff]
  refine (or_iff_right_of_imp ?_).symm
  intro narrow line isLine long
  have within := usedWidth_le_of_long isLine long
  omega

/-- The last line of some children is not empty. -/
theorem exists_lastLine (some : setting.children ≠ []) :
    ∃ last, setting.brokenLines.getLast? = .some last ∧ last ≠ [] ∧
      last ∈ setting.brokenLines := by
  cases present : setting.children with
  | nil => exact absurd present some
  | cons first rest =>
      have lines : setting.brokenLines =
          breakFrom (fitsLine setting.widthSpec.size) [] (first :: rest) := by
        rw [brokenLines, linesOf, present, breakLines]
      rw [lines]
      refine ⟨_, List.getLast?_eq_some_getLast breakFrom_ne_nil,
        getLast_breakFrom_ne_nil (List.cons_ne_nil _ _) _,
        List.getLast_mem _⟩

theorem brokenLines_eq_nil (none : setting.children = []) :
    setting.brokenLines = [] := by
  rw [brokenLines, linesOf, none, breakLines]

theorem wideEnough_iff (inexact : setting.widthSpec.mode ≠ .exactly) :
    (∀ rect ∈ (placeLines setting.paddingLeft setting.paddingTop
          setting.brokenLines).flatten,
        rect.right ≤ setting.measured.width) ↔
      (setting.children ≠ [] →
        setting.paddingLeft ≤ 2 * horizontalSpace) := by
  by_cases none : setting.children = []
  · rw [brokenLines_eq_nil none]
    simp [placeLines, none]
  · obtain ⟨last, _, filled, isLine⟩ := exists_lastLine none
    have width : setting.measured.width = neededWidth setting.brokenLines :=
      width_onMeasure _ _ _ _ inexact
    rw [right_le_of_lines_iff, width, right_le_neededWidth_iff isLine filled]
    exact ⟨fun here _ => here, fun here => here none⟩

theorem highEnough_iff (inexact : setting.heightSpec.mode ≠ .exactly) :
    (∀ rect ∈ (placeLines setting.paddingLeft setting.paddingTop
          setting.brokenLines).flatten,
        rect.bottom ≤ setting.measured.height) ↔
      (setting.children ≠ [] →
        setting.paddingTop + heightAbove setting.brokenLines ≤
          (neededWidth setting.brokenLines : Int) + verticalSpace) := by
  by_cases none : setting.children = []
  · rw [brokenLines_eq_nil none]
    simp [placeLines, none]
  · obtain ⟨last, isLast, filled, _⟩ := exists_lastLine none
    have height : setting.measured.height =
        neededWidth setting.brokenLines + usedHeight last +
          verticalSpace := by
      rw [measured, height_onMeasure _ _ _ _ inexact]
      rw [brokenLines] at isLast
      simp only [isLast]
      rfl
    rw [bottom_le_of_lines_iff isLast filled, height]
    push_cast
    constructor
    · intro here _
      omega
    · intro here
      have enough := here none
      omega

theorem height_independent (inexact : setting.heightSpec.mode ≠ .exactly)
    (heightSpec : MeasureSpec) (otherInexact : heightSpec.mode ≠ .exactly) :
    (onMeasure setting.layout setting.widthSpec heightSpec
      setting.children).height = setting.measured.height := by
  rw [measured, height_onMeasure _ _ _ _ inexact,
    height_onMeasure _ _ _ _ otherInexact]

/-! ## The whole law -/

/-- From every state of the layout, every child is placed, and the lines flow
as they are meant to exactly when the setting is fitting. -/
theorem flows_iff (setting : Setting) :
    ∃ places, setting.placed = some places ∧
      (setting.Flows places ↔ setting.Fitting) := by
  refine ⟨_, placed_eq, ?_⟩
  constructor
  · intro flows
    exact {
      firstFits := nonempty_iff.mp (lines_eq ▸ flows.nonempty)
      padded := withinWidth_iff.mp (lines_eq ▸ flows.withinWidth)
      wide := fun inexact =>
        (wideEnough_iff inexact).mp (flows.wideEnough inexact)
      high := fun inexact =>
        (highEnough_iff inexact).mp (flows.highEnough inexact) }
  · intro fitting
    exact {
      inOrder := lines_eq ▸ flatten_breakLines
      nonempty := lines_eq ▸ nonempty_iff.mpr fitting.firstFits
      withinWidth := lines_eq ▸ withinWidth_iff.mpr fitting.padded
      wideEnough := fun inexact =>
        (wideEnough_iff inexact).mpr (fitting.wide inexact)
      highEnough := fun inexact =>
        (highEnough_iff inexact).mpr (fitting.high inexact)
      independent := height_independent }

end Setting

/-! ## Three children, one on a line -/

/-- Three children of 60 by 100, from a new layout without paddings. -/
def threeChildren (availableWidth : Nat) : Setting where
  layout := ⟨[], [], []⟩
  widthSpec := ⟨availableWidth, .atMost⟩
  heightSpec := ⟨1000, .atMost⟩
  paddingLeft := 0
  paddingTop := 0
  children := List.replicate 3 ⟨60, 100⟩

/-- With room for each of them, the height that is reported ends above the
last child; with less room, the first line is empty. -/
theorem threeChildren_not_flows :
    ((threeChildren 120).measured.height = 320 ∧
      (threeChildren 120).placed =
        some [[⟨0, 0, 60, 100⟩], [⟨0, 160, 60, 260⟩], [⟨0, 320, 60, 420⟩]]) ∧
    [] ∈ (threeChildren 100).lines ∧
    (∀ places, (threeChildren 120).placed = some places →
      ¬(threeChildren 120).Flows places) ∧
    ∀ places, ¬(threeChildren 100).Flows places := by
  have height : (threeChildren 120).measured.height = 320 := by decide
  have placed : (threeChildren 120).placed = some [[⟨0, 0, 60, 100⟩],
      [⟨0, 160, 60, 260⟩], [⟨0, 320, 60, 420⟩]] := by decide
  have isEmpty : [] ∈ (threeChildren 100).lines := by decide
  refine ⟨⟨height, placed⟩, isEmpty, ?_, ?_⟩
  · intro places isPlaced flows
    have same := Option.some.inj (placed.symm.trans isPlaced)
    have last := flows.highEnough (by decide) ⟨0, 320, 60, 420⟩
      (by simp [← same])
    rw [height] at last
    exact absurd last (by decide)
  · exact fun places flows => flows.nonempty [] isEmpty rfl

end DripStone.FloatLayout
