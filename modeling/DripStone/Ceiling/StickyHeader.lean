import DripStone.Ceiling.StarDecoration
import DripStone.Library.Fallible

/-!
# The header at the top

The header that stays is right as long as the header of the next group does
not come into view further down than the next item.
-/

namespace DripStone.Ceiling

open DripStone.Library

/-! ## The law -/

namespace Layout

variable (layout : Layout)

structure IsFirstVisible (position : Nat) : Prop where
  inList : position < layout.adapter.getItemCount
  visible : layout.IsVisible position
  first : ∀ earlier < position, ¬layout.IsVisible earlier

/-- The item that begins the group behind the one of a position. -/
structure BeginsNextGroup (position header : Nat) : Prop where
  behind : position < header
  isHeader : layout.adapter.isGroupHeader header = .ok true
  first : ∀ between, position < between → between < header →
    layout.adapter.isGroupHeader between = .ok false

end Layout

namespace RecyclerView

variable (parent : RecyclerView)

/-- The header at the top has the name of the first visible item, is not too
high, and does not cover the header of the next group that is visible. -/
structure SticksAs (header : Header) : Prop where
  named : ∀ position, parent.toLayout.IsFirstVisible position →
    parent.adapter.getGroupName position = .ok header.groupName
  atMost : header.rect.bottom - header.rect.top ≤
    parent.decoration.groupHeaderHeight
  apart : ∀ position next drawn other,
    parent.toLayout.IsFirstVisible position →
      parent.toLayout.BeginsNextGroup position next →
        parent.toLayout.IsVisible next → parent.onDraw = .ok drawn →
          (next, Drawing.header other) ∈ drawn →
            ¬header.rect.intersects other.rect

def Sticks : Prop :=
  ∃ header, parent.onDrawOver = .ok header ∧ parent.SticksAs header

/-- The first visible item is not the last one, and the next group, when it
is visible, begins with the next item or leaves room for a header, if that has
a width. -/
def HasRoom : Prop :=
  ∃ position, parent.toLayout.IsFirstVisible position ∧
    position + 1 < parent.adapter.getItemCount ∧
      ∀ next, parent.toLayout.BeginsNextGroup position next →
        parent.toLayout.IsVisible next →
          next = position + 1 ∨ parent.right ≤ parent.left ∨
            parent.paddingTop + parent.decoration.groupHeaderHeight ≤
              parent.decoratedTop next

end RecyclerView

/-! ## The items in a column -/

namespace StarAdapter

variable {adapter : StarAdapter} {position : Nat}

theorem exists_typeAt (inList : position < adapter.getItemCount) :
    ∃ type, adapter.typeAt position = .ok type := by
  obtain ⟨star, isStar⟩ : ∃ star, adapter.dataList[position]? = some star :=
    ⟨_, List.getElem?_eq_getElem inList⟩
  exact ⟨star.type, by rw [typeAt, isStar]⟩

theorem exists_isGroupHeader (inList : position < adapter.getItemCount) :
    ∃ isHeader, adapter.isGroupHeader position = .ok isHeader := by
  cases position with
  | zero => exact ⟨true, rfl⟩
  | succ previous =>
      obtain ⟨currentType, isCurrent⟩ := exists_typeAt inList
      obtain ⟨preType, isPre⟩ := exists_typeAt (Nat.lt_of_succ_lt inList)
      refine ⟨decide (currentType ≠ preType), ?_⟩
      simp only [isGroupHeader, isCurrent, isPre]
      rfl

theorem exists_getGroupName (inList : position < adapter.getItemCount) :
    ∃ groupName, adapter.getGroupName position = .ok groupName := by
  obtain ⟨type, isType⟩ := exists_typeAt inList
  refine ⟨if type = 1 then literal "水果" else literal "蔬菜", ?_⟩
  simp only [getGroupName, isType]
  rfl

/-- Behind the last item there is no question of a header. -/
theorem isGroupHeader_of_le (position_pos : 0 < position)
    (behind : adapter.getItemCount ≤ position) :
    adapter.isGroupHeader position = .error .indexOutOfBoundsException := by
  cases position with
  | zero => exact absurd position_pos (Nat.lt_irrefl 0)
  | succ previous =>
      have noStar : adapter.dataList[previous + 1]? = none :=
        List.getElem?_eq_none behind
      simp only [isGroupHeader, typeAt, noStar]
      rfl

theorem lt_of_isGroupHeader {isHeader : Bool} (position_pos : 0 < position)
    (isOk : adapter.isGroupHeader position = .ok isHeader) :
    position < adapter.getItemCount := by
  by_contra behind
  rw [isGroupHeader_of_le position_pos (not_lt.mp behind)] at isOk
  cases isOk

end StarAdapter

namespace Layout

variable {layout : Layout} {position : Nat}

theorem decoratedTop_succ :
    layout.decoratedTop (position + 1) = layout.getBottom position := by
  rw [decoratedTop, Finset.sum_range_succ, getBottom, getTop, decoratedTop]
  ring

theorem decoratedTop_lt_succ :
    layout.decoratedTop position < layout.decoratedTop (position + 1) := by
  have positive := layout.itemHeight_pos position
  rw [decoratedTop_succ, getBottom, getTop]
  omega

theorem decoratedTop_strictMono : StrictMono layout.decoratedTop :=
  strictMono_nat_of_lt_succ fun _ => decoratedTop_lt_succ

theorem getBottom_le_decoratedTop {later : Nat} (before : position < later) :
    layout.getBottom position ≤ layout.decoratedTop later := by
  rw [← decoratedTop_succ]
  exact decoratedTop_strictMono.monotone before

theorem offset_of_header
    (isHeader : layout.adapter.isGroupHeader position = .ok true) :
    layout.offset position = layout.decoration.groupHeaderHeight := by
  rw [offset, StarDecoration.getItemOffsets, isHeader]
  rfl

theorem IsFirstVisible.unique {other : Nat}
    (isFirst : layout.IsFirstVisible position)
    (isOther : layout.IsFirstVisible other) : position = other := by
  rcases lt_trichotomy position other with before | same | behind
  · exact absurd isFirst.visible (isOther.first position before)
  · exact same
  · exact absurd isOther.visible (isFirst.first other behind)

theorem BeginsNextGroup.inList {next : Nat}
    (begins : layout.BeginsNextGroup position next) :
    next < layout.adapter.getItemCount :=
  StarAdapter.lt_of_isGroupHeader (Nat.zero_lt_of_lt begins.behind)
    begins.isHeader

end Layout

/-! ## What is drawn -/

namespace RecyclerView

variable {parent : RecyclerView} {position next : Nat}

theorem mem_children : position ∈ parent.children ↔
    parent.firstChild ≤ position ∧
      position < parent.firstChild + parent.childCount :=
  List.mem_range'_1

theorem findFirstVisibleItemPosition_eq_some :
    parent.findFirstVisibleItemPosition = some position ↔
      parent.toLayout.IsFirstVisible position := by
  simp only [findFirstVisibleItemPosition, children,
    List.find?_range'_eq_some, List.mem_range'_1, decide_eq_true_eq,
    Bool.not_eq_true', decide_eq_false_iff_not]
  constructor
  · intro ⟨visible, ⟨_, isChild⟩, first⟩
    have inList := lt_of_lt_of_le isChild parent.inList
    refine ⟨inList, visible, fun earlier before isVisible => ?_⟩
    have covered := parent.covers earlier (before.trans inList) isVisible
    exact first earlier covered.1 before isVisible
  · intro isFirst
    exact ⟨isFirst.visible,
      parent.covers position isFirst.inList isFirst.visible,
      fun earlier _ before => isFirst.first earlier before⟩

/-- Spec lemma: the header at the top, with the height that it has there. -/
theorem onDrawOver_eq_ok {isHeader : Bool}
    (isFirst : parent.toLayout.IsFirstVisible position)
    (isNext : parent.adapter.isGroupHeader (position + 1) = .ok isHeader) :
    ∃ header, parent.onDrawOver = .ok header ∧
      parent.adapter.getGroupName position = .ok header.groupName ∧
      header.rect = ⟨parent.left, parent.paddingTop, parent.right,
        parent.paddingTop + if isHeader then
          min (parent.decoration.groupHeaderHeight : Int)
            (parent.getBottom position - parent.paddingTop)
        else parent.decoration.groupHeaderHeight⟩ := by
  obtain ⟨groupName, isName⟩ :=
    StarAdapter.exists_getGroupName isFirst.inList
  rw [onDrawOver, findFirstVisibleItemPosition_eq_some.mpr isFirst]
  simp only [isNext, isName]
  cases isHeader with
  | false => exact ⟨_, rfl, rfl, rfl⟩
  | true => exact ⟨_, rfl, rfl, rfl⟩

/-- The list ends behind the first visible item. -/
theorem onDrawOver_of_last
    (isFirst : parent.toLayout.IsFirstVisible position)
    (isLast : parent.adapter.getItemCount ≤ position + 1) :
    parent.onDrawOver = .error .indexOutOfBoundsException := by
  rw [onDrawOver, findFirstVisibleItemPosition_eq_some.mpr isFirst]
  simp only [StarAdapter.isGroupHeader_of_le (Nat.succ_pos position) isLast]
  rfl

theorem lt_of_onDrawOver {header : Header}
    (isFirst : parent.toLayout.IsFirstVisible position)
    (isOver : parent.onDrawOver = .ok header) :
    position + 1 < parent.adapter.getItemCount := by
  by_contra isLast
  rw [onDrawOver_of_last isFirst (not_lt.mp isLast)] at isOver
  cases isOver

theorem exists_isFirstVisible {header : Header}
    (isOver : parent.onDrawOver = .ok header) :
    ∃ position, parent.toLayout.IsFirstVisible position := by
  cases isFound : parent.findFirstVisibleItemPosition with
  | none =>
      rw [onDrawOver, isFound] at isOver
      cases isOver
  | some position =>
      exact ⟨position, findFirstVisibleItemPosition_eq_some.mp isFound⟩

/-- Above the first item of a group there is a header, where this is not above
the top. -/
theorem drawAbove_of_header
    (inList : position < parent.adapter.getItemCount)
    (isHeader : parent.adapter.isGroupHeader position = .ok true)
    (below : parent.paddingTop ≤ parent.decoratedTop position) :
    ∃ header, parent.drawAbove position = .ok (.header header) ∧
      header.rect = ⟨parent.left, parent.decoratedTop position, parent.right,
        parent.decoratedTop position +
          parent.decoration.groupHeaderHeight⟩ := by
  obtain ⟨groupName, isName⟩ := StarAdapter.exists_getGroupName inList
  have isTop : parent.getTop position = parent.decoratedTop position +
      parent.decoration.groupHeaderHeight := by
    rw [Layout.getTop, Layout.offset_of_header isHeader]
  have drawn : parent.getTop position -
      parent.decoration.groupHeaderHeight - parent.paddingTop ≥ 0 := by
    rw [isTop]
    omega
  simp only [drawAbove, isHeader, isName]
  simp only [bind, Except.bind, drawn, and_self, if_true]
  refine ⟨_, rfl, ?_⟩
  simp only [isTop, add_sub_cancel_right]

theorem exists_drawAbove (inList : position < parent.adapter.getItemCount) :
    ∃ drawing, parent.drawAbove position = .ok drawing := by
  obtain ⟨isHeader, isIt⟩ := StarAdapter.exists_isGroupHeader inList
  obtain ⟨groupName, isName⟩ := StarAdapter.exists_getGroupName inList
  simp only [drawAbove, isIt, isName]
  simp only [bind, Except.bind]
  split
  · exact ⟨_, rfl⟩
  · split
    · exact ⟨_, rfl⟩
    · exact ⟨_, rfl⟩

theorem exists_onDraw (parent : RecyclerView) :
    ∃ drawn, parent.onDraw = .ok drawn := by
  refine exists_mapM_eq_ok_iff.mpr fun position isChild => ?_
  obtain ⟨drawing, isDrawn⟩ := exists_drawAbove
    (lt_of_lt_of_le (mem_children.mp isChild).2 parent.inList)
  exact ⟨(position, drawing), by rw [isDrawn]; rfl⟩

theorem mem_onDraw {drawn : List (Nat × Drawing)} {drawing : Drawing}
    (isDrawn : parent.onDraw = .ok drawn) :
    (position, drawing) ∈ drawn ↔
      position ∈ parent.children ∧
        parent.drawAbove position = .ok drawing := by
  rw [mem_of_mapM_eq_ok isDrawn]
  constructor
  · intro ⟨child, isChild, above⟩
    cases isAbove : parent.drawAbove child with
    | error failure =>
        rw [isAbove] at above
        cases above
    | ok other =>
        rw [isAbove] at above
        obtain ⟨same, isDrawing⟩ := Prod.mk.inj (Except.ok.inj above)
        rw [← same, ← isDrawing]
        exact ⟨isChild, isAbove⟩
  · intro ⟨isChild, isAbove⟩
    exact ⟨position, isChild, by rw [isAbove]; rfl⟩

/-! ## The next group -/

theorem paddingTop_lt_decoratedTop
    (isFirst : parent.toLayout.IsFirstVisible position)
    (behind : position < next) :
    parent.paddingTop < parent.decoratedTop next :=
  lt_of_lt_of_le isFirst.visible.1 (Layout.getBottom_le_decoratedTop behind)

/-- A rectangle is apart from what is drawn above the next group exactly when
it is apart from the header there. -/
theorem apart_iff {rect : Rect}
    (isFirst : parent.toLayout.IsFirstVisible position)
    (begins : parent.toLayout.BeginsNextGroup position next)
    (visible : parent.toLayout.IsVisible next) :
    (∀ drawn other, parent.onDraw = .ok drawn →
      (next, Drawing.header other) ∈ drawn → ¬rect.intersects other.rect) ↔
      ¬rect.intersects ⟨parent.left, parent.decoratedTop next, parent.right,
        parent.decoratedTop next +
          parent.decoration.groupHeaderHeight⟩ := by
  obtain ⟨header, isAbove, isRect⟩ := drawAbove_of_header begins.inList
    begins.isHeader (paddingTop_lt_decoratedTop isFirst begins.behind).le
  have isChild : next ∈ parent.children :=
    mem_children.mpr (parent.covers next begins.inList visible)
  obtain ⟨drawn, isDrawn⟩ := exists_onDraw parent
  rw [← isRect]
  constructor
  · intro apart
    exact apart drawn header isDrawn
      ((mem_onDraw isDrawn).mpr ⟨isChild, isAbove⟩)
  · intro apart others other isOthers isOther
    have same := ((mem_onDraw isOthers).mp isOther).2
    rw [isAbove] at same
    rw [← Drawing.header.inj (Except.ok.inj same)]
    exact apart

/-- The header at the top is apart from the one of the next group. -/
theorem not_intersects_iff {isHeader : Bool} {rect : Rect}
    (isFirst : parent.toLayout.IsFirstVisible position)
    (isNext : parent.adapter.isGroupHeader (position + 1) = .ok isHeader)
    (begins : parent.toLayout.BeginsNextGroup position next)
    (isRect : rect = ⟨parent.left, parent.paddingTop, parent.right,
      parent.paddingTop + if isHeader then
        min (parent.decoration.groupHeaderHeight : Int)
          (parent.getBottom position - parent.paddingTop)
      else parent.decoration.groupHeaderHeight⟩) :
    ¬rect.intersects ⟨parent.left, parent.decoratedTop next, parent.right,
        parent.decoratedTop next + parent.decoration.groupHeaderHeight⟩ ↔
      next = position + 1 ∨ parent.right ≤ parent.left ∨
        parent.paddingTop + parent.decoration.groupHeaderHeight ≤
          parent.decoratedTop next := by
  rw [isRect, Rect.intersects]
  have below := paddingTop_lt_decoratedTop isFirst begins.behind
  cases isHeader with
  | true =>
      have isIt : next = position + 1 := by
        by_contra another
        have isFalse := begins.first (position + 1) (Nat.lt_succ_self _)
          (lt_of_le_of_ne begins.behind fun same => another same.symm)
        rw [isNext] at isFalse
        cases isFalse
      have pushed := min_le_right
        (parent.decoration.groupHeaderHeight : Int)
        (parent.getBottom position - parent.paddingTop)
      refine iff_of_true ?_ (Or.inl isIt)
      intro ⟨_, _, _, covered⟩
      simp only [isIt, Layout.decoratedTop_succ, if_true] at covered
      omega
  | false =>
      have another : next ≠ position + 1 := by
        intro isIt
        have isTrue := begins.isHeader
        rw [isIt, isNext] at isTrue
        cases isTrue
      simp only [Bool.false_eq_true, if_false]
      omega

theorem sticksAs_iff {isHeader : Bool} {header : Header}
    (isFirst : parent.toLayout.IsFirstVisible position)
    (isNext : parent.adapter.isGroupHeader (position + 1) = .ok isHeader)
    (isName : parent.adapter.getGroupName position = .ok header.groupName)
    (isRect : header.rect = ⟨parent.left, parent.paddingTop, parent.right,
      parent.paddingTop + if isHeader then
        min (parent.decoration.groupHeaderHeight : Int)
          (parent.getBottom position - parent.paddingTop)
      else parent.decoration.groupHeaderHeight⟩) :
    parent.SticksAs header ↔
      ∀ next, parent.toLayout.BeginsNextGroup position next →
        parent.toLayout.IsVisible next →
          next = position + 1 ∨ parent.right ≤ parent.left ∨
            parent.paddingTop + parent.decoration.groupHeaderHeight ≤
              parent.decoratedTop next := by
  constructor
  · intro sticks next begins visible
    rw [← not_intersects_iff isFirst isNext begins isRect,
      ← apart_iff isFirst begins visible]
    intro drawn other
    exact sticks.apart position next drawn other isFirst begins visible
  · intro hasRoom
    refine ⟨fun other isOther => ?_, ?_, ?_⟩
    · rw [← isFirst.unique isOther]
      exact isName
    · rw [isRect]
      cases isHeader with
      | true => simp
      | false => simp
    · intro other next drawn drawnHeader isOther begins visible
      rw [← isFirst.unique isOther] at begins
      have apart := hasRoom next begins visible
      rw [← not_intersects_iff isFirst isNext begins isRect,
        ← apart_iff isFirst begins visible] at apart
      exact apart drawn drawnHeader

/-- The header at the top is right exactly when there is room for it. -/
theorem sticks_iff_hasRoom (parent : RecyclerView) :
    parent.Sticks ↔ parent.HasRoom := by
  constructor
  · intro ⟨header, isOver, sticks⟩
    obtain ⟨position, isFirst⟩ := exists_isFirstVisible isOver
    have notLast := lt_of_onDrawOver isFirst isOver
    obtain ⟨isHeader, isNext⟩ := StarAdapter.exists_isGroupHeader notLast
    obtain ⟨other, isOther, isName, isRect⟩ :=
      onDrawOver_eq_ok isFirst isNext
    rw [isOver] at isOther
    rw [← Except.ok.inj isOther] at isName isRect
    exact ⟨position, isFirst, notLast,
      (sticksAs_iff isFirst isNext isName isRect).mp sticks⟩
  · intro ⟨position, isFirst, notLast, hasRoom⟩
    obtain ⟨isHeader, isNext⟩ := StarAdapter.exists_isGroupHeader notLast
    obtain ⟨header, isOver, isName, isRect⟩ :=
      onDrawOver_eq_ok isFirst isNext
    exact ⟨header, isOver,
      (sticksAs_iff isFirst isNext isName isRect).mpr hasRoom⟩

end RecyclerView

/-! ## A list of one star -/

/-- One star, all of which is visible. -/
def oneStar : RecyclerView where
  decoration := ⟨50, fun _ => 20⟩
  adapter := ⟨[⟨literal "a", 1⟩]⟩
  itemHeight := fun _ => 100
  width := 300
  height := 500
  paddingLeft := 0
  paddingTop := 0
  paddingRight := 0
  paddingBottom := 0
  scroll := 0
  itemHeight_pos := fun _ => Nat.succ_pos 99
  firstChild := 0
  childCount := 1
  inList := le_refl 1
  covers := fun position inList _ => ⟨Nat.zero_le position, inList⟩

theorem oneStar_not_sticks : ¬oneStar.Sticks := by
  have isFirst : oneStar.toLayout.IsFirstVisible 0 :=
    ⟨by decide, by decide, fun _ impossible =>
      absurd impossible (Nat.not_lt_zero _)⟩
  intro ⟨header, isOver, _⟩
  exact absurd (RecyclerView.lt_of_onDrawOver isFirst isOver) (by decide)

end DripStone.Ceiling
