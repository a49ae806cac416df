import DripStone.Library.JavaText

/-!
# `StarDecoration`

A vertical list of stars, each group of which has a header above its first
item.  The header of the group that is scrolled through stays at the top.
-/

namespace DripStone.Ceiling

open DripStone.Library

/-! ## `StarAdapter` -/

structure Star where
  name : JString
  type : Int
deriving DecidableEq, Repr

inductive Failure where
  | indexOutOfBoundsException
  | nullPointerException
deriving DecidableEq, Repr

structure StarAdapter where
  dataList : List Star

namespace StarAdapter

variable (adapter : StarAdapter)

def getItemCount : Nat := adapter.dataList.length

/-- `dataList[position].type`. -/
def typeAt (position : Nat) : Except Failure Int :=
  match adapter.dataList[position]? with
  | some star => .ok star.type
  | none => .error .indexOutOfBoundsException

def isGroupHeader : Nat → Except Failure Bool
  | 0 => .ok true
  | previous + 1 => do
      let currentType ← adapter.typeAt (previous + 1)
      let preType ← adapter.typeAt previous
      return currentType ≠ preType

def getGroupName (position : Nat) : Except Failure JString := do
  let type ← adapter.typeAt position
  return if type = 1 then literal "水果" else literal "蔬菜"

end StarAdapter

/-! ## Where the items are -/

structure Rect where
  left : Int
  top : Int
  right : Int
  bottom : Int
deriving DecidableEq, Repr

/-- The rectangles have a point inside of both. -/
def Rect.intersects (first second : Rect) : Prop :=
  first.left < second.right ∧ second.left < first.right ∧
    first.top < second.bottom ∧ second.top < first.bottom

structure StarDecoration where
  groupHeaderHeight : Nat
  -- of the bounds of a text in the text's paint
  textHeight : JString → Int

/-- The space above an item. -/
def StarDecoration.getItemOffsets (decoration : StarDecoration)
    (adapter : StarAdapter) (position : Nat) : Except Failure Nat := do
  let isGroupHeader ← adapter.isGroupHeader position
  return if isGroupHeader then decoration.groupHeaderHeight else 4

/-- A list of stars that is scrolled, and the heights of its items. -/
structure Layout where
  decoration : StarDecoration
  adapter : StarAdapter
  itemHeight : Nat → Nat
  width : Int
  height : Int
  paddingLeft : Int
  paddingTop : Int
  paddingRight : Int
  paddingBottom : Int
  scroll : Int
  itemHeight_pos : ∀ position, 0 < itemHeight position

namespace Layout

variable (layout : Layout)

/-- The space above an item of the list. -/
def offset (position : Nat) : Nat :=
  match layout.decoration.getItemOffsets layout.adapter position with
  | .ok top => top
  | .error _ => 0

/-- Where an item begins, with the space above it. -/
def decoratedTop (position : Nat) : Int :=
  layout.paddingTop - layout.scroll + ∑ earlier ∈ Finset.range position,
    ((layout.offset earlier : Int) + layout.itemHeight earlier)

def getTop (position : Nat) : Int :=
  layout.decoratedTop position + layout.offset position

def getBottom (position : Nat) : Int :=
  layout.getTop position + layout.itemHeight position

/-- A part of the item, or of the space above it, is between the paddings. -/
def IsVisible (position : Nat) : Prop :=
  layout.paddingTop < layout.getBottom position ∧
    layout.decoratedTop position < layout.height - layout.paddingBottom

instance (position : Nat) : Decidable (layout.IsVisible position) :=
  inferInstanceAs (Decidable (_ ∧ _))

end Layout

/-- The children are items in a row, all visible ones among them. -/
structure RecyclerView extends Layout where
  firstChild : Nat
  childCount : Nat
  inList : firstChild + childCount ≤ adapter.getItemCount
  covers : ∀ position < adapter.getItemCount, toLayout.IsVisible position →
    firstChild ≤ position ∧ position < firstChild + childCount

/-! ## Drawing -/

/-- A header: its rectangle, its text and where this is written, and what it
is clipped to. -/
structure Header where
  rect : Rect
  groupName : JString
  x : Int
  y : Int
  clip : Option Rect
deriving DecidableEq, Repr

/-- What `onDraw` draws above an item. -/
inductive Drawing where
  | header (header : Header)
  | divider (rect : Rect)
  | nothing
deriving DecidableEq, Repr

namespace RecyclerView

variable (parent : RecyclerView)

def left : Int := parent.paddingLeft

def right : Int := parent.width - parent.paddingRight

def children : List Nat := List.range' parent.firstChild parent.childCount

/-- What `onDraw` draws for one child. -/
def drawAbove (position : Nat) : Except Failure Drawing := do
  let groupHeaderHeight : Int := parent.decoration.groupHeaderHeight
  let top := parent.getTop position
  let isGroupHeader ← parent.adapter.isGroupHeader position
  if isGroupHeader ∧ top - groupHeaderHeight - parent.paddingTop ≥ 0 then
    let groupName ← parent.adapter.getGroupName position
    return .header
      { rect := ⟨parent.left, top - groupHeaderHeight, parent.right, top⟩
        groupName := groupName
        x := parent.left + 20
        y := top - groupHeaderHeight.tdiv 2 +
          (parent.decoration.textHeight groupName).tdiv 2
        clip := none }
  else if top - groupHeaderHeight - parent.paddingTop ≥ 0 then
    return .divider ⟨parent.left, top - 4, parent.right, top⟩
  else return .nothing

/-- What is drawn, with the position of the child. -/
def onDraw : Except Failure (List (Nat × Drawing)) :=
  parent.children.mapM fun position => do
    let drawing ← parent.drawAbove position
    return (position, drawing)

/-- Of the children; `none` for -1. -/
def findFirstVisibleItemPosition : Option Nat :=
  parent.children.find? fun position => parent.toLayout.IsVisible position

def onDrawOver : Except Failure Header :=
  let groupHeaderHeight : Int := parent.decoration.groupHeaderHeight
  let top := parent.paddingTop
  match parent.findFirstVisibleItemPosition with
  -- no holder is found for the position -1
  | none => .error .nullPointerException
  | some position => do
      let isGroupHeader ← parent.adapter.isGroupHeader (position + 1)
      let groupName ← parent.adapter.getGroupName position
      let textHeight := parent.decoration.textHeight groupName
      if isGroupHeader then
        let bottom := min groupHeaderHeight
          (parent.getBottom position - parent.paddingTop)
        let rect : Rect := ⟨parent.left, top, parent.right, top + bottom⟩
        .ok
          { rect := rect
            groupName := groupName
            x := parent.left + 20
            y := top + bottom - groupHeaderHeight.tdiv 2 + textHeight.tdiv 2
            clip := some rect }
      else
        .ok
          { rect := ⟨parent.left, top, parent.right,
              top + groupHeaderHeight⟩
            groupName := groupName
            x := parent.left + 20
            y := top + groupHeaderHeight.tdiv 2 + textHeight.tdiv 2
            clip := none }

end RecyclerView

end DripStone.Ceiling
