import DripStone.Library.Guarded

/-!
# `MultiBanner`

A banner shows the items of a list on the pages of a `ViewPager`, with a dot
for each item.  The pages of a banner that loops have the last item in front
of the first one, and the first one behind the last one.
-/

namespace DripStone.Banner

open DripStone.Library

variable {T : Type}

inductive Failure where
  | indexOutOfBoundsException
  | nullPointerException
  | illegalArgumentException
deriving DecidableEq, Repr

/-- `list.get(index)`. -/
def get (list : List T) (index : Int) : Except Failure T :=
  if index < 0 then .error .indexOutOfBoundsException
  else
    match list[index.toNat]? with
    | some item => .ok item
    | none => .error .indexOutOfBoundsException

/-- `list.get(index).setChecked(checked)`. -/
def setChecked (dots : List Bool) (index : Int) (checked : Bool) :
    Except Failure (List Bool) :=
  if 0 ≤ index ∧ index < dots.length then
    .ok (dots.set index.toNat checked)
  else .error .indexOutOfBoundsException

/-- The adapter.  Its list is the padded list of the banner, and the creator
of holders is null where the banner had none. -/
structure MultiPagerAdapter where
  holderCreator : Bool
  isCanLoop : Bool
deriving DecidableEq, Repr

/-- What a page is made from: the item and the index that `createView` and
`onBind` are handed, the number of items, and the index that a click
reports. -/
structure Page (T : Type) where
  data : T
  position : Int
  size : Int
  pageClick : Int
deriving DecidableEq, Repr

/-- The page that is selected, the pages that are held, with what each was made
from when it was instantiated, and the number of listeners that the banner has
added. -/
structure ViewPager (T : Type) where
  mCurItem : Nat
  mItems : List (Nat × Page T)
  mOnPageChangeListeners : Nat
deriving DecidableEq, Repr

structure MultiBanner (T : Type) where
  mList : List T
  mListAdd : List T
  -- whether they are checked
  mDotList : List Bool
  dotPosition : Int
  prePosition : Int
  currentPosition : Int
  isCanLoop : Bool
  holderCreator : Bool
  adapter : Option MultiPagerAdapter
  mViewPager : ViewPager T
deriving DecidableEq, Repr

/-! ## Pages -/

/-- The index that `imageClick` reports. -/
def imageClick (isCanLoop : Bool) (position : Int) : Int :=
  if isCanLoop then position - 1 else position

/-- `getView`, and that a page must have a view. -/
def MultiPagerAdapter.getView (adapter : MultiPagerAdapter) (list : List T)
    (position : Int) : Except Failure (Page T) :=
  let length : Int := list.length
  let click := imageClick adapter.isCanLoop position
  if ¬adapter.holderCreator then .error .nullPointerException
  else if list.isEmpty then .error .illegalArgumentException
  else if adapter.isCanLoop then
    let size := if length > 1 then length - 2 else length
    if position = 0 then
      (get list 0).map fun data => ⟨data, length - 1, size, click⟩
    else if position = length - 1 then
      (get list (length - 1)).map fun data => ⟨data, 0, size, click⟩
    else
      (get list position).map fun data => ⟨data, position - 1, size, click⟩
  else (get list position).map fun data => ⟨data, position, length, click⟩

namespace MultiBanner

/-! ## The banner's listener, and the `ViewPager` -/

def new : MultiBanner T where
  mList := []
  mListAdd := []
  mDotList := []
  dotPosition := 0
  prePosition := 0
  currentPosition := 0
  isCanLoop := true
  holderCreator := false
  adapter := none
  mViewPager := ⟨0, [], 0⟩

variable (banner : MultiBanner T)

def pageSelected (position : Int) : Except Failure (MultiBanner T) := do
  if banner.isCanLoop then
    let length : Int := banner.mList.length
    let (currentPosition, dotPosition) :=
      if position = 0 then (length, length - 1)
      else if position = length + 1 then (1, 0)
      else (position, position - 1)
    let unchecked ← setChecked banner.mDotList banner.prePosition false
    let dots ← setChecked unchecked dotPosition true
    return { banner with
      mDotList := dots
      dotPosition := dotPosition
      prePosition := dotPosition
      currentPosition := currentPosition }
  else
    let unchecked ← setChecked banner.mDotList banner.prePosition false
    let dots ← setChecked unchecked position true
    return { banner with
      mDotList := dots
      prePosition := position
      currentPosition := position }

/-- All listeners are told. -/
def dispatchOnPageSelected (position : Int) :
    Except Failure (MultiBanner T) :=
  (List.replicate banner.mViewPager.mOnPageChangeListeners
    position).foldlM pageSelected banner

def turned (target : Nat) : MultiBanner T :=
  { banner with
    mViewPager := { banner.mViewPager with mCurItem := target } }

/-- A page comes to be the one that is selected, or the first or last one does
where there is no such page. -/
def setCurrentItemInternal (adapter : MultiPagerAdapter) (item : Int) :
    Except Failure (MultiBanner T) := do
  let target := (min item (banner.mListAdd.length - 1)).toNat
  -- the page is made; that it is held from then on is an event of its own
  let _ ← adapter.getView banner.mListAdd target
  if target = banner.mViewPager.mCurItem then return banner
  else (banner.turned target).dispatchOnPageSelected target

def setCurrentItem (item : Int) : Except Failure (MultiBanner T) :=
  match banner.adapter with
  | none => .ok banner
  | some adapter =>
      if banner.mListAdd.isEmpty ∨ item = banner.mViewPager.mCurItem then
        .ok banner
      else banner.setCurrentItemInternal adapter item

/-- With whether the `ViewPager` lacks pages, and populates itself again.  The
adapter has no `getItemPosition` of its own, so the pages that are held stay as
they are. -/
def notifyDataSetChanged (populates : Bool) :
    Except Failure (MultiBanner T) :=
  match banner.adapter with
  | none => .error .nullPointerException
  | some adapter =>
      if populates ∧ ¬banner.mListAdd.isEmpty then
        banner.setCurrentItemInternal adapter banner.mViewPager.mCurItem
      else .ok banner

/-- No page is held, and the first one is selected. -/
def emptied : MultiBanner T :=
  { banner with
    mViewPager := { banner.mViewPager with mCurItem := 0, mItems := [] } }

/-- The pages of the old adapter are dropped; the first page of the new one is
selected, without a word to the listeners, and instantiated. -/
def setAdapter (adapter : MultiPagerAdapter) :
    Except Failure (MultiBanner T) := do
  unless banner.mListAdd.isEmpty do
    let _ ← adapter.getView banner.mListAdd 0
  return { banner.emptied with adapter := some adapter }

/-- The `ViewPager` holds these pages. -/
def holding (items : List (Nat × Page T)) : MultiBanner T :=
  { banner with mViewPager := { banner.mViewPager with mItems := items } }

def instantiateItem (adapter : MultiPagerAdapter) (position : Nat) :
    Except Failure (MultiBanner T) := do
  let made ← adapter.getView banner.mListAdd position
  return banner.holding ((position, made) :: banner.mViewPager.mItems)

def destroyItem (position : Nat) : MultiBanner T :=
  banner.holding (banner.mViewPager.mItems.filter (·.1 ≠ position))

/-! ## The padded list and the dots -/

/-- What the loop of `createData` adds in one pass. -/
def added (i : Nat) : Except Failure T :=
  if i = 0 then get banner.mList (banner.mList.length - 1 : Int)
  else if i = banner.mList.length + 1 then get banner.mList 0
  else get banner.mList (i - 1 : Int)

def createData : Except Failure (MultiBanner T) :=
  if banner.isCanLoop then do
    let mListAdd ← (List.range (banner.mList.length + 2)).mapM banner.added
    return { banner with mListAdd := mListAdd, currentPosition := 1 }
  else return { banner with mListAdd := banner.mList }

def initData : Except Failure (MultiBanner T) :=
  match banner.mList with
  | [] => .ok banner
  | [only] => .ok { banner with mListAdd := banner.mListAdd ++ [only] }
  | _ => banner.createData

def updateData (list : List T) : Except Failure (MultiBanner T) :=
  let updated := { banner with mList := list }
  match list with
  | [] => .ok updated
  | [only] => .ok { updated with mListAdd := [only] }
  | _ => updated.createData

def setIndicator : Except Failure (MultiBanner T) := do
  if banner.mList.length > 1 then
    let dots ← setChecked (List.replicate banner.mList.length false)
      banner.dotPosition true
    return { banner with mDotList := dots }
  else return { banner with mDotList := [] }

def setViewPager : Except Failure (MultiBanner T) := do
  let adapted ← banner.setAdapter ⟨banner.holderCreator, banner.isCanLoop⟩
  let selected ← adapted.setCurrentItem adapted.currentPosition
  return { selected with mViewPager := { selected.mViewPager with
    mOnPageChangeListeners :=
      selected.mViewPager.mOnPageChangeListeners + 1 } }

/-! ## What is called from outside -/

/-- `setPages`, with whether a creator of holders is given. -/
def setPages (list : List T) (holderCreator : Bool) : MultiBanner T :=
  if holderCreator then
    { banner with mList := banner.mList ++ list, holderCreator := true }
  else banner

/-- `onLayout`, with a changed size. -/
def onLayout : Except Failure (MultiBanner T) := do
  let padded ← banner.initData
  let dotted ← padded.setIndicator
  dotted.setViewPager

def onReload (list : List T) (populates : Bool) :
    Except Failure (MultiBanner T) := do
  if list.isEmpty then return banner
  let updated ← banner.updateData list
  let dotted ← updated.setIndicator
  let notified ← dotted.notifyDataSetChanged populates
  notified.setCurrentItem 1

end MultiBanner

inductive Event (T : Type) where
  | setPages (list : List T) (holderCreator : Bool)
  | layout
  -- by the user, the automatic run or the end of a scroll
  | select (position : Nat)
  | reload (list : List T) (populates : Bool)
  -- by the `ViewPager`
  | instantiate (position : Nat)
  | destroy (position : Nat)

/-- What can be done to a banner that loops.  An exception ends its run.  The
`ViewPager` holds the selected page, so that it lacks none where there is to be
one page only, and not even the first one was held.  Which pages it holds is
left open: it may instantiate any page of the adapter that it does not hold,
and drop any. -/
def runs : Guarded (Except Failure (MultiBanner T)) (Event T) where
  start := .ok .new
  step
    | .error _, _ => none
    | .ok banner, .setPages list holderCreator =>
        if list ≠ [] then some (.ok (banner.setPages list holderCreator))
        else none
    | .ok banner, .layout => some banner.onLayout
    | .ok banner, .select position =>
        if position < banner.mListAdd.length then
          some (banner.setCurrentItem position)
        else none
    | .ok banner, .reload list populates =>
        if list ≠ [] ∧ (populates = true → banner.mViewPager.mCurItem = 0 ∨
            2 ≤ list.length) then
          some (banner.onReload list populates)
        else none
    | .ok banner, .instantiate position =>
        banner.adapter.bind fun adapter =>
          if position < banner.mListAdd.length ∧
              position ∉ banner.mViewPager.mItems.map Prod.fst then
            some (banner.instantiateItem adapter position)
          else none
    | .ok banner, .destroy position =>
        some (.ok (banner.destroyItem position))

end DripStone.Banner
