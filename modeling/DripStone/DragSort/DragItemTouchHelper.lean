import DripStone.Library.Guarded
import DripStone.Library.Moving
import DripStone.Library.Paths

/-!
# `DragItemTouchHelper`

A list is shown by an adapter, which is told what is done to the list: an item
is moved to another position, or taken out.  A move is a run of swaps, and a
swipe takes out an item that equals the swiped one, while the adapter is told
of one move and one removal at a position.
-/

namespace DripStone.DragSort

open DripStone.Library

structure DragData where
  title : Text
  image : Int
  isDrag : Bool
deriving DecidableEq, Repr

/-- The data, and what the adapter shows by what it was told. -/
structure DragList where
  dataList : List DragData
  displayed : List DragData

/-! ## The helper -/

namespace DragList

def notifyItemMoved (list : DragList) (fromPosition toPosition : Nat) :
    DragList :=
  { list with displayed := moveItem list.displayed fromPosition toPosition }

def notifyItemRemoved (list : DragList) (position : Nat) : DragList :=
  { list with displayed := list.displayed.eraseIdx position }

def isDragByDataConfig (list : DragList) (position : Nat) : Bool :=
  match list.dataList[position]? with
  | some item => item.isDrag
  | none => true

/-- The two loops, over `fromPosition until toPosition` and
`fromPosition downTo toPosition + 1`. -/
def swapAll (dataList : List DragData) (fromPosition toPosition : Nat) :
    Option (List DragData) :=
  if fromPosition < toPosition then
    (List.range' fromPosition (toPosition - fromPosition)).foldlM
      (fun list index => swapItems list index (index + 1)) dataList
  else
    (List.range' (toPosition + 1) (fromPosition - toPosition)).reverse.foldlM
      (fun list index => swapItems list index (index - 1)) dataList

/-- There is no list behind an exception. -/
def transactDragAction (list : DragList) (fromPosition toPosition : Nat) :
    Option DragList :=
  if list.isDragByDataConfig toPosition then do
    let dataList ← swapAll list.dataList fromPosition toPosition
    let swapped : DragList := { list with dataList := dataList }
    pure (swapped.notifyItemMoved fromPosition toPosition)
  else pure list

def onSwiped (list : DragList) (position : Nat) : Option DragList := do
  let item ← list.dataList[position]?
  -- `remove` takes the first item that equals this one
  let removed : DragList := { list with dataList := list.dataList.erase item }
  pure (removed.notifyItemRemoved position)

end DragList

/-! ## Calls -/

inductive Call where
  | move (fromPosition toPosition : Nat)
  | swipe (position : Nat)
deriving DecidableEq, Repr

namespace Call

def run (list : DragList) : Call → Option DragList
  | .move fromPosition toPosition =>
      list.transactDragAction fromPosition toPosition
  | .swipe position => list.onSwiped position

/-- The positions of a call are inside the list. -/
def Inside (list : DragList) : Call → Prop
  | .move fromPosition toPosition =>
      fromPosition < list.dataList.length ∧ toPosition < list.dataList.length
  | .swipe position => position < list.dataList.length

instance (list : DragList) : DecidablePred (Inside list) := fun call =>
  match call with
  | .move _ _ => inferInstanceAs (Decidable (_ ∧ _))
  | .swipe _ => inferInstanceAs (Decidable (_ < _))

end Call

/-- The calls on a list that is shown as it is. -/
def dragging (dataList : List DragData) : Guarded DragList Call where
  start := ⟨dataList, dataList⟩
  step list call := if call.Inside list then call.run list else none

/-! ## The law -/

def FixedAt (dataList : List DragData) (position : Nat) : Prop :=
  ∃ item, dataList[position]? = some item ∧ item.isDrag = false

instance (dataList : List DragData) (position : Nat) :
    Decidable (FixedAt dataList position) :=
  match found : dataList[position]? with
  | none => isFalse (by rintro ⟨item, isItem, _⟩; simp [found] at isItem)
  | some item =>
      decidable_of_iff (item.isDrag = false) (by simp [FixedAt, found])

/-- What a call is to do to a list. -/
def Call.meant (dataList : List DragData) : Call → List DragData
  | .move fromPosition toPosition =>
      if FixedAt dataList toPosition then dataList
      else moveItem dataList fromPosition toPosition
  | .swipe position => dataList.eraseIdx position

/-- The fixed items are where they were. -/
def FixedStay (before after : List DragData) : Prop :=
  ∀ (index : Nat) (item : DragData), before[index]? = some item →
    item.isDrag = false → after[index]? = some item

/-- The list behind a call is as meant, and so shown; in a move no fixed item
has gone to another index. -/
structure InStep (before after : DragList) (call : Call) : Prop where
  asMeant : after.dataList = call.meant before.dataList
  shown : after.displayed = after.dataList
  fixedStay : ∀ fromPosition toPosition, call = .move fromPosition toPosition →
    FixedStay before.dataList after.dataList

def Lawful (list : DragList) (call : Call) : Prop :=
  call.Inside list → ∃ next, call.run list = some next ∧ InStep list next call

/-- A move passes no fixed item, unless its target is fixed; and a swiped item
is the first of its kind, or stands right behind others of its kind. -/
def Harmless (list : DragList) (call : Call) : Prop :=
  call.Inside list →
    match call with
    | .move fromPosition toPosition =>
        FixedAt list.dataList toPosition ∨
          ∀ index, min fromPosition toPosition ≤ index →
            index ≤ max fromPosition toPosition →
              ¬FixedAt list.dataList index
    | .swipe position =>
        ∀ first between, first ≤ between → between ≤ position →
          list.dataList[first]? = list.dataList[position]? →
            list.dataList[between]? = list.dataList[position]?

/-! ## One call -/

section OneCall

variable {list : DragList} {fromPosition toPosition position : Nat}

theorem isDragByDataConfig_eq_true_iff :
    list.isDragByDataConfig position = true ↔
      ¬FixedAt list.dataList position := by
  rw [DragList.isDragByDataConfig, FixedAt]
  cases list.dataList[position]? with
  | none => simp
  | some item => simp

/-- Spec lemma: the swaps move the item. -/
theorem swapAll_eq (dataList : List DragData)
    (isFrom : fromPosition < dataList.length)
    (isTo : toPosition < dataList.length) :
    DragList.swapAll dataList fromPosition toPosition =
      some (moveItem dataList fromPosition toPosition) := by
  rw [DragList.swapAll]
  by_cases down : fromPosition < toPosition
  · rw [if_pos down, foldlM_next_eq_moveItem down.le isTo]
  · rw [if_neg down, foldlM_previous_eq_moveItem (not_lt.mp down) isFrom]

theorem transactDragAction_eq (isFrom : fromPosition < list.dataList.length)
    (isTo : toPosition < list.dataList.length) :
    list.transactDragAction fromPosition toPosition =
      some (if FixedAt list.dataList toPosition then list
        else ⟨moveItem list.dataList fromPosition toPosition,
          moveItem list.displayed fromPosition toPosition⟩) := by
  rw [DragList.transactDragAction]
  by_cases isFixed : FixedAt list.dataList toPosition
  · rw [if_neg (by simpa [isDragByDataConfig_eq_true_iff] using isFixed),
      if_pos isFixed]
    rfl
  · rw [if_pos (isDragByDataConfig_eq_true_iff.mpr isFixed),
      if_neg isFixed, swapAll_eq list.dataList isFrom isTo]
    rfl

theorem onSwiped_eq {item : DragData}
    (isItem : list.dataList[position]? = some item) :
    list.onSwiped position =
      some ⟨list.dataList.erase item, list.displayed.eraseIdx position⟩ := by
  rw [DragList.onSwiped, isItem]
  rfl

end OneCall

/-! ## Fixed items -/

section FixedItems

variable {dataList : List DragData} {fromPosition toPosition : Nat}

theorem fixedStay_moveItem (isFrom : fromPosition < dataList.length)
    (isTo : toPosition < dataList.length)
    (noneFixed : ∀ index, min fromPosition toPosition ≤ index →
      index ≤ max fromPosition toPosition → ¬FixedAt dataList index) :
    FixedStay dataList (moveItem dataList fromPosition toPosition) := by
  intro index item isItem isFixed
  have outside : ¬(min fromPosition toPosition ≤ index ∧
      index ≤ max fromPosition toPosition) := fun inside =>
    noneFixed index inside.1 inside.2 ⟨item, isItem, isFixed⟩
  rw [getElem?_moveItem isFrom isTo, if_neg (by omega), if_neg (by omega),
    if_neg (by omega), isItem]

/-- Where an item takes the place of a fixed one, it is fixed itself. -/
theorem fixedAt_of_fixedStay {after : List DragData} {index source : Nat}
    (stay : FixedStay dataList after)
    (takenFrom : after[index]? = dataList[source]?)
    (isFixed : FixedAt dataList index) : FixedAt dataList source := by
  obtain ⟨item, isItem, fixed⟩ := isFixed
  exact ⟨item, takenFrom.symm.trans (stay index item isItem fixed), fixed⟩

theorem noneFixed_of_fixedStay (isFrom : fromPosition < dataList.length)
    (isTo : toPosition < dataList.length)
    (notFixed : ¬FixedAt dataList toPosition)
    (stay : FixedStay dataList (moveItem dataList fromPosition toPosition))
    {index : Nat} (behind : min fromPosition toPosition ≤ index)
    (upTo : index ≤ max fromPosition toPosition) :
    ¬FixedAt dataList index := by
  rcases le_total fromPosition toPosition with down | up
  · -- from the target down to the source
    rw [min_eq_left down] at behind
    rw [max_eq_right down] at upTo
    induction upTo using Nat.decreasingInduction with
    | self => exact notFixed
    | of_succ other before inductionHypothesis =>
        refine fun isFixed => inductionHypothesis (by omega) ?_
        refine fixedAt_of_fixedStay stay ?_ isFixed
        rw [getElem?_moveItem isFrom isTo, if_neg (by omega),
          if_pos ⟨behind, before⟩]
  · -- from the target up to the source
    rw [min_eq_right up] at behind
    rw [max_eq_left up] at upTo
    induction index, behind using Nat.le_induction with
    | base => exact notFixed
    | succ other behind inductionHypothesis =>
        refine fun isFixed => inductionHypothesis (by omega) ?_
        refine fixedAt_of_fixedStay stay ?_ isFixed
        rw [getElem?_moveItem isFrom isTo, if_neg (by omega),
          if_neg (by omega), if_pos (by omega), Nat.add_sub_cancel]

end FixedItems

/-! ## Every call -/

section EveryCall

variable {list next : DragList} {call : Call}

/-- Step lemma: a call on a list that is shown as it is does what it is meant
to do exactly when it is harmless. -/
theorem lawful_iff_harmless (isShown : list.displayed = list.dataList)
    (call : Call) : Lawful list call ↔ Harmless list call := by
  refine forall_congr' fun inside => ?_
  cases call with
  | move fromPosition toPosition =>
      obtain ⟨isFrom, isTo⟩ := inside
      rw [Call.run, transactDragAction_eq isFrom isTo]
      by_cases isFixed : FixedAt list.dataList toPosition
      · rw [if_pos isFixed]
        refine iff_of_true ⟨list, rfl, ?_, isShown, ?_⟩ (Or.inl isFixed)
        · rw [Call.meant, if_pos isFixed]
        · exact fun _ _ _ _ _ isItem _ => isItem
      · rw [if_neg isFixed]
        constructor
        · rintro ⟨next, isNext, inStep⟩
          cases isNext
          refine Or.inr fun index => ?_
          exact noneFixed_of_fixedStay isFrom isTo isFixed
            (inStep.fixedStay _ _ rfl)
        · intro harmless
          refine ⟨_, rfl, ?_, ?_, ?_⟩
          · rw [Call.meant, if_neg isFixed]
          · rw [isShown]
          · rintro _ _ ⟨rfl, rfl⟩
            exact fixedStay_moveItem isFrom isTo
              (harmless.resolve_left isFixed)
  | swipe position =>
      have isItem := List.getElem?_eq_getElem inside
      have sameList := erase_eq_eraseIdx_iff isItem
      rw [Call.run, onSwiped_eq isItem]
      simp only [isItem]
      rw [← sameList]
      constructor
      · rintro ⟨next, isNext, inStep⟩
        cases isNext
        exact inStep.asMeant
      · intro same
        refine ⟨_, rfl, same, ?_, by rintro _ _ ⟨⟩⟩
        rw [isShown, same]

theorem shown_of_step {dataList : List DragData}
    (isShown : list.displayed = list.dataList) (harmless : Harmless list call)
    (stepped : (dragging dataList).step list call = some next) :
    next.displayed = next.dataList := by
  obtain ⟨inside, ran⟩ := Option.ite_none_right_eq_some.mp stepped
  obtain ⟨other, isNext, inStep⟩ :=
    (lawful_iff_harmless isShown call).mpr harmless inside
  rw [ran] at isNext
  rw [Option.some_inj.mp isNext]
  exact inStep.shown

end EveryCall

/-- In a sequence of calls each does what it is meant to do exactly when each
is harmless. -/
theorem inStep_iff_harmless (dataList : List DragData)
    (history : List Call) :
    (dragging dataList).Along Lawful history ↔
      (dragging dataList).Along Harmless history :=
  Guarded.along_congr (fun list => list.displayed = list.dataList) rfl
    (fun _ _ _ => shown_of_step) (fun _ call isShown =>
      lawful_iff_harmless isShown call)

/-! ## Equal items, and a fixed item on the way -/

def red : DragData :=
  ⟨['0'], 1, true⟩

def blue : DragData :=
  ⟨['1'], 2, true⟩

def pinned : DragData :=
  ⟨['9'], 3, false⟩

/-- A swipe of the last item takes out the first one, which equals it; a move
over a fixed item takes that one along. -/
theorem calls_not_lawful :
    ¬(dragging [red, blue, red]).Along Lawful [.swipe 2] ∧
      ¬(dragging [red, pinned, blue]).Along Lawful [.move 0 2] := by
  constructor
  · intro along
    obtain ⟨next, ran, inStep⟩ :=
      along [] (.swipe 2) [] ⟨[red, blue, red], [red, blue, red]⟩ rfl rfl
        (by decide)
    have taken : next = ⟨[blue, red], [red, blue]⟩ :=
      (Option.some_inj.mp ran).symm
    have asMeant := inStep.asMeant
    rw [taken] at asMeant
    revert asMeant
    decide
  · intro along
    obtain ⟨next, ran, inStep⟩ :=
      along [] (.move 0 2) [] ⟨[red, pinned, blue], [red, pinned, blue]⟩ rfl
        rfl (by decide)
    have moved : next = ⟨[pinned, blue, red], [pinned, blue, red]⟩ :=
      (Option.some_inj.mp ran).symm
    have stays := inStep.fixedStay 0 2 rfl 1 pinned rfl rfl
    rw [moved] at stays
    revert stays
    decide

end DripStone.DragSort
