import DripStone.Library.Guarded

/-!
# `MultiTouchEvent`

The drawing follows the finger that was pressed last.  An event has its
pointers in some order; a pointer keeps its id while its index may change.
-/

namespace DripStone.MultiTouch

open DripStone.Library

/-- The coordinates `x` and `y`, which the code treats alike. -/
abbrev Point (Coordinate : Type) := Coordinate × Coordinate

structure Pointer (Coordinate : Type) where
  id : Nat
  point : Point Coordinate

/-- `getActionMasked()` -/
inductive ActionMasked where
  | down
  | move
  | pointerDown
  | pointerUp
  | up
  | cancel
deriving DecidableEq, Repr

structure MotionEvent (Coordinate : Type) where
  actionMasked : ActionMasked
  actionIndex : Nat
  pointers : List (Pointer Coordinate)

structure MultiTouchEvent (Coordinate : Type) where
  offset : Point Coordinate
  down : Point Coordinate
  lastOffset : Point Coordinate
  currentPointId : Nat

inductive Failure where
  -- of a pointer index
  | illegalArgumentException
deriving DecidableEq, Repr

variable {Coordinate : Type} [AddCommGroup Coordinate]

/-! ## `onTouchEvent` -/

namespace MotionEvent

def pointerCount (event : MotionEvent Coordinate) : Int :=
  event.pointers.length

/-- What `getX`, `getY` and `getPointerId` read. -/
def getPointer (event : MotionEvent Coordinate) (index : Int) :
    Except Failure (Pointer Coordinate) :=
  if index < 0 then .error .illegalArgumentException
  else
    match event.pointers[index.toNat]? with
    | some pointer => .ok pointer
    | none => .error .illegalArgumentException

def findPointerIndex (event : MotionEvent Coordinate) (id : Nat) : Int :=
  match event.pointers.findIdx? fun pointer => pointer.id = id with
  | some index => index
  | none => -1

end MotionEvent

namespace MultiTouchEvent

def new : MultiTouchEvent Coordinate :=
  ⟨0, 0, 0, 0⟩

/-- A pointer is followed from here on. -/
def follow (view : MultiTouchEvent Coordinate)
    (pointer : Pointer Coordinate) : MultiTouchEvent Coordinate :=
  { view with
    down := pointer.point
    lastOffset := view.offset
    currentPointId := pointer.id }

def onTouchEvent (view : MultiTouchEvent Coordinate)
    (event : MotionEvent Coordinate) :
    Except Failure (MultiTouchEvent Coordinate) :=
  match event.actionMasked with
  | .down => do
      let first ← event.getPointer 0
      pure { view.follow first with currentPointId := 0 }
  | .move => do
      let index := event.findPointerIndex view.currentPointId
      let pointer ← event.getPointer index
      pure { view with offset := view.lastOffset + pointer.point - view.down }
  | .pointerDown => do
      let pointer ← event.getPointer event.actionIndex
      pure (view.follow pointer)
  | .pointerUp => do
      let upIndex : Int := event.actionIndex
      let pointer ← event.getPointer upIndex
      if pointer.id = view.currentPointId then
        let upIndex :=
          if upIndex = event.pointerCount - 1 then event.pointerCount - 2
          else upIndex + 1
        let other ← event.getPointer upIndex
        pure (view.follow other)
      else pure view
  | .up => pure view
  | .cancel => pure view

end MultiTouchEvent

end DripStone.MultiTouch
