import DripStone.Library.Guarded
import DripStone.Library.Moving

/-!
# `UniversalAdapter`

The listeners of an item are set when its holder is bound.  The one for a
click keeps the position of that moment, the one for a long click asks the
holder for its own.
-/

namespace DripStone.ItemClicks

open DripStone.Library

/-- A `ViewHolder` that is bound. -/
structure Holder (Item : Type) where
  -- `final int position`, kept by the listener of a click
  position : Nat
  -- what `convert` has shown
  shown : Item
  -- `getAdapterPosition()`, which a `RecyclerView` keeps up to date
  adapterPosition : Nat
deriving DecidableEq, Repr

/-- The holders by some identity; one without a value is not bound. -/
structure UniversalAdapter (Item : Type) where
  mDatas : Option (List Item)
  holders : Nat → Option (Holder Item)

inductive Failure where
  | nullPointerException
  | indexOutOfBoundsException
deriving DecidableEq, Repr

variable {Item : Type}

namespace UniversalAdapter

/-- `mDatas.get(position)` -/
def getData (adapter : UniversalAdapter Item) (position : Nat) :
    Except Failure Item :=
  match adapter.mDatas with
  | none => .error .nullPointerException
  | some datas =>
      match datas[position]? with
      | some item => .ok item
      | none => .error .indexOutOfBoundsException

def getItemCount (adapter : UniversalAdapter Item) : Nat :=
  match adapter.mDatas with
  | some datas => datas.length
  | none => 0

/-! ## The clicks -/

/-- What the listener of the adapter gets: the item, and its position. -/
def onClick (adapter : UniversalAdapter Item) (holder : Holder Item) :
    Except Failure (Item × Nat) := do
  let item ← adapter.getData holder.position
  pure (item, holder.position)

def onLongClick (adapter : UniversalAdapter Item) (holder : Holder Item) :
    Except Failure (Item × Nat) := do
  let item ← adapter.getData holder.adapterPosition
  pure (item, holder.adapterPosition)

/-! ## The data and the holders -/

def onBindViewHolder (adapter : UniversalAdapter Item)
    (holder position : Nat) : Option (UniversalAdapter Item) := do
  let datas ← adapter.mDatas
  let item ← datas[position]?
  pure { adapter with
    holders := Function.update adapter.holders holder
      (some ⟨position, item, position⟩) }

/-- A holder is let go, to be bound again later. -/
def recycled (adapter : UniversalAdapter Item) (holder : Nat) :
    UniversalAdapter Item :=
  { adapter with holders := Function.update adapter.holders holder none }

/-- After `notifyDataSetChanged` the visible holders are bound anew. -/
def rebound (adapter : UniversalAdapter Item) (bindings : List (Nat × Nat)) :
    UniversalAdapter Item :=
  { adapter with
    holders := fun holder => do
      let position ← bindings.lookup holder
      let datas ← adapter.mDatas
      let item ← datas[position]?
      pure ⟨position, item, position⟩ }

def setDatas (adapter : UniversalAdapter Item) (list : Option (List Item))
    (bindings : List (Nat × Nat)) : UniversalAdapter Item :=
  let changed : UniversalAdapter Item :=
    match adapter.mDatas with
    | some _ => { adapter with mDatas := some (list.getD []) }
    | none => { adapter with mDatas := list }
  changed.rebound bindings

def remove (adapter : UniversalAdapter Item) (i : Int)
    (bindings : List (Nat × Nat)) : UniversalAdapter Item :=
  match adapter.mDatas with
  | some datas =>
      if i < datas.length ∧ -1 < i then
        let changed : UniversalAdapter Item :=
          { adapter with mDatas := some (datas.eraseIdx i.toNat) }
        changed.rebound bindings
      else adapter
  | none => adapter

def addDatas (adapter : UniversalAdapter Item) (list : Option (List Item))
    (bindings : List (Nat × Nat)) : UniversalAdapter Item :=
  match list with
  | none => adapter
  | some temp =>
      let changed : UniversalAdapter Item :=
        { adapter with mDatas := some (adapter.mDatas.getD [] ++ temp) }
      changed.rebound bindings

/-- The data are changed and the adapter is told by `notifyItemMoved`. -/
def moved (adapter : UniversalAdapter Item)
    (fromPosition toPosition : Nat) : Option (UniversalAdapter Item) := do
  let datas ← adapter.mDatas
  if fromPosition < datas.length ∧ toPosition < datas.length then
    pure
      { mDatas := some (moveItem datas fromPosition toPosition)
        holders := fun holder => (adapter.holders holder).map fun bound =>
          { bound with
            adapterPosition :=
              movedIndex fromPosition toPosition bound.adapterPosition } }
  else none

/-- The same with `notifyItemRemoved`; the holder of the item is let go. -/
def removed (adapter : UniversalAdapter Item) (position : Nat) :
    Option (UniversalAdapter Item) := do
  let datas ← adapter.mDatas
  if position < datas.length then
    pure
      { mDatas := some (datas.eraseIdx position)
        holders := fun holder =>
          (adapter.holders holder).bind fun bound =>
            (erasedIndex position bound.adapterPosition).map fun behind =>
              { bound with adapterPosition := behind } }
  else none

end UniversalAdapter

end DripStone.ItemClicks
