import DripStone.Library.Action
import DripStone.Library.JavaText
import DripStone.Library.Paths

/-!
# `SkinAttribute`

The attributes of a view that name resources are collected when it is
inflated, and set again, one after the other, whenever the skin changes.
-/

namespace DripStone.Skin

open DripStone.Library

/-! ## `SkinResources` -/

section Resources

variable (Drawable ColorStateList : Type)

/-- `android.content.res.Resources`. -/
structure Resources where
  getColor : Int → Int
  getColorStateList : Int → ColorStateList
  getDrawable : Int → Drawable
  getResourceEntryName : Int → Text
  getResourceTypeName : Int → Text
  getIdentifier : Text → Text → Text → Int

/-- The resources of the app, and those of the skin with its package name,
unless the skin is the default one. -/
structure SkinResources where
  mAppResources : Resources Drawable ColorStateList
  skin : Option (Resources Drawable ColorStateList × Text)

/-- What `getBackground` returns. -/
inductive Background where
  | color (color : Int)
  | drawable (drawable : Drawable)

end Resources

namespace SkinResources

variable {Drawable ColorStateList : Type}

/-- `applySkin`: without a package name or resources the skin is default. -/
def applySkin (mAppResources : Resources Drawable ColorStateList)
    (resources : Option (Resources Drawable ColorStateList))
    (pkgName : Text) : SkinResources Drawable ColorStateList where
  mAppResources := mAppResources
  skin :=
    if pkgName = [] then none
    else resources.map fun resources => (resources, pkgName)

/-- The value of a resource in the skin, or in the app if the skin lacks it. -/
def lookUp {Value : Type}
    (skinResources : SkinResources Drawable ColorStateList)
    (get : Resources Drawable ColorStateList → Int → Value) (resId : Int) :
    Value :=
  let mAppResources := skinResources.mAppResources
  match skinResources.skin with
  | none => get mAppResources resId
  | some (mSkinResources, mSkinPkgName) =>
      let skinId := mSkinResources.getIdentifier
        (mAppResources.getResourceEntryName resId)
        (mAppResources.getResourceTypeName resId) mSkinPkgName
      if skinId = 0 then get mAppResources resId
      else get mSkinResources skinId

def getColor (skinResources : SkinResources Drawable ColorStateList) :
    Int → Int :=
  skinResources.lookUp Resources.getColor

def getColorStateList
    (skinResources : SkinResources Drawable ColorStateList) :
    Int → ColorStateList :=
  skinResources.lookUp Resources.getColorStateList

def getDrawable (skinResources : SkinResources Drawable ColorStateList) :
    Int → Drawable :=
  skinResources.lookUp Resources.getDrawable

def getBackground (skinResources : SkinResources Drawable ColorStateList)
    (resId : Int) : Background Drawable :=
  if skinResources.mAppResources.getResourceTypeName resId = "color".toList
  then .color (skinResources.getColor resId)
  else .drawable (skinResources.getDrawable resId)

end SkinResources

/-! ## The attributes of a view -/

/-- `mAttributes` -/
inductive Attribute where
  | background
  | src
  | textColor
  | drawableLeft
  | drawableTop
  | drawableRight
  | drawableBottom
deriving DecidableEq, Repr

namespace Attribute

/-- One of the four that `setCompoundDrawablesWithIntrinsicBounds` sets. -/
def IsCompound : Attribute → Prop
  | background | src | textColor => False
  | drawableLeft | drawableTop | drawableRight | drawableBottom => True

instance : DecidablePred IsCompound
  | background | src | textColor => isFalse id
  | drawableLeft | drawableTop | drawableRight | drawableBottom =>
      isTrue trivial

def ofName (attributeName : Text) : Option Attribute :=
  [("background", background), ("src", src), ("textColor", textColor),
    ("drawableLeft", drawableLeft), ("drawableTop", drawableTop),
    ("drawableRight", drawableRight),
    ("drawableBottom", drawableBottom)].findSome? fun entry =>
      if entry.1.toList = attributeName then some entry.2 else none

end Attribute

structure SkinPair where
  attributeName : Attribute
  resId : Int
deriving DecidableEq, Repr

/-! ## `look` -/

inductive Failure where
  | classCastException
  | numberFormatException
  | stringIndexOutOfBoundsException
deriving DecidableEq, Repr

/-- The decimal digits among the `char`s stand in blocks of ten; these are the
zeros. -/
def zeros : List Nat :=
  [0x30, 0x660, 0x6F0, 0x7C0, 0x966, 0x9E6, 0xA66, 0xAE6, 0xB66, 0xBE6, 0xC66,
    0xCE6, 0xD66, 0xDE6, 0xE50, 0xED0, 0xF20, 0x1040, 0x1090, 0x17E0, 0x1810,
    0x1946, 0x19D0, 0x1A80, 0x1A90, 0x1B50, 0x1BB0, 0x1C40, 0x1C50, 0xA620,
    0xA8D0, 0xA900, 0xA9D0, 0xA9F0, 0xAA50, 0xABF0, 0xFF10]

/-- `Character.digit(unit, 10)` -/
def digit (unit : JChar) : Option Nat :=
  zeros.findSome? fun least =>
    if least ≤ unit.toNat ∧ unit.toNat < least + 10 then
      some (unit.toNat - least)
    else none

/-- `Integer.parseInt` -/
def parseInt (text : JString) : Except Failure Int :=
  let isNegative := literal "-" <+: text
  let digits :=
    if isNegative ∨ literal "+" <+: text then text.tail else text
  match digits.mapM digit with
  | none | some [] => .error .numberFormatException
  | some values =>
      let value : Int := values.foldl (fun value digit => 10 * value + digit) 0
      let value := if isNegative then -value else value
      if -2 ^ 31 ≤ value ∧ value < 2 ^ 31 then .ok value
      else .error .numberFormatException

/-- The resource that an attribute value names; `getResId` looks an attribute
of the theme up. -/
def resIdOf (getResId : Int → Int) (attributeValue : Text) :
    Except Failure Int :=
  match utf16 attributeValue with
  | [] => .error .stringIndexOutOfBoundsException
  -- `substring(1)`
  | _ :: rest =>
      if attributeValue.head? = some '?' then (parseInt rest).map getResId
      else parseInt rest

/-- A letter of two `char`s is no mark; digits are those of every script. -/
example : resIdOf id "@-١٢3".toList = .ok (-123) ∧
    resIdOf id "😀12".toList = .error .numberFormatException :=
  ⟨rfl, rfl⟩

/-- `look`: the pairs of the attributes that can change with the skin. -/
def look (getResId : Int → Int) :
    List (Text × Text) → Except Failure (List SkinPair)
  | [] => .ok []
  | (attributeName, attributeValue) :: attrs =>
      match Attribute.ofName attributeName with
      | none => look getResId attrs
      | some listed =>
          if attributeValue.head? = some '#' then look getResId attrs
          else do
            let resId ← resIdOf getResId attributeValue
            let others ← look getResId attrs
            return if resId ≤ 0 then others else ⟨listed, resId⟩ :: others

/-! ## `SkinView.applySkin` -/

section Views

variable {Drawable ColorStateList : Type}

/-- The value of an attribute. -/
inductive Value (Drawable ColorStateList : Type) where
  | null
  | drawable (drawable : Drawable)
  | colors (colors : ColorStateList)
deriving DecidableEq

abbrev Attributes (Drawable ColorStateList : Type) :=
  Attribute → Value Drawable ColorStateList

/-- What the code asks of a view, by its casts and by `instanceof`; four
classes have an `applySkin` of their own. -/
inductive ViewClass where
  | imageView
  | textView
  | skinAppBarLayout
  | skinCollapsingToolbarLayout
  | skinBottomNavigationView
  | skinToolbar
  | other
deriving DecidableEq, Repr

variable (colorDrawable : Int → Drawable) (colorPrimary : Int)
variable (skinResources : SkinResources Drawable ColorStateList)

/-- `applySkinSupport`: of the attributes above only one is set by a view
itself. -/
def applySkinSupport (viewClass : ViewClass) :
    Action Failure (Attributes Drawable ColorStateList) Unit :=
  match viewClass with
  | .skinAppBarLayout =>
      modify fun attributes => Function.update attributes .background
        (.drawable (skinResources.getDrawable colorPrimary))
  | _ => pure ()

/-- The drawable of a background, of a color or as it is. -/
def drawableOf (background : Background Drawable) : Drawable :=
  match background with
  | .color color => colorDrawable color
  | .drawable drawable => drawable

/-- `setCompoundDrawablesWithIntrinsicBounds(left, top, right, bottom)` -/
def setCompoundDrawables (left top right bottom : Option Drawable)
    (attributes : Attributes Drawable ColorStateList) :
    Attributes Drawable ColorStateList
  | .drawableLeft => left.elim .null .drawable
  | .drawableTop => top.elim .null .drawable
  | .drawableRight => right.elim .null .drawable
  | .drawableBottom => bottom.elim .null .drawable
  | other => attributes other

/-- One turn of the loop. -/
def applyPair (viewClass : ViewClass) (skinPair : SkinPair) :
    Action Failure (Attributes Drawable ColorStateList) Unit := do
  let (left, top, right, bottom) ← (do
    match skinPair.attributeName with
    | .background =>
        let background := skinResources.getBackground skinPair.resId
        modify fun attributes => Function.update attributes .background
          (.drawable (drawableOf colorDrawable background))
        return (none, none, none, none)
    | .src =>
        let background := skinResources.getBackground skinPair.resId
        if viewClass ≠ .imageView then throw .classCastException
        modify fun attributes => Function.update attributes .src
          (.drawable (drawableOf colorDrawable background))
        return (none, none, none, none)
    | .textColor =>
        if viewClass ≠ .textView then throw .classCastException
        modify fun attributes => Function.update attributes .textColor
          (.colors (skinResources.getColorStateList skinPair.resId))
        return (none, none, none, none)
    | .drawableLeft =>
        return (some (skinResources.getDrawable skinPair.resId), none, none,
          none)
    | .drawableTop =>
        return (none, some (skinResources.getDrawable skinPair.resId), none,
          none)
    | .drawableRight =>
        return (none, none, some (skinResources.getDrawable skinPair.resId),
          none)
    | .drawableBottom =>
        return (none, none, none,
          some (skinResources.getDrawable skinPair.resId)) :
    Action Failure (Attributes Drawable ColorStateList)
      (Option Drawable × Option Drawable × Option Drawable ×
        Option Drawable))
  if left.isSome ∨ right.isSome ∨ top.isSome ∨ bottom.isSome then
    if viewClass ≠ .textView then throw .classCastException
    modify (setCompoundDrawables left top right bottom)

/-- `applySkin` of a view that is still there. -/
def applySkin (viewClass : ViewClass) (skinPairs : List SkinPair) :
    Action Failure (Attributes Drawable ColorStateList) Unit := do
  applySkinSupport colorPrimary skinResources viewClass
  forM skinPairs (applyPair colorDrawable skinResources viewClass)

end Views

end DripStone.Skin
