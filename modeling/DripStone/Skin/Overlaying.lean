import DripStone.Skin.SkinManager

/-!
# One skin over another

A skin sets the same attributes of a view as any other.  So a view to which
skins were applied one after the other looks as if only the last of them had
been.
-/

namespace DripStone.Skin

open DripStone.Library
open DripStone.Library.Action

variable {Drawable ColorStateList : Type}

/-! ## Applying a skin over another -/

section Over

variable {colorDrawable : Int → Drawable} {colorPrimary : Int}
variable {skinResources : SkinResources Drawable ColorStateList}
variable {skinPairs : List SkinPair}

/-- A pair of the list sets or clears the attribute. -/
def Touched (skinPairs : List SkinPair) (name : Attribute) : Prop :=
  ∃ skinPair ∈ skinPairs, skinPair.attributeName = name ∨
    skinPair.attributeName.IsCompound ∧ name.IsCompound

theorem setPair_congr {first second : Attributes Drawable ColorStateList}
    {name : Attribute} (same : first name = second name)
    (skinPair : SkinPair) :
    setPair colorDrawable skinResources first skinPair name =
      setPair colorDrawable skinResources second skinPair name := by
  rw [setPair, setPair, same]

theorem foldl_setPair_congr
    {first second : Attributes Drawable ColorStateList} {name : Attribute}
    (same : first name = second name) :
    skinPairs.foldl (setPair colorDrawable skinResources) first name =
      skinPairs.foldl (setPair colorDrawable skinResources) second name := by
  induction skinPairs generalizing first second with
  | nil => exact same
  | cons skinPair rest inductionHypothesis =>
      exact inductionHypothesis (setPair_congr same skinPair)

/-- What is set or cleared does not depend on what it was. -/
theorem foldl_setPair_of_touched {name : Attribute}
    (touched : Touched skinPairs name)
    (first second : Attributes Drawable ColorStateList) :
    skinPairs.foldl (setPair colorDrawable skinResources) first name =
      skinPairs.foldl (setPair colorDrawable skinResources) second name := by
  obtain ⟨skinPair, inPairs, sets⟩ := touched
  have atPair : ∀ first second : Attributes Drawable ColorStateList,
      setPair colorDrawable skinResources first skinPair name =
        setPair colorDrawable skinResources second skinPair name := by
    intro first second
    by_cases here : name = skinPair.attributeName
    · rw [here, setPair_self, setPair_self]
    · have both := sets.resolve_left fun named => here named.symm
      rw [setPair_of_ne here, setPair_of_ne here, if_pos both, if_pos both]
  obtain ⟨before, after, rfl⟩ := List.append_of_mem inPairs
  rw [List.foldl_append, List.foldl_append, List.foldl_cons,
    List.foldl_cons]
  exact foldl_setPair_congr (atPair _ _)

theorem foldl_setPair_of_not_touched {name : Attribute}
    (untouched : ¬Touched skinPairs name)
    (attributes : Attributes Drawable ColorStateList) :
    skinPairs.foldl (setPair colorDrawable skinResources) attributes name =
      attributes name := by
  induction skinPairs generalizing attributes with
  | nil => rfl
  | cons skinPair rest inductionHypothesis =>
      have further : ¬Touched rest name := by
        rintro ⟨other, inRest, sets⟩
        exact untouched ⟨other, List.mem_cons_of_mem _ inRest, sets⟩
      have different : name ≠ skinPair.attributeName := by
        rintro rfl
        exact untouched ⟨skinPair, List.mem_cons_self, Or.inl rfl⟩
      have notCleared : ¬(skinPair.attributeName.IsCompound ∧
          name.IsCompound) := fun both =>
        untouched ⟨skinPair, List.mem_cons_self, Or.inr both⟩
      rw [List.foldl_cons, inductionHypothesis further,
        setPair_of_ne different, if_neg notCleared]

theorem setOwn_congr {viewClass : ViewClass}
    {first second : Attributes Drawable ColorStateList} {name : Attribute}
    (same : first name = second name) :
    setOwn colorPrimary skinResources viewClass first name =
      setOwn colorPrimary skinResources viewClass second name := by
  rw [setOwn, setOwn]
  by_cases isAppBar : viewClass = .skinAppBarLayout
  · rw [if_pos isAppBar, if_pos isAppBar, Function.update_apply,
      Function.update_apply, same]
  · rwa [if_neg isAppBar, if_neg isAppBar]

theorem setOwn_over (viewClass : ViewClass)
    (before : SkinResources Drawable ColorStateList)
    (attributes : Attributes Drawable ColorStateList) :
    setOwn colorPrimary skinResources viewClass
        (setOwn colorPrimary before viewClass attributes) =
      setOwn colorPrimary skinResources viewClass attributes := by
  simp only [setOwn]
  by_cases isAppBar : viewClass = .skinAppBarLayout
  · rw [if_pos isAppBar, if_pos isAppBar, if_pos isAppBar,
      Function.update_idem]
  · rw [if_neg isAppBar, if_neg isAppBar, if_neg isAppBar]

/-- A skin applied over another leaves what it leaves alone. -/
theorem applySkin_over {viewClass : ViewClass}
    {before : SkinResources Drawable ColorStateList}
    {attributes left : Attributes Drawable ColorStateList}
    (fits : ∀ skinPair ∈ skinPairs, Fits viewClass skinPair.attributeName)
    (applied : applySkin colorDrawable colorPrimary before viewClass
      skinPairs attributes = .ok () left) :
    applySkin colorDrawable colorPrimary skinResources viewClass skinPairs
        left =
      applySkin colorDrawable colorPrimary skinResources viewClass skinPairs
        attributes := by
  rw [applySkin_of_fits fits] at applied
  cases applied
  rw [applySkin_of_fits fits, applySkin_of_fits fits]
  congr 1
  funext name
  by_cases touched : Touched skinPairs name
  · exact foldl_setPair_of_touched touched _ _
  · have kept : skinPairs.foldl (setPair colorDrawable before)
          (setOwn colorPrimary before viewClass attributes) name =
        setOwn colorPrimary before viewClass attributes name :=
      foldl_setPair_of_not_touched touched _
    rw [foldl_setPair_of_not_touched touched,
      foldl_setPair_of_not_touched touched, setOwn_congr kept, setOwn_over]

theorem fits_of_applySkin {viewClass : ViewClass}
    {attributes left : Attributes Drawable ColorStateList}
    (applied : applySkin colorDrawable colorPrimary skinResources viewClass
      skinPairs attributes = .ok () left) :
    ∀ skinPair ∈ skinPairs, Fits viewClass skinPair.attributeName := by
  intro skinPair inPairs
  by_contra misfits
  exact (applySkin_fails inPairs misfits attributes).ne_ok applied

end Over

/-! ## Recorded views -/

section Recorded

variable {device : Device Drawable}
variable {skinResources : SkinResources Drawable ColorStateList}
variable {skinView : SkinView Drawable ColorStateList}

/-- The pairs fit the view, and some skin was applied to what it was at
first. -/
structure SkinView.Recorded (device : Device Drawable)
    (skinView : SkinView Drawable ColorStateList) : Prop where
  fits : ∀ skinPair ∈ skinView.skinPairs,
    Fits skinView.view.viewClass skinPair.attributeName
  applied : ∃ before, Skin.applySkin device.colorDrawable
    device.colorPrimary before skinView.view.viewClass skinView.skinPairs
    skinView.view.attributes = .ok () skinView.attributes

/-- A view, unless it was collected, looks as when it is inflated with a
skin. -/
def SkinView.Shows (device : Device Drawable)
    (skinResources : SkinResources Drawable ColorStateList)
    (skinView : SkinView Drawable ColorStateList) : Prop :=
  skinView.isCollected = false →
    Skin.applySkin device.colorDrawable device.colorPrimary skinResources
      skinView.view.viewClass skinView.skinPairs skinView.view.attributes =
        .ok () skinView.attributes

/-- A recorded view takes any skin. -/
theorem SkinView.Recorded.applySkin_ok
    (recorded : skinView.Recorded device)
    (skinResources : SkinResources Drawable ColorStateList) :
    ∃ left, skinView.applySkin device skinResources = .ok left ∧
      left.Recorded device ∧ left.Shows device skinResources := by
  rw [SkinView.applySkin]
  cases collected : skinView.isCollected with
  | true =>
      refine ⟨skinView, rfl, recorded, ?_⟩
      intro alive
      rw [collected] at alive
      cases alive
  | false =>
      obtain ⟨before, applied⟩ := recorded.applied
      have overwritten := @applySkin_over _ _ _ _ skinResources _ _ _ _ _
        recorded.fits applied
      have returned := @applySkin_of_fits _ _ device.colorDrawable
        device.colorPrimary skinResources _ _ recorded.fits
        skinView.attributes
      simp only [returned]
      have fresh := overwritten.symm.trans returned
      exact ⟨_, rfl, ⟨recorded.fits, skinResources, fresh⟩, fun _ => fresh⟩

/-- The views of a factory all take a skin. -/
theorem mapM_applySkin_ok
    {mSkinViews : List (SkinView Drawable ColorStateList)}
    (recorded : ∀ skinView ∈ mSkinViews, skinView.Recorded device)
    (skinResources : SkinResources Drawable ColorStateList) :
    ∃ left, mSkinViews.mapM (SkinView.applySkin device skinResources) =
        .ok left ∧
      ∀ skinView ∈ left, skinView.Recorded device ∧
        skinView.Shows device skinResources := by
  induction mSkinViews with
  | nil =>
      refine ⟨[], rfl, ?_⟩
      intro skinView inNil
      cases inNil
  | cons skinView rest inductionHypothesis =>
      obtain ⟨atFirst, atRest⟩ := List.forall_mem_cons.mp recorded
      obtain ⟨first, returned, isFirst⟩ := atFirst.applySkin_ok skinResources
      obtain ⟨others, further, areOthers⟩ := inductionHypothesis atRest
      refine ⟨first :: others, ?_, List.forall_mem_cons.mpr
        ⟨isFirst, areOthers⟩⟩
      rw [List.mapM_cons, returned, further]
      rfl

end Recorded

end DripStone.Skin
