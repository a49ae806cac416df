import DripStone.Library.Mealy
import DripStone.Skin.SkinAttribute

/-!
# The attributes after `applySkin`

Every pair sets its own attribute, and one of a compound drawable clears the
other three.  So a list of pairs can only show all its resources if at most
one of them is a compound drawable, of a view that has no other.
-/

namespace DripStone.Skin

open DripStone.Library
open DripStone.Library.Action

section Applying

variable {Drawable ColorStateList : Type}
variable (colorDrawable : Int → Drawable) (colorPrimary : Int)

/-! ## The law and the condition -/

/-- What the resource of a pair is in a skin. -/
def resolve (skinResources : SkinResources Drawable ColorStateList)
    (skinPair : SkinPair) : Value Drawable ColorStateList :=
  match skinPair.attributeName with
  | .background | .src =>
      .drawable (drawableOf colorDrawable
        (skinResources.getBackground skinPair.resId))
  | .textColor => .colors (skinResources.getColorStateList skinPair.resId)
  | _ => .drawable (skinResources.getDrawable skinPair.resId)

/-- A view, with its attributes before the first skin is applied. -/
structure View (Drawable ColorStateList : Type) where
  viewClass : ViewClass
  attributes : Attributes Drawable ColorStateList

/-- A pair of a list is for an attribute. -/
def Listed (skinPairs : List SkinPair) (name : Attribute) : Prop :=
  ∃ skinPair ∈ skinPairs, skinPair.attributeName = name

/-- The attributes after some calls of `applySkin`. -/
def attributesAfter (view : View Drawable ColorStateList)
    (skinPairs : List SkinPair)
    (skins : List (SkinResources Drawable ColorStateList)) :
    Attributes Drawable ColorStateList :=
  skins.foldl (fun attributes skinResources =>
    (applySkin colorDrawable colorPrimary skinResources view.viewClass
      skinPairs).after attributes) view.attributes

/-- The call with one more skin returns; the listed attributes have the values
of their resources and the others have what they had at first. -/
structure Shows (view : View Drawable ColorStateList)
    (skinPairs : List SkinPair)
    (before : List (SkinResources Drawable ColorStateList))
    (skinResources : SkinResources Drawable ColorStateList)
    (left : Attributes Drawable ColorStateList) : Prop where
  returns : applySkin colorDrawable colorPrimary skinResources view.viewClass
      skinPairs (attributesAfter colorDrawable colorPrimary view skinPairs
        before) = .ok () left
  listed : ∀ skinPair ∈ skinPairs,
    left skinPair.attributeName = resolve colorDrawable skinResources skinPair
  unlisted : ∀ name, ¬Listed skinPairs name → left name = view.attributes name

/-- The view is cast to what the attribute needs. -/
def Fits (viewClass : ViewClass) : Attribute → Prop
  | .background => True
  | .src => viewClass = .imageView
  | _ => viewClass = .textView

/-- The pairs fit the view, a compound drawable is the only one, and a view
that sets its own background does so from a listed one or to what it was. -/
structure Independent (view : View Drawable ColorStateList)
    (skinPairs : List SkinPair)
    (skins : List (SkinResources Drawable ColorStateList)) : Prop where
  fits : ∀ skinPair ∈ skinPairs, Fits view.viewClass skinPair.attributeName
  alone : ∀ skinPair ∈ skinPairs, skinPair.attributeName.IsCompound →
    ∀ name : Attribute, name.IsCompound → name ≠ skinPair.attributeName →
      ¬Listed skinPairs name ∧ view.attributes name = .null
  own : view.viewClass = .skinAppBarLayout → ¬Listed skinPairs .background →
    ∀ skinResources ∈ skins, view.attributes .background =
      .drawable (skinResources.getDrawable colorPrimary)

/-! ## One pair -/

variable {colorDrawable colorPrimary}

/-- The attributes with one pair applied. -/
def setPair (colorDrawable : Int → Drawable)
    (skinResources : SkinResources Drawable ColorStateList)
    (attributes : Attributes Drawable ColorStateList) (skinPair : SkinPair) :
    Attributes Drawable ColorStateList := fun name =>
  if name = skinPair.attributeName then
    resolve colorDrawable skinResources skinPair
  else if skinPair.attributeName.IsCompound ∧ name.IsCompound then .null
  else attributes name

variable {skinResources : SkinResources Drawable ColorStateList}
variable {viewClass : ViewClass}

theorem applyPair_of_fits {skinPair : SkinPair}
    (fits : Fits viewClass skinPair.attributeName)
    (attributes : Attributes Drawable ColorStateList) :
    applyPair colorDrawable skinResources viewClass skinPair attributes =
      .ok () (setPair colorDrawable skinResources attributes skinPair) := by
  have same : ∀ changed : Attributes Drawable ColorStateList,
      (∀ name, changed name =
        setPair colorDrawable skinResources attributes skinPair name) →
      applyPair colorDrawable skinResources viewClass skinPair attributes =
        .ok () changed →
      applyPair colorDrawable skinResources viewClass skinPair attributes =
        .ok () (setPair colorDrawable skinResources attributes skinPair) := by
    intro changed pointwise applied
    rw [applied, funext pointwise]
  obtain ⟨attributeName, resId⟩ := skinPair
  cases attributeName with
  | background =>
      refine same _ ?_ rfl
      intro name
      cases name <;> rfl
  | src =>
      have isImage : viewClass = .imageView := fits
      subst isImage
      refine same _ ?_ rfl
      intro name
      cases name <;> rfl
  | textColor | drawableLeft | drawableTop | drawableRight | drawableBottom =>
      have isText : viewClass = .textView := fits
      subst isText
      refine same _ ?_ rfl
      intro name
      cases name <;> rfl

theorem applyPair_of_not_fits {skinPair : SkinPair}
    (misfits : ¬Fits viewClass skinPair.attributeName)
    (attributes : Attributes Drawable ColorStateList) :
    applyPair colorDrawable skinResources viewClass skinPair attributes =
      .error .classCastException attributes := by
  obtain ⟨attributeName, resId⟩ := skinPair
  cases attributeName with
  | background => exact absurd trivial misfits
  | src =>
      cases viewClass with
      | imageView => exact absurd rfl misfits
      | _ => rfl
  | textColor | drawableLeft | drawableTop | drawableRight | drawableBottom =>
      cases viewClass with
      | textView => exact absurd rfl misfits
      | _ => rfl

/-! ## All pairs -/

/-- The attributes after the view's own `applySkin`. -/
def setOwn (colorPrimary : Int)
    (skinResources : SkinResources Drawable ColorStateList)
    (viewClass : ViewClass)
    (attributes : Attributes Drawable ColorStateList) :
    Attributes Drawable ColorStateList :=
  if viewClass = .skinAppBarLayout then
    Function.update attributes .background
      (.drawable (skinResources.getDrawable colorPrimary))
  else attributes

theorem applySkinSupport_eq
    (attributes : Attributes Drawable ColorStateList) :
    applySkinSupport colorPrimary skinResources viewClass attributes =
      .ok () (setOwn colorPrimary skinResources viewClass attributes) := by
  cases viewClass <;> rfl

theorem applySkin_of_fits {skinPairs : List SkinPair}
    (fits : ∀ skinPair ∈ skinPairs, Fits viewClass skinPair.attributeName)
    (attributes : Attributes Drawable ColorStateList) :
    applySkin colorDrawable colorPrimary skinResources viewClass skinPairs
        attributes =
      .ok () (skinPairs.foldl (setPair colorDrawable skinResources)
        (setOwn colorPrimary skinResources viewClass attributes)) := by
  rw [applySkin, bind_of_ok (applySkinSupport_eq attributes)]
  generalize setOwn colorPrimary skinResources viewClass attributes = current
  induction skinPairs generalizing current with
  | nil => rfl
  | cons skinPair rest inductionHypothesis =>
      obtain ⟨atFirst, atRest⟩ := List.forall_mem_cons.mp fits
      rw [List.forM_cons, bind_of_ok (applyPair_of_fits atFirst current)]
      exact inductionHypothesis atRest _

theorem applySkin_fails {skinPairs : List SkinPair} {skinPair : SkinPair}
    (inPairs : skinPair ∈ skinPairs)
    (misfits : ¬Fits viewClass skinPair.attributeName)
    (attributes : Attributes Drawable ColorStateList) :
    Fails (applySkin colorDrawable colorPrimary skinResources viewClass
      skinPairs) attributes := by
  obtain ⟨failure, left, failed⟩ := fails_forM inPairs
    (fun state => ⟨_, _, @applyPair_of_not_fits _ _ colorDrawable
      skinResources _ _ misfits state⟩)
    (setOwn colorPrimary skinResources viewClass attributes)
  exact ⟨failure, left,
    (bind_of_ok (applySkinSupport_eq attributes)).trans failed⟩

section Fold

variable {skinPairs : List SkinPair}
variable {attributes : Attributes Drawable ColorStateList}

theorem setPair_self (skinPair : SkinPair) :
    setPair colorDrawable skinResources attributes skinPair
        skinPair.attributeName =
      resolve colorDrawable skinResources skinPair :=
  if_pos rfl

theorem setPair_of_ne {skinPair : SkinPair} {name : Attribute}
    (different : name ≠ skinPair.attributeName) :
    setPair colorDrawable skinResources attributes skinPair name =
      if skinPair.attributeName.IsCompound ∧ name.IsCompound then .null
      else attributes name :=
  if_neg different

/-- Pairs of which a compound drawable is the only one leave all listed
attributes resolved and the others alone. -/
theorem foldl_setPair_of_alone
    (distinct : (skinPairs.map SkinPair.attributeName).Nodup)
    (alone : ∀ skinPair ∈ skinPairs, skinPair.attributeName.IsCompound →
      ∀ name : Attribute, name.IsCompound → name ≠ skinPair.attributeName →
        ¬Listed skinPairs name ∧ attributes name = .null) :
    let left :=
      skinPairs.foldl (setPair colorDrawable skinResources) attributes
    (∀ skinPair ∈ skinPairs, left skinPair.attributeName =
        resolve colorDrawable skinResources skinPair) ∧
      ∀ name, ¬Listed skinPairs name → left name = attributes name := by
  induction skinPairs using List.reverseRecOn with
  | nil =>
      refine ⟨fun skinPair inNil => absurd inNil List.not_mem_nil, ?_⟩
      intro name _
      rfl
  | append_singleton initial last inductionHypothesis =>
      have listedLast : Listed (initial ++ [last]) last.attributeName :=
        ⟨last, by simp, rfl⟩
      have listedInitial : ∀ name, Listed initial name →
          Listed (initial ++ [last]) name := by
        rintro name ⟨skinPair, inInitial, named⟩
        exact ⟨skinPair, List.mem_append_left _ inInitial, named⟩
      rw [List.map_append, List.nodup_append] at distinct
      have fresh : ∀ skinPair ∈ initial,
          skinPair.attributeName ≠ last.attributeName := by
        intro skinPair inInitial
        exact distinct.2.2 _ (List.mem_map_of_mem inInitial) _ (by simp)
      obtain ⟨listed, unlisted⟩ := inductionHypothesis distinct.1 (by
        intro skinPair inInitial compound name isCompound different
        obtain ⟨notListed, isNull⟩ := alone skinPair
          (List.mem_append_left _ inInitial) compound name isCompound
          different
        exact ⟨fun inside => notListed (listedInitial name inside), isNull⟩)
      simp only [List.foldl_concat]
      constructor
      · intro skinPair inPairs
        rcases List.mem_append.mp inPairs with inInitial | isLast
        · rw [setPair_of_ne (fresh skinPair inInitial), if_neg]
          · exact listed skinPair inInitial
          · intro both
            have apart := alone last (by simp) both.1 skinPair.attributeName
              both.2 (fresh skinPair inInitial)
            exact apart.1 ⟨skinPair, inPairs, rfl⟩
        · rw [List.mem_singleton.mp isLast]
          exact setPair_self last
      · intro name notListed
        have different : name ≠ last.attributeName := by
          rintro rfl
          exact notListed listedLast
        have before := unlisted name fun inside =>
          notListed (listedInitial name inside)
        rw [setPair_of_ne different]
        split
        · next both =>
            exact (alone last (by simp) both.1 name both.2 different).2.symm
        · exact before

/-- The last compound drawable has cleared the others. -/
theorem exists_last_compound {skinPair : SkinPair}
    (inPairs : skinPair ∈ skinPairs)
    (compound : skinPair.attributeName.IsCompound) :
    ∃ last ∈ skinPairs, ∀ name : Attribute, name.IsCompound →
      name ≠ last.attributeName →
        skinPairs.foldl (setPair colorDrawable skinResources) attributes
          name = .null := by
  induction skinPairs using List.reverseRecOn with
  | nil => exact absurd inPairs List.not_mem_nil
  | append_singleton initial last inductionHypothesis =>
      simp only [List.foldl_concat]
      by_cases lastCompound : last.attributeName.IsCompound
      · refine ⟨last, by simp, fun name isCompound different => ?_⟩
        rw [setPair_of_ne different, if_pos ⟨lastCompound, isCompound⟩]
      · have inInitial : skinPair ∈ initial := by
          rcases List.mem_append.mp inPairs with earlier | isLast
          · exact earlier
          · rw [List.mem_singleton.mp isLast] at compound
            exact absurd compound lastCompound
        obtain ⟨other, inOther, cleared⟩ := inductionHypothesis inInitial
        refine ⟨other, List.mem_append_left _ inOther,
          fun name isCompound different => ?_⟩
        have notLast : name ≠ last.attributeName := by
          rintro rfl
          exact lastCompound isCompound
        rw [setPair_of_ne notLast, if_neg fun both => lastCompound both.1]
        exact cleared name isCompound different

theorem resolve_ne_null (skinPair : SkinPair) :
    resolve colorDrawable skinResources skinPair ≠ .null := by
  obtain ⟨attributeName, resId⟩ := skinPair
  cases attributeName <;> simp [resolve]

/-- What is neither listed nor a compound drawable is left alone. -/
theorem foldl_setPair_of_plain {name : Attribute}
    (notListed : ¬Listed skinPairs name) (plain : ¬name.IsCompound) :
    skinPairs.foldl (setPair colorDrawable skinResources) attributes name =
      attributes name := by
  induction skinPairs generalizing attributes with
  | nil => rfl
  | cons skinPair rest inductionHypothesis =>
      have different : name ≠ skinPair.attributeName := by
        rintro rfl
        exact notListed ⟨skinPair, List.mem_cons_self, rfl⟩
      have further : ¬Listed rest name := by
        rintro ⟨other, inRest, named⟩
        exact notListed ⟨other, List.mem_cons_of_mem _ inRest, named⟩
      rw [List.foldl_cons, inductionHypothesis further,
        setPair_of_ne different, if_neg fun both => plain both.2]

/-- If all pairs are shown a compound drawable is the only one. -/
theorem alone_of_shown {left : Attributes Drawable ColorStateList}
    (isLeft : left =
      skinPairs.foldl (setPair colorDrawable skinResources) attributes)
    (listed : ∀ skinPair ∈ skinPairs, left skinPair.attributeName =
      resolve colorDrawable skinResources skinPair)
    {skinPair : SkinPair} (inPairs : skinPair ∈ skinPairs)
    (compound : skinPair.attributeName.IsCompound) {name : Attribute}
    (isCompound : name.IsCompound)
    (different : name ≠ skinPair.attributeName) :
    ¬Listed skinPairs name ∧ left name = .null := by
  obtain ⟨last, inLast, cleared⟩ :=
    @exists_last_compound _ _ colorDrawable skinResources _ attributes _
      inPairs compound
  rw [← isLeft] at cleared
  have isLast : ∀ other ∈ skinPairs, other.attributeName.IsCompound →
      other.attributeName = last.attributeName := by
    intro other inOther otherCompound
    by_contra apart
    have shown := listed other inOther
    rw [cleared _ otherCompound apart] at shown
    exact resolve_ne_null other shown.symm
  have notListed : ¬Listed skinPairs name := by
    rintro ⟨other, inOther, rfl⟩
    exact different ((isLast other inOther isCompound).trans
      (isLast skinPair inPairs compound).symm)
  refine ⟨notListed, cleared name isCompound ?_⟩
  rintro rfl
  exact notListed ⟨last, inLast, rfl⟩

end Fold

/-! ## The calls -/

section Calls

variable {view : View Drawable ColorStateList} {skinPairs : List SkinPair}
variable {before skins : List (SkinResources Drawable ColorStateList)}
variable {left : Attributes Drawable ColorStateList}

theorem attributesAfter_concat :
    attributesAfter colorDrawable colorPrimary view skinPairs
        (before ++ [skinResources]) =
      (applySkin colorDrawable colorPrimary skinResources view.viewClass
        skinPairs).after (attributesAfter colorDrawable colorPrimary view
          skinPairs before) := by
  simp only [attributesAfter, List.foldl_concat]

theorem setOwn_of_ne {attributes : Attributes Drawable ColorStateList}
    {name : Attribute} (different : name ≠ .background) :
    setOwn colorPrimary skinResources viewClass attributes name =
      attributes name := by
  rw [setOwn]
  split
  · exact Function.update_of_ne different _ _
  · rfl

/-- Step lemma: one more skin is shown. -/
theorem Independent.shows
    (independent : Independent colorPrimary view skinPairs skins)
    (distinct : (skinPairs.map SkinPair.attributeName).Nodup)
    (inSkins : skinResources ∈ skins)
    (untouched : ∀ name, ¬Listed skinPairs name →
      attributesAfter colorDrawable colorPrimary view skinPairs before name =
        view.attributes name) :
    ∃ left, Shows colorDrawable colorPrimary view skinPairs before
      skinResources left := by
  have returned := @applySkin_of_fits _ _ colorDrawable colorPrimary
    skinResources _ _ independent.fits
    (attributesAfter colorDrawable colorPrimary view skinPairs before)
  have ownUntouched : ∀ name, ¬Listed skinPairs name →
      setOwn colorPrimary skinResources view.viewClass
          (attributesAfter colorDrawable colorPrimary view skinPairs before)
          name =
        view.attributes name := by
    intro name notListed
    by_cases isBackground : name = .background
    · subst isBackground
      rw [setOwn]
      split
      · next isAppBar =>
          rw [Function.update_self]
          exact (independent.own isAppBar notListed skinResources
            inSkins).symm
      · exact untouched _ notListed
    · rw [setOwn_of_ne isBackground]
      exact untouched name notListed
  obtain ⟨listed, unlisted⟩ := @foldl_setPair_of_alone _ _ colorDrawable
    skinResources skinPairs (setOwn colorPrimary skinResources view.viewClass
      (attributesAfter colorDrawable colorPrimary view skinPairs before))
    distinct (by
      intro skinPair inPairs compound name isCompound different
      obtain ⟨notListed, isNull⟩ := independent.alone skinPair inPairs
        compound name isCompound different
      exact ⟨notListed, (ownUntouched name notListed).trans isNull⟩)
  exact ⟨_, returned, listed, fun name notListed =>
    (unlisted name notListed).trans (ownUntouched name notListed)⟩

theorem Shows.untouched
    (shows_ : Shows colorDrawable colorPrimary view skinPairs before
      skinResources left) {name : Attribute}
    (notListed : ¬Listed skinPairs name) :
    attributesAfter colorDrawable colorPrimary view skinPairs
        (before ++ [skinResources]) name =
      view.attributes name := by
  rw [attributesAfter_concat, after_of_ok shows_.returns]
  exact shows_.unlisted name notListed

/-- Run lemma: all skins are shown. -/
theorem Independent.run
    (independent : Independent colorPrimary view skinPairs skins)
    (distinct : (skinPairs.map SkinPair.attributeName).Nodup) :
    AtEvery (fun before skinResources => ∃ left,
      Shows colorDrawable colorPrimary view skinPairs before skinResources
        left) skins := by
  have further : ∀ initial suffix, skins = initial ++ suffix →
      AtEvery (fun before skinResources => ∃ left,
        Shows colorDrawable colorPrimary view skinPairs before skinResources
          left) initial ∧
      ∀ name, ¬Listed skinPairs name →
        attributesAfter colorDrawable colorPrimary view skinPairs initial
          name = view.attributes name := by
    intro initial
    induction initial using List.reverseRecOn with
    | nil => exact fun _ _ => ⟨atEvery_nil _, fun _ _ => rfl⟩
    | append_singleton initial last inductionHypothesis =>
        intro suffix split
        obtain ⟨every, untouched⟩ :=
          inductionHypothesis (last :: suffix) (by simp [split])
        obtain ⟨left, shows_⟩ := independent.shows distinct
          (show last ∈ skins by simp [split]) untouched
        exact ⟨atEvery_concat.mpr ⟨every, left, shows_⟩,
          fun name notListed => shows_.untouched notListed⟩
  exact (further skins [] (by simp)).1

/-- What the skins show says about the pairs. -/
theorem Independent.of_shows (nonempty : skins ≠ [])
    (every : AtEvery (fun before skinResources => ∃ left,
      Shows colorDrawable colorPrimary view skinPairs before skinResources
        left) skins) :
    Independent colorPrimary view skinPairs skins := by
  have fits : ∀ skinPair ∈ skinPairs,
      Fits view.viewClass skinPair.attributeName := by
    intro skinPair inPairs
    by_contra misfits
    cases skins with
    | nil => exact nonempty rfl
    | cons first rest =>
        obtain ⟨left, shows_⟩ := every [] first rest rfl
        exact (applySkin_fails inPairs misfits _).ne_ok shows_.returns
  have isFold : ∀ {before skinResources left},
      Shows colorDrawable colorPrimary view skinPairs before skinResources
          left →
        left = skinPairs.foldl (setPair colorDrawable skinResources)
          (setOwn colorPrimary skinResources view.viewClass
            (attributesAfter colorDrawable colorPrimary view skinPairs
              before)) := by
    intro before skinResources left shows_
    have returned := shows_.returns.symm.trans (applySkin_of_fits fits _)
    cases returned
    rfl
  refine ⟨fits, ?_, ?_⟩
  · intro skinPair inPairs compound name isCompound different
    cases skins with
    | nil => exact absurd rfl nonempty
    | cons first rest =>
        obtain ⟨left, shows_⟩ := every [] first rest rfl
        obtain ⟨notListed, isNull⟩ := alone_of_shown (isFold shows_)
          shows_.listed inPairs compound isCompound different
        exact ⟨notListed,
          (shows_.unlisted name notListed).symm.trans isNull⟩
  · intro isAppBar notListed skinResources inSkins
    obtain ⟨earlier, later, split⟩ := List.append_of_mem inSkins
    obtain ⟨left, shows_⟩ := every earlier skinResources later split
    have shown := shows_.unlisted .background notListed
    rw [isFold shows_, foldl_setPair_of_plain notListed id, setOwn,
      if_pos isAppBar, Function.update_self] at shown
    exact shown.symm

end Calls

end Applying

/-- All skins are shown, one after the other, by the listed attributes and by
no other, if and only if the pairs fit the view, a compound drawable is the
only one, and the view itself changes no other attribute. -/
theorem shows_iff_independent {Drawable ColorStateList : Type}
    (colorDrawable : Int → Drawable) (colorPrimary : Int)
    (view : View Drawable ColorStateList) (skinPairs : List SkinPair)
    (distinct : (skinPairs.map SkinPair.attributeName).Nodup)
    (skins : List (SkinResources Drawable ColorStateList))
    (nonempty : skins ≠ []) :
    AtEvery (fun before skinResources => ∃ left,
        Shows colorDrawable colorPrimary view skinPairs before skinResources
          left) skins ↔
      Independent colorPrimary view skinPairs skins :=
  ⟨Independent.of_shows nonempty, fun independent =>
    independent.run distinct⟩

/-- Resources whose drawables and colors are their numbers. -/
def numbered : Resources Int Int where
  getColor := id
  getColorStateList := id
  getDrawable := id
  getResourceEntryName := fun _ => "name".toList
  getResourceTypeName := fun _ => "drawable".toList
  getIdentifier := fun _ _ _ => 7

def plainText : View Int Int := ⟨.textView, fun _ => .null⟩

theorem plainText_shows :
    AtEvery (fun before skinResources => ∃ left,
        Shows id 1 plainText [⟨.textColor, 2⟩, ⟨.drawableLeft, 3⟩] before
          skinResources left)
        [⟨numbered, none⟩, ⟨numbered, some (numbered, "skin".toList)⟩] ↔
      Independent 1 plainText [⟨.textColor, 2⟩, ⟨.drawableLeft, 3⟩]
        [⟨numbered, none⟩, ⟨numbered, some (numbered, "skin".toList)⟩] :=
  shows_iff_independent id 1 plainText _ (by decide) _ (by simp)

/-- Of two compound drawables only the last is shown. -/
theorem plainText_loses_drawable :
    ¬AtEvery (fun before skinResources => ∃ left,
      Shows id 1 plainText [⟨.drawableLeft, 2⟩, ⟨.drawableRight, 3⟩] before
        skinResources left) [⟨numbered, none⟩] := by
  intro every
  have independent := Independent.of_shows (by simp) every
  have alone := independent.alone ⟨.drawableLeft, 2⟩ (by simp) trivial
    .drawableRight trivial (by decide)
  exact alone.1 ⟨⟨.drawableRight, 3⟩, by simp, rfl⟩

end DripStone.Skin
