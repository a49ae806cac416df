import DripStone.Banner.Pages

/-!
# Banners that are laid out

When the padded list, the dots and the indices of a page are right, and what
a banner that was laid out with its dot keeps to.
-/

namespace DripStone.Banner

open DripStone.Library

variable {T : Type}

/-! ## The law -/

/-- What a page is made from is the item that it shows, and its index. -/
structure Page.Shows (made : Page T) (list : List T) (index : Nat) :
    Prop where
  data : list[index]? = some made.data
  position : made.position = index
  pageClick : made.pageClick = index

/-- The list of a banner that was laid out, its dots, and a page, as long as it
is held. -/
structure InStep (page : Nat) (banner : MultiBanner T) : Prop where
  padded : banner.adapter ≠ none → banner.mListAdd = looped banner.mList
  dot : banner.adapter ≠ none → 2 ≤ banner.mList.length →
    ∀ index : Nat, banner.mDotList[index]? = some true ↔
      index = shownAt banner.mList.length banner.mViewPager.mCurItem
  bound : ∀ made, (page, made) ∈ banner.mViewPager.mItems →
    page < banner.mListAdd.length →
      made.Shows banner.mList (shownAt banner.mList.length page)

/-- There was no exception, and the banner is in step. -/
def Right (page : Nat) : Except Failure (MultiBanner T) → Prop
  | .error _ => False
  | .ok banner => InStep page banner

/-- The page is not the first one, and not the last one of several. -/
structure Inner (count page : Nat) : Prop where
  notFirst : count ≠ 0 → page ≠ 0
  notLast : 2 ≤ count → page ≠ count + 1

/-- Pages are given to a banner that was not laid out; a banner with one item
is laid out once, and none of its pages is selected anew; and new items come
to a banner that was laid out with a creator of holders, so many that one has
the dot that is checked, or a single one while no page behind the second is
selected. -/
def Fits : Except Failure (MultiBanner T) → Event T → Prop
  | .error _, _ => True
  | .ok banner, .setPages list holderCreator =>
      list ≠ [] → holderCreator = true → banner.adapter = none
  | .ok banner, .layout => banner.mList.length = 1 → banner.adapter = none
  | .ok banner, .select position =>
      position < banner.mListAdd.length →
        2 ≤ banner.mList.length ∨ position = banner.mViewPager.mCurItem
  | .ok banner, .reload list populates =>
      list ≠ [] → (populates = true → banner.mViewPager.mCurItem = 0 ∨
          2 ≤ list.length) →
        (∃ adapter, banner.adapter = some adapter ∧
          adapter.holderCreator = true) ∧
          (2 ≤ list.length → banner.dotPosition < list.length) ∧
          (list.length = 1 → banner.mViewPager.mCurItem ≤ 1)
  | .ok _, .instantiate _ => True
  | .ok _, .destroy _ => True

instance Fits.decidable (state : Except Failure (MultiBanner T)) :
    ∀ event : Event T, Decidable (Fits state event) :=
  match state with
  | .error _ => fun _ => inferInstanceAs (Decidable True)
  | .ok banner => fun event =>
      match event with
      | .setPages _ _ => inferInstanceAs (Decidable (_ → _ → _))
      | .layout => inferInstanceAs (Decidable (_ → _))
      | .select _ => inferInstanceAs (Decidable (_ → _ ∨ _))
      | .reload _ _ =>
          have : Decidable (∃ adapter, banner.adapter = some adapter ∧
              adapter.holderCreator = true) :=
            decidable_of_iff (banner.adapter.any (·.holderCreator) = true)
              (Option.any_eq_true _ _)
          inferInstanceAs (Decidable (_ → _ → _))
      | .instantiate _ => inferInstanceAs (Decidable True)
      | .destroy _ => inferInstanceAs (Decidable True)

/-- When the page is instantiated it is none of those at the ends; and when
new items come and it is held, it has the item that is to be shown in its
place. -/
def Keeps (page : Nat) : Except Failure (MultiBanner T) → Event T → Prop
  | .ok banner, .reload list populates =>
      list ≠ [] → (populates = true → banner.mViewPager.mCurItem = 0 ∨
          2 ≤ list.length) →
        ∀ made, (page, made) ∈ banner.mViewPager.mItems →
          page < (looped list).length → list[page - 1]? = some made.data
  | .ok banner, .instantiate position =>
      position = page → banner.adapter ≠ none →
        page < banner.mListAdd.length →
        page ∉ banner.mViewPager.mItems.map Prod.fst →
          Inner banner.mList.length page
  | _, _ => True

structure Proper (page : Nat) (state : Except Failure (MultiBanner T))
    (event : Event T) : Prop where
  fits : Fits state event
  keeps : Keeps page state event

/-! ## Several items -/

/-- A banner with several items and an adapter for them. -/
structure Prepared (banner : MultiBanner T) (adapter : MultiPagerAdapter) :
    Prop where
  several : 2 ≤ banner.mList.length
  loops : banner.isCanLoop = true
  created : banner.holderCreator = true
  isAdapter : banner.adapter = some adapter
  adapterLoops : adapter.isCanLoop = true
  adapterCreated : adapter.holderCreator = true
  padded : banner.mListAdd = looped banner.mList
  dotted : ∃ dot, banner.Dotted dot

/-- Where no listener has moved the dot it is the first one, and also where the
first item is shown. -/
def AtFirst (banner : MultiBanner T) : Prop :=
  banner.mViewPager.mCurItem = 1 ∨
    banner.mViewPager.mOnPageChangeListeners = 0 → banner.dotPosition = 0

section Selection

variable {banner next : MultiBanner T} {adapter : MultiPagerAdapter}
  {target : Nat}

theorem Prepared.length (prepared : Prepared banner adapter) :
    banner.mListAdd.length = banner.mList.length + 2 := by
  rw [prepared.padded, length_looped, if_neg (not_lt.mpr prepared.several)]

/-- A banner behind the selection of a page. -/
structure Selected (banner next : MultiBanner T)
    (adapter : MultiPagerAdapter) (target : Nat) : Prop where
  prepared : Prepared next adapter
  atFirst : AtFirst next
  sameList : next.mList = banner.mList
  sameListeners : next.mViewPager.mOnPageChangeListeners =
    banner.mViewPager.mOnPageChangeListeners
  sameItems : next.mViewPager.mItems = banner.mViewPager.mItems
  isTarget : next.mViewPager.mCurItem = target
  moved : banner.mViewPager.mOnPageChangeListeners ≠ 0 →
    banner.mViewPager.mCurItem ≠ target →
      next.dotPosition = shownAt banner.mList.length target

theorem Prepared.turned (prepared : Prepared banner adapter)
    (target : Nat) : Prepared (banner.turned target) adapter := by
  obtain ⟨dot, dotted⟩ := prepared.dotted
  exact ⟨prepared.several, prepared.loops, prepared.created,
    prepared.isAdapter, prepared.adapterLoops, prepared.adapterCreated,
    prepared.padded, dot, dotted.isDot, dotted.isPrevious, dotted.isList,
    dotted.inside⟩

theorem Prepared.showing (prepared : Prepared banner adapter) {dot : Nat}
    (inside : dot < banner.mList.length) (current : Int) :
    Prepared (banner.showing current dot) adapter :=
  ⟨prepared.several, prepared.loops, prepared.created, prepared.isAdapter,
    prepared.adapterLoops, prepared.adapterCreated, prepared.padded,
    dot, rfl, rfl, rfl, inside⟩

/-- Step lemma: a page of several is selected. -/
theorem Prepared.setCurrentItemInternal (prepared : Prepared banner adapter)
    {item : Int}
    (atFirst : AtFirst banner)
    (isTarget : (min item (banner.mListAdd.length - 1)).toNat = target) :
    ∃ next, banner.setCurrentItemInternal adapter item = .ok next ∧
      Selected banner next adapter target := by
  have isLength := prepared.length
  have several := prepared.several
  have isPage : target < banner.mListAdd.length := by omega
  obtain ⟨made, isMade, _⟩ := getView_eq_ok prepared.adapterLoops
    prepared.adapterCreated isPage
  obtain ⟨dot, dotted⟩ := prepared.dotted
  have inside := shownAt_lt (Nat.zero_lt_of_lt several) target
  rw [MultiBanner.setCurrentItemInternal, isTarget, isMade]
  by_cases isThere : target = banner.mViewPager.mCurItem
  · refine ⟨banner, ?_, prepared, atFirst, rfl, rfl, rfl, isThere.symm,
      fun _ another => absurd isThere.symm another⟩
    simp only [bind, Except.bind, isThere, if_true]
    rfl
  · simp only [bind, Except.bind, if_neg isThere]
    by_cases unlistened : banner.mViewPager.mOnPageChangeListeners = 0
    · have unlistenedStill :
          (banner.turned target).mViewPager.mOnPageChangeListeners = 0 :=
        unlistened
      exact ⟨banner.turned target,
        MultiBanner.dispatchOnPageSelected_of_zero unlistenedStill _,
        prepared.turned target, fun _ => atFirst (Or.inr unlistened), rfl,
        rfl, rfl, rfl, fun listened => absurd unlistened listened⟩
    · have turnedDotted : (banner.turned target).Dotted dot :=
        ⟨dotted.isDot, dotted.isPrevious, dotted.isList, dotted.inside⟩
      refine ⟨_, MultiBanner.dispatchOnPageSelected_eq prepared.loops
        turnedDotted (isLength ▸ isPage) unlistened,
        (prepared.turned target).showing inside _, fun isFirst => ?_, rfl,
        rfl, rfl, rfl, fun _ _ => rfl⟩
      have isOne : target = 1 := isFirst.resolve_right unlistened
      show ((shownAt banner.mList.length target : Nat) : Int) = 0
      rw [isOne, shownAt_succ (Nat.zero_lt_of_lt several), Nat.cast_zero]

/-- Selecting a page of several, which may be the one that is selected. -/
theorem Prepared.setCurrentItem (prepared : Prepared banner adapter)
    (atFirst : AtFirst banner) (isPage : target < banner.mList.length + 2) :
    ∃ next, banner.setCurrentItem target = .ok next ∧
      Selected banner next adapter target := by
  have isLength := prepared.length
  have nonempty : ¬banner.mListAdd.isEmpty = true := by
    intro isEmpty
    rw [List.isEmpty_iff.mp isEmpty] at isLength
    cases isLength
  rw [MultiBanner.setCurrentItem, prepared.isAdapter]
  by_cases isThere : target = banner.mViewPager.mCurItem
  · refine ⟨banner, if_pos (Or.inr (congrArg _ isThere)), prepared, atFirst,
      rfl, rfl, rfl, isThere.symm, fun _ another => absurd isThere.symm another⟩
  · have moves : ¬(banner.mListAdd.isEmpty = true ∨
        (target : Int) = banner.mViewPager.mCurItem) := by
      rw [not_or, Int.natCast_inj]
      exact ⟨nonempty, isThere⟩
    simp only [if_neg moves]
    exact prepared.setCurrentItemInternal atFirst (by omega)

end Selection

/-! ## What each step keeps -/

/-- A banner that was laid out. -/
structure Laid (banner : MultiBanner T) (adapter : MultiPagerAdapter) :
    Prop where
  loops : adapter.isCanLoop = true
  created : banner.mList ≠ [] → adapter.holderCreator = true
  listened : banner.mViewPager.mOnPageChangeListeners ≠ 0
  padded : banner.mListAdd = looped banner.mList
  several : 2 ≤ banner.mList.length →
    banner.Dotted
      (shownAt banner.mList.length banner.mViewPager.mCurItem)
  single : banner.mList.length = 1 →
    banner.mDotList = [] ∧ banner.mViewPager.mCurItem ≤ 1
  empty : banner.mList.length = 0 → banner.mViewPager.mCurItem = 0
  atFirst : banner.mViewPager.mCurItem = 1 → banner.dotPosition = 0
  creator : adapter.holderCreator = true → banner.holderCreator = true

/-- The invariant of all runs without an exception. -/
structure Steady (banner : MultiBanner T) : Prop where
  loops : banner.isCanLoop = true
  created : banner.mList ≠ [] → banner.holderCreator = true
  dot : ∃ dot : Nat, banner.dotPosition = dot ∧ banner.prePosition = dot
  unlaid : banner.adapter = none →
    banner.mListAdd = [] ∧ banner.dotPosition = 0
  laid : ∀ adapter, banner.adapter = some adapter → Laid banner adapter

/-- What a page is made from is right when both indices are. -/
theorem Laid.shows_iff {banner : MultiBanner T} {adapter : MultiPagerAdapter}
    {page : Nat} (laid : Laid banner adapter) (some : banner.mList ≠ [])
    (isPage : page < banner.mListAdd.length) :
    (∃ made, adapter.getView banner.mListAdd page = .ok made ∧
        made.Shows banner.mList (shownAt banner.mList.length page)) ↔
      (if page = 0 then (banner.mListAdd.length : Int) - 1
        else if page = banner.mListAdd.length - 1 then 0 else page - 1) =
          shownAt banner.mList.length page ∧
        (page : Int) - 1 = shownAt banner.mList.length page := by
  obtain ⟨made, isMade, isData, isPosition, isClick⟩ :=
    getView_eq_ok laid.loops (laid.created some) isPage
  rw [laid.padded] at isPage
  rw [← isPosition, ← isClick]
  constructor
  · intro ⟨other, isOther, shows_⟩
    rw [isMade] at isOther
    rw [Except.ok.inj isOther]
    exact ⟨shows_.position, shows_.pageClick⟩
  · intro ⟨position, click⟩
    refine ⟨made, isMade, ?_, position, click⟩
    rw [← getElem?_looped isPage, ← laid.padded]
    exact isData

/-- What a page of a banner that was laid out is made from is right inside of
the ends only. -/
theorem Laid.shows_iff_inner {banner : MultiBanner T}
    {adapter : MultiPagerAdapter} (laid : Laid banner adapter) {page : Nat}
    (isPage : page < banner.mListAdd.length) :
    (∃ made, adapter.getView banner.mListAdd page = .ok made ∧
        made.Shows banner.mList (shownAt banner.mList.length page)) ↔
      Inner banner.mList.length page := by
  have count : banner.mListAdd.length =
      if banner.mList.length < 2 then banner.mList.length
      else banner.mList.length + 2 := by
    rw [laid.padded, length_looped]
  have notEmpty : banner.mList ≠ [] := by
    intro isEmpty
    rw [laid.padded, isEmpty] at isPage
    cases isPage
  have some := List.length_pos_iff.mpr notEmpty
  rw [laid.shows_iff notEmpty isPage]
  constructor
  · rintro ⟨_, click⟩
    refine ⟨fun _ isFirst => ?_, fun _ isLast => ?_⟩
    · omega
    · rw [isLast, shownAt_end some] at click
      omega
  · intro inner
    have notFirst := inner.notFirst some.ne'
    rw [if_neg notFirst]
    rw [count] at isPage
    split at isPage
    · omega
    · next several =>
        have notLast := inner.notLast (not_lt.mp several)
        obtain ⟨index, isNext⟩ := Nat.exists_eq_succ_of_ne_zero notFirst
        rw [count, if_neg several, if_neg (by omega), isNext,
          Nat.succ_eq_add_one, shownAt_succ (by omega)]
        exact ⟨by omega, by omega⟩

/-- What is known of a page that is held: it keeps its indices, and as long as
there is such a page it has its item. -/
structure HeldPage (page : Nat) (banner : MultiBanner T) (made : Page T) :
    Prop where
  laid : banner.adapter ≠ none
  notFirst : page ≠ 0
  position : made.position = page - 1
  pageClick : made.pageClick = page - 1
  data : page < banner.mListAdd.length →
    banner.mList[page - 1]? = some made.data

def Held (page : Nat) (banner : MultiBanner T) : Prop :=
  ∀ made, (page, made) ∈ banner.mViewPager.mItems → HeldPage page banner made

/-- A page that is held shows the item that is in its place. -/
theorem HeldPage.shows_iff {page : Nat} {banner : MultiBanner T}
    {made : Page T} (notFirst : page ≠ 0) (position : made.position = page - 1)
    (pageClick : made.pageClick = page - 1)
    (isPage : page < (looped banner.mList).length) :
    made.Shows banner.mList (shownAt banner.mList.length page) ↔
      banner.mList[page - 1]? = some made.data := by
  obtain ⟨index, rfl⟩ := Nat.exists_eq_succ_of_ne_zero notFirst
  have inPages : index + 1 < (looped banner.mList).length := isPage
  rw [length_looped] at inPages
  have several : ¬banner.mList.length < 2 := fun few => by
    rw [if_pos few] at inPages
    omega
  rw [if_neg several] at inPages
  rw [Nat.succ_sub_one, Nat.succ_eq_add_one]
  by_cases inside : index < banner.mList.length
  · rw [shownAt_succ inside]
    constructor
    · exact fun shown => shown.data
    · exact fun data => ⟨data, by omega, by omega⟩
  · have isEnd : index = banner.mList.length := by omega
    refine iff_of_false (fun shown => ?_) (fun data => ?_)
    · have wrong := shown.position
      rw [isEnd, shownAt_end (by omega)] at wrong
      omega
    · rw [List.getElem?_eq_none (by omega)] at data
      cases data

/-- Spec lemma: a steady banner is in step exactly when the page that is held
is right. -/
theorem Steady.inStep_iff {banner : MultiBanner T} (steady : Steady banner)
    (page : Nat) :
    InStep page banner ↔
      ∀ made, (page, made) ∈ banner.mViewPager.mItems →
        page < banner.mListAdd.length →
          made.Shows banner.mList (shownAt banner.mList.length page) := by
  refine ⟨fun inStep => inStep.bound, fun bound =>
    ⟨fun isLaid => ?_, fun isLaid several index => ?_, bound⟩⟩
  · obtain ⟨adapter, isAdapter⟩ := Option.ne_none_iff_exists'.mp isLaid
    exact (steady.laid adapter isAdapter).padded
  · obtain ⟨adapter, isAdapter⟩ := Option.ne_none_iff_exists'.mp isLaid
    have dotted := (steady.laid adapter isAdapter).several several
    rw [dotted.isList]
    exact getElem?_oneAt dotted.inside index

theorem Steady.inStep {banner : MultiBanner T} (steady : Steady banner)
    {page : Nat} (held : Held page banner) : InStep page banner := by
  rw [steady.inStep_iff]
  intro made isHeld isPage
  have known := held made isHeld
  obtain ⟨adapter, isAdapter⟩ := Option.ne_none_iff_exists'.mp known.laid
  rw [(steady.laid adapter isAdapter).padded] at isPage
  rw [HeldPage.shows_iff known.notFirst known.position known.pageClick isPage]
  rw [← (steady.laid adapter isAdapter).padded] at isPage
  exact known.data isPage

/-- What holds of a run behind a proper step. -/
def Inv (page : Nat) : Except Failure (MultiBanner T) → Prop
  | .error _ => False
  | .ok banner => Steady banner ∧ Held page banner

section Steps

variable {banner next : MultiBanner T} {adapter : MultiPagerAdapter}
  {page : Nat}

/-- A prepared banner with the dot of its page is steady. -/
theorem Prepared.steady (prepared : Prepared banner adapter)
    (listened : banner.mViewPager.mOnPageChangeListeners ≠ 0)
    (isDot : banner.dotPosition =
      shownAt banner.mList.length banner.mViewPager.mCurItem) :
    Steady banner := by
  have several := prepared.several
  obtain ⟨dot, dotted⟩ := prepared.dotted
  have isShown : dot =
      shownAt banner.mList.length banner.mViewPager.mCurItem := by
    rw [dotted.isDot] at isDot
    exact Int.natCast_inj.mp isDot
  refine ⟨prepared.loops, fun _ => prepared.created,
    ⟨dot, dotted.isDot, dotted.isPrevious⟩, fun unlaid => ?_,
    fun other isOther => ?_⟩
  · rw [prepared.isAdapter] at unlaid
    cases unlaid
  · rw [prepared.isAdapter] at isOther
    rw [← Option.some_inj.mp isOther]
    refine ⟨prepared.adapterLoops, fun _ => prepared.adapterCreated,
      listened, prepared.padded, fun _ => isShown ▸ dotted, by omega,
      by omega, fun isFirst => ?_, fun _ => prepared.created⟩
    rw [isDot, isFirst, shownAt_succ (Nat.zero_lt_of_lt several),
      Nat.cast_zero]

end Steps

end DripStone.Banner
