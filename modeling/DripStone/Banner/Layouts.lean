import DripStone.Banner.Steady

/-!
# Layouts

A layout gives the banner a new adapter, selects the page to begin with and
adds one more listener.  It is right unless it adds a single item once more.
-/

namespace DripStone.Banner

open DripStone.Library

variable {T : Type}

section Steps

variable {banner next : MultiBanner T} {adapter : MultiPagerAdapter}
  {page : Nat}

/-! ## A page that is selected -/

namespace MultiBanner

/-- The page is instantiated, and nothing else is done, where it is the one
that is selected. -/
theorem setCurrentItemInternal_of_same {item : Int}
    (loops : adapter.isCanLoop = true) (created : adapter.holderCreator = true)
    (isTarget : (min item (banner.mListAdd.length - 1)).toNat =
      banner.mViewPager.mCurItem)
    (isPage : banner.mViewPager.mCurItem < banner.mListAdd.length) :
    banner.setCurrentItemInternal adapter item = .ok banner := by
  obtain ⟨made, isMade, _⟩ := getView_eq_ok loops created isPage
  rw [setCurrentItemInternal, isTarget, isMade]
  simp only [bind, Except.bind, if_true]
  rfl

theorem dispatch_turned_of_no_dots (noDots : banner.mDotList = [])
    (listened : banner.mViewPager.mOnPageChangeListeners ≠ 0)
    (target : Nat) (position : Int) :
    (banner.turned target).dispatchOnPageSelected position =
      .error .indexOutOfBoundsException := by
  have stillNone : (banner.turned target).mDotList = [] := noDots
  exact dispatchOnPageSelected_of_no_dots stillNone listened position

/-- There is one page, and it is the one that is selected. -/
theorem setCurrentItem_of_first (isAdapter : banner.adapter = some adapter)
    (loops : adapter.isCanLoop = true) (created : adapter.holderCreator = true)
    (onePage : banner.mListAdd.length = 1)
    (isFirst : banner.mViewPager.mCurItem = 0) (item : Int) :
    banner.setCurrentItem item = .ok banner := by
  rw [setCurrentItem, isAdapter]
  simp only
  split
  · rfl
  · exact setCurrentItemInternal_of_same loops created (by omega) (by omega)

/-- A banner with one page has no dot for it. -/
theorem setCurrentItem_of_single {item : Nat}
    (isAdapter : banner.adapter = some adapter)
    (loops : adapter.isCanLoop = true) (created : adapter.holderCreator = true)
    (onePage : banner.mListAdd.length = 1) (noDots : banner.mDotList = [])
    (listened : banner.mViewPager.mOnPageChangeListeners ≠ 0) :
    banner.setCurrentItem item =
      if item = banner.mViewPager.mCurItem ∨ banner.mViewPager.mCurItem = 0 then
        .ok banner
      else .error .indexOutOfBoundsException := by
  by_cases isFirst : banner.mViewPager.mCurItem = 0
  · rw [if_pos (Or.inr isFirst)]
    exact setCurrentItem_of_first isAdapter loops created onePage isFirst item
  · have nonempty : ¬banner.mListAdd.isEmpty = true := by
      intro isEmpty
      rw [List.isEmpty_iff.mp isEmpty] at onePage
      cases onePage
    rw [setCurrentItem, isAdapter]
    by_cases isThere : item = banner.mViewPager.mCurItem
    · simp [isThere]
    · have moves : ¬(banner.mListAdd.isEmpty = true ∨
          (item : Int) = banner.mViewPager.mCurItem) := by
        rw [not_or, Int.natCast_inj]
        exact ⟨nonempty, isThere⟩
      have isTarget :
          (min (item : Int) (banner.mListAdd.length - 1)).toNat = 0 := by
        omega
      have isPage : 0 < banner.mListAdd.length := by omega
      obtain ⟨made, isMade, _⟩ := getView_eq_ok loops created isPage
      rw [if_neg (not_or.mpr ⟨isThere, isFirst⟩)]
      simp only [if_neg moves]
      rw [setCurrentItemInternal, isTarget, isMade]
      simp only [bind, Except.bind, if_neg (Ne.symm isFirst)]
      exact dispatch_turned_of_no_dots noDots listened 0 _

/-- Without dots no other page can be selected. -/
theorem setCurrentItem_of_no_dots (noDots : banner.mDotList = [])
    (listened : banner.mViewPager.mOnPageChangeListeners ≠ 0) (item : Int) :
    banner.setCurrentItem item = .ok banner ∨
      ∃ failure, banner.setCurrentItem item = .error failure := by
  rw [setCurrentItem]
  cases banner.adapter with
  | none => exact Or.inl rfl
  | some adapter =>
      simp only [setCurrentItemInternal]
      split
      · exact Or.inl rfl
      · cases isMade : adapter.getView banner.mListAdd
          (min item (banner.mListAdd.length - 1)).toNat with
        | error failure => exact Or.inr ⟨failure, rfl⟩
        | ok made =>
            simp only [bind, Except.bind]
            split
            · exact Or.inl rfl
            · exact Or.inr ⟨_, dispatch_turned_of_no_dots noDots listened _ _⟩

/-! ## A new adapter -/

/-- The banner with a new adapter. -/
def adapted (banner : MultiBanner T) : MultiBanner T :=
  { banner.emptied with
    adapter := some ⟨banner.holderCreator, banner.isCanLoop⟩ }

/-- The banner with one listener more. -/
def listening (banner : MultiBanner T) : MultiBanner T :=
  { banner with mViewPager := { banner.mViewPager with
    mOnPageChangeListeners := banner.mViewPager.mOnPageChangeListeners + 1 } }

theorem setAdapter_eq (loops : banner.isCanLoop = true)
    (created : banner.mListAdd ≠ [] → banner.holderCreator = true) :
    banner.setAdapter ⟨banner.holderCreator, banner.isCanLoop⟩ =
      .ok banner.adapted := by
  rw [setAdapter]
  by_cases isEmpty : banner.mListAdd = []
  · simp only [isEmpty, List.isEmpty_nil]
    rfl
  · have isPage : 0 < banner.mListAdd.length :=
      List.length_pos_iff.mpr isEmpty
    have creates : (MultiPagerAdapter.mk banner.holderCreator
        banner.isCanLoop).holderCreator = true := created isEmpty
    obtain ⟨made, isMade, _⟩ := getView_eq_ok loops creates isPage
    have some : banner.mListAdd.isEmpty = false :=
      List.isEmpty_eq_false_iff.mpr isEmpty
    rw [Nat.cast_zero] at isMade
    simp only [some, isMade]
    rfl

theorem setViewPager_eq (loops : banner.isCanLoop = true)
    (created : banner.mListAdd ≠ [] → banner.holderCreator = true) :
    banner.setViewPager =
      (banner.adapted.setCurrentItem banner.currentPosition).map
        listening := by
  have sameItem : banner.adapted.currentPosition = banner.currentPosition :=
    rfl
  rw [setViewPager, setAdapter_eq loops created]
  simp only [bind, Except.bind, sameItem]
  cases banner.adapted.setCurrentItem banner.currentPosition with
  | error failure => rfl
  | ok selected => rfl

end MultiBanner

/-! ## Exact outcomes -/

/-- The outcome of a step is right exactly if the step is proper, and then it
keeps the invariant. -/
def Exact (page : Nat) (outcome : Except Failure (MultiBanner T))
    (proper : Prop) : Prop :=
  (Right page outcome ↔ proper) ∧ (proper → Inv page outcome)

theorem Steady.exact {proper : Prop} (steady : Steady next)
    (held : Held page next) (isProper : proper) :
    Exact page (.ok next) proper :=
  ⟨iff_of_true (steady.inStep held) isProper, fun _ => ⟨steady, held⟩⟩

theorem exact_of_not {outcome : Except Failure (MultiBanner T)}
    {proper : Prop} (wrong : ¬Right page outcome) (improper : ¬proper) :
    Exact page outcome proper :=
  ⟨iff_of_false wrong improper, fun isProper => absurd isProper improper⟩

/-! ## Layouts -/

theorem Steady.dot_lt (steady : Steady banner)
    (several : 2 ≤ banner.mList.length) :
    banner.dotPosition < banner.mList.length := by
  cases isAdapter : banner.adapter with
  | none =>
      rw [(steady.unlaid isAdapter).2]
      omega
  | some adapter =>
      have dotted := (steady.laid adapter isAdapter).several several
      rw [dotted.isDot]
      exact_mod_cast dotted.inside

theorem Steady.dot_of_unlistened (steady : Steady banner)
    (unlistened : banner.mViewPager.mOnPageChangeListeners = 0) :
    banner.dotPosition = 0 := by
  cases isAdapter : banner.adapter with
  | none => exact (steady.unlaid isAdapter).2
  | some adapter =>
      exact absurd unlistened (steady.laid adapter isAdapter).listened

theorem Prepared.listening (prepared : Prepared banner adapter) :
    Prepared banner.listening adapter := by
  obtain ⟨dot, dotted⟩ := prepared.dotted
  exact ⟨prepared.several, prepared.loops, prepared.created,
    prepared.isAdapter, prepared.adapterLoops, prepared.adapterCreated,
    prepared.padded, dot, dotted.isDot, dotted.isPrevious, dotted.isList,
    dotted.inside⟩

/-- The page to begin with has the first dot. -/
theorem Selected.isDot (selected : Selected banner next adapter 1) :
    next.dotPosition =
      shownAt next.mList.length next.mViewPager.mCurItem := by
  have several := selected.prepared.several
  rw [selected.atFirst (Or.inl selected.isTarget), selected.isTarget,
    shownAt_succ (Nat.zero_lt_of_lt several), Nat.cast_zero]

namespace MultiBanner

theorem initData_of_several (several : 2 ≤ banner.mList.length) :
    banner.initData = banner.createData := by
  rw [initData]
  split
  · next isNil => simp [isNil] at several
  · next isOnly => simp [isOnly] at several
  · rfl

theorem initData_of_few (few : ¬2 ≤ banner.mList.length) :
    banner.initData = .ok { banner with
      mListAdd := banner.mListAdd ++ banner.mList } := by
  rw [initData]
  split
  · next isNil =>
      have nothingMore : banner.mListAdd ++ banner.mList = banner.mListAdd := by
        rw [isNil, List.append_nil]
      rw [nothingMore]
  · next isOnly => rw [isOnly]
  · next notNil notOnly =>
      cases isList : banner.mList with
      | nil => exact absurd isList notNil
      | cons first rest =>
          cases rest with
          | nil => exact absurd isList (notOnly first)
          | cons second rest => simp [isList] at few

/-- The banner with other pages, of which one is to be gone on from. -/
def paged (banner : MultiBanner T) (pages : List T) (position : Int) :
    MultiBanner T :=
  { banner with mListAdd := pages, currentPosition := position }

/-- The banner with the pages of its list, and a dot. -/
def dotted (banner : MultiBanner T) (dot : Nat) : MultiBanner T :=
  { banner.paged (looped banner.mList) 1 with
    mDotList := oneAt banner.mList.length dot }

/-- The banner with other pages, and without dots. -/
def undotted (banner : MultiBanner T) (pages : List T) : MultiBanner T :=
  { banner.paged pages banner.currentPosition with mDotList := [] }

theorem setIndicator_paged_of_several {dot : Nat}
    (several : 2 ≤ banner.mList.length)
    (isDot : banner.dotPosition = dot) (inside : dot < banner.mList.length) :
    (banner.paged (looped banner.mList) 1).setIndicator =
      .ok (banner.dotted dot) :=
  setIndicator_of_several several isDot inside

theorem setIndicator_paged_of_few (few : ¬2 ≤ banner.mList.length)
    (pages : List T) :
    (banner.paged pages banner.currentPosition).setIndicator =
      .ok (banner.undotted pages) :=
  setIndicator_of_few few

theorem createData_eq_paged (loops : banner.isCanLoop = true)
    (several : 2 ≤ banner.mList.length) :
    banner.createData = .ok (banner.paged (looped banner.mList) 1) :=
  createData_eq loops several

end MultiBanner

/-- One listener more, and a new page to begin with. -/
theorem Steady.onLayout_of_several (steady : Steady banner)
    (several : 2 ≤ banner.mList.length) :
    ∃ next, banner.onLayout = .ok next ∧ Steady next ∧
      next.adapter ≠ none ∧ next.mList = banner.mList ∧
      next.mViewPager.mItems = [] := by
  obtain ⟨dot, isDot, isPrevious⟩ := steady.dot
  have inside : dot < banner.mList.length := by
    have isLess := steady.dot_lt several
    rw [isDot] at isLess
    exact_mod_cast isLess
  have created : banner.holderCreator = true := by
    refine steady.created fun isNil => ?_
    rw [isNil] at several
    cases several
  have prepared : Prepared (banner.dotted dot).adapted
      ⟨banner.holderCreator, banner.isCanLoop⟩ :=
    ⟨several, steady.loops, created, rfl, steady.loops, created, rfl, dot,
      isDot, isPrevious, rfl, inside⟩
  have atFirst : AtFirst (banner.dotted dot).adapted := by
    rintro (isFirst | unlistened)
    · cases isFirst
    · exact steady.dot_of_unlistened unlistened
  obtain ⟨next, isNext, selected⟩ :=
    prepared.setCurrentItem atFirst (Nat.lt_add_left _ (Nat.one_lt_two))
  have loops : (banner.dotted dot).isCanLoop = true := steady.loops
  have prepares : banner.onLayout = (banner.dotted dot).setViewPager := by
    rw [MultiBanner.onLayout, MultiBanner.initData_of_several several,
      MultiBanner.createData_eq_paged steady.loops several]
    simp only [bind, Except.bind,
      MultiBanner.setIndicator_paged_of_several several isDot inside]
  refine ⟨next.listening, ?_, ?_, ?_, selected.sameList,
    selected.sameItems⟩
  · rw [prepares, MultiBanner.setViewPager_eq loops fun _ => created]
    exact congrArg (Except.map MultiBanner.listening) isNext
  · exact selected.prepared.listening.steady (Nat.succ_ne_zero _)
      selected.isDot
  · have isAdapter : next.listening.adapter = _ :=
      selected.prepared.isAdapter
    rw [isAdapter]
    exact Option.some_ne_none _

theorem MultiBanner.onLayout_of_few (loops : banner.isCanLoop = true)
    (few : ¬2 ≤ banner.mList.length) {pages : List T}
    (isPages : banner.mListAdd ++ banner.mList = pages)
    (creates : pages ≠ [] → banner.holderCreator = true) :
    banner.onLayout =
      ((banner.undotted pages).adapted.setCurrentItem
        banner.currentPosition).map MultiBanner.listening := by
  have loopsStill : (banner.undotted pages).isCanLoop = true := loops
  have prepares : banner.onLayout = (banner.undotted pages).setViewPager := by
    have begins : banner.initData =
        .ok (banner.paged pages banner.currentPosition) := by
      rw [MultiBanner.initData_of_few few, isPages]
      rfl
    rw [MultiBanner.onLayout, begins]
    simp only [bind, Except.bind,
      MultiBanner.setIndicator_paged_of_few few pages]
  rw [prepares, MultiBanner.setViewPager_eq loopsStill creates]
  rfl

/-- One item at most, and the banner is laid out for the first time or had no
items then. -/
theorem Steady.onLayout_of_few (steady : Steady banner)
    (few : ¬2 ≤ banner.mList.length)
    (once : banner.mList.length = 1 → banner.adapter = none) :
    ∃ next, banner.onLayout = .ok next ∧ Steady next ∧
      next.adapter ≠ none ∧ next.mList = banner.mList ∧
      next.mViewPager.mItems = [] := by
  have noPages : banner.mListAdd = [] := by
    cases isAdapter : banner.adapter with
    | none => exact (steady.unlaid isAdapter).1
    | some adapter =>
        have isEmpty : banner.mList = [] := by
          have notOne : banner.mList.length ≠ 1 := fun isOne => by
            rw [once isOne] at isAdapter
            cases isAdapter
          exact List.length_eq_zero_iff.mp (by omega)
        rw [(steady.laid adapter isAdapter).padded, isEmpty]
        rfl
  have isPages : banner.mListAdd ++ banner.mList = banner.mList := by
    rw [noPages, List.nil_append]
  have isSelected : (banner.undotted banner.mList).adapted.setCurrentItem
      banner.currentPosition =
        .ok (banner.undotted banner.mList).adapted := by
    by_cases isEmpty : banner.mList = []
    · refine if_pos (Or.inl ?_)
      exact List.isEmpty_iff.mpr isEmpty
    · have onePage : banner.mList.length = 1 := by
        have some := List.length_pos_iff.mpr isEmpty
        omega
      exact MultiBanner.setCurrentItem_of_first rfl steady.loops
        (steady.created isEmpty) onePage rfl _
  refine ⟨(banner.undotted banner.mList).adapted.listening, ?_, ?_,
    Option.some_ne_none _, rfl, rfl⟩
  · rw [MultiBanner.onLayout_of_few steady.loops few isPages steady.created,
      isSelected]
    rfl
  · refine ⟨steady.loops, steady.created, steady.dot, fun unlaid => ?_,
      fun adapter isAdapter => ?_⟩
    · cases unlaid
    · rw [← Option.some_inj.mp isAdapter]
      exact ⟨steady.loops, steady.created, Nat.succ_ne_zero _,
        (looped_of_lt (not_le.mp few)).symm,
        fun several => absurd several few, fun _ => ⟨rfl, Nat.zero_le 1⟩,
        fun _ => rfl, fun isFirst => absurd isFirst Nat.zero_ne_one, id⟩

/-- A single item that was laid out is added once more. -/
theorem Steady.onLayout_again (steady : Steady banner) {adapter}
    (isAdapter : banner.adapter = some adapter)
    (single : banner.mList.length = 1)
    (isNext : banner.onLayout = .ok next) :
    next.adapter ≠ none ∧ next.mListAdd ≠ looped next.mList := by
  have laid := steady.laid adapter isAdapter
  have isPages : banner.mListAdd ++ banner.mList =
      banner.mList ++ banner.mList := by
    rw [laid.padded, looped_of_lt (by omega)]
  have creates : banner.mList ++ banner.mList ≠ [] →
      banner.holderCreator = true := fun _ =>
    steady.created (List.length_pos_iff.mp (by omega))
  have listened : (banner.undotted
      (banner.mList ++ banner.mList)).adapted.mViewPager.mOnPageChangeListeners
        ≠ 0 := laid.listened
  rw [MultiBanner.onLayout_of_few steady.loops (by omega) isPages
    creates] at isNext
  rcases MultiBanner.setCurrentItem_of_no_dots rfl listened
    banner.currentPosition with same | ⟨failure, failed⟩
  · rw [same] at isNext
    rw [← Except.ok.inj isNext]
    refine ⟨Option.some_ne_none _, fun padded => ?_⟩
    have lengths := congrArg List.length padded
    have isList : (banner.undotted
        (banner.mList ++ banner.mList)).adapted.listening.mList =
          banner.mList := rfl
    have isLong : (banner.undotted
        (banner.mList ++ banner.mList)).adapted.listening.mListAdd =
          banner.mList ++ banner.mList := rfl
    rw [isList, isLong, looped_of_lt (by omega), List.length_append] at lengths
    omega
  · rw [failed] at isNext
    cases isNext

theorem held_of_no_items (noItems : banner.mViewPager.mItems = []) :
    Held page banner := by
  intro made isHeld
  rw [noItems] at isHeld
  cases isHeld

/-- Step lemma: a layout. -/
theorem layout_exact (steady : Steady banner) (page : Nat) :
    Exact page banner.onLayout (Proper page (.ok banner) .layout) := by
  by_cases few : 2 ≤ banner.mList.length
  · obtain ⟨next, isNext, isSteady, _, _, noItems⟩ :=
      steady.onLayout_of_several few
    rw [isNext]
    exact isSteady.exact (held_of_no_items noItems)
      ⟨fun isOne => by omega, trivial⟩
  · by_cases once : banner.mList.length = 1 → banner.adapter = none
    · obtain ⟨next, isNext, isSteady, _, _, noItems⟩ :=
        steady.onLayout_of_few few once
      rw [isNext]
      exact isSteady.exact (held_of_no_items noItems) ⟨once, trivial⟩
    · obtain ⟨single, isLaid⟩ := Classical.not_imp.mp once
      obtain ⟨adapter, isAdapter⟩ := Option.ne_none_iff_exists'.mp isLaid
      refine exact_of_not (fun right => ?_) fun proper => once proper.fits
      cases outcome : banner.onLayout with
      | error failure =>
          rw [outcome] at right
          exact right
      | ok next =>
          obtain ⟨stillLaid, wrong⟩ :=
            steady.onLayout_again isAdapter single outcome
          rw [outcome] at right
          exact wrong (right.padded stillLaid)

end Steps

/-! ## Where a selection goes -/

/-- What no selection changes. -/
structure SamePages (banner next : MultiBanner T) : Prop where
  loops : next.isCanLoop = banner.isCanLoop
  adapter : next.adapter = banner.adapter
  list : next.mList = banner.mList
  pages : next.mListAdd = banner.mListAdd
  listeners : next.mViewPager.mOnPageChangeListeners =
    banner.mViewPager.mOnPageChangeListeners

/-- The banner behind a selection that succeeded. -/
structure Went (banner next : MultiBanner T) (target : Nat) : Prop where
  same : SamePages banner next
  isTarget : next.mViewPager.mCurItem = target
  current : next.currentPosition =
    if target = banner.mViewPager.mCurItem ∨
        banner.mViewPager.mOnPageChangeListeners = 0 then
      banner.currentPosition
    else MultiBanner.currentAt banner.mList.length target

namespace SamePages

variable {banner next other : MultiBanner T}

theorem refl (banner : MultiBanner T) : SamePages banner banner :=
  ⟨rfl, rfl, rfl, rfl, rfl⟩

theorem trans (first : SamePages banner next)
    (second : SamePages next other) : SamePages banner other :=
  ⟨second.loops.trans first.loops, second.adapter.trans first.adapter,
    second.list.trans first.list, second.pages.trans first.pages,
    second.listeners.trans first.listeners⟩

end SamePages

namespace MultiBanner

variable {banner next : MultiBanner T} {adapter : MultiPagerAdapter}

theorem pageSelected_spec (loops : banner.isCanLoop = true) {position : Nat}
    (isNext : banner.pageSelected position = .ok next) :
    SamePages banner next ∧
      next.mViewPager.mCurItem = banner.mViewPager.mCurItem ∧
      next.currentPosition = currentAt banner.mList.length position := by
  rw [pageSelected, if_pos loops] at isNext
  have isCurrent : (if (position : Int) = 0 then
        ((banner.mList.length : Int), (banner.mList.length : Int) - 1)
      else if (position : Int) = banner.mList.length + 1 then (1, 0)
      else ((position : Int), (position : Int) - 1)).1 =
        currentAt banner.mList.length position := by
    rw [currentAt]
    by_cases isZero : position = 0
    · rw [if_pos (by omega), if_pos isZero]
    · rw [if_neg (by omega), if_neg isZero]
      by_cases isEnd : position = banner.mList.length + 1
      · rw [if_pos (by omega), if_pos isEnd]
      · rw [if_neg (by omega), if_neg isEnd]
  obtain ⟨unchecked, _, isNext⟩ := except_bind_eq_ok.mp isNext
  obtain ⟨dots, _, isNext⟩ := except_bind_eq_ok.mp isNext
  rw [← Except.ok.inj isNext]
  exact ⟨⟨rfl, rfl, rfl, rfl, rfl⟩, rfl, isCurrent⟩

theorem dispatchOnPageSelected_spec (loops : banner.isCanLoop = true)
    {position : Nat}
    (isNext : banner.dispatchOnPageSelected position = .ok next) :
    SamePages banner next ∧
      next.mViewPager.mCurItem = banner.mViewPager.mCurItem ∧
      next.currentPosition =
        if banner.mViewPager.mOnPageChangeListeners = 0 then
          banner.currentPosition
        else currentAt banner.mList.length position := by
  rw [dispatchOnPageSelected] at isNext
  generalize banner.mViewPager.mOnPageChangeListeners = times at isNext
  induction times generalizing banner with
  | zero =>
      rw [← Except.ok.inj isNext]
      exact ⟨.refl banner, rfl, rfl⟩
  | succ times inductionHypothesis =>
      rw [List.replicate_succ, List.foldlM_cons] at isNext
      obtain ⟨told, isTold, isNext⟩ := except_bind_eq_ok.mp isNext
      obtain ⟨same, samePage, isCurrent⟩ := pageSelected_spec loops isTold
      obtain ⟨stillSame, stillPage, isLast⟩ :=
        inductionHypothesis (same.loops.trans loops) isNext
      refine ⟨same.trans stillSame, stillPage.trans samePage, ?_⟩
      rw [isLast, isCurrent, same.list, ite_self, if_neg (Nat.succ_ne_zero _)]

theorem went_of_setCurrentItemInternal (loops : banner.isCanLoop = true)
    {item : Int}
    (isNext : banner.setCurrentItemInternal adapter item = .ok next) :
    Went banner next (min item (banner.mListAdd.length - 1)).toNat := by
  rw [setCurrentItemInternal] at isNext
  obtain ⟨made, _, isNext⟩ := except_bind_eq_ok.mp isNext
  split at isNext
  · next isThere =>
      rw [← Except.ok.inj isNext]
      exact ⟨.refl banner, isThere.symm, (if_pos (Or.inl isThere)).symm⟩
  · next another =>
      have loopsStill : (banner.turned
          (min item (banner.mListAdd.length - 1)).toNat).isCanLoop = true :=
        loops
      obtain ⟨same, isTarget, isCurrent⟩ :=
        dispatchOnPageSelected_spec loopsStill isNext
      refine ⟨⟨same.loops, same.adapter, same.list, same.pages,
        same.listeners⟩, isTarget, isCurrent.trans ?_⟩
      simp only [another, false_or]
      rfl

/-- Nothing is to be selected, or the banner goes to the page. -/
theorem setCurrentItem_cases (loops : banner.isCanLoop = true)
    (isAdapter : banner.adapter = some adapter) {item : Int}
    (isNext : banner.setCurrentItem item = .ok next) :
    ((banner.mListAdd = [] ∨ item = banner.mViewPager.mCurItem) ∧
        next = banner) ∨
      Went banner next (min item (banner.mListAdd.length - 1)).toNat := by
  rw [setCurrentItem, isAdapter] at isNext
  simp only at isNext
  split at isNext
  · next stays =>
      rw [List.isEmpty_iff] at stays
      exact Or.inl ⟨stays, (Except.ok.inj isNext).symm⟩
  · exact Or.inr (went_of_setCurrentItemInternal loops isNext)

theorem setIndicator_spec (isNext : banner.setIndicator = .ok next) :
    SamePages banner next ∧ next.mViewPager = banner.mViewPager ∧
      next.currentPosition = banner.currentPosition := by
  rw [setIndicator] at isNext
  split at isNext
  · obtain ⟨dots, _, isNext⟩ := except_bind_eq_ok.mp isNext
    rw [← Except.ok.inj isNext]
    exact ⟨⟨rfl, rfl, rfl, rfl, rfl⟩, rfl, rfl⟩
  · rw [← Except.ok.inj isNext]
    exact ⟨⟨rfl, rfl, rfl, rfl, rfl⟩, rfl, rfl⟩

theorem currentAt_one {count : Nat} (several : 2 ≤ count) :
    currentAt count 1 = 1 := by
  rw [currentAt, if_neg Nat.one_ne_zero, if_neg (by omega)]
  rfl

theorem currentAt_end {count : Nat} : currentAt count (count + 1) = 1 := by
  rw [currentAt, if_neg (Nat.succ_ne_zero _), if_pos rfl]

end MultiBanner

/-! ## Where layouts and reloads begin -/

namespace MultiBanner

variable {banner next : MultiBanner T} {adapter : MultiPagerAdapter}

theorem setAdapter_spec (isNext : banner.setAdapter adapter = .ok next) :
    next = { banner.emptied with adapter := some adapter } := by
  rw [setAdapter] at isNext
  split at isNext
  · exact (Except.ok.inj isNext).symm
  · obtain ⟨_, _, isNext⟩ := except_bind_eq_ok.mp isNext
    exact (Except.ok.inj isNext).symm

/-- A layout starts from the first page of the new adapter. -/
theorem onLayout_spec (isNext : banner.onLayout = .ok next) :
    ∃ padded begun selected : MultiBanner T, banner.initData = .ok padded ∧
      begun.isCanLoop = padded.isCanLoop ∧ begun.mList = padded.mList ∧
      begun.mListAdd = padded.mListAdd ∧
      begun.currentPosition = padded.currentPosition ∧
      begun.mViewPager.mCurItem = 0 ∧ begun.adapter ≠ none ∧
      begun.setCurrentItem begun.currentPosition = .ok selected ∧
      next = selected.listening := by
  obtain ⟨padded, isPadded, isNext⟩ := except_bind_eq_ok.mp isNext
  obtain ⟨dotted, isDotted, isNext⟩ := except_bind_eq_ok.mp isNext
  obtain ⟨same, _, isCurrent⟩ := setIndicator_spec isDotted
  rw [setViewPager] at isNext
  obtain ⟨begun, isBegun, isNext⟩ := except_bind_eq_ok.mp isNext
  obtain ⟨selected, isSelected, isNext⟩ := except_bind_eq_ok.mp isNext
  have adapted := setAdapter_spec isBegun
  refine ⟨padded, begun, selected, isPadded, ?_, ?_, ?_, ?_, ?_, ?_,
    isSelected, (Except.ok.inj isNext).symm⟩
  · rw [adapted]
    exact same.loops
  · rw [adapted]
    exact same.list
  · rw [adapted]
    exact same.pages
  · rw [adapted]
    exact isCurrent
  · rw [adapted]
    rfl
  · rw [adapted]
    exact Option.some_ne_none _

/-- The first one of several items. -/
theorem onLayout_page_of_several (loops : banner.isCanLoop = true)
    (several : 2 ≤ banner.mList.length) (isNext : banner.onLayout = .ok next) :
    next.mViewPager.mCurItem = 1 ∧ next.currentPosition = 1 := by
  obtain ⟨padded, begun, selected, isPadded, begunLoops, sameList, samePages,
    isCurrent, atZero, isLaid, isSelected, isNext⟩ := onLayout_spec isNext
  rw [initData_of_several several, createData_eq_paged loops several]
    at isPadded
  rw [← Except.ok.inj isPadded] at begunLoops sameList samePages isCurrent
  replace sameList : begun.mList = banner.mList := sameList
  replace isCurrent : begun.currentPosition = 1 := isCurrent
  have pages : begun.mListAdd.length = banner.mList.length + 2 := by
    rw [samePages]
    exact (length_looped _).trans (if_neg (not_lt.mpr several))
  obtain ⟨adapter, isAdapter⟩ := Option.ne_none_iff_exists'.mp isLaid
  rw [isNext]
  rcases setCurrentItem_cases (begunLoops.trans loops) isAdapter isSelected with
    ⟨noPages | isThere, _⟩ | went
  · rw [noPages] at pages
    cases pages
  · rw [isCurrent, atZero] at isThere
    cases isThere
  · have isOne : (min begun.currentPosition
        (begun.mListAdd.length - 1)).toNat = 1 := by omega
    rw [isOne] at went
    refine ⟨went.isTarget, went.current.trans ?_⟩
    rw [isCurrent, sameList, currentAt_one several, ite_self]

/-- The page of the only item. -/
theorem onLayout_page_of_few (loops : banner.isCanLoop = true)
    (few : ¬2 ≤ banner.mList.length) (isNext : banner.onLayout = .ok next)
    (onePage : next.mListAdd.length ≤ 1) : next.mViewPager.mCurItem = 0 := by
  obtain ⟨padded, begun, selected, isPadded, begunLoops, _, _, _, atZero,
    isLaid, isSelected, isNext⟩ := onLayout_spec isNext
  rw [initData_of_few few] at isPadded
  rw [← Except.ok.inj isPadded] at begunLoops
  obtain ⟨adapter, isAdapter⟩ := Option.ne_none_iff_exists'.mp isLaid
  rw [isNext] at onePage ⊢
  rcases setCurrentItem_cases (begunLoops.trans loops) isAdapter isSelected with
    ⟨_, stays⟩ | went
  · rw [stays]
    exact atZero
  · have samePages := congrArg List.length went.same.pages
    replace onePage : selected.mListAdd.length ≤ 1 := onePage
    refine went.isTarget.trans ?_
    omega

end MultiBanner

end DripStone.Banner
