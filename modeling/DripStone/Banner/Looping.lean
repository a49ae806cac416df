import DripStone.Banner.Layouts

/-!
# Banners that loop

The padded list, the dots and a page that is held are right along a run exactly
when each of its steps is a proper one: it fits the banner, and it leaves the
page with its item and its indices.
-/

namespace DripStone.Banner

open DripStone.Library

variable {T : Type}

section Steps

variable {banner next : MultiBanner T} {adapter : MultiPagerAdapter}
  {page : Nat}

/-! ## Pages that are given, and pages that are selected -/

theorem looped_ne_append {items more : List T} (some : more ≠ []) :
    looped items ≠ looped (items ++ more) := by
  intro same
  have lengths := congrArg List.length same
  have longer := List.length_pos_iff.mpr some
  rw [length_looped, length_looped, List.length_append] at lengths
  split at lengths
  · split at lengths
    · omega
    · omega
  · split at lengths
    · omega
    · omega

/-- The banner with more items, and a creator of holders. -/
def MultiBanner.given (banner : MultiBanner T) (list : List T) :
    MultiBanner T :=
  { banner with mList := banner.mList ++ list, holderCreator := true }

/-- A page that is held stays as it is where the lists do. -/
theorem Held.of_same (held : Held page banner)
    (stillLaid : next.adapter ≠ none)
    (sameItems : next.mViewPager.mItems = banner.mViewPager.mItems)
    (sameList : next.mList = banner.mList)
    (samePages : next.mListAdd = banner.mListAdd) : Held page next := by
  intro made isHeld
  rw [sameItems] at isHeld
  have known := held made isHeld
  refine ⟨stillLaid, known.notFirst, known.position, known.pageClick,
    fun isPage => ?_⟩
  rw [samePages] at isPage
  rw [sameList]
  exact known.data isPage

/-- Step lemma: pages that are given. -/
theorem setPages_exact (steady : Steady banner) (held : Held page banner)
    {list : List T} (some : list ≠ []) (holderCreator : Bool) :
    Exact page (.ok (banner.setPages list holderCreator))
      (Proper page (.ok banner) (.setPages list holderCreator)) := by
  cases holderCreator with
  | false =>
      exact steady.exact held
        ⟨fun _ created => absurd created Bool.false_ne_true, trivial⟩
  | true =>
      have isNext : banner.setPages list true = banner.given list := rfl
      rw [isNext]
      cases isAdapter : banner.adapter with
      | none =>
          obtain ⟨noPages, noDot⟩ := steady.unlaid isAdapter
          have unlaid : (banner.given list).adapter = none := isAdapter
          have steadyNext : Steady (banner.given list) := by
            refine ⟨steady.loops, fun _ => rfl, steady.dot,
              fun _ => ⟨noPages, noDot⟩, fun adapter laid => ?_⟩
            rw [unlaid] at laid
            cases laid
          exact steadyNext.exact
            (fun made isHeld => absurd isAdapter (held made isHeld).laid)
            ⟨fun _ _ => isAdapter, trivial⟩
      | some adapter =>
          have laid := steady.laid adapter isAdapter
          have isLaid : banner.adapter ≠ none := by simp [isAdapter]
          refine exact_of_not (fun right => ?_) fun proper =>
            isLaid (proper.fits some rfl)
          have padded : banner.mListAdd = looped (banner.mList ++ list) :=
            right.padded isLaid
          exact looped_ne_append some (laid.padded.symm.trans padded)

theorem Laid.prepared (laid : Laid banner adapter) (steady : Steady banner)
    (isAdapter : banner.adapter = some adapter)
    (several : 2 ≤ banner.mList.length) : Prepared banner adapter := by
  have some : banner.mList ≠ [] := List.length_pos_iff.mp (by omega)
  exact ⟨several, steady.loops, steady.created some, isAdapter, laid.loops,
    laid.created some, laid.padded, _, laid.several several⟩

/-- Step lemma: a page that is selected. -/
theorem select_exact (steady : Steady banner) (held : Held page banner)
    {position : Nat} (isPage : position < banner.mListAdd.length) :
    Exact page (banner.setCurrentItem position)
      (Proper page (.ok banner) (.select position)) := by
  cases isAdapter : banner.adapter with
  | none =>
      rw [(steady.unlaid isAdapter).1] at isPage
      cases isPage
  | some adapter =>
      have laid := steady.laid adapter isAdapter
      by_cases isThere : position = banner.mViewPager.mCurItem
      · have stays : banner.setCurrentItem position = .ok banner := by
          rw [MultiBanner.setCurrentItem, isAdapter]
          exact if_pos (Or.inr (congrArg _ isThere))
        rw [stays]
        exact steady.exact held ⟨fun _ => Or.inr isThere, trivial⟩
      · have count := length_looped banner.mList
        rw [← laid.padded] at count
        by_cases several : 2 ≤ banner.mList.length
        · have prepared := laid.prepared steady isAdapter several
          rw [if_neg (not_lt.mpr several)] at count
          obtain ⟨next, isNext, selected⟩ := prepared.setCurrentItem
            (fun isFirst => laid.atFirst (isFirst.resolve_right laid.listened))
            (count ▸ isPage)
          rw [isNext]
          have listened : next.mViewPager.mOnPageChangeListeners ≠ 0 :=
            selected.sameListeners ▸ laid.listened
          have isDot : next.dotPosition =
              shownAt next.mList.length next.mViewPager.mCurItem := by
            rw [selected.moved laid.listened (Ne.symm isThere),
              selected.sameList, selected.isTarget]
          have samePages : next.mListAdd = banner.mListAdd := by
            rw [selected.prepared.padded, selected.sameList, laid.padded]
          have stillLaid : next.adapter ≠ none := by
            simp [selected.prepared.isAdapter]
          exact (selected.prepared.steady listened isDot).exact
            (held.of_same stillLaid selected.sameItems selected.sameList
              samePages) ⟨fun _ => Or.inl several, trivial⟩
        · rw [if_pos (not_le.mp several)] at count
          have single : banner.mList.length = 1 := by omega
          have some : banner.mList ≠ [] := List.length_pos_iff.mp (by omega)
          rw [MultiBanner.setCurrentItem_of_single isAdapter laid.loops
            (laid.created some) (by omega) (laid.single single).1
            laid.listened, if_neg (by omega)]
          refine exact_of_not id fun proper => ?_
          rcases proper.fits isPage with more | same
          · exact several more
          · exact isThere same

/-! ## Pages that are held -/

theorem Steady.holding (steady : Steady banner)
    (items : List (Nat × Page T)) : Steady (banner.holding items) := by
  refine ⟨steady.loops, steady.created, steady.dot, steady.unlaid,
    fun adapter isAdapter => ?_⟩
  have laid := steady.laid adapter isAdapter
  refine ⟨laid.loops, laid.created, laid.listened, laid.padded,
    fun several => ?_, laid.single, laid.empty, laid.atFirst, laid.creator⟩
  have dotted := laid.several several
  exact ⟨dotted.isDot, dotted.isPrevious, dotted.isList, dotted.inside⟩

/-- The adapter of a banner that was laid out can make each page. -/
theorem Steady.instantiateItem_eq (steady : Steady banner)
    (isAdapter : banner.adapter = some adapter) {position : Nat}
    (isPage : position < banner.mListAdd.length) :
    ∃ made, adapter.getView banner.mListAdd position = .ok made ∧
      made.pageClick = position - 1 ∧
      banner.instantiateItem adapter position = .ok
        (banner.holding ((position, made) :: banner.mViewPager.mItems)) := by
  have laid := steady.laid adapter isAdapter
  have some : banner.mList ≠ [] := by
    intro isEmpty
    rw [laid.padded, isEmpty] at isPage
    cases isPage
  obtain ⟨made, isMade, _, _, isClick⟩ :=
    getView_eq_ok laid.loops (laid.created some) isPage
  refine ⟨made, isMade, isClick, ?_⟩
  rw [MultiBanner.instantiateItem, isMade]
  rfl

/-- Step lemma: a page that is instantiated. -/
theorem instantiate_exact (steady : Steady banner) (held : Held page banner)
    (isAdapter : banner.adapter = some adapter) {position : Nat}
    (isPage : position < banner.mListAdd.length)
    (isNew : position ∉ banner.mViewPager.mItems.map Prod.fst) :
    Exact page (banner.instantiateItem adapter position)
      (Proper page (.ok banner) (.instantiate position)) := by
  have laid := steady.laid adapter isAdapter
  have isLaid : banner.adapter ≠ none := by simp [isAdapter]
  obtain ⟨made, isMade, isClick, isNext⟩ :=
    steady.instantiateItem_eq isAdapter isPage
  rw [isNext]
  have steadyNext :=
    steady.holding ((position, made) :: banner.mViewPager.mItems)
  by_cases isThis : position = page
  · subst isThis
    have shown := laid.shows_iff_inner isPage
    by_cases inner : Inner banner.mList.length position
    · obtain ⟨other, isOther, shows_⟩ := shown.mpr inner
      rw [isMade] at isOther
      rw [← Except.ok.inj isOther] at shows_
      have notEmpty : banner.mList.length ≠ 0 := by
        intro isZero
        rw [laid.padded, List.length_eq_zero_iff.mp isZero] at isPage
        cases isPage
      have samePlace : ((shownAt banner.mList.length position : Nat) : Int)
          = position - 1 := shows_.pageClick.symm.trans isClick
      have heldNext : Held position (banner.holding
          ((position, made) :: banner.mViewPager.mItems)) := by
        intro first isHeld
        rcases List.mem_cons.mp isHeld with isFirst | before
        · obtain rfl : first = made := (Prod.ext_iff.mp isFirst).2
          have isPlace : shownAt banner.mList.length position =
              position - 1 := by omega
          refine ⟨isLaid, inner.notFirst notEmpty, ?_, isClick,
            fun _ => isPlace ▸ shows_.data⟩
          rw [shows_.position, samePlace]
        · exact absurd (List.mem_map_of_mem before) isNew
      exact steadyNext.exact heldNext ⟨trivial, fun _ _ _ _ => inner⟩
    · refine exact_of_not (fun right => ?_) fun proper =>
        inner (proper.keeps rfl isLaid isPage isNew)
      exact inner (shown.mp ⟨made, isMade,
        right.bound made List.mem_cons_self isPage⟩)
  · refine steadyNext.exact (fun first isHeld => ?_)
      ⟨trivial, fun same => absurd same isThis⟩
    rcases List.mem_cons.mp isHeld with isFirst | before
    · exact absurd (Prod.ext_iff.mp isFirst).1.symm isThis
    · have known := held first before
      exact ⟨known.laid, known.notFirst, known.position, known.pageClick,
        known.data⟩

/-- Step lemma: a page that is dropped. -/
theorem destroy_exact (steady : Steady banner) (held : Held page banner)
    (position : Nat) :
    Exact page (.ok (banner.destroyItem position))
      (Proper page (.ok banner) (.destroy position)) := by
  refine (steady.holding _).exact (fun made isHeld => ?_) ⟨trivial, trivial⟩
  have known := held made (List.mem_filter.mp isHeld).1
  exact ⟨known.laid, known.notFirst, known.position, known.pageClick,
    known.data⟩

/-! ## Reloads -/

namespace MultiBanner

/-- The banner with the items of another list. -/
def filled (banner : MultiBanner T) (list : List T) : MultiBanner T :=
  { banner with mList := list }

/-- What `onReload` does in the end. -/
def reshown (banner : MultiBanner T) (populates : Bool) :
    Except Failure (MultiBanner T) := do
  let notified ← banner.notifyDataSetChanged populates
  notified.setCurrentItem 1

theorem updateData_of_several (loops : banner.isCanLoop = true) {list : List T}
    (several : 2 ≤ list.length) :
    banner.updateData list =
      .ok ((banner.filled list).paged (looped list) 1) := by
  have loopsStill : (banner.filled list).isCanLoop = true := loops
  cases list with
  | nil => cases several
  | cons first rest =>
      cases rest with
      | nil => exact absurd several (Nat.not_succ_le_self 1)
      | cons second rest => exact createData_eq_paged loopsStill several

theorem onReload_eq {list : List T} {updated : MultiBanner T}
    (some : list ≠ []) (isUpdated : banner.updateData list = .ok updated)
    (populates : Bool) :
    banner.onReload list populates =
      updated.setIndicator >>= fun dotted => dotted.reshown populates := by
  have isFalse : list.isEmpty = false := List.isEmpty_eq_false_iff.mpr some
  rw [onReload, isFalse, isUpdated]
  rfl

/-- Several items get dots, if one of them has the dot that is checked, and a
single one gets none. -/
theorem onReload_cases (loops : banner.isCanLoop = true) {list : List T}
    (some : list ≠ []) {dot : Nat} (isDot : banner.dotPosition = dot)
    (populates : Bool) :
    (2 ≤ list.length ∧ ¬banner.dotPosition < list.length ∧
      ∀ next, banner.onReload list populates ≠ .ok next) ∨
    (2 ≤ list.length ∧ dot < list.length ∧
      banner.onReload list populates =
        ((banner.filled list).dotted dot).reshown populates) ∨
    (list.length = 1 ∧ banner.onReload list populates =
      ((banner.filled list).undotted list).reshown populates) := by
  by_cases several : 2 ≤ list.length
  · have reloads := onReload_eq some (updateData_of_several loops several)
      populates
    by_cases inside : dot < list.length
    · refine Or.inr (Or.inl ⟨several, inside, ?_⟩)
      have indicates : ((banner.filled list).paged (looped list) 1).setIndicator
          = .ok ((banner.filled list).dotted dot) :=
        setIndicator_paged_of_several several isDot inside
      rw [reloads, indicates]
      rfl
    · refine Or.inl ⟨several, by omega, fun next isNext => ?_⟩
      rw [reloads] at isNext
      obtain ⟨dotted, isDotted, _⟩ := except_bind_eq_ok.mp isNext
      have isLess : banner.dotPosition < list.length :=
        lt_of_setIndicator several isDotted
      omega
  · have single : list.length = 1 := by
      have longer := List.length_pos_iff.mpr some
      omega
    obtain ⟨only, isOnly⟩ := List.length_eq_one_iff.mp single
    have isUpdated : banner.updateData list =
        .ok ((banner.filled list).paged list banner.currentPosition) := by
      rw [isOnly]
      rfl
    have indicates : ((banner.filled list).paged list
        banner.currentPosition).setIndicator =
          .ok ((banner.filled list).undotted list) :=
      setIndicator_paged_of_few several list
    refine Or.inr (Or.inr ⟨single, ?_⟩)
    rw [onReload_eq some isUpdated, indicates]
    rfl

/-- Without a creator of holders no page is instantiated. -/
theorem setCurrentItemInternal_of_uncreated
    (uncreated : adapter.holderCreator = false) (item : Int) :
    banner.setCurrentItemInternal adapter item =
      .error .nullPointerException := by
  have fails : ∀ target : Nat, adapter.getView banner.mListAdd target =
      .error .nullPointerException := fun target => by
    rw [MultiPagerAdapter.getView, if_pos (by simp [uncreated])]
  rw [setCurrentItemInternal, fails]
  rfl

theorem notifyDataSetChanged_eq (isAdapter : banner.adapter = some adapter)
    (pages : banner.mListAdd ≠ []) (populates : Bool) :
    banner.notifyDataSetChanged populates =
      if populates then
        banner.setCurrentItemInternal adapter banner.mViewPager.mCurItem
      else .ok banner := by
  rw [notifyDataSetChanged, isAdapter]
  simp [pages]

/-- There is no adapter, or none that can show a page. -/
theorem reshown_of_unready (pages : banner.mListAdd ≠ [])
    (unready : ∀ adapter, banner.adapter = some adapter →
      adapter.holderCreator = false ∧ banner.mViewPager.mCurItem = 0)
    (populates : Bool) :
    banner.reshown populates = .error .nullPointerException := by
  rw [reshown]
  cases isAdapter : banner.adapter with
  | none =>
      rw [notifyDataSetChanged, isAdapter]
      rfl
  | some adapter =>
      obtain ⟨uncreated, isFirst⟩ := unready adapter isAdapter
      rw [notifyDataSetChanged_eq isAdapter pages]
      cases populates with
      | true =>
          rw [if_pos rfl, setCurrentItemInternal_of_uncreated uncreated]
          rfl
      | false =>
          have moves : ¬(banner.mListAdd.isEmpty = true ∨
              (1 : Int) = banner.mViewPager.mCurItem) := by
            rw [not_or, isFirst, List.isEmpty_iff]
            exact ⟨pages, by decide⟩
          have fails : banner.setCurrentItem 1 =
              .error .nullPointerException := by
            rw [setCurrentItem, isAdapter]
            simp only [if_neg moves]
            exact setCurrentItemInternal_of_uncreated uncreated 1
          exact fails

end MultiBanner

/-- Several pages, the first one of which is gone to in the end. -/
theorem Prepared.reshown (prepared : Prepared banner adapter)
    (atFirst : AtFirst banner) (populates : Bool) :
    ∃ notified next, banner.reshown populates = .ok next ∧
      notified.mList = banner.mList ∧
      notified.mViewPager.mOnPageChangeListeners =
        banner.mViewPager.mOnPageChangeListeners ∧
      notified.mViewPager.mItems = banner.mViewPager.mItems ∧
      Selected notified next adapter 1 := by
  have pages : banner.mListAdd ≠ [] := by
    intro isNil
    have isLength := prepared.length
    rw [isNil] at isLength
    cases isLength
  obtain ⟨notified, isNotified, stillPrepared, stillAtFirst, sameList,
      sameListeners, sameItems⟩ : ∃ notified,
        banner.notifyDataSetChanged populates = .ok notified ∧
        Prepared notified adapter ∧ AtFirst notified ∧
        notified.mList = banner.mList ∧
        notified.mViewPager.mOnPageChangeListeners =
          banner.mViewPager.mOnPageChangeListeners ∧
        notified.mViewPager.mItems = banner.mViewPager.mItems := by
    rw [MultiBanner.notifyDataSetChanged_eq prepared.isAdapter pages]
    cases populates with
    | false => exact ⟨banner, rfl, prepared, atFirst, rfl, rfl, rfl⟩
    | true =>
        obtain ⟨notified, isNotified, selected⟩ :=
          prepared.setCurrentItemInternal atFirst rfl
        exact ⟨notified, isNotified, selected.prepared, selected.atFirst,
          selected.sameList, selected.sameListeners, selected.sameItems⟩
  obtain ⟨next, isNext, selected⟩ := stillPrepared.setCurrentItem
    stillAtFirst (Nat.lt_add_left _ Nat.one_lt_two)
  refine ⟨notified, next, ?_, sameList, sameListeners, sameItems, selected⟩
  rw [MultiBanner.reshown, isNotified]
  exact isNext

/-- A reload goes to the first one of several items. -/
theorem MultiBanner.reshown_page (loops : banner.isCanLoop = true)
    (isAdapter : banner.adapter = some adapter)
    (several : 2 ≤ banner.mList.length)
    (padded : banner.mListAdd = looped banner.mList)
    (begins : banner.currentPosition = 1) {populates : Bool}
    (isNext : banner.reshown populates = .ok next) :
    next.mViewPager.mCurItem = 1 ∧ next.currentPosition = 1 := by
  have pages : banner.mListAdd.length = banner.mList.length + 2 := by
    rw [padded, length_looped, if_neg (not_lt.mpr several)]
  have some : banner.mListAdd ≠ [] := List.length_pos_iff.mp (by omega)
  obtain ⟨notified, isNotified, isNext⟩ := except_bind_eq_ok.mp isNext
  obtain ⟨same, stillBegins⟩ : SamePages banner notified ∧
      notified.currentPosition = 1 := by
    rw [notifyDataSetChanged_eq isAdapter some] at isNotified
    cases populates with
    | false =>
        rw [← Except.ok.inj isNotified]
        exact ⟨.refl banner, begins⟩
    | true =>
        have went := went_of_setCurrentItemInternal loops isNotified
        refine ⟨went.same, went.current.trans ?_⟩
        split
        · exact begins
        · next moves =>
            have isEnd : (min (banner.mViewPager.mCurItem : Int)
                (banner.mListAdd.length - 1)).toNat =
                  banner.mList.length + 1 := by omega
            rw [isEnd, currentAt_end]
  rcases setCurrentItem_cases (same.loops.trans loops)
      (same.adapter.trans isAdapter) isNext with
    ⟨noPages | isThere, stays⟩ | went
  · rw [same.pages] at noPages
    exact absurd noPages some
  · rw [stays]
    exact ⟨by omega, stillBegins⟩
  · have isOne : (min 1 (notified.mListAdd.length - 1 : Int)).toNat = 1 := by
      rw [same.pages]
      omega
    rw [isOne] at went
    refine ⟨went.isTarget, went.current.trans ?_⟩
    rw [stillBegins, same.list, currentAt_one several, ite_self]

/-- A single page, which is gone to, or the one behind it. -/
theorem MultiBanner.reshown_of_single
    (isAdapter : banner.adapter = some adapter)
    (loops : adapter.isCanLoop = true) (created : adapter.holderCreator = true)
    (onePage : banner.mListAdd.length = 1) (noDots : banner.mDotList = [])
    (listened : banner.mViewPager.mOnPageChangeListeners ≠ 0)
    {populates : Bool}
    (isFirst : populates = true → banner.mViewPager.mCurItem = 0) :
    banner.reshown populates =
      if banner.mViewPager.mCurItem ≤ 1 then .ok banner
      else .error .indexOutOfBoundsException := by
  have pages : banner.mListAdd ≠ [] := List.length_pos_iff.mp (by omega)
  have notifies : banner.notifyDataSetChanged populates = .ok banner := by
    rw [notifyDataSetChanged_eq isAdapter pages]
    cases populates with
    | false => rfl
    | true =>
        have isThere := isFirst rfl
        exact setCurrentItemInternal_of_same loops created (by omega)
          (by omega)
  have selects : banner.setCurrentItem (1 : Nat) =
      if 1 = banner.mViewPager.mCurItem ∨ banner.mViewPager.mCurItem = 0 then
        .ok banner
      else .error .indexOutOfBoundsException :=
    setCurrentItem_of_single isAdapter loops created onePage noDots listened
  rw [reshown, notifies]
  exact selects.trans (if_congr (by omega) rfl rfl)

/-- Several items come to a banner that was laid out, and one of them has the
dot that is checked. -/
theorem Laid.reload_several (laid : Laid banner adapter)
    (steady : Steady banner) (isAdapter : banner.adapter = some adapter)
    (created : adapter.holderCreator = true) {list : List T}
    (several : 2 ≤ list.length) {dot : Nat} (isDot : banner.dotPosition = dot)
    (isPrevious : banner.prePosition = dot) (inside : dot < list.length)
    (populates : Bool) :
    ∃ next, ((banner.filled list).dotted dot).reshown populates = .ok next ∧
      Steady next ∧ next.adapter ≠ none ∧ next.mList = list ∧
      next.mViewPager.mItems = banner.mViewPager.mItems := by
  have prepared : Prepared ((banner.filled list).dotted dot) adapter :=
    ⟨several, steady.loops, laid.creator created, isAdapter, laid.loops,
      created, rfl, dot, isDot, isPrevious, rfl, inside⟩
  have atFirst : AtFirst ((banner.filled list).dotted dot) :=
    fun isFirst => laid.atFirst (isFirst.resolve_right laid.listened)
  obtain ⟨notified, next, isNext, sameList, sameListeners, sameItems,
    selected⟩ := prepared.reshown atFirst populates
  have listened : next.mViewPager.mOnPageChangeListeners ≠ 0 := by
    rw [selected.sameListeners, sameListeners]
    exact laid.listened
  exact ⟨next, isNext, selected.prepared.steady listened selected.isDot,
    by simp [selected.prepared.isAdapter], selected.sameList.trans sameList,
    selected.sameItems.trans sameItems⟩

/-- A single item comes to a banner that was laid out, and no page behind the
second is selected. -/
theorem Laid.reload_single (laid : Laid banner adapter)
    (steady : Steady banner) (isAdapter : banner.adapter = some adapter)
    (created : adapter.holderCreator = true) {list : List T}
    (single : list.length = 1) (near : banner.mViewPager.mCurItem ≤ 1) :
    Steady ((banner.filled list).undotted list) := by
  have few : list.length < 2 := by omega
  refine ⟨steady.loops, fun _ => laid.creator created, steady.dot,
    fun unlaid => ?_, fun other isOther => ?_⟩
  · exact absurd (isAdapter.symm.trans unlaid) (Option.some_ne_none adapter)
  · have same : adapter = other :=
      Option.some_inj.mp (isAdapter.symm.trans isOther)
    rw [← same]
    exact ⟨laid.loops, fun _ => created, laid.listened,
      (looped_of_lt few).symm, fun several => absurd several (not_le.mpr few),
      fun _ => ⟨rfl, near⟩,
      fun isZero => absurd (isZero.symm.trans single) Nat.zero_ne_one,
      laid.atFirst, laid.creator⟩

/-- Without an adapter that shows pages a reload throws. -/
theorem Steady.reload_unready (steady : Steady banner)
    (notReady : ¬∃ adapter, banner.adapter = some adapter ∧
      adapter.holderCreator = true)
    {list : List T} (some : list ≠ []) (populates : Bool) :
    ∀ next, banner.onReload list populates ≠ .ok next := by
  have unready : ∀ adapter, banner.adapter = Option.some adapter →
      adapter.holderCreator = false ∧ banner.mViewPager.mCurItem = 0 := by
    intro adapter isAdapter
    have uncreated : ¬adapter.holderCreator = true := fun created =>
      notReady ⟨adapter, isAdapter, created⟩
    have laid := steady.laid adapter isAdapter
    have isEmpty : banner.mList = [] :=
      by_contra fun more => uncreated (laid.created more)
    exact ⟨eq_false_of_ne_true uncreated,
      laid.empty (by rw [isEmpty, List.length_nil])⟩
  obtain ⟨dot, isDot, _⟩ := steady.dot
  intro next isNext
  rcases MultiBanner.onReload_cases steady.loops some isDot populates with
    ⟨_, _, fails⟩ | ⟨several, _, reloads⟩ | ⟨_, reloads⟩
  · exact fails next isNext
  · have pages : ((banner.filled list).dotted dot).mListAdd ≠ [] := by
      have count : (looped list).length = list.length + 2 := by
        rw [length_looped, if_neg (not_lt.mpr several)]
      exact List.length_pos_iff.mp (count ▸ Nat.succ_pos _)
    rw [reloads, MultiBanner.reshown_of_unready pages unready] at isNext
    cases isNext
  · have pages : ((banner.filled list).undotted list).mListAdd ≠ [] := some
    rw [reloads, MultiBanner.reshown_of_unready pages unready] at isNext
    cases isNext

theorem not_right_of_ne_ok {outcome : Except Failure (MultiBanner T)}
    (fails : ∀ next, outcome ≠ .ok next) : ¬Right page outcome := by
  cases outcome with
  | error failure => exact id
  | ok next => exact absurd rfl (fails next)

/-- A page that is held keeps its item, and it is right if that is the item of
its place in the new list. -/
theorem Held.reload_exact (held : Held page banner) (steady : Steady next)
    (isLaid : next.adapter ≠ none)
    (sameItems : next.mViewPager.mItems = banner.mViewPager.mItems)
    {list : List T} {populates : Bool} (isList : next.mList = list)
    (some : list ≠ [])
    (mayPopulate : populates = true → banner.mViewPager.mCurItem = 0 ∨
      2 ≤ list.length)
    (fits : Fits (.ok banner) (.reload list populates)) :
    Exact page (.ok next) (Proper page (.ok banner) (.reload list populates))
      := by
  obtain ⟨adapter, isAdapter⟩ := Option.ne_none_iff_exists'.mp isLaid
  have padded : next.mListAdd = looped list := by
    rw [(steady.laid adapter isAdapter).padded, isList]
  have shown {made : Page T}
      (isHeld : (page, made) ∈ banner.mViewPager.mItems)
      (isPage : page < (looped list).length) :
      made.Shows list (shownAt list.length page) ↔
        list[page - 1]? = Option.some made.data := by
    have known := held made isHeld
    have iff := @HeldPage.shows_iff T page next made known.notFirst
      known.position known.pageClick (by rw [isList]; exact isPage)
    rwa [isList] at iff
  refine ⟨(steady.inStep_iff page).trans ?_, fun proper => ⟨steady, ?_⟩⟩
  · rw [sameItems, padded, isList]
    constructor
    · intro bound
      exact ⟨fits, fun _ _ made isHeld isPage =>
        (shown isHeld isPage).mp (bound made isHeld isPage)⟩
    · intro proper made isHeld isPage
      exact (shown isHeld isPage).mpr
        (proper.keeps some mayPopulate made isHeld isPage)
  · intro made isHeld
    rw [sameItems] at isHeld
    have known := held made isHeld
    refine ⟨isLaid, known.notFirst, known.position, known.pageClick,
      fun isPage => ?_⟩
    rw [padded] at isPage
    rw [isList]
    exact proper.keeps some mayPopulate made isHeld isPage

/-- Step lemma: a reload. -/
theorem reload_exact (steady : Steady banner) (held : Held page banner)
    {list : List T} (some : list ≠ []) {populates : Bool}
    (mayPopulate : populates = true → banner.mViewPager.mCurItem = 0 ∨
      2 ≤ list.length) :
    Exact page (banner.onReload list populates)
      (Proper page (.ok banner) (.reload list populates)) := by
  by_cases ready : ∃ adapter, banner.adapter = Option.some adapter ∧
      adapter.holderCreator = true
  · obtain ⟨adapter, isAdapter, created⟩ := ready
    have laid := steady.laid adapter isAdapter
    obtain ⟨dot, isDot, isPrevious⟩ := steady.dot
    rcases MultiBanner.onReload_cases steady.loops some isDot populates with
      ⟨several, outside, fails⟩ | ⟨several, inside, reloads⟩ |
        ⟨single, reloads⟩
    · exact exact_of_not (not_right_of_ne_ok fails) fun proper =>
        outside ((proper.fits some mayPopulate).2.1 several)
    · obtain ⟨next, isNext, isSteady, isLaid, isList, sameItems⟩ :=
        laid.reload_several steady isAdapter created several isDot isPrevious
          inside populates
      rw [reloads, isNext]
      refine held.reload_exact isSteady isLaid sameItems isList some
        mayPopulate fun _ _ => ⟨⟨adapter, isAdapter, created⟩, fun _ => ?_,
          fun isOne => ?_⟩
      · rw [isDot]
        exact_mod_cast inside
      · omega
    · have sameAdapter : ((banner.filled list).undotted list).adapter =
          Option.some adapter := isAdapter
      have shows_ := MultiBanner.reshown_of_single sameAdapter laid.loops
        created single rfl laid.listened fun populated : populates = true =>
          (mayPopulate populated).resolve_right (by omega)
      rw [reloads, shows_]
      by_cases near : banner.mViewPager.mCurItem ≤ 1
      · have isLaid : ((banner.filled list).undotted list).adapter ≠ none :=
          fun unlaid =>
            Option.some_ne_none adapter (sameAdapter.symm.trans unlaid)
        rw [if_pos (show
          ((banner.filled list).undotted list).mViewPager.mCurItem ≤ 1
            from near)]
        exact held.reload_exact
          (laid.reload_single steady isAdapter created single near) isLaid rfl
          rfl some mayPopulate fun _ _ => ⟨⟨adapter, isAdapter, created⟩,
            fun several => absurd several (by omega), fun _ => near⟩
      · have far : ¬((banner.filled list).undotted
            list).mViewPager.mCurItem ≤ 1 := near
        rw [if_neg far]
        exact exact_of_not id fun proper =>
          near ((proper.fits some mayPopulate).2.2 single)
  · exact exact_of_not (not_right_of_ne_ok
      (steady.reload_unready ready some populates)) fun proper =>
        ready (proper.fits some mayPopulate).1

end Steps

/-! ## Any history -/

section History

variable {state next : Except Failure (MultiBanner T)} {event : Event T}

theorem inv_new (page : Nat) : Inv page (.ok (.new : MultiBanner T)) := by
  refine ⟨⟨rfl, fun some => absurd rfl some, ⟨0, rfl, rfl⟩,
    fun _ => ⟨rfl, rfl⟩, fun adapter isAdapter => ?_⟩,
    held_of_no_items rfl⟩
  cases isAdapter

/-- Step lemma: every event. -/
theorem step_exact {page : Nat} (inv : Inv page state)
    (stepped : runs.step state event = some next) :
    Exact page next (Proper page state event) := by
  cases state with
  | error failure => exact absurd inv id
  | ok banner =>
      obtain ⟨steady, held⟩ := inv
      cases event with
      | setPages list holderCreator =>
          obtain ⟨some, isNext⟩ := Option.ite_none_right_eq_some.mp stepped
          rw [← Option.some_inj.mp isNext]
          exact setPages_exact steady held some holderCreator
      | layout =>
          rw [← Option.some_inj.mp stepped]
          exact layout_exact steady page
      | select position =>
          obtain ⟨isPage, isNext⟩ := Option.ite_none_right_eq_some.mp stepped
          rw [← Option.some_inj.mp isNext]
          exact select_exact steady held isPage
      | reload list populates =>
          obtain ⟨⟨some, mayPopulate⟩, isNext⟩ :=
            Option.ite_none_right_eq_some.mp stepped
          rw [← Option.some_inj.mp isNext]
          exact reload_exact steady held some mayPopulate
      | instantiate position =>
          obtain ⟨adapter, isAdapter, isStep⟩ :=
            Option.bind_eq_some_iff.mp stepped
          obtain ⟨⟨isPage, isNew⟩, isNext⟩ :=
            Option.ite_none_right_eq_some.mp isStep
          rw [← Option.some_inj.mp isNext]
          exact instantiate_exact steady held isAdapter isPage isNew
      | destroy position =>
          rw [← Option.some_inj.mp stepped]
          exact destroy_exact steady held position

/-- What cannot happen is proper. -/
theorem proper_of_none {page : Nat}
    (impossible : runs.step state event = none) :
    Proper page state event := by
  cases state with
  | error failure => exact ⟨trivial, trivial⟩
  | ok banner =>
      cases event with
      | setPages list holderCreator =>
          refine ⟨fun some => ?_, trivial⟩
          simp [runs, some] at impossible
      | layout => cases impossible
      | select position =>
          refine ⟨fun isPage => ?_, trivial⟩
          simp [runs, isPage] at impossible
      | reload list populates =>
          have never (some : list ≠ []) (mayPopulate : populates = true →
              banner.mViewPager.mCurItem = 0 ∨ 2 ≤ list.length) : False := by
            simp only [runs] at impossible
            rw [if_pos ⟨some, mayPopulate⟩] at impossible
            cases impossible
          exact ⟨fun some mayPopulate => absurd (never some mayPopulate) id,
            fun some mayPopulate => absurd (never some mayPopulate) id⟩
      | instantiate position =>
          refine ⟨trivial, ?_⟩
          rintro rfl isLaid isPage isNew
          obtain ⟨adapter, isAdapter⟩ := Option.ne_none_iff_exists'.mp isLaid
          simp only [runs, isAdapter, Option.bind_some] at impossible
          rw [if_pos ⟨isPage, isNew⟩] at impossible
          cases impossible
      | destroy position => cases impossible

end History

/-- For a page, the banner is right along a run exactly when each step of the
run is a proper one. -/
theorem right_iff_proper (page : Nat) (history : List (Event T)) :
    runs.Along (runs.Leads (Right page)) history ↔
      runs.Along (Proper page) history :=
  Guarded.along_leads_iff (Inv page) (inv_new page)
    (fun _ _ _ inv proper stepped => (step_exact inv stepped).2 proper)
    (fun _ _ _ inv stepped => (step_exact inv stepped).1)
    fun _ _ impossible => proper_of_none impossible

/-- The first page has the last item, but not its index; where the dot of the
last item is checked two items are too few; and a page that is held keeps the
item of the old list. -/
theorem threeItems_not_right :
    ¬runs.Along (runs.Leads (Right 0))
        [.setPages ['a', 'b', 'c'] true, .layout, .instantiate 0] ∧
      ¬runs.Along (runs.Leads (Right 1))
        [.setPages ['a', 'b', 'c'] true, .layout, .select 3,
          .reload ['a', 'b'] false] ∧
      ¬runs.Along (runs.Leads (Right 1))
        [.setPages ['a', 'b', 'c'] true, .layout, .instantiate 1,
          .reload ['x', 'y', 'z'] false] := by
  refine ⟨fun along => ?_, fun along => ?_, fun along => ?_⟩
  · have right := along [.setPages ['a', 'b', 'c'] true, .layout]
      (.instantiate 0) [] _ rfl rfl _ rfl
    have shows_ := right.bound _ List.mem_cons_self (by decide)
    exact absurd shows_.position (by decide)
  · exact along [.setPages ['a', 'b', 'c'] true, .layout, .select 3]
      (.reload ['a', 'b'] false) [] _ rfl rfl _ rfl
  · have right := along [.setPages ['a', 'b', 'c'] true, .layout,
      .instantiate 1] (.reload ['x', 'y', 'z'] false) [] _ rfl rfl _ rfl
    have shows_ := right.bound _ List.mem_cons_self (by decide)
    exact absurd shows_.data (by decide)

end DripStone.Banner
