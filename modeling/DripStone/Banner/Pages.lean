import DripStone.Banner.MultiBanner
import DripStone.Library.Fallible
import DripStone.Library.Looped

/-!
# Pages

The padded list of a banner that loops, what is made from it for a page, and
how the page that is selected comes to have its dot.
-/

namespace DripStone.Banner

open DripStone.Library

variable {T : Type}

theorem get_natCast (list : List T) (index : Nat) :
    get list index = match list[index]? with
      | some item => .ok item
      | none => .error .indexOutOfBoundsException := by
  have nonnegative : ¬(index : Int) < 0 := by omega
  exact if_neg nonnegative

theorem get_eq_ok {list : List T} {index : Nat} {item : T} :
    get list index = .ok item ↔ list[index]? = some item := by
  rw [get_natCast]
  cases list[index]? with
  | none => simp
  | some other => simp

theorem setChecked_of_lt {dots : List Bool} {index : Nat}
    (inside : index < dots.length) (checked : Bool) :
    setChecked dots index checked = .ok (dots.set index checked) := by
  rw [setChecked, if_pos (by omega), Int.toNat_natCast]

theorem setChecked_nil (index : Int) (checked : Bool) :
    setChecked [] index checked = .error .indexOutOfBoundsException := by
  rw [setChecked, if_neg]
  simp only [List.length_nil, Int.natCast_zero]
  omega

/-! ## The padded list -/

theorem added_eq_ok {banner : MultiBanner T} {i : Nat} {item : T}
    (several : 2 ≤ banner.mList.length) (inLoop : i < banner.mList.length + 2)
    (shown : banner.mList[shownAt banner.mList.length i]? = some item) :
    banner.added i = .ok item := by
  rw [MultiBanner.added]
  split
  · next isZero =>
      rw [isZero, shownAt_zero (by omega)] at shown
      rw [show (banner.mList.length - 1 : Int) =
        ((banner.mList.length - 1 : Nat) : Int) by omega]
      exact get_eq_ok.mpr shown
  · next notZero =>
      split
      · next isEnd =>
          rw [isEnd, shownAt_end (by omega)] at shown
          exact get_eq_ok.mpr shown
      · next notEnd =>
          obtain ⟨previous, isNext⟩ := Nat.exists_eq_succ_of_ne_zero notZero
          rw [isNext, Nat.succ_eq_add_one, shownAt_succ (by omega)] at shown
          rw [isNext, show ((previous.succ : Nat) - 1 : Int) =
            (previous : Int) by omega]
          exact get_eq_ok.mpr shown

/-- Spec lemma: two or more items are padded to the pages that can be walked
around. -/
theorem createData_eq {banner : MultiBanner T}
    (loops : banner.isCanLoop = true) (several : 2 ≤ banner.mList.length) :
    banner.createData = .ok { banner with
      mListAdd := looped banner.mList
      currentPosition := 1 } := by
  have count : (looped banner.mList).length = banner.mList.length + 2 := by
    rw [length_looped, if_neg (not_lt.mpr several)]
  have isAdded : (List.range (banner.mList.length + 2)).mapM banner.added =
      .ok (looped banner.mList) := by
    rw [mapM_eq_ok_iff, List.forall₂_iff_get]
    refine ⟨by simp [count], fun i inRange isPage => ?_⟩
    have shown := getElem?_looped isPage
    rw [List.getElem?_eq_getElem isPage] at shown
    simp only [List.get_eq_getElem, List.getElem_range]
    exact added_eq_ok several (count ▸ isPage) shown.symm
  rw [MultiBanner.createData, if_pos loops, isAdded]
  rfl

/-! ## What is made for a page -/

/-- Spec lemma: the page of a banner that loops.  It has the item of its
place, but at the two ends other indices than that item. -/
theorem getView_eq_ok {adapter : MultiPagerAdapter} {list : List T}
    {position : Nat} (loops : adapter.isCanLoop = true)
    (created : adapter.holderCreator = true)
    (isPage : position < list.length) :
    ∃ made, adapter.getView list position = .ok made ∧
      list[position]? = some made.data ∧
      made.position =
        (if position = 0 then (list.length : Int) - 1
        else if position = list.length - 1 then 0 else position - 1) ∧
      made.pageClick = position - 1 := by
  obtain ⟨item, isItem⟩ : ∃ item, list[position]? = some item :=
    ⟨_, List.getElem?_eq_getElem isPage⟩
  have found : get list position = .ok item := get_eq_ok.mpr isItem
  have nonempty : ¬list.isEmpty = true := by
    intro isEmpty
    rw [List.isEmpty_iff.mp isEmpty] at isPage
    cases isPage
  rw [MultiPagerAdapter.getView, if_neg (not_not.mpr created),
    if_neg nonempty, if_pos loops, imageClick, if_pos loops]
  by_cases isZero : position = 0
  · rw [isZero, Nat.cast_zero] at found
    rw [if_pos (by omega), found, if_pos isZero]
    exact ⟨_, rfl, isItem, rfl, rfl⟩
  · rw [if_neg (by omega), if_neg isZero]
    by_cases isEnd : position = list.length - 1
    · rw [show (position : Int) = list.length - 1 by omega] at found
      rw [if_pos (by omega), found, if_pos isEnd]
      exact ⟨_, rfl, isItem, rfl, rfl⟩
    · rw [if_neg (by omega), found, if_neg isEnd]
      exact ⟨_, rfl, isItem, rfl, rfl⟩

/-! ## The dot of the page that is selected -/

namespace MultiBanner

/-- The banner when one dot is checked. -/
def showing (banner : MultiBanner T) (current : Int) (dot : Nat) :
    MultiBanner T :=
  { banner with
    mDotList := oneAt banner.mList.length dot
    dotPosition := dot
    prePosition := dot
    currentPosition := current }

/-- The dots of two or more items, one of which is checked. -/
structure Dotted (banner : MultiBanner T) (dot : Nat) : Prop where
  isDot : banner.dotPosition = dot
  isPrevious : banner.prePosition = dot
  isList : banner.mDotList = oneAt banner.mList.length dot
  inside : dot < banner.mList.length

section Selection

variable {banner next : MultiBanner T} {dot target : Nat}

/-- The position to go on from, behind one of the ends. -/
def currentAt (count target : Nat) : Int :=
  if target = 0 then count else if target = count + 1 then 1 else target

/-- Two or more items get dots, with the one checked that was before. -/
theorem setIndicator_of_several (several : 2 ≤ banner.mList.length)
    (isDot : banner.dotPosition = dot) (inside : dot < banner.mList.length) :
    banner.setIndicator = .ok { banner with
      mDotList := oneAt banner.mList.length dot } := by
  have moreThanOne : banner.mList.length > 1 := several
  rw [setIndicator, if_pos moreThanOne, isDot, setChecked_of_lt (by simpa)]
  rfl

theorem setIndicator_of_few (few : ¬2 ≤ banner.mList.length) :
    banner.setIndicator = .ok { banner with mDotList := [] } := by
  have notMore : ¬banner.mList.length > 1 := few
  rw [setIndicator, if_neg notMore]
  rfl

theorem lt_of_setIndicator (several : 2 ≤ banner.mList.length)
    (isNext : banner.setIndicator = .ok next) :
    banner.dotPosition < banner.mList.length := by
  have moreThanOne : banner.mList.length > 1 := several
  rw [setIndicator, if_pos moreThanOne] at isNext
  obtain ⟨dots, isChecked, _⟩ := except_bind_eq_ok.mp isNext
  by_contra outside
  rw [setChecked, if_neg] at isChecked
  · cases isChecked
  · rw [List.length_replicate]
    exact fun inside => outside inside.2

/-- Spec lemma: the dot moves to the item that the page shows. -/
theorem pageSelected_eq (loops : banner.isCanLoop = true)
    (dotted : banner.Dotted dot) (isPage : target < banner.mList.length + 2) :
    banner.pageSelected target = .ok
      (banner.showing (currentAt banner.mList.length target)
        (shownAt banner.mList.length target)) := by
  have some := Nat.zero_lt_of_lt dotted.inside
  have positions :
      (if (target : Int) = 0 then
        ((banner.mList.length : Int), (banner.mList.length : Int) - 1)
      else if (target : Int) = banner.mList.length + 1 then (1, 0)
      else ((target : Int), (target : Int) - 1)) =
        (currentAt banner.mList.length target,
          (shownAt banner.mList.length target : Int)) := by
    rw [currentAt]
    by_cases isZero : target = 0
    · rw [if_pos (by omega), if_pos isZero, isZero, shownAt_zero some]
      exact Prod.ext rfl (by simp only; omega)
    · rw [if_neg (by omega), if_neg isZero]
      by_cases isEnd : target = banner.mList.length + 1
      · rw [if_pos (by omega), if_pos isEnd, isEnd, shownAt_end some]
        rfl
      · obtain ⟨index, isNext⟩ := Nat.exists_eq_succ_of_ne_zero isZero
        rw [if_neg (by omega), if_neg isEnd, isNext, Nat.succ_eq_add_one,
          shownAt_succ (by omega)]
        exact Prod.ext rfl (by simp only; omega)
  have unchecked : setChecked banner.mDotList banner.prePosition false =
      .ok ((oneAt banner.mList.length dot).set dot false) := by
    rw [dotted.isPrevious, dotted.isList]
    exact setChecked_of_lt (by simpa using dotted.inside) false
  have checked : setChecked ((oneAt banner.mList.length dot).set dot false)
      (shownAt banner.mList.length target : Int) true =
        .ok (oneAt banner.mList.length
          (shownAt banner.mList.length target)) := by
    rw [setChecked_of_lt (by simpa using shownAt_lt some target),
      oneAt_set]
  rw [pageSelected, if_pos loops]
  simp only [positions, unchecked]
  simp only [bind, Except.bind, checked]
  rfl

/-- Being told again changes nothing. -/
theorem foldlM_pageSelected_showing (loops : banner.isCanLoop = true)
    (several : 0 < banner.mList.length)
    (isPage : target < banner.mList.length + 2) (times : Nat) :
    (List.replicate times (target : Int)).foldlM pageSelected
        (banner.showing (currentAt banner.mList.length target)
          (shownAt banner.mList.length target)) = .ok
      (banner.showing (currentAt banner.mList.length target)
        (shownAt banner.mList.length target)) := by
  induction times with
  | zero => rfl
  | succ times inductionHypothesis =>
      have again :
          (banner.showing (currentAt banner.mList.length target)
            (shownAt banner.mList.length target)).pageSelected target = .ok
              (banner.showing (currentAt banner.mList.length target)
                (shownAt banner.mList.length target)) :=
        pageSelected_eq loops
          ⟨rfl, rfl, rfl, shownAt_lt several target⟩ isPage
      rw [List.replicate_succ, List.foldlM_cons, again]
      exact inductionHypothesis

theorem dispatchOnPageSelected_eq (loops : banner.isCanLoop = true)
    (dotted : banner.Dotted dot) (isPage : target < banner.mList.length + 2)
    (listened : banner.mViewPager.mOnPageChangeListeners ≠ 0) :
    banner.dispatchOnPageSelected target = .ok
      (banner.showing (currentAt banner.mList.length target)
        (shownAt banner.mList.length target)) := by
  obtain ⟨times, isCount⟩ := Nat.exists_eq_succ_of_ne_zero listened
  rw [dispatchOnPageSelected, isCount, List.replicate_succ,
    List.foldlM_cons, pageSelected_eq loops dotted isPage]
  exact foldlM_pageSelected_showing loops
    (Nat.zero_lt_of_lt dotted.inside) isPage times

theorem dispatchOnPageSelected_of_zero
    (unlistened : banner.mViewPager.mOnPageChangeListeners = 0)
    (position : Int) :
    banner.dispatchOnPageSelected position = .ok banner := by
  rw [dispatchOnPageSelected, unlistened]
  rfl

/-- Without dots there is none to uncheck. -/
theorem pageSelected_of_no_dots (noDots : banner.mDotList = [])
    (position : Int) :
    banner.pageSelected position = .error .indexOutOfBoundsException := by
  rw [pageSelected, noDots]
  simp only [setChecked_nil]
  split
  · rfl
  · rfl

theorem dispatchOnPageSelected_of_no_dots (noDots : banner.mDotList = [])
    (listened : banner.mViewPager.mOnPageChangeListeners ≠ 0)
    (position : Int) :
    banner.dispatchOnPageSelected position =
      .error .indexOutOfBoundsException := by
  obtain ⟨times, isCount⟩ := Nat.exists_eq_succ_of_ne_zero listened
  rw [dispatchOnPageSelected, isCount, List.replicate_succ,
    List.foldlM_cons, pageSelected_of_no_dots noDots]
  rfl

end Selection

end MultiBanner

end DripStone.Banner
