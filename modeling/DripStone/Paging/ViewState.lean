import DripStone.Paging.ViewModel

/-!
# The view state of a session

A session starts with `getCachedDataAndLoad` and goes on with refreshes and
next pages, each answered before the next one.  The item list is always the
concatenation of the pages received since the last first page.  The status is
the one of the last load except for two empty answers that the code takes for
content: an empty list from the cache, and any empty list in a model without
pages.
-/

namespace DripStone.Paging

open DripStone.Library

/-- One load of a session. -/
inductive Load (F : Type) where
  /-- `getCachedDataAndLoad` finds a bean. -/
  | cached (bean : F)
  /-- `getCachedDataAndLoad` calls `load()`. -/
  | loaded (answer : Answer F)
  | refresh (answer : Answer F)
  | loadNexPage (answer : Answer F)
deriving DecidableEq, Repr

namespace Load

variable {F : Type}

def answer : Load F → Answer F
  | .cached bean => .success bean
  | .loaded answer => answer
  | .refresh answer => answer
  | .loadNexPage answer => answer

def isFromCache : Load F → Bool
  | .cached _ => true
  | _ => false

/-- The load is one of a first page; a model without pages has no other. -/
def isFirstPage (isPaging : Bool) : Load F → Bool
  | .loadNexPage _ => !isPaging
  | _ => true

end Load

namespace Screen

section Session

variable {F D : Type}

/-- `isRefresh` as the call that sends the request leaves it. -/
def request (screen : Screen D) : Load F → Screen D
  | .cached _ => screen
  | .loaded _ => screen
  | .refresh _ =>
      { screen with model := { screen.model with isRefresh := true } }
  | .loadNexPage _ =>
      { screen with model := { screen.model with isRefresh := false } }

/-- One call with its answer. -/
def step (items : F → List D) (screen : Screen D) (load : Load F) :
    Screen D :=
  (screen.request load).respond items load.isFromCache load.answer

def run (items : F → List D) (screen : Screen D) (loads : List (Load F)) :
    Screen D :=
  loads.foldl (step items) screen

/-- The loads of `getCachedDataAndLoad`, when its `load()` has the answer
`first`. -/
def opening (model : MvvmBaseModel) (json : Json F) (isNeedToUpdate : Bool)
    (saveDataString : Option String) (first : Answer F) : List (Load F) :=
  let cachedData :=
    model.getCachedDataAndLoad json isNeedToUpdate saveDataString
  (cachedData.1.map Load.cached).toList ++
    if cachedData.2 then [.loaded first] else []

/-- A later call: a refresh or a next page. -/
def laterLoad (call : Bool × Answer F) : Load F :=
  if call.1 then .refresh call.2 else .loadNexPage call.2

end Session

/-! ## The law -/

section Law

variable {F D : Type}

/-- The pages received since and including the last first page. -/
def expectedList (isPaging : Bool) (items : F → List D)
    (loads : List (Load F)) : List D :=
  loads.foldl
    (fun pages load =>
      match load.answer with
      | .success bean =>
          (if load.isFirstPage isPaging then [] else pages) ++ items bean
      | .failure _ => pages) []

/-- The status the last load is to leave. -/
def expectedStatus (isPaging : Bool) (items : F → List D)
    (load : Load F) : ViewStatus :=
  match load.answer, load.isFirstPage isPaging with
  | .success bean, true =>
      if (items bean).isEmpty then .empty else .showContent
  | .success bean, false =>
      if (items bean).isEmpty then .noMoreData else .showContent
  | .failure _, true => .refreshError
  | .failure _, false => .loadMoreFailed

/-- The screen after `before` and one more load. -/
structure ViewAgrees (isPaging : Bool) (items : F → List D)
    (screen : Screen D) (before : List (Load F)) (load : Load F) :
    Prop where
  dataList :
    screen.view.dataList = expectedList isPaging items (before ++ [load])
  viewStatus : screen.view.viewStatus = expectedStatus isPaging items load
  content : screen.view.viewStatus = .showContent →
    screen.view.dataList ≠ []

/-- An empty answer is noticed: it does not come from the cache, and the
model has pages. -/
def EmptyNoticed (isPaging : Bool) (items : F → List D) (load : Load F) :
    Prop :=
  ∀ bean, load.answer = .success bean → items bean = [] →
    load.isFromCache = false ∧ isPaging = true

end Law

/-! ## One load -/

section Steps

variable {F D : Type} {items : F → List D} {screen : Screen D}

/-- The screen between two loads: the field still says "first page" as long
as no next page was asked for. -/
structure Between (isPaging : Bool) (items : F → List D) (screen : Screen D)
    (before : List (Load F)) : Prop where
  alone : screen.Alone
  paging : screen.model.mIsPaging = isPaging
  dataList : screen.view.dataList = expectedList isPaging items before
  fresh : (∀ answer, .loadNexPage answer ∉ before) →
    screen.model.isRefresh = true

variable {isPaging : Bool} {before : List (Load F)} {load : Load F}

theorem expectedList_concat :
    expectedList isPaging items (before ++ [load]) =
      match load.answer with
      | .success bean =>
          (if load.isFirstPage isPaging then []
            else expectedList isPaging items before) ++ items bean
      | .failure _ => expectedList isPaging items before := by
  rw [expectedList, List.foldl_append]
  rfl

/-- The field is the kind of the load when it is answered. -/
theorem request_isRefresh (between : Between isPaging items screen before)
    (opens : ∀ answer, load = .loaded answer →
      ∀ next, .loadNexPage next ∉ before)
    (paging : isPaging = true) (notCached : load.isFromCache = false) :
    (screen.request load).model.isRefresh = load.isFirstPage isPaging := by
  subst paging
  cases load with
  | cached bean => simp [Load.isFromCache] at notCached
  | loaded answer => exact between.fresh (opens answer rfl)
  | refresh answer => rfl
  | loadNexPage answer => rfl

theorem finishPage_dataList (view : MvvmBaseViewModel D) (data : List D)
    (isRefresh isFromCache : Bool) :
    (view.finishPage data
        (successResult isRefresh data isFromCache)).dataList =
      (if isFromCache || isRefresh then [] else view.dataList) ++ data := by
  unfold MvvmBaseViewModel.finishPage successResult
  cases isFromCache <;> cases isRefresh <;>
    by_cases empty : data = [] <;> simp [empty]

theorem finishPage_viewStatus (view : MvvmBaseViewModel D) (data : List D)
    (isRefresh isFromCache : Bool) :
    (view.finishPage data
        (successResult isRefresh data isFromCache)).viewStatus =
      if !isFromCache && data.isEmpty then
        if isRefresh then .empty else .noMoreData
      else .showContent := by
  unfold MvvmBaseViewModel.finishPage successResult
  cases isFromCache <;> cases isRefresh <;>
    by_cases empty : data = [] <;> simp [empty]

theorem alone_request (between : Between isPaging items screen before) :
    (screen.request load).Alone ∧
      (screen.request load).model.mIsPaging = isPaging ∧
      (screen.request load).view = screen.view := by
  cases load <;> exact ⟨between.alone, between.paging, rfl⟩

theorem isFirstPage_eq (between : Between isPaging items screen before)
    (opens : ∀ answer, load = .loaded answer →
      ∀ next, .loadNexPage next ∉ before)
    (paging : isPaging = true) :
    (load.isFromCache || (screen.request load).model.isRefresh) =
      load.isFirstPage isPaging := by
  cases cached : load.isFromCache with
  | false =>
      rw [Bool.false_or, request_isRefresh between opens paging cached]
  | true => cases load <;> simp_all [Load.isFromCache, Load.isFirstPage]

/-- The item list and the status after one load. -/
theorem step_view (between : Between isPaging items screen before)
    (opens : ∀ answer, load = .loaded answer →
      ∀ next, .loadNexPage next ∉ before) :
    (screen.step items load).view.dataList =
        expectedList isPaging items (before ++ [load]) ∧
      (screen.step items load).view.viewStatus =
        match load.answer with
        | .success bean =>
            if isPaging && !load.isFromCache && (items bean).isEmpty then
              if load.isFirstPage isPaging then .empty else .noMoreData
            else .showContent
        | .failure _ =>
            if load.isFirstPage isPaging then .refreshError
            else .loadMoreFailed := by
  obtain ⟨alone, paging, sameView⟩ :=
    @alone_request F D items screen isPaging before load between
  rw [expectedList_concat, ← between.dataList, step, ← sameView]
  cases answered : load.answer with
  | failure errorMessage =>
      rw [respond_failure alone, paging]
      refine ⟨rfl, ?_⟩
      cases isPaging with
      | false => cases load <;> rfl
      | true =>
          have notCached : load.isFromCache = false := by
            cases load <;> simp_all [Load.isFromCache, Load.answer]
          dsimp only
          rw [request_isRefresh between opens rfl notCached]
          cases load.isFirstPage true <;> rfl
  | success bean =>
      cases isPaging with
      | false =>
          rw [respond_success_of_not_paging alone paging]
          refine ⟨?_, rfl⟩
          cases load <;> rfl
      | true =>
          have kind := isFirstPage_eq between opens rfl
          rw [respond_success_of_paging alone paging]
          dsimp only
          rw [finishPage_dataList, finishPage_viewStatus, kind]
          refine ⟨rfl, ?_⟩
          cases cached : load.isFromCache with
          | true => rfl
          | false =>
              rw [cached, Bool.false_or] at kind
              rw [kind]
              rfl

/-- Step lemma: the session goes on. -/
theorem Between.step (between : Between isPaging items screen before)
    (opens : ∀ answer, load = .loaded answer →
      ∀ next, .loadNexPage next ∉ before) :
    Between isPaging items (screen.step items load) (before ++ [load]) := by
  obtain ⟨alone, paging, _⟩ :=
    @alone_request F D items screen isPaging before load between
  have view := step_view between opens
  have unchanged : (screen.step items load).Alone ∧
      (screen.step items load).model.mIsPaging = isPaging ∧
      (screen.step items load).model.isRefresh =
        (screen.request load).model.isRefresh := by
    rw [Screen.step]
    cases load.answer with
    | failure errorMessage =>
        rw [respond_failure alone]
        exact ⟨alone, paging, rfl⟩
    | success bean =>
        cases isPaging with
        | false =>
            rw [respond_success_of_not_paging alone paging]
            exact ⟨alone, paging, rfl⟩
        | true =>
            rw [respond_success_of_paging alone paging]
            exact ⟨alone, paging, rfl⟩
  refine ⟨unchanged.1, unchanged.2.1, view.1, ?_⟩
  intro noNext
  rw [unchanged.2.2]
  have noNextBefore : ∀ answer, .loadNexPage answer ∉ before :=
    fun answer member => noNext answer (List.mem_append_left _ member)
  cases load with
  | cached bean => exact between.fresh noNextBefore
  | loaded answer => exact between.fresh noNextBefore
  | refresh answer => rfl
  | loadNexPage answer =>
      exact absurd (List.mem_append_right before
        (List.mem_singleton_self _)) (noNext answer)

/-- One load leaves the view it should exactly when an empty answer is
noticed. -/
theorem viewAgrees_iff (between : Between isPaging items screen before)
    (opens : ∀ answer, load = .loaded answer →
      ∀ next, .loadNexPage next ∉ before) :
    ViewAgrees isPaging items (screen.step items load) before load ↔
      EmptyNoticed isPaging items load := by
  obtain ⟨dataList, viewStatus⟩ := step_view between opens
  have cachedFirst : load.isFromCache = true →
      load.isFirstPage isPaging = true := by
    cases load <;> simp [Load.isFromCache, Load.isFirstPage]
  have unpagedFirst : isPaging = false →
      load.isFirstPage isPaging = true := by
    rintro rfl
    cases load <;> rfl
  constructor
  · intro agrees bean answered empty
    have status := agrees.viewStatus
    rw [viewStatus, expectedStatus, answered] at status
    simp only [empty, List.isEmpty_nil, Bool.and_true] at status
    cases cached : load.isFromCache with
    | true => simp [cached, cachedFirst cached, empty] at status
    | false =>
        cases isPaging with
        | true => exact ⟨rfl, rfl⟩
        | false => simp [unpagedFirst rfl, empty] at status
  · intro noticed
    have status : (screen.step items load).view.viewStatus =
        expectedStatus isPaging items load := by
      rw [viewStatus, expectedStatus]
      cases answered : load.answer with
      | failure errorMessage =>
          cases load.isFirstPage isPaging <;> rfl
      | success bean =>
          by_cases empty : items bean = []
          · obtain ⟨notCached, paged⟩ := noticed bean answered empty
            cases first : load.isFirstPage isPaging <;>
              simp [notCached, paged, empty]
          · cases load.isFirstPage isPaging <;> simp [empty]
    refine ⟨dataList, status, ?_⟩
    intro content
    rw [status, expectedStatus] at content
    rw [dataList, expectedList_concat]
    cases answered : load.answer with
    | failure errorMessage =>
        rw [answered] at content
        cases first : load.isFirstPage isPaging <;> simp [first] at content
    | success bean =>
        rw [answered] at content
        have notEmpty : items bean ≠ [] := by
          intro empty
          cases first : load.isFirstPage isPaging <;>
            simp [first, empty] at content
        simp [notEmpty]

end Steps

/-! ## Sessions -/

section Sessions

variable {F D : Type} {items : F → List D}

/-- The answer to the first `load()` comes before any next page. -/
def LoadedFirst (loads : List (Load F)) : Prop :=
  AtEvery (fun before load => ∀ answer, load = .loaded answer →
    ∀ next, .loadNexPage next ∉ before) loads

theorem loadedFirst_session (model : MvvmBaseModel) (json : Json F)
    (isNeedToUpdate : Bool) (saveDataString : Option String)
    (first : Answer F) (later : List (Bool × Answer F)) :
    LoadedFirst
      (opening model json isNeedToUpdate saveDataString first ++
        later.map laterLoad) := by
  rintro before _ after split answer rfl next member
  rcases List.append_eq_append_iff.mp split with
    ⟨middle, _, inLater⟩ | ⟨middle, inOpening, _⟩
  · have isLater : .loaded answer ∈ later.map laterLoad := by
      rw [inLater]
      exact List.mem_append_right _ List.mem_cons_self
    obtain ⟨call, _, same⟩ := List.mem_map.mp isLater
    unfold laterLoad at same
    split_ifs at same
  · have isOpening : .loadNexPage next ∈
        opening model json isNeedToUpdate saveDataString first := by
      rw [inOpening]
      exact List.mem_append_left _ member
    unfold opening at isOpening
    rcases List.mem_append.mp isOpening with isCached | isLoaded
    · simp at isCached
    · split_ifs at isLoaded <;> simp at isLoaded

/-- The screen of a new model. -/
def start (D : Type) (isPaging : Bool)
    (cacheDataKey apkPredefinedData : Option String)
    (initPageNumber : List Int) : Screen D :=
  create (.create isPaging cacheDataKey apkPredefinedData initPageNumber) 0

/-- Run lemma: between any two loads the list is the expected one. -/
theorem between_run (isPaging : Bool)
    (cacheDataKey apkPredefinedData : Option String)
    (initPageNumber : List Int) {loads : List (Load F)}
    (loadedFirst : LoadedFirst loads) :
    Between isPaging items
      (run items (start D isPaging cacheDataKey apkPredefinedData
        initPageNumber) loads) loads := by
  refine AtEvery.induction
    (motive := fun loads => Between isPaging items
      (run items (start D isPaging cacheDataKey apkPredefinedData
        initPageNumber) loads) loads) loadedFirst ?_ ?_
  · exact ⟨alone_create _ _ rfl rfl, rfl, rfl, fun _ => rfl⟩
  · intro before load between opens
    rw [run, List.foldl_append]
    exact between.step opens

/-- The loads of a session on a new model. -/
def session (isPaging : Bool)
    (cacheDataKey apkPredefinedData : Option String)
    (initPageNumber : List Int) (json : Json F) (isNeedToUpdate : Bool)
    (saveDataString : Option String) (first : Answer F)
    (later : List (Bool × Answer F)) : List (Load F) :=
  opening (.create isPaging cacheDataKey apkPredefinedData initPageNumber)
      json isNeedToUpdate saveDataString first ++
    later.map laterLoad

/-- The view agrees with the history after every load of a session exactly
when every empty answer is noticed. -/
theorem view_agrees_iff_empty_noticed (isPaging : Bool)
    (cacheDataKey apkPredefinedData : Option String)
    (initPageNumber : List Int) (json : Json F) (isNeedToUpdate : Bool)
    (saveDataString : Option String) (first : Answer F)
    (later : List (Bool × Answer F)) (items : F → List D) :
    AtEvery (fun before load =>
        ViewAgrees isPaging items
          (run items (start D isPaging cacheDataKey apkPredefinedData
            initPageNumber) (before ++ [load])) before load)
        (session isPaging cacheDataKey apkPredefinedData initPageNumber json
          isNeedToUpdate saveDataString first later) ↔
      ∀ load ∈ session isPaging cacheDataKey apkPredefinedData
          initPageNumber json isNeedToUpdate saveDataString first later,
        EmptyNoticed isPaging items load := by
  have loadedFirst := loadedFirst_session
    (.create isPaging cacheDataKey apkPredefinedData initPageNumber)
    json isNeedToUpdate saveDataString first later
  change LoadedFirst (session isPaging cacheDataKey apkPredefinedData
    initPageNumber json isNeedToUpdate saveDataString first later)
    at loadedFirst
  generalize session isPaging cacheDataKey apkPredefinedData initPageNumber
    json isNeedToUpdate saveDataString first later = loads at loadedFirst ⊢
  have each : ∀ before load after, loads = before ++ load :: after →
      (ViewAgrees isPaging items
          (run items (start D isPaging cacheDataKey apkPredefinedData
            initPageNumber) (before ++ [load])) before load ↔
        EmptyNoticed isPaging items load) := by
    rintro before load after rfl
    have opens := loadedFirst before load after rfl
    rw [run, List.foldl_append]
    exact viewAgrees_iff
      (between_run isPaging cacheDataKey apkPredefinedData initPageNumber
        loadedFirst.of_append) opens
  constructor
  · intro agrees load member
    obtain ⟨before, after, split⟩ := List.append_of_mem member
    exact (each before load after split).mp (agrees before load after split)
  · intro noticed before load after split
    refine (each before load after split).mpr (noticed load ?_)
    rw [split]
    exact List.mem_append_right _ List.mem_cons_self

/-- An empty list in the cache: content is shown and the list is empty. -/
theorem empty_cache_shown_as_content :
    ¬ AtEvery (fun before load =>
        ViewAgrees true id
          (run id (start Unit true (some "key") none [])
            (before ++ [load])) before load)
        (session true (some "key") none [] ⟨some, fun _ => some []⟩ true
          (some "[]") (.failure "") []) := by
  intro agrees
  have here := agrees [] (.cached []) [.loaded (.failure "")] rfl
  exact here.content rfl rfl

end Sessions

end Screen

end DripStone.Paging
