import DripStone.Paging.ViewModel

/-!
# Which request a response belongs to

`refresh` and `loadNexPage` of `NewsListModel` write the kind of the request
into `isRefresh` and send it; the response carries no kind, and its handler
reads the field again.  A response is therefore handled with the kind of the
call made last, and with its own kind exactly when the two agree.
-/

namespace DripStone.Paging

open DripStone.Library

/-! ## `NewsListModel` -/

structure DataBean where
  title : Option String
  url : Option String
  thumbnail_pic_s : Option String
deriving DecidableEq, Repr

/-- The articles of a response, `getResult().getData()`. -/
structure NewsListBean where
  data : List DataBean
deriving DecidableEq, Repr

/-- The two `BaseCustomViewModel`s of a news list. -/
inductive NewsItem where
  | titleView (jumpUri title : Option String)
  | pictureTitleView (jumpUri title avatarUrl : Option String)
deriving DecidableEq, Repr

namespace NewsListModel

def create (channelId : String) : MvvmBaseModel :=
  .create true (some ("pref_key_news_" ++ channelId)) none [0]

/-- The items `onSuccess` builds. -/
def baseViewModels (newsListBean : NewsListBean) : List NewsItem :=
  newsListBean.data.map fun source =>
    if isEmptyString source.thumbnail_pic_s then
      .titleView source.url source.title
    else
      .pictureTitleView source.url source.title source.thumbnail_pic_s

/-- Calls of the model, and the arrival of the response to the request of one
of them, counted from zero. -/
inductive Action where
  | refresh
  | loadNexPage
  | response (request : Nat) (answer : Answer NewsListBean)
deriving DecidableEq, Repr

abbrev NewsScreen := Screen NewsItem

def setRefresh (screen : NewsScreen) (isRefresh : Bool) : NewsScreen :=
  { screen with model := { screen.model with isRefresh := isRefresh } }

/-- `load()` sends a request and changes nothing. -/
def step (screen : NewsScreen) : Action → NewsScreen
  | .refresh => setRefresh screen true
  | .loadNexPage => setRefresh screen false
  | .response _ answer => screen.respond baseViewModels false answer

def run (screen : NewsScreen) (actions : List Action) : NewsScreen :=
  actions.foldl step screen

/-- The view model's `init` without the first load. -/
def opened (channelId : String) : NewsScreen :=
  .create (create channelId) 0

/-! ## The law -/

/-- The kinds of the requests sent, in order: whether `refresh` sent them. -/
def requests (actions : List Action) : List Bool :=
  actions.filterMap fun
    | .refresh => some true
    | .loadNexPage => some false
    | .response _ _ => none

/-- The paging results the view model is given with an answer. -/
def pagingResults (screen : NewsScreen) (answer : Answer NewsListBean) :
    List PagingResult :=
  (screen.load baseViewModels false answer).2.filterMap fun
    | .onLoadFinish _ _ pagingResult => pagingResult
    | .onLoadFail _ _ pagingResult => pagingResult
    | .setString _ _ => none

/-- An answer is handled as the answer to a request of this kind. -/
structure HandledAs (ofRefresh : Bool) (screen : NewsScreen)
    (answer : Answer NewsListBean) : Prop where
  isFirstPage :
    (pagingResults screen answer).map PagingResult.isFirstPage = [ofRefresh]
  pageNumber : ∀ bean, answer = .success bean →
    (screen.respond baseViewModels false answer).model.pageNumber =
      (if ofRefresh then screen.model.resetPageNumber
        else screen.model.pageNumber) +
        MvvmBaseModel.counted (baseViewModels bean) false
  dataList : ∀ bean, answer = .success bean →
    (screen.respond baseViewModels false answer).view.dataList =
      (if ofRefresh then [] else screen.view.dataList) ++
        baseViewModels bean
  failure : ∀ errorMessage, answer = .failure errorMessage →
    (screen.respond baseViewModels false answer).view.dataList =
        screen.view.dataList ∧
      (screen.respond baseViewModels false answer).model.pageNumber =
        screen.model.pageNumber

/-- Every response is handled with the kind of its own request. -/
def OwnKind (start : NewsScreen) (actions : List Action) : Prop :=
  AtEvery (fun before action =>
    ∀ request answer ofRefresh, action = .response request answer →
      (requests before)[request]? = some ofRefresh →
        HandledAs ofRefresh (run start before) answer) actions

/-- Every response arrives while the call made last is of the kind of its own
request. -/
def LastKind (actions : List Action) : Prop :=
  AtEvery (fun before action =>
    ∀ request answer ofRefresh, action = .response request answer →
      (requests before)[request]? = some ofRefresh →
        (requests before).getLast? = some ofRefresh) actions

/-! ## One response -/

section Steps

variable {screen : NewsScreen}

/-- A screen of a paging model whose only listener is its view model. -/
structure Ready (screen : NewsScreen) : Prop where
  alone : screen.Alone
  paging : screen.model.mIsPaging = true

theorem pagingResults_eq (ready : Ready screen)
    (answer : Answer NewsListBean) :
    (pagingResults screen answer).map PagingResult.isFirstPage =
      [screen.model.isRefresh] := by
  cases answer with
  | success bean =>
      rw [pagingResults,
        Screen.load_success_of_paging ready.alone ready.paging,
        MvvmBaseModel.loadEvents, if_neg Bool.false_ne_true]
      split_ifs <;> simp [MvvmBaseModel.saveDataToCache]
  | failure errorMessage =>
      rw [pagingResults, Screen.load_failure ready.alone]
      simp [ready.paging]

theorem handledAs_isRefresh (ready : Ready screen)
    (answer : Answer NewsListBean) :
    HandledAs screen.model.isRefresh screen answer := by
  refine ⟨pagingResults_eq ready answer, ?_, ?_, ?_⟩
  · rintro bean rfl
    rw [Screen.respond_success_of_paging ready.alone ready.paging]
    rfl
  · rintro bean rfl
    rw [Screen.respond_success_of_paging ready.alone ready.paging]
    unfold MvvmBaseViewModel.finishPage Screen.successResult
    cases screen.model.isRefresh <;>
      by_cases empty : baseViewModels bean = [] <;> simp [empty]
  · rintro errorMessage rfl
    rw [Screen.respond_failure ready.alone]
    exact ⟨rfl, rfl⟩

/-- One response is handled with the kind in the field, and no other. -/
theorem handledAs_iff (ready : Ready screen) (ofRefresh : Bool)
    (answer : Answer NewsListBean) :
    HandledAs ofRefresh screen answer ↔
      screen.model.isRefresh = ofRefresh := by
  constructor
  · intro handled
    have same := handled.isFirstPage
    rw [pagingResults_eq ready] at same
    exact List.singleton_inj.mp same
  · rintro rfl
    exact handledAs_isRefresh ready answer

theorem Ready.step (ready : Ready screen) (action : Action) :
    Ready (NewsListModel.step screen action) := by
  cases action with
  | refresh => exact ⟨ready.alone, ready.paging⟩
  | loadNexPage => exact ⟨ready.alone, ready.paging⟩
  | response request answer =>
      rw [NewsListModel.step]
      cases answer with
      | success bean =>
          rw [Screen.respond_success_of_paging ready.alone ready.paging]
          exact ⟨ready.alone, ready.paging⟩
      | failure errorMessage =>
          rw [Screen.respond_failure ready.alone]
          exact ⟨ready.alone, ready.paging⟩

theorem step_response_isRefresh (ready : Ready screen) (request : Nat)
    (answer : Answer NewsListBean) :
    (NewsListModel.step screen (.response request answer)).model.isRefresh =
      screen.model.isRefresh := by
  rw [NewsListModel.step]
  cases answer with
  | success bean =>
      rw [Screen.respond_success_of_paging ready.alone ready.paging]
      rfl
  | failure errorMessage => rw [Screen.respond_failure ready.alone]

end Steps

/-! ## Runs -/

/-- Run lemma: the field holds the kind of the call made last. -/
theorem isRefresh_run {start : NewsScreen} (ready : Ready start)
    (actions : List Action) :
    Ready (run start actions) ∧
      (run start actions).model.isRefresh =
        (requests actions).getLast?.getD start.model.isRefresh := by
  induction actions using List.reverseRecOn with
  | nil => exact ⟨ready, rfl⟩
  | append_singleton before action inductionHypothesis =>
      obtain ⟨readyBefore, kind⟩ := inductionHypothesis
      have moved : run start (before ++ [action]) =
          step (run start before) action := by
        rw [run, List.foldl_append]
        rfl
      rw [moved]
      refine ⟨readyBefore.step action, ?_⟩
      cases action with
      | refresh => simp [requests, step, setRefresh]
      | loadNexPage => simp [requests, step, setRefresh]
      | response request answer =>
          rw [step_response_isRefresh readyBefore, kind]
          simp [requests]

theorem ready_opened (channelId : String) : Ready (opened channelId) :=
  ⟨Screen.alone_create _ _ rfl rfl, rfl⟩

/-- Responses are handled with the kinds of their own requests exactly when
each arrives while the call made last is of its kind. -/
theorem own_kind_iff_last_kind (channelId : String)
    (actions : List Action) :
    OwnKind (opened channelId) actions ↔ LastKind actions := by
  have each : ∀ (before : List Action) (request : Nat)
      (answer : Answer NewsListBean) (ofRefresh : Bool),
      (requests before)[request]? = some ofRefresh →
      (HandledAs ofRefresh (run (opened channelId) before) answer ↔
        (requests before).getLast? = some ofRefresh) := by
    intro before request answer ofRefresh sent
    obtain ⟨ready, kind⟩ := isRefresh_run (ready_opened channelId) before
    rw [handledAs_iff ready, kind]
    cases last : (requests before).getLast? with
    | none =>
        rw [List.getLast?_eq_none_iff.mp last] at sent
        simp at sent
    | some lastKind => simp
  constructor
  · intro own before action after split request answer ofRefresh arrives sent
    exact (each before request answer ofRefresh sent).mp
      (own before action after split request answer ofRefresh arrives sent)
  · intro last before action after split request answer ofRefresh arrives
      sent
    exact (each before request answer ofRefresh sent).mpr
      (last before action after split request answer ofRefresh arrives sent)

/-- `refresh`, then `loadNexPage`; the response to the refresh is handled as a
next page. -/
theorem refresh_handled_as_next_page :
    ¬ OwnKind (opened "top")
        [.refresh, .loadNexPage, .response 0 (.success ⟨[]⟩)] := by
  intro own
  have handled := own [.refresh, .loadNexPage] _ [] rfl 0
    (.success ⟨[]⟩) true rfl rfl
  exact absurd handled.isFirstPage (by decide)

end NewsListModel

end DripStone.Paging
