import DripStone.Library.JavaText
import DripStone.Paging.PageCounter

/-!
# `MvvmBaseViewModel`

A view model is the listener of one model and turns its notifications into a
list of items and a view status.  A `Screen` is a model whose only listener is
its view model.
-/

namespace DripStone.Paging

open DripStone.Library

inductive ViewStatus where
  | loading
  | empty
  | showContent
  | noMoreData
  | refreshError
  | loadMoreFailed
deriving DecidableEq, Repr

structure MvvmBaseViewModel (D : Type) where
  dataList : List D
  viewStatus : ViewStatus
  errorMessage : String
deriving DecidableEq, Repr

namespace MvvmBaseViewModel

variable {D : Type}

def create : MvvmBaseViewModel D where
  dataList := []
  viewStatus := .loading
  errorMessage := ""

/-- The view model after a notification, and the exception that ended it. -/
abbrev Outcome (D : Type) := MvvmBaseViewModel D × Option ArrayFailure

/-- `onLoadFinish` of a paging model. -/
def finishPage (view : MvvmBaseViewModel D) (data : List D)
    (result : PagingResult) : MvvmBaseViewModel D :=
  let view :=
    if result.isFirstPage then { view with dataList := [] } else view
  if result.isEmpty then
    if result.isFirstPage then
      { view with viewStatus := .empty }
    else
      { view with viewStatus := .noMoreData }
  else
    { view with
      dataList := view.dataList ++ data
      viewStatus := .showContent }

/-- `onLoadFinish`; `sameModel` is `model == this.model`.  Without a paging
result `pagingResult[0]` fails. -/
def onLoadFinish (view : MvvmBaseViewModel D) (sameModel isPaging : Bool)
    (data : List D) (pagingResult : Option PagingResult) : Outcome D :=
  if sameModel then
    if isPaging then
      match pagingResult with
      | some result => (view.finishPage data result, none)
      | none => (view, some .arrayIndexOutOfBoundsException)
    else
      ({ view with dataList := data, viewStatus := .showContent }, none)
  else
    (view, none)

/-- `onLoadFail`. -/
def onLoadFail (view : MvvmBaseViewModel D) (isPaging : Bool)
    (prompt : String) (pagingResult : Option PagingResult) : Outcome D :=
  let view := { view with errorMessage := prompt }
  if isPaging then
    match pagingResult with
    | some result =>
        if !result.isFirstPage then
          ({ view with viewStatus := .loadMoreFailed }, none)
        else
          ({ view with viewStatus := .refreshError }, none)
    | none => (view, some .arrayIndexOutOfBoundsException)
  else
    ({ view with viewStatus := .refreshError }, none)

end MvvmBaseViewModel

/-- The answer to a `load()`. -/
inductive Answer (F : Type) where
  | success (bean : F)
  | failure (errorMessage : String)
deriving DecidableEq, Repr

/-- A model and the view model registered with it. -/
structure Screen (D : Type) where
  model : MvvmBaseModel
  self : ListenerRef
  view : MvvmBaseViewModel D

namespace Screen

variable {F D : Type}

/-- A new view model registers with its new model. -/
def create (model : MvvmBaseModel) (self : ListenerRef) : Screen D where
  model := model.register (some self)
  self := self
  view := MvvmBaseViewModel.create

/-- One notification of the model. -/
def receive (screen : Screen D) :
    Event F D → MvvmBaseViewModel.Outcome D
  | .onLoadFinish listener data pagingResult =>
      if listener = screen.self then
        screen.view.onLoadFinish true screen.model.mIsPaging data pagingResult
      else (screen.view, none)
  | .onLoadFail listener prompt pagingResult =>
      if listener = screen.self then
        screen.view.onLoadFail screen.model.mIsPaging prompt pagingResult
      else (screen.view, none)
  | .setString _ _ => (screen.view, none)

/-- The notifications of one load, up to the first exception. -/
def deliver (screen : Screen D) : List (Event F D) → Screen D
  | [] => screen
  | event :: rest =>
      let outcome := screen.receive event
      let screen := { screen with view := outcome.1 }
      match outcome.2 with
      | none => screen.deliver rest
      | some _ => screen

/-- The model loads and notifies. -/
def handle (screen : Screen D)
    (load : MvvmBaseModel × List (Event F D)) : Screen D :=
  deliver { screen with model := load.1 } load.2

/-- What a model does with an answer: its `onSuccess` turns the bean into
items, its `onFailure` passes the message on. -/
def load (items : F → List D) (screen : Screen D) (isFromCache : Bool) :
    Answer F → MvvmBaseModel × List (Event F D)
  | .success bean =>
      screen.model.loadSuccess (some bean) (items bean) isFromCache
  | .failure errorMessage => screen.model.loadFail errorMessage

def respond (items : F → List D) (screen : Screen D) (isFromCache : Bool)
    (answer : Answer F) : Screen D :=
  screen.handle (screen.load items isFromCache answer)

/-! ## One answer -/

/-- The view model is the only live listener. -/
def Alone (screen : Screen D) : Prop := screen.model.live = [screen.self]

theorem alone_create (model : MvvmBaseModel) (self : ListenerRef)
    (queue : model.mReferenceQueue = [])
    (list : model.mWeakListenerArrayList = []) :
    Alone (create model self : Screen D) := by
  simp [Alone, create, MvvmBaseModel.register, MvvmBaseModel.live, queue,
    list]

section Answers

variable {items : F → List D} {screen : Screen D} {isFromCache : Bool}
  {bean : F}

/-- The paging result of a successful load. -/
def successResult (isRefresh : Bool) (data : List D) (isFromCache : Bool) :
    PagingResult :=
  if isFromCache then ⟨false, true, true⟩
  else ⟨data.isEmpty, isRefresh, 0 < data.length⟩

private theorem deliver_saves (screen : Screen D) (model : MvvmBaseModel)
    (due : Bool) :
    screen.deliver
        (if due then model.saveDataToCache (some bean) else [] :
          List (Event F D)) =
      screen := by
  cases due <;> rfl

theorem load_success_of_paging (alone : Alone screen)
    (paging : screen.model.mIsPaging = true) :
    screen.load items isFromCache (.success bean) =
      (screen.model.withPageNumber
          (screen.model.countedFrom +
            MvvmBaseModel.counted (items bean) isFromCache),
        screen.model.loadEvents (some bean) (items bean) isFromCache
          screen.self) := by
  rw [load, MvvmBaseModel.loadSuccess_eq paging, alone,
    List.flatMap_singleton]
  unfold MvvmBaseModel.loopPageNumber MvvmBaseModel.countedFrom
  cases screen.model.isRefresh <;> simp

/-- A paging model answers: the counter moves and a page arrives. -/
theorem respond_success_of_paging (alone : Alone screen)
    (paging : screen.model.mIsPaging = true) :
    screen.respond items isFromCache (.success bean) =
      { screen with
        model := screen.model.withPageNumber
          (screen.model.countedFrom +
            MvvmBaseModel.counted (items bean) isFromCache)
        view := screen.view.finishPage (items bean)
          (successResult screen.model.isRefresh (items bean)
            isFromCache) } := by
  rw [respond, load_success_of_paging alone paging, handle,
    MvvmBaseModel.loadEvents, deliver]
  simp only [receive, MvvmBaseViewModel.onLoadFinish,
    MvvmBaseModel.withPageNumber, paging, if_true]
  exact deliver_saves _ _ _

theorem load_failure (alone : Alone screen) (errorMessage : String) :
    screen.load items isFromCache (.failure errorMessage) =
      (screen.model,
        [.onLoadFail screen.self errorMessage
          (if screen.model.mIsPaging then
            some ⟨true, screen.model.isRefresh, false⟩ else none)]) := by
  rw [load, MvvmBaseModel.loadFail,
    MvvmBaseModel.forEachListener_of_unchanged fun _ => rfl]
  change (_, screen.model.live.flatMap _) = _
  rw [alone, List.flatMap_singleton]

/-- A failure changes the message and the status. -/
theorem respond_failure (alone : Alone screen) (errorMessage : String) :
    screen.respond items isFromCache (.failure errorMessage) =
      { screen with
        view :=
          { screen.view with
            errorMessage := errorMessage
            viewStatus :=
              if screen.model.mIsPaging && !screen.model.isRefresh then
                .loadMoreFailed
              else .refreshError } } := by
  rw [respond, load_failure alone, handle, deliver]
  cases paging : screen.model.mIsPaging <;>
    cases isRefresh : screen.model.isRefresh <;>
      simp [receive, MvvmBaseViewModel.onLoadFail, paging, deliver]

/-- A model without pages answers: the items are replaced. -/
theorem respond_success_of_not_paging (alone : Alone screen)
    (notPaging : screen.model.mIsPaging = false) :
    screen.respond items isFromCache (.success bean) =
      { screen with
        view :=
          { screen.view with
            dataList := items bean
            viewStatus := .showContent } } := by
  have unchanged : ∀ listener,
      MvvmBaseModel.loadSuccessBody (some bean) (items bean) isFromCache
          screen.model listener =
        (screen.model,
          .onLoadFinish listener (items bean) none ::
            if !isEmptyString screen.model.mCachedDataKey then
              screen.model.saveDataToCache (some bean)
            else []) := by
    intro listener
    simp [MvvmBaseModel.loadSuccessBody, notPaging]
  rw [respond, load, MvvmBaseModel.loadSuccess,
    MvvmBaseModel.forEachListener_of_unchanged unchanged]
  change handle screen (screen.model, screen.model.live.flatMap _) = _
  rw [alone, List.flatMap_singleton, handle, deliver]
  simp only [receive, MvvmBaseViewModel.onLoadFinish, notPaging, if_true,
    Bool.false_eq_true, if_false]
  exact deliver_saves _ _ _

end Answers

end Screen

end DripStone.Paging
