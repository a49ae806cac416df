import DripStone.Library.Mealy

/-!
# `MvvmBaseModel`

A model answers to the listeners it holds by weak references.  Its `refresh`
and next-page calls set one field, `isRefresh`, and `loadSuccess` and
`loadFail` read it when the response arrives.  `loadSuccess` updates the page
counter and saves the bean inside the loop over the listeners.
-/

namespace DripStone.Paging

open DripStone.Library

/-- Identity of an `IBaseModelListener` object. -/
abbrev ListenerRef := Nat

/-- A `WeakReference` object and what it still refers to. -/
structure WeakReference where
  id : Nat
  referent : Option ListenerRef
deriving DecidableEq, Repr

structure PagingResult where
  isEmpty : Bool
  isFirstPage : Bool
  hasNextPage : Bool
deriving DecidableEq, Repr

/-- What a model does outside itself, on beans `F` and list items `D`.  The
paging result is a variable argument: present only in a paging model. -/
inductive Event (F D : Type) where
  | onLoadFinish (listener : ListenerRef) (data : List D)
      (pagingResult : Option PagingResult)
  | onLoadFail (listener : ListenerRef) (prompt : String)
      (pagingResult : Option PagingResult)
  | setString (mCachedDataKey : String) (data : F)
deriving DecidableEq, Repr

/-- `references` counts the `WeakReference` objects created so far. -/
structure MvvmBaseModel where
  mReferenceQueue : List Nat
  mWeakListenerArrayList : List WeakReference
  isRefresh : Bool
  pageNumber : Int
  resetPageNumber : Int
  mCachedDataKey : Option String
  mApkPredefinedData : Option String
  mIsPaging : Bool
  references : Nat

/-- `Utils.isEmpty` and `TextUtils.isEmpty`. -/
def isEmptyString : Option String → Bool
  | none => true
  | some text => text.length ≤ 0

/-- The JSON library: `getString("data")` of a stored object, where `none` is
a `JSONException`, and `GsonUtils.fromLocalJson`, where `none` is `null`. -/
structure Json (F : Type) where
  getData : String → Option String
  fromLocalJson : String → Option F

namespace MvvmBaseModel

def create (isPaging : Bool) (cacheDataKey apkPredefinedData : Option String)
    (initPageNumber : List Int) : MvvmBaseModel :=
  let pageNumber :=
    match initPageNumber with
    | [initial] => initial
    | _ => 0
  { mReferenceQueue := []
    mWeakListenerArrayList := []
    isRefresh := true
    pageNumber := pageNumber
    resetPageNumber := pageNumber
    mCachedDataKey := cacheDataKey
    mApkPredefinedData := apkPredefinedData
    mIsPaging := isPaging
    references := 0 }

/-! ## Listeners -/

def register (model : MvvmBaseModel) : Option ListenerRef → MvvmBaseModel
  | none => model
  | some listener =>
      let kept :=
        model.mReferenceQueue.foldl
          (fun list releaseListener =>
            list.eraseP (fun weakListener =>
              weakListener.id = releaseListener))
          model.mWeakListenerArrayList
      let model :=
        { model with mReferenceQueue := [], mWeakListenerArrayList := kept }
      if kept.any (fun weakListener =>
          weakListener.referent = some listener) then
        model
      else
        { model with
          mWeakListenerArrayList :=
            kept ++ [⟨model.references, some listener⟩]
          references := model.references + 1 }

def unRegister (model : MvvmBaseModel) : Option ListenerRef → MvvmBaseModel
  | none => model
  | some listener =>
      { model with
        mWeakListenerArrayList :=
          model.mWeakListenerArrayList.eraseP (fun weakListener =>
            weakListener.referent = some listener) }

/-- The collector clears every weak reference to a listener. -/
def collect (model : MvvmBaseModel) (listener : ListenerRef) :
    MvvmBaseModel :=
  { model with
    mWeakListenerArrayList :=
      model.mWeakListenerArrayList.map (fun weakListener =>
        if weakListener.referent = some listener then
          { weakListener with referent := none }
        else weakListener) }

/-- Some time later a cleared reference reaches the reference queue. -/
def enqueue (model : MvvmBaseModel) (reference : Nat) : MvvmBaseModel :=
  if model.mWeakListenerArrayList.any (fun weakListener =>
      weakListener.id = reference && weakListener.referent.isNone) then
    { model with mReferenceQueue := model.mReferenceQueue ++ [reference] }
  else model

/-- The `for` loop over the weak references, skipping the cleared ones. -/
def forEachListener {E : Type}
    (body : MvvmBaseModel → ListenerRef → MvvmBaseModel × List E) :
    List WeakReference → MvvmBaseModel → MvvmBaseModel × List E
  | [], model => (model, [])
  | weakListener :: rest, model =>
      match weakListener.referent with
      | none => forEachListener body rest model
      | some listenerItem =>
          let here := body model listenerItem
          let later := forEachListener body rest here.1
          (later.1, here.2 ++ later.2)

/-! ## Loading -/

section Load

variable {F D : Type}

def saveDataToCache (model : MvvmBaseModel) (data : Option F) :
    List (Event F D) :=
  match data with
  | some data => [.setString (model.mCachedDataKey.getD "") data]
  | none => []

/-- The body of the loop of `loadSuccess`. -/
def loadSuccessBody (networkResonseBean : Option F) (data : List D)
    (isFromCache : Bool) (model : MvvmBaseModel)
    (listenerItem : ListenerRef) : MvvmBaseModel × List (Event F D) :=
  if model.mIsPaging then
    let model :=
      if model.isRefresh then
        { model with pageNumber := model.resetPageNumber }
      else model
    let model :=
      if !isFromCache && 0 < data.length then
        { model with pageNumber := model.pageNumber + 1 }
      else model
    (model,
      [.onLoadFinish listenerItem data
        (some
          (if isFromCache then ⟨false, true, true⟩
          else ⟨data.isEmpty, model.isRefresh, 0 < data.length⟩))] ++
      if !isEmptyString model.mCachedDataKey && model.isRefresh &&
          !isFromCache then
        model.saveDataToCache networkResonseBean
      else [])
  else
    (model,
      [.onLoadFinish listenerItem data none] ++
      if !isEmptyString model.mCachedDataKey then
        model.saveDataToCache networkResonseBean
      else [])

def loadSuccess (model : MvvmBaseModel) (networkResonseBean : Option F)
    (data : List D) (isFromCache : Bool) :
    MvvmBaseModel × List (Event F D) :=
  forEachListener (loadSuccessBody networkResonseBean data isFromCache)
    model.mWeakListenerArrayList model

/-- The body of the loop of `loadFail`. -/
def loadFailBody (errorMessage : String) (model : MvvmBaseModel)
    (listenerItem : ListenerRef) : MvvmBaseModel × List (Event F D) :=
  (model,
    [.onLoadFail listenerItem errorMessage
      (if model.mIsPaging then some ⟨true, model.isRefresh, false⟩
      else none)])

def loadFail (model : MvvmBaseModel) (errorMessage : String) :
    MvvmBaseModel × List (Event F D) :=
  forEachListener (loadFailBody errorMessage)
    model.mWeakListenerArrayList model

/-- `getCachedDataAndLoad`: the bean handed to `onSuccess(bean, true)`, if
any, and whether `load()` is called after it. -/
def getCachedDataAndLoad (model : MvvmBaseModel) (json : Json F)
    (isNeedToUpdate : Bool) (saveDataString : Option String) :
    Option F × Bool :=
  if !isEmptyString model.mCachedDataKey then
    let savedData :=
      match saveDataString with
      | some text =>
          if isEmptyString (some text) then none
          else (json.getData text).bind json.fromLocalJson
      | none => none
    match savedData with
    | some savedData => (some savedData, isNeedToUpdate)
    | none => (model.mApkPredefinedData.bind json.fromLocalJson, true)
  else (none, true)

end Load

end MvvmBaseModel

end DripStone.Paging
