import DripStone.Paging.Listeners

/-!
# The page counter and the cache

The counter update and the save stand in the listener loop, so one load makes
them once for each live listener.  Resetting the counter and saving the bean
may be repeated; counting a page may not.  A load therefore does what it
should exactly when one listener is alive, when several are and the load
counts no page behind a page, or when none is and there is nothing to do.
-/

namespace DripStone.Paging

open DripStone.Library

/-- What happens to a model. -/
inductive Action (F D : Type) where
  | register (listener : Option ListenerRef)
  | unRegister (listener : Option ListenerRef)
  | collect (listener : ListenerRef)
  | enqueue (reference : Nat)
  | setRefresh (isRefresh : Bool)
  | loadSuccess (networkResonseBean : Option F) (data : List D)
      (isFromCache : Bool)
  | loadFail (errorMessage : String)
deriving DecidableEq, Repr

namespace MvvmBaseModel

section Machine

variable {F D : Type}

def step (model : MvvmBaseModel) :
    Action F D → MvvmBaseModel × List (Event F D)
  | .register listener => (model.register listener, [])
  | .unRegister listener => (model.unRegister listener, [])
  | .collect listener => (model.collect listener, [])
  | .enqueue reference => (model.enqueue reference, [])
  | .setRefresh isRefresh => ({ model with isRefresh := isRefresh }, [])
  | .loadSuccess bean data isFromCache =>
      model.loadSuccess bean data isFromCache
  | .loadFail errorMessage => model.loadFail errorMessage

def machine (F D : Type) : Mealy MvvmBaseModel (Action F D) (Event F D) :=
  ⟨step⟩

end Machine

/-! ## The law of one load -/

section Law

variable {F D : Type}

/-- The page a load counts. -/
def counted (data : List D) (isFromCache : Bool) : Int :=
  if !isFromCache && 0 < data.length then 1 else 0

/-- The counter a load starts from. -/
def countedFrom (model : MvvmBaseModel) : Int :=
  if model.isRefresh then model.resetPageNumber else model.pageNumber

/-- A cache key is set and the load is a network refresh. -/
def SaveDue (model : MvvmBaseModel) (isFromCache : Bool) : Prop :=
  isEmptyString model.mCachedDataKey = false ∧ model.isRefresh = true ∧
    isFromCache = false

def notifies (listener : ListenerRef) : Event F D → Bool
  | .onLoadFinish other _ _ => other = listener
  | .onLoadFail other _ _ => other = listener
  | .setString _ _ => false

/-- What one load of a paging model is to do, whoever is listening. -/
structure LoadLaw (model : MvvmBaseModel) (bean : Option F) (data : List D)
    (isFromCache : Bool) : Prop where
  pageNumber :
    (model.loadSuccess bean data isFromCache).1.pageNumber =
      model.countedFrom + counted data isFromCache
  saved : ∀ value, bean = some value →
    ((∃ key, .setString key value ∈
        (model.loadSuccess bean data isFromCache).2) ↔
      model.SaveDue isFromCache)
  notified : ∀ listener,
    ((model.loadSuccess bean data isFromCache).2.filter
      (notifies listener)).length =
      if listener ∈ model.live then 1 else 0

/-- No listener is alive and nothing is to be done, or one is, or several are
and the load counts no page behind a page. -/
structure CountsOnce (model : MvvmBaseModel) (bean : Option F)
    (data : List D) (isFromCache : Bool) : Prop where
  silent : model.live = [] →
    model.pageNumber = model.countedFrom + counted data isFromCache ∧
      ¬ (bean.isSome = true ∧ model.SaveDue isFromCache)
  shared : 2 ≤ model.live.length →
    model.isRefresh = true ∨ isFromCache = true ∨ data = []

/-! ## The loop -/

/-- What the body of the loop does for one listener. -/
def loadEvents (model : MvvmBaseModel) (bean : Option F) (data : List D)
    (isFromCache : Bool) (listener : ListenerRef) : List (Event F D) :=
  .onLoadFinish listener data
    (some
      (if isFromCache then ⟨false, true, true⟩
      else ⟨data.isEmpty, model.isRefresh, 0 < data.length⟩)) ::
  if !isEmptyString model.mCachedDataKey && model.isRefresh &&
      !isFromCache then
    model.saveDataToCache bean
  else []

/-- The counter after the loop has run for `live` listeners. -/
def loopPageNumber (model : MvvmBaseModel) (data : List D)
    (isFromCache : Bool) (live : Nat) : Int :=
  if live = 0 then model.pageNumber
  else if model.isRefresh then
    model.resetPageNumber + counted data isFromCache
  else model.pageNumber + live * counted data isFromCache

def withPageNumber (model : MvvmBaseModel) (pageNumber : Int) :
    MvvmBaseModel :=
  { model with pageNumber := pageNumber }

variable {model : MvvmBaseModel} {bean : Option F} {data : List D}
  {isFromCache : Bool}

theorem loadSuccessBody_eq (paging : model.mIsPaging = true)
    (listener : ListenerRef) :
    loadSuccessBody bean data isFromCache model listener =
      (model.withPageNumber (model.countedFrom + counted data isFromCache),
        model.loadEvents bean data isFromCache listener) := by
  unfold loadSuccessBody countedFrom counted loadEvents withPageNumber
  rw [if_pos paging]
  obtain ⟨queue, list, isRefresh, pageNumber, reset, key, predefined,
    isPaging, references⟩ := model
  cases isRefresh <;>
    by_cases counts : (!isFromCache && decide (0 < data.length)) = true <;>
      simp [counts, saveDataToCache]

/-- One more listener: the loop goes on from the updated counter. -/
theorem loopPageNumber_succ (live : Nat) :
    (model.withPageNumber
        (model.countedFrom + counted data isFromCache)).loopPageNumber
          data isFromCache live =
      model.loopPageNumber data isFromCache (live + 1) := by
  unfold loopPageNumber withPageNumber countedFrom
  cases isRefresh : model.isRefresh with
  | true => by_cases none : live = 0 <;> simp [none]
  | false =>
      by_cases none : live = 0
      · simp [none]
      · simp only [none, if_false, Nat.succ_ne_zero, Bool.false_eq_true]
        push_cast
        ring

/-- Loop lemma: the counter after the loop, and what the loop does. -/
theorem forEachListener_loadSuccess (paging : model.mIsPaging = true)
    (list : List WeakReference) :
    forEachListener (loadSuccessBody bean data isFromCache) list model =
      (model.withPageNumber (model.loopPageNumber data isFromCache
          (list.filterMap WeakReference.referent).length),
        (list.filterMap WeakReference.referent).flatMap
          (model.loadEvents bean data isFromCache)) := by
  induction list generalizing model with
  | nil => rfl
  | cons weakListener rest inductionHypothesis =>
      cases alive : weakListener.referent with
      | none =>
          rw [forEachListener_cleared alive, inductionHypothesis paging,
            List.filterMap_cons_none alive]
      | some listener =>
          have later := @inductionHypothesis
            (model.withPageNumber
              (model.countedFrom + counted data isFromCache)) paging
          rw [forEachListener_alive alive, loadSuccessBody_eq paging]
          dsimp only
          rw [later, List.filterMap_cons_some alive, List.flatMap_cons,
            List.length_cons, loopPageNumber_succ]
          rfl

theorem loadSuccess_eq (paging : model.mIsPaging = true) :
    model.loadSuccess bean data isFromCache =
      (model.withPageNumber
          (model.loopPageNumber data isFromCache model.live.length),
        model.live.flatMap (model.loadEvents bean data isFromCache)) :=
  forEachListener_loadSuccess paging model.mWeakListenerArrayList

/-! ## What the loop saves and whom it notifies -/

theorem saveDue_iff :
    (!isEmptyString model.mCachedDataKey && model.isRefresh &&
        !isFromCache) = true ↔
      model.SaveDue isFromCache := by
  simp [SaveDue, and_assoc]

theorem setString_mem_loadEvents {listener : ListenerRef} {value : F}
    (present : bean = some value) :
    (∃ key, .setString key value ∈
        model.loadEvents bean data isFromCache listener) ↔
      model.SaveDue isFromCache := by
  subst present
  unfold loadEvents
  by_cases due : model.SaveDue isFromCache
  · rw [if_pos (saveDue_iff.mpr due)]
    simp [saveDataToCache, due]
  · rw [if_neg (saveDue_iff.not.mpr due)]
    simp [due]

theorem notified_loadEvents (listener other : ListenerRef) :
    ((model.loadEvents bean data isFromCache other).filter
      (notifies listener)).length = if other = listener then 1 else 0 := by
  have quiet : ((if !isEmptyString model.mCachedDataKey &&
      model.isRefresh && !isFromCache then
        model.saveDataToCache bean
      else [] : List (Event F D)).filter (notifies listener)) = [] := by
    split_ifs
    · unfold saveDataToCache
      cases bean <;> simp [notifies]
    · rfl
  unfold loadEvents
  rw [List.filter_cons, quiet]
  by_cases same : other = listener <;> simp [notifies, same]

/-- The loop notifies a listener as often as it occurs among the live
ones. -/
theorem notified_flatMap (live : List ListenerRef) (listener : ListenerRef) :
    ((live.flatMap (model.loadEvents bean data isFromCache)).filter
      (notifies listener)).length = live.count listener := by
  induction live with
  | nil => rfl
  | cons other rest inductionHypothesis =>
      rw [List.flatMap_cons, List.filter_append, List.length_append,
        inductionHypothesis, notified_loadEvents, List.count_cons]
      by_cases same : other = listener <;> simp [same, Nat.add_comm]

theorem counted_eq_one (counts : ¬ (isFromCache = true ∨ data = [])) :
    counted data isFromCache = 1 := by
  simp only [not_or, Bool.not_eq_true] at counts
  simp [counted, counts.1, List.length_pos_iff, counts.2]

theorem counted_eq_zero (skipped : isFromCache = true ∨ data = []) :
    counted data isFromCache = 0 := by
  rcases skipped with cached | empty
  · simp [counted, cached]
  · simp [counted, empty]

/-- One load does what it should exactly when it counts once. -/
theorem loadLaw_iff_countsOnce (once : OnceRegistered model)
    (paging : model.mIsPaging = true) :
    model.LoadLaw bean data isFromCache ↔
      model.CountsOnce bean data isFromCache := by
  have equation := @loadSuccess_eq F D model bean data isFromCache paging
  constructor
  · rintro ⟨pageNumber, saved, _⟩
    rw [equation] at pageNumber saved
    refine ⟨?_, ?_⟩
    · intro silent
      rw [silent] at pageNumber saved
      refine ⟨pageNumber, ?_⟩
      rintro ⟨present, due⟩
      obtain ⟨value, isBean⟩ := Option.isSome_iff_exists.mp present
      obtain ⟨key, member⟩ := (saved value isBean).mpr due
      simp at member
    · intro several
      by_contra counts
      simp only [not_or] at counts
      have notRefresh := Bool.not_eq_true _ |>.mp counts.1
      have one := counted_eq_one (not_or.mpr counts.2)
      have nonzero : model.live.length ≠ 0 := by omega
      simp only [withPageNumber, loopPageNumber, countedFrom, nonzero,
        notRefresh, one, if_false, Bool.false_eq_true] at pageNumber
      omega
  · rintro ⟨silent, shared⟩
    refine ⟨?_, ?_, ?_⟩
    · rw [equation]
      change model.loopPageNumber data isFromCache model.live.length = _
      rcases Nat.lt_trichotomy model.live.length 1 with none | single | more
      · have empty := List.eq_nil_of_length_eq_zero
          (Nat.lt_one_iff.mp none)
        rw [empty]
        exact (silent empty).1
      · unfold loopPageNumber countedFrom
        rw [single]
        cases model.isRefresh <;> simp
      · unfold loopPageNumber countedFrom
        rw [if_neg (by omega)]
        rcases shared more with isRefresh | skipped
        · simp [isRefresh]
        · simp [counted_eq_zero skipped]
    · intro value isBean
      rw [equation]
      constructor
      · rintro ⟨key, member⟩
        obtain ⟨listener, _, inBody⟩ := List.mem_flatMap.mp member
        exact (setString_mem_loadEvents isBean).mp ⟨key, inBody⟩
      · intro due
        obtain ⟨listener, isLive⟩ : ∃ listener, listener ∈ model.live := by
          refine List.exists_mem_of_ne_nil _ fun empty => ?_
          exact (silent empty).2 ⟨by simp [isBean], due⟩
        obtain ⟨key, inBody⟩ :=
          (@setString_mem_loadEvents F D model bean data isFromCache
            listener value isBean).mpr due
        exact ⟨key, List.mem_flatMap.mpr ⟨listener, isLive, inBody⟩⟩
    · intro listener
      rw [equation, notified_flatMap]
      exact once.count

end Law

/-! ## Runs -/

section Runs

variable {F D : Type}

/-- A condition on every load of a run. -/
def AtLoads
    (condition : MvvmBaseModel → Option F → List D → Bool → Prop)
    (start : MvvmBaseModel) (actions : List (Action F D)) : Prop :=
  AtEvery (fun before action =>
    match action with
    | .loadSuccess bean data isFromCache =>
        condition ((machine F D).run start before) bean data isFromCache
    | _ => True) actions

/-- A paging model in which no listener is registered twice. -/
structure PagingOnce (model : MvvmBaseModel) : Prop where
  once : OnceRegistered model
  paging : model.mIsPaging = true

/-- Step lemma: a model keeps its kind, and no listener is registered
twice. -/
theorem PagingOnce.keeps {model : MvvmBaseModel} (kept : PagingOnce model)
    (action : Action F D) : PagingOnce (model.step action).1 := by
  obtain ⟨once, paging⟩ := kept
  cases action with
  | register listener =>
      refine ⟨once.register listener, ?_⟩
      cases listener with
      | none => exact paging
      | some listener =>
          simp only [step, register]
          split_ifs <;> exact paging
  | unRegister listener =>
      refine ⟨once.unRegister listener, ?_⟩
      cases listener <;> exact paging
  | collect listener => exact ⟨once.collect listener, paging⟩
  | enqueue reference =>
      refine ⟨once.enqueue reference, ?_⟩
      simp only [step, enqueue]
      split_ifs <;> exact paging
  | setRefresh isRefresh => exact ⟨once, paging⟩
  | loadSuccess bean data isFromCache =>
      rw [step, loadSuccess_eq paging]
      exact ⟨once, paging⟩
  | loadFail errorMessage =>
      rw [step, loadFail, forEachListener_of_unchanged fun _ => rfl]
      exact ⟨once, paging⟩

theorem pagingOnce_run (cacheDataKey apkPredefinedData : Option String)
    (initPageNumber : List Int) (actions : List (Action F D)) :
    PagingOnce ((machine F D).run
      (create true cacheDataKey apkPredefinedData initPageNumber)
        actions) := by
  refine (machine F D).run_invariant _ ?_ ⟨List.nodup_nil, rfl⟩ actions
  exact fun _ action kept => kept.keeps action

/-- Every load of a paging model counts its page, saves its bean and notifies
its listeners as it should exactly when every load counts once. -/
theorem load_law_iff_counts_once
    (cacheDataKey apkPredefinedData : Option String)
    (initPageNumber : List Int) (actions : List (Action F D)) :
    AtLoads LoadLaw
        (create true cacheDataKey apkPredefinedData initPageNumber)
          actions ↔
      AtLoads CountsOnce
        (create true cacheDataKey apkPredefinedData initPageNumber)
          actions := by
  have each : ∀ (before : List (Action F D)) (bean : Option F)
      (data : List D) (isFromCache : Bool),
      LoadLaw ((machine F D).run (create true cacheDataKey
        apkPredefinedData initPageNumber) before) bean data isFromCache ↔
      CountsOnce ((machine F D).run (create true cacheDataKey
        apkPredefinedData initPageNumber) before) bean data isFromCache := by
    intro before bean data isFromCache
    have kept := pagingOnce_run cacheDataKey apkPredefinedData initPageNumber
      before
    exact loadLaw_iff_countsOnce kept.once kept.paging
  constructor
  · intro every before action after split
    have here := every before action after split
    cases action with
    | loadSuccess bean data isFromCache =>
        exact (each before bean data isFromCache).mp here
    | _ => trivial
  · intro every before action after split
    have here := every before action after split
    cases action with
    | loadSuccess bean data isFromCache =>
        exact (each before bean data isFromCache).mpr here
    | _ => trivial

/-- Two live listeners: the one page of a next-page load is counted twice. -/
theorem page_counted_twice :
    ¬ AtLoads (@LoadLaw Unit Unit) (create true none none [])
        [.register (some 0), .register (some 1), .setRefresh false,
          .loadSuccess (some ()) [()] false] := by
  intro law
  have counter := (law
    [.register (some 0), .register (some 1), .setRefresh false]
    (.loadSuccess (some ()) [()] false) [] rfl).pageNumber
  exact absurd counter (by decide)

end Runs

end MvvmBaseModel

end DripStone.Paging
