import DripStone.Paging.Model

/-!
# The listener loop

The loop of `loadSuccess` and `loadFail` runs once for every live listener.
A listener is registered at most once, so it is notified at most once by one
load.
-/

namespace DripStone.Paging

open DripStone.Library

namespace MvvmBaseModel

/-- The listeners that are registered and alive, in loop order. -/
def live (model : MvvmBaseModel) : List ListenerRef :=
  model.mWeakListenerArrayList.filterMap WeakReference.referent

/-! ## Registration -/

/-- Every live listener is registered once. -/
def OnceRegistered (model : MvvmBaseModel) : Prop := model.live.Nodup

section Registration

variable {model : MvvmBaseModel}

private theorem filterMap_eraseP_sublist (test : WeakReference → Bool)
    (list : List WeakReference) :
    ((list.eraseP test).filterMap WeakReference.referent).Sublist
      (list.filterMap WeakReference.referent) :=
  List.eraseP_sublist.filterMap _

private theorem drained_sublist (queue : List Nat)
    (list : List WeakReference) :
    (queue.foldl (fun list releaseListener =>
      list.eraseP (fun weakListener =>
        weakListener.id = releaseListener)) list).Sublist list := by
  induction queue generalizing list with
  | nil => exact List.Sublist.refl _
  | cons released rest inductionHypothesis =>
      rw [List.foldl_cons]
      exact (inductionHypothesis _).trans List.eraseP_sublist

theorem OnceRegistered.register (once : OnceRegistered model)
    (listener : Option ListenerRef) :
    OnceRegistered (model.register listener) := by
  cases listener with
  | none => exact once
  | some listener =>
      unfold MvvmBaseModel.register
      have drained := (drained_sublist model.mReferenceQueue
        model.mWeakListenerArrayList).filterMap WeakReference.referent
      generalize model.mReferenceQueue.foldl (fun list releaseListener =>
        list.eraseP (fun weakListener =>
          weakListener.id = releaseListener))
        model.mWeakListenerArrayList = kept at drained
      have keptOnce := once.sublist drained
      dsimp only
      split_ifs with known
      · exact keptOnce
      · unfold OnceRegistered live
        rw [List.filterMap_append]
        refine List.nodup_append.mpr ⟨keptOnce, by simp, ?_⟩
        rintro other member _ isNew rfl
        obtain ⟨weakListener, inKept, same⟩ :=
          List.mem_filterMap.mp member
        simp only [List.filterMap_cons, List.filterMap_nil,
          List.mem_singleton] at isNew
        refine known (List.any_eq_true.mpr ⟨weakListener, inKept, ?_⟩)
        simp [same, isNew]

theorem OnceRegistered.unRegister (once : OnceRegistered model)
    (listener : Option ListenerRef) :
    OnceRegistered (model.unRegister listener) := by
  cases listener with
  | none => exact once
  | some listener => exact once.sublist (filterMap_eraseP_sublist _ _)

theorem OnceRegistered.collect (once : OnceRegistered model)
    (listener : ListenerRef) :
    OnceRegistered (model.collect listener) := by
  refine once.sublist ?_
  unfold live MvvmBaseModel.collect
  induction model.mWeakListenerArrayList with
  | nil => exact List.Sublist.refl _
  | cons weakListener rest inductionHypothesis =>
      obtain ⟨id, referent⟩ := weakListener
      cases referent with
      | none => simpa using inductionHypothesis
      | some other =>
          by_cases same : other = listener
          · simpa [same] using inductionHypothesis.cons listener
          · simpa [same] using inductionHypothesis.cons_cons other

theorem OnceRegistered.enqueue (once : OnceRegistered model)
    (reference : Nat) : OnceRegistered (model.enqueue reference) := by
  unfold MvvmBaseModel.enqueue
  split_ifs
  · exact once
  · exact once

end Registration

/-! ## One load -/

section Loop

variable {E : Type}
  {body : MvvmBaseModel → ListenerRef → MvvmBaseModel × List E}

variable {model : MvvmBaseModel} {weakListener : WeakReference}
  {rest : List WeakReference}

theorem forEachListener_cleared (cleared : weakListener.referent = none) :
    forEachListener body (weakListener :: rest) model =
      forEachListener body rest model := by
  rw [forEachListener, cleared]

theorem forEachListener_alive {listener : ListenerRef}
    (alive : weakListener.referent = some listener) :
    forEachListener body (weakListener :: rest) model =
      ((forEachListener body rest (body model listener).1).1,
        (body model listener).2 ++
          (forEachListener body rest (body model listener).1).2) := by
  rw [forEachListener, alive]

/-- A loop whose body leaves the model unchanged. -/
theorem forEachListener_of_unchanged {events : ListenerRef → List E}
    (unchanged : ∀ listener, body model listener = (model, events listener))
    (list : List WeakReference) :
    forEachListener body list model =
      (model,
        (list.filterMap WeakReference.referent).flatMap events) := by
  induction list with
  | nil => rfl
  | cons weakListener rest inductionHypothesis =>
      cases alive : weakListener.referent with
      | none =>
          rw [forEachListener_cleared alive, inductionHypothesis,
            List.filterMap_cons_none alive]
      | some listener =>
          rw [forEachListener_alive alive, unchanged, inductionHypothesis,
            List.filterMap_cons_some alive, List.flatMap_cons]

end Loop

end MvvmBaseModel

end DripStone.Paging
