import DripStone.Library.Mealy

/-!
# `Watcher`

Every call of `watch` makes a key of its own and goes on, in a thread of its
own, to look for that key five seconds later.  A call with its worker is one
process; the steps of the processes are taken in any order, and the collector
puts the references of collected objects in the queue at any time.
-/

namespace DripStone.LeakWatcher

open DripStone.Library

structure KeyWeakReference (Key : Type) where
  key : Key
  name : String
deriving DecidableEq, Repr

/-- `HashMap<String, KeyWeakReference>`. -/
abbrev References (Key : Type) := AList fun _ : Key => KeyWeakReference Key

/-- The next step of `removeWeaklyReachableReferences`. -/
inductive Cleaning (Key : Type) where
  | poll
  | removeWatched (findRef : KeyWeakReference Key)
  | removeRetained (findRef : KeyWeakReference Key)
deriving DecidableEq, Repr

/-- The three places that clean: at the start of `watch`, in `moveToRetained`,
and after the collection that the worker asks for. -/
inductive Phase where
  | watch
  | moveToRetained
  | afterGc
deriving DecidableEq, Repr

/-- The next step of a call of `watch` and of its worker. -/
inductive Pc (Key : Type) where
  | notCalled
  | cleaning (phase : Phase) (step : Cleaning Key)
  | newReference
  | putWatched (reference : KeyWeakReference Key)
  | execute
  -- the worker, `moveToRetained` first
  | enterMonitor
  | removeKey
  | putRetained (retainedRef : KeyWeakReference Key)
  | exitMonitor
  | getRetainedRefCount
  | countAgain
  | getRetained
  | finished
deriving DecidableEq, Repr

/-- Where a cleaning returns to. -/
def Phase.next {Key : Type} : Phase → Pc Key
  | .watch => .newReference
  | .moveToRetained => .removeKey
  | .afterGc => .countAgain

inductive Event (Key : Type) where
  | collected (key : Key)
  -- a cleaning is through with a reference that it polled
  | processed (key : Key)
  | reported (key : Key)
deriving DecidableEq, Repr

structure Watcher (Key : Type) where
  watchedReferences : References Key
  retainedReferences : References Key
  queue : List (KeyWeakReference Key)
  -- the worker in a synchronized method
  monitor : Option Key
  -- the keys of the objects that were collected
  collected : List Key
  pc : Key → Pc Key

inductive Action (Key : Type) where
  | watch (key : Key)
  | step (key : Key)
  | collect (key : Key)
deriving DecidableEq, Repr

/-- The reference of the key has been made. -/
def Pc.isCreated {Key : Type} : Pc Key → Bool
  | .notCalled => false
  | .cleaning .watch _ => false
  | .newReference => false
  | _ => true

namespace Watcher

variable {Key : Type}

def new : Watcher Key :=
  { watchedReferences := ∅
    retainedReferences := ∅
    queue := []
    monitor := none
    collected := []
    pc := fun _ => .notCalled }

variable [DecidableEq Key]

def goto (watcher : Watcher Key) (key : Key) (pc : Pc Key) : Watcher Key :=
  { watcher with pc := Function.update watcher.pc key pc }

/-- A step of a cleaning, and the next one unless it returns. -/
def clean (watcher : Watcher Key) :
    Cleaning Key → Watcher Key × Option (Cleaning Key) × List (Event Key)
  | .poll =>
      match watcher.queue with
      | [] => (watcher, none, [])
      | findRef :: rest =>
          ({ watcher with queue := rest }, some (.removeWatched findRef), [])
  | .removeWatched findRef =>
      match watcher.watchedReferences.lookup findRef.key with
      | some _ =>
          ({ watcher with
              watchedReferences :=
                watcher.watchedReferences.erase findRef.key },
            some .poll, [.processed findRef.key])
      | none => (watcher, some (.removeRetained findRef), [])
  | .removeRetained findRef =>
      ({ watcher with
          retainedReferences :=
            watcher.retainedReferences.erase findRef.key },
        some .poll, [.processed findRef.key])

/-- `getRetainedRefCount()`. -/
def retainedRefCount (watcher : Watcher Key) : Nat :=
  watcher.retainedReferences.keys.length

/-- The next step of the call of `watch` that makes `key`. -/
def advance (watcher : Watcher Key) (key : Key) :
    Watcher Key × List (Event Key) :=
  match watcher.pc key with
  | .notCalled => (watcher, [])
  | .cleaning phase step =>
      ((watcher.clean step).1.goto key
          (match (watcher.clean step).2.1 with
          | some next => .cleaning phase next
          | none => phase.next),
        (watcher.clean step).2.2)
  | .newReference => (watcher.goto key (.putWatched ⟨key, ""⟩), [])
  | .putWatched reference =>
      (goto { watcher with
          watchedReferences :=
            watcher.watchedReferences.insert key reference } key .execute, [])
  | .execute => (watcher.goto key .enterMonitor, [])
  | .enterMonitor =>
      if watcher.monitor = none then
        (goto { watcher with monitor := some key } key
          (.cleaning .moveToRetained .poll), [])
      else (watcher, [])
  | .removeKey =>
      match watcher.watchedReferences.lookup key with
      | some retainedRef =>
          (goto { watcher with
              watchedReferences := watcher.watchedReferences.erase key } key
            (.putRetained retainedRef), [])
      | none => (watcher.goto key .exitMonitor, [])
  | .putRetained retainedRef =>
      (goto { watcher with
          retainedReferences :=
            watcher.retainedReferences.insert key retainedRef } key
        .exitMonitor, [])
  | .exitMonitor =>
      (goto { watcher with monitor := none } key .getRetainedRefCount, [])
  | .getRetainedRefCount =>
      if 0 < watcher.retainedRefCount then
        (watcher.goto key (.cleaning .afterGc .poll), [])
      else (watcher.goto key .finished, [])
  | .countAgain =>
      if 0 < watcher.retainedRefCount then
        (watcher.goto key .getRetained, [])
      else (watcher.goto key .finished, [])
  | .getRetained =>
      (watcher.goto key .finished,
        match watcher.retainedReferences.lookup key with
        | some _ => [.reported key]
        | none => [])
  | .finished => (watcher, [])

def perform (watcher : Watcher Key) :
    Action Key → Watcher Key × List (Event Key)
  | .watch key =>
      if watcher.pc key = .notCalled then
        (watcher.goto key (.cleaning .watch .poll), [])
      else (watcher, [])
  | .step key => watcher.advance key
  -- a reference is put in the queue once
  | .collect key =>
      if (watcher.pc key).isCreated = true ∧ key ∉ watcher.collected then
        ({ watcher with
            queue := watcher.queue ++ [⟨key, ""⟩]
            collected := key :: watcher.collected }, [.collected key])
      else (watcher, [])

end Watcher

section Machine

variable {Key : Type} [DecidableEq Key]

def machine : Mealy (Watcher Key) (Action Key) (Event Key) :=
  ⟨Watcher.perform⟩

def watcherAfter (actions : List (Action Key)) : Watcher Key :=
  machine.run .new actions

def eventsOf (actions : List (Action Key)) : List (Event Key) :=
  machine.trace .new actions

theorem watcherAfter_concat (actions : List (Action Key))
    (action : Action Key) :
    watcherAfter (actions ++ [action]) =
      ((watcherAfter actions).perform action).1 :=
  machine.run_concat _ _ _

theorem eventsOf_concat (actions : List (Action Key))
    (action : Action Key) :
    eventsOf (actions ++ [action]) =
      eventsOf actions ++ ((watcherAfter actions).perform action).2 :=
  machine.trace_concat _ _ _

end Machine

end DripStone.LeakWatcher
