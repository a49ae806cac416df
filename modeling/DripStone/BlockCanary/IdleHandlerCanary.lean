import DripStone.Library.Mealy

/-!
# `IdleHandlerCanary`

The canary puts a list of its own in the place of the idle handlers of the
main queue.  The list wraps every handler it is given, and a map leads from a
handler to its wrapper when the handler is to be removed.  The queue should
not notice: behind the wrappers it has the handlers of a plain list.
-/

namespace DripStone.BlockCanary

open DripStone.Library

variable {Handler : Type}

/-! ## The list and its map -/

/-- A wrapper is an object: two of one handler are told apart by the order in
which they were created. -/
structure MyIdleHandler (Handler : Type) where
  created : Nat
  mIdleHandler : Handler
deriving DecidableEq, Repr

structure IdleHandlerArrayList (Handler : Type) where
  elements : List (MyIdleHandler Handler)
  map : Handler → Option (MyIdleHandler Handler)
  -- how many wrappers were created
  created : Nat

/-- The list that `onCanary` puts in place of the one there was. -/
def IdleHandlerArrayList.new : IdleHandlerArrayList Handler :=
  ⟨[], fun _ => none, 0⟩

/-- The handlers behind the wrappers. -/
def IdleHandlerArrayList.handlers (list : IdleHandlerArrayList Handler) :
    List Handler :=
  list.elements.map (·.mIdleHandler)

section Wrappers

variable {list : IdleHandlerArrayList Handler}
variable {wrapper : MyIdleHandler Handler} {idleHandler : Handler}

/-- What every list keeps: the map leads to wrappers in the list, and no
wrapper is there twice. -/
structure WellMapped (list : IdleHandlerArrayList Handler) : Prop where
  nodup : list.elements.Nodup
  old : ∀ wrapper ∈ list.elements, wrapper.created < list.created
  inList : ∀ idleHandler wrapper, list.map idleHandler = some wrapper →
    wrapper ∈ list.elements ∧ wrapper.mIdleHandler = idleHandler

/-- The map leads to every wrapper in the list. -/
def Matched (list : IdleHandlerArrayList Handler) : Prop :=
  ∀ wrapper ∈ list.elements, list.map wrapper.mIdleHandler = some wrapper

/-- A wrapper that is in the list, or whose handler is not. -/
def Current (list : IdleHandlerArrayList Handler)
    (wrapper : MyIdleHandler Handler) : Prop :=
  wrapper ∈ list.elements ∨ wrapper.mIdleHandler ∉ list.handlers

theorem wellMapped_new :
    WellMapped (IdleHandlerArrayList.new : IdleHandlerArrayList Handler) where
  nodup := List.nodup_nil
  old := fun _ impossible => by cases impossible
  inList := fun _ _ impossible => by cases impossible

theorem WellMapped.new_wrapper_not_mem (wellMapped : WellMapped list) :
    (⟨list.created, idleHandler⟩ : MyIdleHandler Handler) ∉
      list.elements := by
  intro inList
  exact lt_irrefl _ (wellMapped.old _ inList)

theorem mem_handlers :
    idleHandler ∈ list.handlers ↔
      ∃ wrapper ∈ list.elements, wrapper.mIdleHandler = idleHandler :=
  List.mem_map

theorem Matched.eq_of_handler (matched : Matched list)
    {other : MyIdleHandler Handler} (inList : wrapper ∈ list.elements)
    (otherInList : other ∈ list.elements)
    (same : wrapper.mIdleHandler = other.mIdleHandler) : wrapper = other := by
  have found := matched wrapper inList
  rw [same, matched other otherInList] at found
  exact (Option.some.inj found).symm

theorem Current.mem_iff (current : Current list wrapper) :
    wrapper ∈ list.elements ↔ wrapper.mIdleHandler ∈ list.handlers := by
  constructor
  · intro inList
    exact mem_handlers.mpr ⟨wrapper, inList, rfl⟩
  · intro there
    exact current.resolve_right (not_not.mpr there)

end Wrappers

/-! ## The calls -/

/-- `removeIdleHandler` hands over a handler, and the queue an element of its
list whose `queueIdle` returned false. -/
inductive Removed (Handler : Type) where
  | handler (idleHandler : Handler)
  | wrapper (myIdleHandler : MyIdleHandler Handler)
deriving DecidableEq, Repr

inductive ListCall (Handler : Type) where
  | add (idleHandler : Handler)
  | remove (object : Removed Handler)
deriving DecidableEq, Repr

/-- The handler that a caller means. -/
def Removed.means : Removed Handler → Handler
  | .handler idleHandler => idleHandler
  | .wrapper myIdleHandler => myIdleHandler.mIdleHandler

variable [DecidableEq Handler]

namespace IdleHandlerArrayList

def add (list : IdleHandlerArrayList Handler) (idleHandler : Handler) :
    IdleHandlerArrayList Handler where
  elements := list.elements ++ [⟨list.created, idleHandler⟩]
  map := Function.update list.map idleHandler
    (some ⟨list.created, idleHandler⟩)
  created := list.created + 1

/-- `map.remove` and `super.remove` of a wrapper. -/
def erase (list : IdleHandlerArrayList Handler) (idleHandler : Handler)
    (wrapper : MyIdleHandler Handler) : IdleHandlerArrayList Handler :=
  { list with
    elements := list.elements.erase wrapper
    map := Function.update list.map idleHandler none }

def remove (list : IdleHandlerArrayList Handler) :
    Removed Handler → IdleHandlerArrayList Handler × Bool
  | .wrapper wrapper =>
      (list.erase wrapper.mIdleHandler wrapper, wrapper ∈ list.elements)
  | .handler idleHandler =>
      match list.map idleHandler with
      | some wrapper =>
          (list.erase idleHandler wrapper, wrapper ∈ list.elements)
      -- no element is a handler without a wrapper
      | none => (list, false)

section Equations

variable (list : IdleHandlerArrayList Handler) {idleHandler : Handler}
variable {other : Handler} (wrapper : MyIdleHandler Handler)

theorem map_add_self :
    (list.add idleHandler).map idleHandler =
      some ⟨list.created, idleHandler⟩ :=
  Function.update_self ..

theorem map_add_of_ne (different : other ≠ idleHandler) :
    (list.add idleHandler).map other = list.map other :=
  Function.update_of_ne different ..

theorem map_erase_self :
    (list.erase idleHandler wrapper).map idleHandler = none :=
  Function.update_self ..

theorem map_erase_of_ne (different : other ≠ idleHandler) :
    (list.erase idleHandler wrapper).map other = list.map other :=
  Function.update_of_ne different ..

variable {list} {wrapper}

theorem remove_of_some (found : list.map idleHandler = some wrapper) :
    list.remove (.handler idleHandler) =
      (list.erase idleHandler wrapper,
        decide (wrapper ∈ list.elements)) := by
  rw [remove, found]

theorem remove_of_none (absent : list.map idleHandler = none) :
    list.remove (.handler idleHandler) = (list, false) := by
  rw [remove, absent]

end Equations

end IdleHandlerArrayList

open IdleHandlerArrayList

/-- The list of the canary, call after call. -/
def wrapped : Mealy (IdleHandlerArrayList Handler) (ListCall Handler) Bool :=
  ⟨fun list call =>
    match call with
    | .add idleHandler => (list.add idleHandler, [true])
    | .remove object => ((list.remove object).1, [(list.remove object).2])⟩

/-- The `ArrayList` of a queue without the canary. -/
def plain : Mealy (List Handler) (ListCall Handler) Bool :=
  ⟨fun list call =>
    match call with
    | .add idleHandler => (list ++ [idleHandler], [true])
    | .remove object =>
        (list.erase object.means, [decide (object.means ∈ list)])⟩

/-! ## What every list keeps -/

section WellMapped

variable {list : IdleHandlerArrayList Handler}
variable {wrapper : MyIdleHandler Handler}

theorem WellMapped.add (wellMapped : WellMapped list) (idleHandler : Handler) :
    WellMapped (list.add idleHandler) where
  nodup := by
    apply List.nodup_append.mpr
    refine ⟨wellMapped.nodup, List.nodup_singleton _, ?_⟩
    intro wrapper inList other isNew same
    rw [List.mem_singleton.mp isNew] at same
    rw [same] at inList
    exact wellMapped.new_wrapper_not_mem inList
  old := by
    intro wrapper inList
    rcases List.mem_append.mp inList with inOld | isNew
    · exact Nat.lt_succ_of_lt (wellMapped.old wrapper inOld)
    · rw [List.mem_singleton.mp isNew]
      exact Nat.lt_succ_self _
  inList := by
    intro other wrapper found
    by_cases same : other = idleHandler
    · rw [same, map_add_self, Option.some_inj] at found
      rw [same, ← found]
      exact ⟨List.mem_append_right _ List.mem_cons_self, rfl⟩
    · rw [map_add_of_ne list same] at found
      have before := wellMapped.inList other wrapper found
      exact ⟨List.mem_append_left _ before.1, before.2⟩

/-- A wrapper goes, and with it the entry of its handler. -/
theorem WellMapped.erase (wellMapped : WellMapped list)
    (wrapper : MyIdleHandler Handler) :
    WellMapped (list.erase wrapper.mIdleHandler wrapper) where
  nodup := wellMapped.nodup.erase wrapper
  old := fun other inList => wellMapped.old other (List.mem_of_mem_erase inList)
  inList := by
    intro idleHandler other found
    by_cases same : idleHandler = wrapper.mIdleHandler
    · rw [same, map_erase_self] at found
      cases found
    · rw [map_erase_of_ne list wrapper same] at found
      have before := wellMapped.inList idleHandler other found
      have different : other ≠ wrapper := by
        intro isWrapper
        rw [isWrapper] at before
        exact same before.2.symm
      exact ⟨(List.mem_erase_of_ne different).mpr before.1, before.2⟩

theorem WellMapped.remove (wellMapped : WellMapped list)
    (object : Removed Handler) :
    WellMapped (list.remove object).1 := by
  cases object with
  | wrapper wrapper => exact wellMapped.erase wrapper
  | handler idleHandler =>
      cases found : list.map idleHandler with
      | none =>
          rw [remove_of_none found]
          exact wellMapped
      | some wrapper =>
          have its := (wellMapped.inList idleHandler wrapper found).2
          rw [remove_of_some found, ← its]
          exact wellMapped.erase wrapper

theorem WellMapped.step (wellMapped : WellMapped list)
    (call : ListCall Handler) :
    WellMapped (wrapped.step list call).1 := by
  cases call with
  | add idleHandler => exact wellMapped.add idleHandler
  | remove object => exact wellMapped.remove object

theorem wellMapped_run (calls : List (ListCall Handler)) :
    WellMapped (wrapped.run .new calls) := by
  apply wrapped.run_invariant
  · intro current call wellMapped
    exact wellMapped.step call
  · exact wellMapped_new

end WellMapped

/-! ## The list as a plain one -/

section Plain

variable {list : IdleHandlerArrayList Handler}
variable {wrapper : MyIdleHandler Handler} {idleHandler : Handler}

/-- Behind the wrappers as in front of them one element goes, where no other
one stands for the same handler. -/
theorem map_erase_of_unique {items : List (MyIdleHandler Handler)}
    (unique : ∀ other ∈ items,
      other.mIdleHandler = wrapper.mIdleHandler → other = wrapper) :
    (items.erase wrapper).map (·.mIdleHandler) =
      (items.map (·.mIdleHandler)).erase wrapper.mIdleHandler := by
  induction items with
  | nil => rfl
  | cons first rest inductionHypothesis =>
      by_cases same : first = wrapper
      · rw [same, List.erase_cons_head, List.map_cons, List.erase_cons_head]
      · have different : first.mIdleHandler ≠ wrapper.mIdleHandler := by
          intro sameHandler
          exact same (unique first List.mem_cons_self sameHandler)
        have further := inductionHypothesis fun other inRest =>
          unique other (List.mem_cons_of_mem _ inRest)
        rw [List.erase_cons_tail (by simpa using same), List.map_cons,
          further, List.map_cons,
          List.erase_cons_tail (by simpa using different)]

theorem Matched.handlers_erase (matched : Matched list)
    (current : Current list wrapper) :
    (list.erase wrapper.mIdleHandler wrapper).handlers =
      list.handlers.erase wrapper.mIdleHandler := by
  apply map_erase_of_unique
  intro other otherInList same
  rcases current with inList | absent
  · exact matched.eq_of_handler otherInList inList same
  · exact absurd (mem_handlers.mpr ⟨other, otherInList, same⟩) absent

theorem Matched.erase (wellMapped : WellMapped list) (matched : Matched list)
    (current : Current list wrapper) :
    Matched (list.erase wrapper.mIdleHandler wrapper) := by
  intro other inList
  have otherInList := List.mem_of_mem_erase inList
  have different : other.mIdleHandler ≠ wrapper.mIdleHandler := by
    intro same
    rcases current with wrapperInList | absent
    · rw [matched.eq_of_handler otherInList wrapperInList same] at inList
      exact wellMapped.nodup.not_mem_erase inList
    · exact absent (mem_handlers.mpr ⟨other, otherInList, same⟩)
  rw [map_erase_of_ne list wrapper different]
  exact matched other otherInList

theorem Matched.add (matched : Matched list)
    (absent : idleHandler ∉ list.handlers) :
    Matched (list.add idleHandler) := by
  intro other inList
  rcases List.mem_append.mp inList with inOld | isNew
  · have different : other.mIdleHandler ≠ idleHandler := by
      intro same
      exact absent (mem_handlers.mpr ⟨other, inOld, same⟩)
    rw [map_add_of_ne list different]
    exact matched other inOld
  · rw [List.mem_singleton.mp isNew]
    exact map_add_self list

/-- A list that shows what a plain list shows. -/
structure Shows (list : IdleHandlerArrayList Handler)
    (handlers : List Handler) : Prop where
  wellMapped : WellMapped list
  matched : Matched list
  same : list.handlers = handlers

/-- What a step of the list has to share with one of the plain list. -/
structure StepShows (list : IdleHandlerArrayList Handler)
    (handlers : List Handler) (call : ListCall Handler) : Prop where
  shows_ : Shows (wrapped.step list call).1 (plain.step handlers call).1
  sameResult : (wrapped.step list call).2 = (plain.step handlers call).2

theorem Shows.add {handlers : List Handler} (shows_ : Shows list handlers)
    (absent : idleHandler ∉ handlers) :
    StepShows list handlers (.add idleHandler) where
  shows_ := by
    rw [← shows_.same] at absent ⊢
    refine ⟨shows_.wellMapped.add idleHandler,
      shows_.matched.add absent, ?_⟩
    exact List.map_append
  sameResult := rfl

theorem Shows.remove_wrapper {handlers : List Handler}
    (shows_ : Shows list handlers) (current : Current list wrapper) :
    StepShows list handlers (.remove (.wrapper wrapper)) where
  shows_ := by
    rw [← shows_.same]
    exact ⟨shows_.wellMapped.erase wrapper,
      shows_.matched.erase shows_.wellMapped current,
      shows_.matched.handlers_erase current⟩
  sameResult := by
    rw [← shows_.same]
    exact congrArg (fun there => [there])
      (decide_eq_decide.mpr current.mem_iff)

/-- A handler leaves with its wrapper, and without one it was not there. -/
theorem Shows.remove_handler {handlers : List Handler}
    (shows_ : Shows list handlers) (idleHandler : Handler) :
    StepShows list handlers (.remove (.handler idleHandler)) := by
  cases found : list.map idleHandler with
  | some wrapper =>
      have its := shows_.wellMapped.inList idleHandler wrapper found
      have asWrapper := shows_.remove_wrapper (Or.inl its.1)
      have sameStep : wrapped.step list (.remove (.handler idleHandler)) =
          wrapped.step list (.remove (.wrapper wrapper)) := by
        simp only [wrapped, remove_of_some found]
        rw [IdleHandlerArrayList.remove, its.2]
      have samePlain : plain.step handlers (.remove (.handler idleHandler)) =
          plain.step handlers (.remove (.wrapper wrapper)) := by
        rw [← its.2]
        rfl
      exact ⟨by rw [sameStep, samePlain]; exact asWrapper.shows_,
        by rw [sameStep, samePlain]; exact asWrapper.sameResult⟩
  | none =>
      have absent : idleHandler ∉ handlers := by
        intro there
        rw [← shows_.same] at there
        obtain ⟨wrapper, inList, its⟩ := mem_handlers.mp there
        have there := shows_.matched wrapper inList
        rw [its, found] at there
        cases there
      constructor
      · simp only [wrapped, plain, remove_of_none found, Removed.means,
          List.erase_of_not_mem absent]
        exact shows_
      · simp only [wrapped, plain, remove_of_none found, Removed.means,
          absent, decide_false]

/-- A handler is added when it is not there, and a wrapper is removed when it
is current: its handler was not removed and added again since. -/
def Lawful (before : List (ListCall Handler)) : ListCall Handler → Prop
  | .add idleHandler => idleHandler ∉ plain.run [] before
  | .remove (.handler _) => True
  | .remove (.wrapper wrapper) => Current (wrapped.run .new before) wrapper

instance (list : IdleHandlerArrayList Handler)
    (wrapper : MyIdleHandler Handler) : Decidable (Current list wrapper) :=
  inferInstanceAs (Decidable (_ ∨ _))

instance (before : List (ListCall Handler)) (call : ListCall Handler) :
    Decidable (Lawful before call) :=
  match call with
  | .add idleHandler => inferInstanceAs
      (Decidable (idleHandler ∉ plain.run [] before))
  | .remove (.handler _) => isTrue trivial
  | .remove (.wrapper wrapper) => inferInstanceAs
      (Decidable (Current (wrapped.run .new before) wrapper))

theorem Shows.step {before : List (ListCall Handler)}
    (shows_ : Shows (wrapped.run .new before) (plain.run [] before))
    {call : ListCall Handler} (lawful : Lawful before call) :
    StepShows (wrapped.run .new before) (plain.run [] before) call := by
  cases call with
  | add idleHandler => exact shows_.add lawful
  | remove object =>
      cases object with
      | handler idleHandler => exact shows_.remove_handler idleHandler
      | wrapper wrapper => exact shows_.remove_wrapper lawful

/-- The queue does not notice the canary: its list shows the handlers of a
plain one, and every call has the result it has there. -/
theorem wrapped_as_plain (calls : List (ListCall Handler))
    (lawful : AtEvery Lawful calls) :
    (wrapped.run .new calls).handlers = plain.run [] calls ∧
      wrapped.trace .new calls = plain.trace [] calls := by
  have whole : Shows (wrapped.run .new calls) (plain.run [] calls) ∧
      wrapped.trace .new calls = plain.trace [] calls := by
    apply lawful.induction
    · refine ⟨⟨wellMapped_new, ?_, rfl⟩, rfl⟩
      intro wrapper impossible
      cases impossible
    · intro before call inductionHypothesis isLawful
      have stepped := inductionHypothesis.1.step isLawful
      rw [Mealy.run_concat, Mealy.run_concat, Mealy.trace_concat,
        Mealy.trace_concat, inductionHypothesis.2, stepped.sameResult]
      exact ⟨stepped.shows_, rfl⟩
  exact ⟨whole.1.same, whole.2⟩

/-- Two handlers; the first one is removed and added again, and the
`queueIdle` of the second one returns false. -/
theorem wrapped_as_plain_of_twoHandlers :
    let calls : List (ListCall Nat) :=
      [.add 1, .add 2, .remove (.handler 1), .add 1,
        .remove (.wrapper ⟨1, 2⟩), .remove (.handler 2)]
    (wrapped.run .new calls).handlers = plain.run [] calls ∧
      wrapped.trace .new calls = plain.trace [] calls :=
  wrapped_as_plain _ (by decide)

end Plain

/-! ## Orphans -/

section Orphans

variable {list : IdleHandlerArrayList Handler}
variable {wrapper : MyIdleHandler Handler} {idleHandler : Handler}

/-- A wrapper in the list that the map does not lead to. -/
structure Orphan (list : IdleHandlerArrayList Handler)
    (wrapper : MyIdleHandler Handler) : Prop where
  inList : wrapper ∈ list.elements
  lost : list.map wrapper.mIdleHandler ≠ some wrapper

theorem Orphan.add (orphan : Orphan list wrapper) (wellMapped : WellMapped list)
    (idleHandler : Handler) : Orphan (list.add idleHandler) wrapper where
  inList := List.mem_append_left _ orphan.inList
  lost := by
    by_cases same : wrapper.mIdleHandler = idleHandler
    · rw [same, map_add_self]
      intro isNew
      have inList := orphan.inList
      rw [← Option.some.inj isNew] at inList
      exact wellMapped.new_wrapper_not_mem inList
    · rw [map_add_of_ne list same]
      exact orphan.lost

theorem Orphan.erase (orphan : Orphan list wrapper)
    {other : MyIdleHandler Handler} (different : other ≠ wrapper) :
    Orphan (list.erase other.mIdleHandler other) wrapper where
  inList := (List.mem_erase_of_ne different.symm).mpr orphan.inList
  lost := by
    by_cases same : wrapper.mIdleHandler = other.mIdleHandler
    · rw [same, map_erase_self]
      exact fun impossible => by cases impossible
    · rw [map_erase_of_ne list other same]
      exact orphan.lost

/-- Only the removal of the wrapper itself ends an orphan. -/
theorem Orphan.step (orphan : Orphan list wrapper)
    (wellMapped : WellMapped list) {call : ListCall Handler}
    (other : call ≠ .remove (.wrapper wrapper)) :
    Orphan (wrapped.step list call).1 wrapper := by
  cases call with
  | add idleHandler => exact orphan.add wellMapped idleHandler
  | remove object =>
      cases object with
      | wrapper removed =>
          apply orphan.erase
          intro same
          exact other (by rw [same])
      | handler idleHandler =>
          cases found : list.map idleHandler with
          | none =>
              simp only [wrapped, remove_of_none found]
              exact orphan
          | some removed =>
              have its := (wellMapped.inList idleHandler removed found).2
              simp only [wrapped, remove_of_some found]
              rw [← its] at found ⊢
              apply orphan.erase
              intro same
              rw [same] at found
              exact orphan.lost found

theorem Orphan.run (orphan : Orphan list wrapper) (wellMapped : WellMapped list)
    {calls : List (ListCall Handler)}
    (others : .remove (.wrapper wrapper) ∉ calls) :
    Orphan (wrapped.run list calls) wrapper := by
  induction calls generalizing list with
  | nil => exact orphan
  | cons call calls inductionHypothesis =>
      have stepped : Orphan (wrapped.step list call).1 wrapper := by
        apply orphan.step wellMapped
        intro own
        exact others (by rw [own]; exact List.mem_cons_self)
      exact inductionHypothesis stepped (wellMapped.step call)
        fun inCalls => others (List.mem_cons_of_mem _ inCalls)

/-- A handler that is added while it is there loses its first wrapper, and
from then on nothing but the `queueIdle` of this wrapper takes it out of the
list: `removeIdleHandler` does not, however often it is called. -/
theorem twice_added_stays (before : List (ListCall Handler))
    {calls : List (ListCall Handler)}
    (there : wrapper ∈ (wrapped.run .new before).elements)
    (others : .remove (.wrapper wrapper) ∉ calls) :
    wrapper ∈ (wrapped.run .new
      (before ++ .add wrapper.mIdleHandler :: calls)).elements := by
  have wellMapped := wellMapped_run before
  have orphan :
      Orphan ((wrapped.run .new before).add wrapper.mIdleHandler) wrapper := by
    refine ⟨List.mem_append_left _ there, ?_⟩
    rw [map_add_self]
    intro isNew
    rw [← Option.some.inj isNew] at there
    exact wellMapped.new_wrapper_not_mem there
  rw [Mealy.run_append, Mealy.run_cons]
  exact (orphan.run (wellMapped.add _) others).inList

theorem twice_added_stays_after_removals :
    (⟨0, 7⟩ : MyIdleHandler Nat) ∈ (wrapped.run .new
      ([.add 7] ++ .add 7 ::
        [.remove (.handler 7), .remove (.handler 7)])).elements :=
  @twice_added_stays Nat _ ⟨0, 7⟩ [.add 7] _ (by decide) (by decide)

/-- The removal of handlers, one after the other. -/
def removals (idleHandlers : List Handler) : List (ListCall Handler) :=
  idleHandlers.map fun idleHandler => .remove (.handler idleHandler)

theorem Shows.run_removals {handlers : List Handler}
    (shows_ : Shows list handlers) (idleHandlers : List Handler) :
    (wrapped.run list (removals idleHandlers)).handlers =
      plain.run handlers (removals idleHandlers) := by
  induction idleHandlers generalizing list handlers with
  | nil => exact shows_.same
  | cons first rest inductionHypothesis =>
      exact inductionHypothesis (shows_.remove_handler first).shows_

/-- As many removals as there are elements leave no handler. -/
theorem not_mem_run_replicate (idleHandler : Handler) (count : Nat)
    {handlers : List Handler} (enough : handlers.count idleHandler ≤ count) :
    idleHandler ∉
      plain.run handlers (removals (List.replicate count idleHandler)) := by
  induction count generalizing handlers with
  | zero => exact List.count_eq_zero.mp (Nat.le_zero.mp enough)
  | succ count inductionHypothesis =>
      apply inductionHypothesis
      show (handlers.erase idleHandler).count idleHandler ≤ count
      rw [List.count_erase_self]
      exact Nat.sub_le_of_le_add enough

/-- Behind any calls, however the handlers were added: all that is left can be
removed as from a plain list exactly when the map leads to every wrapper. -/
theorem removable_iff_matched (calls : List (ListCall Handler)) :
    (∀ idleHandlers,
      (wrapped.run (wrapped.run .new calls) (removals idleHandlers)).handlers =
        plain.run (wrapped.run .new calls).handlers
          (removals idleHandlers)) ↔
      Matched (wrapped.run .new calls) := by
  have wellMapped := wellMapped_run calls
  constructor
  · intro removable wrapper inList
    by_contra lost
    have orphan : Orphan (wrapped.run .new calls) wrapper := ⟨inList, lost⟩
    let all := List.replicate
      ((wrapped.run .new calls).handlers.count wrapper.mIdleHandler)
      wrapper.mIdleHandler
    have others : .remove (.wrapper wrapper) ∉ removals all := by
      simp [removals]
    have stays := orphan.run wellMapped others
    have shown := mem_handlers.mpr ⟨wrapper, stays.inList, rfl⟩
    rw [removable] at shown
    exact not_mem_run_replicate _ _ (Nat.le_refl _) shown
  · intro matched idleHandlers
    exact (Shows.mk wellMapped matched rfl).run_removals idleHandlers

end Orphans

end DripStone.BlockCanary
