import DripStone.Library.Guarded
import DripStone.Library.JavaText

/-!
# `Product`

One place for an item between producers and consumers.  A call holds the
monitor until it returns or waits; a waiting call that was woken takes the
monitor again, and returns.
-/

namespace DripStone.HandOver

open DripStone.Library

structure Product where
  name : Option JString
  id : JInt
  flag : Bool

namespace Product

def new : Product := ⟨none, 0, false⟩

/-- `put` in front of its `notify`; `none` where it does nothing. -/
def put (product : Product) (name : Option JString) : Option Product :=
  if product.flag then none
  else
    let id := product.id + 1
    some
      { name := some (name.getD (literal "null") ++
          literal " 商品编码：" ++ literal (toString id.toInt))
        id := id
        flag := true }

/-- `out` in front of its `notify`, with what it consumes. -/
def out (product : Product) : Option (Option JString × Product) :=
  if product.flag then some (product.name, { product with flag := false })
  else none

variable {product next : Product} {name : Option JString}

theorem put_eq_none : product.put name = none ↔ product.flag = true := by
  cases isFull : product.flag with
  | false => simp [put, isFull]
  | true => simp [put, isFull]

theorem put_eq_some (put_ : product.put name = some next) :
    product.flag = false ∧ next.flag = true := by
  cases isFull : product.flag with
  | false =>
      rw [put, isFull, if_neg Bool.false_ne_true] at put_
      exact ⟨rfl, by rw [← Option.some_inj.mp put_]⟩
  | true =>
      rw [put_eq_none.mpr isFull] at put_
      cases put_

theorem out_eq_some (out_ : product.out = some (name, next)) :
    product.flag = true ∧ name = product.name ∧ next.flag = false := by
  obtain ⟨isFull, isNext⟩ := Option.ite_none_right_eq_some.mp out_
  obtain ⟨isName, isProduct⟩ := Prod.mk.inj (Option.some_inj.mp isNext)
  exact ⟨isFull, isName.symm, by rw [← isProduct]⟩

end Product

/-! ## The monitor -/

/-- A call that waits.  Calls of `put` are told apart by their order. -/
inductive Call where
  | put (ticket : Nat)
  | out
deriving DecidableEq, Repr

/-- An item: the call of `put` that it was passed to, and its name with its
number. -/
structure Item where
  ticket : Nat
  name : Option JString
deriving DecidableEq, Repr

structure Monitor (Thread : Type) where
  product : Product
  -- the call of `put` that set the name
  current : Nat
  waiting : List (Thread × Call)
  -- woken, without the monitor yet
  ready : List (Thread × Call)
  calls : Nat
  numbered : List Item
  consumed : List Item
  -- the calls of `put` that have returned
  returned : List Nat

namespace Monitor

variable {Thread : Type} [DecidableEq Thread] (monitor : Monitor Thread)

omit [DecidableEq Thread] in
def new : Monitor Thread := ⟨.new, 0, [], [], 0, [], [], []⟩

/-- The thread is in no call. -/
def Outside (thread : Thread) : Prop :=
  thread ∉ (monitor.waiting ++ monitor.ready).map Prod.fst

instance (thread : Thread) : Decidable (monitor.Outside thread) :=
  inferInstanceAs (Decidable (thread ∉ _))

/-- A thread stops waiting. -/
def wake (thread : Thread) : Option (Monitor Thread) :=
  (monitor.waiting.find? fun entry => entry.1 = thread).map fun entry =>
    { monitor with
      waiting := monitor.waiting.erase entry
      ready := monitor.ready ++ [entry] }

/-- Any one of the waiting threads is woken, if there are some. -/
def notify : Option Thread → Option (Monitor Thread)
  | none => if monitor.waiting.isEmpty then some monitor else none
  | some thread => monitor.wake thread

omit [DecidableEq Thread] in
def wait (thread : Thread) (call : Call) : Monitor Thread :=
  { monitor with waiting := monitor.waiting ++ [(thread, call)] }

omit [DecidableEq Thread] in
/-- What a call of `put` with room does first. -/
def fill (product : Product) : Monitor Thread :=
  { monitor with
    product := product
    current := monitor.calls
    calls := monitor.calls + 1
    numbered := monitor.numbered ++ [⟨monitor.calls, product.name⟩] }

omit [DecidableEq Thread] in
/-- What a call of `out` with an item does first. -/
def empty (name : Option JString) (product : Product) : Monitor Thread :=
  { monitor with
    product := product
    consumed := monitor.consumed ++ [⟨monitor.current, name⟩] }

def put (thread : Thread) (name : Option JString) (woken : Option Thread) :
    Option (Monitor Thread) :=
  match monitor.product.put name with
  | none =>
      some { monitor with
        calls := monitor.calls + 1
        returned := monitor.returned ++ [monitor.calls] }
  | some product =>
      ((monitor.fill product).notify woken).map fun notified =>
        notified.wait thread (.put monitor.calls)

def out (thread : Thread) (woken : Option Thread) :
    Option (Monitor Thread) :=
  match monitor.product.out with
  | none => some monitor
  | some (name, product) =>
      ((monitor.empty name product).notify woken).map fun notified =>
        notified.wait thread .out

/-- A woken thread takes the monitor, and its call returns. -/
def resume (thread : Thread) : Option (Monitor Thread) :=
  (monitor.ready.find? fun entry => entry.1 = thread).map fun entry =>
    { monitor with
      ready := monitor.ready.erase entry
      returned :=
        match entry.2 with
        | .put ticket => monitor.returned ++ [ticket]
        | .out => monitor.returned }

end Monitor

inductive Event (Thread : Type) where
  -- with the thread that `notify` wakes, should the call come to it
  | put (thread : Thread) (name : Option JString) (woken : Option Thread)
  | out (thread : Thread) (woken : Option Thread)
  -- without a `notify`, or by an interrupt
  | wake (thread : Thread)
  | resume (thread : Thread)

variable {Thread : Type} [DecidableEq Thread]

/-- All schedules of any threads. -/
def schedules : Guarded (Monitor Thread) (Event Thread) where
  start := .new
  step monitor event :=
    match event with
    | .put thread name woken =>
        if monitor.Outside thread then monitor.put thread name woken
        else none
    | .out thread woken =>
        if monitor.Outside thread then monitor.out thread woken else none
    | .wake thread => monitor.wake thread
    | .resume thread => monitor.resume thread

/-! ## The law -/

omit [DecidableEq Thread] in
/-- An item is not lost once its call has returned, and each is consumed once
and in turn. -/
structure HandsOver (monitor : Monitor Thread) : Prop where
  kept : ∀ ticket ∈ monitor.returned,
    ticket ∈ monitor.consumed.map Item.ticket ∨
      monitor.product.flag = true ∧ ticket = monitor.current
  once : (monitor.consumed.map Item.ticket).Nodup
  inTurn : monitor.consumed <+: monitor.numbered

omit [DecidableEq Thread] in
/-- A call of `put` finds the place empty. -/
def FindsRoom (monitor : Monitor Thread) : Event Thread → Prop
  | .put thread _ _ =>
      monitor.Outside thread → monitor.product.flag = false
  | _ => True

/-! ## What each event keeps -/

omit [DecidableEq Thread] in
/-- What has been numbered was consumed, up to the item that is there. -/
structure Accounted (monitor : Monitor Thread) : Prop where
  numbered : monitor.numbered = monitor.consumed ++
    if monitor.product.flag then [⟨monitor.current, monitor.product.name⟩]
    else []
  distinct : (monitor.numbered.map Item.ticket).Nodup
  called : ∀ item ∈ monitor.numbered, item.ticket < monitor.calls
  inCall : ∀ thread ticket,
    (thread, Call.put ticket) ∈ monitor.waiting ++ monitor.ready →
      ticket ∈ monitor.numbered.map Item.ticket
  returned : ∀ ticket ∈ monitor.returned,
    ticket ∈ monitor.numbered.map Item.ticket

section Events

variable {monitor next : Monitor Thread} {thread : Thread}

omit [DecidableEq Thread] in
theorem Accounted.handsOver (accounted : Accounted monitor) :
    HandsOver monitor := by
  have inOrder := accounted.numbered
  refine ⟨fun ticket isReturned => ?_, ?_, ?_⟩
  · have isNumbered := accounted.returned ticket isReturned
    rw [inOrder, List.map_append, List.mem_append] at isNumbered
    refine isNumbered.imp_right fun isThere => ?_
    split at isThere
    · next isFull => exact ⟨isFull, by simpa using isThere⟩
    · simp at isThere
  · have distinct := accounted.distinct
    rw [inOrder, List.map_append] at distinct
    exact (List.nodup_append'.mp distinct).1
  · exact ⟨_, inOrder.symm⟩

/-- A woken thread waited, and nothing else changes. -/
theorem accounted_wake (accounted : Accounted monitor)
    (woken : monitor.wake thread = some next) : Accounted next := by
  obtain ⟨entry, found, isNext⟩ := Option.map_eq_some_iff.mp woken
  have waited := List.mem_of_find?_eq_some found
  rw [← isNext]
  refine ⟨accounted.numbered, accounted.distinct, accounted.called,
    fun other ticket isThere => accounted.inCall other ticket ?_,
    accounted.returned⟩
  rcases List.mem_append.mp isThere with isWaiting | isReady
  · exact List.mem_append_left _ (List.mem_of_mem_erase isWaiting)
  · rcases List.mem_append.mp isReady with isReady | isEntry
    · exact List.mem_append_right _ isReady
    · rw [List.mem_singleton.mp isEntry]
      exact List.mem_append_left _ waited

theorem accounted_notify {woken : Option Thread}
    (accounted : Accounted monitor)
    (notified : monitor.notify woken = some next) : Accounted next := by
  cases woken with
  | none =>
      obtain ⟨_, isNext⟩ := Option.ite_none_right_eq_some.mp notified
      rw [← Option.some_inj.mp isNext]
      exact accounted
  | some thread => exact accounted_wake accounted notified

theorem numbered_notify {woken : Option Thread}
    (notified : monitor.notify woken = some next) :
    next.numbered = monitor.numbered := by
  cases woken with
  | none =>
      obtain ⟨_, isNext⟩ := Option.ite_none_right_eq_some.mp notified
      rw [← Option.some_inj.mp isNext]
  | some thread =>
      obtain ⟨entry, _, isNext⟩ := Option.map_eq_some_iff.mp notified
      rw [← isNext]

omit [DecidableEq Thread] in
theorem Accounted.wait {call : Call} (accounted : Accounted monitor)
    (isNumbered : ∀ ticket, call = .put ticket →
      ticket ∈ monitor.numbered.map Item.ticket) :
    Accounted (monitor.wait thread call) := by
  refine ⟨accounted.numbered, accounted.distinct, accounted.called,
    fun other ticket isThere => ?_, accounted.returned⟩
  simp only [Monitor.wait, List.append_assoc, List.mem_append,
    List.mem_singleton, Prod.mk.injEq] at isThere
  rcases isThere with isWaiting | ⟨_, isCall⟩ | isReady
  · exact accounted.inCall other ticket (List.mem_append_left _ isWaiting)
  · exact isNumbered ticket isCall.symm
  · exact accounted.inCall other ticket (List.mem_append_right _ isReady)

theorem accounted_resume (accounted : Accounted monitor)
    (resumed : monitor.resume thread = some next) : Accounted next := by
  obtain ⟨entry, found, isNext⟩ := Option.map_eq_some_iff.mp resumed
  have wasReady := List.mem_of_find?_eq_some found
  rw [← isNext]
  refine ⟨accounted.numbered, accounted.distinct, accounted.called,
    fun other ticket isThere => accounted.inCall other ticket ?_,
    fun ticket isReturned => ?_⟩
  · rcases List.mem_append.mp isThere with isWaiting | isReady
    · exact List.mem_append_left _ isWaiting
    · exact List.mem_append_right _ (List.mem_of_mem_erase isReady)
  · obtain ⟨other, call⟩ := entry
    cases call with
    | put resumedTicket =>
        rcases List.mem_append.mp isReturned with before | isThis
        · exact accounted.returned ticket before
        · rw [List.mem_singleton.mp isThis]
          exact accounted.inCall other resumedTicket
            (List.mem_append_right _ wasReady)
    | out => exact accounted.returned ticket isReturned

omit [DecidableEq Thread] in
/-- An item put where there is room. -/
theorem Accounted.fill {product : Product} (accounted : Accounted monitor)
    (hasRoom : monitor.product.flag = false) (isFull : product.flag = true) :
    Accounted (monitor.fill product) := by
  have numbered := accounted.numbered
  rw [hasRoom, if_neg Bool.false_ne_true, List.append_nil] at numbered
  refine ⟨?_, ?_, fun item isItem => ?_, fun thread ticket isThere => ?_,
    fun ticket isReturned => ?_⟩
  · simp [Monitor.fill, isFull, numbered]
  · simp only [Monitor.fill, List.map_append, List.map_cons, List.map_nil]
    refine List.nodup_append'.mpr ⟨accounted.distinct,
      List.nodup_singleton _, ?_⟩
    rw [List.disjoint_singleton]
    intro isOld
    obtain ⟨item, isItem, isTicket⟩ := List.mem_map.mp isOld
    exact absurd isTicket (accounted.called item isItem).ne
  · rcases List.mem_append.mp isItem with isOld | isNew
    · exact Nat.lt_succ_of_lt (accounted.called item isOld)
    · rw [List.mem_singleton.mp isNew]
      exact Nat.lt_succ_self _
  · simp only [Monitor.fill, List.map_append, List.mem_append]
    exact Or.inl (accounted.inCall thread ticket isThere)
  · simp only [Monitor.fill, List.map_append, List.mem_append]
    exact Or.inl (accounted.returned ticket isReturned)

omit [DecidableEq Thread] in
/-- The item that is there is consumed. -/
theorem Accounted.empty {product : Product} (accounted : Accounted monitor)
    (wasFull : monitor.product.flag = true)
    (hasRoom : product.flag = false) :
    Accounted (monitor.empty monitor.product.name product) := by
  refine ⟨?_, accounted.distinct, accounted.called, accounted.inCall,
    accounted.returned⟩
  simp [Monitor.empty, hasRoom, accounted.numbered, wasFull]

variable {woken : Option Thread} {name : Option JString}

theorem accounted_put (accounted : Accounted monitor)
    (hasRoom : monitor.product.flag = false)
    (stepped : monitor.put thread name woken = some next) :
    Accounted next := by
  rw [Monitor.put] at stepped
  split at stepped
  · next isFull =>
      rw [Product.put_eq_none.mp isFull] at hasRoom
      cases hasRoom
  · next product isPut =>
      obtain ⟨notified, isNotified, isNext⟩ :=
        Option.map_eq_some_iff.mp stepped
      rw [← isNext]
      have filled := accounted.fill hasRoom (Product.put_eq_some isPut).2
      refine (accounted_notify filled isNotified).wait fun ticket isIt => ?_
      rw [numbered_notify isNotified, ← Call.put.inj isIt]
      simp [Monitor.fill]

/-- An item that finds no room is lost. -/
theorem not_handsOver_put (accounted : Accounted monitor)
    (isFull : monitor.product.flag = true)
    (stepped : monitor.put thread name woken = some next) :
    ¬HandsOver next := by
  intro handsOver
  rw [Monitor.put, Product.put_eq_none.mpr isFull] at stepped
  have isNumbered : monitor.calls ∈ monitor.numbered.map Item.ticket := by
    rw [accounted.numbered, isFull, if_pos rfl, List.map_append,
      List.mem_append]
    have kept := handsOver.kept monitor.calls
    rw [← Option.some_inj.mp stepped] at kept
    refine (kept (by simp)).imp_right fun isCurrent => ?_
    exact List.mem_singleton.mpr isCurrent.2
  obtain ⟨item, isItem, isTicket⟩ := List.mem_map.mp isNumbered
  exact absurd isTicket (accounted.called item isItem).ne

theorem accounted_out (accounted : Accounted monitor)
    (stepped : monitor.out thread woken = some next) : Accounted next := by
  rw [Monitor.out] at stepped
  split at stepped
  · rw [← Option.some_inj.mp stepped]
    exact accounted
  · next out name product isOut =>
      obtain ⟨wasFull, isName, hasRoom⟩ := Product.out_eq_some isOut
      obtain ⟨notified, isNotified, isNext⟩ :=
        Option.map_eq_some_iff.mp stepped
      rw [← isNext]
      rw [isName] at isNotified
      have emptied := accounted.empty wasFull hasRoom
      exact (accounted_notify emptied isNotified).wait
        fun ticket isIt => by cases isIt

/-- Step lemma: only a call of `put` that finds an item there loses one. -/
theorem accounted_step {event : Event Thread}
    (accounted : Accounted monitor) (findsRoom : FindsRoom monitor event)
    (stepped : schedules.step monitor event = some next) :
    Accounted next := by
  cases event with
  | put thread name woken =>
      obtain ⟨outside, isPut⟩ := Option.ite_none_right_eq_some.mp stepped
      exact accounted_put accounted (findsRoom outside) isPut
  | out thread woken =>
      obtain ⟨_, isOut⟩ := Option.ite_none_right_eq_some.mp stepped
      exact accounted_out accounted isOut
  | wake thread => exact accounted_wake accounted stepped
  | resume thread => exact accounted_resume accounted stepped

theorem handsOver_step_iff {event : Event Thread}
    (accounted : Accounted monitor)
    (stepped : schedules.step monitor event = some next) :
    HandsOver next ↔ FindsRoom monitor event := by
  refine ⟨fun handsOver => ?_, fun findsRoom =>
    (accounted_step accounted findsRoom stepped).handsOver⟩
  cases event with
  | put thread name woken =>
      intro outside
      obtain ⟨_, isPut⟩ := Option.ite_none_right_eq_some.mp stepped
      by_contra isFull
      exact not_handsOver_put accounted (Bool.not_eq_false _ ▸ isFull) isPut
        handsOver
  | out _ _ => trivial
  | wake _ => trivial
  | resume _ => trivial

/-- A call that cannot be finished was not one of `put` with no room. -/
theorem findsRoom_of_step_eq_none {event : Event Thread}
    (impossible : schedules.step monitor event = none) :
    FindsRoom monitor event := by
  cases event with
  | put thread name woken =>
      intro outside
      by_contra isFull
      simp only [schedules, if_pos outside, Monitor.put,
        Product.put_eq_none.mpr (Bool.not_eq_false _ ▸ isFull)] at impossible
      cases impossible
  | out _ _ => trivial
  | wake _ => trivial
  | resume _ => trivial

end Events

/-! ## Whole schedules -/

omit [DecidableEq Thread] in
theorem accounted_new : Accounted (Monitor.new : Monitor Thread) := by
  refine ⟨rfl, List.nodup_nil, ?_, ?_, ?_⟩
  · intro item isItem
    cases isItem
  · intro thread ticket isThere
    cases isThere
  · intro ticket isReturned
    cases isReturned

/-- Along a schedule each item is handed over exactly when no call of `put`
comes while an item is there. -/
theorem handsOver_iff_findsRoom (history : List (Event Thread)) :
    schedules.Along (schedules.Leads HandsOver) history ↔
      schedules.Along FindsRoom history :=
  Guarded.along_leads_iff Accounted accounted_new
    (fun _ _ _ accounted findsRoom stepped =>
      accounted_step accounted findsRoom stepped)
    (fun _ _ _ accounted stepped => handsOver_step_iff accounted stepped)
    fun _ _ impossible => findsRoom_of_step_eq_none impossible

/-- Of two producers the second one finds the item of the first one there. -/
theorem secondProducer_loses :
    ∃ monitor : Monitor Nat,
      schedules.after [.put 0 (some (literal "a")) none,
        .put 1 (some (literal "b")) none] = some monitor ∧
      ¬HandsOver monitor := by
  refine ⟨_, rfl, fun handsOver => ?_⟩
  have kept := handsOver.kept 1 (by decide)
  revert kept
  decide

end DripStone.HandOver
