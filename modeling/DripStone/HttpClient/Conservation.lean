import DripStone.HttpClient.ConnectRelease
import DripStone.Library.Bags

/-!
# No client is lost

Every client is in one queue, in the hands of the running `release`, or
released, as long as no new manager replaces another one and no queue with a
client is cleared.
-/

namespace DripStone.HttpClient

open DripStone.Library

/-! ## Where the clients are -/

/-- The clients that a call of `put` has put into a queue. -/
def Put.inserted : Put → List ConnectClient
  | .register _ _ client | .returned client => [client]
  | _ => []

def Branch.hands : Branch → List ConnectClient
  | .all => []
  | .allBut saveClient => saveClient.toList

/-- The clients that were taken out of a queue and are not yet released. -/
def MgrRelease.hands : MgrRelease → List ConnectClient
  | .shutOnly client => [client]
  | .peekFirst branch | .pollFirst branch | .isEmpty branch
  | .clear branch => branch.hands
  | .shut branch client => client :: branch.hands
  | .add saveClient => saveClient.toList
  | _ => []

/-- The steps that rely on a client in the queue. -/
def MgrRelease.Polls (step : MgrRelease) : Prop :=
  step = .pollOnly ∨ ∃ branch, step = .pollFirst branch

namespace Registry

def Next.hands : Next → List ConnectClient
  | .goesOn step => step.hands
  | .returns | .fails => []

def inner (state : Registry) : Option (Mgr × MgrRelease) :=
  state.releasing.bind Release.inner

def hands (state : Registry) : List ConnectClient :=
  match state.inner with
  | some (_, step) => step.hands
  | none => []

def queued (state : Registry) : List ConnectClient :=
  state.mgrs.flatMap DefaultConnectMgr.httpClientDeque

def inserted (state : Registry) : List ConnectClient :=
  state.puts.flatMap Put.inserted

variable {state : Registry} {mgr other : Mgr} {client : ConnectClient}

theorem deque_eq {object : DefaultConnectMgr}
    (atMgr : state.mgrs[mgr]? = some object) :
    state.deque mgr = object.httpClientDeque := by
  rw [deque, atMgr]
  rfl

theorem exists_object (inRange : mgr < state.mgrs.length) :
    ∃ object, state.mgrs[mgr]? = some object ∧
      state.deque mgr = object.httpClientDeque :=
  ⟨_, List.getElem?_eq_getElem inRange,
    deque_eq (List.getElem?_eq_getElem inRange)⟩

theorem deque_setDeque_of_ne (isOther : other ≠ mgr)
    (clients : List ConnectClient) :
    (state.setDeque mgr clients).deque other = state.deque other := by
  simp [deque, setDeque, List.getElem?_modify_ne _ _ isOther.symm]

theorem length_setDeque (clients : List ConnectClient) :
    (state.setDeque mgr clients).mgrs.length = state.mgrs.length := by
  simp [setDeque]

theorem count_setDeque (inRange : mgr < state.mgrs.length)
    (clients : List ConnectClient) (client : ConnectClient) :
    (state.setDeque mgr clients).queued.count client +
        (state.deque mgr).count client =
      state.queued.count client + clients.count client := by
  obtain ⟨object, atMgr, isDeque⟩ := exists_object inRange
  rw [isDeque]
  exact count_flatMap_modify atMgr _ client

theorem deque_putInto (inRange : mgr < state.mgrs.length) :
    (state.putInto mgr client).deque mgr =
      state.deque mgr ++ [client] := by
  simp [deque, putInto, List.getElem?_eq_getElem inRange,
    DefaultConnectMgr.put]

theorem deque_putInto_of_ne (isOther : other ≠ mgr) :
    (state.putInto mgr client).deque other = state.deque other := by
  simp [deque, putInto, List.getElem?_modify_ne _ _ isOther.symm]

theorem length_putInto :
    (state.putInto mgr client).mgrs.length = state.mgrs.length := by
  simp [putInto]

theorem count_putInto (inRange : mgr < state.mgrs.length)
    (value : ConnectClient) :
    (state.putInto mgr client).queued.count value =
      state.queued.count value + [client].count value := by
  obtain ⟨object, atMgr, isDeque⟩ := exists_object inRange
  have counts := @count_flatMap_modify _ _ _
    DefaultConnectMgr.httpClientDeque _ _ _ atMgr (·.put client) value
  rw [DefaultConnectMgr.put, List.count_append] at counts
  rw [queued, queued, putInto]
  simp only at counts ⊢
  omega

/-! ## One step of `DefaultConnectMgr.release` -/

structure MgrStepped (state : Registry) (mgr : Mgr) (step : MgrRelease)
    (moved : Registry) (next : Next) : Prop where
  puts : moved.puts = state.puts
  map : moved.connectMgrMap = state.connectMgrMap
  length : moved.mgrs.length = state.mgrs.length
  others : ∀ other, other ≠ mgr → moved.deque other = state.deque other
  count : ∀ client,
    moved.queued.count client + moved.released.count client +
        (Next.hands next).count client =
      state.queued.count client + state.released.count client +
        step.hands.count client
  polls : ∀ step, next = .goesOn step → step.Polls → moved.deque mgr ≠ []

theorem MgrStepped.of_same (state : Registry) (mgr : Mgr)
    {step : MgrRelease} {next : Next}
    (hands : Next.hands next = step.hands)
    (polls : ∀ step, next = .goesOn step → step.Polls →
      state.deque mgr ≠ []) : MgrStepped state mgr step state next :=
  ⟨rfl, rfl, rfl, fun _ _ => rfl, fun _ => by rw [hands], polls⟩

theorem MgrStepped.of_poll {rest : List ConnectClient} {step next : MgrRelease}
    (inRange : mgr < state.mgrs.length)
    (isDeque : state.deque mgr = client :: rest)
    (hands : next.hands = client :: step.hands) (noPoll : ¬ next.Polls) :
    MgrStepped state mgr step (state.setDeque mgr rest)
      (.goesOn next) := by
  refine ⟨rfl, rfl, length_setDeque _,
    fun _ isOther => deque_setDeque_of_ne isOther _, fun value => ?_, ?_⟩
  · have counts := count_setDeque inRange rest value
    rw [isDeque, List.count_cons] at counts
    rw [Next.hands, hands, List.count_cons]
    have same : (state.setDeque mgr rest).released = state.released := rfl
    rw [same]
    omega
  · intro _ same polls
    cases same
    exact absurd polls noPoll

theorem MgrStepped.of_shut {step next : MgrRelease}
    (hands : step.hands = client :: next.hands) (noPoll : ¬ next.Polls) :
    MgrStepped state mgr step (state.shut client) (.goesOn next) := by
  refine ⟨rfl, rfl, rfl, fun _ _ => rfl, fun value => ?_, ?_⟩
  · have isQueued : (state.shut client).queued = state.queued := rfl
    rw [isQueued, shut, Next.hands, hands, List.count_append,
      List.count_cons, List.count_cons, List.count_nil]
    omega
  · intro _ same polls
    cases same
    exact absurd polls noPoll

/-- The step asks for a queue to be cleared that has a client. -/
def Clears (state : Registry) (mgr : Mgr) (step : MgrRelease) : Prop :=
  (∃ branch, step = .clear branch) ∧ state.deque mgr ≠ []

instance (state : Registry) (mgr : Mgr) :
    ∀ step, Decidable (state.Clears mgr step)
  | .clear branch => decidable_of_iff (state.deque mgr ≠ [])
      (and_iff_right ⟨branch, rfl⟩).symm
  | .size _ | .sizeAgain | .peekOnly | .pollOnly | .shutOnly _ | .pollLast
  | .peekFirst _ | .pollFirst _ | .shut _ _ | .isEmpty _ | .add _
  | .contains | .remove => isFalse (by rintro ⟨⟨_, same⟩, _⟩; cases same)

theorem hands_afterLoop (branch : Branch) :
    (afterLoop branch).hands = branch.hands := by
  cases branch <;> rfl

theorem afterLoop_not_polls (branch : Branch) :
    ¬ (afterLoop branch).Polls := by
  cases branch <;> simp [afterLoop, MgrRelease.Polls]

theorem count_dropLast (clients : List ConnectClient)
    (client : ConnectClient) :
    clients.dropLast.count client + clients.getLast?.toList.count client =
      clients.count client := by
  rcases List.eq_nil_or_concat clients with rfl | ⟨initial, last, rfl⟩
  · rfl
  · rw [List.concat_eq_append, List.dropLast_concat, List.getLast?_concat,
      List.count_append]
    rfl

theorem MgrStepped.of_pollLast (inRange : mgr < state.mgrs.length) :
    MgrStepped state mgr .pollLast
      (state.setDeque mgr (state.deque mgr).dropLast)
      (.goesOn (.peekFirst (.allBut (state.deque mgr).getLast?))) := by
  refine ⟨rfl, rfl, length_setDeque _,
    fun _ isOther => deque_setDeque_of_ne isOther _, fun value => ?_, ?_⟩
  · have counts := count_setDeque inRange (state.deque mgr).dropLast value
    have split := count_dropLast (state.deque mgr) value
    simp only [Next.hands, MgrRelease.hands, Branch.hands, List.count_nil]
    have same : (state.setDeque mgr (state.deque mgr).dropLast).released =
        state.released := rfl
    rw [same]
    omega
  · intro _ same polls
    cases same
    simp [MgrRelease.Polls] at polls

theorem MgrStepped.of_add (inRange : mgr < state.mgrs.length) :
    MgrStepped state mgr (.add (some client)) (state.putInto mgr client)
      .returns := by
  refine ⟨rfl, rfl, length_putInto,
    fun _ isOther => deque_putInto_of_ne isOther, fun value => ?_, ?_⟩
  · have counts := @count_putInto _ _ client inRange value
    have same : (state.putInto mgr client).released = state.released := rfl
    simp only [Next.hands, MgrRelease.hands, Option.toList_some,
      List.count_nil]
    rw [same]
    omega
  · intro _ same
    cases same

theorem mgrStep_spec {step : MgrRelease}
    (inRange : mgr < state.mgrs.length)
    (polls : step.Polls → state.deque mgr ≠ [])
    (noClear : ¬ state.Clears mgr step) :
    MgrStepped state mgr step (state.mgrStep mgr step).1
      (state.mgrStep mgr step).2 := by
  have noPoll {next : MgrRelease} (isNext : ¬ next.Polls) :
      ∀ step, Next.goesOn next = .goesOn step → step.Polls →
        state.deque mgr ≠ [] := by
    intro step same isPoll
    cases same
    exact absurd isPoll isNext
  cases step with
  | size leastNum =>
      rw [mgrStep]
      split
      · split
        · exact .of_same state mgr rfl (noPoll (by simp [MgrRelease.Polls]))
        · exact .of_same state mgr rfl (noPoll (by simp [MgrRelease.Polls]))
      · exact .of_same state mgr rfl (noPoll (by simp [MgrRelease.Polls]))
  | sizeAgain =>
      rw [mgrStep]
      split
      · exact .of_same state mgr rfl (noPoll (by simp [MgrRelease.Polls]))
      · exact .of_same state mgr rfl fun _ same => by cases same
  | peekOnly =>
      rw [mgrStep]
      split
      · next some => exact .of_same state mgr rfl fun _ _ _ => some
      · exact .of_same state mgr rfl (noPoll (by simp [MgrRelease.Polls]))
  | pollOnly =>
      have some := polls (Or.inl rfl)
      rw [mgrStep]
      split
      · next empty => exact absurd empty some
      · next isDeque =>
          exact .of_poll inRange isDeque rfl (by simp [MgrRelease.Polls])
  | shutOnly client => exact .of_shut rfl (by simp [MgrRelease.Polls])
  | pollLast => exact .of_pollLast inRange
  | peekFirst branch =>
      rw [mgrStep]
      split
      · next some => exact .of_same state mgr rfl fun _ _ _ => some
      · exact .of_same state mgr rfl (noPoll (by simp [MgrRelease.Polls]))
  | pollFirst branch =>
      have some := polls (Or.inr ⟨branch, rfl⟩)
      rw [mgrStep]
      split
      · next empty => exact absurd empty some
      · next isDeque =>
          exact .of_poll inRange isDeque rfl (by simp [MgrRelease.Polls])
  | shut branch client => exact .of_shut rfl (by simp [MgrRelease.Polls])
  | isEmpty branch =>
      rw [mgrStep]
      split
      · exact .of_same state mgr (hands_afterLoop branch)
          (noPoll (afterLoop_not_polls branch))
      · exact .of_same state mgr rfl (noPoll (by simp [MgrRelease.Polls]))
  | clear branch =>
      have empty : state.deque mgr = [] := by
        by_contra some
        exact noClear ⟨⟨branch, rfl⟩, some⟩
      refine ⟨rfl, rfl, length_setDeque _,
        fun _ isOther => deque_setDeque_of_ne isOther _, fun value => ?_,
        fun _ same isPoll => ?_⟩
      · have counts := count_setDeque inRange [] value
        rw [empty, Nat.add_right_cancel_iff] at counts
        rw [mgrStep, counts, Next.hands, hands_afterLoop]
        rfl
      · cases same
        exact absurd isPoll (afterLoop_not_polls branch)
  | add saveClient =>
      cases saveClient with
      | none => exact .of_same state mgr rfl fun _ same => by cases same
      | some client => exact .of_add inRange
  | contains =>
      rw [mgrStep]
      split
      · exact .of_same state mgr rfl (noPoll (by simp [MgrRelease.Polls]))
      · exact ⟨rfl, rfl, rfl, fun _ _ => rfl, fun _ => rfl,
          fun _ same => by cases same⟩
  | remove =>
      exact ⟨rfl, rfl, rfl, fun _ _ => rfl, fun _ => rfl,
        fun _ same => by cases same⟩

/-! ## The invariant -/

/-- A queue or the hands of the running `release` have each inserted client
that was not released, and each manager is registered or that of one `put`
alone. -/
structure Sound (state : Registry) : Prop where
  conserved : ∀ client,
    state.queued.count client + state.released.count client +
        state.hands.count client =
      state.inserted.count client
  distinct : (state.puts.map Put.client).Nodup
  inRange : ∀ tag mgr, state.connectMgrMap.lookup tag = some mgr →
    mgr < state.mgrs.length
  isPrivate : ∀ tag mgr client, .register tag mgr client ∈ state.puts →
    mgr < state.mgrs.length ∧ state.deque mgr = [client] ∧
      ¬ state.Registered mgr
  owned : ∀ mgr < state.mgrs.length, state.Registered mgr ∨
    ∃ tag client, .register tag mgr client ∈ state.puts
  found : ∀ mgr client, .addLast mgr client ∈ state.puts →
    state.Registered mgr
  running : ∀ mgr step, state.inner = some (mgr, step) →
    state.Registered mgr ∧ (step.Polls → state.deque mgr ≠ [])

/-- No client is put twice, no manager takes the place of another one, and no
queue with a client is cleared. -/
def Orderly (state : Registry) : Event → Prop
  | .putCalled _ client => ∀ put ∈ state.puts, put.client ≠ client
  | .putStep call => ∀ tag mgr client,
      state.puts[call]? = some (.register tag mgr client) →
        state.connectMgrMap.lookup tag = none
  | .releaseStep => ∀ mgr step, state.inner = some (mgr, step) →
      ¬ state.Clears mgr step
  | _ => True

/-- A `put` that is about to register its manager finds none for the tag. -/
def FindsNone (state : Registry) : Put → Prop
  | .register tag _ _ => state.connectMgrMap.lookup tag = none
  | _ => True

instance (state : Registry) : ∀ put, Decidable (state.FindsNone put)
  | .register tag _ _ =>
      inferInstanceAs (Decidable (state.connectMgrMap.lookup tag = none))
  | .get _ _ | .addLast _ _ | .create _ _ | .returned _ => isTrue trivial

theorem orderly_putStep_iff {state : Registry} {call : Nat} :
    state.Orderly (.putStep call) ↔
      ∀ put ∈ state.puts[call]?, state.FindsNone put := by
  constructor
  · intro orderly put atCall
    cases put with
    | register tag mgr client => exact orderly tag mgr client atCall
    | get tag client => trivial
    | addLast mgr client => trivial
    | create tag client => trivial
    | returned client => trivial
  · intro finds tag mgr client atCall
    exact finds _ atCall

instance (state : Registry) : ∀ event, Decidable (state.Orderly event)
  | .putCalled _ client => inferInstanceAs
      (Decidable (∀ put ∈ state.puts, put.client ≠ client))
  | .putStep _ => decidable_of_iff _ orderly_putStep_iff.symm
  | .releaseStep => decidable_of_iff
      (∀ running ∈ state.inner, ¬ state.Clears running.1 running.2)
      Prod.forall
  | .releaseCalled _ _ | .nextValue _ | .noValue => isTrue trivial

theorem sound_initial : initial.Sound := by
  constructor
  · intro client
    rfl
  · exact List.nodup_nil
  · intro tag mgr found
    cases found
  · intro tag mgr client inPuts
    cases inPuts
  · intro mgr inRange
    cases inRange
  · intro mgr client inPuts
    cases inPuts
  · intro mgr step running
    cases running

theorem Sound.registered_lt (sound : state.Sound)
    (registered : state.Registered mgr) : mgr < state.mgrs.length := by
  obtain ⟨tag, found⟩ := registered
  exact sound.inRange tag mgr found

/-- A call of `put` is about its own client alone. -/
theorem Sound.call_unique (sound : state.Sound) {first second : Nat}
    {one other : Put} (atFirst : state.puts[first]? = some one)
    (atSecond : state.puts[second]? = some other)
    (same : one.client = other.client) : first = second := by
  have inMap : (state.puts.map Put.client)[first]? = some one.client := by
    rw [List.getElem?_map, atFirst]
    rfl
  have inMapToo : (state.puts.map Put.client)[second]? =
      some one.client := by
    rw [List.getElem?_map, atSecond, same]
    rfl
  exact (List.getElem?_inj (List.getElem?_eq_some_iff.mp inMap).1
    sound.distinct).mp (inMap.trans inMapToo.symm)

/-! ### The events of `put` -/

theorem Sound.putCalled (sound : state.Sound) {tag : Tag}
    (orderly : state.Orderly (.putCalled tag client)) :
    Sound { state with puts := state.puts ++ [.get tag client] } := by
  have isOld {put : Put} (isNew : put ≠ .get tag client)
      (inPuts : put ∈ state.puts ++ [.get tag client]) :
      put ∈ state.puts := by
    rcases List.mem_append.mp inPuts with inPuts | isLast
    · exact inPuts
    · exact absurd (List.mem_singleton.mp isLast) isNew
  refine ⟨fun value => ?_, ?_, sound.inRange, ?_, ?_, ?_, sound.running⟩
  · rw [inserted, count_flatMap_concat]
    exact sound.conserved value
  · rw [List.map_append, List.nodup_append]
    refine ⟨sound.distinct, List.nodup_singleton _, ?_⟩
    intro first inFirst second inSecond same
    obtain ⟨put, inPuts, isClient⟩ := List.mem_map.mp inFirst
    have isNew : second = client := by simpa [Put.client] using inSecond
    exact orderly put inPuts (isClient.trans (same.trans isNew))
  · intro tag mgr client inPuts
    exact sound.isPrivate tag mgr client (isOld (by simp) inPuts)
  · intro mgr inRange
    rcases sound.owned mgr inRange with registered | ⟨tag, client, inPuts⟩
    · exact Or.inl registered
    · exact Or.inr ⟨tag, client, List.mem_append_left _ inPuts⟩
  · intro mgr client inPuts
    exact sound.found mgr client (isOld (by simp) inPuts)

section PutStep

variable {call : Nat} {old new : Put}

theorem mem_of_mem_set {put : Put} (inPuts : put ∈ state.puts.set call new)
    (isOther : put ≠ new) : put ∈ state.puts := by
  rcases List.mem_or_eq_of_mem_set inPuts with inPuts | same
  · exact inPuts
  · exact absurd same isOther

theorem mem_set_of_mem {put : Put} (atCall : state.puts[call]? = some old)
    (inPuts : put ∈ state.puts) (isOther : put ≠ old) :
    put ∈ state.puts.set call new := by
  obtain ⟨index, atIndex⟩ := List.mem_iff_getElem?.mp inPuts
  have elsewhere : call ≠ index := by
    rintro rfl
    exact isOther (Option.some_inj.mp (atIndex.symm.trans atCall))
  apply List.mem_of_getElem?
  rw [List.getElem?_set_ne elsewhere]
  exact atIndex

theorem map_client_set (atCall : state.puts[call]? = some old)
    (same : new.client = old.client) :
    (state.puts.set call new).map Put.client = state.puts.map Put.client := by
  rw [List.map_set, same]
  apply List.ext_getElem?
  intro index
  by_cases here : call = index
  · rw [← here, List.getElem?_map, atCall, List.getElem?_set_self]
    · rfl
    · rw [List.length_map]
      exact (List.getElem?_eq_some_iff.mp atCall).1
  · rw [List.getElem?_set_ne here]

theorem count_inserted_set (atCall : state.puts[call]? = some old)
    (value : ConnectClient) :
    ((state.puts.set call new).flatMap Put.inserted).count value +
        old.inserted.count value =
      state.inserted.count value + new.inserted.count value :=
  count_flatMap_set atCall new value

/-- A call looks up the manager of its tag. -/
theorem Sound.looksUp (sound : state.Sound) {tag : Tag}
    (atCall : state.puts[call]? = some (.get tag client))
    (isNew : new = .create tag client ∨
      ∃ mgr, state.Registered mgr ∧ new = .addLast mgr client) :
    (state.setPut call new).Sound := by
  have sameClient : new.client = (Put.get tag client).client := by
    rcases isNew with rfl | ⟨mgr, _, rfl⟩ <;> rfl
  have noClient : new.inserted = [] := by
    rcases isNew with rfl | ⟨mgr, _, rfl⟩ <;> rfl
  have notRegister : ∀ tag mgr client, Put.register tag mgr client ≠ new := by
    rcases isNew with rfl | ⟨mgr, _, rfl⟩ <;> simp
  refine ⟨fun value => ?_, ?_, sound.inRange, ?_, ?_, ?_, sound.running⟩
  · have counts := @count_inserted_set state call _ new atCall value
    have before := sound.conserved value
    rw [noClient] at counts
    simp only [Put.inserted, List.count_nil, Nat.add_zero] at counts
    exact before.trans counts.symm
  · exact (map_client_set atCall sameClient).symm ▸ sound.distinct
  · intro tag mgr client inPuts
    exact sound.isPrivate tag mgr client
      (mem_of_mem_set inPuts (notRegister tag mgr client))
  · intro mgr inRange
    rcases sound.owned mgr inRange with registered | ⟨tag, client, inPuts⟩
    · exact Or.inl registered
    · exact Or.inr ⟨tag, client, mem_set_of_mem atCall inPuts (by simp)⟩
  · intro mgr other inPuts
    by_cases same : Put.addLast mgr other = new
    · rcases isNew with rfl | ⟨found, registered, rfl⟩
      · cases same
      · cases same
        exact registered
    · exact sound.found mgr other (mem_of_mem_set inPuts same)

/-- A call adds its client to the queue of a registered manager. -/
theorem Sound.adds (sound : state.Sound)
    (atCall : state.puts[call]? = some (.addLast mgr client)) :
    ((state.putInto mgr client).setPut call (.returned client)).Sound := by
  have registered :=
    sound.found mgr client (List.mem_of_getElem? atCall)
  have inRange := sound.registered_lt registered
  have queues : ∀ other,
      ((state.putInto mgr client).setPut call (.returned client)).deque
        other = (state.putInto mgr client).deque other := fun _ => rfl
  refine ⟨fun value => ?_, ?_, ?_, ?_, ?_, ?_, ?_⟩
  · have counts := @count_inserted_set state call _
      (.returned client) atCall value
    have queued := @count_putInto _ _ client inRange value
    have before := sound.conserved value
    simp only [Put.inserted, List.count_nil, Nat.add_zero] at counts
    change (state.putInto mgr client).queued.count value +
        state.released.count value + state.hands.count value =
      ((state.puts.set call (.returned client)).flatMap
        Put.inserted).count value
    omega
  · have clients := @map_client_set state call _ (.returned client) atCall rfl
    exact clients.symm ▸ sound.distinct
  · intro tag other found
    have inside := sound.inRange tag other found
    exact inside.trans_eq length_putInto.symm
  · intro tag other client' inPuts
    obtain ⟨inside, isDeque, unregistered⟩ := sound.isPrivate tag other
      client' (mem_of_mem_set inPuts (by simp))
    have isOther : other ≠ mgr := by
      rintro rfl
      exact unregistered registered
    refine ⟨inside.trans_eq length_putInto.symm, ?_, unregistered⟩
    rw [queues, deque_putInto_of_ne isOther, isDeque]
  · intro other inside
    rcases sound.owned other (inside.trans_eq length_putInto) with
      found | ⟨tag, owner, inPuts⟩
    · exact Or.inl found
    · exact Or.inr ⟨tag, owner, mem_set_of_mem atCall inPuts (by simp)⟩
  · intro other owner inPuts
    exact sound.found other owner (mem_of_mem_set inPuts (by simp))
  · intro other step running
    obtain ⟨found, polls⟩ := sound.running other step running
    refine ⟨found, fun isPoll => ?_⟩
    rw [queues]
    by_cases same : other = mgr
    · rw [same, deque_putInto inRange]
      simp
    · rw [deque_putInto_of_ne same]
      exact polls isPoll

/-- A call makes a manager with its client. -/
theorem Sound.creates (sound : state.Sound) {tag : Tag}
    (atCall : state.puts[call]? = some (.create tag client)) :
    ({ state with
      mgrs := state.mgrs ++ [DefaultConnectMgr.new.put client] }.setPut call
        (.register tag state.mgrs.length client)).Sound := by
  have queues : ∀ other < state.mgrs.length,
      ({ state with
        mgrs := state.mgrs ++ [DefaultConnectMgr.new.put client] }.setPut
          call (.register tag state.mgrs.length client)).deque other =
        state.deque other := by
    intro other inside
    rw [deque, deque, setPut, List.getElem?_append_left inside]
  have length : (state.mgrs ++
      [DefaultConnectMgr.new.put client]).length =
        state.mgrs.length + 1 := by simp
  refine ⟨fun value => ?_, ?_, ?_, ?_, ?_, ?_, ?_⟩
  · have counts := @count_inserted_set state call _
      (.register tag state.mgrs.length client) atCall value
    have queued := @count_flatMap_concat _ _ _
      DefaultConnectMgr.httpClientDeque state.mgrs
      (DefaultConnectMgr.new.put client) value
    have before := sound.conserved value
    simp only [Put.inserted, List.count_nil, Nat.add_zero] at counts
    have one : (DefaultConnectMgr.new.put client).httpClientDeque =
      [client] := rfl
    rw [one] at queued
    change ((state.mgrs ++ [DefaultConnectMgr.new.put client]).flatMap
        DefaultConnectMgr.httpClientDeque).count value +
        state.released.count value + state.hands.count value =
      ((state.puts.set call (.register tag state.mgrs.length
        client)).flatMap Put.inserted).count value
    have isQueued : state.queued = state.mgrs.flatMap
      DefaultConnectMgr.httpClientDeque := rfl
    rw [isQueued] at before
    omega
  · have clients := @map_client_set state call _
      (.register tag state.mgrs.length client) atCall rfl
    exact clients.symm ▸ sound.distinct
  · intro tag other found
    have inside := sound.inRange tag other found
    exact (inside.trans (Nat.lt_succ_self _)).trans_eq length.symm
  · intro tag' other client' inPuts
    by_cases same : Put.register tag' other client' =
        .register tag state.mgrs.length client
    · cases same
      refine ⟨by simp [setPut], ?_, ?_⟩
      · simp [deque, setPut, DefaultConnectMgr.put, DefaultConnectMgr.new]
      · intro registered
        exact lt_irrefl _ (sound.registered_lt registered)
    · obtain ⟨inside, isDeque, unregistered⟩ := sound.isPrivate tag' other
        client' (mem_of_mem_set inPuts same)
      refine ⟨(inside.trans (Nat.lt_succ_self _)).trans_eq length.symm, ?_,
        unregistered⟩
      rw [queues other inside, isDeque]
  · intro other inside
    have inside : other < state.mgrs.length + 1 := inside.trans_eq length
    by_cases isNew : other = state.mgrs.length
    · refine Or.inr ⟨tag, client, ?_⟩
      rw [isNew]
      exact List.mem_set (List.getElem?_eq_some_iff.mp atCall).1 _
    · rcases sound.owned other (by omega) with found | ⟨tag, owner, inPuts⟩
      · exact Or.inl found
      · exact Or.inr ⟨tag, owner, mem_set_of_mem atCall inPuts (by simp)⟩
  · intro other owner inPuts
    exact sound.found other owner (mem_of_mem_set inPuts (by simp))
  · intro other step running
    obtain ⟨found, polls⟩ := sound.running other step running
    refine ⟨found, fun isPoll => ?_⟩
    rw [queues other (sound.registered_lt found)]
    exact polls isPoll

/-- No two calls are about to register one manager. -/
theorem Sound.register_unique (sound : state.Sound) {tag tag' : Tag}
    {owner : ConnectClient}
    (atCall : state.puts[call]? = some (.register tag mgr client))
    (inPuts : .register tag' mgr owner ∈
      state.puts.set call (.returned client))
    (isDeque : state.deque mgr = [client])
    (isDeque' : state.deque mgr = [owner]) : False := by
  have sameClient : client = owner :=
    List.singleton_inj.mp (isDeque.symm.trans isDeque')
  obtain ⟨index, atIndex⟩ := List.mem_iff_getElem?.mp inPuts
  by_cases here : call = index
  · rw [← here, List.getElem?_set_self
      (List.getElem?_eq_some_iff.mp atCall).1] at atIndex
    cases atIndex
  · rw [List.getElem?_set_ne here] at atIndex
    exact here (sound.call_unique atCall atIndex sameClient)

/-- A call registers its manager for a tag that has none. -/
theorem Sound.registers (sound : state.Sound) {tag : Tag}
    (atCall : state.puts[call]? = some (.register tag mgr client))
    (free : state.connectMgrMap.lookup tag = none) :
    ({ state with
      connectMgrMap := state.connectMgrMap.insert tag mgr }.setPut call
        (.returned client)).Sound := by
  obtain ⟨inRange, isDeque, unregistered⟩ := sound.isPrivate tag mgr client
    (List.mem_of_getElem? atCall)
  have lookups : ∀ tag' other,
      (state.connectMgrMap.insert tag mgr).lookup tag' = some other →
        other = mgr ∨ state.Registered other := by
    intro tag' other found
    by_cases same : tag' = tag
    · rw [same, AList.lookup_insert] at found
      exact Or.inl (Option.some_inj.mp found).symm
    · rw [AList.lookup_insert_ne same] at found
      exact Or.inr ⟨tag', found⟩
  have stays : ∀ other, state.Registered other →
      Registered ({ state with
        connectMgrMap := state.connectMgrMap.insert tag mgr }.setPut call
          (.returned client)) other := by
    rintro other ⟨tag', found⟩
    have elsewhere : tag' ≠ tag := by
      rintro rfl
      rw [free] at found
      cases found
    exact ⟨tag', (AList.lookup_insert_ne elsewhere).trans found⟩
  refine ⟨fun value => ?_, ?_, ?_, ?_, ?_, ?_, ?_⟩
  · have counts := @count_inserted_set state call _
      (.returned client) atCall value
    have before := sound.conserved value
    exact before.trans (Nat.add_right_cancel counts).symm
  · have clients := @map_client_set state call _ (.returned client) atCall rfl
    exact clients.symm ▸ sound.distinct
  · intro tag' other found
    rcases lookups tag' other found with rfl | registered
    · exact inRange
    · exact sound.registered_lt registered
  · intro tag' other owner inPuts
    have wasThere := mem_of_mem_set inPuts (by simp)
    obtain ⟨inside, isDeque', unregistered'⟩ :=
      sound.isPrivate tag' other owner wasThere
    refine ⟨inside, isDeque', ?_⟩
    rintro ⟨tag'', found⟩
    rcases lookups tag'' other found with rfl | registered
    · exact sound.register_unique atCall inPuts isDeque isDeque'
    · exact unregistered' registered
  · intro other inside
    by_cases isMgr : other = mgr
    · rw [isMgr]
      exact Or.inl ⟨tag, AList.lookup_insert _⟩
    · rcases sound.owned other inside with found | ⟨tag', owner, inPuts⟩
      · exact Or.inl (stays other found)
      · refine Or.inr ⟨tag', owner, mem_set_of_mem atCall inPuts ?_⟩
        simp [isMgr]
  · intro other owner inPuts
    exact stays other
      (sound.found other owner (mem_of_mem_set inPuts (by simp)))
  · intro other step running
    obtain ⟨found, polls⟩ := sound.running other step running
    exact ⟨stays other found, polls⟩

theorem Sound.putStep (sound : state.Sound) {next : Registry}
    (orderly : state.Orderly (.putStep call))
    (stepped : state.putStep call = some next) : next.Sound := by
  rw [Registry.putStep] at stepped
  split at stepped
  · next tag client atCall =>
      split at stepped
      · next mgr found =>
          rw [← Option.some_inj.mp stepped]
          exact sound.looksUp atCall (Or.inr ⟨mgr, ⟨tag, found⟩, rfl⟩)
      · rw [← Option.some_inj.mp stepped]
        exact sound.looksUp atCall (Or.inl rfl)
  · next mgr client atCall =>
      rw [← Option.some_inj.mp stepped]
      exact sound.adds atCall
  · next tag client atCall =>
      rw [← Option.some_inj.mp stepped]
      exact sound.creates atCall
  · next tag mgr client atCall =>
      rw [← Option.some_inj.mp stepped]
      exact sound.registers atCall (orderly tag mgr client atCall)
  · cases stepped

end PutStep

/-! ### The events of `release` -/

/-- Nothing but the running `release` changes, and it has no client in its
hands. -/
theorem Sound.releasing (sound : state.Sound) {next : Registry}
    (same : next = { state with releasing := next.releasing })
    (empty : state.hands = [])
    (starts : next.inner = none ∨ ∃ mgr leastNum,
      state.Registered mgr ∧ next.inner = some (mgr, .size leastNum)) :
    next.Sound := by
  have stillEmpty : next.hands = [] := by
    rcases starts with none | ⟨mgr, leastNum, _, some⟩
    · rw [hands, none]
    · rw [hands, some]
      rfl
  have mgrs : next.mgrs = state.mgrs := by rw [same]
  have map : next.connectMgrMap = state.connectMgrMap := by rw [same]
  have puts : next.puts = state.puts := by rw [same]
  have released : next.released = state.released := by rw [same]
  have queues : ∀ mgr, next.deque mgr = state.deque mgr := by
    intro mgr
    rw [deque, deque, mgrs]
  have registered : ∀ mgr, next.Registered mgr ↔ state.Registered mgr := by
    intro mgr
    rw [Registered, Registered, map]
  refine ⟨fun value => ?_, ?_, ?_, ?_, ?_, ?_, ?_⟩
  · have before := sound.conserved value
    rw [queued, inserted, mgrs, puts, released, stillEmpty]
    rwa [empty] at before
  · rw [puts]
    exact sound.distinct
  · rw [map, mgrs]
    exact sound.inRange
  · intro tag mgr client inPuts
    rw [puts] at inPuts
    rw [mgrs, queues, registered]
    exact sound.isPrivate tag mgr client inPuts
  · intro mgr inRange
    rw [mgrs] at inRange
    rw [puts, registered]
    exact sound.owned mgr inRange
  · intro mgr client inPuts
    rw [puts] at inPuts
    rw [registered]
    exact sound.found mgr client inPuts
  · intro mgr step running
    rcases starts with none | ⟨starting, leastNum, isRegistered, some⟩
    · rw [none] at running
      cases running
    · rw [some] at running
      cases running
      exact ⟨(registered mgr).mpr isRegistered,
        by simp [MgrRelease.Polls]⟩

theorem hands_of_inner (none : state.inner = none) : state.hands = [] := by
  rw [hands, none]

theorem Sound.releaseCalled (sound : state.Sound) {next : Registry}
    {tag : Tag} {currentTime : JLong}
    (stepped : state.releaseCalled tag currentTime = some next) :
    next.Sound := by
  rw [Registry.releaseCalled] at stepped
  split at stepped
  · cases stepped
  · next idle =>
      have noRelease : state.releasing = none := by simpa using idle
      cases stepped
      refine sound.releasing rfl (hands_of_inner ?_) (Or.inl rfl)
      rw [inner, noRelease]
      rfl

theorem Sound.nextValue (sound : state.Sound) {next : Registry} {tag : Tag}
    (stepped : state.nextValue tag = some next) : next.Sound := by
  rw [Registry.nextValue] at stepped
  split at stepped
  · next isReleasing found =>
      split at stepped
      · cases stepped
      · cases stepped
        refine sound.releasing rfl (hands_of_inner ?_) ?_
        · rw [inner, isReleasing]
          rfl
        · simp only [inner, Option.bind_some]
          split
          · exact Or.inr ⟨_, 0, ⟨tag, found⟩, rfl⟩
          · exact Or.inl rfl
  · cases stepped

theorem Sound.noValue (sound : state.Sound) {next : Registry}
    (stepped : state.noValue = some next) : next.Sound := by
  rw [Registry.noValue] at stepped
  split at stepped
  · next isReleasing =>
      split at stepped
      · cases stepped
        refine sound.releasing rfl (hands_of_inner ?_) (Or.inl rfl)
        rw [inner, isReleasing]
        rfl
      · cases stepped
  · cases stepped

theorem inner_resume {release : Release} {next : Next} {moved : Registry}
    {step : MgrRelease}
    (running : inner { moved with
      releasing := resume release mgr next } = some (other, step)) :
    other = mgr ∧ next = .goesOn step := by
  cases next with
  | goesOn step =>
      cases running
      exact ⟨rfl, rfl⟩
  | returns =>
      simp only [inner, resume] at running
      split at running <;> cases running
  | fails => cases running

theorem hands_resume (release : Release) (next : Next) (moved : Registry)
    (mgr : Mgr) :
    hands { moved with releasing := resume release mgr next } =
      Next.hands next := by
  cases next with
  | goesOn step => rfl
  | returns =>
      apply hands_of_inner
      simp only [inner, resume]
      split <;> rfl
  | fails => rfl

/-- A step of the running `connectMgr.release`. -/
theorem Sound.mgrStep (sound : state.Sound) {release : Release}
    {step : MgrRelease} (running : state.inner = some (mgr, step))
    (noClear : ¬ state.Clears mgr step) :
    Sound { (state.mgrStep mgr step).1 with
      releasing := resume release mgr (state.mgrStep mgr step).2 } := by
  obtain ⟨isRegistered, polls⟩ := sound.running mgr step running
  have inRange := sound.registered_lt isRegistered
  have spec := mgrStep_spec inRange polls noClear
  generalize (state.mgrStep mgr step).1 = moved at spec ⊢
  generalize (state.mgrStep mgr step).2 = next at spec ⊢
  have registered : ∀ other,
      moved.Registered other ↔ state.Registered other := by
    intro other
    rw [Registered, Registered, spec.map]
  refine ⟨fun value => ?_, ?_, ?_, ?_, ?_, ?_, ?_⟩
  · have before := sound.conserved value
    have counts := spec.count value
    have isHands : state.hands = step.hands := by rw [hands, running]
    rw [isHands] at before
    rw [hands_resume, inserted]
    change moved.queued.count value + moved.released.count value +
        (Next.hands next).count value =
      (moved.puts.flatMap Put.inserted).count value
    rw [spec.puts]
    change _ = state.inserted.count value
    omega
  · exact spec.puts ▸ sound.distinct
  · intro tag other found
    rw [spec.map] at found
    exact (sound.inRange tag other found).trans_eq spec.length.symm
  · intro tag other client inPuts
    rw [spec.puts] at inPuts
    obtain ⟨inside, isDeque, unregistered⟩ :=
      sound.isPrivate tag other client inPuts
    have isOther : other ≠ mgr := by
      rintro rfl
      exact unregistered isRegistered
    exact ⟨inside.trans_eq spec.length.symm,
      (spec.others other isOther).trans isDeque,
      mt (registered other).mp unregistered⟩
  · intro other inside
    rcases sound.owned other (inside.trans_eq spec.length) with
      found | ⟨tag, client, inPuts⟩
    · exact Or.inl ((registered other).mpr found)
    · exact Or.inr ⟨tag, client, spec.puts.symm ▸ inPuts⟩
  · intro other client inPuts
    rw [spec.puts] at inPuts
    exact (registered other).mpr (sound.found other client inPuts)
  · intro other later runningLater
    obtain ⟨rfl, goesOn⟩ := inner_resume runningLater
    exact ⟨(registered other).mpr isRegistered, spec.polls later goesOn⟩

theorem Sound.releaseStep (sound : state.Sound) {next : Registry}
    (orderly : state.Orderly .releaseStep)
    (stepped : state.releaseStep = some next) : next.Sound := by
  rw [Registry.releaseStep] at stepped
  split at stepped
  · cases stepped
  · next release isReleasing =>
      have isInner : state.inner = release.inner := by
        rw [inner, isReleasing]
        rfl
      split at stepped
      · next mgr step running =>
          rw [running] at isInner
          cases stepped
          exact sound.mgrStep isInner (orderly mgr step isInner)
      · next notRunning =>
          have empty := hands_of_inner (isInner.trans notRunning)
          split at stepped
          · split at stepped
            · cases stepped
              refine sound.releasing rfl empty (Or.inl ?_)
              exact notRunning
            · cases stepped
              exact sound.releasing rfl empty (Or.inl rfl)
          · split at stepped
            · next mgr found =>
                cases stepped
                exact sound.releasing rfl empty
                  (Or.inr ⟨mgr, 1, ⟨release.tag, found⟩, rfl⟩)
            · cases stepped
              exact sound.releasing rfl empty (Or.inl rfl)
          · cases stepped

theorem Sound.step (sound : state.Sound) {event : Event} {next : Registry}
    (orderly : state.Orderly event)
    (stepped : state.step event = some next) : next.Sound := by
  cases event with
  | putCalled tag client =>
      cases stepped
      exact sound.putCalled orderly
  | putStep call => exact sound.putStep orderly stepped
  | releaseCalled tag currentTime => exact sound.releaseCalled stepped
  | nextValue tag => exact sound.nextValue stepped
  | noValue => exact sound.noValue stepped
  | releaseStep => exact sound.releaseStep orderly stepped

/-! ## What the invariant says when no `release` runs -/

theorem count_inserted_le (puts : List Put) (client : ConnectClient) :
    (puts.flatMap Put.inserted).count client ≤
      (puts.map Put.client).count client := by
  induction puts with
  | nil => exact Nat.le_refl _
  | cons put rest inductionHypothesis =>
      have atFirst : put.inserted.count client ≤ [put.client].count client :=
        by cases put <;> simp [Put.inserted, Put.client]
      rw [List.flatMap_cons, List.count_append, List.map_cons,
        ← List.singleton_append, List.count_append]
      omega

/-- A client whose `put` has returned is inserted once. -/
theorem Sound.count_inserted (sound : state.Sound)
    (returned : .returned client ∈ state.puts) :
    state.inserted.count client = 1 := by
  have most := count_inserted_le state.puts client
  have once := List.nodup_iff_count_le_one.mp sound.distinct client
  have inInserted : client ∈ state.inserted :=
    List.mem_flatMap.mpr ⟨_, returned, List.mem_singleton_self client⟩
  have least := List.count_pos_iff.mpr inInserted
  rw [inserted] at least ⊢
  omega

theorem mem_queued_iff : client ∈ state.queued ↔
    ∃ mgr < state.mgrs.length, client ∈ state.deque mgr := by
  rw [queued, List.mem_flatMap]
  constructor
  · rintro ⟨object, inMgrs, inDeque⟩
    obtain ⟨mgr, atMgr⟩ := List.mem_iff_getElem?.mp inMgrs
    exact ⟨mgr, (List.getElem?_eq_some_iff.mp atMgr).1,
      (deque_eq atMgr).symm ▸ inDeque⟩
  · rintro ⟨mgr, inRange, inDeque⟩
    obtain ⟨object, atMgr, isDeque⟩ := exists_object inRange
    exact ⟨object, List.mem_of_getElem? atMgr, isDeque ▸ inDeque⟩

/-- The manager that has a client whose `put` has returned is registered. -/
theorem Sound.registered_of_returned (sound : state.Sound)
    (returned : .returned client ∈ state.puts)
    (inRange : mgr < state.mgrs.length)
    (inDeque : client ∈ state.deque mgr) : state.Registered mgr := by
  rcases sound.owned mgr inRange with registered | ⟨tag, owner, inPuts⟩
  · exact registered
  · obtain ⟨_, isDeque, _⟩ := sound.isPrivate tag mgr owner inPuts
    rw [isDeque, List.mem_singleton] at inDeque
    obtain ⟨first, atFirst⟩ := List.mem_iff_getElem?.mp returned
    obtain ⟨second, atSecond⟩ := List.mem_iff_getElem?.mp inPuts
    have same := sound.call_unique atFirst atSecond inDeque
    rw [same, atSecond] at atFirst
    cases atFirst

theorem Sound.keepsClients (sound : state.Sound) : state.KeepsClients := by
  intro idle client returned
  have noInner : state.inner = none := by
    rw [inner, idle]
    rfl
  have counts := sound.conserved client
  rw [hands_of_inner noInner, sound.count_inserted returned,
    List.count_nil] at counts
  by_cases isQueued : client ∈ state.queued
  · have once := List.count_pos_iff.mpr isQueued
    obtain ⟨mgr, inRange, inDeque⟩ := mem_queued_iff.mp isQueued
    have registered :=
      sound.registered_of_returned returned inRange inDeque
    refine Or.inl ⟨⟨mgr, registered, inDeque, ?_⟩, by omega⟩
    intro other registeredToo inOther
    obtain ⟨one, atMgr, isOne⟩ := exists_object inRange
    obtain ⟨two, atOther, isTwo⟩ :=
      exists_object (sound.registered_lt registeredToo)
    have atMostOnce : (state.mgrs.flatMap
        DefaultConnectMgr.httpClientDeque).count client ≤ 1 := by
      rw [queued] at counts
      omega
    exact index_unique atOther atMgr (isTwo ▸ inOther) (isOne ▸ inDeque)
      atMostOnce
  · have never := List.count_eq_zero.mpr isQueued
    refine Or.inr ⟨fun mgr registered inDeque => ?_, by omega⟩
    exact isQueued
      (mem_queued_iff.mpr ⟨mgr, sound.registered_lt registered, inDeque⟩)

/-! ## Managers that were passed to `remove()` -/

/-- A call of `remove()` that has found its manager comes to its end. -/
def EndsRemove (state : Registry) (event : Event) : Prop :=
  event = .releaseStep ∧ ∃ mgr, state.inner = some (mgr, .remove)

instance (state : Registry) (event : Event) :
    Decidable (state.EndsRemove event) :=
  decidable_of_iff (event = .releaseStep ∧
      ∃ running ∈ state.inner, running.2 = .remove) <| and_congr_right' <| by
    constructor
    · rintro ⟨⟨mgr, _⟩, inInner, rfl⟩
      exact ⟨mgr, inInner⟩
    · rintro ⟨mgr, inInner⟩
      exact ⟨_, inInner, rfl⟩

theorem contains_iff : state.contains mgr = true ↔ state.Registered mgr := by
  rw [contains, List.any_eq_true]
  constructor
  · rintro ⟨⟨tag, value⟩, inEntries, same⟩
    rw [beq_iff_eq] at same
    exact ⟨tag, AList.mem_lookup_iff.mpr (same ▸ inEntries)⟩
  · rintro ⟨tag, found⟩
    exact ⟨⟨tag, mgr⟩, AList.mem_lookup_iff.mp found, beq_self_eq_true mgr⟩

theorem removed_mgrStep {step : MgrRelease} (notEnd : step ≠ .remove)
    (registered : state.Registered mgr) :
    (state.mgrStep mgr step).1.removed = state.removed := by
  cases step with
  | remove => exact absurd rfl notEnd
  | contains => rw [mgrStep, if_pos (contains_iff.mpr registered)]
  | size leastNum =>
      rw [mgrStep]
      split
      · split <;> rfl
      · rfl
  | add saveClient => cases saveClient <;> rfl
  | sizeAgain | peekOnly | pollOnly | peekFirst branch | pollFirst branch
  | isEmpty branch =>
      rw [mgrStep]
      split <;> rfl
  | shutOnly client | pollLast | shut branch client | clear branch => rfl

/-- Only the end of a call of `remove()` adds to the removed managers. -/
theorem Sound.removed_step (sound : state.Sound) {event : Event}
    {next : Registry} (notEnd : ¬ state.EndsRemove event)
    (stepped : state.step event = some next) :
    next.removed = state.removed := by
  cases event with
  | putCalled tag client =>
      cases stepped
      rfl
  | putStep call =>
      simp only [Registry.step, Registry.putStep] at stepped
      split at stepped
      · split at stepped <;> cases stepped <;> rfl
      · cases stepped
        rfl
      · cases stepped
        rfl
      · cases stepped
        rfl
      · cases stepped
  | releaseCalled tag currentTime =>
      simp only [Registry.step, Registry.releaseCalled] at stepped
      split at stepped <;> cases stepped
      rfl
  | nextValue tag =>
      simp only [Registry.step, Registry.nextValue] at stepped
      split at stepped
      · split at stepped <;> cases stepped
        rfl
      · cases stepped
  | noValue =>
      simp only [Registry.step, Registry.noValue] at stepped
      split at stepped
      · split at stepped <;> cases stepped
        rfl
      · cases stepped
  | releaseStep =>
      simp only [Registry.step, Registry.releaseStep] at stepped
      split at stepped
      · cases stepped
      · next release isReleasing =>
          split at stepped
          · next mgr step running =>
              have isInner : state.inner = some (mgr, step) := by
                rw [inner, isReleasing]
                exact running
              cases stepped
              apply removed_mgrStep
              · rintro rfl
                exact notEnd ⟨rfl, mgr, isInner⟩
              · exact (sound.running mgr step isInner).1
          · split at stepped
            · split at stepped <;> cases stepped <;> rfl
            · split at stepped <;> cases stepped <;> rfl
            · cases stepped

/-- Such a manager is still registered. -/
theorem Sound.removed_of_endsRemove (sound : state.Sound) {event : Event}
    (ends : state.EndsRemove event) :
    ∃ next, state.step event = some next ∧ ¬ next.RemovesMgrs := by
  obtain ⟨rfl, mgr, running⟩ := ends
  have registered := (sound.running mgr .remove running).1
  cases isReleasing : state.releasing with
  | none => simp [inner, isReleasing] at running
  | some release =>
      have isInner : release.inner = some (mgr, .remove) := by
        rw [inner, isReleasing] at running
        exact running
      have stepped : state.step .releaseStep = some { state with
          removed := mgr :: state.removed
          releasing := resume release mgr .returns } := by
        rw [Registry.step, Registry.releaseStep, isReleasing]
        simp only [isInner]
        rfl
      exact ⟨_, stepped,
        fun removes => removes mgr List.mem_cons_self registered⟩

end Registry

/-! ## Runs of the registry -/

theorem sound_after {history : List Event} {state : Registry}
    (orderly : connectRelease.Along Registry.Orderly history)
    (isHistory : connectRelease.after history = some state) :
    state.Sound :=
  Guarded.along_induction Registry.sound_initial
    (fun _ _ _ sound meets stepped => sound.step meets stepped)
    isHistory orderly

/-- In an orderly history every client is kept; the registry loses the managers
that were passed to `remove()` exactly where no such call comes to its end. -/
theorem connectRelease_of_orderly (history : List Event)
    (orderly : connectRelease.Along Registry.Orderly history) :
    (∀ before rest state, history = before ++ rest →
      connectRelease.after before = some state → state.KeepsClients) ∧
    ((∀ before rest state, history = before ++ rest →
        connectRelease.after before = some state → state.RemovesMgrs) ↔
      connectRelease.Along (fun state event => ¬ state.EndsRemove event)
        history) := by
  refine ⟨?_, ?_, ?_⟩
  · rintro before rest state rfl isBefore
    exact (sound_after orderly.of_append isBefore).keepsClients
  · rintro removes before event rest state rfl isBefore ends
    have sound := sound_after orderly.of_append isBefore
    obtain ⟨next, stepped, contained⟩ := sound.removed_of_endsRemove ends
    have isNext : connectRelease.after (before ++ [event]) = some next :=
      Guarded.after_concat_eq_some.mpr ⟨state, isBefore, stepped⟩
    exact contained
      (removes (before ++ [event]) rest next (by simp) isNext)
  · rintro noEnd before rest state rfl isBefore
    have both : state.Sound ∧ state.removed = [] := by
      refine @Guarded.along_induction _ _ connectRelease before state
        (fun state => state.Sound ∧ state.removed = [])
        (fun state event => state.Orderly event ∧ ¬ state.EndsRemove event)
        ⟨Registry.sound_initial, rfl⟩ ?_ isBefore ?_
      · rintro between event next ⟨sound, none⟩ ⟨meets, notEnd⟩ stepped
        exact ⟨sound.step meets stepped,
          (sound.removed_step notEnd stepped).trans none⟩
      · intro first event later between split isFirst
        have split : before ++ rest = first ++ event :: (later ++ rest) := by
          simp [split]
        exact ⟨orderly first event _ between split isFirst,
          noEnd first event _ between split isFirst⟩
    intro mgr inRemoved
    rw [both.2] at inRemoved
    cases inRemoved

/-- Two calls of `put` on two new tags take turns.  A third one has found the
manager of the first tag when `release` is called for it, and a fourth one is
made while that call has taken the client to be saved out of the queue. -/
def interleaved : List Event :=
  [.putCalled ['a'] ⟨1, 0⟩, .putCalled ['b'] ⟨2, 0⟩, .putStep 0, .putStep 1,
    .putStep 0, .putStep 1, .putStep 1, .putStep 0,
    .putCalled ['a'] ⟨3, 0⟩, .putStep 2, .releaseCalled ['a'] 0,
    .nextValue ['b'], .putStep 2, .nextValue ['a'], .noValue] ++
  List.replicate 4 .releaseStep ++
  [.putCalled ['a'] ⟨4, 0⟩, .putStep 3, .releaseStep, .putStep 3] ++
  List.replicate 8 .releaseStep

/-- All four clients are kept, and the two that are not saved are shut. -/
theorem connectRelease_interleaved :
    (∀ before rest state, interleaved = before ++ rest →
      connectRelease.after before = some state → state.KeepsClients) ∧
    (∀ before rest state, interleaved = before ++ rest →
      connectRelease.after before = some state → state.RemovesMgrs) ∧
    (connectRelease.after interleaved).map Registry.released =
      some [⟨1, 0⟩, ⟨4, 0⟩] := by
  have orderly : connectRelease.Along Registry.Orderly interleaved := by
    decide
  have noEnd : connectRelease.Along
      (fun state event => ¬ state.EndsRemove event) interleaved := by
    decide
  obtain ⟨keeps, removes⟩ := connectRelease_of_orderly interleaved orderly
  exact ⟨keeps, removes.mpr noEnd, by decide⟩

/-- Two calls of `put` that overlap on a new tag. -/
def twoPuts : List Event :=
  [.putCalled ['a'] ⟨1, 0⟩, .putCalled ['a'] ⟨2, 0⟩, .putStep 0, .putStep 1,
    .putStep 0, .putStep 1, .putStep 0, .putStep 1]

/-- The manager of the second call replaces that of the first one, whose
client is lost. -/
theorem twoPuts_lose_client :
    ∃ state, connectRelease.after twoPuts = some state ∧
      ¬ state.KeepsClients := by
  refine ⟨_, rfl, fun keeps => ?_⟩
  rcases keeps rfl ⟨1, 0⟩ (by decide) with
    ⟨⟨mgr, ⟨tag, found⟩, inDeque, _⟩, _⟩ | ⟨_, once⟩
  · change ((AList.insert ['a'] 0 (∅ : AList fun _ : Tag => Mgr)).insert
      ['a'] 1).lookup tag = some mgr at found
    by_cases sameTag : tag = ['a']
    · rw [sameTag, AList.lookup_insert] at found
      rw [← Option.some_inj.mp found] at inDeque
      exact absurd inDeque (by decide)
    · rw [AList.lookup_insert_ne sameTag, AList.lookup_insert_ne sameTag]
        at found
      cases found
  · exact absurd once (by decide)

end DripStone.HttpClient
