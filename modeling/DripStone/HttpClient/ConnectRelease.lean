import DripStone.Library.Guarded
import DripStone.Library.Paths

/-!
# The registry of connections

A map of managers, each with a queue of clients.  Calls of `put` run side by
side, one `release` runs at a time; each operation on the map or on a queue is
one event.
-/

namespace DripStone.HttpClient

open DripStone.Library

/-! ## Clients and managers -/

/-- A Java `long`. -/
abbrev JLong := BitVec 64

abbrev Tag := Text

structure ConnectClient where
  identity : Nat
  requestTime : JLong
deriving DecidableEq, Repr

structure DefaultConnectMgr where
  lastTimeStamp : JLong
  httpClientDeque : List ConnectClient
deriving DecidableEq, Repr

/-- `new DefaultConnectMgr()` -/
def DefaultConnectMgr.new : DefaultConnectMgr := ⟨0, []⟩

def DefaultConnectMgr.put (mgr : DefaultConnectMgr)
    (client : ConnectClient) : DefaultConnectMgr where
  lastTimeStamp := client.requestTime
  httpClientDeque := mgr.httpClientDeque ++ [client]

/-- `5 * 60 * 1000` -/
def MAX_TIME : JLong := 300000

/-- `Math.abs` on `long`, which leaves the least number as it is. -/
def abs (value : JLong) : JLong :=
  if value.slt 0 then -value else value

/-- `Math.abs(currentTime - connectMgr.getTimeStamp()) > MAX_TIME` -/
def DefaultConnectMgr.expired (mgr : DefaultConnectMgr)
    (currentTime : JLong) : Bool :=
  MAX_TIME.slt (abs (currentTime - mgr.lastTimeStamp))

/-- A manager object, by its number. -/
abbrev Mgr := Nat

/-- An argument of type `Object`. -/
inductive Object where
  | string (tag : Tag)
  | mgr (mgr : Mgr)
deriving DecidableEq, Repr

/-! ## The calls in progress -/

/-- A call of `DefaultConnectReleaseImpl.put`, by what it does next. -/
inductive Put where
  | get (tag : Tag) (client : ConnectClient)
  -- a manager was found
  | addLast (mgr : Mgr) (client : ConnectClient)
  -- no manager was found
  | create (tag : Tag) (client : ConnectClient)
  | register (tag : Tag) (mgr : Mgr) (client : ConnectClient)
  | returned (client : ConnectClient)
deriving DecidableEq, Repr

def Put.client : Put → ConnectClient
  | .get _ client | .addLast _ client | .create _ client
  | .register _ _ client | .returned client => client

/-- Which clients the loop of `DefaultConnectMgr.release` is for. -/
inductive Branch where
  | all
  | allBut (saveClient : Option ConnectClient)
deriving DecidableEq, Repr

/-- What a call of `DefaultConnectMgr.release` does next. -/
inductive MgrRelease where
  | size (leastNum : Nat)
  | sizeAgain
  -- the only client
  | peekOnly
  | pollOnly
  | shutOnly (client : ConnectClient)
  -- the loop, before it the client that is saved
  | pollLast
  | peekFirst (branch : Branch)
  | pollFirst (branch : Branch)
  | shut (branch : Branch) (client : ConnectClient)
  | isEmpty (branch : Branch)
  | clear (branch : Branch)
  | add (saveClient : Option ConnectClient)
  -- `connectRelease.remove(this)`
  | contains
  | remove
deriving DecidableEq, Repr

/-- Where a call of `DefaultConnectReleaseImpl.release` is. -/
inductive ReleasePoint where
  -- in the loop over the values, with the keys that were there at its start
  -- and those it has visited
  | values (atStart visited : List Tag)
  | containsKey
  | get
  | last
deriving DecidableEq, Repr

structure Release where
  tag : Tag
  currentTime : JLong
  point : ReleasePoint
  -- the running `connectMgr.release`
  inner : Option (Mgr × MgrRelease)
deriving DecidableEq, Repr

structure Registry where
  mgrs : List DefaultConnectMgr
  connectMgrMap : AList (fun _ : Tag => Mgr)
  puts : List Put
  releasing : Option Release
  -- the clients on which `release()` was called
  released : List ConnectClient
  -- the managers that were passed to `remove()`
  removed : List Mgr

inductive Event where
  | putCalled (tag : Tag) (client : ConnectClient)
  | putStep (call : Nat)
  | releaseCalled (tag : Tag) (currentTime : JLong)
  | nextValue (tag : Tag)
  | noValue
  | releaseStep
deriving DecidableEq, Repr

namespace Registry

def initial : Registry := ⟨[], ∅, [], none, [], []⟩

def deque (state : Registry) (mgr : Mgr) : List ConnectClient :=
  (state.mgrs[mgr]?.map DefaultConnectMgr.httpClientDeque).getD []

def setDeque (state : Registry) (mgr : Mgr)
    (clients : List ConnectClient) : Registry :=
  { state with
    mgrs := state.mgrs.modify mgr fun object =>
      { object with httpClientDeque := clients } }

/-- `connectMgr.put(client)` -/
def putInto (state : Registry) (mgr : Mgr) (client : ConnectClient) :
    Registry :=
  { state with mgrs := state.mgrs.modify mgr (·.put client) }

/-- `client.release()` -/
def shut (state : Registry) (client : ConnectClient) : Registry :=
  { state with released := state.released ++ [client] }

/-- `connectMgrMap.contains(connectMgr)`, which looks at the values. -/
def contains (state : Registry) (mgr : Mgr) : Bool :=
  state.connectMgrMap.entries.any fun entry => entry.2 == mgr

/-- `connectMgrMap.remove(key)`; all keys are strings. -/
def removeKey (state : Registry) : Object → Registry
  | .string tag =>
      { state with connectMgrMap := state.connectMgrMap.erase tag }
  | .mgr _ => state

/-! ## `put` -/

def setPut (state : Registry) (call : Nat) (put : Put) : Registry :=
  { state with puts := state.puts.set call put }

def putStep (state : Registry) (call : Nat) : Option Registry :=
  match state.puts[call]? with
  | some (.get tag client) =>
      match state.connectMgrMap.lookup tag with
      | some mgr => some (state.setPut call (.addLast mgr client))
      | none => some (state.setPut call (.create tag client))
  | some (.addLast mgr client) =>
      some ((state.putInto mgr client).setPut call (.returned client))
  | some (.create tag client) =>
      some ({ state with
        mgrs := state.mgrs ++ [DefaultConnectMgr.new.put client] }.setPut
          call (.register tag state.mgrs.length client))
  | some (.register tag mgr client) =>
      some ({ state with
        connectMgrMap := state.connectMgrMap.insert tag mgr }.setPut
          call (.returned client))
  | _ => none

/-! ## `DefaultConnectMgr.release` -/

/-- How a call goes on: with another step, or it returns, or it fails. -/
inductive Next where
  | goesOn (step : MgrRelease)
  | returns
  | fails
deriving DecidableEq, Repr

/-- Behind the loop. -/
def afterLoop : Branch → MgrRelease
  | .all => .contains
  | .allBut saveClient => .add saveClient

def mgrStep (state : Registry) (mgr : Mgr) : MgrRelease → Registry × Next
  | .size leastNum =>
      if 1 < (state.deque mgr).length then
        if leastNum < 1 then (state, .goesOn (.peekFirst .all))
        else (state, .goesOn .pollLast)
      else (state, .goesOn .sizeAgain)
  | .sizeAgain =>
      if (state.deque mgr).length = 1 then (state, .goesOn .peekOnly)
      else (state, .returns)
  | .peekOnly =>
      if state.deque mgr ≠ [] then (state, .goesOn .pollOnly)
      else (state, .goesOn .contains)
  | .pollOnly =>
      match state.deque mgr with
      | [] => (state, .fails)
      | client :: rest =>
          (state.setDeque mgr rest, .goesOn (.shutOnly client))
  | .shutOnly client => (state.shut client, .goesOn .contains)
  | .pollLast =>
      (state.setDeque mgr (state.deque mgr).dropLast,
        .goesOn (.peekFirst (.allBut (state.deque mgr).getLast?)))
  | .peekFirst branch =>
      if state.deque mgr ≠ [] then (state, .goesOn (.pollFirst branch))
      else (state, .goesOn (.isEmpty branch))
  | .pollFirst branch =>
      match state.deque mgr with
      | [] => (state, .fails)
      | client :: rest =>
          (state.setDeque mgr rest, .goesOn (.shut branch client))
  | .shut branch client => (state.shut client, .goesOn (.peekFirst branch))
  | .isEmpty branch =>
      if state.deque mgr = [] then (state, .goesOn (afterLoop branch))
      else (state, .goesOn (.clear branch))
  | .clear branch => (state.setDeque mgr [], .goesOn (afterLoop branch))
  | .add none => (state, .returns)
  | .add (some client) => (state.putInto mgr client, .returns)
  | .contains =>
      if state.contains mgr then (state, .goesOn .remove)
      else ({ state with removed := mgr :: state.removed }, .returns)
  | .remove =>
      ({ state.removeKey (.mgr mgr) with removed := mgr :: state.removed },
        .returns)

/-! ## `release` -/

/-- Behind a `connectMgr.release`: the last one is the end of the call, as is
an exception. -/
def resume (release : Release) (mgr : Mgr) : Next → Option Release
  | .goesOn step => some { release with inner := some (mgr, step) }
  | .returns =>
      if release.point = .last then none
      else some { release with inner := none }
  | .fails => none

def releaseStep (state : Registry) : Option Registry :=
  match state.releasing with
  | none => none
  | some release =>
      match release.inner with
      | some (mgr, step) =>
          let (moved, next) := state.mgrStep mgr step
          some { moved with releasing := resume release mgr next }
      | none =>
          match release.point with
          | .containsKey =>
              if release.tag ∈ state.connectMgrMap then
                some { state with
                  releasing := some { release with point := .get } }
              else some { state with releasing := none }
          | .get =>
              match state.connectMgrMap.lookup release.tag with
              | some mgr => some { state with
                  releasing := some { release with
                    point := .last
                    inner := some (mgr, .size 1) } }
              | none => some { state with releasing := none }
          | _ => none

/-- The loop over the values takes one that it has not visited. -/
def nextValue (state : Registry) (tag : Tag) : Option Registry :=
  match state.releasing, state.connectMgrMap.lookup tag with
  | some ⟨ofTag, currentTime, .values atStart visited, none⟩, some mgr =>
      if tag ∈ visited then none
      else
        let isExpired := (state.mgrs[mgr]?.map fun object =>
          object.expired currentTime).getD false
        some { state with
          releasing := some ⟨ofTag, currentTime,
            .values atStart (tag :: visited),
            if isExpired then some (mgr, .size 0) else none⟩ }
  | _, _ => none

/-- The loop ends behind all values that were there at its start. -/
def noValue (state : Registry) : Option Registry :=
  match state.releasing with
  | some ⟨ofTag, currentTime, .values atStart visited, none⟩ =>
      if ∀ tag ∈ atStart, tag ∈ visited then
        some { state with
          releasing := some ⟨ofTag, currentTime, .containsKey, none⟩ }
      else none
  | _ => none

def releaseCalled (state : Registry) (tag : Tag) (currentTime : JLong) :
    Option Registry :=
  if state.releasing.isSome then none
  else
    some { state with
      releasing := some ⟨tag, currentTime,
        .values state.connectMgrMap.keys [], none⟩ }

def step (state : Registry) : Event → Option Registry
  | .putCalled tag client =>
      some { state with puts := state.puts ++ [.get tag client] }
  | .putStep call => state.putStep call
  | .releaseCalled tag currentTime => state.releaseCalled tag currentTime
  | .nextValue tag => state.nextValue tag
  | .noValue => state.noValue
  | .releaseStep => state.releaseStep

end Registry

def connectRelease : Guarded Registry Event where
  start := .initial
  step := Registry.step

/-! ## Conservation -/

namespace Registry

def Registered (state : Registry) (mgr : Mgr) : Prop :=
  ∃ tag, state.connectMgrMap.lookup tag = some mgr

/-- The client is in the queue of exactly one registered manager and was not
released, or it was released once and is in none of the queues. -/
def Conserved (state : Registry) (client : ConnectClient) : Prop :=
  ((∃ mgr, state.Registered mgr ∧ client ∈ state.deque mgr ∧
      ∀ other, state.Registered other → client ∈ state.deque other →
        other = mgr) ∧
    state.released.count client = 0) ∨
  (∀ mgr, state.Registered mgr → client ∉ state.deque mgr) ∧
    state.released.count client = 1

/-- While no `release` runs, every client whose `put` has returned is
conserved. -/
def KeepsClients (state : Registry) : Prop :=
  state.releasing = none → ∀ client, .returned client ∈ state.puts →
    state.Conserved client

/-- No manager that was passed to `remove()` is registered. -/
def RemovesMgrs (state : Registry) : Prop :=
  ∀ mgr ∈ state.removed, ¬ state.Registered mgr

end Registry

end DripStone.HttpClient
