import DripStone.Library.Mealy
import DripStone.Library.SortedAssoc

/-!
# `TaskFlow` and `TaskNode`

A task flow runs its nodes in ascending id order.  A `Tasker` is caller code:
inside `Tasker.doWork`, or at any later moment, it may call any method of the
flow or complete any node, and the statements of the flow that follow
`doWork` run only when it returns.  The model therefore cuts the methods at
every call of a tasker.  A tasker that has not returned yet is an entry of
`running`, and its return is an action of its own, so that an action list
describes any nesting of calls.

Node objects are references: two nodes with one id are different objects, and
a node replaced in the array keeps its callback.
-/

namespace DripStone.TaskFlow

open DripStone.Library

/-- Identity of a `TaskNode` object. -/
abbrev NodeRef := Nat

/-- `android.util.SparseArray`: keys are `int`s in ascending order. -/
abbrev SparseArray := SortedAssoc Int

/-- `SparseArray.append` stores a pair like `put`; it differs in speed only,
when the key is the greatest one. -/
def SparseArray.append {α : Type} (array : SparseArray α)
    (key : Int) (value : α) : SparseArray α :=
  array.put key value

/-- `SparseArray.indexOfValue` compares by identity and answers `-1` for an
absent value. -/
def SparseArray.indexOfValue {α : Type} [DecidableEq α]
    (array : SparseArray α) (value : α) : Int :=
  match array.indexOfValue? value with
  | some index => index
  | none => -1

/-- The fields of a `TaskNode`.  The callback is one of the two anonymous
`WorkCallBack`s of the flow; both call `findAndExecuteNextNodeIfExist` with
the index they captured, and that index is all they hold. -/
structure TaskNode where
  nodeId : Int
  callBack : Option Nat
deriving DecidableEq, Repr

/-- What the methods of a flow throw. -/
inductive Failure where
  | unSupportOperateException
  | undefinedNodeException (nodeId : Int)
  | arrayIndexOutOfBoundsException
  | nullPointerException
deriving DecidableEq, Repr

/-- Exception texts of the flow's own exceptions. -/
def Failure.message : Failure → Option String
  | .unSupportOperateException =>
      some "You can not operate a disposed task flow"
  | .undefinedNodeException nodeId =>
      some ("The id :" ++ toString nodeId ++
        " did not found when task flow executed \n Check your task flow build")
  | .arrayIndexOutOfBoundsException => none
  | .nullPointerException => none

/-- What the code outside the flow observes. -/
inductive Event where
  | doWork (node : NodeRef)
  | onNodeChanged (nodeId : Int)
  | onFlowFinish
  | thrown (failure : Failure)
deriving DecidableEq, Repr

/-- A flow, the node objects and the taskers that have not returned, the
innermost first. -/
structure State where
  flowNodes : Option (SparseArray NodeRef)
  recentNode : Option NodeRef
  isDisposed : Bool
  callBack : Bool
  nodes : NodeRef → TaskNode
  running : List NodeRef

abbrev Outcome := Except Failure (State × List Event)

namespace State

/-! ## `TaskNode` -/

def getId (state : State) (node : NodeRef) : Int :=
  (state.nodes node).nodeId

def armed (state : State) (node : NodeRef) : Option Nat :=
  (state.nodes node).callBack

def setNodeCallBack (state : State) (node : NodeRef)
    (callBack : Option Nat) : State :=
  { state with
    nodes := Function.update state.nodes node
      { state.nodes node with callBack := callBack } }

def removeCallBack (state : State) (node : NodeRef) : State :=
  state.setNodeCallBack node none

/-- `TaskNode.doWork` up to the moment the tasker gets control. -/
def doWork (state : State) (node : NodeRef) (callBack : Nat) :
    State × List Event :=
  ({ state.setNodeCallBack node (some callBack) with
      running := node :: state.running },
    [.doWork node])

/-! ## `TaskFlow` -/

/-- `SparseArray.keyAt`.  A negative index leaves the key array; an index
from the size on reads an unused slot, which is zero in an array that has
never been cleared. -/
def keyAt (array : SparseArray NodeRef) (index : Int) :
    Except Failure Int :=
  if index < 0 then
    .error .arrayIndexOutOfBoundsException
  else
    .ok ((array.keyAt? index.toNat).getD 0)

def reset (state : State) : State :=
  match state.flowNodes with
  | some flowNodes => flowNodes.values.foldl removeCallBack state
  | none => state

def dispose (state : State) : State :=
  let state := state.reset
  let state :=
    match state.flowNodes with
    | some _ => { state with flowNodes := none, recentNode := none }
    | none => state
  { state with isDisposed := true, callBack := false }

def addNode (state : State) (taskNode : NodeRef) : Outcome :=
  if state.isDisposed then
    .error .unSupportOperateException
  else
    match state.flowNodes with
    | none => .error .nullPointerException
    | some flowNodes =>
        .ok ({ state with
          flowNodes := some
            (SparseArray.append flowNodes (state.getId taskNode) taskNode) },
          [])

def startWithNode (state : State) (startNodeId : Int) : Outcome :=
  if state.isDisposed then
    .error .unSupportOperateException
  else
    match state.flowNodes with
    | none => .error .nullPointerException
    | some flowNodes =>
        match flowNodes.indexOfKey? startNodeId with
        | none => .error (.undefinedNodeException startNodeId)
        | some startIndex =>
            match flowNodes.valueAt? startIndex with
            | none => .error .arrayIndexOutOfBoundsException
            | some startNode =>
                .ok (doWork
                  { state.reset with recentNode := some startNode }
                  startNode startIndex)

def start (state : State) : Outcome :=
  if state.isDisposed then
    .error .unSupportOperateException
  else
    match state.flowNodes with
    | none => .error .nullPointerException
    | some flowNodes => do
        let firstId ← keyAt flowNodes 0
        state.startWithNode firstId

def findAndExecuteNextNodeIfExist (state : State) (startIndex : Nat) :
    Outcome :=
  let nextIndex := startIndex + 1
  match state.flowNodes with
  | none => .error .nullPointerException
  | some flowNodes =>
      match flowNodes.valueAt? nextIndex with
      | some nextNode =>
          .ok (doWork { state with recentNode := some nextNode }
            nextNode nextIndex)
      | none =>
          .ok (state, if state.callBack then [.onFlowFinish] else [])

/-- `TaskNode.onCompleted`. -/
def onCompleted (state : State) (node : NodeRef) : Outcome :=
  match state.armed node with
  | some startIndex => state.findAndExecuteNextNodeIfExist startIndex
  | none => .ok (state, [])

def continueWork (state : State) : Outcome :=
  if state.isDisposed then
    .error .unSupportOperateException
  else
    match state.recentNode with
    | some recentNode => state.onCompleted recentNode
    | none => .ok (state, [])

def revert (state : State) : Outcome :=
  if state.isDisposed then
    .error .unSupportOperateException
  else
    match state.recentNode, state.flowNodes with
    | some recentNode, some flowNodes => do
        let recentIndex := SparseArray.indexOfValue flowNodes recentNode
        let targetId ← keyAt flowNodes (recentIndex - 1)
        if targetId ≥ 0 then
          state.startWithNode targetId
        else
          .ok (state, [])
    | _, _ => .ok (state, [])

/-- The statements behind `doWork` once the innermost tasker returns. -/
def doWorkReturned (state : State) : State × List Event :=
  match state.running with
  | [] => (state, [])
  | node :: outer =>
      ({ state with running := outer },
        if state.callBack then [.onNodeChanged (state.getId node)] else [])

/-- The innermost tasker throws: the statements behind `doWork` are
skipped. -/
def doWorkThrew (state : State) : State :=
  { state with running := state.running.tail }

end State

/-! ## The machine -/

/-- What the code outside the flow does next. -/
inductive Action where
  | setCallBack (present : Bool)
  | addNode (taskNode : NodeRef)
  | start
  | startWithNode (startNodeId : Int)
  | continueWork
  | revert
  | dispose
  | onCompleted (node : NodeRef)
  | doWorkReturned
  | doWorkThrew
deriving DecidableEq, Repr

def perform (state : State) : Action → Outcome
  | .setCallBack present => .ok ({ state with callBack := present }, [])
  | .addNode taskNode => state.addNode taskNode
  | .start => state.start
  | .startWithNode startNodeId => state.startWithNode startNodeId
  | .continueWork => state.continueWork
  | .revert => state.revert
  | .dispose => .ok (state.dispose, [])
  | .onCompleted node => state.onCompleted node
  | .doWorkReturned => .ok state.doWorkReturned
  | .doWorkThrew => .ok (state.doWorkThrew, [])

/-- No method changes the state before it throws. -/
def settle (state : State) : Outcome → State × List Event
  | .ok result => result
  | .error failure => (state, [.thrown failure])

def step (state : State) (action : Action) : State × List Event :=
  settle state (perform state action)

def flow : Mealy State Action Event := ⟨step⟩

@[simp]
theorem flow_step (state : State) (action : Action) :
    flow.step state action = step state action := rfl

/-- `TaskFlow.Builder`: the nodes handed to `withNode` in order, and whether
`setCallBack` was called. -/
def create (ids : NodeRef → Int) (withNodes : List NodeRef)
    (callBack : Bool) : State where
  flowNodes := some <|
    withNodes.foldl
      (fun f node => SparseArray.append f (ids node) node) SortedAssoc.empty
  recentNode := none
  isDisposed := false
  callBack := callBack
  nodes := fun node => ⟨ids node, none⟩
  running := []

/-- Nodes whose tasker was invoked, in order. -/
def executed (events : List Event) : List NodeRef :=
  events.filterMap fun
    | .doWork node => some node
    | _ => none

/-- What a `FlowCallBack` receives. -/
def Event.isCallBack : Event → Bool
  | .onNodeChanged _ => true
  | .onFlowFinish => true
  | _ => false

@[simp]
theorem executed_append (left right : List Event) :
    executed (left ++ right) = executed left ++ executed right := by
  simp [executed]

@[simp]
theorem executed_nil : executed [] = [] := rfl

end DripStone.TaskFlow
