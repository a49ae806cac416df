import DripStone.Library.Mealy

/-!
# `SyncBarrierCanary`

A round asks three times whether the main thread handles asynchronous messages
but no synchronous ones.  Between any two steps of the checking thread the main
thread may handle a message, and the application may post and remove.
-/

namespace DripStone.BlockCanary.SyncBarrier

open DripStone.Library

/-- What `postSyncBarrier` returns, counted up from 0. -/
abbrev Token := Nat

/-- The messages in the queue of the main thread.  The probes carry the round
and the iteration that sent them, for the laws. -/
inductive Message where
  | barrier (token : Token)
  | asyncProbe (round iteration : Nat)
  | syncProbe (round iteration : Nat)
  | other (isAsynchronous : Bool)
deriving DecidableEq, Repr

def Message.isBarrier : Message → Bool
  | .barrier _ => true
  | _ => false

def Message.isAsynchronous : Message → Bool
  | .asyncProbe _ _ => true
  | .other isAsynchronous => isAsynchronous
  | _ => false

/-- The next step of the checking thread. -/
inductive Pc where
  | idle
  | startCheckLeaking (token : Token)
  | getSyncBarrierToken (token : Token) (checkCount : Nat)
  | sendAsync (token : Token) (checkCount : Nat)
  | sendSync (token : Token) (checkCount : Nat)
  | compare (token : Token) (checkCount : Nat)
  | removeSyncBarrier (token : Token)
  | sleep (token : Token) (checkCount : Nat)
deriving DecidableEq, Repr

def CHECK_STRICTLY_MAX_COUNT : Nat := 3

structure Canary where
  mMessages : List Message
  mNextBarrierToken : Token
  barrierCount : Nat
  -- the rounds that began
  round : Nat
  pc : Pc
deriving DecidableEq, Repr

inductive Action where
  | postSyncBarrier
  | removeSyncBarrier (token : Token)
  -- any other message, at the place that its time gives it
  | post (isAsynchronous : Bool) (place : Nat)
  -- the main thread handles the message at a place
  | handle (place : Nat)
  | onCheck (timedOut : Bool)
  -- the next step of a round
  | step
deriving DecidableEq, Repr

inductive Event where
  | handledAsync (round iteration : Nat)
  | handledSync (round iteration : Nat)
  -- `removeSyncBarrier(token)` is called by a round
  | called (token : Token)
  -- and takes the barrier out of the queue
  | removed (token : Token)
deriving DecidableEq, Repr

namespace Canary

def new : Canary := ⟨[], 0, 0, 0, .idle⟩

/-- The first barrier in the queue. -/
def firstBarrier (messages : List Message) : Option Token :=
  messages.findSome? fun message =>
    match message with
    | .barrier token => some token
    | _ => none

def getSyncBarrierToken (canary : Canary) : Int :=
  match firstBarrier canary.mMessages with
  | some token => token
  | none => -1

/-- `mainHandler.handleMessage`. -/
def handleMessage (canary : Canary) : Message → Canary × List Event
  | .asyncProbe round iteration =>
      ({ canary with barrierCount := canary.barrierCount + 1 },
        [.handledAsync round iteration])
  | .syncProbe round iteration =>
      ({ canary with barrierCount := 0 }, [.handledSync round iteration])
  | _ => (canary, [])

/-- The main thread may take a message that is asynchronous, or that no
barrier stands in front of. -/
def mayHandle (messages : List Message) (place : Nat)
    (message : Message) : Bool :=
  !message.isBarrier &&
    (message.isAsynchronous || !(messages.take place).any Message.isBarrier)

def handle (canary : Canary) (place : Nat) : Canary × List Event :=
  match canary.mMessages[place]? with
  | some message =>
      if mayHandle canary.mMessages place message then
        handleMessage
          { canary with mMessages := canary.mMessages.eraseIdx place } message
      else (canary, [])
  | none => (canary, [])

/-- `onCheck`, up to its call of `startCheckLeaking`. -/
def onCheck (canary : Canary) (timedOut : Bool) : Canary :=
  match canary.pc, canary.mMessages.head? with
  | .idle, some (.barrier token) =>
      if timedOut then
        { canary with
          round := canary.round + 1
          pc := .startCheckLeaking token }
      else canary
  | _, _ => canary

/-- The next step of `startCheckLeaking`. -/
def advance (canary : Canary) : Canary × List Event :=
  match canary.pc with
  | .idle => (canary, [])
  | .startCheckLeaking token =>
      ({ canary with
          barrierCount := 0
          pc := .getSyncBarrierToken token 0 }, [])
  | .getSyncBarrierToken token checkCount =>
      if checkCount < CHECK_STRICTLY_MAX_COUNT then
        if (token : Int) ≠ canary.getSyncBarrierToken then
          ({ canary with pc := .idle }, [])
        else ({ canary with pc := .sendAsync token (checkCount + 1) }, [])
      else ({ canary with pc := .idle }, [])
  | .sendAsync token checkCount =>
      ({ canary with
          mMessages :=
            canary.mMessages ++ [.asyncProbe canary.round checkCount]
          pc := .sendSync token checkCount }, [])
  | .sendSync token checkCount =>
      ({ canary with
          mMessages :=
            canary.mMessages ++ [.syncProbe canary.round checkCount]
          pc := .compare token checkCount }, [])
  | .compare token checkCount =>
      if canary.barrierCount > 3 then
        ({ canary with pc := .removeSyncBarrier token }, [])
      else ({ canary with pc := .sleep token checkCount }, [])
  | .removeSyncBarrier token =>
      ({ canary with
          mMessages := canary.mMessages.erase (.barrier token)
          pc := .idle },
        if .barrier token ∈ canary.mMessages then
          [.called token, .removed token]
        -- an exception, which is caught
        else [.called token])
  | .sleep token checkCount =>
      ({ canary with pc := .getSyncBarrierToken token checkCount }, [])

def perform (canary : Canary) : Action → Canary × List Event
  | .postSyncBarrier =>
      ({ canary with
          mMessages :=
            canary.mMessages ++ [.barrier canary.mNextBarrierToken]
          mNextBarrierToken := canary.mNextBarrierToken + 1 }, [])
  | .removeSyncBarrier token =>
      ({ canary with
          mMessages := canary.mMessages.erase (.barrier token) }, [])
  | .post isAsynchronous place =>
      ({ canary with
          mMessages := canary.mMessages.take place ++
            .other isAsynchronous :: canary.mMessages.drop place }, [])
  | .handle place => canary.handle place
  | .onCheck timedOut => (canary.onCheck timedOut, [])
  | .step => canary.advance

end Canary

/-- The main thread, the application and the checking thread; the trace is the
probes that were handled, and what the rounds removed. -/
def machine : Mealy Canary Action Event :=
  ⟨Canary.perform⟩

def canaryAfter (actions : List Action) : Canary :=
  machine.run .new actions

theorem canaryAfter_concat (actions : List Action) (action : Action) :
    canaryAfter (actions ++ [action]) =
      ((canaryAfter actions).perform action).1 :=
  machine.run_concat _ _ _

end DripStone.BlockCanary.SyncBarrier
