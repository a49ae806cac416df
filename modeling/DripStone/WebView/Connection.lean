import DripStone.Library.Guarded
import DripStone.Library.Paths

/-!
# The binder of the main process

The web process holds the binder of the main process twice: the connector
replaces its own when the main process has died and is connected again, the
dispatcher keeps the one that it was given first.
-/

namespace DripStone.WebView

open DripStone.Library

/-! ## The state of the two processes -/

abbrev Binder := Nat

/-- `MainProcessConnector.sInstance` -/
inductive Singleton where
  | absent
  -- the constructor waits for the first connection
  | underConstruction
  | present
deriving DecidableEq, Repr

structure Processes where
  -- the binder of the main process, if it runs
  main : Option Binder
  died : List Binder
  -- `MainProcessConnector`
  sInstance : Singleton
  iWebToMain : Option Binder
  mConnectBinderPoolCountDownLatch : Nat
  -- the binders whose death is reported to `mBinderPoolDeathRecipient`
  linked : List Binder
  -- the calls of `connectToMainProcessService` in `binderDied` to come
  reconnecting : Nat
  -- `CommandDispatcher`
  webAidlInterface : Option Binder
  -- the threads of `initAidlConnect`, before and inside `getInstance`
  started : Nat
  entered : Nat
  -- the interfaces that these threads have got and not stored yet
  got : List Binder
  -- the names of `CommandsManager`
  commands : List Text
deriving DecidableEq, Repr

inductive Event where
  | initAidlConnect
  | getInstance
  | getIWebAidlInterface
  | store (binder : Binder)
  | onServiceConnected (service : Binder)
  | onServiceDisconnected
  | mainProcessDied (binder : Binder)
  | binderDied (binder : Binder)
  | connectToMainProcessService
  | registerCommand (name : Text)
  | exec (cmd params : Text)
deriving DecidableEq, Repr

/-- What becomes of a command. -/
inductive Outcome where
  | webviewProcess (cmd params : Text)
  | sent (binder : Binder) (cmd params : Text)
  | nothing
deriving DecidableEq, Repr

namespace Processes

def initial (commands : List Text) : Processes where
  main := none
  died := []
  sInstance := .absent
  iWebToMain := none
  mConnectBinderPoolCountDownLatch := 0
  linked := []
  reconnecting := 0
  webAidlInterface := none
  started := 0
  entered := 0
  got := []
  commands := commands

/-! ## `CommandDispatcher` -/

def initAidlConnect (state : Processes) : Processes :=
  if state.webAidlInterface.isSome then state
  else { state with started := state.started + 1 }

def exec (state : Processes) (cmd params : Text) : Outcome :=
  if cmd ∈ state.commands then .webviewProcess cmd params
  else
    match state.webAidlInterface with
    | some binder => .sent binder cmd params
    | none => .nothing

/-! ## `MainProcessConnector` -/

/-- A thread enters `getInstance`; the first one runs the constructor, which
binds the service and waits. -/
def getInstance (state : Processes) : Option Processes :=
  if state.started = 0 then none
  else
    let inside := { state with
      started := state.started - 1
      entered := state.entered + 1 }
    match state.sInstance with
    | .absent => some { inside with
        sInstance := .underConstruction
        mConnectBinderPoolCountDownLatch := 1 }
    | _ => some inside

/-- A thread comes out of `getInstance` and asks for the interface.  Without
one it fails, and the web process with it. -/
def getIWebAidlInterface (state : Processes) : Option Processes :=
  if state.entered = 0 then none
  else if state.sInstance = .present ∨
      state.mConnectBinderPoolCountDownLatch = 0 then
    state.iWebToMain.map fun binder => { state with
      sInstance := .present
      entered := state.entered - 1
      got := binder :: state.got }
  else none

def store (state : Processes) (binder : Binder) : Option Processes :=
  if binder ∈ state.got then
    some { state with
      got := state.got.erase binder
      webAidlInterface := some binder }
  else none

/-- The system reports a connection to the main process, which it has started
if it did not run; the process can have died since. -/
def onServiceConnected (state : Processes) (service : Binder) :
    Option Processes :=
  if state.sInstance = .absent then none
  else
    let connected := { state with
      iWebToMain := some service
      mConnectBinderPoolCountDownLatch :=
        state.mConnectBinderPoolCountDownLatch - 1 }
    if service ∈ state.died then some connected
    else if state.main.all (· = service) then
      some { connected with
        main := some service
        linked := service :: state.linked }
    else none

def mainProcessDied (state : Processes) (binder : Binder) :
    Option Processes :=
  if state.main = some binder then
    some { state with main := none, died := binder :: state.died }
  else none

def binderDied (state : Processes) (binder : Binder) : Option Processes :=
  if binder ∈ state.linked ∧ binder ∈ state.died then
    let reported := { state with linked := state.linked.erase binder }
    match state.iWebToMain with
    | none => some reported
    | some current => some { reported with
        linked := reported.linked.erase current
        iWebToMain := none
        reconnecting := state.reconnecting + 1 }
  else none

/-- The call in `binderDied`, once no other call holds the connector. -/
def connectToMainProcessService (state : Processes) : Option Processes :=
  if state.reconnecting ≠ 0 ∧ state.sInstance = .present ∧
      state.mConnectBinderPoolCountDownLatch = 0 then
    some { state with
      reconnecting := state.reconnecting - 1
      mConnectBinderPoolCountDownLatch := 1 }
  else none

def step (state : Processes) : Event → Option Processes
  | .initAidlConnect => some state.initAidlConnect
  | .getInstance => state.getInstance
  | .getIWebAidlInterface => state.getIWebAidlInterface
  | .store binder => state.store binder
  | .onServiceConnected service => state.onServiceConnected service
  | .onServiceDisconnected => some state
  | .mainProcessDied binder => state.mainProcessDied binder
  | .binderDied binder => state.binderDied binder
  | .connectToMainProcessService => state.connectToMainProcessService
  | .registerCommand name =>
      some { state with commands := name :: state.commands }
  | .exec _ _ => some state

end Processes

def webProcess (commands : List Text) : Guarded Processes Event where
  start := .initial commands
  step := Processes.step

/-! ## Live binders -/

def Connects (history : List Event) : Prop :=
  ∃ service, .onServiceConnected service ∈ history

/-- A command is sent to the live binder of the connector, to no dead binder,
and it is not lost where the first connection is still to come. -/
structure Delivered (state : Processes) (before after : List Event)
    (cmd params : Text) : Prop where
  live : ∀ binder, state.iWebToMain = some binder → binder ∉ state.died →
    state.exec cmd params = .sent binder cmd params
  notDead : ∀ binder, state.exec cmd params = .sent binder cmd params →
    binder ∉ state.died
  notLost : ¬ Connects before → Connects after →
    state.exec cmd params ≠ .nothing

/-- Every command for the main process is delivered. -/
def UsesLiveBinders (commands : List Text) (history : List Event) : Prop :=
  ∀ before cmd params after state,
    history = before ++ .exec cmd params :: after →
    (webProcess commands).after before = some state →
    cmd ∉ state.commands → Delivered state before after cmd params

/-! ## The condition -/

def Event.IsStore (event : Event) : Prop :=
  ∃ binder, event = .store binder

/-- An event behind which the connector has another binder, or none. -/
def Event.IsReport (event : Event) : Prop :=
  (∃ service, event = .onServiceConnected service) ∨
    ∃ binder, event = .binderDied binder

def Died (history : List Event) (binder : Binder) : Prop :=
  .mainProcessDied binder ∈ history

/-- The interface that a thread has stored last is one of a main process that
has not died; or no interface was stored, the binder of the last report has
died, and the first connection is not still to come. -/
def Timely (before after : List Event) : Prop :=
  (∃ binder, LastOf Event.IsStore before (.store binder) ∧
      ¬ Died before binder) ∨
    (∀ event ∈ before, ¬ event.IsStore) ∧
      (∀ service,
        LastOf Event.IsReport before (.onServiceConnected service) →
          Died before service) ∧
      (Connects after → Connects before)

/-- Every command for the main process comes in time. -/
def ExecsTimely (commands : List Text) (history : List Event) : Prop :=
  ∀ before cmd params after,
    history = before ++ .exec cmd params :: after → cmd ∉ commands →
      .registerCommand cmd ∉ before → Timely before after

/-! ## One step -/

namespace Processes

/-- What a step does to the two interfaces, to the dead binders and to the
names of the commands. -/
structure Stepped (state : Processes) (event : Event) (next : Processes) :
    Prop where
  webAidlInterface : next.webAidlInterface =
    match event with
    | .store binder => some binder
    | _ => state.webAidlInterface
  iWebToMain : next.iWebToMain =
    match event with
    | .onServiceConnected service => some service
    | .binderDied _ => none
    | _ => state.iWebToMain
  died : next.died =
    match event with
    | .mainProcessDied binder => binder :: state.died
    | _ => state.died
  commands : next.commands =
    match event with
    | .registerCommand name => name :: state.commands
    | _ => state.commands

/-- A binder that the web process has somewhere. -/
def Known (state : Processes) (binder : Binder) : Prop :=
  state.iWebToMain = some binder ∨ binder ∈ state.got ∨
    state.webAidlInterface = some binder

/-- Every known binder that has not died is that of the main process. -/
def Single (state : Processes) : Prop :=
  ∀ binder, state.Known binder → binder ∉ state.died →
    state.main = some binder

variable {state next : Processes} {binder service : Binder}

theorem Single.of_known (single : state.Single)
    (main : next.main = state.main) (died : next.died = state.died)
    (known : ∀ binder, next.Known binder → state.Known binder) :
    next.Single := by
  intro binder isKnown alive
  rw [died] at alive
  rw [main]
  exact single binder (known binder isKnown) alive

theorem getInstance_spec (stepped : state.getInstance = some next) :
    state.Stepped .getInstance next ∧ (state.Single → next.Single) := by
  rw [getInstance] at stepped
  split at stepped
  · cases stepped
  · split at stepped <;> cases stepped <;>
      exact ⟨⟨rfl, rfl, rfl, rfl⟩, fun single => single⟩

theorem getIWebAidlInterface_spec
    (stepped : state.getIWebAidlInterface = some next) :
    state.Stepped .getIWebAidlInterface next ∧
      (state.Single → next.Single) := by
  rw [getIWebAidlInterface] at stepped
  split at stepped
  · cases stepped
  · split at stepped
    · obtain ⟨binder, current, rfl⟩ := Option.map_eq_some_iff.mp stepped
      refine ⟨⟨rfl, rfl, rfl, rfl⟩, fun single => ?_⟩
      refine single.of_known (by rfl) (by rfl) ?_
      rintro other (isCurrent | inGot | isStored)
      · exact Or.inl isCurrent
      · rcases List.mem_cons.mp inGot with rfl | inGot
        · exact Or.inl current
        · exact Or.inr (Or.inl inGot)
      · exact Or.inr (Or.inr isStored)
    · cases stepped

theorem store_spec (stepped : state.store binder = some next) :
    state.Stepped (.store binder) next ∧ (state.Single → next.Single) := by
  rw [store] at stepped
  split at stepped
  · next isGot =>
      cases stepped
      refine ⟨⟨rfl, rfl, rfl, rfl⟩, fun single => ?_⟩
      refine single.of_known (by rfl) (by rfl) ?_
      rintro other (isCurrent | inGot | isStored)
      · exact Or.inl isCurrent
      · exact Or.inr (Or.inl (List.mem_of_mem_erase inGot))
      · rw [← Option.some_inj.mp isStored]
        exact Or.inr (Or.inl isGot)
  · cases stepped

theorem onServiceConnected_spec
    (stepped : state.onServiceConnected service = some next) :
    state.Stepped (.onServiceConnected service) next ∧
      (state.Single → next.Single) := by
  rw [onServiceConnected] at stepped
  split at stepped
  · cases stepped
  · split at stepped
    · next isDead =>
        cases stepped
        refine ⟨⟨rfl, rfl, rfl, rfl⟩, fun single => ?_⟩
        rintro other (isCurrent | known) alive
        · rw [← Option.some_inj.mp isCurrent] at alive
          exact absurd isDead alive
        · exact single other (Or.inr known) alive
    · split at stepped
      · next isMain =>
          cases stepped
          refine ⟨⟨rfl, rfl, rfl, rfl⟩, fun single => ?_⟩
          rintro other (isCurrent | known) alive
          · exact isCurrent
          · have atMain := single other (Or.inr known) alive
            rw [atMain] at isMain
            have same : other = service := by simpa using isMain
            rw [same]
      · cases stepped

theorem mainProcessDied_spec
    (stepped : state.mainProcessDied binder = some next) :
    state.Stepped (.mainProcessDied binder) next ∧
      (state.Single → next.Single) := by
  rw [mainProcessDied] at stepped
  split at stepped
  · next isMain =>
      cases stepped
      refine ⟨⟨rfl, rfl, rfl, rfl⟩, fun single => ?_⟩
      intro other known alive
      rw [List.mem_cons, not_or] at alive
      have atMain := single other known alive.2
      rw [isMain] at atMain
      exact absurd (Option.some_inj.mp atMain).symm alive.1
  · cases stepped

theorem binderDied_spec (stepped : state.binderDied binder = some next) :
    state.Stepped (.binderDied binder) next ∧
      (state.Single → next.Single) := by
  rw [binderDied] at stepped
  split at stepped
  · split at stepped
    · next noInterface =>
        cases stepped
        exact ⟨⟨rfl, noInterface, rfl, rfl⟩, fun single => single⟩
    · cases stepped
      refine ⟨⟨rfl, rfl, rfl, rfl⟩, fun single => ?_⟩
      refine single.of_known (by rfl) (by rfl) ?_
      rintro other (isCurrent | known)
      · cases isCurrent
      · exact Or.inr known
  · cases stepped

theorem connectToMainProcessService_spec
    (stepped : state.connectToMainProcessService = some next) :
    state.Stepped .connectToMainProcessService next ∧
      (state.Single → next.Single) := by
  rw [connectToMainProcessService] at stepped
  split at stepped
  · cases stepped
    exact ⟨⟨rfl, rfl, rfl, rfl⟩, fun single => single⟩
  · cases stepped

theorem step_spec {event : Event} (stepped : state.step event = some next) :
    state.Stepped event next ∧ (state.Single → next.Single) := by
  cases event with
  | initAidlConnect =>
      rw [← Option.some_inj.mp stepped, initAidlConnect]
      split <;> exact ⟨⟨rfl, rfl, rfl, rfl⟩, fun single => single⟩
  | getInstance => exact getInstance_spec stepped
  | getIWebAidlInterface => exact getIWebAidlInterface_spec stepped
  | store binder => exact store_spec stepped
  | onServiceConnected service => exact onServiceConnected_spec stepped
  | mainProcessDied binder => exact mainProcessDied_spec stepped
  | binderDied binder => exact binderDied_spec stepped
  | connectToMainProcessService =>
      exact connectToMainProcessService_spec stepped
  | onServiceDisconnected | registerCommand name | exec cmd params =>
      rw [← Option.some_inj.mp stepped]
      exact ⟨⟨rfl, rfl, rfl, rfl⟩, fun single => single⟩

end Processes

/-! ## What the states remember of the history -/

structure Remembered (commands : List Text) (history : List Event)
    (state : Processes) : Prop where
  stored : ∀ binder, state.webAidlInterface = some binder ↔
    LastOf Event.IsStore history (.store binder)
  current : ∀ service, state.iWebToMain = some service ↔
    LastOf Event.IsReport history (.onServiceConnected service)
  died : ∀ binder, binder ∈ state.died ↔ Died history binder
  names : ∀ name, name ∈ state.commands ↔
    name ∈ commands ∨ .registerCommand name ∈ history
  single : state.Single

theorem Remembered.step {commands : List Text} {history : List Event}
    {state next : Processes} {event : Event}
    (remembered : Remembered commands history state)
    (stepped : state.step event = some next) :
    Remembered commands (history ++ [event]) next := by
  obtain ⟨fields, single⟩ := Processes.step_spec stepped
  constructor
  · intro binder
    rw [lastOf_concat, ← remembered.stored, fields.webAidlInterface]
    cases event <;> simp [Event.IsStore, eq_comm]
  · intro service
    rw [lastOf_concat, ← remembered.current, fields.iWebToMain]
    cases event <;> simp [Event.IsReport, eq_comm]
  · intro binder
    rw [Died, List.mem_append, ← Died, ← remembered.died, fields.died]
    cases event <;> simp [or_comm]
  · intro name
    rw [List.mem_append, ← or_assoc, ← remembered.names, fields.commands]
    cases event <;> simp [or_comm]
  · exact single remembered.single

theorem remembered_start (commands : List Text) :
    Remembered commands [] (.initial commands) := by
  constructor
  · intro binder
    simp [Processes.initial, not_lastOf_nil]
  · intro service
    simp [Processes.initial, not_lastOf_nil]
  · intro binder
    simp [Processes.initial, Died]
  · intro name
    simp [Processes.initial]
  · rintro binder (isCurrent | isGot | isStored) _
    · cases isCurrent
    · cases isGot
    · cases isStored

theorem remembered_after {commands : List Text} {history : List Event}
    {state : Processes}
    (isHistory : (webProcess commands).after history = some state) :
    Remembered commands history state :=
  Guarded.after_induction (Remembered commands) (remembered_start commands)
    (fun _ _ _ _ remembered stepped => remembered.step stepped) isHistory

/-! ## Which histories use live binders -/

theorem noStore_of_not_lastOf {history : List Event}
    (noLast : ∀ binder, ¬ LastOf Event.IsStore history (.store binder)) :
    ∀ event ∈ history, ¬ event.IsStore := by
  induction history using List.reverseRecOn with
  | nil =>
      intro event inHistory
      cases inHistory
  | append_singleton history last inductionHypothesis =>
      have notLast : ¬ last.IsStore := by
        rintro ⟨binder, rfl⟩
        exact noLast binder (lastOf_concat.mpr (Or.inl rfl))
      intro event inHistory
      rcases List.mem_append.mp inHistory with earlier | isLast
      · exact inductionHypothesis
          (fun binder found =>
            noLast binder (lastOf_concat.mpr (Or.inr ⟨notLast, found⟩)))
          event earlier
      · rw [List.mem_singleton.mp isLast]
        exact notLast

/-- One command is delivered exactly where it comes in time. -/
theorem Remembered.delivered_iff {commands : List Text}
    {before after : List Event} {state : Processes} {cmd params : Text}
    (remembered : Remembered commands before state)
    (isRemote : cmd ∉ state.commands) :
    Delivered state before after cmd params ↔ Timely before after := by
  have outcome : state.exec cmd params =
      match state.webAidlInterface with
      | some binder => .sent binder cmd params
      | none => .nothing := by
    rw [Processes.exec, if_neg isRemote]
  cases stored : state.webAidlInterface with
  | some binder =>
      have isLast := (remembered.stored binder).mp stored
      rw [stored] at outcome
      constructor
      · intro delivered
        exact Or.inl ⟨binder, isLast,
          mt (remembered.died binder).mpr (delivered.notDead binder outcome)⟩
      · rintro (⟨last, isStored, alive⟩ | ⟨noStore, _⟩)
        · have same : binder = last := by
            have atLast := (remembered.stored last).mpr isStored
            exact Option.some_inj.mp (stored.symm.trans atLast)
          rw [← same, ← remembered.died] at alive
          have atMain := remembered.single binder
            (Or.inr (Or.inr stored)) alive
          refine ⟨fun other isCurrent aliveToo => ?_, fun other sent => ?_,
            fun _ _ lost => ?_⟩
          · have alsoMain := remembered.single other (Or.inl isCurrent)
              aliveToo
            rw [atMain] at alsoMain
            rw [outcome, Option.some_inj.mp alsoMain]
          · rw [outcome] at sent
            cases sent
            exact alive
          · rw [outcome] at lost
            cases lost
        · exact absurd ⟨binder, rfl⟩ (noStore _ isLast.mem)
  | none =>
      rw [stored] at outcome
      have noLast : ∀ binder,
          ¬ LastOf Event.IsStore before (.store binder) := by
        intro binder isLast
        rw [← remembered.stored, stored] at isLast
        cases isLast
      constructor
      · intro delivered
        refine Or.inr ⟨?_, fun service isLast => ?_, fun later => ?_⟩
        · exact noStore_of_not_lastOf noLast
        · by_contra alive
          rw [← remembered.died] at alive
          have sent := delivered.live service
            ((remembered.current service).mpr isLast) alive
          rw [outcome] at sent
          cases sent
        · by_contra never
          exact delivered.notLost never later outcome
      · rintro (⟨last, isStored, _⟩ | ⟨_, lastDied, connected⟩)
        · exact absurd isStored (noLast last)
        · refine ⟨fun service isCurrent alive => ?_, fun other sent => ?_,
            fun never later => absurd (connected later) never⟩
          · have isLast := (remembered.current service).mp isCurrent
            exact absurd ((remembered.died service).mpr
              (lastDied service isLast)) alive
          · rw [outcome] at sent
            cases sent

/-- A history uses live binders exactly where every command comes in time. -/
theorem usesLiveBinders_iff (commands : List Text) (history : List Event)
    (state : Processes)
    (isHistory : (webProcess commands).after history = some state) :
    UsesLiveBinders commands history ↔ ExecsTimely commands history := by
  constructor
  · intro uses before cmd params after split notNamed notRegistered
    rw [split] at isHistory
    obtain ⟨between, isBefore⟩ := Guarded.exists_after_of_append isHistory
    have remembered := remembered_after isBefore
    have isRemote : cmd ∉ between.commands := by
      rw [remembered.names, not_or]
      exact ⟨notNamed, notRegistered⟩
    exact (remembered.delivered_iff isRemote).mp
      (uses before cmd params after between split isBefore isRemote)
  · intro timely before cmd params after between split isBefore isRemote
    have remembered := remembered_after isBefore
    have unnamed := isRemote
    rw [remembered.names, not_or] at unnamed
    exact (remembered.delivered_iff isRemote).mpr
      (timely before cmd params after split unnamed.1 unnamed.2)

/-- The main process is connected, a command is sent. -/
def connectedOnce : List Event :=
  [.initAidlConnect, .getInstance, .onServiceConnected 1,
    .getIWebAidlInterface, .store 1, .exec ['a'] []]

theorem usesLiveBinders_connectedOnce :
    ∃ state, (webProcess []).after connectedOnce = some state ∧
      (UsesLiveBinders [] connectedOnce ↔ ExecsTimely [] connectedOnce) := by
  refine ⟨_, rfl, usesLiveBinders_iff [] connectedOnce _ rfl⟩

/-- The main process dies and is connected again, a command is sent. -/
def connectedTwice : List Event :=
  [.initAidlConnect, .getInstance, .onServiceConnected 1,
    .getIWebAidlInterface, .store 1, .mainProcessDied 1, .binderDied 1,
    .connectToMainProcessService, .onServiceConnected 2, .initAidlConnect,
    .exec ['a'] []]

/-- The command goes to the dead binder, although a live one is there. -/
theorem connectedTwice_sent_to_dead :
    ∃ state, (webProcess []).after connectedTwice = some state ∧
      ¬ UsesLiveBinders [] connectedTwice := by
  refine ⟨_, rfl, fun uses => ?_⟩
  have delivered := uses connectedTwice.dropLast ['a'] [] [] _ rfl rfl
    (by decide)
  have sent := delivered.live 2 rfl (by decide)
  exact absurd sent (by decide)

end DripStone.WebView
