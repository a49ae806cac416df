import DripStone.Library.LatestStore
import DripStone.Library.Paths

/-!
# `CommandsManager` and `SharedFlowBus`

Both make an object when it is asked for first: they look whether it is there,
store a new one and read it back.  Each of these is one atomic step, and
between two of them other threads take theirs.
-/

namespace DripStone.SharedInstance

open DripStone.Library

/-- The static field of `CommandsManager`, and the entries of the two maps of
`SharedFlowBus`. -/
inductive Slot (Key : Type) where
  | managerInstance
  | event (objectKey : Key)
  | stickyEvent (objectKey : Key)
deriving DecidableEq, Repr

abbrev ObjectId := Nat

structure Command where
  name : Text
  id : Nat
deriving DecidableEq, Repr

/-- `HashMap<String, Command>`. -/
abbrev Commands := List (Text × Command)

def Commands.put (commands : Commands) (name : Text) (command : Command) :
    Commands :=
  (name, command) :: commands.filter fun entry => entry.1 ≠ name

def Commands.get (commands : Commands) (name : Text) : Option Command :=
  (commands.find? fun entry => entry.1 = name).map Prod.snd

def Commands.containsValue (commands : Commands) (command : Command) :
    Bool :=
  commands.any fun entry => entry.2 = command

theorem Commands.get_put_self (commands : Commands) (name : Text)
    (command : Command) : (commands.put name command).get name =
      some command := by
  simp [put, get]

theorem Commands.get_put_of_ne (commands : Commands) (command : Command)
    {name other : Text} (distinct : name ≠ other) :
    (commands.put name command).get other = commands.get other := by
  rw [put, get, List.find?_cons_of_neg (by simpa using distinct), get,
    List.find?_filter]
  congr 2
  funext entry
  by_cases named : entry.1 = other
  · simp [named, Ne.symm distinct]
  · simp [named]

/-- The constructor of `CommandsManager`, with the commands that the service
loader finds. -/
def newCommandsManager (services : List Command) : Commands :=
  services.foldl (fun commands command =>
    if commands.containsValue command then commands
    else commands.put command.name command) []

/-- The next step of a thread. -/
inductive Pc (Key : Type) where
  | idle
  | check (slot : Slot Key)
  | enterMonitor
  | store (slot : Slot Key)
  | exitMonitor
  | log
  | read (slot : Slot Key)
deriving DecidableEq, Repr

structure Process (Thread Key : Type) where
  slots : Slot Key → Option ObjectId
  -- the identity of the next object
  next : ObjectId
  monitor : Option Thread
  commands : ObjectId → Commands
  -- what was emitted through a flow, in order
  emitted : ObjectId → List Text
  pc : Thread → Pc Key

inductive Action (Thread Key : Type) where
  | getInstance (thread : Thread)
  -- `with`, and `on`
  | withEvent (thread : Thread) (objectKey : Key)
  -- `withSticky`, and `onSticky`
  | withSticky (thread : Thread) (objectKey : Key)
  | registerCommand (manager : ObjectId) (command : Command)
  | emit (flow : ObjectId) (event : Text)
  | step (thread : Thread)
deriving DecidableEq, Repr

namespace Process

variable {Thread Key : Type}

def new : Process Thread Key :=
  { slots := fun _ => none
    next := 0
    monitor := none
    commands := fun _ => []
    emitted := fun _ => []
    pc := fun _ => .idle }

variable [DecidableEq Thread] [DecidableEq Key] (services : List Command)

def goto (process : Process Thread Key) (thread : Thread) (pc : Pc Key) :
    Process Thread Key :=
  { process with pc := Function.update process.pc thread pc }

/-- A call begins, in a thread that is in no other. -/
def startCall (process : Process Thread Key) (thread : Thread)
    (slot : Slot Key) : Process Thread Key :=
  match process.pc thread with
  | .idle => process.goto thread (.check slot)
  | _ => process

/-- What follows a check that found nothing. -/
def afterMissing : Slot Key → Pc Key
  | .managerInstance => .enterMonitor
  | .event objectKey => .store (.event objectKey)
  | .stickyEvent objectKey => .store (.stickyEvent objectKey)

def afterFound : Slot Key → Pc Key
  | .managerInstance => .log
  | .event objectKey => .read (.event objectKey)
  | .stickyEvent objectKey => .read (.stickyEvent objectKey)

def afterStore : Slot Key → Pc Key
  | .managerInstance => .exitMonitor
  | .event objectKey => .read (.event objectKey)
  | .stickyEvent objectKey => .read (.stickyEvent objectKey)

/-- A new object stored in a slot. -/
def storeNew (process : Process Thread Key) (slot : Slot Key) :
    Process Thread Key :=
  { process with
    slots := Function.update process.slots slot (some process.next)
    next := process.next + 1
    commands := Function.update process.commands process.next
      (newCommandsManager services) }

/-- The next step of `thread`. -/
def advance (process : Process Thread Key) (thread : Thread) :
    Process Thread Key × List (Access (Slot Key) ObjectId) :=
  match process.pc thread with
  | .idle => (process, [])
  | .check slot =>
      if process.slots slot = none then
        (process.goto thread (afterMissing slot), [])
      else (process.goto thread (afterFound slot), [])
  | .enterMonitor =>
      if process.monitor = none then
        (goto { process with monitor := some thread } thread
          (.store .managerInstance), [])
      else (process, [])
  | .store slot =>
      ((process.storeNew services slot).goto thread (afterStore slot),
        [.store slot process.next])
  | .exitMonitor =>
      (goto { process with monitor := none } thread .log, [])
  | .log => (process.goto thread (.read .managerInstance), [])
  | .read slot =>
      (process.goto thread .idle,
        match process.slots slot with
        | some object => [.answer slot object]
        | none => [])

def perform (process : Process Thread Key) :
    Action Thread Key →
      Process Thread Key × List (Access (Slot Key) ObjectId)
  | .getInstance thread => (process.startCall thread .managerInstance, [])
  | .withEvent thread objectKey =>
      (process.startCall thread (.event objectKey), [])
  | .withSticky thread objectKey =>
      (process.startCall thread (.stickyEvent objectKey), [])
  | .registerCommand manager command =>
      ({ process with
          commands := Function.update process.commands manager
            ((process.commands manager).put command.name command) }, [])
  | .emit flow event =>
      ({ process with
          emitted := Function.update process.emitted flow
            (process.emitted flow ++ [event]) }, [])
  | .step thread => process.advance services thread

end Process

section Machine

variable {Thread Key : Type} [DecidableEq Thread] [DecidableEq Key]
  (services : List Command)

/-- The process under interleaved steps; its trace is what was stored and what
the calls returned. -/
def machine :
    Mealy (Process Thread Key) (Action Thread Key)
      (Access (Slot Key) ObjectId) :=
  ⟨Process.perform services⟩

def processAfter (actions : List (Action Thread Key)) : Process Thread Key :=
  (machine services).run .new actions

def accesses (actions : List (Action Thread Key)) :
    List (Access (Slot Key) ObjectId) :=
  (machine services).trace .new actions

theorem processAfter_concat (actions : List (Action Thread Key))
    (action : Action Thread Key) :
    processAfter services (actions ++ [action]) =
      ((processAfter services actions).perform services action).1 :=
  (machine services).run_concat _ _ _

theorem accesses_concat (actions : List (Action Thread Key))
    (action : Action Thread Key) :
    accesses services (actions ++ [action]) =
      accesses services actions ++
        ((processAfter services actions).perform services action).2 :=
  (machine services).trace_concat _ _ _

/-! ## What an action can do -/

omit [DecidableEq Thread] [DecidableEq Key] in
private theorem not_store {process : Process Thread Key} {thread : Thread}
    {pc : Pc Key} (atThread : process.pc thread = pc)
    (other : ∀ slot, pc ≠ .store slot) :
    ∀ stepping slot, (Action.step thread : Action Thread Key) =
      .step stepping → process.pc stepping ≠ .store slot := by
  intro stepping slot same
  obtain rfl := Action.step.inj same
  rw [atThread]
  exact other slot

/-- An action stores a new object, answers with the object of a slot, or does
neither. -/
theorem Process.perform_cases (process : Process Thread Key)
    (action : Action Thread Key) :
    (∃ thread slot, action = .step thread ∧
      process.pc thread = .store slot ∧
      (process.perform services action).2 = [.store slot process.next] ∧
      (process.perform services action).1.slots =
        Function.update process.slots slot (some process.next) ∧
      (process.perform services action).1.next = process.next + 1) ∨
    (∃ thread slot object, action = .step thread ∧
      process.pc thread = .read slot ∧ process.slots slot = some object ∧
      (process.perform services action).2 = [.answer slot object] ∧
      (process.perform services action).1.slots = process.slots ∧
      (process.perform services action).1.next = process.next) ∨
    ((∀ thread slot, action = .step thread →
        process.pc thread ≠ .store slot) ∧
      (process.perform services action).2 = [] ∧
      (process.perform services action).1.slots = process.slots ∧
      (process.perform services action).1.next = process.next) := by
  cases action with
  | getInstance thread =>
      right; right
      simp only [Process.perform, Process.startCall]
      cases process.pc thread <;> simp [Process.goto]
  | withEvent thread objectKey =>
      right; right
      simp only [Process.perform, Process.startCall]
      cases process.pc thread <;> simp [Process.goto]
  | withSticky thread objectKey =>
      right; right
      simp only [Process.perform, Process.startCall]
      cases process.pc thread <;> simp [Process.goto]
  | registerCommand manager command =>
      right; right
      simp [Process.perform]
  | emit flow event =>
      right; right
      simp [Process.perform]
  | step thread =>
      rw [Process.perform, Process.advance]
      cases atThread : process.pc thread with
      | idle =>
          exact Or.inr (Or.inr
            ⟨not_store atThread (fun _ => by simp), rfl, rfl, rfl⟩)
      | check slot =>
          have kept := not_store atThread (fun _ => by simp)
          right; right
          dsimp only
          by_cases missing : process.slots slot = none
          · rw [if_pos missing]
            exact ⟨kept, rfl, rfl, rfl⟩
          · rw [if_neg missing]
            exact ⟨kept, rfl, rfl, rfl⟩
      | enterMonitor =>
          have kept := not_store atThread (fun _ => by simp)
          right; right
          dsimp only
          by_cases free : process.monitor = none
          · rw [if_pos free]
            exact ⟨kept, rfl, rfl, rfl⟩
          · rw [if_neg free]
            exact ⟨kept, rfl, rfl, rfl⟩
      | store slot =>
          exact Or.inl ⟨thread, slot, rfl, atThread, rfl, rfl, rfl⟩
      | exitMonitor =>
          exact Or.inr (Or.inr
            ⟨not_store atThread (fun _ => by simp), rfl, rfl, rfl⟩)
      | log =>
          exact Or.inr (Or.inr
            ⟨not_store atThread (fun _ => by simp), rfl, rfl, rfl⟩)
      | read slot =>
          have kept := not_store atThread (fun _ => by simp)
          right
          dsimp only
          cases found : process.slots slot with
          | none =>
              right
              exact ⟨kept, rfl, rfl, rfl⟩
          | some object =>
              left
              exact ⟨thread, slot, object, rfl, atThread, found, rfl, rfl, rfl⟩

/-! ## What stays in an object -/

theorem Process.next_le_perform (process : Process Thread Key)
    (action : Action Thread Key) :
    process.next ≤ (process.perform services action).1.next := by
  rcases process.perform_cases services action with
    ⟨_, _, _, _, _, _, next⟩ | ⟨_, _, _, _, _, _, _, _, next⟩ |
    ⟨_, _, _, next⟩
  · rw [next]
    exact Nat.le_succ _
  · rw [next]
  · rw [next]

/-- A step leaves the contents of the objects there are as they were. -/
theorem Process.advance_contents (process : Process Thread Key)
    (thread : Thread) {object : ObjectId} (made : object < process.next) :
    (process.advance services thread).1.commands object =
        process.commands object ∧
      (process.advance services thread).1.emitted object =
        process.emitted object := by
  have old : object ≠ process.next := Nat.ne_of_lt made
  rw [Process.advance]
  cases process.pc thread with
  | idle => exact ⟨rfl, rfl⟩
  | check slot =>
      dsimp only
      split
      · exact ⟨rfl, rfl⟩
      · exact ⟨rfl, rfl⟩
  | enterMonitor =>
      dsimp only
      split
      · exact ⟨rfl, rfl⟩
      · exact ⟨rfl, rfl⟩
  | store slot =>
      simp [Process.goto, Process.storeNew, Function.update_of_ne old]
  | exitMonitor => exact ⟨rfl, rfl⟩
  | log => exact ⟨rfl, rfl⟩
  | read slot => exact ⟨rfl, rfl⟩

omit [DecidableEq Key] in
theorem Process.startCall_contents (process : Process Thread Key)
    (thread : Thread) (slot : Slot Key) :
    (process.startCall thread slot).commands = process.commands ∧
      (process.startCall thread slot).emitted = process.emitted := by
  rw [Process.startCall]
  cases process.pc thread with
  | idle => exact ⟨rfl, rfl⟩
  | _ => exact ⟨rfl, rfl⟩

/-- A command stays until another is registered under its name. -/
theorem Process.perform_get (process : Process Thread Key)
    (action : Action Thread Key) {manager : ObjectId} {name : Text}
    (made : manager < process.next)
    (distinct : ∀ newer, action = .registerCommand manager newer →
      newer.name ≠ name) :
    ((process.perform services action).1.commands manager).get name =
      (process.commands manager).get name := by
  cases action with
  | getInstance thread =>
      rw [Process.perform, (process.startCall_contents thread _).1]
  | withEvent thread objectKey =>
      rw [Process.perform, (process.startCall_contents thread _).1]
  | withSticky thread objectKey =>
      rw [Process.perform, (process.startCall_contents thread _).1]
  | emit flow event => rfl
  | step thread =>
      rw [Process.perform, (process.advance_contents services thread made).1]
  | registerCommand registered newer =>
      dsimp only [Process.perform]
      by_cases same : manager = registered
      · subst same
        rw [Function.update_self,
          Commands.get_put_of_ne _ _ (distinct newer rfl)]
      · rw [Function.update_of_ne same]

/-- An event that was emitted stays. -/
theorem Process.mem_emitted_perform (process : Process Thread Key)
    (action : Action Thread Key) {flow : ObjectId} {event : Text}
    (made : flow < process.next) (emitted : event ∈ process.emitted flow) :
    event ∈ (process.perform services action).1.emitted flow := by
  cases action with
  | getInstance thread =>
      rw [Process.perform, (process.startCall_contents thread _).2]
      exact emitted
  | withEvent thread objectKey =>
      rw [Process.perform, (process.startCall_contents thread _).2]
      exact emitted
  | withSticky thread objectKey =>
      rw [Process.perform, (process.startCall_contents thread _).2]
      exact emitted
  | registerCommand manager command => exact emitted
  | step thread =>
      rw [Process.perform, (process.advance_contents services thread made).2]
      exact emitted
  | emit other newer =>
      dsimp only [Process.perform]
      by_cases same : flow = other
      · subst same
        rw [Function.update_self]
        exact List.mem_append_left _ emitted
      · rw [Function.update_of_ne same]
        exact emitted

end Machine

end DripStone.SharedInstance
