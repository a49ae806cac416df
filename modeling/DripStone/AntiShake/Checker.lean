import DripStone.AntiShake.Placement
import DripStone.Library.Mealy

/-!
# `AntiShakeChecker`

What a guarded method does at its head, and what a click does whose handlers
call one another: every guarded method asks the one checker there is.
-/

namespace DripStone.AntiShake

open DripStone.Library

abbrev Millis := Int

def MIN_DURATION : Millis := 700

structure AntiShakeChecker where
  lastClickTime : Millis
  clickIndex : Int
deriving DecidableEq, Repr

namespace AntiShakeChecker

def new : AntiShakeChecker := ⟨0, 1⟩

/-- The answer of `canClick` at a time. -/
def letsThrough (checker : AntiShakeChecker) (currentTime : Millis) : Bool :=
  checker.lastClickTime = 0 ||
    currentTime - checker.lastClickTime > MIN_DURATION

def canClick (checker : AntiShakeChecker) (currentTime : Millis) :
    AntiShakeChecker × Bool :=
  let counted := { checker with clickIndex := checker.clickIndex + 1 }
  if checker.letsThrough currentTime then
    ({ counted with lastClickTime := currentTime }, true)
  else (counted, false)

end AntiShakeChecker

/-! ## The head of a guarded method -/

/-- What the inserted instructions put on the operand stack. -/
inductive Operand where
  | view
  | boolean (value : Bool)

/-- The instructions behind a label. -/
def behind (label : LabelNode) : List Insn → List Insn
  | [] => []
  | insn :: rest => if insn = .label label then rest else behind label rest

/-- The instructions that a method runs, when the checker gives an answer:
`none` if it returns before the jump is taken. -/
def enter (config : AntiShakeConfig) (answer : Bool) :
    List Operand → List Insn → Option (List Insn)
  | operands, .varInsn opcode _ :: rest =>
      if opcode = Opcodes.ALOAD then
        enter config answer (.view :: operands) rest
      else none
  | .view :: operands, .methodInsn opcode owner name desc :: rest =>
      if opcode = Opcodes.INVOKESTATIC ∧
          owner = config.formatShakeCheckClass ∧
          name = config.shakeCheckMethodName ∧
          desc = config.shakeCheckMethodDescriptor then
        enter config answer (.boolean answer :: operands) rest
      else none
  | .boolean value :: operands, .jumpInsn opcode label :: rest =>
      if opcode = Opcodes.IFNE ∧ value = true then some (behind label rest)
      else enter config answer operands rest
  | _, _ => none

/-- A method that the transform guards. -/
def HookedMethod :=
  { methodNode : MethodNode // Guardable methodNode }

/-- Its instructions after the transform. -/
def HookedMethod.instructions (config : AntiShakeConfig)
    (hooked : HookedMethod) : List Insn :=
  (guarded config hooked.1).instructions

theorem HookedMethod.exists_instructions_eq (config : AntiShakeConfig)
    (hooked : HookedMethod) :
    ∃ position, hooked.instructions config =
      checkerCall config position ++ hooked.1.instructions := by
  obtain ⟨code, hasView⟩ := hooked.2
  rw [instructions, guarded]
  cases found : hooked.1.desc.argumentTypes.findIdx?
      (· = ViewDescriptor) with
  | none =>
      rw [List.findIdx?_eq_none_iff] at found
      exact absurd (found _ hasView) (by simp)
  | some viewArgumentIndex =>
      simp only [if_neg code]
      exact ⟨_, rfl⟩

/-- A guarded method runs its original instructions when the checker lets the
click through, and nothing otherwise. -/
theorem enter_instructions (config : AntiShakeConfig) (answer : Bool)
    (hooked : HookedMethod) :
    enter config answer [] (hooked.instructions config) =
      if answer = true then some hooked.1.instructions else none := by
  obtain ⟨position, same⟩ := hooked.exists_instructions_eq config
  rw [same]
  cases answer with
  | true => simp [checkerCall, enter, behind]
  | false => simp [checkerCall, enter]

/-! ## Clicks -/

/-- Calls of guarded methods, in the order in which they are made: each with
the time of its check and the calls that its body makes. -/
inductive Calls where
  | nil
  | call (method : HookedMethod) (currentTime : Millis)
      (inner rest : Calls)

/-- The times of all checks, in the order of the calls. -/
def Calls.times : Calls → List Millis
  | .nil => []
  | .call _ currentTime inner rest =>
      currentTime :: inner.times ++ rest.times

/-- A guarded method that was reached. -/
structure Entry where
  currentTime : Millis
  -- its original body ran
  ran : Bool
deriving DecidableEq, Repr

/-- The calls as they run: a body that does not run makes no calls. -/
def Calls.run (config : AntiShakeConfig) :
    AntiShakeChecker → Calls → AntiShakeChecker × List Entry
  | checker, .nil => (checker, [])
  | checker, .call method currentTime inner rest =>
      let asked := checker.canClick currentTime
      match enter config asked.2 [] (method.instructions config) with
      | some _ =>
          let inside := inner.run config asked.1
          let after := rest.run config inside.1
          (after.1, ⟨currentTime, true⟩ :: inside.2 ++ after.2)
      | none =>
          let after := rest.run config asked.1
          (after.1, ⟨currentTime, false⟩ :: after.2)

namespace Calls

variable (config : AntiShakeConfig) {checker : AntiShakeChecker}
  {currentTime : Millis}

theorem run_of_letsThrough (method : HookedMethod) (inner rest : Calls)
    (through : checker.letsThrough currentTime = true) :
    (call method currentTime inner rest).run config checker =
      ((rest.run config (inner.run config
          ⟨currentTime, checker.clickIndex + 1⟩).1).1,
        ⟨currentTime, true⟩ ::
          (inner.run config ⟨currentTime, checker.clickIndex + 1⟩).2 ++
          (rest.run config (inner.run config
            ⟨currentTime, checker.clickIndex + 1⟩).1).2) := by
  have answered : checker.canClick currentTime =
      (⟨currentTime, checker.clickIndex + 1⟩, true) := by
    simp only [AntiShakeChecker.canClick, through, ↓reduceIte]
  rw [run, answered, enter_instructions]
  rfl

theorem run_of_not_letsThrough (method : HookedMethod) (inner rest : Calls)
    (blocked : checker.letsThrough currentTime = false) :
    (call method currentTime inner rest).run config checker =
      ((rest.run config
          ⟨checker.lastClickTime, checker.clickIndex + 1⟩).1,
        ⟨currentTime, false⟩ :: (rest.run config
          ⟨checker.lastClickTime, checker.clickIndex + 1⟩).2) := by
  have answered : checker.canClick currentTime =
      (⟨checker.lastClickTime, checker.clickIndex + 1⟩, false) := by
    simp only [AntiShakeChecker.canClick, blocked, Bool.false_eq_true,
      ↓reduceIte]
  rw [run, answered, enter_instructions]
  rfl

end Calls

/-- A click: the outermost guarded method, and the calls its body makes. -/
structure Click where
  method : HookedMethod
  currentTime : Millis
  inner : Calls

def Click.calls (click : Click) : Calls :=
  .call click.method click.currentTime click.inner .nil

def Click.times (click : Click) : List Millis :=
  click.currentTime :: click.inner.times

/-- What became of a click: the methods it reached, the outermost first. -/
structure Dispatch where
  currentTime : Millis
  entries : List Entry
deriving DecidableEq, Repr

def Dispatch.letThrough (dispatch : Dispatch) : Bool :=
  match dispatch.entries with
  | outermost :: _ => outermost.ran
  | [] => false

/-- The checker under clicks. -/
def clickMachine (config : AntiShakeConfig) :
    Mealy AntiShakeChecker Click Dispatch :=
  ⟨fun checker click =>
    ((click.calls.run config checker).1,
      [⟨click.currentTime, (click.calls.run config checker).2⟩])⟩

end DripStone.AntiShake
