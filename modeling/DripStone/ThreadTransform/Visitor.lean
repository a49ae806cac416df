import DripStone.Library.Mealy

/-!
# `ThreadMethodVisitor`

The visitor reads a method instruction by instruction.  All it remembers is
whether a `NEW java/lang/Thread` went by that no call has been taken for.  What
it changes it writes at once, past the adapter that it extends.
-/

namespace DripStone.ThreadTransform

open DripStone.Library

namespace Opcodes

def INVOKESPECIAL : Int := 183

def NEW : Int := 187

end Opcodes

/-- What is visited of a method's code; everything but these two kinds of
instructions is `Other`. -/
inductive Insn (Other : Type) where
  | typeInsn (opcode : Int) (type : String)
  | methodInsn (opcode : Int) (owner name desc : String) (itf : Bool)
  | other (visited : Other)
deriving DecidableEq, Repr

def GOAL_CLAZZ : String :=
  "com/walker/optimize/group/oom/thread/ShadowThread"

def threadClass : String := "java/lang/Thread"

/-- A call that the visitor makes for an instruction. -/
inductive Call (Other : Type) where
  -- on `mv`, which writes it
  | onMv (insn : Insn Other)
  -- on `super`, the adapter
  | onSuper (insn : Insn Other)
deriving DecidableEq, Repr

/-! ## `AdviceAdapter` -/

/-- The adapter writes each instruction that it takes, the local variables
under numbers of its own.  In a constructor, until `super(...)` or `this(...)`,
it simulates the stack, and throws when it finds too little there. -/
structure AdviceAdapter (Other : Type) where
  State : Type
  start : (access : Int) → (name desc : String) → State
  -- `none`, when it throws
  visit : State → Insn Other → Option State
  renumbered : State → Other → Other

namespace AdviceAdapter

variable {Other : Type} (adapter : AdviceAdapter Other)

def written (state : adapter.State) : Insn Other → Insn Other
  | .other visited => .other (adapter.renumbered state visited)
  | .typeInsn opcode type => .typeInsn opcode type
  | .methodInsn opcode owner name desc itf =>
      .methodInsn opcode owner name desc itf

/-- What some calls write, unless one throws. -/
def write : adapter.State → List (Call Other) → Option (List (Insn Other))
  | _, [] => some []
  | state, .onMv insn :: rest =>
      (write state rest).map (insn :: ·)
  | state, .onSuper insn :: rest =>
      (adapter.visit state insn).bind fun behind =>
        (write behind rest).map (adapter.written state insn :: ·)

/-- The adapter takes some instructions without an exception. -/
def Takes : adapter.State → List (Insn Other) → Prop
  | _, [] => True
  | state, insn :: rest =>
      ∃ behind ∈ adapter.visit state insn, Takes behind rest

end AdviceAdapter

/-! ## The visitor -/

structure ThreadMethodVisitor where
  className : String
  -- whether a `NEW` was met
  find : Bool := false
deriving DecidableEq, Repr

namespace ThreadMethodVisitor

variable {Other : Type}

def visitTypeInsn (visitor : ThreadMethodVisitor) (opcode : Int)
    (type : String) : ThreadMethodVisitor × List (Call Other) :=
  if opcode = Opcodes.NEW ∧ threadClass = type then
    ({ visitor with find := true },
      [.onMv (.typeInsn Opcodes.NEW GOAL_CLAZZ)])
  else (visitor, [.onSuper (.typeInsn opcode type)])

def visitMethodInsn (visitor : ThreadMethodVisitor) (opcode : Int)
    (owner name desc : String) (itf : Bool) :
    ThreadMethodVisitor × List (Call Other) :=
  if threadClass = owner ∧ visitor.className ≠ GOAL_CLAZZ ∧
      opcode = Opcodes.INVOKESPECIAL ∧ visitor.find = true then
    ({ visitor with find := false },
      [.onMv (.methodInsn opcode GOAL_CLAZZ name desc itf)])
  else (visitor, [.onSuper (.methodInsn opcode owner name desc itf)])

/-- Every other visit goes to `super`; the visitor adds nothing at the entry or
the exits of the method. -/
def machine : Mealy ThreadMethodVisitor (Insn Other) (Call Other) :=
  ⟨fun visitor insn =>
    match insn with
    | .typeInsn opcode type => visitor.visitTypeInsn opcode type
    | .methodInsn opcode owner name desc itf =>
        visitor.visitMethodInsn opcode owner name desc itf
    | .other visited => (visitor, [.onSuper (.other visited)])⟩

end ThreadMethodVisitor

structure MethodNode (Other : Type) where
  access : Int
  name : String
  desc : String
  instructions : List (Insn Other)
deriving DecidableEq, Repr

/-- A method read through the visitor that `ThreadClassVisitor` gives it. -/
def MethodNode.visited {Other : Type} (methodNode : MethodNode Other)
    (adapter : AdviceAdapter Other) (className : String) :
    Option (List (Insn Other)) :=
  adapter.write
    (adapter.start methodNode.access methodNode.name methodNode.desc)
    (ThreadMethodVisitor.machine.trace { className := className }
      methodNode.instructions)

end DripStone.ThreadTransform
