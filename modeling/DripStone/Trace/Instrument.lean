import DripStone.Library.Weaving

/-!
# The tracing visitors

`AopTraceMethodVisitor` and `TraceMethodVisitor` see the code of a method as
the calls a `ClassReader` makes.  They pass every call on, and put calls of
their own at the start of the code and in front of the exit opcodes.
-/

namespace DripStone.Trace

open Library

namespace Opcodes

def DUP : Int := 89

def IRETURN : Int := 172

def RETURN : Int := 177

def INVOKEVIRTUAL : Int := 182

def INVOKESPECIAL : Int := 183

def INVOKESTATIC : Int := 184

def NEW : Int := 187

def ATHROW : Int := 191

end Opcodes

open Opcodes

/-- The code as read; `other` is any instruction but those of `visitInsn`. -/
inductive CodeInsn (Other : Type) where
  | insn (opcode : Int)
  | other (other : Other)
deriving DecidableEq, Repr

/-- The instructions the visitors insert. -/
inductive Insn where
  | typeInsn (opcode : Int) (type : String)
  | insn (opcode : Int)
  | ldcInsn (value : String)
  | methodInsn (opcode : Int) (owner name desc : String) (itf : Bool)
deriving DecidableEq, Repr

/-- An annotation value; a class is given by its internal name. -/
inductive AnnotationValue where
  | type (internalName : String)
  | string (value : String)
  | other
deriving DecidableEq, Repr

structure Annotation where
  desc : String
  values : List (String × AnnotationValue)
deriving DecidableEq, Repr

/-- The code behind a visitor: each instruction is passed on or inserted. -/
abbrev Emitted (Other : Type) := List (Item (CodeInsn Other ⊕ Insn))

/-! ## `AopTraceMethodVisitor` -/

/-- `needInject` is set together with the class to call. -/
structure AopTraceMethodVisitor where
  pointClassName : Option String
  needInject : Bool
  pointed : needInject = pointClassName.isSome
deriving DecidableEq, Repr

namespace AopTraceMethodVisitor

def ANNOTATION_AOP_TRACE : String := "Lcom/walker/common/aop/AopTrace;"

def new : AopTraceMethodVisitor :=
  { pointClassName := none, needInject := false, pointed := rfl }

/-- `visit` of the annotation visitor. -/
def visit (visitor : AopTraceMethodVisitor) (name : String) :
    AnnotationValue → AopTraceMethodVisitor
  | .type internalName =>
      if name = "point" then
        { pointClassName := some internalName, needInject := true,
          pointed := rfl }
      else visitor
  | _ => visitor

def visitAnnotation (visitor : AopTraceMethodVisitor)
    (found : Annotation) : AopTraceMethodVisitor :=
  if found.desc = ANNOTATION_AOP_TRACE then
    found.values.foldl
      (fun visitor value => visitor.visit value.1 value.2) visitor
  else visitor

/-- A fresh object of the class is told. -/
def invocation (pointClassName method : String) : List Insn :=
  [.typeInsn NEW pointClassName, .insn DUP,
    .methodInsn INVOKESPECIAL pointClassName "<init>" "()V" false,
    .methodInsn INVOKEVIRTUAL pointClassName method "()V" false]

variable {Other : Type}

def visitCode (visitor : AopTraceMethodVisitor) : Emitted Other :=
  match visitor.needInject, visitor.pointClassName with
  | true, some pointClassName =>
      insertedItems (invocation pointClassName "onBeforeMethod")
  | _, _ => []

def visitInsn (visitor : AopTraceMethodVisitor) (opcode : Int) :
    Emitted Other :=
  match visitor.needInject, visitor.pointClassName with
  | true, some pointClassName =>
      (if (IRETURN ≤ opcode ∧ opcode ≤ RETURN) ∨ opcode = ATHROW then
        insertedItems (invocation pointClassName "onAfterMethod")
      else []) ++ [.instr (.inl (.insn opcode))]
  | _, _ => [.instr (.inl (.insn opcode))]

/-- The calls for the code of a method, one after the other. -/
def accept (visitor : AopTraceMethodVisitor)
    (code : List (Item (CodeInsn Other))) : Emitted Other :=
  visitor.visitCode ++ code.flatMap fun
    | .label id => [.label id]
    | .instr (.insn opcode) => visitor.visitInsn opcode
    | .instr (.other other) => [.instr (.inl (.other other))]

end AopTraceMethodVisitor

/-! ## `TraceMethodVisitor` -/

structure TraceMethodVisitor where
  methodName : String
  needInject : Bool := false
  tag : Option String := none
deriving DecidableEq, Repr

namespace TraceMethodVisitor

def ANNOTATION_TRACK_METHOD : String :=
  "Lcom/walker/optimize/group/trace/TraceMethod;"

def METHOD_EVENT_MANAGER : String :=
  "com/walker/optimize/group/trace/MethodEventManager"

def visit (visitor : TraceMethodVisitor) (name : String) :
    AnnotationValue → TraceMethodVisitor
  | .string value =>
      if name = "tag" then { visitor with tag := some value } else visitor
  | _ => visitor

def visitAnnotation (visitor : TraceMethodVisitor)
    (found : Annotation) : TraceMethodVisitor :=
  if found.desc = ANNOTATION_TRACK_METHOD then
    found.values.foldl
      (fun visitor value => visitor.visit value.1 value.2)
      { visitor with needInject := true }
  else visitor

/-- The event manager is told. -/
def notification (tag methodName method : String) : List Insn :=
  [.methodInsn INVOKESTATIC METHOD_EVENT_MANAGER "getInstance"
      ("()L" ++ METHOD_EVENT_MANAGER ++ ";") false,
    .ldcInsn tag, .ldcInsn methodName,
    .methodInsn INVOKEVIRTUAL METHOD_EVENT_MANAGER method
      "(Ljava/lang/String;Ljava/lang/String;)V" false]

variable {Other : Type}

def handleMethodEnter (visitor : TraceMethodVisitor) : Emitted Other :=
  match visitor.needInject, visitor.tag with
  | true, some tag =>
      insertedItems
        (notification tag visitor.methodName "notifyMethodEnter")
  | _, _ => []

def handleMethodExit (visitor : TraceMethodVisitor) : Emitted Other :=
  match visitor.needInject, visitor.tag with
  | true, some tag =>
      insertedItems (notification tag visitor.methodName "notifyMethodExit")
  | _, _ => []

def onMethodEnter (visitor : TraceMethodVisitor) : Emitted Other :=
  visitor.handleMethodEnter

def onMethodExit (visitor : TraceMethodVisitor) (_opcode : Int) :
    Emitted Other :=
  visitor.handleMethodExit

/-- The `AdviceAdapter` of a method that is no constructor calls
`onMethodEnter` at the start of the code, and `onMethodExit` in front of the
opcodes it takes for exits. -/
def accept (callsOnMethodExit : Int → Bool) (visitor : TraceMethodVisitor)
    (code : List (Item (CodeInsn Other))) : Emitted Other :=
  visitor.onMethodEnter ++ code.flatMap fun
    | .label id => [.label id]
    | .instr (.insn opcode) =>
        (if callsOnMethodExit opcode then visitor.onMethodExit opcode
          else []) ++ [.instr (.inl (.insn opcode))]
    | .instr (.other other) => [.instr (.inl (.other other))]

end TraceMethodVisitor

/-! ## Both weave probes -/

/-- Leaving a method explicitly, by a return or by `ATHROW`. -/
def isExitOpcode (opcode : Int) : Bool :=
  (IRETURN ≤ opcode ∧ opcode ≤ RETURN) ∨ opcode = ATHROW

def CodeInsn.isExit {Other : Type} : CodeInsn Other → Bool
  | .insn opcode => isExitOpcode opcode
  | .other _ => false

/-- The block in front of every exit opcode. -/
def exitProbe {Other : Type} (block : List Insn)
    (instr : CodeInsn Other) : List Insn :=
  if instr.isExit then block else []

theorem hasProbe_exitProbe {Other : Type} {block : List Insn}
    (nonempty : block ≠ []) :
    hasProbe (exitProbe block) =
      (CodeInsn.isExit : CodeInsn Other → Bool) := by
  funext instr
  cases exits : instr.isExit <;>
    simp [hasProbe, exitProbe, exits, nonempty]

theorem AopTraceMethodVisitor.accept_eq {Other : Type}
    (visitor : AopTraceMethodVisitor) (pointClassName : String)
    (pointed : visitor.pointClassName = some pointClassName)
    (code : List (Item (CodeInsn Other))) :
    visitor.accept code =
      insertedItems (invocation pointClassName "onBeforeMethod") ++
        weave (exitProbe (invocation pointClassName "onAfterMethod"))
          code := by
  have injects : visitor.needInject = true := by
    simp [visitor.pointed, pointed]
  have start : (visitor.visitCode : Emitted Other) =
      insertedItems (invocation pointClassName "onBeforeMethod") := by
    simp [visitCode, injects, pointed]
  rw [accept, start, weave]
  congr 2
  funext item
  rcases item with id | (opcode | other)
  · rfl
  · by_cases exits : (IRETURN ≤ opcode ∧ opcode ≤ RETURN) ∨ opcode = ATHROW
    · simp [visitInsn, injects, pointed, exits, exitProbe,
        CodeInsn.isExit, isExitOpcode, insertedItems]
    · simp [visitInsn, injects, pointed, exits, exitProbe,
        CodeInsn.isExit, isExitOpcode]
  · simp [exitProbe, CodeInsn.isExit]

theorem TraceMethodVisitor.accept_eq {Other : Type}
    (callsOnMethodExit : Int → Bool)
    (documented : ∀ opcode, callsOnMethodExit opcode = isExitOpcode opcode)
    (visitor : TraceMethodVisitor) (tag : String)
    (injects : visitor.needInject = true) (tagged : visitor.tag = some tag)
    (code : List (Item (CodeInsn Other))) :
    visitor.accept callsOnMethodExit code =
      insertedItems
          (notification tag visitor.methodName "notifyMethodEnter") ++
        weave
          (exitProbe
            (notification tag visitor.methodName "notifyMethodExit"))
          code := by
  have start : (visitor.onMethodEnter : Emitted Other) = insertedItems
      (notification tag visitor.methodName "notifyMethodEnter") := by
    simp [onMethodEnter, handleMethodEnter, injects, tagged]
  rw [accept, start, weave]
  congr 2
  funext item
  rcases item with id | (opcode | other)
  · rfl
  · cases exits : isExitOpcode opcode <;>
      simp [documented, exitProbe, CodeInsn.isExit, exits, onMethodExit,
        handleMethodExit, injects, tagged, insertedItems]
  · simp [exitProbe, CodeInsn.isExit]

end DripStone.Trace
