import Mathlib

/-!
# `ShadowThreadTransform`

The transform first walks over every method of a class and collects a task
for each `NEW java/lang/Thread` and each call of `Executors`; the tasks run
afterwards, on lists that earlier tasks have changed.  A task holds the node
it was collected for, so the nodes of a list carry their identity; a node that
a task inserts is held by no task.
-/

namespace DripStone.ShadowThread

namespace Opcodes

def INVOKESPECIAL : Int := 183

def INVOKESTATIC : Int := 184

def NEW : Int := 187

end Opcodes

/-- A method descriptor, parsed by `Type.getMethodType`. -/
structure MethodDescriptor where
  argumentTypes : List String
  returnType : String
deriving DecidableEq, Repr

/-- `Type.getMethodDescriptor`. -/
def MethodDescriptor.text (desc : MethodDescriptor) : String :=
  "(" ++ String.join desc.argumentTypes ++ ")" ++ desc.returnType

/-- The instructions the transform tells apart. -/
inductive Insn where
  | typeInsn (opcode : Int) (desc : String)
  | methodInsn (opcode : Int) (owner name : String)
      (desc : MethodDescriptor)
  | ldcInsn (cst : String)
  | insn (opcode : Int) (operands : List Int)
deriving DecidableEq, Repr

/-- An `AbstractInsnNode`; `ref` identifies a node of the class as read. -/
structure InsnNode where
  ref : Option Nat
  insn : Insn
deriving DecidableEq, Repr

structure MethodNode where
  name : String
  desc : MethodDescriptor
  instructions : List Insn
deriving DecidableEq, Repr

structure ClassNode where
  name : String
  interfaces : List String
  methods : List MethodNode
deriving DecidableEq, Repr

/-! ## `HookUtils` -/

/-- `name.substringAfterLast('/')`. -/
def ClassNode.simpleClassName (classNode : ClassNode) : String :=
  String.ofList
    (classNode.name.toList.reverse.takeWhile (· ≠ '/')).reverse

def MethodNode.nameWithDesc (methodNode : MethodNode) : String :=
  methodNode.name ++ methodNode.desc.text

/-- `insertArgument(String::class.java)`. -/
def MethodDescriptor.insertArgument (desc : MethodDescriptor) :
    MethodDescriptor :=
  { desc with
    argumentTypes := desc.argumentTypes ++ ["Ljava/lang/String;"] }

/-! ## `ShadowThreadConfig` -/

structure ThreadHookPoint where
  methodName : String
deriving DecidableEq, Repr

def threadHookPoints : List ThreadHookPoint :=
  [⟨"newFixedThreadPool"⟩, ⟨"newSingleThreadExecutor"⟩,
    ⟨"newCachedThreadPool"⟩, ⟨"newSingleThreadScheduledExecutor"⟩,
    ⟨"newScheduledThreadPool"⟩]

structure ShadowThreadConfig where
  shadowThreadClass : String :=
    "com.walker.optimize.group.oom.thread.ShadowThread"
  shadowThreadPoolClass : String :=
    "com.walker.optimize.group.oom.thread.ShadowExecutors"
  threadHookPointList : List ThreadHookPoint := threadHookPoints
deriving DecidableEq, Repr

/-- `replace(".", "/")`. -/
def slashed (name : String) : String :=
  String.ofList (name.toList.map fun letter =>
    if letter = '.' then '/' else letter)

namespace ShadowThreadConfig

def formatShadowThreadClass (config : ShadowThreadConfig) : String :=
  slashed config.shadowThreadClass

def formatShadowThreadPoolClass (config : ShadowThreadConfig) : String :=
  slashed config.shadowThreadPoolClass

end ShadowThreadConfig

/-! ## The tasks -/

def executorsClass : String := "java/util/concurrent/Executors"

def threadClass : String := "java/lang/Thread"

def threadFactoryClass : String := "java/util/concurrent/ThreadFactory"

def threadFactoryNewThreadMethodDesc : String :=
  "newThread(Ljava/lang/Runnable;)Ljava/lang/Thread;"

def Insn.isThreadInitMethodInsn : Insn → Bool
  | .methodInsn _ owner name _ => owner = threadClass && name = "<init>"
  | _ => false

def ClassNode.isThreadFactoryMethod (classNode : ClassNode)
    (methodNode : MethodNode) : Bool :=
  classNode.interfaces.contains threadFactoryClass &&
    methodNode.nameWithDesc = threadFactoryNewThreadMethodDesc

/-- A call of a hook point: the new instruction, if it is one. -/
def hooked (config : ShadowThreadConfig) : Insn → Option Insn
  | .methodInsn opcode _ name desc =>
      if config.threadHookPointList.any (·.methodName = name) then
        some (.methodInsn opcode config.formatShadowThreadPoolClass name
          desc.insertArgument)
      else none
  | _ => none

/-- `transformInvokeStatic` on the instructions of the method. -/
def transformInvokeStatic (config : ShadowThreadConfig)
    (simpleClassName : String) (methodInsnNode : Nat) :
    List InsnNode → List InsnNode
  | [] => []
  | node :: rest =>
      if node.ref = some methodInsnNode then
        match hooked config node.insn with
        | some insn =>
            ⟨none, .ldcInsn simpleClassName⟩ :: { node with insn := insn } ::
              rest
        | none => node :: rest
      else
        node :: transformInvokeStatic config simpleClassName methodInsnNode
          rest

/-- A call of a `Thread` constructor, turned into one of the shadow class. -/
def shadowInit (config : ShadowThreadConfig) : Insn → Insn
  | .methodInsn opcode _ name desc =>
      .methodInsn opcode config.formatShadowThreadClass name
        desc.insertArgument
  | insn => insn

/-- The loop of `transformNew` behind the `NEW` node: the next constructor
call of `Thread` is rewritten, `none` when there is none. -/
def rewriteNextInit (config : ShadowThreadConfig)
    (simpleClassName : String) : List InsnNode → Option (List InsnNode)
  | [] => none
  | node :: rest =>
      if node.insn.isThreadInitMethodInsn then
        some (⟨none, .ldcInsn simpleClassName⟩ ::
          { node with insn := shadowInit config node.insn } :: rest)
      else
        (rewriteNextInit config simpleClassName rest).map (node :: ·)

/-- A `NEW` of the shadow class. -/
def shadowNew (config : ShadowThreadConfig) : Insn → Insn
  | .typeInsn opcode _ => .typeInsn opcode config.formatShadowThreadClass
  | insn => insn

/-- `transformNew` on the instructions of the method. -/
def transformNew (config : ShadowThreadConfig) (simpleClassName : String)
    (typeInsnNode : Nat) : List InsnNode → List InsnNode
  | [] => []
  | node :: rest =>
      if node.ref = some typeInsnNode then
        match rewriteNextInit config simpleClassName rest with
        | some rewritten =>
            { node with insn := shadowNew config node.insn } :: rewritten
        | none => node :: rest
      else
        node :: transformNew config simpleClassName typeInsnNode rest

/-- What a collected closure does with the instructions of its method. -/
inductive Task where
  | invokeStatic (methodInsnNode : Nat)
  | new (typeInsnNode : Nat)
deriving DecidableEq, Repr

def Task.invoke (config : ShadowThreadConfig) (simpleClassName : String) :
    Task → List InsnNode → List InsnNode
  | .invokeStatic methodInsnNode =>
      transformInvokeStatic config simpleClassName methodInsnNode
  | .new typeInsnNode => transformNew config simpleClassName typeInsnNode

/-! ## `modifyClass` -/

/-- The nodes of a method as read. -/
def nodesFrom (first : Nat) : List Insn → List InsnNode
  | [] => []
  | insn :: rest => ⟨some first, insn⟩ :: nodesFrom (first + 1) rest

/-- The task collected at an instruction.  The factory method of a
`ThreadFactory` keeps its threads. -/
def taskAt (isThreadFactoryMethod : Bool) (ref : Nat) : Insn → Option Task
  | .methodInsn opcode owner _ _ =>
      if opcode = Opcodes.INVOKESTATIC && owner = executorsClass then
        some (.invokeStatic ref)
      else none
  | .typeInsn opcode desc =>
      if opcode = Opcodes.NEW && desc = threadClass &&
          !isThreadFactoryMethod then
        some (.new ref)
      else none
  | _ => none

/-- The tasks of one method, in the order of its instructions. -/
def tasksFrom (isThreadFactoryMethod : Bool) (first : Nat) :
    List Insn → List Task
  | [] => []
  | insn :: rest =>
      (taskAt isThreadFactoryMethod first insn).toList ++
        tasksFrom isThreadFactoryMethod (first + 1) rest

/-- The task list of a class: each task with the position of its method. -/
def taskList (classNode : ClassNode) (first : Nat) :
    List MethodNode → List (Nat × Task)
  | [] => []
  | methodNode :: rest =>
      (tasksFrom (classNode.isThreadFactoryMethod methodNode) 0
          methodNode.instructions).map (fun task => (first, task)) ++
        taskList classNode (first + 1) rest

/-- `modifyClass`, between the reader and the writer of the class file. -/
def modifyClass (config : ShadowThreadConfig) (classNode : ClassNode) :
    ClassNode :=
  let bodies :=
    (taskList classNode 0 classNode.methods).foldl
      (fun bodies task =>
        bodies.modify task.1
          (task.2.invoke config classNode.simpleClassName))
      (classNode.methods.map fun methodNode =>
        nodesFrom 0 methodNode.instructions)
  { classNode with
    methods :=
      classNode.methods.zipWith
        (fun methodNode body =>
          { methodNode with instructions := body.map InsnNode.insn })
        bodies }

end DripStone.ShadowThread
