import DripStone.ShadowThread.Transform

/-!
# `AntiShakeTransform`

A first pass over the methods of a class collects the names, with
descriptors, of the methods to guard; a second pass inserts the call of the
checker at the head of every method of such a name.
-/

namespace DripStone.AntiShake

open DripStone.ShadowThread (MethodDescriptor slashed)

namespace Opcodes

def ACC_STATIC : Nat := 0x0008

def ALOAD : Int := 25

def IFNE : Int := 154

def RETURN : Int := 177

def INVOKESTATIC : Int := 184

end Opcodes

def ViewDescriptor : String := "Landroid/view/View;"

def OnClickViewMethodDescriptor : String := "(Landroid/view/View;)V"

def ButterKnifeOnClickAnnotationDesc : String := "Lbutterknife/OnClick;"

/-! ## `AntiShakeConfig` -/

structure AntiShakeHookPoint where
  interfaceName : String
  methodName : String
  methodSign : String
deriving DecidableEq, Repr

def AntiShakeHookPoint.interfaceSignSuffix (point : AntiShakeHookPoint) :
    String :=
  "L" ++ point.interfaceName ++ ";"

def extraHookPoints : List AntiShakeHookPoint :=
  [⟨"android/view/View$OnClickListener", "onClick",
      "onClick(Landroid/view/View;)V"⟩,
    ⟨"com/chad/library/adapter/base/BaseQuickAdapter$OnItemClickListener",
      "onItemClick",
      "onItemClick(Lcom/chad/library/adapter/base/BaseQuickAdapter;" ++
        "Landroid/view/View;I)V"⟩,
    ⟨"com/chad/library/adapter/base/" ++
        "BaseQuickAdapter$OnItemChildClickListener",
      "onItemChildClick",
      "onItemChildClick(Lcom/chad/library/adapter/base/BaseQuickAdapter;" ++
        "Landroid/view/View;I)V"⟩]

structure AntiShakeConfig where
  shakeCheckClass : String :=
    "com.walker.optimize.group.antishake.AntiShakeChecker"
  shakeCheckMethodName : String := "canClick"
  shakeCheckMethodDescriptor : String := "(Landroid/view/View;)Z"
  checkViewOnClickAnnotation : String :=
    "com.walker.optimize.group.antishake.CheckViewOnClick"
  uncheckViewOnClickAnnotation : String :=
    "com.walker.optimize.group.antishake.UncheckViewOnClick"
  hookPointList : List AntiShakeHookPoint := extraHookPoints
deriving DecidableEq, Repr

namespace AntiShakeConfig

def formatShakeCheckClass (config : AntiShakeConfig) : String :=
  slashed config.shakeCheckClass

def formatCheckViewOnClickAnnotation (config : AntiShakeConfig) : String :=
  "L" ++ slashed config.checkViewOnClickAnnotation ++ ";"

def formatUncheckViewOnClickAnnotation (config : AntiShakeConfig) : String :=
  "L" ++ slashed config.uncheckViewOnClickAnnotation ++ ";"

end AntiShakeConfig

/-! ## The class -/

structure Handle where
  owner : String
  name : String
  desc : MethodDescriptor
deriving DecidableEq, Repr

/-- A static argument of a bootstrap method. -/
inductive BsmArg where
  | handle (handle : Handle)
  | constant (text : String)
deriving DecidableEq, Repr

structure InvokeDynamicInsnNode where
  name : String
  desc : MethodDescriptor
  bsmArgs : List BsmArg
deriving DecidableEq, Repr

/-- A label of the class as read, or the one the transform makes for a
method. -/
inductive LabelNode where
  | original (index : Nat)
  | inserted
deriving DecidableEq, Repr

inductive Insn where
  | varInsn (opcode : Int) (var : Nat)
  | methodInsn (opcode : Int) (owner name desc : String)
  | jumpInsn (opcode : Int) (label : LabelNode)
  | insn (opcode : Int)
  | label (label : LabelNode)
  | invokeDynamic (node : InvokeDynamicInsnNode)
  | other (opcode : Int) (operands : List Int)
deriving DecidableEq, Repr

structure MethodNode where
  access : Nat
  name : String
  desc : MethodDescriptor
  visibleAnnotations : List String
  instructions : List Insn
deriving DecidableEq, Repr

structure ClassNode where
  name : String
  interfaces : List String
  methods : List MethodNode
deriving DecidableEq, Repr

namespace MethodNode

def nameWithDesc (methodNode : MethodNode) : String :=
  methodNode.name ++ methodNode.desc.text

def isStatic (methodNode : MethodNode) : Bool :=
  methodNode.access &&& Opcodes.ACC_STATIC ≠ 0

def hasAnnotation (methodNode : MethodNode) (annotationDesc : String) :
    Bool :=
  methodNode.visibleAnnotations.contains annotationDesc

def onlyOneViewParameter (methodNode : MethodNode) : Bool :=
  methodNode.desc.text = OnClickViewMethodDescriptor

def hasCheckViewAnnotation (methodNode : MethodNode)
    (config : AntiShakeConfig) : Bool :=
  methodNode.hasAnnotation config.formatCheckViewOnClickAnnotation

def hasUncheckViewOnClickAnnotation (methodNode : MethodNode)
    (config : AntiShakeConfig) : Bool :=
  methodNode.hasAnnotation config.formatUncheckViewOnClickAnnotation

def hasButterKnifeOnClickAnnotation (methodNode : MethodNode) : Bool :=
  methodNode.hasAnnotation ButterKnifeOnClickAnnotationDesc

/-- `findLambda`. -/
def findLambda (methodNode : MethodNode)
    (filter : InvokeDynamicInsnNode → Bool) : List InvokeDynamicInsnNode :=
  methodNode.instructions.filterMap fun
    | .invokeDynamic node => if filter node then some node else none
    | _ => none

/-- `endsWith`. -/
def endsWith (text suffix : String) : Bool :=
  suffix.toList.isSuffixOf text.toList

def findHookPointLambda (methodNode : MethodNode)
    (config : AntiShakeConfig) : List InvokeDynamicInsnNode :=
  methodNode.findLambda fun node =>
    config.hookPointList.any fun point =>
      node.name = point.methodName &&
        endsWith node.desc.text point.interfaceSignSuffix

end MethodNode

def ClassNode.isHookPoint (classNode : ClassNode) (config : AntiShakeConfig)
    (methodNode : MethodNode) : Bool :=
  config.hookPointList.any fun point =>
    classNode.interfaces.contains point.interfaceName &&
      methodNode.nameWithDesc = point.methodSign

/-! ## `getVisitPosition` -/

inductive Failure where
  | arrayIndexOutOfBoundsException
  | error (message : String)
deriving DecidableEq, Repr

/-- `Type.size` of a parameter. -/
def size (argumentType : String) : Nat :=
  if argumentType = "J" ∨ argumentType = "D" then 2 else 1

def getVisitPosition (argumentTypes : List String) :
    Nat → Bool → Except Failure Nat
  | 0, isStaticMethod =>
      if argumentTypes.length ≤ 0 then
        .error (.error "getVisitPosition error")
      else
        .ok (if isStaticMethod then 0 else 1)
  | parameterIndex + 1, isStaticMethod =>
      if argumentTypes.length ≤ parameterIndex + 1 then
        .error (.error "getVisitPosition error")
      else do
        let position ←
          getVisitPosition argumentTypes parameterIndex isStaticMethod
        return position + size (argumentTypes.getD parameterIndex "")

/-! ## `modifyClass` -/

/-- `bsmArgs[1] as? Handle`. -/
def lambdaName (node : InvokeDynamicInsnNode) :
    Except Failure (List String) :=
  match (node.bsmArgs[1]? : Option BsmArg) with
  | none => .error .arrayIndexOutOfBoundsException
  | some (.handle handle) => .ok [handle.name ++ handle.desc.text]
  | some (.constant _) => .ok []

/-- What the first pass adds to `shouldHookMethodList` at a method. -/
def shouldHook (config : AntiShakeConfig) (classNode : ClassNode)
    (methodNode : MethodNode) : Except Failure (List String) :=
  if methodNode.isStatic ||
      methodNode.hasUncheckViewOnClickAnnotation config then
    .ok []
  else if methodNode.onlyOneViewParameter &&
      methodNode.hasCheckViewAnnotation config then
    .ok [methodNode.nameWithDesc]
  else if methodNode.onlyOneViewParameter &&
      methodNode.hasButterKnifeOnClickAnnotation then
    .ok [methodNode.nameWithDesc]
  else if classNode.isHookPoint config methodNode then
    .ok [methodNode.nameWithDesc]
  else
    ((methodNode.findHookPointLambda config).mapM lambdaName).map
      List.flatten

/-- The instructions inserted in front of a method. -/
def checkerCall (config : AntiShakeConfig) (position : Nat) : List Insn :=
  [.varInsn Opcodes.ALOAD position,
    .methodInsn Opcodes.INVOKESTATIC config.formatShakeCheckClass
      config.shakeCheckMethodName config.shakeCheckMethodDescriptor,
    .jumpInsn Opcodes.IFNE .inserted,
    .insn Opcodes.RETURN,
    .label .inserted]

/-- The body of the second pass, for a method of a collected name. -/
def insertCheckerCall (config : AntiShakeConfig) (methodNode : MethodNode) :
    Except Failure MethodNode :=
  let argumentTypes := methodNode.desc.argumentTypes
  match argumentTypes.findIdx? (· = ViewDescriptor) with
  | none => .ok methodNode
  | some viewArgumentIndex =>
      if methodNode.instructions = [] then .ok methodNode
      else do
        let position ← getVisitPosition argumentTypes viewArgumentIndex
          methodNode.isStatic
        return { methodNode with
          instructions :=
            checkerCall config position ++ methodNode.instructions }

/-- `modifyClass`, between the reader and the writer of the class file. -/
def modifyClass (config : AntiShakeConfig) (classNode : ClassNode) :
    Except Failure ClassNode := do
  let collected ← classNode.methods.mapM (shouldHook config classNode)
  let shouldHookMethodList := collected.flatten
  if shouldHookMethodList = [] then
    return classNode
  else
    let methods ← classNode.methods.mapM fun methodNode =>
      if methodNode.nameWithDesc ∈ shouldHookMethodList then
        insertCheckerCall config methodNode
      else
        return methodNode
    return { classNode with methods := methods }

end DripStone.AntiShake
