import DripStone.ShadowThread.OnePass

/-!
# Pairing in well-nested bodies

A body is well nested when between a `NEW java/lang/Thread` and the
constructor call of the same object only complete allocations of `Thread`
stand, to any depth.  Both ends of every allocation then get the shadow class,
and the constructor calls that belong to no allocation stay as they are.
-/

namespace DripStone.ShadowThread

/-! ## Well-nested bodies -/

def newThread : Insn := .typeInsn Opcodes.NEW threadClass

def threadInit (desc : MethodDescriptor) : Insn :=
  .methodInsn Opcodes.INVOKESPECIAL threadClass "<init>" desc

/-- An instruction that neither allocates nor initialises a `Thread`. -/
abbrev OtherInsn :=
  { insn : Insn //
    insn.isNewThread = false ∧ insn.isThreadInitMethodInsn = false }

/-- What stands inside an open allocation. -/
inductive Allocations where
  | nil
  | other (insn : OtherInsn) (rest : Allocations)
  | allocation (inner : Allocations) (desc : MethodDescriptor)
      (rest : Allocations)

/-- A method body.  A `super(...)` or `this(...)` call of a subclass of
`Thread` stands outside any open allocation. -/
inductive Body where
  | nil
  | other (insn : OtherInsn) (rest : Body)
  | superCall (desc : MethodDescriptor) (rest : Body)
  | allocation (inner : Allocations) (desc : MethodDescriptor) (rest : Body)

def Allocations.instructions : Allocations → List Insn
  | .nil => []
  | .other insn rest => insn.1 :: rest.instructions
  | .allocation inner desc rest =>
      newThread :: inner.instructions ++ threadInit desc :: rest.instructions

def Body.instructions : Body → List Insn
  | .nil => []
  | .other insn rest => insn.1 :: rest.instructions
  | .superCall desc rest => threadInit desc :: rest.instructions
  | .allocation inner desc rest =>
      newThread :: inner.instructions ++ threadInit desc :: rest.instructions

/-! ## What the transform is to do -/

section Shadowed

variable (config : ShadowThreadConfig) (simpleClassName : String)

def newShadow : Insn :=
  .typeInsn Opcodes.NEW config.formatShadowThreadClass

/-- The constructor call with the class's name as its last argument. -/
def shadowInitCall (desc : MethodDescriptor) : List Insn :=
  [.ldcInsn simpleClassName,
    .methodInsn Opcodes.INVOKESPECIAL config.formatShadowThreadClass "<init>"
      desc.insertArgument]

def Allocations.shadowed : Allocations → List Insn
  | .nil => []
  | .other insn rest =>
      hookedCall config simpleClassName insn.1 ++ rest.shadowed
  | .allocation inner desc rest =>
      newShadow config :: inner.shadowed ++
        shadowInitCall config simpleClassName desc ++ rest.shadowed

def Body.shadowed : Body → List Insn
  | .nil => []
  | .other insn rest =>
      hookedCall config simpleClassName insn.1 ++ rest.shadowed
  | .superCall desc rest => threadInit desc :: rest.shadowed
  | .allocation inner desc rest =>
      newShadow config :: inner.shadowed config simpleClassName ++
        shadowInitCall config simpleClassName desc ++ rest.shadowed

end Shadowed

/-! ## One pass over a well-nested body -/

section Passes

variable {config : ShadowThreadConfig} {simpleClassName : String}

end Passes

/-! ## The class -/

section Class

variable {config : ShadowThreadConfig} {classNode : ClassNode}

end Class

end DripStone.ShadowThread
