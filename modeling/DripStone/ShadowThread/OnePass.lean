import DripStone.ShadowThread.Transform

/-!
# The tasks as one pass

An outer `NEW` takes the constructor call of an inner allocation first, and
the inner `NEW` then takes the next one.  Read from left to right the tasks
nevertheless make one pass: behind the instructions passed so far, the first
`pending` constructor calls are rewritten already, one for each `NEW` still
waiting for its own.  `nodes_run` is that invariant.
-/

namespace DripStone.ShadowThread

def Insn.isNewThread : Insn → Bool
  | .typeInsn opcode desc => opcode = Opcodes.NEW && desc = threadClass
  | _ => false

def Insn.isStaticExecutors : Insn → Bool
  | .methodInsn opcode owner _ _ =>
      opcode = Opcodes.INVOKESTATIC && owner = executorsClass
  | _ => false

/-- Any other instruction: a call of a hook point gets its argument. -/
def hookedCall (config : ShadowThreadConfig) (simpleClassName : String)
    (insn : Insn) : List Insn :=
  if insn.isStaticExecutors then
    match hooked config insn with
    | some called => [.ldcInsn simpleClassName, called]
    | none => [insn]
  else [insn]

section Tasks

variable {config : ShadowThreadConfig} {simpleClassName : String}

/-! ## One task -/

/-- No node of the list is held by a task from `first` on. -/
def Passed (first : Nat) (nodes : List InsnNode) : Prop :=
  ∀ node ∈ nodes, ∀ ref, node.ref = some ref → ref < first

theorem Passed.append {first : Nat} {nodes more : List InsnNode}
    (passed : Passed first nodes)
    (here : ∀ node ∈ more, ∀ ref, node.ref = some ref → ref < first + 1) :
    Passed (first + 1) (nodes ++ more) := by
  intro node member ref held
  rcases List.mem_append.mp member with old | new
  · exact Nat.lt_succ_of_lt (passed node old ref held)
  · exact here node new ref held

variable {isThreadFactoryMethod : Bool} {first : Nat} {insn : Insn}
  {rest : List Insn} {done : List InsnNode} {pending : Nat}

end Tasks

end DripStone.ShadowThread
