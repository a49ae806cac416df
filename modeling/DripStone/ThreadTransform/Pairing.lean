import DripStone.ThreadTransform.Visitor

/-!
# One boolean for the open allocations

In a well-nested body every allocation of a `Thread` has its own constructor
call.  The visitor takes the next `INVOKESPECIAL` on `Thread` for it, so it
pairs the two exactly when no other one, and no other `NEW`, stands between
them.
-/

namespace DripStone.ThreadTransform

open DripStone.Library

variable {Other : Type}

/-! ## Well-nested bodies -/

/-- An instruction that neither allocates a `Thread` nor is an `INVOKESPECIAL`
on it. -/
def Insn.IsOther : Insn Other → Prop
  | .typeInsn opcode type => ¬ (opcode = Opcodes.NEW ∧ type = threadClass)
  | .methodInsn opcode owner _ _ _ =>
      ¬ (opcode = Opcodes.INVOKESPECIAL ∧ owner = threadClass)
  | .other _ => True

abbrev OtherInsn (Other : Type) := { insn : Insn Other // insn.IsOther }

/-- A method body.  A `superCall` is a `super(...)` or `super.method()` of a
subclass of `Thread`; the constructor call at the end of an allocation is that
of the allocated object. -/
inductive Body (Other : Type) where
  | nil
  | other (insn : OtherInsn Other) (rest : Body Other)
  | superCall (name desc : String) (itf : Bool) (rest : Body Other)
  | allocation (inner : Body Other) (desc : String) (itf : Bool)
      (rest : Body Other)

/-- A `NEW` of a class. -/
def newInsn (owner : String) : Insn Other := .typeInsn Opcodes.NEW owner

/-- An `INVOKESPECIAL` on a class. -/
def special (owner name desc : String) (itf : Bool) : Insn Other :=
  .methodInsn Opcodes.INVOKESPECIAL owner name desc itf

namespace Body

/-- The body as it is read. -/
def instructions : Body Other → List (Insn Other)
  | nil => []
  | other insn rest => insn.1 :: rest.instructions
  | superCall name desc itf rest =>
      special threadClass name desc itf :: rest.instructions
  | allocation inner desc itf rest =>
      newInsn threadClass :: (inner.instructions ++
        special threadClass "<init>" desc itf :: rest.instructions)

/-- The body with both ends of every allocation, and nothing else, of the
shadow class. -/
def shadowed : Body Other → List (Call Other)
  | nil => []
  | other insn rest => .onSuper insn.1 :: rest.shadowed
  | superCall name desc itf rest =>
      .onSuper (special threadClass name desc itf) :: rest.shadowed
  | allocation inner desc itf rest =>
      .onMv (newInsn GOAL_CLAZZ) :: (inner.shadowed ++
        .onMv (special GOAL_CLAZZ "<init>" desc itf) :: rest.shadowed)

/-- The body without both ends of its allocations. -/
def handedOn : Body Other → List (Insn Other)
  | nil => []
  | other insn rest => insn.1 :: rest.handedOn
  | superCall name desc itf rest =>
      special threadClass name desc itf :: rest.handedOn
  | allocation inner _ _ rest => inner.handedOn ++ rest.handedOn

/-- No `NEW` of `Thread` and no `INVOKESPECIAL` on it. -/
def quiet : Body Other → Bool
  | nil => true
  | other _ rest => rest.quiet
  | superCall .. => false
  | allocation .. => false

/-- Between the two ends of every allocation the body is quiet. -/
def Undisturbed : Body Other → Prop
  | nil => True
  | other _ rest => rest.Undisturbed
  | superCall _ _ _ rest => rest.Undisturbed
  | allocation inner _ _ rest => inner.quiet = true ∧ rest.Undisturbed

theorem length_shadowed (body : Body Other) :
    body.shadowed.length = body.instructions.length := by
  induction body with
  | nil => rfl
  | other insn rest inductionHypothesis =>
      simp [shadowed, instructions, inductionHypothesis]
  | superCall name desc itf rest inductionHypothesis =>
      simp [shadowed, instructions, inductionHypothesis]
  | allocation inner desc itf rest innerHypothesis restHypothesis =>
      simp [shadowed, instructions, innerHypothesis, restHypothesis]

end Body

/-! ## The stack of open allocations -/

/-- The rewriting that keeps the owners it gave to the open allocations, the
innermost on top, and gives the same to the constructor call of each. -/
def openAllocations : Mealy (List String) (Insn Other) (Call Other) :=
  ⟨fun owners insn =>
    match insn with
    | .typeInsn opcode type =>
        if opcode = Opcodes.NEW ∧ type = threadClass then
          (GOAL_CLAZZ :: owners, [.onMv (.typeInsn opcode GOAL_CLAZZ)])
        else (owners, [.onSuper (.typeInsn opcode type)])
    | .methodInsn opcode owner name desc itf =>
        match owners with
        | [] => ([], [.onSuper (.methodInsn opcode owner name desc itf)])
        | innermost :: outer =>
            if opcode = Opcodes.INVOKESPECIAL ∧ owner = threadClass ∧
                name = "<init>" then
              (outer, [.onMv (.methodInsn opcode innermost name desc itf)])
            else (innermost :: outer,
              [.onSuper (.methodInsn opcode owner name desc itf)])
    | .other visited => (owners, [.onSuper (.other visited)])⟩

/-- No `super(...)` stands inside an allocation. -/
def Body.Initialises : Body Other → Prop
  | .nil => True
  | .other _ rest => rest.Initialises
  | .superCall name _ _ rest => name ≠ "<init>" ∧ rest.Initialises
  | .allocation inner _ _ rest => inner.Initialises ∧ rest.Initialises

/-- Every `super(...)` stands outside of all allocations. -/
def Body.Placed : Body Other → Prop
  | .nil => True
  | .other _ rest => rest.Placed
  | .superCall _ _ _ rest => rest.Placed
  | .allocation inner _ _ rest => inner.Initialises ∧ rest.Placed

section Stack

theorem openAllocations_other (owners : List String)
    (insn : OtherInsn Other) :
    openAllocations.step owners insn.1 = (owners, [.onSuper insn.1]) := by
  obtain ⟨insn, isOther⟩ := insn
  cases insn with
  | typeInsn opcode type => exact if_neg isOther
  | methodInsn opcode owner name desc itf =>
      cases owners with
      | nil => rfl
      | cons innermost outer =>
          exact if_neg fun taken => isOther ⟨taken.1, taken.2.1⟩
  | other visited => rfl

theorem openAllocations_new (owners : List String) :
    openAllocations.step owners (newInsn threadClass : Insn Other) =
      (GOAL_CLAZZ :: owners, [.onMv (newInsn GOAL_CLAZZ)]) := by
  simp [openAllocations, newInsn]

theorem openAllocations_init (owners : List String) (desc : String)
    (itf : Bool) :
    openAllocations.step (GOAL_CLAZZ :: owners)
        (special threadClass "<init>" desc itf : Insn Other) =
      (owners, [.onMv (special GOAL_CLAZZ "<init>" desc itf)]) := by
  simp [openAllocations, special]

theorem openAllocations_superMethod (owners : List String)
    {name : String} (notInit : name ≠ "<init>") (desc : String)
    (itf : Bool) :
    openAllocations.step owners
        (special threadClass name desc itf : Insn Other) =
      (owners, [.onSuper (special threadClass name desc itf)]) := by
  cases owners with
  | nil => rfl
  | cons innermost outer => exact if_neg fun taken => notInit taken.2.2

theorem openAllocations_superCall (name desc : String) (itf : Bool) :
    openAllocations.step []
        (special threadClass name desc itf : Insn Other) =
      ([], [.onSuper (special threadClass name desc itf)]) := rfl

/-- Inside open allocations the rewriting closes what it opens. -/
theorem openAllocations_inside {body : Body Other}
    (initialises : body.Initialises) (owners : List String)
    (behind : List (Insn Other)) :
    openAllocations.trace owners (body.instructions ++ behind) =
      body.shadowed ++ openAllocations.trace owners behind := by
  induction body generalizing owners behind with
  | nil => rfl
  | other insn rest inductionHypothesis =>
      rw [Body.instructions, List.cons_append, Mealy.trace_cons,
        openAllocations_other, inductionHypothesis initialises,
        Body.shadowed]
      rfl
  | superCall name desc itf rest inductionHypothesis =>
      rw [Body.instructions, List.cons_append, Mealy.trace_cons,
        openAllocations_superMethod owners initialises.1,
        inductionHypothesis initialises.2, Body.shadowed]
      rfl
  | allocation inner desc itf rest innerHypothesis restHypothesis =>
      rw [Body.instructions, List.cons_append, List.append_assoc,
        List.cons_append, Mealy.trace_cons, openAllocations_new,
        innerHypothesis initialises.1, Mealy.trace_cons,
        openAllocations_init, restHypothesis initialises.2,
        Body.shadowed]
      simp

/-- The rewriting with a stack gives both ends of every allocation the shadow
class, and changes nothing else. -/
theorem openAllocations_trace {body : Body Other} (placed : body.Placed) :
    openAllocations.trace [] body.instructions = body.shadowed := by
  induction body with
  | nil => rfl
  | other insn rest inductionHypothesis =>
      rw [Body.instructions, Mealy.trace_cons, openAllocations_other,
        inductionHypothesis placed, Body.shadowed]
      rfl
  | superCall name desc itf rest inductionHypothesis =>
      rw [Body.instructions, Mealy.trace_cons, openAllocations_superCall,
        inductionHypothesis placed, Body.shadowed]
      rfl
  | allocation inner desc itf rest innerHypothesis restHypothesis =>
      have inside := openAllocations_inside placed.1 [GOAL_CLAZZ]
        (special threadClass "<init>" desc itf :: rest.instructions)
      rw [Body.instructions, Mealy.trace_cons, openAllocations_new, inside,
        Mealy.trace_cons, openAllocations_init, restHypothesis placed.2,
        Body.shadowed]
      rfl

theorem Body.Initialises.of_quiet {body : Body Other}
    (isQuiet : body.quiet = true) : body.Initialises := by
  induction body with
  | nil => exact trivial
  | other insn rest inductionHypothesis => exact inductionHypothesis isQuiet
  | superCall | allocation => exact absurd isQuiet (by simp [Body.quiet])

theorem Body.Undisturbed.placed {body : Body Other}
    (undisturbed : body.Undisturbed) : body.Placed := by
  induction body with
  | nil => exact trivial
  | other insn rest inductionHypothesis =>
      exact inductionHypothesis undisturbed
  | superCall name desc itf rest inductionHypothesis =>
      exact inductionHypothesis undisturbed
  | allocation inner desc itf rest innerHypothesis restHypothesis =>
      exact ⟨.of_quiet undisturbed.1, restHypothesis undisturbed.2⟩

end Stack

/-! ## What is written -/

/-- The instruction without what the adapter may change. -/
def Insn.plain : Insn Other → Insn Unit
  | .typeInsn opcode type => .typeInsn opcode type
  | .methodInsn opcode owner name desc itf =>
      .methodInsn opcode owner name desc itf
  | .other _ => .other ()

def Call.plain : Call Other → Insn Unit
  | .onMv insn => insn.plain
  | .onSuper insn => insn.plain

namespace AdviceAdapter

variable {adapter : AdviceAdapter Other} {state : adapter.State}

theorem plain_written (insn : Insn Other) :
    (adapter.written state insn).plain = insn.plain := by
  cases insn with
  | typeInsn opcode type => rfl
  | methodInsn opcode owner name desc itf => rfl
  | other visited => rfl

/-- For each call one instruction is written. -/
theorem plain_write {calls : List (Call Other)} {output : List (Insn Other)}
    (isOutput : adapter.write state calls = some output) :
    output.map Insn.plain = calls.map Call.plain := by
  induction calls generalizing state output with
  | nil =>
      obtain rfl := Option.some.inj isOutput
      rfl
  | cons call rest inductionHypothesis =>
      cases call with
      | onMv insn =>
          obtain ⟨behind, isBehind, rfl⟩ := Option.map_eq_some_iff.mp isOutput
          rw [List.map_cons, inductionHypothesis isBehind]
          rfl
      | onSuper insn =>
          obtain ⟨next, _, isRest⟩ := Option.bind_eq_some_iff.mp isOutput
          obtain ⟨behind, isBehind, rfl⟩ := Option.map_eq_some_iff.mp isRest
          rw [List.map_cons, plain_written, inductionHypothesis isBehind]
          rfl

/-- The instructions of the calls on `super`. -/
def onSupers (calls : List (Call Other)) : List (Insn Other) :=
  calls.filterMap fun call =>
    match call with
    | .onMv _ => none
    | .onSuper insn => some insn

/-- Something is written exactly when the adapter takes what goes to it. -/
theorem isSome_write_iff {calls : List (Call Other)} :
    (∃ output, adapter.write state calls = some output) ↔
      adapter.Takes state (onSupers calls) := by
  induction calls generalizing state with
  | nil => exact iff_of_true ⟨[], rfl⟩ trivial
  | cons call rest inductionHypothesis =>
      cases call with
      | onMv insn =>
          refine Iff.trans ?_ inductionHypothesis
          simp [write]
      | onSuper insn =>
          refine Iff.trans ?_ (exists_congr fun next =>
            and_congr_right fun _ => inductionHypothesis)
          simp [write, Option.bind_eq_some_iff]

end AdviceAdapter

theorem Body.onSupers_shadowed (body : Body Other) :
    AdviceAdapter.onSupers body.shadowed = body.handedOn := by
  induction body with
  | nil => rfl
  | other insn rest inductionHypothesis =>
      exact congrArg (insn.1 :: ·) inductionHypothesis
  | superCall name desc itf rest inductionHypothesis =>
      exact congrArg (special threadClass name desc itf :: ·)
        inductionHypothesis
  | allocation inner desc itf rest innerHypothesis restHypothesis =>
      rw [Body.handedOn, ← innerHypothesis, ← restHypothesis]
      exact List.filterMap_append

/-! ## The visitor -/

namespace ThreadMethodVisitor

variable {visitor : ThreadMethodVisitor}

theorem step_other (visitor : ThreadMethodVisitor)
    (insn : OtherInsn Other) :
    machine.step visitor insn.1 = (visitor, [.onSuper insn.1]) := by
  obtain ⟨insn, isOther⟩ := insn
  cases insn with
  | typeInsn opcode type =>
      exact if_neg fun taken => isOther ⟨taken.1, taken.2.symm⟩
  | methodInsn opcode owner name desc itf =>
      exact if_neg fun taken => isOther ⟨taken.2.2.1, taken.1.symm⟩
  | other visited => rfl

theorem step_new (visitor : ThreadMethodVisitor) :
    machine.step visitor (newInsn threadClass : Insn Other) =
      ({ visitor with find := true }, [.onMv (newInsn GOAL_CLAZZ)]) := by
  simp [machine, visitTypeInsn, newInsn]

/-- The call for the next `INVOKESPECIAL` on `Thread`. -/
def specialCall (visitor : ThreadMethodVisitor) (name desc : String)
    (itf : Bool) : Call Other :=
  if visitor.find = true then .onMv (special GOAL_CLAZZ name desc itf)
  else .onSuper (special threadClass name desc itf)

theorem step_special (notShadowThread : visitor.className ≠ GOAL_CLAZZ)
    (name desc : String) (itf : Bool) :
    machine.step visitor
        (special threadClass name desc itf : Insn Other) =
      ({ visitor with find := false },
        [visitor.specialCall name desc itf]) := by
  obtain ⟨className, find⟩ := visitor
  cases find with
  | true => exact if_pos ⟨rfl, notShadowThread, rfl, rfl⟩
  | false => exact if_neg fun taken => nomatch taken.2.2.2

/-- Behind a balanced body the visitor waits for a constructor call only if it
did before, and the body was quiet. -/
theorem run_body (notShadowThread : visitor.className ≠ GOAL_CLAZZ)
    (body : Body Other) :
    machine.run visitor body.instructions =
      { visitor with find := visitor.find && body.quiet } := by
  induction body generalizing visitor with
  | nil => simp [Body.instructions, Body.quiet]
  | other insn rest inductionHypothesis =>
      rw [Body.instructions, Mealy.run_cons, step_other,
        inductionHypothesis notShadowThread, Body.quiet]
  | superCall name desc itf rest inductionHypothesis =>
      have further := @inductionHypothesis { visitor with find := false }
        notShadowThread
      rw [Body.instructions, Mealy.run_cons, step_special notShadowThread,
        further]
      simp [Body.quiet]
  | allocation inner desc itf rest innerHypothesis restHypothesis =>
      have inside := @innerHypothesis { visitor with find := true }
        notShadowThread
      have closing := @step_special Other
        { visitor with find := inner.quiet } notShadowThread "<init>" desc itf
      have further := @restHypothesis { visitor with find := false }
        notShadowThread
      simp only [Bool.true_and] at inside
      rw [Body.instructions, Mealy.run_cons, step_new, Mealy.run_append,
        inside, Mealy.run_cons, closing, further]
      simp [Body.quiet]

/-- A quiet body is handed on. -/
theorem trace_of_quiet {body : Body Other} (isQuiet : body.quiet = true) :
    machine.trace visitor body.instructions = body.shadowed := by
  induction body with
  | nil => rfl
  | other insn rest inductionHypothesis =>
      rw [Body.instructions, Mealy.trace_cons, step_other,
        inductionHypothesis isQuiet, Body.shadowed]
      rfl
  | superCall | allocation => exact absurd isQuiet (by simp [Body.quiet])

/-- A fresh visitor pairs the two ends of all allocations when nothing of
`Thread` stands between them. -/
theorem trace_of_undisturbed
    (notShadowThread : visitor.className ≠ GOAL_CLAZZ)
    (fresh : visitor.find = false) {body : Body Other}
    (undisturbed : body.Undisturbed) :
    machine.trace visitor body.instructions = body.shadowed := by
  induction body generalizing visitor with
  | nil => rfl
  | other insn rest inductionHypothesis =>
      rw [Body.instructions, Mealy.trace_cons, step_other,
        inductionHypothesis notShadowThread fresh undisturbed, Body.shadowed]
      rfl
  | superCall name desc itf rest inductionHypothesis =>
      have further := @inductionHypothesis { visitor with find := false }
        notShadowThread rfl undisturbed
      rw [Body.instructions, Mealy.trace_cons, step_special notShadowThread,
        further, specialCall, fresh, Body.shadowed]
      rfl
  | allocation inner desc itf rest _ restHypothesis =>
      obtain ⟨isQuiet, behind⟩ := undisturbed
      have further := @restHypothesis { visitor with find := false }
        notShadowThread rfl behind
      have inside := @run_body Other { visitor with find := true }
        notShadowThread inner
      have closing := @step_special Other
        { visitor with find := true } notShadowThread "<init>" desc itf
      rw [isQuiet, Bool.and_true] at inside
      rw [Body.instructions, Mealy.trace_cons, step_new, Mealy.trace_append,
        trace_of_quiet isQuiet, inside, Mealy.trace_cons, closing, further,
        Body.shadowed]
      rfl

theorem length_trace (insns : List (Insn Other)) :
    (machine.trace visitor insns).length = insns.length := by
  induction insns generalizing visitor with
  | nil => rfl
  | cons insn rest inductionHypothesis =>
      have one : (machine.step visitor insn).2.length = 1 := by
        cases insn with
        | typeInsn opcode type =>
            simp only [machine, visitTypeInsn]
            split_ifs <;> rfl
        | methodInsn opcode owner name desc itf =>
            simp only [machine, visitMethodInsn]
            split_ifs <;> rfl
        | other visited => rfl
      rw [Mealy.trace_cons, List.length_append, one, inductionHypothesis,
        List.length_cons]
      omega

theorem find_of_plain {name desc : String} {itf : Bool}
    (same : (visitor.specialCall name desc itf : Call Other).plain =
      special GOAL_CLAZZ name desc itf) : visitor.find = true := by
  rw [specialCall] at same
  split at same
  · assumption
  · exact absurd (Insn.methodInsn.inj same).2.1
      (by simp [threadClass, GOAL_CLAZZ])

/-- Where all owners are right, nothing of `Thread` stands between the two
ends of an allocation. -/
theorem undisturbed_of_plain
    (notShadowThread : visitor.className ≠ GOAL_CLAZZ) {body : Body Other}
    (same : (machine.trace visitor body.instructions).map Call.plain =
      body.shadowed.map Call.plain) : body.Undisturbed := by
  induction body generalizing visitor with
  | nil => trivial
  | other insn rest inductionHypothesis =>
      rw [Body.instructions, Mealy.trace_cons, step_other] at same
      exact inductionHypothesis notShadowThread (List.cons.inj same).2
  | superCall name desc itf rest inductionHypothesis =>
      rw [Body.instructions, Mealy.trace_cons,
        step_special notShadowThread] at same
      exact @inductionHypothesis { visitor with find := false }
        notShadowThread (List.cons.inj same).2
  | allocation inner desc itf rest _ restHypothesis =>
      have inside := @run_body Other { visitor with find := true }
        notShadowThread inner
      have closing := @step_special Other
        { visitor with find := inner.quiet } notShadowThread "<init>" desc itf
      have sameLength : (machine.trace { visitor with find := true }
          inner.instructions).length = inner.shadowed.length := by
        rw [length_trace, Body.length_shadowed]
      simp only [Bool.true_and] at inside
      rw [Body.instructions, Mealy.trace_cons, step_new, Mealy.trace_append,
        inside, Mealy.trace_cons, closing, Body.shadowed,
        List.singleton_append] at same
      have ends := (List.cons.inj same).2
      simp only [List.map_append, List.map_cons] at ends
      obtain ⟨_, behind⟩ := List.append_inj ends (by
        rw [List.length_map, List.length_map, sameLength])
      obtain ⟨call, further⟩ := List.cons.inj behind
      exact ⟨find_of_plain call, @restHypothesis { visitor with find := false }
        notShadowThread further⟩

end ThreadMethodVisitor

/-! ## The method -/

/-- What the visitor is to make of a well-nested body: every `NEW` of `Thread`
and the constructor call of the same object get the same owner and nothing else
changes, as in the rewriting with a stack. -/
structure Paired (adapter : AdviceAdapter Other) (state : adapter.State)
    (body : Body Other) (output : List (Insn Other)) : Prop where
  shadowed : adapter.write state body.shadowed = some output
  stacked : adapter.write state
    (openAllocations.trace [] body.instructions) = some output

/-- In every class but the shadow class itself a well-nested method is
rewritten as with a stack if and only if each of its allocations is
undisturbed, and the adapter takes all the rest. -/
theorem paired_iff_undisturbed (adapter : AdviceAdapter Other)
    {className : String} (notShadowThread : className ≠ GOAL_CLAZZ)
    {methodNode : MethodNode Other} {body : Body Other}
    (wellNested : methodNode.instructions = body.instructions) :
    (∃ output, methodNode.visited adapter className = some output ∧
        Paired adapter (adapter.start methodNode.access methodNode.name
          methodNode.desc) body output) ↔
      body.Undisturbed ∧
        adapter.Takes (adapter.start methodNode.access methodNode.name
          methodNode.desc) body.handedOn := by
  rw [MethodNode.visited, wellNested, ← body.onSupers_shadowed,
    ← AdviceAdapter.isSome_write_iff]
  constructor
  · rintro ⟨output, isOutput, paired⟩
    refine ⟨?_, output, paired.shadowed⟩
    have same := (AdviceAdapter.plain_write isOutput).symm.trans
      (AdviceAdapter.plain_write paired.shadowed)
    exact ThreadMethodVisitor.undisturbed_of_plain notShadowThread same
  · rintro ⟨undisturbed, output, isOutput⟩
    have fresh := @ThreadMethodVisitor.trace_of_undisturbed Other
      { className := className } notShadowThread rfl body undisturbed
    refine ⟨output, ?_, isOutput, ?_⟩
    · rw [fresh, isOutput]
    · rw [openAllocations_trace undisturbed.placed, isOutput]

/-! ## A method that is no constructor -/

/-- There the adapter takes everything; and the local variables keep their
numbers where there are none. -/
def idleAdapter : AdviceAdapter Unit where
  State := Unit
  start _ _ _ := ()
  visit _ _ := some ()
  renumbered _ visited := visited

/-- `super.run(); new Thread(); super.getName();` -/
def flatAllocation : Body Unit :=
  .superCall "run" "()V" false
    (.allocation .nil "()V" false
      (.superCall "getName" "()Ljava/lang/String;" false .nil))

theorem flatAllocation_paired :
    (∃ output, MethodNode.visited
        ⟨1, "run", "()V", flatAllocation.instructions⟩ idleAdapter
          "com/walker/Task" = some output ∧
        Paired idleAdapter (idleAdapter.start 1 "run" "()V") flatAllocation
          output) ↔
      flatAllocation.Undisturbed ∧
        idleAdapter.Takes (idleAdapter.start 1 "run" "()V")
          flatAllocation.handedOn :=
  paired_iff_undisturbed idleAdapter (by decide) rfl

/-- `new Thread(new Thread())` -/
def nestedAllocation : Body Unit :=
  .allocation (.allocation .nil "()V" false .nil)
    "(Ljava/lang/Runnable;)V" false .nil

/-- Of two nested allocations the outer one loses its constructor call. -/
theorem nestedAllocation_not_paired :
    nestedAllocation.Placed ∧
      ¬ ∃ output, MethodNode.visited
          ⟨1, "run", "()V", nestedAllocation.instructions⟩ idleAdapter
            "com/walker/Task" = some output ∧
        Paired idleAdapter (idleAdapter.start 1 "run" "()V")
          nestedAllocation output := by
  refine ⟨by simp [nestedAllocation, Body.Placed, Body.Initialises], ?_⟩
  rintro ⟨output, isOutput, paired⟩
  have same := isOutput.trans paired.shadowed.symm
  exact absurd same (by decide)

end DripStone.ThreadTransform
