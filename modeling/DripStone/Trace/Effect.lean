import DripStone.Trace.Instrument

/-!
# What the inserted instructions do

The inserted code works above the operand stack it finds: it makes or fetches
the object to tell, pushes what the call takes, and makes the call.  Any of it
may throw: a class may fail to load, memory may run out, and the object told
may throw before or after it took note.
-/

namespace DripStone.Trace

open Library Opcodes

/-- What is reported during an activation of a method: its own entry and
exits, and what other activations report while it calls them. -/
inductive Report (Foreign : Type) where
  | enter
  | exit
  | foreign (event : Foreign)
deriving DecidableEq, Repr

/-- The arguments of a descriptor, counted up to the closing parenthesis; the
flag says that a class name is being read. -/
def countArguments : Bool → List Char → Nat
  | _, [] => 0
  | false, letter :: rest =>
      if letter = ')' then 0
      else if letter = '[' then countArguments false rest
      else if letter = 'L' then countArguments true rest + 1
      else countArguments false rest + 1
  | true, letter :: rest => countArguments (letter ≠ ';') rest

/-- The operands of a call, with the receiver if there is one. -/
def operandCount (opcode : Int) (desc : String) : Nat :=
  countArguments false (desc.toList.drop 1) +
    if opcode = INVOKESTATIC then 0 else 1

def resultCount (desc : String) : Nat :=
  if desc.toList.getLast? = some 'V' then 0 else 1

/-- What a call of the method reports. -/
def hookReport {Foreign : Type} (name : String) : List (Report Foreign) :=
  if name = "onBeforeMethod" ∨ name = "notifyMethodEnter" then [.enter]
  else if name = "onAfterMethod" ∨ name = "notifyMethodExit" then [.exit]
  else []

/-- `NEW` and `LDC`. -/
def Insn.pushes : Insn → Bool
  | .typeInsn opcode _ => opcode = NEW
  | .ldcInsn _ => true
  | _ => false

inductive InsnEffect (Foreign V : Type) :
    Insn → Frame V → List (Report Foreign) → Outcome V → Prop where
  | push {insn : Insn} (value : V) (stack : List V) (locals : Nat → V) :
      insn.pushes = true →
        InsnEffect Foreign V insn ⟨stack, locals⟩ []
          (.next ⟨value :: stack, locals⟩)
  | dup (top : V) (stack : List V) (locals : Nat → V) :
      InsnEffect Foreign V (.insn DUP) ⟨top :: stack, locals⟩ []
        (.next ⟨top :: top :: stack, locals⟩)
  | call {opcode : Int} {owner name desc : String} {itf : Bool}
      {operands results stack : List V} {locals : Nat → V} :
      operands.length = operandCount opcode desc →
        results.length = resultCount desc →
          InsnEffect Foreign V (.methodInsn opcode owner name desc itf)
            ⟨operands ++ stack, locals⟩ (hookReport name)
              (.next ⟨results ++ stack, locals⟩)
  | callThrows (opcode : Int) (owner name desc : String) (itf : Bool)
      (frame : Frame V) (exception : V) :
      InsnEffect Foreign V (.methodInsn opcode owner name desc itf) frame
        (hookReport name) (.throw exception)
  | fault (insn : Insn) (frame : Frame V) (exception : V) :
      InsnEffect Foreign V insn frame [] (.throw exception)

/-! ## Single instructions -/

section Instructions

variable {Foreign V : Type}

theorem silent_push [Inhabited V] {insn : Insn}
    (pushes : insn.pushes = true) :
    Silent (InsnEffect Foreign V) insn 0 1 where
  sound operands stack locals events outcome count step := by
    obtain rfl := List.eq_nil_of_length_eq_zero count
    cases step with
    | push value => exact ⟨rfl, Or.inl ⟨[value], rfl, rfl⟩⟩
    | dup => cases pushes
    | call => cases pushes
    | callThrows => cases pushes
    | fault _ _ exception => exact ⟨rfl, Or.inr ⟨exception, rfl⟩⟩
  passes operands stack locals count := by
    obtain rfl := List.eq_nil_of_length_eq_zero count
    exact ⟨[default], rfl, .push default stack locals pushes⟩
  fails := .fault _

theorem silent_dup :
    Silent (InsnEffect Foreign V) (.insn DUP) 1 2 where
  sound operands stack locals events outcome count step := by
    obtain ⟨top, rfl⟩ := List.length_eq_one_iff.1 count
    cases step with
    | push _ _ _ pushes => cases pushes
    | dup => exact ⟨rfl, Or.inl ⟨[top, top], rfl, rfl⟩⟩
    | fault _ _ exception => exact ⟨rfl, Or.inr ⟨exception, rfl⟩⟩
  passes operands stack locals count := by
    obtain ⟨top, rfl⟩ := List.length_eq_one_iff.1 count
    exact ⟨[top, top], rfl, .dup top stack locals⟩
  fails := .fault _

/-- The two outcomes of a call. -/
theorem call_cases {opcode : Int} {owner name desc : String} {itf : Bool}
    {operands stack : List V} {locals : Nat → V}
    {events : List (Report Foreign)} {outcome : Outcome V}
    (count : operands.length = operandCount opcode desc)
    (step : InsnEffect Foreign V (.methodInsn opcode owner name desc itf)
      ⟨operands ++ stack, locals⟩ events outcome) :
    (events = hookReport name ∧ ∃ results : List V,
      results.length = resultCount desc ∧
        outcome = .next ⟨results ++ stack, locals⟩) ∨
      ∃ exception, outcome = .throw exception ∧
        (events = [] ∨ events = hookReport name) := by
  generalize same : (⟨operands ++ stack, locals⟩ : Frame V) = frame at step
  cases step with
  | push _ _ _ pushes => cases pushes
  | call taken given =>
      obtain ⟨sameStack, rfl⟩ := Frame.mk.inj same
      obtain ⟨-, rfl⟩ := List.append_inj sameStack (count.trans taken.symm)
      exact Or.inl ⟨rfl, _, given, rfl⟩
  | callThrows => exact Or.inr ⟨_, rfl, Or.inr rfl⟩
  | fault => exact Or.inr ⟨_, rfl, Or.inl rfl⟩

theorem silent_call [Inhabited V] (opcode : Int) (owner name desc : String)
    (itf : Bool)
    (unhooked : (hookReport name : List (Report Foreign)) = []) :
    Silent (InsnEffect Foreign V) (.methodInsn opcode owner name desc itf)
      (operandCount opcode desc) (resultCount desc) where
  sound operands stack locals events outcome count step := by
    obtain ⟨quiet, returns⟩ | ⟨exception, isThrow, quiet⟩ :=
      call_cases count step
    · exact ⟨quiet.trans unhooked, Or.inl returns⟩
    · rw [unhooked, or_self] at quiet
      exact ⟨quiet, Or.inr ⟨exception, isThrow⟩⟩
  passes operands stack locals count := by
    have step : InsnEffect Foreign V
        (.methodInsn opcode owner name desc itf)
        ⟨operands ++ stack, locals⟩
        (hookReport name)
        (.next ⟨List.replicate (resultCount desc) default ++ stack,
          locals⟩) :=
      .call count (by simp)
    exact ⟨_, by simp, unhooked ▸ step⟩
  fails := .fault _

theorem reporting_call (opcode : Int) (owner name desc : String)
    (itf : Bool) (report : Report Foreign)
    (hooked : hookReport name = [report]) (void : resultCount desc = 0) :
    Reporting (InsnEffect Foreign V)
      (.methodInsn opcode owner name desc itf) (operandCount opcode desc)
      report where
  sound operands stack locals events outcome count step := by
    rw [← hooked]
    obtain ⟨once, results, given, isNext⟩ | throws := call_cases count step
    · obtain rfl := List.eq_nil_of_length_eq_zero (given.trans void)
      exact Or.inl ⟨isNext, once⟩
    · exact Or.inr throws
  passes operands stack locals count := by
    have step : InsnEffect Foreign V
        (.methodInsn opcode owner name desc itf)
        ⟨operands ++ stack, locals⟩ (hookReport name)
        (.next ⟨[] ++ stack, locals⟩) :=
      .call count (by simp [void])
    exact hooked ▸ step
  fails frame exception :=
    ⟨.fault _ frame exception,
      hooked ▸ .callThrows opcode owner name desc itf frame exception⟩

end Instructions

/-! ## The inserted blocks -/

section Blocks

variable {Foreign V : Type} [Inhabited V]

theorem invocation_transparent (pointClassName method : String)
    (report : Report Foreign) (hooked : hookReport method = [report]) :
    Transparent (InsnEffect Foreign V)
      (AopTraceMethodVisitor.invocation pointClassName method) report := by
  have allocated : Silent (InsnEffect Foreign V)
      (.typeInsn NEW pointClassName) 0 1 := silent_push rfl
  have initialized : Silent (InsnEffect Foreign V)
      (.methodInsn INVOKESPECIAL pointClassName "<init>" "()V" false) 2 1 :=
    (silent_call INVOKESPECIAL pointClassName "<init>" "()V" false
      rfl).below 1
  have told : Reporting (InsnEffect Foreign V)
      (.methodInsn INVOKEVIRTUAL pointClassName method "()V" false) 1
      report :=
    reporting_call INVOKEVIRTUAL pointClassName method "()V" false report
      hooked rfl
  exact Prepares.transparent
    (.silent allocated (.silent silent_dup
      (.silent initialized (.report told))))

theorem notification_transparent (tag methodName method : String)
    (report : Report Foreign) (hooked : hookReport method = [report]) :
    Transparent (InsnEffect Foreign V)
      (TraceMethodVisitor.notification tag methodName method) report := by
  have fetched : Silent (InsnEffect Foreign V)
      (.methodInsn INVOKESTATIC TraceMethodVisitor.METHOD_EVENT_MANAGER
        "getInstance"
        ("()L" ++ TraceMethodVisitor.METHOD_EVENT_MANAGER ++ ";") false)
      0 1 :=
    silent_call _ _ _ _ _ rfl
  have tagged : Silent (InsnEffect Foreign V) (.ldcInsn tag) 1 2 :=
    (silent_push rfl).below 1
  have named : Silent (InsnEffect Foreign V) (.ldcInsn methodName) 2 3 :=
    (silent_push rfl).below 2
  have told : Reporting (InsnEffect Foreign V)
      (.methodInsn INVOKEVIRTUAL TraceMethodVisitor.METHOD_EVENT_MANAGER
        method "(Ljava/lang/String;Ljava/lang/String;)V" false) 3 report :=
    reporting_call _ _ _ _ _ report hooked rfl
  exact Prepares.transparent
    (.silent fetched (.silent tagged (.silent named (.report told))))

end Blocks

end DripStone.Trace
