import DripStone.Trace.Effect

/-!
# The balance of a traced method

An execution of an instrumented method is an execution of the method as
written, past the probes the visitors placed.  Its entry is reported once and
each exit opcode it comes to is reported once, so the trace is balanced when
it comes to exactly one of them: an exception that a callee lets out leaves
the entry without an exit, and an exception thrown and caught inside the
method counts as an exit too many.
-/

namespace DripStone.Trace

open Library Opcodes

/-- What is heard of the activation itself. -/
def Report.isOwn {Foreign : Type} : Report Foreign → Bool
  | .foreign _ => false
  | _ => true

def own {Foreign : Type} (trace : List (Report Foreign)) :
    List (Report Foreign) :=
  trace.filter Report.isOwn

/-- A reported entry is followed by exactly one exit before control leaves the
method. -/
def Balanced {Foreign : Type} (trace : List (Report Foreign)) : Prop :=
  Report.enter ∈ trace → own trace = [.enter, .exit]

/-- An execution of the method as written, past its probes. -/
inductive Path (Other Foreign : Type) where
  | entryFailed (reported : Bool)
  | entered (visits : List (Visit (CodeInsn Other) (Report Foreign)))

section Paths

variable {Other Foreign V : Type}

/-- The instructions of the method report nothing of their own activation. -/
def codeEffect
    (effect : CodeInsn Other → Frame V → List Foreign → Outcome V → Prop)
    (instr : CodeInsn Other) (frame : Frame V)
    (reports : List (Report Foreign)) (outcome : Outcome V) : Prop :=
  ∃ events, reports = events.map .foreign ∧
    effect instr frame events outcome

/-- The probes stand in front of the exit opcodes. -/
def Path.Follows
    (effect : CodeInsn Other → Frame V → List Foreign → Outcome V → Prop)
    (catches : Option String → V → Bool) (table : List TryCatchBlock)
    (code : List (Item (CodeInsn Other))) (frame : Frame V)
    (exception : Option V) : Path Other Foreign → Prop
  | .entryFailed _ => ∃ thrown, exception = some thrown
  | .entered visits =>
      Executes (probedMachine CodeInsn.isExit (codeEffect effect) catches)
        code table frame visits exception

def Path.trace : Path Other Foreign → List (Report Foreign)
  | .entryFailed reported => if reported then [.enter] else []
  | .entered visits =>
      .enter :: visits.flatMap (Visit.emitted CodeInsn.isExit .exit)

/-- An exit opcode is reached, and its probe gets to report. -/
def exitReported :
    Visit (CodeInsn Other) (Report Foreign) → Bool
  | .ran instr _ => instr.isExit
  | .failed _ reported => reported

/-- Control comes to exactly one exit opcode that reports, if the entry was
reported. -/
def Path.PassesOneExit : Path Other Foreign → Prop
  | .entryFailed reported => reported = false
  | .entered visits => visits.countP exitReported = 1

/-- The instrumented method, with the code it calls. -/
def tracedMachine
    (effect : CodeInsn Other → Frame V → List Foreign → Outcome V → Prop)
    (catches : Option String → V → Bool) :
    Machine (CodeInsn Other ⊕ Insn) (Report Foreign) V :=
  wovenMachine (codeEffect effect) (InsnEffect Foreign V) catches

variable
  {effect : CodeInsn Other → Frame V → List Foreign → Outcome V → Prop}
  {catches : Option String → V → Bool} {table : List TryCatchBlock}
  {code : List (Item (CodeInsn Other))}

/-! ## The trace of a path -/

/-- All that a visit reports of its own is its exit. -/
def OnlyForeign (visit : Visit (CodeInsn Other) (Report Foreign)) : Prop :=
  ∀ instr reports, visit = .ran instr reports →
    ∃ events : List Foreign, reports = events.map .foreign

theorem onlyForeign_of_effect {instr : CodeInsn Other} {frame : Frame V}
    {visits : List (Visit (CodeInsn Other) (Report Foreign))}
    {outcome : Outcome V}
    (step : ProbedEffect CodeInsn.isExit (codeEffect effect) instr frame
      visits outcome) :
    ∀ visit ∈ visits, OnlyForeign visit := by
  cases step with
  | ran step =>
      obtain ⟨events, rfl, _⟩ := step
      intro visit member ran reports same
      obtain rfl := List.mem_singleton.1 member
      cases same
      exact ⟨events, rfl⟩
  | failed reported exception _ =>
      intro visit member ran reports same
      obtain rfl := List.mem_singleton.1 member
      cases same

theorem onlyForeign_of_leaves {n : Nat} {config : Config (CodeInsn Other) V}
    {visits : List (Visit (CodeInsn Other) (Report Foreign))}
    {exception : Option V}
    (leaves : Leaves
      (probedMachine CodeInsn.isExit (codeEffect effect) catches) code table
        n config visits exception) :
    ∀ visit ∈ visits, OnlyForeign visit := by
  induction leaves with
  | left => simp
  | label _ inductionHypothesis => exact inductionHypothesis
  | instr step _ inductionHypothesis =>
      intro visit member
      rcases List.mem_append.1 member with here | later
      · exact onlyForeign_of_effect step visit here
      · exact inductionHypothesis visit later

@[simp]
theorem own_append (left right : List (Report Foreign)) :
    own (left ++ right) = own left ++ own right :=
  List.filter_append left right

@[simp]
theorem own_nil : own ([] : List (Report Foreign)) = [] := rfl

@[simp]
theorem own_enter (rest : List (Report Foreign)) :
    own (.enter :: rest) = .enter :: own rest := rfl

@[simp]
theorem own_exit (rest : List (Report Foreign)) :
    own (.exit :: rest) = .exit :: own rest := rfl

theorem own_map_foreign (events : List Foreign) :
    own (events.map Report.foreign) = [] := by
  simp [own, Report.isOwn]

theorem own_emitted
    {visit : Visit (CodeInsn Other) (Report Foreign)}
    (foreign : OnlyForeign visit) :
    own (visit.emitted CodeInsn.isExit .exit) =
      if exitReported visit then [.exit] else [] := by
  cases visit with
  | ran instr reports =>
      obtain ⟨events, rfl⟩ := foreign instr reports rfl
      rw [Visit.emitted, own_append, own_map_foreign]
      cases exits : instr.isExit <;>
        simp [exitReported, exits, own, Report.isOwn]
  | failed instr reported =>
      cases reported <;>
        simp [Visit.emitted, exitReported, own, Report.isOwn]

/-- Behind the entry, a path is heard of once for each exit opcode. -/
theorem own_visits
    (visits : List (Visit (CodeInsn Other) (Report Foreign)))
    (foreign : ∀ visit ∈ visits, OnlyForeign visit) :
    own (visits.flatMap (Visit.emitted CodeInsn.isExit .exit)) =
      List.replicate (visits.countP exitReported) .exit := by
  induction visits with
  | nil => rfl
  | cons visit rest inductionHypothesis =>
      have later := inductionHypothesis fun visit member =>
        foreign visit (List.mem_cons_of_mem _ member)
      have first := own_emitted (foreign visit (by simp))
      rw [List.flatMap_cons, own_append, first, later, List.countP_cons]
      cases exitReported visit <;> simp [List.replicate_succ]

theorem Path.own_entered {frame : Frame V} {exception : Option V}
    {visits : List (Visit (CodeInsn Other) (Report Foreign))}
    (follows : (Path.entered visits).Follows effect catches table code frame
      exception) :
    own (Path.entered visits).trace =
      .enter :: List.replicate (visits.countP exitReported) .exit := by
  obtain ⟨n, leaves⟩ := follows
  rw [trace, own_enter, own_visits visits (onlyForeign_of_leaves leaves)]

theorem Path.balanced_trace_iff {frame : Frame V} {exception : Option V}
    {path : Path Other Foreign}
    (follows : path.Follows effect catches table code frame exception) :
    Balanced path.trace ↔ path.PassesOneExit := by
  cases path with
  | entryFailed reported =>
      cases reported
      · simp [Balanced, trace, PassesOneExit]
      · simp [Balanced, trace, PassesOneExit]
  | entered visits =>
      have reported : Report.enter ∈ (Path.entered visits).trace := by
        simp [trace]
      have heard := own_entered follows
      constructor
      · intro balanced
        have one : List.replicate (visits.countP exitReported)
            (.exit : Report Foreign) = [.exit] := by
          simpa using heard.symm.trans (balanced reported)
        have count := congrArg List.length one
        rwa [List.length_replicate] at count
      · intro (one : visits.countP exitReported = 1) _
        simpa [one] using heard

/-! ## The instrumented method -/

/-- What a block finds it leaves: the local variables in any case, and the
operand stack when it comes through. -/
def Neutral (Foreign V : Type) (block : List Insn) : Prop :=
  ∀ frame events locals outcome,
    Passage (InsnEffect Foreign V) block frame events locals outcome →
      locals = frame.locals ∧
        ∀ after, outcome = .next after → after = frame

theorem neutral_of_transparent {block : List Insn}
    {report : Report Foreign}
    (transparent : Transparent (InsnEffect Foreign V) block report) :
    Neutral Foreign V block := by
  intro frame events locals outcome passage
  obtain ⟨sameLocals, ⟨rfl, _⟩ | ⟨thrown, rfl, _⟩⟩ :=
    transparent.sound frame events locals outcome passage
  · refine ⟨sameLocals, fun after isNext => ?_⟩
    cases isNext
    rfl
  · exact ⟨sameLocals, by simp⟩

/-- The executions of an instrumented method are the paths of the method as
written; a path is heard in balance exactly if it passes one exit; and what
was inserted leaves the frame as it was. -/
structure BalanceLaw
    (effect : CodeInsn Other → Frame V → List Foreign → Outcome V → Prop)
    (catches : Option String → V → Bool) (table : List TryCatchBlock)
    (code : List (Item (CodeInsn Other))) (emitted : Emitted Other) :
    Prop where
  executes : ∀ frame trace exception,
    Executes (tracedMachine effect catches) emitted table frame trace
        exception ↔
      ∃ path : Path Other Foreign,
        path.Follows effect catches table code frame exception ∧
          trace = path.trace
  balanced : ∀ frame exception (path : Path Other Foreign),
    path.Follows effect catches table code frame exception →
      (Balanced path.trace ↔ path.PassesOneExit)
  neutral : ∃ entry exit, emitted =
      insertedItems entry ++ weave (exitProbe exit) code ∧
    Neutral Foreign V entry ∧ Neutral Foreign V exit

theorem balanceLaw_of_transparent {entry exit : List Insn}
    (entryTransparent : Transparent (InsnEffect Foreign V) entry .enter)
    (exitTransparent : Transparent (InsnEffect Foreign V) exit .exit)
    (nonempty : exit ≠ []) :
    BalanceLaw effect catches table code
      (insertedItems entry ++ weave (exitProbe exit) code) where
  executes frame trace exception := by
    have transparent : ∀ instr : CodeInsn Other,
        hasProbe (exitProbe exit) instr →
          Transparent (InsnEffect Foreign V) (exitProbe exit instr)
            .exit := by
      intro instr placed
      have exits : instr.isExit = true := by
        rwa [hasProbe_exitProbe nonempty] at placed
      simpa [exitProbe, exits] using exitTransparent
    rw [tracedMachine, executes_woven_iff entryTransparent transparent,
      hasProbe_exitProbe nonempty]
    constructor
    · rintro (⟨thrown, rfl, reported⟩ | ⟨visits, follows, rfl⟩)
      · refine ⟨.entryFailed (!trace.isEmpty), ⟨thrown, rfl⟩, ?_⟩
        rcases reported with rfl | rfl <;> rfl
      · exact ⟨.entered visits, follows, rfl⟩
    · rintro ⟨path, follows, rfl⟩
      cases path with
      | entryFailed reported =>
          obtain ⟨thrown, rfl⟩ := follows
          refine Or.inl ⟨thrown, rfl, ?_⟩
          cases reported
          · exact Or.inl rfl
          · exact Or.inr rfl
      | entered visits => exact Or.inr ⟨visits, follows, rfl⟩
  balanced _ _ _ := Path.balanced_trace_iff
  neutral := ⟨entry, exit, rfl, neutral_of_transparent entryTransparent,
    neutral_of_transparent exitTransparent⟩

theorem AopTraceMethodVisitor.balanceLaw [Inhabited V]
    (visitor : AopTraceMethodVisitor)
    (injects : visitor.needInject = true) :
    BalanceLaw effect catches table code (visitor.accept code) := by
  obtain ⟨pointClassName, pointed⟩ := Option.isSome_iff_exists.1
    (visitor.pointed ▸ injects)
  rw [visitor.accept_eq pointClassName pointed]
  exact balanceLaw_of_transparent
    (invocation_transparent pointClassName "onBeforeMethod" .enter rfl)
    (invocation_transparent pointClassName "onAfterMethod" .exit rfl)
    (by simp [invocation])

theorem TraceMethodVisitor.balanceLaw [Inhabited V]
    (callsOnMethodExit : Int → Bool)
    (documented : ∀ opcode, callsOnMethodExit opcode = isExitOpcode opcode)
    (visitor : TraceMethodVisitor) (injects : visitor.needInject = true)
    (tag : String) (tagged : visitor.tag = some tag) :
    BalanceLaw effect catches table code
      (visitor.accept callsOnMethodExit code) := by
  rw [visitor.accept_eq callsOnMethodExit documented tag injects tagged]
  exact balanceLaw_of_transparent
    (notification_transparent tag visitor.methodName "notifyMethodEnter"
      .enter rfl)
    (notification_transparent tag visitor.methodName "notifyMethodExit"
      .exit rfl)
    (by simp [notification])

end Paths

/-! ## Executions without `ATHROW` -/

section WithoutThrow

variable {Other Foreign V : Type}
  {effect : CodeInsn Other → Frame V → List Foreign → Outcome V → Prop}
  {catches : Option String → V → Bool} {table : List TryCatchBlock}
  {code : List (Item (CodeInsn Other))}

/-- Returns leave the method, and nothing else does. -/
def ReturnsLeave
    (effect : CodeInsn Other → Frame V → List Foreign → Outcome V → Prop) :
    Prop :=
  ∀ instr frame events outcome, effect instr frame events outcome →
    (outcome = .leave ↔
      ∃ opcode, instr = .insn opcode ∧ IRETURN ≤ opcode ∧ opcode ≤ RETURN)

/-- The visit is no failed probe and no `ATHROW`. -/
def Plain (visit : Visit (CodeInsn Other) (Report Foreign)) : Prop :=
  ∃ instr reports, visit = .ran instr reports ∧ instr ≠ .insn ATHROW

theorem exitReported_iff_leave (returns : ReturnsLeave effect)
    {instr : CodeInsn Other} {frame : Frame V}
    {reports : List (Report Foreign)} {outcome : Outcome V}
    (step : codeEffect effect instr frame reports outcome)
    (noThrow : instr ≠ .insn ATHROW) :
    exitReported (.ran instr reports) = true ↔ outcome = .leave := by
  obtain ⟨events, rfl, step⟩ := step
  rw [returns instr frame events outcome step]
  cases instr with
  | other other => simp [exitReported, CodeInsn.isExit]
  | insn opcode =>
      have noAthrow : opcode ≠ ATHROW := fun same => noThrow (same ▸ rfl)
      simp [exitReported, CodeInsn.isExit, isExitOpcode, noAthrow]

/-- The exits still to come on the way to an outcome. -/
def exitsAhead : Config (CodeInsn Other) V → Option V → Nat
  | .running _ _ _, none => 1
  | _, _ => 0

theorem exitsAhead_proceed {n : Nat}
    {before after : List (Item (CodeInsn Other))} {instr : CodeInsn Other}
    {frame : Frame V} {outcome : Outcome V}
    {visits : List (Visit (CodeInsn Other) (Report Foreign))}
    {exception : Option V}
    (leaves : Leaves
      (probedMachine CodeInsn.isExit (codeEffect effect) catches) code table
        n (proceed (probedMachine CodeInsn.isExit (codeEffect effect) catches)
          code table before instr after frame.locals outcome) visits
            exception) (leave : Bool)
    (isLeave : leave = true ↔ outcome = .leave) :
    exitsAhead (.running before (.instr instr :: after) frame) exception =
      exitsAhead (proceed
          (probedMachine CodeInsn.isExit (codeEffect effect) catches) code
            table before instr after frame.locals outcome) exception +
        leave.toNat := by
  have stays : outcome ≠ .leave → leave = false := by
    simp [← isLeave]
  cases outcome with
  | next final =>
      rw [stays (by simp)]
      cases exception <;> rfl
  | jump label final =>
      rw [stays (by simp)]
      cases exception <;> rfl
  | leave =>
      rw [isLeave.2 rfl]
      cases leaves
      rfl
  | throw thrown =>
      rw [stays (by simp)]
      simp only [proceed, unwind] at leaves ⊢
      split at leaves
      · cases exception <;> rfl
      · cases leaves
        rfl

/-- Where probes do not fail and `ATHROW` is not executed, a run comes to one
exit opcode if it returns, and to none if an exception leaves the method. -/
theorem countP_exits_of_leaves (returns : ReturnsLeave effect) {n : Nat}
    {config : Config (CodeInsn Other) V}
    {visits : List (Visit (CodeInsn Other) (Report Foreign))}
    {exception : Option V}
    (leaves : Leaves
      (probedMachine CodeInsn.isExit (codeEffect effect) catches) code table
        n config visits exception)
    (plain : ∀ visit ∈ visits, Plain visit) :
    visits.countP exitReported = exitsAhead config exception := by
  induction leaves with
  | left exception => cases exception <;> rfl
  | @label n id before after frame visits exception _ inductionHypothesis =>
      have ahead := inductionHypothesis plain
      cases exception <;> exact ahead
  | @instr n instr before after frame here visits outcome exception step
      leaves inductionHypothesis =>
      have later := inductionHypothesis fun visit member =>
        plain visit (List.mem_append_right _ member)
      cases step with
      | @ran reports _ step =>
          obtain ⟨_, _, same, noThrow⟩ := plain (.ran instr reports) (by simp)
          cases same
          rw [exitsAhead_proceed leaves _
            (exitReported_iff_leave returns step noThrow), ← later,
            List.countP_append, List.countP_singleton, Nat.add_comm]
          cases exitReported (.ran instr reports) <;> rfl
      | failed reported thrown =>
          obtain ⟨_, _, same, _⟩ := plain (.failed instr reported) (by simp)
          cases same

/-- Such an execution is heard in balance exactly if it returns. -/
theorem balanced_iff_returns (returns : ReturnsLeave effect)
    {frame : Frame V} {exception : Option V}
    {visits : List (Visit (CodeInsn Other) (Report Foreign))}
    (follows : (Path.entered visits).Follows effect catches table code frame
      exception)
    (plain : ∀ visit ∈ visits, Plain visit) :
    Balanced (Path.entered visits).trace ↔ exception = none := by
  obtain ⟨n, leaves⟩ := id follows
  have count := countP_exits_of_leaves returns leaves plain
  rw [Path.balanced_trace_iff follows, Path.PassesOneExit, count]
  cases exception <;> simp [exitsAhead]

end WithoutThrow

/-! ## The law -/

/-- An instrumented method is heard in balance exactly on the paths that come
to one reporting exit opcode, and what was inserted leaves stack and local
variables alone. -/
theorem balanced_iff_one_exit {Other Foreign V : Type} [Inhabited V]
    (effect : CodeInsn Other → Frame V → List Foreign → Outcome V → Prop)
    (catches : Option String → V → Bool) (table : List TryCatchBlock)
    (code : List (Item (CodeInsn Other)))
    (callsOnMethodExit : Int → Bool)
    (documented :
      ∀ opcode, callsOnMethodExit opcode = isExitOpcode opcode) :
    (∀ visitor : AopTraceMethodVisitor, visitor.needInject = true →
      BalanceLaw effect catches table code (visitor.accept code)) ∧
    ∀ visitor : TraceMethodVisitor, visitor.needInject = true →
      ∀ tag, visitor.tag = some tag →
        BalanceLaw effect catches table code
          (visitor.accept callsOnMethodExit code) :=
  ⟨fun visitor injects => visitor.balanceLaw injects,
    fun visitor injects tag tagged =>
      visitor.balanceLaw callsOnMethodExit documented injects tag tagged⟩

/-! ## A callee that throws, and an exception thrown and caught -/

section Sample

inductive SampleInsn where
  | callThatThrows
  | newException
deriving DecidableEq, Repr

def sampleEffect :
    CodeInsn SampleInsn → Frame Nat → List Unit → Outcome Nat → Prop
  | .other .callThatThrows, _, events, outcome =>
      events = [] ∧ outcome = .throw 7
  | .other .newException, frame, events, outcome =>
      events = [] ∧ outcome = .next ⟨7 :: frame.stack, frame.locals⟩
  | .insn opcode, frame, events, outcome =>
      events = [] ∧
        outcome = if opcode = ATHROW then .throw (frame.stack.headD 0)
          else .leave

def calling : List (Item (CodeInsn SampleInsn)) :=
  [.instr (.other .callThatThrows), .instr (.insn RETURN)]

/-- `try { throw new Exception(); } catch (Throwable t) { }` -/
def throwingInside : List (Item (CodeInsn SampleInsn)) :=
  [.label 0, .instr (.other .newException), .instr (.insn ATHROW), .label 1,
    .label 2, .instr (.insn RETURN)]

def catchAll : List TryCatchBlock := [⟨0, 1, 2, none⟩]

def checkOut : AopTraceMethodVisitor :=
  AopTraceMethodVisitor.new.visitAnnotation
    ⟨"Lcom/walker/common/aop/AopTrace;",
      [("point", .type "com/walker/demo/CheckOut")]⟩

def traceTest : TraceMethodVisitor :=
  TraceMethodVisitor.visitAnnotation { methodName := "test" }
    ⟨"Lcom/walker/optimize/group/trace/TraceMethod;",
      [("tag", .string "trace_test")]⟩

theorem balanced_iff_one_exit_of_check_out :
    BalanceLaw sampleEffect (fun _ _ => true) [] calling
        (checkOut.accept calling) ∧
      BalanceLaw sampleEffect (fun _ _ => true) catchAll throwingInside
        (traceTest.accept isExitOpcode throwingInside) :=
  ⟨(balanced_iff_one_exit sampleEffect (fun _ _ => true) [] calling
      isExitOpcode (fun _ => rfl)).1 checkOut (by decide),
    (balanced_iff_one_exit sampleEffect (fun _ _ => true) catchAll
      throwingInside isExitOpcode (fun _ => rfl)).2 traceTest (by decide)
        "trace_test" (by decide)⟩

theorem calling_escapes :
    (Path.entered [.ran (.other .callThatThrows) []] :
        Path SampleInsn Unit).Follows sampleEffect (fun _ _ => true) []
      calling ⟨[], fun _ => 0⟩ (some 7) := by
  have step : codeEffect sampleEffect (.other .callThatThrows)
      ⟨[], fun _ => 0⟩ [] (.throw 7) := ⟨[], rfl, rfl, rfl⟩
  have probed : (probedMachine CodeInsn.isExit (codeEffect sampleEffect)
      (fun _ _ => true)).effect (.other .callThatThrows) ⟨[], fun _ => 0⟩
        [.ran (.other .callThatThrows) []] (.throw 7) := .ran step
  exact ⟨1, .instr probed (.left (some 7))⟩

theorem throwingInside_returns :
    (Path.entered [.ran (.other .newException) [],
        .ran (.insn ATHROW) [], .ran (.insn RETURN) []] :
        Path SampleInsn Unit).Follows sampleEffect (fun _ _ => true)
      catchAll throwingInside ⟨[], fun _ => 0⟩ none := by
  have allocates : (probedMachine CodeInsn.isExit (codeEffect sampleEffect)
      (fun _ _ => true)).effect (.other .newException) ⟨[], fun _ => 0⟩
        [.ran (.other .newException) []] (.next ⟨[7], fun _ => 0⟩) :=
    .ran ⟨[], rfl, rfl, rfl⟩
  have throws : (probedMachine CodeInsn.isExit (codeEffect sampleEffect)
      (fun _ _ => true)).effect (.insn ATHROW) ⟨[7], fun _ => 0⟩
        [.ran (.insn ATHROW) []] (.throw 7) :=
    .ran ⟨[], rfl, rfl, rfl⟩
  have returns : (probedMachine CodeInsn.isExit (codeEffect sampleEffect)
      (fun _ _ => true)).effect (.insn RETURN) ⟨[7], fun _ => 0⟩
        [.ran (.insn RETURN) []] .leave :=
    .ran ⟨[], rfl, rfl, rfl⟩
  exact ⟨5, .label (.instr allocates (.instr throws
    (.label (.instr returns (.left none)))))⟩

/-- A callee's exception leaves the entry open, and an exception thrown and
caught inside is heard as an exit too many. -/
theorem exits_out_of_balance :
    (Executes (tracedMachine sampleEffect (fun _ _ => true))
        (checkOut.accept calling) [] ⟨[], fun _ => 0⟩ [.enter] (some 7) ∧
      ¬ Balanced ([.enter] : List (Report Unit))) ∧
    Executes (tracedMachine sampleEffect (fun _ _ => true))
        (traceTest.accept isExitOpcode throwingInside) catchAll
          ⟨[], fun _ => 0⟩ [.enter, .exit, .exit] none ∧
      ¬ Balanced ([.enter, .exit, .exit] : List (Report Unit)) := by
  have aop : BalanceLaw sampleEffect (fun _ _ => true) [] calling
      (checkOut.accept calling) := checkOut.balanceLaw (by decide)
  have traced : BalanceLaw sampleEffect (fun _ _ => true) catchAll
      throwingInside (traceTest.accept isExitOpcode throwingInside) :=
    traceTest.balanceLaw isExitOpcode (fun _ => rfl) (by decide)
      "trace_test" (by decide)
  refine ⟨⟨(aop.executes _ _ _).2 ⟨_, calling_escapes, rfl⟩, ?_⟩,
    (traced.executes _ _ _).2 ⟨_, throwingInside_returns, rfl⟩, ?_⟩
  · simp [Balanced]
  · simp [Balanced]

end Sample

end DripStone.Trace
