import DripStone.Library.JavaText

/-!
# The air bag of `CrashHandler`

A throwable whose message contains a configured text is only logged, every
other one goes on to the handler that was installed before.  In the main
thread the handler then runs the message loop itself and treats what comes out
of it in the same way.
-/

namespace DripStone.AirBag

open DripStone.Library

/-! ## `CrashHandler` -/

structure Throwable where
  -- `getMessage()`, which may be `null`
  message : Option JString
deriving DecidableEq, Repr

/-- A throwable of the main thread, and whether its crash file can be
written. -/
structure Raised where
  throwable : Throwable
  writable : Bool
deriving DecidableEq, Repr

inductive Event where
  | crashInfo (written : Bool)
  | onTransact (e : Throwable)
  -- the log message that a crash was caught
  | caught (e : Throwable)
  -- the handler that was installed before
  | uncaughtException (e : Throwable)
  | loop
deriving DecidableEq, Repr

inductive NullPointerException where
  | nullPointerException
deriving DecidableEq, Repr

/-- The configuration, and which of the two references are not `null`. -/
structure CrashHandler where
  msgAirBagList : List JString
  mCrashListener : Bool
  mDefaultCrashHandler : Bool

/-- The loop of `isStackTraceMatching`. -/
def isStackTraceMatching (e : Throwable) :
    List JString → Except NullPointerException Bool
  | [] => .ok false
  | msg :: rest =>
      match e.message with
      | none => .error .nullPointerException
      | some message =>
          if msg <:+: message then .ok true else isStackTraceMatching e rest

section Handler

variable (handler : CrashHandler)

/-- What happens, and the exception that comes out. -/
def dealException (raised : Raised) :
    List Event × Option NullPointerException :=
  let e := raised.throwable
  let before := .crashInfo raised.writable ::
    if handler.mCrashListener then [.onTransact e] else []
  match isStackTraceMatching e handler.msgAirBagList with
  | .error failure => (before, some failure)
  | .ok true => (before ++ [.caught e], none)
  | .ok false =>
      (before ++
        if handler.mDefaultCrashHandler then [.uncaughtException e] else [],
        none)

/-- `while (true)`, for the throwables that come out of the loops. -/
def loopAgain : List Raised → List Event × Option NullPointerException
  | [] => ([.loop], none)
  | raised :: rest =>
      match dealException handler raised with
      | (events, some failure) => (.loop :: events, some failure)
      | (events, none) =>
          let (more, result) := loopAgain rest
          (.loop :: events ++ more, result)

def uncaughtException (inMainThread : Bool) (raised : Raised)
    (later : List Raised) : List Event × Option NullPointerException :=
  match dealException handler raised with
  | (events, some failure) => (events, some failure)
  | (events, none) =>
      if inMainThread then
        let (more, result) := loopAgain handler later
        (events ++ more, result)
      else (events, none)

end Handler

/-! ## The law -/

/-- The message contains a configured text. -/
def Swallowed (handler : CrashHandler) (e : Throwable) : Prop :=
  match e.message with
  | none => False
  | some message => ∃ msg ∈ handler.msgAirBagList, msg <:+: message

instance (handler : CrashHandler) (e : Throwable) :
    Decidable (Swallowed handler e) :=
  match isMessage : e.message with
  | none => isFalse (by simp [Swallowed, isMessage])
  | some message =>
      decidable_of_iff (∃ msg ∈ handler.msgAirBagList, msg <:+: message)
        (by simp [Swallowed, isMessage])

/-- A throwable is reported, swallowed or handed on once, and the loop is
entered again. -/
def handled (handler : CrashHandler) (raised : Raised) : List Event :=
  [.crashInfo raised.writable, .onTransact raised.throwable,
    if Swallowed handler raised.throwable then .caught raised.throwable
    else .uncaughtException raised.throwable,
    .loop]

/-- Nothing comes out of the handler, and all throwables are handled. -/
def Lawful (handler : CrashHandler) (raised : Raised) (later : List Raised) :
    Prop :=
  uncaughtException handler true raised later =
    ((raised :: later).flatMap (handled handler), none)

/-! ## One throwable -/

section Handler

variable {handler : CrashHandler} {raised : Raised}

/-- The messages are looked at only if there is a configured text. -/
def Readable (handler : CrashHandler) (raised : Raised) : Prop :=
  handler.msgAirBagList = [] ∨ raised.throwable.message ≠ none

theorem isStackTraceMatching_of_message {e : Throwable} {message : JString}
    (isMessage : e.message = some message) (msgs : List JString) :
    isStackTraceMatching e msgs =
      .ok (decide (∃ msg ∈ msgs, msg <:+: message)) := by
  induction msgs with
  | nil => simp [isStackTraceMatching]
  | cons msg rest inductionHypothesis =>
      rw [isStackTraceMatching, isMessage]
      by_cases isIn : msg <:+: message
      · simp [isIn]
      · simp [isIn, inductionHypothesis]

theorem isStackTraceMatching_eq (readable : Readable handler raised) :
    isStackTraceMatching raised.throwable handler.msgAirBagList =
      .ok (decide (Swallowed handler raised.throwable)) := by
  cases isMessage : raised.throwable.message with
  | none =>
      have unconfigured : handler.msgAirBagList = [] :=
        readable.resolve_right fun present => present isMessage
      simp [unconfigured, isStackTraceMatching, Swallowed, isMessage]
  | some message =>
      rw [isStackTraceMatching_of_message isMessage]
      simp [Swallowed, isMessage]

theorem isStackTraceMatching_error (unreadable : ¬Readable handler raised) :
    isStackTraceMatching raised.throwable handler.msgAirBagList =
      .error .nullPointerException := by
  rw [Readable, not_or, not_not] at unreadable
  obtain ⟨msg, rest, isList⟩ := List.exists_cons_of_ne_nil unreadable.1
  rw [isList, isStackTraceMatching, unreadable.2]

/-- Spec lemma: a throwable that can be looked at. -/
theorem dealException_of_readable (readable : Readable handler raised)
    (listens : handler.mCrashListener = true)
    (hasDefault : handler.mDefaultCrashHandler = true) :
    ∃ events, dealException handler raised = (events, none) ∧
      events ++ [.loop] = handled handler raised := by
  refine ⟨[.crashInfo raised.writable, .onTransact raised.throwable,
    if Swallowed handler raised.throwable then .caught raised.throwable
    else .uncaughtException raised.throwable], ?_, rfl⟩
  rw [dealException, isStackTraceMatching_eq readable, listens, hasDefault]
  by_cases swallowed : Swallowed handler raised.throwable <;>
    simp [swallowed]

/-- Spec lemma: any other one lets an exception out. -/
theorem dealException_of_unreadable (unreadable : ¬Readable handler raised) :
    ∃ events failure,
      dealException handler raised = (events, some failure) := by
  rw [dealException, isStackTraceMatching_error unreadable]
  exact ⟨_, _, rfl⟩

end Handler

/-! ## All throwables -/

section Runs

variable {handler : CrashHandler}

theorem loopAgain_of_readable (listens : handler.mCrashListener = true)
    (hasDefault : handler.mDefaultCrashHandler = true) {later : List Raised}
    (readable : ∀ raised ∈ later, Readable handler raised) :
    loopAgain handler later =
      (.loop :: later.flatMap (handled handler), none) := by
  induction later with
  | nil => rfl
  | cons raised rest inductionHypothesis =>
      obtain ⟨events, deals, isHandled⟩ := dealException_of_readable
        (readable raised List.mem_cons_self) listens hasDefault
      have loops := inductionHypothesis fun other inRest =>
        readable other (List.mem_cons_of_mem raised inRest)
      rw [loopAgain, deals, loops, List.flatMap_cons, ← isHandled]
      simp

theorem loopAgain_of_unreadable {later : List Raised}
    (unreadable : ∃ raised ∈ later, ¬Readable handler raised) :
    (loopAgain handler later).2 ≠ none := by
  induction later with
  | nil =>
      obtain ⟨raised, member, -⟩ := unreadable
      cases member
  | cons raised rest inductionHypothesis =>
      rw [loopAgain]
      match deals : dealException handler raised with
      | (events, some failure) => simp
      | (events, none) =>
          have isReadable : Readable handler raised := by
            by_contra isOther
            obtain ⟨others, failure, fails⟩ :=
              dealException_of_unreadable isOther
            rw [fails] at deals
            cases deals
          obtain ⟨other, member, isOther⟩ := unreadable
          rcases List.mem_cons.mp member with rfl | inRest
          · exact absurd isReadable isOther
          · exact inductionHypothesis ⟨other, inRest, isOther⟩

theorem lawful_iff_readable (handler : CrashHandler)
    (listens : handler.mCrashListener = true)
    (hasDefault : handler.mDefaultCrashHandler = true) (raised : Raised)
    (later : List Raised) :
    Lawful handler raised later ↔
      handler.msgAirBagList = [] ∨
        ∀ other ∈ raised :: later, other.throwable.message ≠ none := by
  have sameReadable : (handler.msgAirBagList = [] ∨
      ∀ other ∈ raised :: later, other.throwable.message ≠ none) ↔
        ∀ other ∈ raised :: later, Readable handler other := by
    by_cases unconfigured : handler.msgAirBagList = [] <;>
      simp [Readable, unconfigured]
  rw [sameReadable, Lawful, uncaughtException]
  constructor
  · intro lawful other member
    by_contra unreadable
    match deals : dealException handler raised with
    | (events, some failure) =>
        rw [deals] at lawful
        cases congrArg Prod.snd lawful
    | (events, none) =>
        rw [deals] at lawful
        rcases List.mem_cons.mp member with rfl | inLater
        · obtain ⟨others, failure, fails⟩ :=
            dealException_of_unreadable unreadable
          rw [fails] at deals
          cases deals
        · exact loopAgain_of_unreadable ⟨other, inLater, unreadable⟩
            (congrArg Prod.snd lawful)
  · intro readable
    obtain ⟨events, deals, isHandled⟩ := dealException_of_readable
      (readable raised List.mem_cons_self) listens hasDefault
    have loops := loopAgain_of_readable listens hasDefault
      fun other inLater => readable other (List.mem_cons_of_mem raised inLater)
    rw [deals, loops, List.flatMap_cons, ← isHandled]
    simp

end Runs

/-- One configured text. -/
def oneText : CrashHandler :=
  ⟨[literal "timeout"], true, true⟩

/-- The first message contains the text, the second one does not. -/
theorem lawful_oneText :
    Lawful oneText ⟨⟨some (literal "read timeout")⟩, true⟩
      [⟨⟨some (literal "gone")⟩, false⟩] :=
  (lawful_iff_readable oneText rfl rfl _ _).mpr (Or.inr (by decide))

/-- A throwable without a message. -/
theorem noMessage_escapes :
    (uncaughtException oneText true ⟨⟨none⟩, true⟩ []).2 =
        some .nullPointerException ∧
      ¬Lawful oneText ⟨⟨none⟩, true⟩ [] := by
  have escapes : (uncaughtException oneText true ⟨⟨none⟩, true⟩ []).2 =
      some .nullPointerException := by decide
  refine ⟨escapes, fun lawful => ?_⟩
  rw [lawful] at escapes
  cases escapes

end DripStone.AirBag
