import DripStone.Trace.Balance

/-!
# `TimeObserver`

The observer keeps the time of an entry until the exit of the same method in
the same thread takes it out, and refuses an exit for which there is none.  It
gets through an activation and is left as it was exactly if the activation is
heard in balance.
-/

namespace DripStone.Trace

open Library

structure TimeObserver where
  enterTimeMap : String → Option Int

namespace TimeObserver

def new : TimeObserver :=
  ⟨fun _ => none⟩

def generateKey (tag methodName threadName : String) : String :=
  tag ++ methodName ++ threadName

def onMethodEnter (observer : TimeObserver)
    (tag methodName threadName : String) (currentTimeMillis : Int) :
    TimeObserver :=
  ⟨Function.update observer.enterTimeMap
    (generateKey tag methodName threadName) (some currentTimeMillis)⟩

/-- The observer afterwards and the cost it logs, or the message of the
`IllegalStateException`. -/
def onMethodExit (observer : TimeObserver)
    (tag methodName threadName : String) (currentTimeMillis : Int) :
    Except String (TimeObserver × Int) :=
  match observer.enterTimeMap (generateKey tag methodName threadName) with
  | none => .error "method exit without enter"
  | some enterTime =>
      .ok (⟨Function.update observer.enterTimeMap
        (generateKey tag methodName threadName) none⟩,
          currentTimeMillis - enterTime)

/-- The reports of one activation, each at its time.  What others report has
other keys. -/
def hear {Foreign : Type} (tag methodName threadName : String) :
    TimeObserver → List (Report Foreign × Int) → Except String TimeObserver
  | observer, [] => .ok observer
  | observer, (.enter, now) :: rest =>
      hear tag methodName threadName
        (observer.onMethodEnter tag methodName threadName now) rest
  | observer, (.exit, now) :: rest =>
      match observer.onMethodExit tag methodName threadName now with
      | .error message => .error message
      | .ok (next, _) => hear tag methodName threadName next rest
  | observer, (.foreign _, _) :: rest =>
      hear tag methodName threadName observer rest

/-- The observer gets through, and keeps no time for the key. -/
def Settles {Foreign : Type} (observer : TimeObserver)
    (tag methodName threadName : String)
    (reports : List (Report Foreign × Int)) : Prop :=
  ∃ final, hear tag methodName threadName observer reports = .ok final ∧
    final.enterTimeMap (generateKey tag methodName threadName) = none

/-- Whether reports settle, from whether an entry is pending. -/
def settled {Foreign : Type} : Bool → List (Report Foreign) → Bool
  | pending, [] => !pending
  | _, .enter :: rest => settled true rest
  | pending, .exit :: rest => pending && settled false rest
  | pending, .foreign _ :: rest => settled pending rest

section Settling

variable {Foreign : Type} {tag methodName threadName : String}

theorem settles_iff (observer : TimeObserver)
    (reports : List (Report Foreign × Int)) :
    observer.Settles tag methodName threadName reports ↔
      settled
        (observer.enterTimeMap
          (generateKey tag methodName threadName)).isSome
        (reports.map Prod.fst) = true := by
  induction reports generalizing observer with
  | nil =>
      cases pending : observer.enterTimeMap
          (generateKey tag methodName threadName) <;>
        simp [Settles, hear, settled, pending]
  | cons first rest inductionHypothesis =>
      obtain ⟨report, now⟩ := first
      cases report with
      | enter =>
          have later := inductionHypothesis
            (observer.onMethodEnter tag methodName threadName now)
          simpa [Settles, hear, settled, onMethodEnter] using later
      | exit =>
          cases pending : observer.enterTimeMap
              (generateKey tag methodName threadName) with
          | none => simp [Settles, hear, settled, onMethodExit, pending]
          | some enterTime =>
              have later := inductionHypothesis
                ⟨Function.update observer.enterTimeMap
                  (generateKey tag methodName threadName) none⟩
              simpa [Settles, hear, settled, onMethodExit, pending]
                using later
      | foreign event =>
          simpa [Settles, hear, settled] using inductionHypothesis observer

theorem settled_own (pending : Bool) (trace : List (Report Foreign)) :
    settled pending trace = settled pending (own trace) := by
  induction trace generalizing pending with
  | nil => rfl
  | cons report rest inductionHypothesis =>
      cases report with
      | enter => exact inductionHypothesis true
      | exit => exact congrArg (pending && ·) (inductionHypothesis false)
      | foreign event => exact inductionHypothesis pending

theorem settled_exits (count : Nat) :
    settled false (.enter :: List.replicate count .exit :
        List (Report Foreign)) = true ↔ count = 1 := by
  match count with
  | 0 => simp [settled]
  | 1 => simp [settled]
  | count + 2 => simp [settled, List.replicate_succ]

end Settling

/-- The observer settles on the activations that are heard in balance. -/
theorem settles_iff_balanced {Other Foreign V : Type}
    {effect : CodeInsn Other → Frame V → List Foreign → Outcome V → Prop}
    {catches : Option String → V → Bool} {table : List TryCatchBlock}
    {code : List (Item (CodeInsn Other))} {frame : Frame V}
    {exception : Option V} {path : Path Other Foreign}
    (follows : path.Follows effect catches table code frame exception)
    (observer : TimeObserver) (tag methodName threadName : String)
    (unheard : observer.enterTimeMap
      (generateKey tag methodName threadName) = none)
    (reports : List (Report Foreign × Int))
    (heard : reports.map Prod.fst = path.trace) :
    observer.Settles tag methodName threadName reports ↔
      Balanced path.trace := by
  rw [settles_iff, heard, unheard, Path.balanced_trace_iff follows]
  cases path with
  | entryFailed reported =>
      cases reported <;>
        simp [Path.trace, Path.PassesOneExit, settled]
  | entered visits =>
      rw [settled_own, Path.own_entered follows]
      exact settled_exits _

end TimeObserver

end DripStone.Trace
