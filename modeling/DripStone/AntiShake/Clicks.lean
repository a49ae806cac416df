import DripStone.AntiShake.Checker

/-!
# One click, all or nothing

The outermost check of a click has just set the time that the checks of the
methods below it look at.  They let their bodies run only when each comes more
than the minimal duration after the one before.
-/

namespace DripStone.AntiShake

open DripStone.Library

variable (config : AntiShakeConfig)

def checkerAfter (clicks : List Click) : AntiShakeChecker :=
  (clickMachine config).run .new clicks

def dispatchesOf (clicks : List Click) : List Dispatch :=
  (clickMachine config).trace .new clicks

/-- The dispatch of a click after some others. -/
def dispatchOf (before : List Click) (click : Click) : Dispatch :=
  ⟨click.currentTime,
    (click.calls.run config (checkerAfter config before)).2⟩

theorem dispatchesOf_concat (before : List Click) (click : Click) :
    dispatchesOf config (before ++ [click]) =
      dispatchesOf config before ++ [dispatchOf config before click] :=
  (clickMachine config).trace_concat _ _ _

theorem checkerAfter_concat (before : List Click) (click : Click) :
    checkerAfter config (before ++ [click]) =
      (click.calls.run config (checkerAfter config before)).1 :=
  (clickMachine config).run_concat _ _ _

/-! ## The law and the condition -/

/-- The last dispatch that was let through. -/
def lastLetThrough (dispatches : List Dispatch) : Option Dispatch :=
  (dispatches.filter Dispatch.letThrough).getLast?

/-- A click runs all the bodies that it reaches or none, and is let through
when it is the first or comes late enough after the last that was. -/
structure Lawful (before : List Click) (click : Click) : Prop where
  all : (dispatchOf config before click).letThrough = true →
    ∀ entry ∈ (dispatchOf config before click).entries, entry.ran = true
  nothing : (dispatchOf config before click).letThrough = false →
    ∀ entry ∈ (dispatchOf config before click).entries, entry.ran = false
  spaced : (dispatchOf config before click).letThrough = true ↔
    ∀ last ∈ lastLetThrough (dispatchesOf config before),
      MIN_DURATION < click.currentTime - last.currentTime

/-- Times are positive, and a click comes no earlier than the checks of the
clicks before it. -/
def Timed (before : List Click) (click : Click) : Prop :=
  (∀ time ∈ click.times, 0 < time) ∧
    ∀ earlier ∈ before, ∀ time ∈ earlier.times, time ≤ click.currentTime

instance (before : List Click) (click : Click) :
    Decidable (Timed before click) :=
  inferInstanceAs (Decidable (_ ∧ _))

/-- A check comes more than the minimal duration after another. -/
def Later (first second : Millis) : Prop :=
  MIN_DURATION < second - first

/-- The checks of a click that is let through come late enough one after the
other, and a click comes late enough after the inner checks of the last click
that was let through. -/
structure Spaced (before : List Click) (click : Click) : Prop where
  inner : (checkerAfter config before).letsThrough click.currentTime = true →
    click.times.IsChain Later
  after : ∀ last ∈ lastLetThrough (dispatchesOf config before),
    ∀ entry ∈ last.entries.tail, Later entry.currentTime click.currentTime

/-! ## The calls of one click -/

theorem AntiShakeChecker.letsThrough_iff {checker : AntiShakeChecker}
    (asked : 0 < checker.lastClickTime) (currentTime : Millis) :
    checker.letsThrough currentTime = true ↔
      Later checker.lastClickTime currentTime := by
  have notFirst : checker.lastClickTime ≠ 0 := ne_of_gt asked
  simp [letsThrough, notFirst, Later]

/-- The last of some times, or the one before them. -/
def latestOf (time : Millis) (times : List Millis) : Millis :=
  times.getLast?.getD time

theorem latestOf_append (time : Millis) (first second : List Millis) :
    latestOf time (first ++ second) =
      latestOf (latestOf time first) second := by
  rw [latestOf, latestOf, latestOf, List.getLast?_append]
  cases second.getLast? with
  | none => rfl
  | some last => rfl

theorem latestOf_cons (time next : Millis) (times : List Millis) :
    latestOf time (next :: times) = latestOf next times :=
  latestOf_append time [next] times

theorem latestOf_mem (time : Millis) (times : List Millis) :
    latestOf time times ∈ time :: times := by
  rw [latestOf]
  cases found : times.getLast? with
  | none => exact List.mem_cons_self
  | some last =>
      exact List.mem_cons_of_mem _ (List.mem_of_getLast? found)

theorem isChain_append_iff (time : Millis) (first second : List Millis) :
    (time :: (first ++ second)).IsChain Later ↔
      (time :: first).IsChain Later ∧
        (latestOf time first :: second).IsChain Later := by
  have isLast : (time :: first).getLast? = some (latestOf time first) := by
    rw [← List.singleton_append, List.getLast?_append, latestOf]
    cases first.getLast? with
    | none => rfl
    | some last => rfl
  rw [← List.cons_append, List.isChain_append, isLast]
  apply and_congr_right
  intro _
  rw [List.isChain_cons, and_comm]
  simp

/-- All bodies below a check run when every check comes late enough after the
one before; the checker then holds the time of the last. -/
theorem Calls.run_spec (calls : Calls) (checker : AntiShakeChecker)
    (asked : 0 < checker.lastClickTime)
    (positive : ∀ time ∈ calls.times, 0 < time) :
    ((∀ entry ∈ (calls.run config checker).2, entry.ran = true) ↔
        (checker.lastClickTime :: calls.times).IsChain Later) ∧
      ((checker.lastClickTime :: calls.times).IsChain Later →
        (calls.run config checker).1.lastClickTime =
            latestOf checker.lastClickTime calls.times ∧
          (calls.run config checker).2.map Entry.currentTime =
            calls.times) := by
  induction calls generalizing checker with
  | nil => simp [run, times, latestOf]
  | call method currentTime inner rest innerHypothesis restHypothesis =>
      have isPositive : 0 < currentTime := positive _ (by simp [times])
      have innerPositive : ∀ time ∈ inner.times, 0 < time :=
        fun time inInner => positive time (by simp [times, inInner])
      have restPositive : ∀ time ∈ rest.times, 0 < time :=
        fun time inRest => positive time (by simp [times, inRest])
      rw [times, List.cons_append, List.isChain_cons_cons]
      by_cases through : checker.letsThrough currentTime = true
      · have later := (checker.letsThrough_iff asked currentTime).mp through
        rw [run_of_letsThrough config method inner rest through,
          isChain_append_iff]
        obtain ⟨insideAll, insideLast⟩ := innerHypothesis
          ⟨currentTime, checker.clickIndex + 1⟩ isPositive innerPositive
        -- the calls behind see the last check inside
        have behindSpec : (currentTime :: inner.times).IsChain Later →
            _ := fun chain => restHypothesis
          (inner.run config ⟨currentTime, checker.clickIndex + 1⟩).1 (by
            rw [(insideLast chain).1]
            rcases List.mem_cons.mp (latestOf_mem currentTime inner.times)
              with same | inInner
            · rw [same]
              exact isPositive
            · exact innerPositive _ inInner) restPositive
        constructor
        · simp only [List.cons_append, List.forall_mem_cons,
            List.forall_mem_append, true_and, insideAll, later]
          apply and_congr_right
          intro chain
          rw [(behindSpec chain).1, (insideLast chain).1]
        · rintro ⟨_, chain, behindChain⟩
          have behindLast := (behindSpec chain).2
          rw [(insideLast chain).1] at behindLast
          obtain ⟨last, mapped⟩ := behindLast behindChain
          constructor
          · rw [latestOf_cons, latestOf_append]
            exact last
          · rw [List.map_append, List.map_cons, (insideLast chain).2, mapped]
            rfl
      · have notLater : ¬ Later checker.lastClickTime currentTime :=
          mt (checker.letsThrough_iff asked currentTime).mpr through
        rw [run_of_not_letsThrough config method inner rest
          (by simpa using through)]
        constructor
        · simp [notLater]
        · rintro ⟨later, _⟩
          exact absurd later notLater

/-! ## A click after others -/

theorem Click.run_of_letsThrough (click : Click)
    {checker : AntiShakeChecker}
    (through : checker.letsThrough click.currentTime = true) :
    click.calls.run config checker =
      ((click.inner.run config
          ⟨click.currentTime, checker.clickIndex + 1⟩).1,
        ⟨click.currentTime, true⟩ :: (click.inner.run config
          ⟨click.currentTime, checker.clickIndex + 1⟩).2) := by
  rw [Click.calls, Calls.run_of_letsThrough config _ _ _ through]
  simp [Calls.run]

theorem Click.run_of_not_letsThrough (click : Click)
    {checker : AntiShakeChecker}
    (blocked : checker.letsThrough click.currentTime = false) :
    click.calls.run config checker =
      (⟨checker.lastClickTime, checker.clickIndex + 1⟩,
        [⟨click.currentTime, false⟩]) := by
  rw [Click.calls, Calls.run_of_not_letsThrough config _ _ _ blocked]
  simp [Calls.run]

theorem dispatchOf_letThrough (before : List Click) (click : Click) :
    (dispatchOf config before click).letThrough =
      (checkerAfter config before).letsThrough click.currentTime := by
  rw [dispatchOf, Dispatch.letThrough]
  cases answer :
      (checkerAfter config before).letsThrough click.currentTime with
  | true => simp only [click.run_of_letsThrough config answer]
  | false => simp only [click.run_of_not_letsThrough config answer]

theorem lastLetThrough_concat (dispatches : List Dispatch)
    (dispatch : Dispatch) :
    lastLetThrough (dispatches ++ [dispatch]) =
      if dispatch.letThrough = true then some dispatch
      else lastLetThrough dispatches := by
  rw [lastLetThrough, List.filter_append]
  cases through : dispatch.letThrough with
  | true => simp [through]
  | false => simp [through, lastLetThrough]

/-- What the checker and the dispatches know after some clicks: the last one
that was let through made all its checks, and the checker holds the time of
the last of them. -/
structure Recorded (before : List Click) : Prop where
  first : lastLetThrough (dispatchesOf config before) = none →
    (checkerAfter config before).lastClickTime = 0
  last : ∀ last ∈ lastLetThrough (dispatchesOf config before),
    ∃ click ∈ before, last.currentTime = click.currentTime ∧
      last.entries.map Entry.currentTime = click.times ∧
      click.times.IsChain Later ∧ (∀ time ∈ click.times, 0 < time) ∧
      (checkerAfter config before).lastClickTime =
        latestOf click.currentTime click.inner.times

theorem recorded_of_spaced {before : List Click}
    (timed : AtEvery Timed before)
    (spaced : AtEvery (Spaced config) before) : Recorded config before := by
  induction before using List.reverseRecOn with
  | nil => exact ⟨fun _ => rfl, fun last isLast => nomatch isLast⟩
  | append_singleton before click inductionHypothesis =>
      obtain ⟨timedBefore, timedClick⟩ := atEvery_concat.mp timed
      obtain ⟨spacedBefore, spacedClick⟩ := atEvery_concat.mp spaced
      have recorded := inductionHypothesis timedBefore spacedBefore
      have through := dispatchOf_letThrough config before click
      cases answer :
          (checkerAfter config before).letsThrough click.currentTime with
      | true =>
          rw [answer] at through
          have chain := spacedClick.inner answer
          obtain ⟨isLast, mapped⟩ := (click.inner.run_spec config
            ⟨click.currentTime, (checkerAfter config before).clickIndex + 1⟩
            (timedClick.1 _ List.mem_cons_self)
            (fun time inInner => timedClick.1 time
              (List.mem_cons_of_mem _ inInner))).2 chain
          constructor
          · intro none_
            rw [dispatchesOf_concat, lastLetThrough_concat,
              if_pos through] at none_
            exact absurd none_ (by simp)
          · intro last isLastDispatch
            rw [dispatchesOf_concat, lastLetThrough_concat, if_pos through,
              Option.mem_some] at isLastDispatch
            subst isLastDispatch
            refine ⟨click, by simp, rfl, ?_, chain, timedClick.1, ?_⟩
            · simp only [dispatchOf, click.run_of_letsThrough config answer,
                List.map_cons, mapped]
              rfl
            · rw [checkerAfter_concat, click.run_of_letsThrough config answer]
              exact isLast
      | false =>
          rw [answer] at through
          have blocked :
              ¬ (dispatchOf config before click).letThrough = true := by
            simp [through]
          constructor
          · intro none_
            rw [dispatchesOf_concat, lastLetThrough_concat,
              if_neg blocked] at none_
            rw [checkerAfter_concat,
              click.run_of_not_letsThrough config answer]
            exact recorded.first none_
          · intro last isLastDispatch
            rw [dispatchesOf_concat, lastLetThrough_concat,
              if_neg blocked] at isLastDispatch
            obtain ⟨earlier, inBefore, facts⟩ :=
              recorded.last last isLastDispatch
            refine ⟨earlier, List.mem_append_left _ inBefore, ?_⟩
            rw [checkerAfter_concat,
              click.run_of_not_letsThrough config answer]
            exact facts

/-- In a chain every time but the first lies late enough behind the first, and
none behind the last. -/
theorem later_of_isChain {time : Millis} {times : List Millis}
    (chain : (time :: times).IsChain Later) :
    (∀ next ∈ times, Later time next) ∧
      ∀ next ∈ time :: times, next ≤ latestOf time times := by
  induction times generalizing time with
  | nil => simp [latestOf]
  | cons next rest inductionHypothesis =>
      obtain ⟨later, chainRest⟩ := List.isChain_cons_cons.mp chain
      obtain ⟨behind, bounded⟩ := inductionHypothesis chainRest
      rw [latestOf_cons]
      simp only [Later, MIN_DURATION, Millis] at *
      constructor
      · intro other inRest
        rcases List.mem_cons.mp inRest with rfl | further
        · exact later
        · have beyond := behind other further
          omega
      · intro other inTimes
        have nextBounded := bounded next List.mem_cons_self
        rcases List.mem_cons.mp inTimes with rfl | further
        · omega
        · exact bounded other further

/-- Coming late enough behind the last of some times is the same as behind the
first, if there is only one; else it is more. -/
private theorem later_latest_iff {time now : Millis} {times : List Millis}
    (behind : ∀ next ∈ times, Later time next)
    (bounded : ∀ next ∈ time :: times, next ≤ latestOf time times)
    (isLatest : latestOf time times ∈ time :: times)
    (notBefore : latestOf time times ≤ now) :
    ((Later (latestOf time times) now ↔ MIN_DURATION < now - time) ↔
      ∀ next ∈ times, Later next now) := by
  cases times with
  | nil => simp [latestOf, Later]
  | cons next rest =>
      have later := behind next List.mem_cons_self
      have nextBounded := bounded next (by simp)
      simp only [Later, MIN_DURATION, Millis] at *
      have longAgo : (700 : Int) < now - time := by omega
      constructor
      · intro same other inTimes
        have otherBounded := bounded other (List.mem_cons_of_mem _ inTimes)
        have afterLatest := same.mpr longAgo
        omega
      · intro every
        refine iff_of_true ?_ longAgo
        rcases List.mem_cons.mp isLatest with isFirst | inTimes
        · rw [isFirst] at nextBounded
          omega
        · exact every _ inTimes

theorem lawful_iff {before : List Click} {click : Click}
    (recorded : Recorded config before) (timed : Timed before click) :
    Lawful config before click ↔ Spaced config before click := by
  have through := dispatchOf_letThrough config before click
  have inner : ((dispatchOf config before click).letThrough = true →
      ∀ entry ∈ (dispatchOf config before click).entries,
        entry.ran = true) ↔
      ((checkerAfter config before).letsThrough click.currentTime = true →
        click.times.IsChain Later) := by
    rw [through]
    apply imp_congr_right
    intro answer
    simp only [dispatchOf, click.run_of_letsThrough config answer,
      List.forall_mem_cons, true_and]
    exact (click.inner.run_spec config
      ⟨click.currentTime, (checkerAfter config before).clickIndex + 1⟩
      (timed.1 _ List.mem_cons_self)
      (fun time inInner => timed.1 time
        (List.mem_cons_of_mem _ inInner))).1
  have nothing : (dispatchOf config before click).letThrough = false →
      ∀ entry ∈ (dispatchOf config before click).entries,
        entry.ran = false := by
    rw [through]
    intro answer
    simp [dispatchOf, click.run_of_not_letsThrough config answer]
  have spaced : ((dispatchOf config before click).letThrough = true ↔
      ∀ last ∈ lastLetThrough (dispatchesOf config before),
        MIN_DURATION < click.currentTime - last.currentTime) ↔
      ∀ last ∈ lastLetThrough (dispatchesOf config before),
        ∀ entry ∈ last.entries.tail,
          Later entry.currentTime click.currentTime := by
    rw [through]
    cases isLast : lastLetThrough (dispatchesOf config before) with
    | none =>
        simp [AntiShakeChecker.letsThrough, recorded.first isLast]
    | some last =>
        obtain ⟨earlier, inBefore, sameTime, mapped, chain, positive, holds⟩ :=
          recorded.last last isLast
        obtain ⟨behind, bounded⟩ := later_of_isChain chain
        have isLatest := latestOf_mem earlier.currentTime earlier.inner.times
        have asked : 0 < (checkerAfter config before).lastClickTime := by
          rw [holds]
          exact positive _ isLatest
        have notBefore := timed.2 earlier inBefore _ isLatest
        have tails : last.entries.tail.map Entry.currentTime =
            earlier.inner.times := by
          rw [List.map_tail, mapped]
          rfl
        have inTail : (∀ entry ∈ last.entries.tail,
            Later entry.currentTime click.currentTime) ↔
            ∀ time ∈ earlier.inner.times, Later time click.currentTime := by
          rw [← tails, List.forall_mem_map]
        simp only [Option.mem_some_iff, forall_eq']
        rw [AntiShakeChecker.letsThrough_iff asked, holds, inTail, sameTime]
        exact later_latest_iff behind bounded isLatest notBefore
  constructor
  · intro lawful
    exact ⟨inner.mp lawful.all, spaced.mp lawful.spaced⟩
  · intro isSpaced
    exact ⟨inner.mpr isSpaced.inner, nothing, spaced.mpr isSpaced.after⟩

/-- Every click is lawful if and only if the checks of each come late enough,
one after the other and after those of the click before. -/
theorem lawful_iff_spaced {clicks : List Click}
    (timed : AtEvery Timed clicks) :
    AtEvery (Lawful config) clicks ↔ AtEvery (Spaced config) clicks := by
  apply atEvery_congr
  rintro before click after rfl spaced
  have timedHere := timed before click after rfl
  exact lawful_iff config
    (recorded_of_spaced config timed.of_append spaced) timedHere

/-! ## A click that reaches two methods -/

/-- `onClick(View)`, with a body. -/
def onClick : HookedMethod :=
  ⟨⟨0, "onClick", ⟨["Landroid/view/View;"], "V"⟩, [],
    [.insn Opcodes.RETURN]⟩, by simp [Guardable, ViewDescriptor]⟩

/-- Three clicks, the second too early. -/
theorem lawful_of_single_methods :
    AtEvery (Lawful {}) [⟨onClick, 1000, .nil⟩, ⟨onClick, 1500, .nil⟩,
        ⟨onClick, 1701, .nil⟩] ↔
      AtEvery (Spaced {}) [⟨onClick, 1000, .nil⟩, ⟨onClick, 1500, .nil⟩,
        ⟨onClick, 1701, .nil⟩] :=
  lawful_iff_spaced {} (by decide)

/-- An `onClick` that calls another: the body of the second does not run. -/
theorem delegated_click_blocked :
    AtEvery Timed [⟨onClick, 1000, .call onClick 1000 .nil .nil⟩] ∧
      ¬ AtEvery (Lawful {})
        [⟨onClick, 1000, .call onClick 1000 .nil .nil⟩] := by
  refine ⟨by decide, ?_⟩
  intro every
  have lawful := every [] _ [] rfl
  have through : (dispatchOf {} []
      ⟨onClick, 1000, .call onClick 1000 .nil .nil⟩).letThrough = true := by
    rw [dispatchOf_letThrough]
    rfl
  have runs := (lawful_iff {} (recorded_of_spaced {} (atEvery_nil _)
    (atEvery_nil _)) ⟨by decide, by simp⟩).mp lawful
  exact absurd (runs.inner (by decide)) (by
    simp [Click.times, Calls.times, Later, MIN_DURATION])

end DripStone.AntiShake
