import DripStone.Plugin.HookUtil

/-!
# Launches of hooked activities

Every attached `HookPluginFragment` hooks once more until the plugin is loaded,
and the handler takes one intent out only.  So an activity with the tag is
launched as it was asked for if and only if the fragment was attached once at
most when it was started; otherwise `ProxyActivity` is launched.
-/

namespace DripStone.Plugin

open DripStone.Library

section Messages

variable {Data Value : Type}

/-! ## Through the handler -/

theorem launchedIntent_launchMessage (sdkInt before after : Nat)
    (intent : Intent Data) :
    launchedIntent (launchMessage sdkInt before after intent) =
      some intent := by
  rw [launchMessage]
  split
  · rfl
  · rw [launchedIntent, Option.bind_some, List.findSome?_append]
    induction before with
    | zero => rfl
    | succ before inductionHypothesis => exact inductionHypothesis

theorem launchedIntent_handleMessage (sdkInt before after : Nat)
    (intent : Intent Data) :
    launchedIntent (handleMessage
        (launchMessage sdkInt before after intent)) =
      some ((replacement (some intent)).getD intent) := by
  rw [launchMessage]
  split
  · rw [handleMessage, launchedIntent]
    cases replacement (some intent) <;> rfl
  · rw [handleMessage, launchedIntent, Option.map_some, Option.bind_some]
    induction before with
    | zero =>
        rw [List.replicate_zero, List.nil_append, replaceIntents]
        cases replacement (some intent) <;> rfl
    | succ before inductionHypothesis => exact inductionHypothesis

theorem replacement_of_plain {intent : Intent Data}
    (noTarget : intent.targetIntent = none) :
    (replacement (some intent)).getD intent = intent := by
  rw [replacement, Option.bind_some, noTarget, Option.getD_none]
  cases intent.extras.component with
  | none => rfl
  | some component => exact ite_self _

theorem intentOf_first (leading : List Value) (intent : Intent Data)
    (rest : List (Argument Data Value)) :
    intentOf (leading.map .other ++ .intent intent :: rest) = some intent := by
  induction leading with
  | nil => rfl
  | cons value others inductionHypothesis => exact inductionHypothesis

end Messages

section Intents

variable {Data Value : Type} [Inhabited Data]
variable {proxyConfig : Text × Text}

/-! ## Through the proxies -/

/-- The intent that passes a number of proxies. -/
def Intent.through (proxyConfig : Text × Text) (proxies : Nat)
    (intent : Intent Data) : Intent Data :=
  if intent.extras.isHookActivity then
    (Intent.proxyIntent proxyConfig)^[proxies] intent
  else intent

theorem replaceIntent_first (leading : List Value) (intent : Intent Data)
    (rest : List (Argument Data Value)) :
    replaceIntent proxyConfig (leading.map .other ++ .intent intent :: rest) =
      .ok (leading.map .other ++
        .intent (intent.through proxyConfig 1) :: rest) := by
  induction leading with
  | nil => rfl
  | cons value others inductionHypothesis =>
      rw [List.map_cons, List.cons_append, replaceIntent,
        inductionHypothesis]
      rfl

theorem through_through_one (proxies : Nat) (intent : Intent Data) :
    (intent.through proxyConfig 1).through proxyConfig proxies =
      intent.through proxyConfig (proxies + 1) := by
  cases tagged : intent.extras.isHookActivity with
  | false => simp [Intent.through, tagged]
  | true =>
      simp only [Intent.through, tagged, ↓reduceIte, Function.iterate_succ,
        Function.iterate_zero, Function.comp_apply, id_eq]
      exact if_pos rfl

theorem invokeAll_startActivity (proxies : Nat) (leading : List Value)
    (intent : Intent Data) (rest : List (Argument Data Value)) :
    invokeAll proxyConfig "startActivity" proxies
        (leading.map .other ++ .intent intent :: rest) =
      .ok (leading.map .other ++
        .intent (intent.through proxyConfig proxies) :: rest) := by
  induction proxies generalizing intent with
  | zero => simp [invokeAll, Intent.through]
  | succ proxies inductionHypothesis =>
      rw [invokeAll, invoke, if_pos rfl, replaceIntent_first]
      exact (inductionHypothesis _).trans (by rw [through_through_one])

/-! ## Back through the handler -/

theorem replacement_proxyIntent (intent : Intent Data) :
    replacement (some (intent.proxyIntent proxyConfig)) = some intent := rfl

/-- The handler takes one intent out, whatever the number of proxies. -/
theorem replacement_through (proxies : Nat) {intent : Intent Data}
    (noTarget : intent.targetIntent = none) :
    (replacement (some (intent.through proxyConfig proxies))).getD
        (intent.through proxyConfig proxies) =
      intent.through proxyConfig (proxies - 1) := by
  cases tagged : intent.extras.isHookActivity with
  | false =>
      rw [Intent.through, Intent.through, tagged, if_neg Bool.false_ne_true,
        if_neg Bool.false_ne_true]
      exact replacement_of_plain noTarget
  | true =>
      rw [Intent.through, Intent.through, tagged, if_pos rfl, if_pos rfl]
      cases proxies with
      | zero => exact replacement_of_plain noTarget
      | succ proxies =>
          rw [Function.iterate_succ_apply', replacement_proxyIntent,
            Option.getD_some, Nat.add_sub_cancel]

theorem through_eq_self_iff (proxies : Nat) {intent : Intent Data}
    (noTarget : intent.targetIntent = none) :
    intent.through proxyConfig proxies = intent ↔
      intent.extras.isHookActivity = false ∨ proxies = 0 := by
  cases tagged : intent.extras.isHookActivity with
  | false =>
      rw [Intent.through, tagged, if_neg Bool.false_ne_true]
      exact iff_of_true rfl (Or.inl rfl)
  | true =>
      rw [Intent.through, tagged, if_pos rfl,
        or_iff_right Bool.true_eq_false.mp]
      cases proxies with
      | zero => exact iff_of_true rfl rfl
      | succ proxies =>
          rw [Function.iterate_succ_apply']
          refine iff_of_false (fun same => ?_) (Nat.succ_ne_zero proxies)
          rw [← same] at noTarget
          cases noTarget

theorem component_through {proxies : Nat} {intent : Intent Data}
    (tagged : intent.extras.isHookActivity = true) (some_ : 0 < proxies) :
    (intent.through proxyConfig proxies).extras.component =
      some proxyConfig := by
  obtain ⟨less, rfl⟩ := Nat.exists_eq_add_one.mpr some_
  rw [Intent.through, if_pos tagged, Function.iterate_succ_apply']
  rfl

end Intents

/-! ## Every run -/

section Runs

variable {Data Value : Type}

def HookEvent.isAttach : HookEvent Data Value → Bool
  | .onAttach _ _ => true
  | .loadingPlugin | .startActivity _ _ _ | .launch _ _ _ => false

def HookEvent.isLoading : HookEvent Data Value → Bool
  | .loadingPlugin => true
  | .onAttach _ _ | .startActivity _ _ _ | .launch _ _ _ => false

def HookEvent.isStart : HookEvent Data Value → Bool
  | .startActivity _ _ _ => true
  | .onAttach _ _ | .loadingPlugin | .launch _ _ _ => false

def HookEvent.isLaunch : HookEvent Data Value → Bool
  | .launch _ _ _ => true
  | .onAttach _ _ | .loadingPlugin | .startActivity _ _ _ => false

/-- The configuration that an attached fragment sets. -/
def HookEvent.config : HookEvent Data Value → Option (Text × Text)
  | .onAttach packageName activityName => some (packageName, activityName)
  | .loadingPlugin | .startActivity _ _ _ | .launch _ _ _ => none

/-- What a history does before it loads the plugin. -/
def unloaded (history : List (HookEvent Data Value)) :
    List (HookEvent Data Value) :=
  history.takeWhile (!·.isLoading)

/-- How often the fragment was attached before the plugin was loaded. -/
def attachedOf (history : List (HookEvent Data Value)) : Nat :=
  (unloaded history).countP HookEvent.isAttach

/-- The configuration of the last of these, or that of the start. -/
def configOf (history : List (HookEvent Data Value)) : Text × Text :=
  ((unloaded history).filterMap HookEvent.config).getLast?.getD
    defaultProxyConfig

variable {history : List (HookEvent Data Value)}
variable {event : HookEvent Data Value}

theorem unloaded_concat :
    unloaded (history ++ [event]) =
      if history.any HookEvent.isLoading || event.isLoading then
        unloaded history
      else unloaded history ++ [event] := by
  induction history with
  | nil => cases event <;> rfl
  | cons first rest inductionHypothesis =>
      rw [unloaded, unloaded] at inductionHypothesis ⊢
      rw [List.cons_append, List.takeWhile_cons, List.takeWhile_cons,
        List.any_cons]
      cases first.isLoading with
      | true => rfl
      | false =>
          simp only [Bool.not_false, ↓reduceIte, Bool.false_or,
            inductionHypothesis]
          split <;> rfl

/-- An event that neither attaches the fragment nor loads the plugin. -/
theorem attachedOf_configOf_concat (noAttach : event.isAttach = false) :
    attachedOf (history ++ [event]) = attachedOf history ∧
      configOf (history ++ [event]) = configOf history := by
  rw [attachedOf, attachedOf, configOf, configOf, unloaded_concat]
  split
  · exact ⟨rfl, rfl⟩
  · have noConfig : event.config = none := by
      cases event <;> first | rfl | cases noAttach
    rw [List.countP_append, List.countP_singleton, noAttach,
      List.filterMap_append, List.filterMap_cons_none noConfig,
      List.filterMap_nil, List.append_nil]
    exact ⟨rfl, rfl⟩

theorem attachedOf_le_append (before rest : List (HookEvent Data Value)) :
    attachedOf before ≤ attachedOf (before ++ rest) := by
  rw [attachedOf, attachedOf, unloaded, unloaded, List.takeWhile_append]
  split
  · rw [List.countP_append]
    exact (List.takeWhile_sublist _).countP_le.trans (Nat.le_add_right _ _)
  · exact le_rfl

/-- An event of a longer history is the last event or an earlier one. -/
theorem eq_concat_cases {first rest : List (HookEvent Data Value)}
    {inner : HookEvent Data Value}
    (split : history ++ [event] = first ++ inner :: rest) :
    (first = history ∧ inner = event) ∨
      ∃ earlier, history = first ++ inner :: earlier := by
  rcases List.eq_nil_or_concat rest with rfl | ⟨earlier, last, rfl⟩
  · obtain ⟨same, isLast⟩ := List.append_inj' split rfl
    exact Or.inl ⟨same.symm, (List.singleton_inj.mp isLast).symm⟩
  · refine Or.inr ⟨earlier, ?_⟩
    rw [List.concat_eq_append, ← List.cons_append, ← List.append_assoc]
      at split
    exact (List.append_inj' split rfl).1

/-! ## A launch and its start -/

variable [Inhabited Data] {number : Nat}
variable {before : List (HookEvent Data Value)} {asked sent : Intent Data}

/-- The start with this number, what came before it, and the intent that it
reached the activity manager with. -/
structure IsStart (history : List (HookEvent Data Value)) (number : Nat)
    (before : List (HookEvent Data Value)) (asked sent : Intent Data) :
    Prop where
  split : ∃ leading trailing between,
    history = before ++ .startActivity leading asked trailing :: between
  isNumber : before.countP HookEvent.isStart = number
  isSent : sent = asked.through (configOf before) (attachedOf before)

theorem IsStart.append (isStart : IsStart history number before asked sent) :
    IsStart (history ++ [event]) number before asked sent := by
  obtain ⟨leading, trailing, between, rfl⟩ := isStart.split
  exact ⟨⟨leading, trailing, between ++ [event], by simp⟩, isStart.isNumber,
    isStart.isSent⟩

theorem IsStart.attachedOf_le
    (isStart : IsStart history number before asked sent) :
    attachedOf before ≤ attachedOf history := by
  obtain ⟨leading, trailing, between, rfl⟩ := isStart.split
  exact attachedOf_le_append before _

/-- What is launched for an intent that was started behind these events: the
handler takes out one of the wrappings of the proxies, so that with two of them
`ProxyActivity` is launched. -/
structure LaunchedFor (before : List (HookEvent Data Value))
    (asked : Intent Data) (got : Option (Intent Data)) : Prop where
  oneTakenOut : got =
    some (asked.through (configOf before) (attachedOf before - 1))
  asAsked : got = some asked ↔
    asked.extras.isHookActivity = false ∨ attachedOf before ≤ 1
  proxyActivity : asked.extras.isHookActivity = true →
    1 < attachedOf before →
      got.bind (·.extras.component) = some (configOf before)

theorem launchedFor_of_eq {got : Option (Intent Data)}
    (noTarget : asked.targetIntent = none)
    (taken : got =
      some (asked.through (configOf before) (attachedOf before - 1))) :
    LaunchedFor before asked got := by
  refine ⟨taken, ?_, fun tagged twice => ?_⟩
  · rw [taken, Option.some_inj, through_eq_self_iff _ noTarget,
      Nat.sub_eq_zero_iff_le]
  · rw [taken]
    exact component_through tagged (Nat.sub_pos_of_lt twice)

/-- What the launch of an intent gets: the handler has its callback if there
is a proxy. -/
theorem launched_through (sdkInt front behind proxies : Nat)
    (proxyConfig : Text × Text) (noTarget : asked.targetIntent = none)
    {hooked : Bool} (needed : 0 < proxies → hooked = true) :
    launchedIntent (if hooked then
        handleMessage (launchMessage sdkInt front behind
          (asked.through proxyConfig proxies))
      else launchMessage sdkInt front behind
        (asked.through proxyConfig proxies)) =
      some (asked.through proxyConfig (proxies - 1)) := by
  cases hooked with
  | true =>
      rw [if_pos rfl, launchedIntent_handleMessage,
        replacement_through proxies noTarget]
  | false =>
      have none : proxies = 0 := by
        by_contra some
        exact Bool.false_ne_true (needed (Nat.pos_of_ne_zero some))
      rw [none]
      exact launchedIntent_launchMessage _ _ _ _

/-- The launch with these events in front gets what is launched for the intent
of its own start, unless that has a target. -/
def LaunchesOwn (first : List (HookEvent Data Value)) (number : Nat)
    (launched : List (Option (Intent Data))) : Prop :=
  ∃ before leading asked trailing between got,
    first = before ++ .startActivity leading asked trailing :: between ∧
      before.countP HookEvent.isStart = number ∧
        launched[first.countP HookEvent.isLaunch]? = some got ∧
          (asked.targetIntent = none → LaunchedFor before asked got)

theorem LaunchesOwn.append {first : List (HookEvent Data Value)}
    {launched : List (Option (Intent Data))}
    (launches : LaunchesOwn first number launched)
    (more : List (Option (Intent Data))) :
    LaunchesOwn first number (launched ++ more) := by
  obtain ⟨before, leading, asked, trailing, between, got, split, own, isGot,
    launchedFor⟩ := launches
  refine ⟨before, leading, asked, trailing, between, got, split, own, ?_,
    launchedFor⟩
  have bound := (List.getElem?_eq_some_iff.mp isGot).1
  rw [List.getElem?_append_left bound]
  exact isGot

/-! ## The process along a history -/

variable {sdkInt : Nat} {process next : HookedProcess Data}

structure Tracked (history : List (HookEvent Data Value))
    (process : HookedProcess Data) : Prop where
  loaded : process.sPluginLoaded = history.any HookEvent.isLoading
  proxies : process.proxies = attachedOf history
  config : process.proxyConfig = configOf history
  hooked : 0 < process.proxies → process.hooked = true
  starts : process.starting.length = history.countP HookEvent.isStart
  starting : ∀ number sent, process.starting[number]? = some sent →
    ∃ before asked, IsStart history number before asked sent
  launches : process.launched.length = history.countP HookEvent.isLaunch
  launched : ∀ first number front behind rest,
    history = first ++ .launch number front behind :: rest →
      LaunchesOwn first number process.launched

/-- A step that changes neither what was started nor what was launched. -/
theorem Tracked.of_same (tracked : Tracked history process)
    (noStart : event.isStart = false) (noLaunch : event.isLaunch = false)
    (loaded : next.sPluginLoaded =
      (history ++ [event]).any HookEvent.isLoading)
    (proxies : next.proxies = attachedOf (history ++ [event]))
    (config : next.proxyConfig = configOf (history ++ [event]))
    (hooked : 0 < next.proxies → next.hooked = true)
    (starting : next.starting = process.starting)
    (launched : next.launched = process.launched) :
    Tracked (history ++ [event]) next := by
  refine ⟨loaded, proxies, config, hooked, ?_, ?_, ?_, ?_⟩
  · rw [starting, List.countP_append, List.countP_singleton, noStart]
    exact tracked.starts
  · rw [starting]
    intro number sent isSent
    obtain ⟨before, asked, isStart⟩ := tracked.starting number sent isSent
    exact ⟨before, asked, isStart.append⟩
  · rw [launched, List.countP_append, List.countP_singleton, noLaunch]
    exact tracked.launches
  · rw [launched]
    intro first number front behind rest split
    rcases eq_concat_cases split with ⟨-, rfl⟩ | ⟨earlier, isHistory⟩
    · cases noLaunch
    · exact tracked.launched first number front behind earlier isHistory

theorem tracked_onAttach (tracked : Tracked history process)
    {packageName activityName : Text}
    (isStep : process.step sdkInt
      (.onAttach packageName activityName : HookEvent Data Value) =
        some next) :
    Tracked (history ++ [.onAttach packageName activityName]) next := by
  obtain rfl := Option.some.inj isStep
  cases loaded : process.sPluginLoaded with
  | true =>
      have same : unloaded (history ++ [.onAttach packageName activityName]) =
          unloaded history := by
        rw [unloaded_concat, ← tracked.loaded, loaded]
        rfl
      refine tracked.of_same rfl rfl ?_ ?_ ?_ tracked.hooked rfl rfl
      · rw [List.any_append, ← tracked.loaded]
        exact (Bool.or_false _).symm
      · rw [attachedOf, same]
        exact tracked.proxies
      · rw [configOf, same]
        exact tracked.config
  | false =>
      have more : unloaded (history ++ [.onAttach packageName activityName]) =
          unloaded history ++ [.onAttach packageName activityName] := by
        rw [unloaded_concat, ← tracked.loaded, loaded]
        rfl
      refine tracked.of_same rfl rfl ?_ ?_ ?_ (fun _ => rfl) rfl rfl
      · rw [List.any_append, ← tracked.loaded, loaded]
        rfl
      · rw [attachedOf, more, List.countP_append, ← attachedOf,
          ← tracked.proxies]
        rfl
      · rw [configOf, more, List.filterMap_append]
        exact (congrArg (Option.getD · defaultProxyConfig)
          List.getLast?_concat).symm

theorem tracked_loadingPlugin (tracked : Tracked history process)
    (isStep : process.step sdkInt (.loadingPlugin : HookEvent Data Value) =
      some next) :
    Tracked (history ++ [.loadingPlugin]) next := by
  obtain rfl := Option.some.inj isStep
  obtain ⟨attached, config⟩ := @attachedOf_configOf_concat Data Value history
    .loadingPlugin rfl
  refine tracked.of_same rfl rfl ?_ ?_ ?_ tracked.hooked rfl rfl
  · rw [List.any_append]
    exact (Bool.or_true _).symm
  · exact tracked.proxies.trans attached.symm
  · exact tracked.config.trans config.symm

theorem tracked_startActivity (tracked : Tracked history process)
    {leading trailing : List Value} {intent : Intent Data}
    (isStep : process.step sdkInt (.startActivity leading intent trailing) =
      some next) :
    Tracked (history ++ [.startActivity leading intent trailing]) next := by
  rw [HookedProcess.step, HookedProcess.startActivity,
    invokeAll_startActivity] at isStep
  simp only [intentOf_first, Option.map_some] at isStep
  obtain rfl := Option.some.inj isStep
  obtain ⟨attached, config⟩ := @attachedOf_configOf_concat Data Value history
    (.startActivity leading intent trailing) rfl
  refine ⟨?_, tracked.proxies.trans attached.symm,
    tracked.config.trans config.symm, tracked.hooked, ?_, ?_, ?_, ?_⟩
  · rw [List.any_append]
    exact tracked.loaded.trans (Bool.or_false _).symm
  · rw [List.length_append, List.countP_append, tracked.starts]
    rfl
  · intro number sent isSent
    rw [List.getElem?_append] at isSent
    split at isSent
    · obtain ⟨before, asked, isStart⟩ := tracked.starting number sent isSent
      exact ⟨before, asked, isStart.append⟩
    · next notBefore =>
        rw [List.getElem?_singleton] at isSent
        split at isSent
        · next first =>
            obtain rfl := Option.some.inj isSent
            refine ⟨history, intent, ⟨leading, trailing, [], rfl⟩, ?_, ?_⟩
            · rw [← tracked.starts]
              omega
            · rw [tracked.config, tracked.proxies]
        · cases isSent
  · rw [List.countP_append]
    exact tracked.launches
  · intro first number front behind rest split
    rcases eq_concat_cases split with ⟨-, impossible⟩ | ⟨earlier, isHistory⟩
    · cases impossible
    · exact tracked.launched first number front behind earlier isHistory

theorem tracked_launch (tracked : Tracked history process)
    {index front behind : Nat}
    (isStep : process.step sdkInt
      (.launch index front behind : HookEvent Data Value) = some next) :
    Tracked (history ++ [.launch index front behind]) next := by
  obtain ⟨sent, isSent, rfl⟩ := Option.map_eq_some_iff.mp isStep
  obtain ⟨attached, config⟩ := @attachedOf_configOf_concat Data Value history
    (.launch index front behind) rfl
  refine ⟨?_, tracked.proxies.trans attached.symm,
    tracked.config.trans config.symm, tracked.hooked, ?_, ?_, ?_, ?_⟩
  · rw [List.any_append]
    exact tracked.loaded.trans (Bool.or_false _).symm
  · rw [List.countP_append]
    exact tracked.starts
  · intro number other isOther
    obtain ⟨before, asked, isStart⟩ := tracked.starting number other isOther
    exact ⟨before, asked, isStart.append⟩
  · rw [List.countP_append, HookedProcess.launch, List.length_append,
      tracked.launches]
    rfl
  · intro first number ahead after rest split
    rcases eq_concat_cases split with ⟨rfl, same⟩ | ⟨earlier, isHistory⟩
    · obtain ⟨rfl, rfl, rfl⟩ := HookEvent.launch.inj same
      obtain ⟨before, asked, isStart⟩ := tracked.starting _ sent isSent
      have needed : 0 < attachedOf before → process.hooked = true :=
        fun positive => tracked.hooked (tracked.proxies ▸
          positive.trans_le isStart.attachedOf_le)
      obtain ⟨⟨leading, trailing, between, isFirst⟩, own, rfl⟩ := isStart
      refine ⟨before, leading, asked, trailing, between, _, isFirst, own, ?_,
        fun noTarget => launchedFor_of_eq noTarget
          (launched_through sdkInt ahead after _ _ noTarget needed)⟩
      rw [← tracked.launches]
      exact List.getElem?_concat_length
    · exact (tracked.launched first number ahead after earlier
        isHistory).append _

theorem tracked_step (tracked : Tracked history process)
    (isStep : process.step sdkInt event = some next) :
    Tracked (history ++ [event]) next := by
  cases event with
  | onAttach => exact tracked_onAttach tracked isStep
  | loadingPlugin => exact tracked_loadingPlugin tracked isStep
  | startActivity => exact tracked_startActivity tracked isStep
  | launch => exact tracked_launch tracked isStep

/-- Every launch of a history gets what is launched for its own start. -/
theorem launchesOwn_of_launch {first rest : List (HookEvent Data Value)}
    {number front behind : Nat}
    (isHistory : (hookedProcess Data Value sdkInt).after
      (first ++ .launch number front behind :: rest) = some process) :
    LaunchesOwn first number process.launched := by
  have tracked : Tracked (first ++ .launch number front behind :: rest)
      process := by
    refine Guarded.after_induction Tracked ?_ ?_ isHistory
    · refine ⟨rfl, rfl, rfl, fun impossible => absurd impossible
        (lt_irrefl 0), rfl, fun _ _ impossible => (by cases impossible), rfl,
        fun _ _ _ _ _ impossible => ?_⟩
      exact absurd impossible (by simp)
    · exact fun _ _ _ _ tracked isStep => tracked_step tracked isStep
  exact tracked.launched first number front behind rest rfl

/-- An activity of the plugin, started after the fragment was attached twice,
on Android 11. -/
def attachedTwice : List (HookEvent Unit Unit) :=
  [.onAttach ['p'] ['P'], .onAttach ['p'] ['P'],
    .startActivity [()] (.plain ⟨some (['q'], ['Q']), true, ()⟩) []]

theorem launchesOwn_attachedTwice :
    ∃ process, (hookedProcess Unit Unit 30).after
        (attachedTwice ++ [.launch 0 1 0]) = some process ∧
      LaunchesOwn attachedTwice 0 process.launched ∧
        process.launched.map (·.bind (·.extras.component)) =
          [some (['p'], ['P'])] :=
  ⟨_, rfl, @launchesOwn_of_launch Unit Unit _ 30 _ attachedTwice [] 0 1 0 rfl,
    rfl⟩

end Runs

end DripStone.Plugin
