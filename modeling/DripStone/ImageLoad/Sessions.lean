import DripStone.ImageLoad.Progress

/-!
# Sessions

What is told under a url goes to one listener after the other, in sessions
that begin when a listener is added.  As the source tells a listener first and
removes what the url has then, a call under a url has to be kept apart from the
last call of its listener: one that is made inside of it is not.
-/

namespace DripStone.ImageLoad

open DripStone.Library

variable {Listener : Type}

/-! ## Sessions -/

/-- The listeners that are added under a url, in their order. -/
def addedUnder (url : Text) (outputs : List (Output Listener)) :
    List Listener :=
  outputs.filterMap fun output => match output with
    | .added other listener => if other = url then some listener else none
    | _ => none

/-- The calls of listeners that are kept under a url. -/
def toldUnder (url : Text) (outputs : List (Output Listener)) :
    List (Listener × Report) :=
  outputs.filterMap fun output => match output with
    | .onProgress other listener report =>
        if other = url then some (listener, report) else none
    | _ => none

/-- What the listener of one load is told: it is added, then there may be
progress, and completion once or not at all. -/
structure Session (Listener : Type) where
  listener : Listener
  progress : List Report
  completion : Option Report
  underWay : ∀ report ∈ progress, report.isComplete = false
  completed : ∀ report ∈ completion, report.isComplete = true

namespace Session

def begin (listener : Listener) : Session Listener where
  listener := listener
  progress := []
  completion := none
  underWay := fun _ impossible => by cases impossible
  completed := fun _ impossible => by cases impossible

def told (session : Session Listener) : List (Listener × Report) :=
  (Process.firstReport :: session.progress ++
    session.completion.toList).map fun report => (session.listener, report)

/-- The listener, as long as it has not been told of the completion. -/
def waiting (session : Session Listener) : Option Listener :=
  match session.completion with
  | none => some session.listener
  | some _ => none

end Session

/-- Under a url there is the listener of the last session, if that session has
no completion, and what was told are the sessions, one for each listener. -/
def InSessions (waiting : Option Listener) (told : List (Listener × Report))
    (added : List Listener) : Prop :=
  ∃ sessions : List (Session Listener),
    told = sessions.flatMap Session.told ∧
      sessions.map Session.listener = added ∧
        sessions.getLast?.bind Session.waiting = waiting

section Sessions

variable {waiting : Option Listener} {listener : Listener}
variable {told : List (Listener × Report)} {added : List Listener}
variable {report : Report}

theorem inSessions_nil : InSessions (none : Option Listener) [] [] :=
  ⟨[], rfl, rfl, rfl⟩

theorem InSessions.begin (inSessions : InSessions waiting told added)
    (listener : Listener) :
    InSessions (some listener) (told ++ [(listener, Process.firstReport)])
      (added ++ [listener]) := by
  obtain ⟨sessions, isTold, isAdded, -⟩ := inSessions
  refine ⟨sessions ++ [Session.begin listener], ?_, ?_, ?_⟩
  · rw [List.flatMap_append, ← isTold]
    rfl
  · rw [List.map_append, isAdded]
    rfl
  · rw [List.getLast?_concat]
    rfl

/-- A listener waits in the last session, which has no completion. -/
theorem InSessions.last (inSessions : InSessions (some listener) told added) :
    ∃ (before : List (Session Listener)) (session : Session Listener),
      told = before.flatMap Session.told ++ session.told ∧
        before.map Session.listener ++ [session.listener] = added ∧
          session.listener = listener ∧ session.completion = none := by
  obtain ⟨sessions, isTold, isAdded, isWaiting⟩ := inSessions
  rcases List.eq_nil_or_concat sessions with rfl | ⟨before, session, rfl⟩
  · cases isWaiting
  · rw [List.concat_eq_append] at isTold isAdded isWaiting
    rw [List.getLast?_concat, Option.bind_some, Session.waiting] at isWaiting
    rw [List.flatMap_append, List.flatMap_singleton] at isTold
    rw [List.map_append] at isAdded
    split at isWaiting
    · next none =>
        exact ⟨before, session, isTold, isAdded,
          Option.some.inj isWaiting, none⟩
    · cases isWaiting

theorem InSessions.progressed
    (inSessions : InSessions (some listener) told added)
    (notComplete : report.isComplete = false) :
    InSessions (some listener) (told ++ [(listener, report)]) added := by
  obtain ⟨before, session, isTold, isAdded, rfl, none⟩ := inSessions.last
  let longer : Session Listener := { session with
    progress := session.progress ++ [report]
    underWay := by
      intro other inProgress
      rcases List.mem_append.mp inProgress with old | last
      · exact session.underWay other old
      · rw [List.mem_singleton.mp last]
        exact notComplete }
  refine ⟨before ++ [longer], ?_, ?_, ?_⟩
  · rw [List.flatMap_append, List.flatMap_singleton, isTold]
    simp [longer, Session.told, none]
  · rw [List.map_append]
    exact isAdded
  · rw [List.getLast?_concat, Option.bind_some, Session.waiting]
    simp [longer, none]

theorem InSessions.complete
    (inSessions : InSessions (some listener) told added)
    (isComplete : report.isComplete = true) :
    InSessions none (told ++ [(listener, report)]) added := by
  obtain ⟨before, session, isTold, isAdded, rfl, none⟩ := inSessions.last
  let complete : Session Listener := { session with
    completion := some report
    completed := by
      intro other isCompletion
      rw [← Option.some.inj isCompletion]
      exact isComplete }
  refine ⟨before ++ [complete], ?_, ?_, ?_⟩
  · rw [List.flatMap_append, List.flatMap_singleton, isTold]
    simp [complete, Session.told, none]
  · rw [List.map_append]
    exact isAdded
  · rw [List.getLast?_concat]
    rfl

end Sessions

/-! ## Calls inside of calls -/

/-- Whether a call is under way that ends with the removal of the listener of
a url. -/
def Process.removing (process : Process Listener) (url : Text) : Bool :=
  process.calls.any fun made => made.removes && made.url = url

/-- The listener of a url that has not been told of the completion. -/
def Process.waiting (process : Process Listener) (url : Text) :
    Option Listener :=
  if process.removing url then none else process.getProgressListener url

/-- No listener is called under a url inside of a call that ends with the
removal of the listener of that url. -/
def Process.Separate (process : Process Listener) : Prop :=
  process.calls.Pairwise fun inner outer =>
    ¬(outer.removes = true ∧ outer.url = inner.url)

instance (process : Process Listener) : Decidable process.Separate :=
  inferInstanceAs (Decidable (List.Pairwise _ _))

/-! ## One step -/

/-- Whatever was told before, a step goes on with the sessions of a url and
begins those of the listeners that it adds. -/
def Tells (url : Text) (before after : Process Listener)
    (outputs : List (Output Listener)) : Prop :=
  ∀ told added, InSessions (before.waiting url) told added →
    InSessions (after.waiting url) (told ++ toldUnder url outputs)
      (added ++ addedUnder url outputs)

section Steps

variable {url other : Text} {process before between after : Process Listener}
variable {listener : Listener} {report : Report} {made : Call Listener}

theorem toldUnder_append (first second : List (Output Listener)) :
    toldUnder url (first ++ second) =
      toldUnder url first ++ toldUnder url second :=
  List.filterMap_append

theorem addedUnder_append (first second : List (Output Listener)) :
    addedUnder url (first ++ second) =
      addedUnder url first ++ addedUnder url second :=
  List.filterMap_append

theorem Tells.trans {first second : List (Output Listener)}
    (begins : Tells url before between first)
    (ends : Tells url between after second) :
    Tells url before after (first ++ second) := by
  intro told added inSessions
  have further := ends _ _ (begins told added inSessions)
  rw [toldUnder_append, addedUnder_append]
  rwa [List.append_assoc, List.append_assoc] at further

/-- A step that neither calls a listener of the url nor changes it. -/
theorem tells_of_silent {outputs : List (Output Listener)}
    (same : after.waiting url = before.waiting url)
    (silent : toldUnder url outputs = [])
    (none : addedUnder url outputs = []) :
    Tells url before after outputs := by
  intro told added inSessions
  rw [same, silent, none, List.append_nil, List.append_nil]
  exact inSessions

theorem tells_refl : Tells url process process [] :=
  tells_of_silent rfl rfl rfl

theorem removing_call (made : Call Listener) (report : Report) :
    (process.call listener report made).1.removing url =
      (made.removes && made.url = url || process.removing url) :=
  List.any_cons

theorem getProgressListener_call (made : Call Listener) (report : Report) :
    (process.call listener report made).1.getProgressListener url =
      process.getProgressListener url := rfl

/-- In a call that is kept apart, the listener of its url is not being
removed. -/
theorem removing_of_separate (separate : after.Separate)
    (isCalls : after.calls = made :: process.calls) :
    process.removing made.url = false := by
  rw [Process.Separate, isCalls] at separate
  rw [Process.removing, List.any_eq_false]
  intro outer isOuter removes
  rw [Bool.and_eq_true, decide_eq_true_iff] at removes
  exact (List.pairwise_cons.mp separate).1 outer isOuter removes

theorem toldUnder_call :
    toldUnder url (process.call listener report made).2 =
      if made.url = url then [(listener, report)] else [] := by
  rw [Process.call, toldUnder, List.filterMap_cons, List.filterMap_nil]
  split <;> simp_all

theorem waiting_call_of_ne (different : made.url ≠ url) :
    (process.call listener report made).1.waiting url =
      process.waiting url := by
  rw [Process.waiting, Process.waiting, removing_call,
    decide_eq_false different, Bool.and_false, Bool.false_or]
  rfl

/-- A listener that is kept is told that it goes on or that it is over. -/
theorem tells_call
    (found : process.getProgressListener made.url = some listener)
    (same : report.isComplete = made.removes)
    (separate : (process.call listener report made).1.Separate) :
    Tells url process (process.call listener report made).1
      (process.call listener report made).2 := by
  by_cases isUrl : made.url = url
  · subst isUrl
    have notRemoving := removing_of_separate separate rfl
    intro told added inSessions
    rw [toldUnder_call, if_pos rfl, show addedUnder made.url
      (process.call listener report made).2 = [] from rfl, List.append_nil]
    rw [Process.waiting, notRemoving, if_neg Bool.false_ne_true, found]
      at inSessions
    rw [Process.waiting, removing_call, notRemoving, decide_eq_true rfl,
      Bool.and_true, Bool.or_false, getProgressListener_call, found]
    cases removes : made.removes with
    | false => exact inSessions.progressed (same.trans removes)
    | true => exact inSessions.complete (same.trans removes)
  · refine tells_of_silent (waiting_call_of_ne isUrl) ?_ rfl
    rw [toldUnder_call, if_neg isUrl]

theorem waiting_put_self (nonempty : other ≠ [])
    (notRemoving : process.removing other = false) :
    (process.put other listener).waiting other = some listener := by
  have same : (process.put other listener).removing other = false :=
    notRemoving
  rw [Process.waiting, same, if_neg Bool.false_ne_true,
    Process.getProgressListener, if_neg nonempty]
  exact Function.update_self _ _ _

theorem waiting_put_of_ne (different : other ≠ url) :
    (process.put other listener).waiting url = process.waiting url := by
  have same : (process.put other listener).getProgressListener url =
      process.getProgressListener url := by
    rw [Process.getProgressListener, Process.getProgressListener]
    exact if_congr Iff.rfl rfl
      (Function.update_of_ne (Ne.symm different) _ _)
  rw [Process.waiting, Process.waiting, same]
  rfl

theorem toldUnder_added (outputs : List (Output Listener)) :
    toldUnder url (.added other listener :: outputs) =
      toldUnder url outputs := rfl

theorem addedUnder_added :
    addedUnder url
        (.added other listener :: (process.call listener report made).2) =
      if other = url then [listener] else [] := by
  rw [Process.call, addedUnder, List.filterMap_cons, List.filterMap_cons,
    List.filterMap_nil]
  split <;> simp_all

theorem waiting_call_added :
    (process.call listener report ⟨other, false, none⟩).1.waiting url =
      process.waiting url := by
  rw [Process.waiting, removing_call, Bool.false_and, Bool.false_or]
  rfl

/-- A listener that is added begins a session. -/
theorem tells_addListener (process : Process Listener) (other : Text)
    (listener : Listener)
    (separate : (process.addListener other listener).1.Separate) :
    Tells url process (process.addListener other listener).1
      (process.addListener other listener).2 := by
  rw [Process.addListener] at separate ⊢
  split
  · exact tells_refl
  · next nonempty =>
      rw [if_neg nonempty] at separate
      have notRemoving : process.removing other = false :=
        @removing_of_separate _ process _ ⟨other, false, none⟩ separate rfl
      by_cases isUrl : other = url
      · subst isUrl
        intro told added inSessions
        have waits := @waiting_put_self _ _ process listener nonempty
          notRemoving
        have begun := inSessions.begin listener
        simp only [toldUnder_added, toldUnder_call, addedUnder_added,
          if_pos]
        rwa [waiting_call_added, waits]
      · refine tells_of_silent ?_ ?_ ?_
        · rw [waiting_call_added, waiting_put_of_ne isUrl]
        · rw [toldUnder_added, toldUnder_call, if_neg isUrl]
        · rw [addedUnder_added, if_neg isUrl]

theorem tells_keep (process : Process Listener) (load : UrlLoad Listener)
    (separate : (process.keep load).1.Separate) :
    Tells url process (process.keep load).1 (process.keep load).2 := by
  rw [Process.keep] at separate ⊢
  cases isListener : load.loadListener with
  | none => exact tells_of_silent rfl rfl rfl
  | some listener =>
      rw [isListener] at separate
      have kept : Tells url process { process with
          urlMap := Function.update process.urlMap load.view
            (some load.url) } [] := tells_of_silent rfl rfl rfl
      exact kept.trans (tells_addListener _ load.url listener separate)

theorem tells_goOn (process : Process Listener)
    (load : Option (UrlLoad Listener))
    (separate : (process.goOn load).1.Separate) :
    Tells url process (process.goOn load).1 (process.goOn load).2 := by
  cases load with
  | none => exact tells_refl
  | some load => exact tells_keep process load separate

theorem getProgressListener_of_target {view : Int}
    (found : process.target view = some (other, listener)) :
    process.getProgressListener other = some listener := by
  obtain ⟨url, -, isFound⟩ := Option.bind_eq_some_iff.mp found
  obtain ⟨same, isListener, both⟩ := Option.map_eq_some_iff.mp isFound
  obtain ⟨rfl, rfl⟩ := Prod.mk.inj both
  exact isListener

theorem tells_finished (process : Process Listener) (view : Int)
    (load : Option (UrlLoad Listener))
    (separate : (process.finished view load).1.Separate) :
    Tells url process (process.finished view load).1
      (process.finished view load).2 := by
  rw [Process.finished] at separate ⊢
  split
  · next notFound =>
      rw [notFound] at separate
      exact tells_goOn process load separate
  · next other listener found =>
      rw [found] at separate
      exact tells_call (getProgressListener_of_target found) rfl separate

theorem tells_onProgress (percentageOf : Int → Int → Int)
    (process : Process Listener) (other : Text)
    (bytesRead totalBytes : Int)
    (separate : (process.onProgress percentageOf other bytesRead
      totalBytes).1.Separate) :
    Tells url process
      (process.onProgress percentageOf other bytesRead totalBytes).1
      (process.onProgress percentageOf other bytesRead totalBytes).2 := by
  rw [Process.onProgress] at separate ⊢
  split
  · exact tells_refl
  · next listener found =>
      rw [found] at separate
      exact tells_call found rfl separate

theorem removing_removeListener (process : Process Listener) (other : Text) :
    (process.removeListener other).removing url = process.removing url := by
  rw [Process.removeListener]
  split <;> rfl

theorem getProgressListener_removeListener (process : Process Listener)
    (other : Text) :
    (process.removeListener other).getProgressListener url =
      if other = url then none else process.getProgressListener url := by
  rw [Process.removeListener]
  by_cases empty : other = []
  · rw [if_pos empty]
    split
    · next same => rw [Process.getProgressListener, if_pos (same ▸ empty)]
    · rfl
  · rw [if_neg empty, Process.getProgressListener,
      Process.getProgressListener]
    split
    · next nothing => rw [ite_self]
    · next nonempty =>
        split
        · next same =>
            rw [← same]
            exact Function.update_self _ _ _
        · next different =>
            exact Function.update_of_ne (Ne.symm different) _ _

/-- The end of a call that removes nothing but the listener that was told. -/
theorem waiting_of_returned {rest : List (Call Listener)}
    (isCalls : process.calls = made :: rest) :
    (if made.removes then { process with calls := rest }.removeListener
        made.url else { process with calls := rest }).waiting url =
      process.waiting url := by
  have removing : process.removing url = (made.removes && made.url = url ||
      ({ process with calls := rest }).removing url) := by
    rw [Process.removing, isCalls]
    exact List.any_cons
  rw [Process.waiting, Process.waiting, removing]
  cases removes : made.removes with
  | false =>
      rw [Bool.false_and, Bool.false_or]
      rfl
  | true =>
      simp only [↓reduceIte, removing_removeListener,
        getProgressListener_removeListener, Bool.true_and]
      by_cases isUrl : made.url = url
      · rw [if_pos isUrl, ite_self, decide_eq_true isUrl, Bool.true_or,
          if_pos rfl]
      · rw [if_neg isUrl, decide_eq_false isUrl, Bool.false_or]
        rfl

theorem tells_returned (process : Process Listener)
    (separate : process.returned.1.Separate) :
    Tells url process process.returned.1 process.returned.2 := by
  rw [Process.returned] at separate ⊢
  split
  · exact tells_refl
  · next made rest isCalls =>
      rw [isCalls] at separate
      have ended : Tells url process
          (if made.removes then { process with calls := rest }.removeListener
            made.url else { process with calls := rest }) [] :=
        tells_of_silent (waiting_of_returned isCalls) rfl rfl
      exact ended.trans (tells_goOn _ made.load separate)

theorem tells_read (process : Process Listener) (body : Nat)
    (bytesRead : Option Nat) :
    Tells url process (process.read body bytesRead).1
      (process.read body bytesRead).2 := by
  rw [Process.read]
  split
  · exact tells_refl
  · simp only
    split <;> exact tells_of_silent rfl rfl rfl

theorem tells_runPosted (percentageOf : Int → Int → Int)
    (process : Process Listener)
    (separate : (process.runPosted percentageOf).1.Separate) :
    Tells url process (process.runPosted percentageOf).1
      (process.runPosted percentageOf).2 := by
  revert separate
  rw [Process.runPosted]
  split
  · next body rest noCall isPosted =>
      split
      · exact fun _ => tells_refl
      · next source atBody =>
          intro separate
          have taken : Tells url process { process with posted := rest }
              [.internalProgress body source.totalBytesRead] :=
            tells_of_silent rfl rfl rfl
          exact taken.trans (tells_onProgress percentageOf _ source.url
            source.totalBytesRead source.contentLength separate)
  · exact fun _ => tells_refl

theorem tells_step (percentageOf : Int → Int → Int)
    (process : Process Listener) (event : Event Listener)
    (separate : (process.step percentageOf event).1.Separate) :
    Tells url process (process.step percentageOf event).1
      (process.step percentageOf event).2 := by
  cases event with
  | loadUrl view other loadListener immediately =>
      rw [Process.step, Process.loadUrl] at separate ⊢
      cases immediately with
      | true => exact tells_finished process view _ separate
      | false => exact tells_keep process _ separate
  | loadImage view immediately =>
      rw [Process.step, Process.loadImage] at separate ⊢
      cases immediately with
      | true => exact tells_finished process view none separate
      | false => exact tells_refl
  | finished view => exact tells_finished process view none separate
  | returned => exact tells_returned process separate
  | opened other contentLength => exact tells_of_silent rfl rfl rfl
  | read body bytesRead => exact tells_read process body bytesRead
  | runPosted => exact tells_runPosted percentageOf process separate

end Steps

/-- The calls that the events of a run lead to are kept apart. -/
def KeptApart (percentageOf : Int → Int → Int) (process : Process Listener)
    (events : List (Event Listener)) : Prop :=
  AtEvery (fun before event =>
    ((loading percentageOf).run process (before ++ [event])).Separate) events

instance (percentageOf : Int → Int → Int) (process : Process Listener)
    (events : List (Event Listener)) :
    Decidable (KeptApart percentageOf process events) :=
  AtEvery.decidable _ events

theorem tells_run {percentageOf : Int → Int → Int}
    {process : Process Listener} {events : List (Event Listener)}
    (keptApart : KeptApart percentageOf process events) (url : Text) :
    Tells url process ((loading percentageOf).run process events)
      ((loading percentageOf).trace process events) := by
  refine AtEvery.induction (motive := fun events => Tells url process
    ((loading percentageOf).run process events)
    ((loading percentageOf).trace process events)) keptApart tells_refl ?_
  intro before event tells separate
  rw [Mealy.run_concat] at separate
  rw [Mealy.run_concat, Mealy.trace_concat]
  exact tells.trans (tells_step percentageOf _ event separate)

/-! ## Every load -/

/-- The listener of a load that is for a url. -/
def UrlLoad.listenerUnder (url : Text) (load : UrlLoad Listener) :
    Option Listener :=
  if load.url = url ∧ url ≠ [] then load.loadListener else none

/-- The listeners that are given with the loads of a url. -/
def givenUnder (url : Text) (events : List (Event Listener)) :
    List Listener :=
  events.filterMap fun event => match event with
    | .loadUrl view other loadListener _ =>
        UrlLoad.listenerUnder url ⟨view, other, loadListener⟩
    | _ => none

/-- Those that are added when a call returns. -/
def Process.delayed (process : Process Listener) (url : Text) :
    List Listener :=
  process.calls.filterMap fun made =>
    made.load.bind (UrlLoad.listenerUnder url)

section Loads

variable {url : Text} {process : Process Listener}

theorem delayed_cons {made : Call Listener} {rest : List (Call Listener)}
    (isCalls : process.calls = made :: rest) :
    process.delayed url = (made.load.bind (UrlLoad.listenerUnder url)).toList ++
      ({ process with calls := rest }).delayed url := by
  rw [Process.delayed, isCalls, List.filterMap_cons]
  cases made.load.bind (UrlLoad.listenerUnder url) <;> rfl

theorem added_addListener (process : Process Listener) (other : Text)
    (listener : Listener) :
    addedUnder url (process.addListener other listener).2 =
        (if other = url ∧ url ≠ [] then [listener] else []) ∧
      (process.addListener other listener).1.delayed url =
        process.delayed url := by
  rw [Process.addListener]
  split
  · next empty =>
      refine ⟨(if_neg ?_).symm, rfl⟩
      rintro ⟨same, nonempty⟩
      exact nonempty (same ▸ empty)
  · next nonempty =>
      refine ⟨addedUnder_added.trans (if_congr ?_ rfl rfl), rfl⟩
      exact (and_iff_left_of_imp fun same => same ▸ nonempty).symm

theorem added_goOn (process : Process Listener)
    (load : Option (UrlLoad Listener)) :
    addedUnder url (process.goOn load).2 =
        (load.bind (UrlLoad.listenerUnder url)).toList ∧
      (process.goOn load).1.delayed url = process.delayed url := by
  cases load with
  | none => exact ⟨rfl, rfl⟩
  | some load =>
      rw [Process.goOn, Process.keep, Option.bind_some,
        UrlLoad.listenerUnder]
      cases load.loadListener with
      | none =>
          rw [ite_self]
          exact ⟨rfl, rfl⟩
      | some listener =>
          obtain ⟨added, delayed⟩ := @added_addListener _ url { process with
            urlMap := Function.update process.urlMap load.view
              (some load.url) } load.url listener
          refine ⟨added.trans ?_, delayed⟩
          split <;> rfl

theorem added_finished (process : Process Listener) (view : Int)
    (load : Option (UrlLoad Listener)) :
    addedUnder url (process.finished view load).2 ++
        (process.finished view load).1.delayed url =
      (load.bind (UrlLoad.listenerUnder url)).toList ++
        process.delayed url := by
  rw [Process.finished]
  split
  · obtain ⟨added, delayed⟩ := @added_goOn _ url process load
    rw [added, delayed]
  · next other listener found =>
      exact @delayed_cons _ url (process.call listener ⟨true, 100, 0, 0⟩
        ⟨other, true, load⟩).1 ⟨other, true, load⟩ process.calls rfl

theorem added_returned (process : Process Listener) :
    addedUnder url process.returned.2 ++ process.returned.1.delayed url =
      process.delayed url := by
  rw [Process.returned]
  split
  · rfl
  · next made rest isCalls =>
      have removed : (if made.removes then
          ({ process with calls := rest }).removeListener made.url
          else { process with calls := rest }).delayed url =
            ({ process with calls := rest }).delayed url := by
        rw [Process.removeListener]
        split
        · split <;> rfl
        · rfl
      obtain ⟨added, delayed⟩ := @added_goOn _ url (if made.removes then
        ({ process with calls := rest }).removeListener made.url
        else { process with calls := rest }) made.load
      rw [added, delayed, removed, delayed_cons isCalls]

theorem added_runPosted (percentageOf : Int → Int → Int)
    (process : Process Listener) :
    addedUnder url (process.runPosted percentageOf).2 = [] ∧
      (process.runPosted percentageOf).1.delayed url =
        process.delayed url := by
  rw [Process.runPosted]
  split
  · split
    · exact ⟨rfl, rfl⟩
    · rw [Process.onProgress]
      split <;> exact ⟨rfl, rfl⟩
  · exact ⟨rfl, rfl⟩

theorem added_read (process : Process Listener) (body : Nat)
    (bytesRead : Option Nat) :
    addedUnder url (process.read body bytesRead).2 = [] ∧
      (process.read body bytesRead).1.delayed url = process.delayed url := by
  rw [Process.read]
  split
  · exact ⟨rfl, rfl⟩
  · simp only
    split <;> exact ⟨rfl, rfl⟩

/-- What a step is given is added, or delayed, and what was delayed before. -/
theorem added_step (percentageOf : Int → Int → Int)
    (process : Process Listener) (event : Event Listener) :
    addedUnder url (process.step percentageOf event).2 ++
        (process.step percentageOf event).1.delayed url =
      givenUnder url [event] ++ process.delayed url := by
  cases event with
  | loadUrl view other loadListener immediately =>
      have given : givenUnder url
          [.loadUrl view other loadListener immediately] =
          (UrlLoad.listenerUnder url ⟨view, other, loadListener⟩).toList := by
        simp only [givenUnder, List.filterMap_cons, List.filterMap_nil]
        cases UrlLoad.listenerUnder url ⟨view, other, loadListener⟩ <;> rfl
      rw [Process.step, Process.loadUrl, given]
      cases immediately with
      | true => exact added_finished process view _
      | false =>
          obtain ⟨added, delayed⟩ :=
            @added_goOn _ url process (some ⟨view, other, loadListener⟩)
          exact congrArg₂ (· ++ ·) added delayed
  | loadImage view immediately =>
      rw [Process.step, Process.loadImage]
      cases immediately with
      | true => exact added_finished process view none
      | false => rfl
  | finished view => exact added_finished process view none
  | returned => exact added_returned process
  | opened other contentLength => rfl
  | read body bytesRead =>
      obtain ⟨added, delayed⟩ := @added_read _ url process body bytesRead
      exact congrArg₂ (· ++ ·) added delayed
  | runPosted =>
      obtain ⟨added, delayed⟩ := @added_runPosted _ url percentageOf process
      exact congrArg₂ (· ++ ·) added delayed

/-- The listeners of the loads are those that were added and those that are
still delayed. -/
theorem added_run (percentageOf : Int → Int → Int)
    (events : List (Event Listener)) (url : Text) :
    (addedUnder url ((loading percentageOf).trace .new events) ++
      ((loading percentageOf).run .new events).delayed url).Perm
        (givenUnder url events) := by
  induction events using List.reverseRecOn with
  | nil => exact List.Perm.nil
  | append_singleton before event inductionHypothesis =>
      rw [Mealy.run_concat, Mealy.trace_concat, addedUnder_append,
        List.append_assoc]
      have step := @added_step _ url percentageOf
        ((loading percentageOf).run .new before) event
      have split : givenUnder url (before ++ [event]) =
          givenUnder url before ++ givenUnder url [event] :=
        List.filterMap_append
      rw [split]
      refine ((List.Perm.of_eq step).append_left _).trans ?_
      refine (List.perm_append_comm_assoc _ _ _).trans ?_
      exact (inductionHypothesis.append_left _).trans List.perm_append_comm

end Loads

theorem waiting_new (url : Text) :
    (Process.new : Process Listener).waiting url = none :=
  ite_self _

/-- In every run whose calls are kept apart, what is told under a url are
sessions, one for each listener that is added, in their order: those of the
loads of the url, as soon as each comes to it.  The listener of the last
session is the one that waits, if that has no completion. -/
theorem told_in_sessions (percentageOf : Int → Int → Int)
    {events : List (Event Listener)}
    (keptApart : KeptApart percentageOf .new events) (url : Text) :
    InSessions (((loading percentageOf).run .new events).waiting url)
        (toldUnder url ((loading percentageOf).trace .new events))
        (addedUnder url ((loading percentageOf).trace .new events)) ∧
      (addedUnder url ((loading percentageOf).trace .new events) ++
        ((loading percentageOf).run .new events).delayed url).Perm
          (givenUnder url events) :=
  ⟨tells_run keptApart url [] [] (waiting_new url ▸ inSessions_nil),
    added_run percentageOf events url⟩

/-- A load in the first call of a listener, and one in the last call of it. -/
def nested : List (Event Nat) :=
  [.loadUrl 1 ['u'] (some 0) false, .loadUrl 2 ['v'] (some 1) false,
    .returned, .returned, .loadUrl 1 ['w'] (some 2) true,
    .loadUrl 3 ['v'] (some 3) false, .returned, .returned, .returned]

theorem told_in_sessions_nested :
    (InSessions (((loading fun _ _ => 0).run .new nested).waiting ['v'])
        (toldUnder ['v'] ((loading fun _ _ => 0).trace .new nested))
        (addedUnder ['v'] ((loading fun _ _ => 0).trace .new nested)) ∧
      (addedUnder ['v'] ((loading fun _ _ => 0).trace .new nested) ++
        ((loading fun _ _ => 0).run .new nested).delayed ['v']).Perm
          (givenUnder ['v'] nested)) ∧
      addedUnder ['v'] ((loading fun _ _ => 0).trace .new nested) = [1, 3] :=
  ⟨told_in_sessions (fun _ _ => 0) (by decide +kernel) ['v'],
    by decide +kernel⟩

/-- A listener that loads its url again in its last call: the listener that is
added there is removed when the call returns. -/
def loadedAgain : List (Event Nat) :=
  [.loadUrl 1 ['u'] (some 0) false, .returned, .finished 1,
    .loadUrl 2 ['u'] (some 1) false, .returned, .returned]

example :
    ¬KeptApart (fun _ _ => 0) .new loadedAgain ∧
      ((loading fun _ _ => 0).run .new loadedAgain).listenersMap ['u'] =
        none := by
  decide +kernel

end DripStone.ImageLoad
