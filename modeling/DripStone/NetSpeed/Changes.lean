import DripStone.NetSpeed.ConnectionClassManager

/-!
# When listeners are told

The listeners are told of a quality after five samples of it in a row.  As
each of them resets the manager, they are told again after five more, and while
there is a listener no six samples of one quality pass without a word.
-/

namespace DripStone.NetSpeed.ConnectionClassManager

open DripStone.Library

/-! ## The samples since a notification -/

section Recent

variable {Listener : Type}

/-- The qualities of the samples since the listeners were last told. -/
def recent : List (Output Listener) → List ConnectionQuality :=
  List.foldl (fun samples output => match output with
    | .sampled quality => samples ++ [quality]
    | .notified _ => []) []

theorem recent_concat_sampled (trace : List (Output Listener))
    (quality : ConnectionQuality) :
    recent (trace ++ [.sampled quality]) = recent trace ++ [quality] := by
  rw [recent, List.foldl_append]
  rfl

theorem recent_concat_notified (trace : List (Output Listener))
    (told : List (Listener × ConnectionQuality)) :
    recent (trace ++ [.notified told]) = [] := by
  rw [recent, List.foldl_append]
  rfl

variable {quality other : ConnectionQuality} {count : Nat}
  {samples : List ConnectionQuality}

theorem replicate_succ_suffix_concat
    (suffix : List.replicate count quality <:+ samples) :
    List.replicate (count + 1) quality <:+ samples ++ [quality] := by
  obtain ⟨before, rfl⟩ := suffix
  refine ⟨before, ?_⟩
  rw [List.replicate_succ', List.append_assoc]

/-- A stretch that reaches the last sample is of its quality. -/
theorem suffix_of_replicate_succ_suffix
    (suffix : List.replicate (count + 1) quality <:+ samples ++ [other]) :
    quality = other ∧ List.replicate count quality <:+ samples := by
  obtain ⟨before, whole⟩ := suffix
  rw [List.replicate_succ', ← List.append_assoc] at whole
  obtain ⟨same, last⟩ := List.append_inj' whole rfl
  exact ⟨List.singleton_inj.mp last, before, same⟩

theorem getLast_of_replicate_suffix (positive : 0 < count)
    (suffix : List.replicate count quality <:+ samples) :
    samples.getLast? = some quality := by
  obtain ⟨before, rfl⟩ := suffix
  obtain ⟨less, rfl⟩ := Nat.exists_eq_add_one.mpr positive
  rw [List.replicate_succ', ← List.append_assoc, List.getLast?_concat]

theorem replicate_suffix_of_le {more : Nat} (le : count ≤ more)
    (suffix : List.replicate more quality <:+ samples) :
    List.replicate count quality <:+ samples := by
  refine List.IsSuffix.trans ?_ suffix
  refine ⟨List.replicate (more - count) quality, ?_⟩
  rw [List.replicate_append_replicate, Nat.sub_add_cancel le]

end Recent

/-! ## What the listeners are told -/

section Told

variable {State Listener : Type} {average : Average State}

/-- The first listener is told a quality, and the others that it is unknown,
since the first has reset the manager. -/
def Tells (quality : ConnectionQuality)
    (told : List (Listener × ConnectionQuality)) : Prop :=
  ∀ first rest, told = first :: rest →
    first.2 = quality ∧ ∀ other ∈ rest, other.2 = .unknown

theorem notifyListeners_unknown
    {manager : ConnectionClassManager State Listener}
    (unknown : manager.mCurrentBandwidthConnectionQuality = .unknown)
    {listeners : List Listener} {call : Listener × ConnectionQuality}
    (inTold : call ∈ (manager.notifyListeners average listeners).2) :
    call.2 = .unknown := by
  induction listeners generalizing manager with
  | nil => cases inTold
  | cons listener rest inductionHypothesis =>
      rcases List.mem_cons.mp inTold with rfl | inRest
      · exact unknown
      · exact @inductionHypothesis (manager.reset average) rfl inRest

theorem tells_notifyListeners
    (manager : ConnectionClassManager State Listener)
    (listeners : List Listener) :
    Tells manager.mCurrentBandwidthConnectionQuality
      (manager.notifyListeners average listeners).2 := by
  intro first rest whole
  cases listeners with
  | nil => cases whole
  | cons listener others =>
      obtain ⟨rfl, rfl⟩ := List.cons.inj whole
      refine ⟨rfl, fun call inRest => ?_⟩
      exact @notifyListeners_unknown _ _ _ (manager.reset average) rfl _ _
        inRest

/-- Telling the listeners changes neither the counter nor what is under
way. -/
theorem notifyListeners_keeps
    (manager : ConnectionClassManager State Listener)
    (listeners : List Listener) :
    (manager.notifyListeners average listeners).1.mInitiateStateChange =
        manager.mInitiateStateChange ∧
      (manager.notifyListeners average listeners).1.mSampleCounter =
        manager.mSampleCounter := by
  induction listeners generalizing manager with
  | nil => exact ⟨rfl, rfl⟩
  | cons listener rest inductionHypothesis =>
      exact inductionHypothesis (manager.reset average)

theorem notifyListeners_current
    (manager : ConnectionClassManager State Listener)
    {listeners : List Listener} (nonempty : listeners ≠ []) :
    (manager.notifyListeners average
      listeners).1.mCurrentBandwidthConnectionQuality = .unknown := by
  have further : ∀ (listeners : List Listener)
      (manager : ConnectionClassManager State Listener),
      manager.mCurrentBandwidthConnectionQuality = .unknown →
        (manager.notifyListeners average
          listeners).1.mCurrentBandwidthConnectionQuality = .unknown := by
    intro listeners
    induction listeners with
    | nil => exact fun manager unknown => unknown
    | cons listener rest inductionHypothesis =>
        exact fun manager _ => inductionHypothesis _ rfl
  cases listeners with
  | nil => exact absurd rfl nonempty
  | cons listener rest => exact further rest _ rfl

end Told

/-! ## One sample -/

section Sample

variable {State Listener : Type} {average : Average State}

/-- What a sample does to a manager that has measured it: it starts a change,
is of no interest, goes on with a change, ends one, or is the one after which
the listeners are told. -/
inductive Sampled (average : Average State)
    (measured left : ConnectionClassManager State Listener)
    (quality : ConnectionQuality) :
    List (Output Listener) → Prop
  | initiates (idle : measured.mInitiateStateChange = false)
      (differs : measured.mCurrentBandwidthConnectionQuality ≠ quality)
      (after : left = { measured with
        mInitiateStateChange := true
        mNextBandwidthConnectionQuality := some quality }) :
      Sampled average measured left quality [.sampled quality]
  | stays (idle : measured.mInitiateStateChange = false)
      (same : measured.mCurrentBandwidthConnectionQuality = quality)
      (after : left = measured) :
      Sampled average measured left quality [.sampled quality]
  | continues (under : measured.mInitiateStateChange = true)
      (same : measured.mNextBandwidthConnectionQuality = some quality)
      (waits : 5 ≤ measured.mSampleCounter + 1 →
        measured.significantlyOutsideCurrentBand average = false)
      (after : left = { measured with
        mSampleCounter := measured.mSampleCounter + 1 }) :
      Sampled average measured left quality [.sampled quality]
  | ends (under : measured.mInitiateStateChange = true)
      (differs : measured.mNextBandwidthConnectionQuality ≠ some quality)
      (after : left = { measured with
        mInitiateStateChange := false, mSampleCounter := 1 }) :
      Sampled average measured left quality [.sampled quality]
  | notifies {told : List (Listener × ConnectionQuality)}
      (under : measured.mInitiateStateChange = true)
      (same : measured.mNextBandwidthConnectionQuality = some quality)
      (enough : 5 ≤ measured.mSampleCounter + 1)
      (outside : measured.significantlyOutsideCurrentBand average = true)
      (tells : Tells quality told)
      (stopped : left.mInitiateStateChange = false)
      (counter : left.mSampleCounter = 1)
      (reset : measured.mListenerList ≠ [] →
        left.mCurrentBandwidthConnectionQuality = .unknown) :
      Sampled average measured left quality
        [.sampled quality, .notified told]

theorem current_changed {manager : ConnectionClassManager State Listener}
    {quality : ConnectionQuality}
    (next : manager.mNextBandwidthConnectionQuality = some quality) :
    manager.changed.mCurrentBandwidthConnectionQuality = quality := by
  rw [changed, next]
  rfl

theorem sampled_countSample
    {measured : ConnectionClassManager State Listener}
    (under : measured.mInitiateStateChange = true) :
    ∃ left outputs, measured.countSample average = (left, outputs) ∧
      Sampled average measured left
        (measured.getCurrentBandwidthQuality average) outputs := by
  simp only [countSample]
  by_cases same : measured.mNextBandwidthConnectionQuality =
      some (measured.getCurrentBandwidthQuality average)
  · rw [if_neg (not_not.mpr same)]
    split
    · next told =>
        refine ⟨_, _, rfl, .notifies under same told.1 told.2 ?_ ?_ ?_ ?_⟩
        · rw [← current_changed same]
          exact tells_notifyListeners _ _
        · exact (notifyListeners_keeps _ _).1
        · exact (notifyListeners_keeps _ _).2
        · exact notifyListeners_current _
    · next waits =>
        refine ⟨_, _, rfl, .continues under same ?_ rfl⟩
        intro enough
        rw [← Bool.not_eq_true]
        exact fun outside => waits ⟨enough, outside⟩
  · rw [if_pos same, if_neg fun told => absurd told.1 (by simp)]
    exact ⟨_, _, rfl, .ends under same rfl⟩

theorem sampled_checkChange
    (measured : ConnectionClassManager State Listener) :
    ∃ left outputs, measured.checkChange average = (left, outputs) ∧
      Sampled average measured left
        (measured.getCurrentBandwidthQuality average) outputs := by
  cases under : measured.mInitiateStateChange with
  | true =>
      obtain ⟨left, outputs, counted, sampled⟩ :=
        @sampled_countSample _ _ average _ under
      refine ⟨left, outputs, ?_, sampled⟩
      rw [checkChange, under, if_pos rfl, counted]
  | false =>
      by_cases same : measured.mCurrentBandwidthConnectionQuality =
          measured.getCurrentBandwidthQuality average
      · refine ⟨_, _, ?_, .stays under same rfl⟩
        rw [checkChange, under, if_neg Bool.false_ne_true,
          if_neg (not_not.mpr same)]
      · refine ⟨_, _, ?_, .initiates under same rfl⟩
        rw [checkChange, under, if_neg Bool.false_ne_true, if_pos same]

/-- A call of `addBandwidth` is garbage or one of the samples above. -/
theorem addBandwidth_cases (average : Average State)
    (manager : ConnectionClassManager State Listener)
    (bytes timeInMs : Int) :
    manager.addBandwidth average bytes timeInMs = (manager, []) ∨
      ∃ bandwidth left outputs,
        bandwidthOf bytes timeInMs = some bandwidth ∧
        manager.addBandwidth average bytes timeInMs = (left, outputs) ∧
        Sampled average (manager.measure average bandwidth) left
          ((manager.measure average bandwidth).getCurrentBandwidthQuality
            average) outputs := by
  cases counts : bandwidthOf bytes timeInMs with
  | none =>
      left
      rw [addBandwidth, counts]
  | some bandwidth =>
      right
      obtain ⟨left, outputs, checked, sampled⟩ := @sampled_checkChange _ _
        average (manager.measure average bandwidth)
      refine ⟨bandwidth, left, outputs, rfl, ?_, sampled⟩
      rw [addBandwidth, counts]
      exact checked

end Sample

/-! ## Five samples in a row -/

section Told

variable {State Listener : Type} {average : Average State}

/-- While a change is under way, the samples counted are the last ones. -/
structure Counted (manager : ConnectionClassManager State Listener)
    (samples : List ConnectionQuality) : Prop where
  idle : manager.mInitiateStateChange = false → manager.mSampleCounter ≤ 1
  under : manager.mInitiateStateChange = true → ∃ quality count,
    manager.mNextBandwidthConnectionQuality = some quality ∧
      manager.mSampleCounter ≤ count ∧ 0 < count ∧
        List.replicate count quality <:+ samples

theorem counted_new (samples : List ConnectionQuality) :
    Counted (new average : ConnectionClassManager State Listener) samples where
  idle := fun _ => Nat.zero_le 1
  under := fun under => absurd under Bool.false_ne_true

/-- A manager that differs in neither the counter nor what is under way. -/
theorem Counted.of_same {manager other : ConnectionClassManager State Listener}
    {samples : List ConnectionQuality} (counted : Counted manager samples)
    (change : other.mInitiateStateChange = manager.mInitiateStateChange)
    (next : other.mNextBandwidthConnectionQuality =
      manager.mNextBandwidthConnectionQuality)
    (counter : other.mSampleCounter = manager.mSampleCounter) :
    Counted other samples := by
  constructor
  · rw [change, counter]
    exact counted.idle
  · rw [change, next, counter]
    exact counted.under

/-- What a sample shows, after the outputs of a trace, when the listeners are
only told of five samples in a row. -/
theorem counted_sampled
    {measured left : ConnectionClassManager State Listener}
    {quality : ConnectionQuality} {outputs trace : List (Output Listener)}
    (counted : Counted measured (recent trace))
    (sampled : Sampled average measured left quality outputs) :
    Counted left (recent (trace ++ outputs)) ∧
      (outputs = [.sampled quality] ∨
        ∃ told, outputs = [.sampled quality, .notified told] ∧
          List.replicate 5 quality <:+ recent trace ++ [quality] ∧
            Tells quality told) := by
  cases sampled with
  | initiates idle differs after =>
      refine ⟨?_, Or.inl rfl⟩
      rw [recent_concat_sampled, after]
      refine ⟨fun stopped => absurd stopped Bool.true_eq_false.mp, fun _ => ?_⟩
      refine ⟨quality, 1, rfl, counted.idle idle, Nat.one_pos, ?_⟩
      exact List.suffix_append _ _
  | stays idle same after =>
      refine ⟨?_, Or.inl rfl⟩
      rw [after]
      refine ⟨counted.idle, fun under => absurd under ?_⟩
      rw [idle]
      exact Bool.false_ne_true
  | continues under same waits after =>
      refine ⟨?_, Or.inl rfl⟩
      obtain ⟨next, count, isNext, le, positive, suffix⟩ :=
        counted.under under
      obtain rfl : next = quality := Option.some.inj (isNext ▸ same)
      rw [recent_concat_sampled, after]
      refine ⟨fun stopped => ?_, fun _ => ?_⟩
      · exact absurd (under.symm.trans stopped) Bool.true_eq_false.mp
      · exact ⟨next, count + 1, isNext, Nat.succ_le_succ le, Nat.succ_pos _,
          replicate_succ_suffix_concat suffix⟩
  | ends under differs after =>
      refine ⟨?_, Or.inl rfl⟩
      rw [after]
      exact ⟨fun _ => le_rfl, fun again => absurd again Bool.false_ne_true⟩
  | @notifies told under same enough outside tells stopped counter reset =>
      obtain ⟨next, count, isNext, le, positive, suffix⟩ :=
        counted.under under
      obtain rfl : next = quality := Option.some.inj (isNext ▸ same)
      constructor
      · refine ⟨fun _ => counter.le, fun again => ?_⟩
        exact absurd (stopped.symm.trans again) Bool.false_ne_true
      · refine Or.inr ⟨told, rfl, ?_, tells⟩
        exact replicate_suffix_of_le (by omega)
          (replicate_succ_suffix_concat suffix)

/-- An output that tells the listeners of the last five samples, if it tells
them anything. -/
def TellsOfFive (before : List (Output Listener)) (output : Output Listener) :
    Prop :=
  ∀ told, output = .notified told → ∃ quality,
    List.replicate 5 quality <:+ recent before ∧ Tells quality told

theorem tellsOfFive_sampled (before : List (Output Listener))
    (quality : ConnectionQuality) : TellsOfFive before (.sampled quality) := by
  intro told same
  cases same

theorem counted_addBandwidth
    {manager : ConnectionClassManager State Listener}
    {trace : List (Output Listener)} (counted : Counted manager (recent trace))
    (every : AtEvery TellsOfFive trace) (bytes timeInMs : Int) :
    Counted (manager.addBandwidth average bytes timeInMs).1
        (recent (trace ++ (manager.addBandwidth average bytes timeInMs).2)) ∧
      AtEvery TellsOfFive
        (trace ++ (manager.addBandwidth average bytes timeInMs).2) := by
  rcases addBandwidth_cases average manager bytes timeInMs with
    garbage | ⟨bandwidth, left, outputs, -, added, sampled⟩
  · rw [garbage, List.append_nil]
    exact ⟨counted, every⟩
  · rw [added]
    have measured : Counted (manager.measure average bandwidth)
        (recent trace) := counted.of_same rfl rfl rfl
    obtain ⟨further, one | ⟨told, two, five, tells⟩⟩ :=
      counted_sampled measured sampled
    · refine ⟨further, ?_⟩
      rw [one, atEvery_concat]
      exact ⟨every, tellsOfFive_sampled trace _⟩
    · refine ⟨further, ?_⟩
      rw [two, List.append_cons, atEvery_concat, atEvery_concat,
        and_assoc]
      refine ⟨every, tellsOfFive_sampled trace _, ?_⟩
      intro others same
      obtain rfl := Output.notified.inj same
      rw [recent_concat_sampled]
      exact ⟨_, five, tells⟩

/-- Along every run the first listener is told the quality of the last five
samples, all taken since the listeners were last told, and the other listeners
that it is unknown. -/
theorem every_told_of_five [DecidableEq Listener] (average : Average State)
    (inputs : List (Input Listener)) :
    AtEvery TellsOfFive ((machine average).trace (new average) inputs) := by
  suffices both : Counted ((machine average).run (new average) inputs)
      (recent ((machine average).trace (new average) inputs)) ∧
        AtEvery TellsOfFive ((machine average).trace (new average) inputs) from
    both.2
  induction inputs using List.reverseRecOn with
  | nil => exact ⟨counted_new _, atEvery_nil _⟩
  | append_singleton before input inductionHypothesis =>
      obtain ⟨counted, every⟩ := inductionHypothesis
      rw [Mealy.run_concat, Mealy.trace_concat]
      cases input with
      | addBandwidth bytes timeInMs =>
          exact counted_addBandwidth counted every bytes timeInMs
      | reset | register | remove =>
          refine ⟨?_, by rwa [machine, List.append_nil]⟩
          rw [machine, List.append_nil]
          exact counted.of_same rfl rfl rfl

end Told

/-! ## While there is a listener -/

section Listened

variable {State Listener : Type} {average : Average State}

/-- A manager whose listeners have reset it, with the longest stretch of equal
samples it may have let pass. -/
structure Heard (manager : ConnectionClassManager State Listener)
    (samples : List ConnectionQuality) : Prop where
  current : manager.mCurrentBandwidthConnectionQuality = .unknown
  idle : manager.mInitiateStateChange = false →
    manager.mSampleCounter ≤ 1 ∧
      ∀ quality count, List.replicate count quality <:+ samples →
        count ≤ manager.mSampleCounter
  under : manager.mInitiateStateChange = true →
    manager.mSampleCounter ≤ 4 ∧
      manager.mNextBandwidthConnectionQuality = samples.getLast? ∧
        ∀ quality count, List.replicate count quality <:+ samples →
          count ≤ manager.mSampleCounter + 1

theorem eq_zero_of_replicate_suffix_nil {quality : ConnectionQuality}
    {count : Nat} (suffix : List.replicate count quality <:+ []) :
    count = 0 := by
  have length := suffix.length_le
  rwa [List.length_replicate, List.length_nil, Nat.le_zero] at length

theorem heard_new :
    Heard (new average : ConnectionClassManager State Listener) [] where
  current := rfl
  idle := fun _ => ⟨Nat.zero_le 1, fun _ _ suffix =>
    (eq_zero_of_replicate_suffix_nil suffix).le⟩
  under := fun under => absurd under Bool.false_ne_true

/-- A manager that at most forgets the current quality. -/
theorem Heard.of_same {manager other : ConnectionClassManager State Listener}
    {samples : List ConnectionQuality} (heard : Heard manager samples)
    (current : other.mCurrentBandwidthConnectionQuality = .unknown)
    (change : other.mInitiateStateChange = manager.mInitiateStateChange)
    (next : other.mNextBandwidthConnectionQuality =
      manager.mNextBandwidthConnectionQuality)
    (counter : other.mSampleCounter = manager.mSampleCounter) :
    Heard other samples := by
  refine ⟨current, ?_, ?_⟩
  · rw [change, counter]
    exact heard.idle
  · rw [change, next, counter]
    exact heard.under

theorem Heard.not_six {manager : ConnectionClassManager State Listener}
    {samples : List ConnectionQuality} (heard : Heard manager samples)
    (quality : ConnectionQuality) :
    ¬ List.replicate 6 quality <:+ samples := by
  intro six
  cases under : manager.mInitiateStateChange with
  | false =>
      obtain ⟨counter, longest⟩ := heard.idle under
      have := longest quality 6 six
      omega
  | true =>
      obtain ⟨counter, -, longest⟩ := heard.under under
      have := longest quality 6 six
      omega

/-- One more sample lengthens the last stretch by one. -/
theorem le_succ_of_replicate_suffix_concat {samples : List ConnectionQuality}
    {last quality : ConnectionQuality} {bound count : Nat}
    (longest : ∀ quality count, List.replicate count quality <:+ samples →
      count ≤ bound)
    (suffix : List.replicate count quality <:+ samples ++ [last]) :
    count ≤ bound + 1 := by
  cases count with
  | zero => exact Nat.zero_le _
  | succ less =>
      obtain ⟨-, before⟩ := suffix_of_replicate_succ_suffix suffix
      exact Nat.succ_le_succ (longest _ _ before)

/-- A sample unlike the one before it starts a new stretch. -/
theorem le_one_of_replicate_suffix_concat {samples : List ConnectionQuality}
    {last quality : ConnectionQuality} {count : Nat}
    (differs : samples.getLast? ≠ some last)
    (suffix : List.replicate count quality <:+ samples ++ [last]) :
    count ≤ 1 := by
  cases count with
  | zero => exact Nat.zero_le _
  | succ less =>
      obtain ⟨rfl, before⟩ := suffix_of_replicate_succ_suffix suffix
      by_contra long
      exact differs (getLast_of_replicate_suffix (by omega) before)

theorem heard_sampled
    {measured left : ConnectionClassManager State Listener}
    {quality : ConnectionQuality} {outputs trace : List (Output Listener)}
    (listened : measured.mListenerList ≠ []) (known : quality ≠ .unknown)
    (heard : Heard measured (recent trace))
    (sampled : Sampled average measured left quality outputs) :
    Heard left (recent (trace ++ outputs)) := by
  cases sampled with
  | initiates idle differs after =>
      obtain ⟨counter, longest⟩ := heard.idle idle
      rw [recent_concat_sampled, after]
      refine ⟨heard.current,
        fun stopped => absurd stopped Bool.true_eq_false.mp, fun _ => ?_⟩
      refine ⟨counter.trans (by decide), ?_, fun _ _ suffix => ?_⟩
      · rw [List.getLast?_concat]
      · exact le_succ_of_replicate_suffix_concat longest suffix
  | stays idle same after =>
      exact absurd (same.symm.trans heard.current) known
  | continues under same waits after =>
      obtain ⟨counter, -, longest⟩ := heard.under under
      have outside : measured.significantlyOutsideCurrentBand average =
          true := by
        rw [significantlyOutsideCurrentBand, heard.current]
        rfl
      have few : ¬ 5 ≤ measured.mSampleCounter + 1 := by
        intro enough
        exact absurd (outside.symm.trans (waits enough))
          Bool.true_eq_false.mp
      rw [recent_concat_sampled, after]
      refine ⟨heard.current, fun stopped => ?_, fun _ => ?_⟩
      · exact absurd (under.symm.trans stopped) Bool.true_eq_false.mp
      · refine ⟨by simpa using few, ?_, fun _ _ suffix => ?_⟩
        · rw [List.getLast?_concat]
          exact same
        · exact le_succ_of_replicate_suffix_concat longest suffix
  | ends under differs after =>
      obtain ⟨-, next, -⟩ := heard.under under
      rw [recent_concat_sampled, after]
      refine ⟨heard.current, fun _ => ⟨le_rfl, fun _ _ suffix => ?_⟩,
        fun again => absurd again Bool.false_ne_true⟩
      exact le_one_of_replicate_suffix_concat (next ▸ differs) suffix
  | @notifies told under same enough outside tells stopped counter reset =>
      rw [List.append_cons, recent_concat_notified]
      refine ⟨reset listened, fun _ => ⟨counter.le, fun _ _ suffix => ?_⟩,
        fun again => absurd (stopped.symm.trans again) Bool.false_ne_true⟩
      rw [eq_zero_of_replicate_suffix_nil suffix]
      exact Nat.zero_le _

theorem ten_le_of_bandwidthOf {bytes timeInMs : Int} {bandwidth : Rat}
    (counts : bandwidthOf bytes timeInMs = some bandwidth) :
    10 ≤ bandwidth := by
  rw [bandwidthOf] at counts
  split at counts
  · cases counts
  · next good =>
      obtain rfl := Option.some.inj counts
      exact not_lt.mp fun low => good (Or.inr low)

theorem mapBandwidthQuality_ne_unknown {value : Rat} (valid : 0 ≤ value) :
    mapBandwidthQuality value ≠ .unknown := by
  rw [mapBandwidthQuality, if_neg (not_lt.mpr valid)]
  split_ifs <;> decide

/-! ## Every run -/

def Input.isSample : Input Listener → Bool
  | .addBandwidth _ _ => true
  | .reset | .register _ | .remove _ => false

/-- As below, for any average that is not negative after a measurement that
counts. -/
theorem not_six_of_valid [DecidableEq Listener] (average : Average State)
    (valid : ∀ state bandwidth, 10 ≤ bandwidth →
      0 ≤ average.getAverage (average.addMeasurement state bandwidth))
    (inputs : List (Input Listener))
    (listened : AtEvery (fun before input => input.isSample →
      ((machine average).run (new average) before).mListenerList ≠ [])
      inputs)
    (quality : ConnectionQuality) :
    ¬ List.replicate 6 quality <:+
      recent ((machine average).trace (new average) inputs) := by
  suffices heard : Heard ((machine average).run (new average) inputs)
      (recent ((machine average).trace (new average) inputs)) from
    heard.not_six quality
  refine listened.induction (motive := fun inputs =>
    Heard ((machine average).run (new average) inputs)
      (recent ((machine average).trace (new average) inputs))) heard_new ?_
  intro before input heard isListened
  rw [Mealy.run_concat, Mealy.trace_concat]
  cases input with
  | addBandwidth bytes timeInMs =>
      rw [machine_addBandwidth]
      rcases addBandwidth_cases average
        ((machine average).run (new average) before) bytes timeInMs with
        garbage | ⟨bandwidth, left, outputs, counts, added, sampled⟩
      · rw [garbage, List.append_nil]
        exact heard
      · rw [added]
        refine heard_sampled ?_ ?_ ?_ sampled
        · exact isListened rfl
        · exact mapBandwidthQuality_ne_unknown
            (valid _ _ (ten_le_of_bandwidthOf counts))
        · exact heard.of_same heard.current rfl rfl rfl
  | reset =>
      rw [show ((machine average).step _ .reset).2 = [] from rfl,
        List.append_nil]
      exact heard.of_same rfl rfl rfl rfl
  | register listener =>
      rw [show ((machine average).step _ (.register listener)).2 = [] from rfl,
        List.append_nil]
      exact heard.of_same heard.current rfl rfl rfl
  | remove listener =>
      rw [show ((machine average).step _ (.remove listener)).2 = [] from rfl,
        List.append_nil]
      exact heard.of_same heard.current rfl rfl rfl

/-- While every sample has a listener, the listeners are told before a sixth
sample of one quality passes. -/
theorem not_six_in_silence [DecidableEq Listener] (math : Exponential)
    (inputs : List (Input Listener))
    (listened : AtEvery (fun before input => input.isSample →
      ((machine (exponentialGeometric math)).run
        (new (exponentialGeometric math)) before).mListenerList ≠ [])
      inputs)
    (quality : ConnectionQuality) :
    ¬ List.replicate 6 quality <:+
      recent ((machine (exponentialGeometric math)).trace
        (new (exponentialGeometric math)) inputs) := by
  refine not_six_of_valid (exponentialGeometric math) ?_ inputs listened
    quality
  intro state bandwidth ten
  exact ExponentialGeometricAverage.mValue_addMeasurement_nonneg math
    defaultDecayConstant state (le_trans (by decide) ten)

/-- Exact on averages of equal measurements. -/
def linear : Exponential where
  exp := fun value => max 0 value
  log := fun value => value
  exp_nonneg := fun value => le_max_left 0 value

/-- A listener and twelve samples of 800 bits per millisecond. -/
def twelveSamples : List (Input Unit) :=
  .register () :: List.replicate 12 (.addBandwidth 100000 1000)

/-- Told twice, the listener has missed the last sample only. -/
theorem twelveSamples_not_six :
    (¬ List.replicate 6 .good <:+
      recent ((machine (exponentialGeometric linear)).trace
        (new (exponentialGeometric linear)) twelveSamples)) ∧
      recent ((machine (exponentialGeometric linear)).trace
        (new (exponentialGeometric linear)) twelveSamples) = [.good] :=
  ⟨not_six_in_silence linear twelveSamples (by decide +kernel) .good,
    by decide +kernel⟩

end Listened

end DripStone.NetSpeed.ConnectionClassManager
