import DripStone.ImageLoad.Sessions
import DripStone.Library.JavaText

/-!
# Bodies

What the posted calls of a body report, and the end of a body that has been
read to its content length.
-/

namespace DripStone.ImageLoad

open DripStone.Library

variable {Listener : Type}

/-! ## The bytes of a body -/

/-- How many bytes the reads of a body brought, those that brought any. -/
def bytesReadBy (body : Nat) (outputs : List (Output Listener)) : List Nat :=
  outputs.filterMap fun output => match output with
    | .returned other (some bytesRead) =>
        if other = body ∧ bytesRead ≠ 0 then some bytesRead else none
    | _ => none

/-- How many bytes the posted calls of a body report. -/
def reportedBy (body : Nat) (outputs : List (Output Listener)) : List Nat :=
  outputs.filterMap fun output => match output with
    | .internalProgress other bytesRead =>
        if other = body then some bytesRead else none
    | _ => none

/-- What is known of a body after its reads and its reports: each report
counts at least the bytes of the read that posted it. -/
structure Counted (process : Process Listener) (body : Nat)
    (reads reports : List Nat) : Prop where
  missing : process.bodies[body]? = none → reads = [] ∧ reports = []
  total : ∀ source, process.bodies[body]? = some source →
    source.totalBytesRead = reads.sum ∧
      source.lastTotalBytesRead = reads.sum
  posted : reports.length + process.posted.count body = reads.length
  ordered : reports.Pairwise (· ≤ ·)
  bounds : ∀ index report, reports[index]? = some report →
    (reads.take (index + 1)).sum ≤ report ∧ report ≤ reads.sum

/-- Outputs of the bodies. -/
def Output.ofBody : Output Listener → Bool
  | .added _ _ | .onProgress _ _ _ => false
  | .returned _ _ | .internalProgress _ _ => true

/-- A step that neither reads nor reports. -/
structure Quiet (before after : Process Listener)
    (outputs : List (Output Listener)) : Prop where
  bodies : after.bodies = before.bodies
  posted : after.posted = before.posted
  silent : ∀ output ∈ outputs, output.ofBody = false

section Bodies

variable {process before between after : Process Listener}
variable {body : Nat} {reads reports : List Nat}

theorem quiet_refl : Quiet process process [] :=
  ⟨rfl, rfl, fun _ impossible => by cases impossible⟩

theorem Quiet.trans {first second : List (Output Listener)}
    (begins : Quiet before between first)
    (ends : Quiet between after second) :
    Quiet before after (first ++ second) where
  bodies := ends.bodies.trans begins.bodies
  posted := ends.posted.trans begins.posted
  silent := by
    intro output inOutputs
    rcases List.mem_append.mp inOutputs with inFirst | inSecond
    · exact begins.silent output inFirst
    · exact ends.silent output inSecond

theorem quiet_call (process : Process Listener) (listener : Listener)
    (report : Report) (made : Call Listener) :
    Quiet process (process.call listener report made).1
      (process.call listener report made).2 :=
  ⟨rfl, rfl, List.forall_mem_singleton.mpr rfl⟩

theorem quiet_goOn (process : Process Listener)
    (load : Option (UrlLoad Listener)) :
    Quiet process (process.goOn load).1 (process.goOn load).2 := by
  cases load with
  | none => exact quiet_refl
  | some load =>
      rw [Process.goOn, Process.keep]
      cases load.loadListener with
      | none => exact ⟨rfl, rfl, List.forall_mem_nil _⟩
      | some listener =>
          simp only [Process.addListener]
          split
          · exact ⟨rfl, rfl, List.forall_mem_nil _⟩
          · refine ⟨rfl, rfl, List.forall_mem_cons.mpr ⟨rfl, ?_⟩⟩
            exact List.forall_mem_singleton.mpr rfl

theorem quiet_onProgress (percentageOf : Int → Int → Int)
    (process : Process Listener) (url : Text) (bytesRead totalBytes : Int) :
    Quiet process
      (process.onProgress percentageOf url bytesRead totalBytes).1
      (process.onProgress percentageOf url bytesRead totalBytes).2 := by
  rw [Process.onProgress]
  split
  · exact quiet_refl
  · exact quiet_call _ _ _ _

theorem quiet_finished (process : Process Listener) (view : Int)
    (load : Option (UrlLoad Listener)) :
    Quiet process (process.finished view load).1
      (process.finished view load).2 := by
  rw [Process.finished]
  split
  · exact quiet_goOn process load
  · exact quiet_call _ _ _ _

theorem quiet_loadImage (process : Process Listener) (view : Int)
    (immediately : Bool) :
    Quiet process (process.loadImage view immediately).1
      (process.loadImage view immediately).2 := by
  rw [Process.loadImage]
  split
  · exact quiet_finished process view none
  · exact quiet_refl

theorem quiet_loadUrl (process : Process Listener) (view : Int) (url : Text)
    (loadListener : Option Listener) (immediately : Bool) :
    Quiet process (process.loadUrl view url loadListener immediately).1
      (process.loadUrl view url loadListener immediately).2 := by
  rw [Process.loadUrl]
  cases immediately with
  | true => exact quiet_finished process view _
  | false => exact quiet_goOn process (some ⟨view, url, loadListener⟩)

theorem quiet_returned (process : Process Listener) :
    Quiet process process.returned.1 process.returned.2 := by
  rw [Process.returned]
  split
  · exact quiet_refl
  · next made rest isCalls =>
      have removed : Quiet process (if made.removes then
          ({ process with calls := rest }).removeListener made.url
          else { process with calls := rest }) [] := by
        rw [Process.removeListener]
        split
        · split <;> exact ⟨rfl, rfl, List.forall_mem_nil _⟩
        · exact ⟨rfl, rfl, List.forall_mem_nil _⟩
      exact removed.trans (quiet_goOn _ made.load)

theorem Quiet.bytesReadBy {outputs : List (Output Listener)}
    (quiet : Quiet before after outputs) : bytesReadBy body outputs = [] := by
  rw [ImageLoad.bytesReadBy, List.filterMap_eq_nil_iff]
  intro output inOutputs
  have silent := quiet.silent output inOutputs
  cases output with
  | added | onProgress => rfl
  | returned | internalProgress => cases silent

theorem Quiet.reportedBy {outputs : List (Output Listener)}
    (quiet : Quiet before after outputs) : reportedBy body outputs = [] := by
  rw [ImageLoad.reportedBy, List.filterMap_eq_nil_iff]
  intro output inOutputs
  have silent := quiet.silent output inOutputs
  cases output with
  | added | onProgress => rfl
  | returned | internalProgress => cases silent

theorem counted_new :
    Counted (Process.new : Process Listener) body [] [] where
  missing := fun _ => ⟨rfl, rfl⟩
  total := fun _ impossible => by cases impossible
  posted := rfl
  ordered := List.Pairwise.nil
  bounds := fun _ _ impossible => by cases impossible

/-- A process with the same bodies and as many calls posted for the body. -/
theorem Counted.of_same (counted : Counted before body reads reports)
    (bodies : after.bodies[body]? = before.bodies[body]?)
    (posted : after.posted.count body = before.posted.count body) :
    Counted after body reads reports where
  missing := bodies ▸ counted.missing
  total := bodies ▸ counted.total
  posted := posted ▸ counted.posted
  ordered := counted.ordered
  bounds := counted.bounds

theorem Counted.opened (counted : Counted process body reads reports)
    (url : Text) (contentLength : Int) :
    Counted { process with
      bodies := process.bodies ++ [⟨url, contentLength, 0, 0⟩] } body reads
      reports where
  missing := by
    intro beyond
    apply counted.missing
    rw [List.getElem?_eq_none_iff] at beyond ⊢
    rw [List.length_append] at beyond
    omega
  total := by
    intro source atBody
    cases earlier : process.bodies[body]? with
    | some old =>
        rw [List.getElem?_append_left
          (List.getElem?_eq_some_iff.mp earlier).1] at atBody
        exact counted.total source atBody
    | none =>
        have inside := (List.getElem?_eq_some_iff.mp atBody).1
        rw [List.length_append, List.length_singleton] at inside
        have beyond := List.getElem?_eq_none_iff.mp earlier
        rw [show body = process.bodies.length by omega,
          List.getElem?_concat_length] at atBody
        rw [(counted.missing earlier).1, ← Option.some.inj atBody]
        exact ⟨rfl, rfl⟩
  posted := counted.posted
  ordered := counted.ordered
  bounds := counted.bounds

/-- A read that brings bytes is posted. -/
theorem Counted.read {source : ProgressResponseBody}
    (counted : Counted process body reads reports)
    (atBody : process.bodies[body]? = some source) (bytesRead : Nat) :
    Counted { process with
      bodies := process.bodies.set body { source with
        totalBytesRead := source.totalBytesRead + bytesRead
        lastTotalBytesRead := source.totalBytesRead + bytesRead }
      posted := process.posted ++ [body] } body (reads ++ [bytesRead])
      reports where
  missing := by
    intro missing
    rw [List.getElem?_set_self (List.getElem?_eq_some_iff.mp atBody).1]
      at missing
    cases missing
  total := by
    intro other atBody'
    rw [List.getElem?_set_self (List.getElem?_eq_some_iff.mp atBody).1]
      at atBody'
    rw [← Option.some.inj atBody', List.sum_append, List.sum_singleton,
      (counted.total source atBody).1]
    exact ⟨rfl, rfl⟩
  posted := by
    rw [List.count_append, List.count_singleton_self, List.length_append,
      List.length_singleton, ← counted.posted]
    omega
  ordered := counted.ordered
  bounds := by
    intro index report isReport
    obtain ⟨low, high⟩ := counted.bounds index report isReport
    have inReports := (List.getElem?_eq_some_iff.mp isReport).1
    have inReads : index + 1 ≤ reads.length := by
      have := counted.posted
      omega
    rw [List.take_append_of_le_length inReads, List.sum_append]
    exact ⟨low, high.trans (Nat.le_add_right _ _)⟩

/-- A posted call reports all that has been read by now. -/
theorem Counted.reported {rest : List Nat} {source : ProgressResponseBody}
    (counted : Counted process body reads reports)
    (isPosted : process.posted = body :: rest)
    (atBody : process.bodies[body]? = some source) :
    Counted { process with posted := rest } body reads
      (reports ++ [source.totalBytesRead]) where
  missing := by
    intro missing
    rw [atBody] at missing
    cases missing
  total := counted.total
  posted := by
    have before := counted.posted
    rw [isPosted, List.count_cons_self] at before
    rw [List.length_append, List.length_singleton, ← before, Nat.add_assoc,
      Nat.add_comm 1]
  ordered := by
    rw [List.pairwise_append]
    refine ⟨counted.ordered, List.pairwise_singleton _ _, ?_⟩
    intro report inReports last isLast
    obtain ⟨index, isReport⟩ := List.getElem?_of_mem inReports
    rw [List.mem_singleton.mp isLast, (counted.total source atBody).1]
    exact (counted.bounds index report isReport).2
  bounds := by
    intro index report isReport
    rcases Nat.lt_or_ge index reports.length with before | atEnd
    · rw [List.getElem?_append_left before] at isReport
      exact counted.bounds index report isReport
    · have inside := (List.getElem?_eq_some_iff.mp isReport).1
      rw [List.length_append, List.length_singleton] at inside
      rw [show index = reports.length by omega,
        List.getElem?_concat_length] at isReport
      rw [← Option.some.inj isReport, (counted.total source atBody).1]
      refine ⟨?_, le_rfl⟩
      exact List.Sublist.sum_le_sum (List.take_sublist _ _)
        (fun _ _ => Nat.zero_le _)

theorem bytesReadBy_append (first second : List (Output Listener)) :
    bytesReadBy body (first ++ second) =
      bytesReadBy body first ++ bytesReadBy body second :=
  List.filterMap_append

theorem reportedBy_append (first second : List (Output Listener)) :
    reportedBy body (first ++ second) =
      reportedBy body first ++ reportedBy body second :=
  List.filterMap_append

theorem Counted.quiet {outputs : List (Output Listener)}
    (counted : Counted before body reads reports)
    (quiet : Quiet before after outputs) :
    Counted after body (reads ++ bytesReadBy body outputs)
      (reports ++ reportedBy body outputs) := by
  rw [quiet.bytesReadBy, quiet.reportedBy, List.append_nil, List.append_nil]
  exact counted.of_same (by rw [quiet.bodies]) (by rw [quiet.posted])

theorem counted_read_self (counted : Counted process body reads reports)
    (bytesRead : Option Nat) :
    Counted (process.read body bytesRead).1 body
      (reads ++ bytesReadBy body (process.read body bytesRead).2)
      (reports ++ reportedBy body (process.read body bytesRead).2) := by
  rw [Process.read]
  cases atBody : process.bodies[body]? with
  | none => exact counted.quiet quiet_refl
  | some source =>
      obtain ⟨total, last⟩ := counted.total source atBody
      by_cases brings : bytesRead.getD 0 = 0
      · have silent : bytesReadBy body
            [(.returned body bytesRead : Output Listener)] = [] := by
          cases bytesRead with
          | none => rfl
          | some count => simpa [bytesReadBy] using brings
        simp only [brings, Nat.add_zero, total, last, ne_eq,
          not_true_eq_false, if_false, silent, List.append_nil]
        simpa [reportedBy] using counted
      · obtain ⟨count, rfl⟩ : ∃ count, bytesRead = some count := by
          cases bytesRead with
          | none => exact absurd rfl brings
          | some count => exact ⟨count, rfl⟩
        rw [Option.getD_some] at brings
        have more : source.lastTotalBytesRead ≠
            source.totalBytesRead + count := by
          rw [total, last]
          omega
        simp only [Option.getD_some, if_pos more]
        have posted := counted.read atBody count
        simpa [bytesReadBy, reportedBy, brings] using posted

theorem counted_read_of_ne (counted : Counted process body reads reports)
    {other : Nat} (different : other ≠ body) (bytesRead : Option Nat) :
    Counted (process.read other bytesRead).1 body
      (reads ++ bytesReadBy body (process.read other bytesRead).2)
      (reports ++ reportedBy body (process.read other bytesRead).2) := by
  rw [Process.read]
  cases atOther : process.bodies[other]? with
  | none => exact counted.quiet quiet_refl
  | some source =>
      have silent : bytesReadBy body
          [(.returned other bytesRead : Output Listener)] = [] := by
        cases bytesRead <;> simp [bytesReadBy, different]
      simp only
      split
      · rw [silent, List.append_nil]
        have others : Counted { process with
            bodies := process.bodies.set other { source with
              totalBytesRead := source.totalBytesRead + bytesRead.getD 0
              lastTotalBytesRead :=
                source.totalBytesRead + bytesRead.getD 0 }
            posted := process.posted ++ [other] } body reads reports := by
          apply counted.of_same
          · exact List.getElem?_set_ne different
          · rw [List.count_append, List.count_singleton, beq_false_of_ne
              different, if_neg Bool.false_ne_true, Nat.add_zero]
        simpa [reportedBy] using others
      · rw [silent, List.append_nil]
        simpa [reportedBy] using counted

theorem counted_read (counted : Counted process body reads reports)
    (other : Nat) (bytesRead : Option Nat) :
    Counted (process.read other bytesRead).1 body
      (reads ++ bytesReadBy body (process.read other bytesRead).2)
      (reports ++ reportedBy body (process.read other bytesRead).2) := by
  by_cases same : other = body
  · subst same
    exact counted_read_self counted bytesRead
  · exact counted_read_of_ne counted same bytesRead

theorem counted_runPosted (percentageOf : Int → Int → Int)
    (counted : Counted process body reads reports) :
    Counted (process.runPosted percentageOf).1 body
      (reads ++ bytesReadBy body (process.runPosted percentageOf).2)
      (reports ++ reportedBy body (process.runPosted percentageOf).2) := by
  rw [Process.runPosted]
  split
  · next other rest noCall isPosted =>
      cases atOther : process.bodies[other]? with
      | none => exact counted.quiet quiet_refl
      | some source =>
          have called := quiet_onProgress percentageOf
            { process with posted := rest } source.url
            source.totalBytesRead source.contentLength
          by_cases same : other = body
          · subst same
            have reported :=
              (counted.reported isPosted atOther).quiet called
            simpa [bytesReadBy, reportedBy] using reported
          · have fewer : Counted { process with posted := rest } body reads
                reports := by
              refine counted.of_same (by rfl) ?_
              rw [isPosted, List.count_cons_of_ne same]
            simpa [bytesReadBy, reportedBy, same] using fewer.quiet called
  · exact counted.quiet quiet_refl

theorem counted_step (percentageOf : Int → Int → Int)
    (counted : Counted process body reads reports)
    (event : Event Listener) :
    Counted (process.step percentageOf event).1 body
      (reads ++ bytesReadBy body (process.step percentageOf event).2)
      (reports ++ reportedBy body (process.step percentageOf event).2) := by
  cases event with
  | loadUrl view url loadListener immediately =>
      exact counted.quiet
        (quiet_loadUrl process view url loadListener immediately)
  | loadImage view immediately =>
      exact counted.quiet (quiet_loadImage process view immediately)
  | finished view => exact counted.quiet (quiet_finished process view none)
  | returned => exact counted.quiet (quiet_returned process)
  | opened url contentLength =>
      have opened := counted.opened url contentLength
      simpa [Process.step, bytesReadBy, reportedBy] using opened
  | read other bytesRead => exact counted_read counted other bytesRead
  | runPosted => exact counted_runPosted percentageOf counted

theorem counted_run (percentageOf : Int → Int → Int)
    (events : List (Event Listener)) (body : Nat) :
    Counted ((loading percentageOf).run .new events) body
      (bytesReadBy body ((loading percentageOf).trace .new events))
      (reportedBy body ((loading percentageOf).trace .new events)) := by
  induction events using List.reverseRecOn with
  | nil => exact counted_new
  | append_singleton before event inductionHypothesis =>
      rw [Mealy.run_concat, Mealy.trace_concat, bytesReadBy_append,
        reportedBy_append]
      exact counted_step percentageOf inductionHypothesis event

end Bodies

/-- The posted calls of a body never report less than was read when they were
posted, go up, and report all of it once none of them waits. -/
theorem reports_of_body (percentageOf : Int → Int → Int)
    (events : List (Event Listener)) (body : Nat) :
    let process := (loading percentageOf).run .new events
    let reads := bytesReadBy body ((loading percentageOf).trace .new events)
    let reports := reportedBy body ((loading percentageOf).trace .new events)
    reports.length + process.posted.count body = reads.length ∧
      reports.Pairwise (· ≤ ·) ∧
        (∀ index report, reports[index]? = some report →
          (reads.take (index + 1)).sum ≤ report ∧ report ≤ reads.sum) ∧
          (body ∉ process.posted → reads ≠ [] →
            reports.getLast? = some reads.sum) := by
  intro process reads reports
  have counted : Counted process body reads reports :=
    counted_run percentageOf events body
  refine ⟨counted.posted, counted.ordered, counted.bounds, ?_⟩
  intro absent nonempty
  have all : reports.length = reads.length := by
    rw [← counted.posted, List.count_eq_zero_of_not_mem absent, Nat.add_zero]
  have positive := List.length_pos_iff.mpr nonempty
  obtain ⟨report, isLast⟩ : ∃ report,
      reports[reports.length - 1]? = some report :=
    ⟨_, List.getElem?_eq_getElem (by omega)⟩
  obtain ⟨low, high⟩ := counted.bounds _ _ isLast
  rw [show reports.length - 1 + 1 = reads.length by omega,
    List.take_length] at low
  rw [List.getLast?_eq_getElem?, isLast, le_antisymm high low]

/-! ## The end of a body -/

/-- Rounding to a `float`, which is monotone and exact for one and hundred. -/
structure FloatRounding where
  round : Rat → Rat
  monotone : Monotone round
  round_one : round 1 = 1
  round_hundred : round 100 = 100

namespace FloatRounding

variable (float : FloatRounding)

/-- `(int) ((bytesRead * 1f / totalBytes) * 100f)`; a division by zero gives an
infinity or no number. -/
def percentageOf (bytesRead totalBytes : Int) : Int :=
  if totalBytes = 0 then
    if 0 < bytesRead then 2 ^ 31 - 1
    else if bytesRead < 0 then -2 ^ 31
    else 0
  else
    castToInt (float.round
      (float.round (float.round bytesRead / float.round totalBytes) * 100))

/-- A body that has been read to its length is complete. -/
theorem hundred_le_percentageOf {bytesRead totalBytes : Int}
    (known : 0 < totalBytes) (whole : totalBytes ≤ bytesRead) :
    100 ≤ float.percentageOf bytesRead totalBytes := by
  have one : (1 : Rat) ≤ float.round totalBytes := by
    rw [← float.round_one]
    exact float.monotone (by exact_mod_cast known)
  have more : float.round totalBytes ≤ float.round bytesRead :=
    float.monotone (by exact_mod_cast whole)
  have ratio : 1 ≤ float.round (float.round bytesRead /
      float.round totalBytes) := by
    rw [← float.round_one]
    apply float.monotone
    rwa [one_le_div (one_pos.trans_le one)]
  rw [percentageOf, if_neg known.ne']
  apply le_castToInt (by decide) (by decide)
  rw [Int.cast_ofNat, ← float.round_hundred]
  apply float.monotone
  rw [float.round_hundred]
  linarith

end FloatRounding

section Whole

variable {percentageOf : Int → Int → Int}

theorem waiting_onProgress (process : Process Listener) {url : Text}
    {bytesRead totalBytes : Int}
    (whole : 100 ≤ percentageOf bytesRead totalBytes) :
    (process.onProgress percentageOf url bytesRead
      totalBytes).1.waiting url = none := by
  rw [Process.onProgress]
  cases kept : process.getProgressListener url with
  | none =>
      rw [Process.waiting, kept]
      exact ite_self _
  | some listener =>
      rw [Process.waiting, removing_call, decide_eq_true whole,
        decide_eq_true rfl, Bool.and_true, Bool.true_or, if_pos rfl]

theorem waiting_runPosted {process : Process Listener} {body : Nat}
    {rest : List Nat} {source : ProgressResponseBody}
    (idle : process.calls = []) (isPosted : process.posted = body :: rest)
    (atBody : process.bodies[body]? = some source)
    (whole : 100 ≤ percentageOf source.totalBytesRead
      source.contentLength) :
    (process.runPosted percentageOf).1.waiting source.url = none := by
  rw [Process.runPosted, idle, isPosted]
  simp only [atBody]
  exact waiting_onProgress _ whole

end Whole

/-- Once the main looper reports a body that is read to its content length,
only the listeners that are added later are told anything under its url. -/
theorem told_after_whole (float : FloatRounding)
    (before after : List (Event Listener)) {body : Nat} {rest : List Nat}
    {source : ProgressResponseBody}
    (idle : ((loading float.percentageOf).run .new before).calls = [])
    (isPosted : ((loading float.percentageOf).run .new before).posted =
      body :: rest)
    (atBody : ((loading float.percentageOf).run .new before).bodies[body]? =
      some source)
    (known : 0 < source.contentLength)
    (whole : source.contentLength ≤ source.totalBytesRead)
    (keptApart : KeptApart float.percentageOf
      ((loading float.percentageOf).run .new (before ++ [.runPosted]))
      after) :
    InSessions
      (((loading float.percentageOf).run .new
        (before ++ .runPosted :: after)).waiting source.url)
      (toldUnder source.url ((loading float.percentageOf).trace
        ((loading float.percentageOf).run .new (before ++ [.runPosted]))
        after))
      (addedUnder source.url ((loading float.percentageOf).trace
        ((loading float.percentageOf).run .new (before ++ [.runPosted]))
        after)) := by
  rw [List.append_cons, Mealy.run_append]
  apply tells_run keptApart source.url [] []
  have noneWaits : ((loading float.percentageOf).run .new
      (before ++ [.runPosted])).waiting source.url = none := by
    rw [Mealy.run_concat]
    exact waiting_runPosted idle isPosted atBody
      (float.hundred_le_percentageOf known whole)
  rw [noneWaits]
  exact inSessions_nil

/-- Floats that round nothing. -/
def unrounded : FloatRounding where
  round := id
  monotone := monotone_id
  round_one := rfl
  round_hundred := rfl

/-- A listener, and a body of four bytes that are read at once. -/
def oneBody : List (Event Nat) :=
  [.loadUrl 1 ['u'] (some 0) false, .returned, .opened ['u'] 4,
    .read 0 (some 4)]

/-- A second listener, added when the first has been told of the end. -/
def secondLoad : List (Event Nat) :=
  [.returned, .loadUrl 2 ['u'] (some 1) false]

theorem oneBody_told_after :
    InSessions
        (((loading unrounded.percentageOf).run .new
          (oneBody ++ .runPosted :: secondLoad)).waiting ['u'])
        (toldUnder ['u'] ((loading unrounded.percentageOf).trace
          ((loading unrounded.percentageOf).run .new (oneBody ++ [.runPosted]))
          secondLoad))
        (addedUnder ['u'] ((loading unrounded.percentageOf).trace
          ((loading unrounded.percentageOf).run .new (oneBody ++ [.runPosted]))
          secondLoad)) ∧
      toldUnder ['u'] ((loading unrounded.percentageOf).trace .new
        (oneBody ++ .runPosted :: secondLoad)) =
          [(0, ⟨false, 1, 0, 0⟩), (0, ⟨true, 100, 4, 4⟩),
            (1, ⟨false, 1, 0, 0⟩)] :=
  ⟨told_after_whole unrounded oneBody secondLoad rfl rfl rfl (by decide)
      (by decide) (by decide +kernel),
    by decide +kernel⟩

end DripStone.ImageLoad
