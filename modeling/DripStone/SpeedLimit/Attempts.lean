import DripStone.SpeedLimit.RequestBody

/-!
# The calls of `writeTo`

A call on a new object writes the whole body or fails.  The first call keeps
its wrapper and closes it, so that a later one can only return if the body
writes nothing.
-/

namespace DripStone.SpeedLimit

open DripStone.Library
open DripStone.Library.Action
open DripStone.BufferedSink

/-! ## What a call that returns has written -/

/-- The bytes have been taken and the wrapper is as open as before. -/
def Wrote (bytes : List JByte) (before after : Stream) : Prop :=
  after.taken = before.taken ++ bytes ∧
    after.wrapper.isOpen = before.wrapper.isOpen

section Written

variable {okio : Okio} {mSpeedByte : Int} {network : Network}
variable {first second : List JByte} {α β : Type}

theorem Wrote.refl (stream : Stream) : Wrote [] stream stream :=
  ⟨(List.append_nil _).symm, rfl⟩

theorem Wrote.trans {before middle after : Stream}
    (earlier : Wrote first before middle) (later : Wrote second middle after) :
    Wrote (first ++ second) before after := by
  refine ⟨?_, later.2.trans earlier.2⟩
  rw [later.1, earlier.1, List.append_assoc]

theorem wrote_bind {action : Call α} {next : α → Call β}
    (atFirst : Returns (Wrote first) action)
    (atNext : ∀ value, Returns (Wrote second) (next value)) :
    Returns (Wrote (first ++ second)) (action >>= next) :=
  returns_bind (fun _ _ _ earlier later => earlier.trans later) atFirst atNext

theorem wrote_forM {items : List α} {bytes : α → List JByte}
    {body : α → Call PUnit}
    (each : ∀ item, Returns (Wrote (bytes item)) (body item)) :
    Returns (Wrote (items.flatMap bytes)) (forM items body) := by
  induction items with
  | nil => exact returns_pure Wrote.refl PUnit.unit
  | cons item rest inductionHypothesis =>
      rw [List.forM_cons, List.flatMap_cons]
      exact wrote_bind (each item) fun _ => inductionHypothesis

theorem forward_ok {byteCount : Nat} {stream left : Stream} {value : Unit}
    (returned : forward mSpeedByte network byteCount stream =
      .ok value left) :
    left.target.written =
        stream.target.written ++ stream.wrapper.buffer.take byteCount ∧
      left.wrapper.buffer = stream.wrapper.buffer.drop byteCount ∧
      left.wrapper.isOpen = stream.wrapper.isOpen := by
  simp only [forward] at returned
  split at returned
  · cases returned
  · split at returned
    · cases returned
    · cases returned
      exact ⟨rfl, rfl, rfl⟩

theorem wrote_forward (byteCount : Nat) :
    Returns (Wrote []) (forward mSpeedByte network byteCount) := by
  intro stream value left returned
  obtain ⟨written, buffer, sameOpen⟩ := forward_ok returned
  refine ⟨?_, sameOpen⟩
  rw [Stream.taken, written, buffer, List.append_assoc, List.take_append_drop,
    List.append_nil, Stream.taken]

theorem wrote_forwardSome (byteCount : Nat) :
    Returns (Wrote []) (forwardSome mSpeedByte network byteCount) := by
  rw [forwardSome]
  split
  · exact returns_pure Wrote.refl ()
  · exact wrote_forward byteCount

theorem wrote_forwardFlush : Returns (Wrote []) (forwardFlush network) := by
  intro stream value left returned
  simp only [forwardFlush] at returned
  split at returned
  · cases returned
  · split at returned
    · cases returned
    · cases returned
      exact ⟨(List.append_nil _).symm, rfl⟩

theorem wrote_checkOpen : Returns (Wrote []) checkOpen := by
  intro stream value left returned
  simp only [checkOpen] at returned
  split at returned
  · cases returned
    exact Wrote.refl stream
  · cases returned

theorem wrote_append (bytes : List JByte) :
    Returns (Wrote bytes) (append bytes) := by
  intro stream value left returned
  cases returned
  exact ⟨(List.append_assoc _ _ _).symm, rfl⟩

theorem wrote_bufferSize : Returns (Wrote []) bufferSize := by
  intro stream value left returned
  cases returned
  exact Wrote.refl stream

theorem wrote_completeSegmentByteCount :
    Returns (Wrote []) (completeSegmentByteCount okio) := by
  intro stream value left returned
  cases returned
  exact ⟨(List.append_nil _).symm, rfl⟩

theorem wrote_emitSegments :
    Returns (Wrote []) (emitSegments okio mSpeedByte network) :=
  wrote_bind wrote_checkOpen fun _ =>
    wrote_bind wrote_completeSegmentByteCount wrote_forwardSome

theorem wrote_emit : Returns (Wrote []) (emit mSpeedByte network) :=
  wrote_bind wrote_checkOpen fun _ =>
    wrote_bind wrote_bufferSize wrote_forwardSome

theorem wrote_emitCompleteSegments :
    Returns (Wrote []) (emitCompleteSegments mSpeedByte network) :=
  wrote_bind wrote_bufferSize wrote_forward

theorem wrote_append_then {bytes : List JByte} {rest : Call Unit}
    (nothing : Returns (Wrote []) rest) :
    Returns (Wrote bytes) (do append bytes; rest) := by
  have whole := wrote_bind (wrote_append bytes) fun _ => nothing
  rwa [List.append_nil] at whole

theorem wrote_writeFrom (source : Source) (rest : List JByte)
    (byteCount : Nat) :
    Returns (Wrote (rest.take byteCount))
      (writeFrom okio mSpeedByte network source rest byteCount) := by
  fun_induction writeFrom okio mSpeedByte network source rest byteCount with
  | case1 rest => exact returns_pure Wrote.refl ()
  | case2 byteCount asked => exact returns_throw _
  | case3 rest byteCount asked more inductionHypothesis =>
      have few := source.length_delivered_le rest byteCount
      have same : rest.take byteCount =
          source.delivered rest byteCount ++ ([] ++
            (source.left rest byteCount).take
              (byteCount - (source.delivered rest byteCount).length)) := by
        conv_lhs => rw [← source.delivered_append_left rest byteCount]
        rw [List.take_append, List.take_of_length_le few, List.nil_append]
      rw [same]
      exact wrote_bind (wrote_append _) fun _ =>
        wrote_bind wrote_emitSegments fun _ => inductionHypothesis

theorem wrote_readAll (source : Source) {mByteCount : Nat}
    (positive : 0 < mByteCount) (rest : List JByte) :
    Returns (Wrote rest)
      (readAll mSpeedByte network source mByteCount positive rest) := by
  fun_induction readAll mSpeedByte network source mByteCount positive rest
    with
  | case1 => exact returns_pure Wrote.refl ()
  | case2 rest more inductionHypothesis =>
      conv in Wrote rest =>
        rw [← source.delivered_append_left rest mByteCount,
          ← List.nil_append (source.left rest mByteCount)]
      exact wrote_bind (wrote_append _) fun _ =>
        wrote_bind wrote_emitCompleteSegments fun _ => inductionHypothesis

theorem wrote_writePart {mByteCount : Nat} (positive : 0 < mByteCount)
    (source : List JByte) :
    Returns (Wrote source)
      (writePart mSpeedByte network mByteCount source) := by
  have loop := @wrote_forM Nat
    (List.range (ByteCountBufferedSink.count mByteCount source))
    (ByteCountBufferedSink.chunk mByteCount source) _ fun i =>
      wrote_append_then (@wrote_emitCompleteSegments mSpeedByte network)
  rw [ByteCountBufferedSink.chunks_eq positive] at loop
  exact wrote_bind wrote_checkOpen fun _ => loop

/-- Spec lemma: what a call of the wrapper has written if it returns. -/
theorem wrote_perform (op : Op) :
    Returns (Wrote (op.writtenWhole okio))
      (perform okio mSpeedByte network op) := by
  cases op with
  | writeValue value =>
      exact wrote_bind wrote_checkOpen fun _ =>
        wrote_append_then wrote_emitSegments
  | writePart source offset byteCount inRange =>
      exact wrote_writePart (by decide) source
  | writeSource source byteCount =>
      exact wrote_writeFrom source source.bytes byteCount
  | writeAll source => exact wrote_readAll source (by decide) source.bytes
  | emit => exact wrote_emit
  | emitCompleteSegments => exact wrote_emitCompleteSegments
  | flush => exact wrote_bind wrote_emit fun _ => wrote_forwardFlush

/-- A `close` of an open wrapper that returns leaves nothing in the buffer. -/
theorem close_ok {stream left : Stream} (isOpen : stream.wrapper.isOpen = true)
    (returned : close mSpeedByte network stream = .ok () left) :
    left.target.written = stream.taken := by
  have closesTarget : ∀ {before after : Stream} {value : Unit},
      forwardClose network before = .ok value after →
        after.target.written = before.target.written := by
    intro before after value closed
    simp only [forwardClose] at closed
    split at closed
    · cases closed
      rfl
    · split at closed
      · cases closed
      · cases closed
        rfl
  have emptied : ∀ {after : Stream} {value : Unit},
      forwardSome mSpeedByte network stream.wrapper.buffer.length stream =
        .ok value after → after.target.written = stream.taken := by
    intro after value forwarded
    rw [forwardSome] at forwarded
    split at forwarded
    · next isEmpty =>
        cases forwarded
        rw [Stream.taken, List.eq_nil_of_length_eq_zero isEmpty,
          List.append_nil]
    · rw [(forward_ok forwarded).1, List.take_length, Stream.taken]
  simp only [close, isOpen, Bool.true_eq_false, if_false] at returned
  split at returned
  · next left forwarded =>
      split at returned
      · next after closed =>
          cases returned
          exact (closesTarget closed).trans (emptied forwarded)
      · cases returned
  · cases returned

/-- What a call with an open wrapper has written if it returns. -/
theorem writeBody_ok {body : List Op} {stream left : Stream}
    (isOpen : stream.wrapper.isOpen = true)
    (returned : writeBody okio mSpeedByte network body stream =
      .ok () left) :
    left.target.written =
      stream.taken ++ body.flatMap (Op.writtenWhole okio) := by
  obtain ⟨_, middle, performed, closed⟩ := bind_eq_ok_iff.mp returned
  have wrote := @wrote_forM Op body (Op.writtenWhole okio) _ wrote_perform
    stream _ middle performed
  rw [close_ok (wrote.2.trans isOpen) closed, wrote.1]

/-! ## Bodies that end early -/

theorem writeFrom_of_short (source : Source) {rest : List JByte}
    {byteCount : Nat} (short : rest.length < byteCount) :
    Returns (fun _ _ => False)
      (writeFrom okio mSpeedByte network source rest byteCount) := by
  fun_induction writeFrom okio mSpeedByte network source rest byteCount with
  | case1 rest => exact absurd short (Nat.not_lt_zero _)
  | case2 byteCount asked => exact returns_throw _
  | case3 rest byteCount asked more inductionHypothesis =>
      have lengths := congrArg List.length
        (source.delivered_append_left rest byteCount)
      have few := source.length_delivered_le rest byteCount
      rw [List.length_append] at lengths
      apply returns_bind (fun _ _ _ _ impossible => impossible)
        (wrote_append _)
      intro _
      apply returns_bind (fun _ _ _ _ impossible => impossible)
        wrote_emitSegments
      intro _
      exact inductionHypothesis (by omega)

/-- A body with a source that ends early is not written by any call. -/
theorem writeBody_of_short {body : List Op} {op : Op} (inBody : op ∈ body)
    (short : Short op) :
    Returns (fun _ _ => False)
      (writeBody okio mSpeedByte network body) := by
  have never : Returns (fun _ _ => False)
      (perform okio mSpeedByte network op) := by
    cases op with
    | writeSource source byteCount => exact writeFrom_of_short source short
    | writeValue | writePart | writeAll | emit | emitCompleteSegments
      | flush => exact absurd short id
  have loop : Returns (fun _ _ => False)
      (forM body (perform okio mSpeedByte network)) := by
    induction body with
    | nil => exact absurd inBody List.not_mem_nil
    | cons first rest inductionHypothesis =>
        rw [List.forM_cons]
        rcases List.mem_cons.mp inBody with rfl | inRest
        · exact returns_bind (fun _ _ _ impossible _ => impossible) never
            fun _ => wrote_forM wrote_perform
        · exact returns_bind (fun _ _ _ _ impossible => impossible)
            (wrote_perform first) fun _ => inductionHypothesis inRest
  intro stream value left returned
  obtain ⟨_, middle, performed, _⟩ := bind_eq_ok_iff.mp returned
  exact loop stream _ middle performed

end Written

/-! ## Bodies that write nothing -/

section Silence

variable {okio : Okio} {mSpeedByte : Int} {network : Network}

theorem perform_of_silent {op : Op} (silent : Silent op) (stream : Stream) :
    perform okio mSpeedByte network op stream = .ok () stream := by
  cases op with
  | writeSource source byteCount =>
      have nothing : perform okio mSpeedByte network
          (.writeSource source byteCount) = pure () := by
        rw [perform, writeFrom]
        exact if_pos silent
      rw [nothing]
      rfl
  | writeAll source =>
      have nothing : perform okio mSpeedByte network (.writeAll source) =
          pure () := by
        rw [perform, readAll]
        exact if_pos silent
      rw [nothing]
      rfl
  | writeValue | writePart | emit | emitCompleteSegments | flush =>
      exact absurd silent id

theorem written_of_silent {op : Op} (silent : Silent op) :
    op.written okio = [] ∧ op.Whole := by
  cases op with
  | writeSource source byteCount =>
      have nothing : byteCount = 0 := silent
      exact ⟨by rw [Op.written, nothing, List.take_zero], trivial⟩
  | writeAll source => exact ⟨silent, trivial⟩
  | writeValue | writePart | emit | emitCompleteSegments | flush =>
      exact absurd silent id

theorem writeBody_of_silent {body : List Op}
    (silent : ∀ op ∈ body, Silent op) (stream : Stream) :
    writeBody okio mSpeedByte network body stream =
      close mSpeedByte network stream := by
  have loop : forM body (perform okio mSpeedByte network) stream =
      .ok () stream := by
    induction body with
    | nil => rfl
    | cons op rest inductionHypothesis =>
        rw [List.forM_cons,
          bind_of_ok (perform_of_silent (silent op List.mem_cons_self) stream)]
        exact inductionHypothesis fun other inRest =>
          silent other (List.mem_cons_of_mem op inRest)
  rw [writeBody, bind_of_ok loop]

end Silence

/-! ## A network that never fails -/

/-- Every call is answered, and `close` closes. -/
def reliable : Network where
  fails := fun _ => false
  uptimeMillis := fun time => time + 1
  closes := true

/-- The wrapper and its sink are open, or both closed. -/
def BothOpen (isOpen : Bool) (stream : Stream) : Prop :=
  stream.wrapper.isOpen = isOpen ∧ stream.target.isOpen = isOpen

section Reliable

variable {okio : Okio} {mSpeedByte : Int}

theorem stays_forward (byteCount : Nat) :
    Stays (BothOpen true) (forward mSpeedByte reliable byteCount) := by
  intro stream isOpen
  simp only [forward, isOpen.2, reliable, Bool.true_eq_false, if_false,
    Bool.false_eq_true]
  exact ⟨(), _, rfl, isOpen.1, rfl⟩

theorem stays_forwardSome (byteCount : Nat) :
    Stays (BothOpen true) (forwardSome mSpeedByte reliable byteCount) := by
  rw [forwardSome]
  split
  · exact stays_pure ()
  · exact stays_forward byteCount

theorem stays_forwardFlush :
    Stays (BothOpen true) (forwardFlush reliable) := by
  intro stream isOpen
  simp only [forwardFlush, isOpen.2, reliable, Bool.true_eq_false, if_false,
    Bool.false_eq_true]
  exact ⟨(), _, rfl, isOpen.1, rfl⟩

theorem stays_checkOpen : Stays (BothOpen true) checkOpen :=
  fun stream isOpen => ⟨(), stream, by rw [checkOpen, if_pos isOpen.1],
    isOpen⟩

theorem stays_append (bytes : List JByte) :
    Stays (BothOpen true) (append bytes) :=
  fun _ isOpen => ⟨(), _, rfl, isOpen.1, isOpen.2⟩

theorem stays_bufferSize : Stays (BothOpen true) bufferSize :=
  fun stream isOpen => ⟨_, stream, rfl, isOpen⟩

theorem stays_completeSegmentByteCount :
    Stays (BothOpen true) (completeSegmentByteCount okio) :=
  fun _ isOpen => ⟨_, _, rfl, isOpen.1, isOpen.2⟩

theorem stays_emitSegments :
    Stays (BothOpen true) (emitSegments okio mSpeedByte reliable) :=
  stays_bind stays_checkOpen fun _ =>
    stays_bind stays_completeSegmentByteCount stays_forwardSome

theorem stays_emit : Stays (BothOpen true) (emit mSpeedByte reliable) :=
  stays_bind stays_checkOpen fun _ =>
    stays_bind stays_bufferSize stays_forwardSome

theorem stays_emitCompleteSegments :
    Stays (BothOpen true) (emitCompleteSegments mSpeedByte reliable) :=
  stays_bind stays_bufferSize stays_forward

theorem stays_writeFrom (source : Source) {rest : List JByte}
    {byteCount : Nat} (enough : byteCount ≤ rest.length) :
    Stays (BothOpen true)
      (writeFrom okio mSpeedByte reliable source rest byteCount) := by
  fun_induction writeFrom okio mSpeedByte reliable source rest byteCount with
  | case1 rest => exact stays_pure ()
  | case2 byteCount asked =>
      exact absurd (Nat.le_zero.mp enough) asked
  | case3 rest byteCount asked more inductionHypothesis =>
      have lengths := congrArg List.length
        (source.delivered_append_left rest byteCount)
      rw [List.length_append] at lengths
      exact stays_bind (stays_append _) fun _ =>
        stays_bind stays_emitSegments fun _ => inductionHypothesis (by omega)

theorem stays_readAll (source : Source) {mByteCount : Nat}
    (positive : 0 < mByteCount) (rest : List JByte) :
    Stays (BothOpen true)
      (readAll mSpeedByte reliable source mByteCount positive rest) := by
  fun_induction readAll mSpeedByte reliable source mByteCount positive rest
    with
  | case1 => exact stays_pure ()
  | case2 rest more inductionHypothesis =>
      exact stays_bind (stays_append _) fun _ =>
        stays_bind stays_emitCompleteSegments fun _ => inductionHypothesis

theorem stays_perform {op : Op} (long : ¬Short op) :
    Stays (BothOpen true) (perform okio mSpeedByte reliable op) := by
  cases op with
  | writeValue value =>
      exact stays_bind stays_checkOpen fun _ =>
        stays_bind (stays_append _) fun _ => stays_emitSegments
  | writePart source offset byteCount inRange =>
      exact stays_bind stays_checkOpen fun _ => stays_forM fun i _ =>
        stays_bind (stays_append _) fun _ => stays_emitCompleteSegments
  | writeSource source byteCount =>
      exact stays_writeFrom source (Nat.le_of_not_lt long)
  | writeAll source => exact stays_readAll source (by decide) source.bytes
  | emit => exact stays_emit
  | emitCompleteSegments => exact stays_emitCompleteSegments
  | flush => exact stays_bind stays_emit fun _ => stays_forwardFlush

theorem close_of_open {stream : Stream} (isOpen : BothOpen true stream) :
    ∃ left, close mSpeedByte reliable stream = .ok () left ∧
      BothOpen false left := by
  obtain ⟨_, middle, forwarded, middleOpen⟩ :=
    @stays_forwardSome mSpeedByte stream.wrapper.buffer.length stream isOpen
  have closedTarget : ∃ left, forwardClose reliable middle = .ok () left ∧
      left.target.isOpen = false := by
    simp only [forwardClose, middleOpen.2, reliable, Bool.true_eq_false,
      if_false, Bool.false_eq_true]
    exact ⟨_, rfl, rfl⟩
  obtain ⟨left, closed, isClosed⟩ := closedTarget
  refine ⟨left.closed, ?_, rfl, isClosed⟩
  rw [close, if_neg (by simp [isOpen.1]), forwarded]
  simp only [closed]

/-- A call on a new object returns and leaves everything closed. -/
theorem writeBody_of_open {body : List Op}
    (long : ∀ op ∈ body, ¬Short op) {stream : Stream}
    (isOpen : BothOpen true stream) :
    ∃ left, writeBody okio mSpeedByte reliable body stream = .ok () left ∧
      BothOpen false left := by
  obtain ⟨_, middle, performed, middleOpen⟩ :=
    stays_forM (fun op inBody => @stays_perform okio mSpeedByte op
      (long op inBody)) stream isOpen
  obtain ⟨left, closed, isClosed⟩ := @close_of_open mSpeedByte _ middleOpen
  exact ⟨left, (bind_of_ok performed).trans closed, isClosed⟩

end Reliable

/-! ## Calls on a closed wrapper -/

section Closed

variable {okio : Okio} {mSpeedByte : Int} {network : Network}

theorem checkOpen_fails {stream : Stream} (isClosed : BothOpen false stream) :
    Fails checkOpen stream :=
  ⟨_, _, by rw [checkOpen, isClosed.1, if_neg Bool.false_ne_true]⟩

theorem emitCompleteSegments_fails {stream : Stream}
    (isClosed : BothOpen false stream) :
    Fails (emitCompleteSegments mSpeedByte network) stream :=
  ⟨.illegalStateException, _, by
    show forward mSpeedByte network _ stream = _
    rw [forward, if_pos isClosed.2]⟩

/-- Every call but one that neither asks nor writes fails. -/
theorem perform_fails {op : Op} (loud : ¬Silent op) {stream : Stream}
    (isClosed : BothOpen false stream) :
    Fails (perform okio mSpeedByte network op) stream := by
  have asks : ∀ {α : Type} (next : Unit → Call α),
      Fails (checkOpen >>= next) stream := fun next =>
    (checkOpen_fails isClosed).bind next
  have appended : ∀ bytes : List JByte, ∃ left,
      append bytes stream = .ok () left ∧ BothOpen false left := fun bytes =>
    ⟨_, rfl, isClosed⟩
  cases op with
  | writeValue value => exact asks _
  | writePart source offset byteCount inRange => exact asks _
  | writeSource source byteCount =>
      have asked : byteCount ≠ 0 := loud
      rw [perform, writeFrom, if_neg asked]
      split
      · exact ⟨_, _, rfl⟩
      · obtain ⟨left, returned, leftClosed⟩ :=
          appended (source.delivered source.bytes byteCount)
        obtain ⟨failure, last, failed⟩ :=
          ((checkOpen_fails leftClosed).bind fun _ =>
            completeSegmentByteCount okio >>=
              forwardSome mSpeedByte network).bind fun _ =>
                writeFrom okio mSpeedByte network source
                  (source.left source.bytes byteCount)
                  (byteCount - (source.delivered source.bytes
                    byteCount).length)
        exact ⟨failure, last, (bind_of_ok returned).trans failed⟩
  | writeAll source =>
      have more : source.bytes ≠ [] := loud
      rw [perform, readAll, if_neg more]
      obtain ⟨left, returned, leftClosed⟩ :=
        appended (source.delivered source.bytes 1024)
      obtain ⟨failure, last, failed⟩ :=
        (@emitCompleteSegments_fails mSpeedByte network left leftClosed).bind
          fun _ => readAll mSpeedByte network source 1024 (by decide)
            (source.left source.bytes 1024)
      exact ⟨failure, last, (bind_of_ok returned).trans failed⟩
  | emit => exact asks _
  | emitCompleteSegments => exact emitCompleteSegments_fails isClosed
  | flush => exact (asks _).bind _

theorem writeBody_fails {body : List Op} (loud : ¬∀ op ∈ body, Silent op)
    {stream : Stream} (isClosed : BothOpen false stream) :
    Fails (writeBody okio mSpeedByte network body) stream := by
  apply Fails.bind
  induction body with
  | nil => exact absurd (fun op inNil => absurd inNil List.not_mem_nil) loud
  | cons op rest inductionHypothesis =>
      rw [List.forM_cons]
      by_cases silent : Silent op
      · have further : ¬∀ op ∈ rest, Silent op := fun all =>
          loud (List.forall_mem_cons.mpr ⟨silent, all⟩)
        obtain ⟨failure, left, failed⟩ := inductionHypothesis further
        exact ⟨failure, left,
          (bind_of_ok (perform_of_silent silent stream)).trans failed⟩
      · exact (perform_fails silent isClosed).bind _

end Closed

/-! ## The calls on one object -/

section Attempts

variable {okio : Okio} {mSpeedByte : Int} {body : List Op}
variable {networks : Nat → Network} {sink : Nat} {world left : World}

theorem writeTo_ok (returned : writeTo okio mSpeedByte body networks sink
    world = .ok () left) :
    let index := (world.mBufferedSink.getD (sink, {})).1
    let wrapper := (world.mBufferedSink.getD (sink, {})).2
    ∃ stream, writeBody okio mSpeedByte (networks index) body
        ⟨wrapper, world.sinks index⟩ = .ok () stream ∧
      left = world.store index stream := by
  simp only [writeTo] at returned
  split at returned
  · next stream written =>
      cases returned
      exact ⟨stream, written, rfl⟩
  · cases returned

/-- What a call leaves, whether it returns or fails. -/
theorem after_writeTo (world : World) :
    let mBufferedSink := world.mBufferedSink.getD (sink, {})
    (writeTo okio mSpeedByte body networks sink).after world =
      world.store mBufferedSink.1
        ((writeBody okio mSpeedByte (networks mBufferedSink.1) body).after
          ⟨mBufferedSink.2, world.sinks mBufferedSink.1⟩) := by
  simp only [Action.after, writeTo]
  cases writeBody okio mSpeedByte
      (networks (world.mBufferedSink.getD (sink, {})).1) body
      ⟨(world.mBufferedSink.getD (sink, {})).2,
        world.sinks (world.mBufferedSink.getD (sink, {})).1⟩ with
  | ok value stream => rfl
  | error failure stream => rfl

theorem writeTo_fails (fails : Fails
    (writeBody okio mSpeedByte
      (networks (world.mBufferedSink.getD (sink, {})).1) body)
    ⟨(world.mBufferedSink.getD (sink, {})).2,
      world.sinks (world.mBufferedSink.getD (sink, {})).1⟩) :
    Fails (writeTo okio mSpeedByte body networks sink) world := by
  obtain ⟨failure, stream, failed⟩ := fails
  refine ⟨failure,
    world.store (world.mBufferedSink.getD (sink, {})).1 stream, ?_⟩
  simp only [writeTo, failed]

/-- The first call on an object writes the body to its own sink. -/
theorem writeTo_new (returned : writeTo okio mSpeedByte body networks sink
    {} = .ok () left) :
    (left.sinks sink).written = body.flatMap (Op.writtenWhole okio) := by
  obtain ⟨stream, written, rfl⟩ := writeTo_ok returned
  have same : ((World.store {} sink stream).sinks sink).written =
      stream.target.written :=
    congrArg TargetSink.written (Function.update_self _ _ _)
  exact same.trans (writeBody_ok rfl written)

/-- A body that ends early fails in every call. -/
theorem writeTo_of_short {op : Op} (inBody : op ∈ body) (short : Short op)
    (sink : Nat) (world : World) :
    Fails (writeTo okio mSpeedByte body networks sink) world := by
  refine (ok_or_fails _ _).resolve_left ?_
  rintro ⟨_, left, returned⟩
  obtain ⟨stream, written, _⟩ := writeTo_ok returned
  exact writeBody_of_short inBody short _ _ _ written

/-! ### A body that writes nothing -/

theorem close_of_closed {network : Network} {stream : Stream}
    (isClosed : stream.wrapper.isOpen = false) :
    close mSpeedByte network stream = .ok () stream := by
  rw [close, if_pos isClosed]

theorem after_forwardClose {network : Network} {stream : Stream} :
    ((forwardClose network).after stream).target.written =
      stream.target.written := by
  rw [Action.after, forwardClose]
  by_cases isClosed : stream.target.isOpen = false
  · simp only [isClosed, if_true]
  · rw [if_neg isClosed]
    cases network.fails stream.target.calls with
    | true => rfl
    | false => rfl

/-- With nothing in the buffer `close` writes nothing. -/
theorem after_close {network : Network} {stream : Stream}
    (nothing : stream.wrapper.buffer = []) :
    let left := (close mSpeedByte network).after stream
    left.target.written = stream.target.written ∧
      left.wrapper.isOpen = false := by
  by_cases isClosed : stream.wrapper.isOpen = false
  · rw [after_of_ok (close_of_closed isClosed)]
    exact ⟨rfl, isClosed⟩
  · have forwarded : forwardSome mSpeedByte network
        stream.wrapper.buffer.length stream = .ok () stream := by
      rw [nothing]
      rfl
    have atTarget :=
      @after_forwardClose network stream
    rw [Action.after, close, if_neg isClosed, forwarded]
    cases result : forwardClose network stream with
    | ok value left =>
        rw [after_of_ok result] at atTarget
        simp only [result]
        exact ⟨atTarget, rfl⟩
    | error failure left =>
        rw [after_of_error result] at atTarget
        simp only [result]
        exact ⟨atTarget, rfl⟩

/-- No sink holds anything, and the wrapper is closed if there is one. -/
structure Untouched (world : World) : Prop where
  empty : ∀ sink, (world.sinks sink).written = []
  closed : ∀ wrapped ∈ world.mBufferedSink, wrapped.2.isOpen = false

/-- Step lemma: a call that writes nothing leaves a closed wrapper. -/
theorem Untouched.after (silent : ∀ op ∈ body, Silent op)
    (untouched : Untouched world) :
    let next := (writeTo okio mSpeedByte body networks sink).after world
    Untouched next ∧ next.mBufferedSink ≠ none := by
  have atWrapper : ∀ index wrapper,
      world.mBufferedSink.getD (sink, {}) = (index, wrapper) →
        wrapper.isOpen = false ∨ wrapper.buffer = [] := by
    intro index wrapper isWrapped
    cases field : world.mBufferedSink with
    | none =>
        rw [field] at isWrapped
        cases isWrapped
        exact Or.inr rfl
    | some wrapped =>
        rw [field] at isWrapped
        have same : wrapped = (index, wrapper) := isWrapped
        have isClosed := untouched.closed wrapped field
        rw [same] at isClosed
        exact Or.inl isClosed
  rw [after_writeTo]
  rcases isWrapped : world.mBufferedSink.getD (sink, {}) with
    ⟨index, wrapper⟩
  have left : ((writeBody okio mSpeedByte (networks index) body).after
        ⟨wrapper, world.sinks index⟩).target.written = [] ∧
      ((writeBody okio mSpeedByte (networks index) body).after
        ⟨wrapper, world.sinks index⟩).wrapper.isOpen = false := by
    rw [Action.after, writeBody_of_silent silent, ← Action.after]
    rcases atWrapper index wrapper isWrapped with isClosed | nothing
    · rw [after_of_ok (close_of_closed isClosed)]
      exact ⟨untouched.empty index, isClosed⟩
    · obtain ⟨written, isClosed⟩ := @after_close mSpeedByte (networks index)
        ⟨wrapper, world.sinks index⟩ nothing
      exact ⟨written.trans (untouched.empty index), isClosed⟩
  refine ⟨⟨fun other => ?_, ?_⟩, Option.some_ne_none _⟩
  · simp only [World.store, Function.update_apply]
    split
    · exact left.1
    · exact untouched.empty other
  · intro wrapped isWrapped
    cases Option.some.inj isWrapped
    exact left.2

/-- Run lemma: the calls with a body that writes nothing. -/
theorem Untouched.run (silent : ∀ op ∈ body, Silent op) (count : Nat) :
    let world := worldAfter okio mSpeedByte body networks count
    Untouched world ∧ (count ≠ 0 → world.mBufferedSink ≠ none) := by
  induction count with
  | zero =>
      exact ⟨⟨fun _ => rfl, by simp [worldAfter]⟩,
        fun later => absurd rfl later⟩
  | succ count inductionHypothesis =>
      obtain ⟨untouched, wrapped⟩ :=
        @Untouched.after okio mSpeedByte body networks count _ silent
          inductionHypothesis.1
      exact ⟨untouched, fun _ => wrapped⟩

/-- A second call with a body that writes nothing returns. -/
theorem writeTo_again (silent : ∀ op ∈ body, Silent op)
    (untouched : Untouched world) (wrapped : world.mBufferedSink ≠ none) :
    ¬Fails (writeTo okio mSpeedByte body networks sink) world := by
  rintro ⟨failure, left, failed⟩
  cases field : world.mBufferedSink with
  | none => exact wrapped field
  | some pair =>
      have returned := @writeBody_of_silent okio mSpeedByte
        (networks pair.1) body silent ⟨pair.2, world.sinks pair.1⟩
      rw [close_of_closed (untouched.closed pair field)] at returned
      simp only [writeTo, field, Option.getD_some, returned] at failed
      cases failed

end Attempts

/-! ## When the calls are independent -/

section Independence

variable {okio : Okio} {mSpeedByte : Int} {body : List Op}

/-- Over a network that never fails the first call on an object returns and
closes the wrapper and the sink. -/
theorem writeTo_of_reliable (long : ∀ op ∈ body, ¬Short op) (sink : Nat) :
    ∃ stream, writeTo okio mSpeedByte body (fun _ => reliable) sink {} =
        .ok () (World.store {} sink stream) ∧
      BothOpen false stream := by
  obtain ⟨stream, written, isClosed⟩ :=
    @writeBody_of_open okio mSpeedByte body long {} ⟨rfl, rfl⟩
  refine ⟨stream, ?_, isClosed⟩
  simp only [writeTo, Option.getD_none]
  rw [show writeBody okio mSpeedByte reliable body ⟨{}, {}⟩ = .ok () stream
    from written]

/-- The second call then fails if the body asks or writes anything. -/
theorem second_not_independent (long : ∀ op ∈ body, ¬Short op)
    (loud : ¬∀ op ∈ body, Silent op) :
    ¬Independent okio mSpeedByte body (fun _ => reliable) 1 := by
  intro second
  obtain ⟨stream, returned, isClosed⟩ :=
    @writeTo_of_reliable okio mSpeedByte body long 0
  obtain ⟨other, otherReturned, _⟩ :=
    @writeTo_of_reliable okio mSpeedByte body long 1
  have world : worldAfter okio mSpeedByte body (fun _ => reliable) 1 =
      World.store {} 0 stream := after_of_ok returned
  have fails : Fails (writeTo okio mSpeedByte body (fun _ => reliable) 1)
      (World.store {} 0 stream) := by
    apply writeTo_fails
    simp only [World.store, Option.getD_some, Function.update_self]
    exact writeBody_fails loud isClosed
  obtain ⟨failure, left, failed⟩ := fails
  have impossible : Fails
      (writeTo okio mSpeedByte body (fun _ => reliable) 1) {} :=
    second.fails failure left (by rw [world]; exact failed)
  exact impossible.ne_ok otherReturned

variable {networks : Nat → Network}

theorem first_independent (whole : ∀ op ∈ body, op.Whole) :
    Independent okio mSpeedByte body networks 0 where
  writes := by
    intro left returned
    refine ⟨(writeTo_new returned).trans
      ((flatMap_written_eq_iff body).mpr whole), ?_⟩
    intro earlier before
    exact absurd before (Nat.not_lt_zero _)
  fails := fun failure left failed => ⟨failure, left, failed⟩

theorem independent_of_short {op : Op} (inBody : op ∈ body)
    (short : Short op) (attempt : Nat) :
    Independent okio mSpeedByte body networks attempt where
  writes := fun _ returned =>
    absurd returned (writeTo_of_short inBody short attempt _).ne_ok
  fails := fun _ _ _ => writeTo_of_short inBody short attempt {}

/-- A later call with a body that writes nothing. -/
theorem independent_of_silent (silent : ∀ op ∈ body, Silent op)
    {attempt : Nat} (isLater : attempt ≠ 0) :
    Independent okio mSpeedByte body networks attempt := by
  obtain ⟨untouched, wrapped⟩ :=
    @Untouched.run okio mSpeedByte body networks silent attempt
  constructor
  · intro left returned
    have after := (@Untouched.after okio mSpeedByte body networks attempt _
      silent untouched).1
    rw [after_of_ok returned] at after
    refine ⟨?_, fun earlier _ => ?_⟩
    · rw [after.empty, List.flatMap_eq_nil_iff.mpr fun op inBody =>
        (written_of_silent (silent op inBody)).1]
    · rw [after.empty, untouched.empty]
  · intro failure left failed
    exact absurd ⟨failure, left, failed⟩
      (writeTo_again silent untouched (wrapped isLater))

end Independence

/-- Whatever the networks do, all calls write the body to their own sinks and
fail only as they would on a new object, if and only if there is no call, or
the body ends early, or it writes no parts of arrays and there is one call or
nothing to write. -/
theorem independent_iff (okio : Okio) (mSpeedByte : Int) (body : List Op)
    (count : Nat) :
    (∀ networks : Nat → Network, ∀ attempt < count,
        Independent okio mSpeedByte body networks attempt) ↔
      count = 0 ∨ (∃ op ∈ body, Short op) ∨
        (∀ op ∈ body, op.Whole) ∧
          (count ≤ 1 ∨ ∀ op ∈ body, Silent op) := by
  constructor
  · intro independent
    by_cases noCall : count = 0
    · exact Or.inl noCall
    · by_cases early : ∃ op ∈ body, Short op
      · exact Or.inr (Or.inl early)
      · have long : ∀ op ∈ body, ¬Short op := by simpa using early
        obtain ⟨stream, returned, _⟩ :=
          @writeTo_of_reliable okio mSpeedByte body long 0
        have own := (independent (fun _ => reliable) 0
          (Nat.pos_of_ne_zero noCall)).writes _ returned
        rw [writeTo_new returned] at own
        refine Or.inr (Or.inr
          ⟨(flatMap_written_eq_iff body).mp own.1, ?_⟩)
        by_contra neither
        rw [not_or] at neither
        exact second_not_independent long neither.2
          (independent (fun _ => reliable) 1 (by omega))
  · rintro (rfl | ⟨op, inBody, short⟩ | ⟨whole, few⟩) networks attempt inCount
    · exact absurd inCount (Nat.not_lt_zero _)
    · exact independent_of_short inBody short attempt
    · by_cases isFirst : attempt = 0
      · rw [isFirst]
        exact first_independent whole
      · exact independent_of_silent (few.resolve_left (by omega)) isFirst

/-- One byte, written twice: the second call fails. -/
theorem second_call_fails :
    ¬∀ attempt < 2,
      Independent smallOkio 1024 [.writeValue (.byte 7)]
        (fun _ => reliable) attempt := by
  intro independent
  refine second_not_independent ?_ ?_ (independent 1 (by decide))
  · intro op inBody
    rw [List.mem_singleton.mp inBody]
    exact id
  · intro silent
    exact silent _ List.mem_cons_self

end DripStone.SpeedLimit
