import DripStone.BufferedSink.Okio

/-!
# `ByteCountBufferedSink`

The wrapper hands most calls on to okio's buffered sink, and cuts two of them
into chunks of `mByteCount` bytes.  What reaches the wrapped sink is what okio
alone would bring there, unless a call writes a part of an array: the wrapper
writes the whole array.
-/

namespace DripStone.BufferedSink

open DripStone.Library

/-- The calls of a `BufferedSink`.  A part of an array lies inside it. -/
inductive Op where
  | writeValue (value : Value)
  | writePart (source : List JByte) (offset byteCount : Nat)
      (inRange : offset + byteCount ≤ source.length)
  | writeSource (source : Source) (byteCount : Nat)
  | writeAll (source : Source)
  | emit
  | emitCompleteSegments
  | flush

/-- A call of okio's buffered sink. -/
def RealBufferedSink.perform (okio : Okio) (sink : RealBufferedSink) :
    Op → RealBufferedSink × Outcome
  | .writeValue value => (sink.write okio (okio.encode value), .done)
  | .writePart source offset byteCount _ =>
      (sink.write okio ((source.drop offset).take byteCount), .done)
  | .writeSource source byteCount =>
      sink.writeFrom okio source source.bytes byteCount
  | .writeAll source =>
      readAll source segmentSize (emitCompleteSegments okio) (by decide)
        sink source.bytes 0
  | .emit => (sink.emit, .done)
  | .emitCompleteSegments => (sink.emitCompleteSegments okio, .done)
  | .flush => (sink.emit, .done)

/-- `mDelegate` is a buffered sink on `mOriginalSink`; both stand in
`delegate`. -/
structure ByteCountBufferedSink where
  mByteCount : Nat
  positive : 0 < mByteCount
  mDelegate : RealBufferedSink := {}

namespace ByteCountBufferedSink

/-- `emitCompleteSegments` gives the whole buffer to `mOriginalSink`. -/
def emitCompleteSegments (sink : RealBufferedSink) : RealBufferedSink :=
  sink.drain sink.buffer.length

/-- The chunk of an array at an index. -/
def chunk (mByteCount : Nat) (source : List JByte) (i : Nat) :
    List JByte :=
  (source.drop (i * mByteCount)).take
    (min mByteCount (source.length - i * mByteCount))

/-- `Math.ceil(source.length / mByteCount)` -/
def count (mByteCount : Nat) (source : List JByte) : Nat :=
  (source.length + mByteCount - 1) / mByteCount

/-- `write(byte[], int, int)` reads neither the offset nor the count. -/
def writePart (mByteCount : Nat) (sink : RealBufferedSink)
    (source : List JByte) : RealBufferedSink :=
  (List.range (count mByteCount source)).foldl
    (fun sink i => emitCompleteSegments
      (sink.append (chunk mByteCount source i))) sink

variable (okio : Okio)

def perform (sink : ByteCountBufferedSink) :
    Op → ByteCountBufferedSink × Outcome
  | .writePart source _ _ _ =>
      ({ sink with
          mDelegate := writePart sink.mByteCount sink.mDelegate source },
        .done)
  | .writeAll source =>
      let read := RealBufferedSink.readAll source sink.mByteCount
        emitCompleteSegments sink.positive sink.mDelegate source.bytes 0
      ({ sink with mDelegate := read.1 }, read.2)
  | .emitCompleteSegments =>
      ({ sink with mDelegate := emitCompleteSegments sink.mDelegate }, .done)
  | op =>
      let performed := sink.mDelegate.perform okio op
      ({ sink with mDelegate := performed.1 }, performed.2)

end ByteCountBufferedSink

/-! ## Runs -/

/-- okio's buffered sink under calls. -/
def bufferMachine (okio : Okio) : Mealy RealBufferedSink Op Outcome :=
  ⟨fun sink op =>
    ((sink.perform okio op).1, [(sink.perform okio op).2])⟩

/-- The wrapper under calls. -/
def byteCountMachine (okio : Okio) : Mealy ByteCountBufferedSink Op Outcome :=
  ⟨fun sink op =>
    ((sink.perform okio op).1, [(sink.perform okio op).2])⟩

/-! ## The bytes of a call -/

/-- What a call writes to okio's buffered sink. -/
def Op.written (okio : Okio) : Op → List JByte
  | .writeValue value => okio.encode value
  | .writePart source offset byteCount _ =>
      (source.drop offset).take byteCount
  | .writeSource source byteCount => source.bytes.take byteCount
  | .writeAll source => source.bytes
  | .emit => []
  | .emitCompleteSegments => []
  | .flush => []

/-- What a call writes to the wrapper. -/
def Op.writtenWhole (okio : Okio) : Op → List JByte
  | .writePart source _ _ _ => source
  | op => op.written okio

/-- If a call writes a part of an array, the part is the whole. -/
def Op.Whole : Op → Prop
  | .writePart source _ byteCount _ => byteCount = source.length
  | _ => True

section Bytes

variable {okio : Okio}

theorem RealBufferedSink.taken_perform (sink : RealBufferedSink)
    (op : Op) :
    (sink.perform okio op).1.taken = sink.taken ++ op.written okio := by
  cases op with
  | writeValue value => simp [perform, write, Op.written]
  | writePart source offset byteCount inRange =>
      simp [perform, write, Op.written]
  | writeSource source byteCount =>
      exact (writeFrom_spec source sink source.bytes byteCount).1
  | writeAll source =>
      exact (readAll_spec source _
        (fun sink => taken_emitCompleteSegments okio sink) sink
        source.bytes 0).1
  | emit | flush | emitCompleteSegments => simp [perform, Op.written]

theorem ByteCountBufferedSink.taken_emitCompleteSegments
    (sink : RealBufferedSink) :
    (emitCompleteSegments sink).taken = sink.taken :=
  sink.taken_drain _

/-- The chunks below an index are the bytes below its offset. -/
theorem ByteCountBufferedSink.chunks_eq_take (mByteCount : Nat)
    (source : List JByte) (index : Nat) :
    (List.range index).flatMap (chunk mByteCount source) =
      source.take (index * mByteCount) := by
  induction index with
  | zero => simp
  | succ index inductionHypothesis =>
      rw [List.range_succ, List.flatMap_append, inductionHypothesis,
        List.flatMap_singleton, chunk, Nat.succ_mul, List.take_add]
      congr 1
      rw [← List.length_drop, List.take_eq_take_iff]
      omega

theorem ByteCountBufferedSink.chunks_eq {mByteCount : Nat}
    (positive : 0 < mByteCount) (source : List JByte) :
    (List.range (count mByteCount source)).flatMap
        (chunk mByteCount source) = source := by
  have remainder := Nat.mod_lt (source.length + mByteCount - 1) positive
  have division := Nat.div_add_mod (source.length + mByteCount - 1)
    mByteCount
  have enough : source.length ≤ count mByteCount source * mByteCount := by
    rw [count, Nat.mul_comm]
    omega
  rw [chunks_eq_take, List.take_of_length_le enough]

theorem ByteCountBufferedSink.taken_writePart {mByteCount : Nat}
    (positive : 0 < mByteCount) (sink : RealBufferedSink)
    (source : List JByte) :
    (writePart mByteCount sink source).taken = sink.taken ++ source := by
  have loop : ∀ indices : List Nat, ∀ sink : RealBufferedSink,
      (indices.foldl (fun sink i => emitCompleteSegments
        (sink.append (chunk mByteCount source i))) sink).taken =
        sink.taken ++ indices.flatMap (chunk mByteCount source) := by
    intro indices
    induction indices with
    | nil => simp
    | cons index rest inductionHypothesis =>
        intro sink
        simp [inductionHypothesis, taken_emitCompleteSegments]
  rw [writePart, loop, chunks_eq positive]

theorem ByteCountBufferedSink.taken_perform (sink : ByteCountBufferedSink)
    (op : Op) :
    (sink.perform okio op).1.mDelegate.taken =
      sink.mDelegate.taken ++ op.writtenWhole okio := by
  cases op with
  | writePart source offset byteCount inRange =>
      exact taken_writePart sink.positive sink.mDelegate source
  | writeAll source =>
      exact (RealBufferedSink.readAll_spec source sink.positive
        taken_emitCompleteSegments sink.mDelegate source.bytes 0).1
  | emitCompleteSegments =>
      simp [perform, taken_emitCompleteSegments, Op.writtenWhole, Op.written]
  | writeValue | writeSource | emit | flush =>
      exact sink.mDelegate.taken_perform _

/-- Both sinks answer a call alike. -/
theorem ByteCountBufferedSink.outcome_perform
    (sink : ByteCountBufferedSink) (other : RealBufferedSink) (op : Op) :
    (sink.perform okio op).2 = (other.perform okio op).2 := by
  cases op with
  | writeAll source =>
      have wrapped := (RealBufferedSink.readAll_spec source sink.positive
        taken_emitCompleteSegments sink.mDelegate source.bytes 0).2
      have plain := (RealBufferedSink.readAll_spec source
        (by decide : 0 < RealBufferedSink.segmentSize)
        (fun sink => RealBufferedSink.taken_emitCompleteSegments okio sink)
        other source.bytes 0).2
      exact wrapped.trans plain.symm
  | writeSource source byteCount =>
      have wrapped := (@RealBufferedSink.writeFrom_spec okio source
        sink.mDelegate source.bytes byteCount).2
      have plain := (@RealBufferedSink.writeFrom_spec okio source other
        source.bytes byteCount).2
      exact wrapped.trans plain.symm
  | writeValue | writePart | emit | flush | emitCompleteSegments => rfl

theorem bufferMachine_taken (sink : RealBufferedSink) (ops : List Op) :
    ((bufferMachine okio).run sink ops).taken =
      sink.taken ++ ops.flatMap (Op.written okio) := by
  induction ops generalizing sink with
  | nil => simp
  | cons op rest inductionHypothesis =>
      have step : ((bufferMachine okio).step sink op).1.taken =
          sink.taken ++ op.written okio := sink.taken_perform op
      rw [Mealy.run_cons, inductionHypothesis, step, List.flatMap_cons,
        List.append_assoc]

theorem byteCountMachine_taken (sink : ByteCountBufferedSink)
    (ops : List Op) :
    ((byteCountMachine okio).run sink ops).mDelegate.taken =
      sink.mDelegate.taken ++ ops.flatMap (Op.writtenWhole okio) := by
  induction ops generalizing sink with
  | nil => simp
  | cons op rest inductionHypothesis =>
      have step : ((byteCountMachine okio).step sink op).1.mDelegate.taken =
          sink.mDelegate.taken ++ op.writtenWhole okio :=
        sink.taken_perform op
      rw [Mealy.run_cons, inductionHypothesis, step, List.flatMap_cons,
        List.append_assoc]

/-- Calls are answered alike along the whole run. -/
theorem outcomes_eq (sink : ByteCountBufferedSink)
    (other : RealBufferedSink) (ops : List Op) :
    (byteCountMachine okio).trace sink ops =
      (bufferMachine okio).trace other ops := by
  induction ops generalizing sink other with
  | nil => rfl
  | cons op rest inductionHypothesis =>
      have same : ((byteCountMachine okio).step sink op).2 =
          ((bufferMachine okio).step other op).2 :=
        congrArg List.singleton (sink.outcome_perform other op)
      rw [Mealy.trace_cons, Mealy.trace_cons, same,
        inductionHypothesis _ ((bufferMachine okio).step other op).1]

/-! ## The wrapper is transparent when it writes no parts -/

theorem Op.writtenWhole_eq_of_whole {op : Op} (whole : op.Whole) :
    op.writtenWhole okio = op.written okio := by
  cases op with
  | writePart source offset byteCount inRange =>
      have all : byteCount = source.length := whole
      have start : offset = 0 := by omega
      simp [writtenWhole, written, start, all]
  | _ => rfl

/-- The wrapper never writes less, and as much only if the part is the
whole. -/
theorem Op.length_written_le (op : Op) :
    (op.written okio).length ≤ (op.writtenWhole okio).length ∧
      ((op.written okio).length = (op.writtenWhole okio).length →
        op.Whole) := by
  cases op with
  | writePart source offset byteCount inRange =>
      have length : ((source.drop offset).take byteCount).length =
          byteCount := by
        rw [List.length_take, List.length_drop]
        omega
      rw [written, writtenWhole, length]
      exact ⟨by omega, id⟩
  | _ => exact ⟨le_rfl, fun _ => trivial⟩

theorem length_flatMap_written_le (ops : List Op) :
    (ops.flatMap (Op.written okio)).length ≤
      (ops.flatMap (Op.writtenWhole okio)).length := by
  induction ops with
  | nil => exact le_rfl
  | cons op rest inductionHypothesis =>
      have here := (@Op.length_written_le okio op).1
      simp only [List.flatMap_cons, List.length_append]
      omega

theorem flatMap_written_eq_iff (ops : List Op) :
    ops.flatMap (Op.writtenWhole okio) = ops.flatMap (Op.written okio) ↔
      ∀ op ∈ ops, op.Whole := by
  constructor
  · intro same
    have lengths := congrArg List.length same
    clear same
    induction ops with
    | nil => simp
    | cons op rest inductionHypothesis =>
        obtain ⟨atMost, whole⟩ := @Op.length_written_le okio op
        have further := @length_flatMap_written_le okio rest
        simp only [List.flatMap_cons, List.length_append] at lengths
        rw [List.forall_mem_cons]
        exact ⟨whole (by omega), inductionHypothesis (by omega)⟩
  · intro whole
    apply List.flatMap_congr
    intro op inOps
    exact Op.writtenWhole_eq_of_whole (whole op inOps)

end Bytes

/-- What has reached the wrapped sink after a final `close` is what okio's
buffered sink would bring there, if and only if every part of an array that was
written is the whole array. -/
theorem transparent_iff_whole (okio : Okio) {mByteCount : Nat}
    (positive : 0 < mByteCount) (ops : List Op) :
    ((byteCountMachine okio).run ⟨mByteCount, positive, {}⟩
        ops).mDelegate.close =
        ((bufferMachine okio).run {} ops).close ↔
      ∀ op ∈ ops, op.Whole := by
  rw [RealBufferedSink.close_eq_taken, RealBufferedSink.close_eq_taken,
    byteCountMachine_taken, bufferMachine_taken]
  exact flatMap_written_eq_iff ops

/-- An okio whose segments hold few bytes in one piece; of the encodings only
two are given. -/
def smallOkio : Okio where
  encode
    | .byte b => [b.setWidth 8]
    | .bytes source => source
    | _ => []
  completeSegmentByteCount _ buffer := buffer.length / 8192 * 8192
  complete_le _ buffer := Nat.div_mul_le_self buffer.length 8192

theorem transparent_of_wholes :
    ((byteCountMachine smallOkio).run ⟨2, by decide, {}⟩
        [.writeValue (.byte 7), .writePart [1, 2, 3] 0 3 (by decide),
          .flush]).mDelegate.close =
        ((bufferMachine smallOkio).run {}
          [.writeValue (.byte 7), .writePart [1, 2, 3] 0 3 (by decide),
            .flush]).close ↔
      ∀ op ∈ [.writeValue (.byte 7), .writePart [1, 2, 3] 0 3 (by decide),
        .flush], Op.Whole op :=
  transparent_iff_whole smallOkio (by decide) _

/-- One byte of three, and all three arrive. -/
theorem part_written_whole :
    ((byteCountMachine smallOkio).run ⟨2, by decide, {}⟩
        [.writePart [1, 2, 3] 1 1 (by decide)]).mDelegate.close ≠
      ((bufferMachine smallOkio).run {}
        [.writePart [1, 2, 3] 1 1 (by decide)]).close := by
  decide

end DripStone.BufferedSink
