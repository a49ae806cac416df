import DripStone.Library.JavaText
import DripStone.Library.Mealy

/-!
# `Okio.buffer(sink)`

A buffered sink is a queue of bytes in front of another sink.  The values that
can be written have their encodings from okio, and how much of the queue fills
complete segments is left open: it depends on how the bytes came to lie there.
-/

namespace DripStone.BufferedSink

open DripStone.Library

/-- What the methods that write one value take. -/
inductive Value where
  -- of a `ByteString`, a `byte[]` or a `ByteBuffer`
  | bytes (source : List JByte)
  | buffer (source : List JByte) (byteCount : Nat)
  | utf8 (string : List JChar) (beginIndex endIndex : Nat)
  | utf8CodePoint (codePoint : JInt)
  | string (string : List JChar) (beginIndex endIndex : Nat)
      (charset : List JChar)
  | byte (b : JInt)
  | short (s : JInt)
  | shortLe (s : JInt)
  | int (i : JInt)
  | intLe (i : JInt)
  | long (v : BitVec 64)
  | longLe (v : BitVec 64)
  | decimalLong (v : BitVec 64)
  | hexadecimalUnsignedLong (v : BitVec 64)
deriving DecidableEq, Repr

/-- What okio decides. -/
structure Okio where
  encode : Value → List JByte
  -- asked for some time, of a buffer
  completeSegmentByteCount : Nat → List JByte → Nat
  complete_le : ∀ time buffer,
    completeSegmentByteCount time buffer ≤ buffer.length

/-- A source of finitely many bytes; a read delivers at least one byte and at
most as many as asked for, while there are any. -/
structure Source where
  bytes : List JByte
  delivers : List JByte → Nat → Nat
  delivers_pos : ∀ rest byteCount, rest ≠ [] → 0 < byteCount →
    0 < delivers rest byteCount
  delivers_le : ∀ rest byteCount, delivers rest byteCount ≤ byteCount

namespace Source

/-- The bytes of one `read`, of what is left of a source. -/
def delivered (source : Source) (rest : List JByte) (byteCount : Nat) :
    List JByte :=
  rest.take (source.delivers rest byteCount)

def left (source : Source) (rest : List JByte) (byteCount : Nat) :
    List JByte :=
  rest.drop (source.delivers rest byteCount)

theorem delivered_append_left (source : Source) (rest : List JByte)
    (byteCount : Nat) :
    source.delivered rest byteCount ++ source.left rest byteCount = rest :=
  List.take_append_drop _ _

theorem length_left_lt (source : Source) {rest : List JByte}
    {byteCount : Nat} (more : rest ≠ []) (asked : 0 < byteCount) :
    (source.left rest byteCount).length < rest.length := by
  have delivers := source.delivers_pos rest byteCount more asked
  have some_ := List.length_pos_iff.mpr more
  rw [left, List.length_drop]
  omega

theorem length_delivered_le (source : Source) (rest : List JByte)
    (byteCount : Nat) :
    (source.delivered rest byteCount).length ≤ byteCount :=
  (List.length_take_le _ _).trans (source.delivers_le rest byteCount)

end Source

/-- What a call of a sink returns or throws. -/
inductive Outcome where
  | done
  | totalBytesRead (count : Nat)
  | eofException
deriving DecidableEq, Repr

/-- An open sink: a queue of bytes, and what has reached the sink behind. -/
structure RealBufferedSink where
  buffer : List JByte := []
  reached : List JByte := []
  -- how often the complete segments were counted
  time : Nat := 0
deriving DecidableEq, Repr

namespace RealBufferedSink

/-- `buffer.write`. -/
def append (sink : RealBufferedSink) (bytes : List JByte) :
    RealBufferedSink :=
  { sink with buffer := sink.buffer ++ bytes }

/-- `sink.write(buffer, byteCount)`. -/
def drain (sink : RealBufferedSink) (byteCount : Nat) : RealBufferedSink :=
  { sink with
    buffer := sink.buffer.drop byteCount
    reached := sink.reached ++ sink.buffer.take byteCount }

/-- `emit` and `flush`. -/
def emit (sink : RealBufferedSink) : RealBufferedSink :=
  sink.drain sink.buffer.length

/-- What has reached the sink behind when `close` returns. -/
def close (sink : RealBufferedSink) : List JByte :=
  sink.emit.reached

/-- All bytes that the sink has taken so far. -/
def taken (sink : RealBufferedSink) : List JByte :=
  sink.reached ++ sink.buffer

@[simp]
theorem taken_append (sink : RealBufferedSink) (bytes : List JByte) :
    (sink.append bytes).taken = sink.taken ++ bytes := by
  simp [append, taken]

@[simp]
theorem taken_drain (sink : RealBufferedSink) (byteCount : Nat) :
    (sink.drain byteCount).taken = sink.taken := by
  simp [drain, taken]

@[simp]
theorem taken_emit (sink : RealBufferedSink) :
    sink.emit.taken = sink.taken :=
  sink.taken_drain _

/-- After `close` everything has reached the sink behind. -/
theorem close_eq_taken (sink : RealBufferedSink) :
    sink.close = sink.taken := by
  simp [close, emit, drain, taken]

variable (okio : Okio)

def emitCompleteSegments (sink : RealBufferedSink) : RealBufferedSink :=
  { sink.drain (okio.completeSegmentByteCount sink.time sink.buffer) with
    time := sink.time + 1 }

@[simp]
theorem taken_emitCompleteSegments (sink : RealBufferedSink) :
    (sink.emitCompleteSegments okio).taken = sink.taken :=
  sink.taken_drain _

/-- The methods that write one value. -/
def write (sink : RealBufferedSink) (bytes : List JByte) :
    RealBufferedSink :=
  (sink.append bytes).emitCompleteSegments okio

/-- The loop of `write(Source, long)`, over what is left of the source. -/
def writeFrom (source : Source) (sink : RealBufferedSink)
    (rest : List JByte) (byteCount : Nat) : RealBufferedSink × Outcome :=
  if byteCount = 0 then (sink, .done)
  else if rest = [] then (sink, .eofException)
  else
    writeFrom source
      ((sink.append
        (source.delivered rest byteCount)).emitCompleteSegments okio)
      (source.left rest byteCount)
      (byteCount - (source.delivered rest byteCount).length)
termination_by rest.length
decreasing_by exact source.length_left_lt ‹_› (Nat.pos_of_ne_zero ‹_›)

/-- `Segment.SIZE` -/
def segmentSize : Nat := 8192

/-- The loop of `writeAll`: reads of some size, each followed by a call that
moves bytes on. -/
def readAll (source : Source) (size : Nat)
    (moveOn : RealBufferedSink → RealBufferedSink) (positive : 0 < size)
    (sink : RealBufferedSink) (rest : List JByte) (totalBytesRead : Nat) :
    RealBufferedSink × Outcome :=
  if rest = [] then (sink, .totalBytesRead totalBytesRead)
  else
    readAll source size moveOn positive
      (moveOn (sink.append (source.delivered rest size)))
      (source.left rest size)
      (totalBytesRead + (source.delivered rest size).length)
termination_by rest.length
decreasing_by exact source.length_left_lt ‹_› positive

variable {okio}

/-- `write(Source, long)` takes as many bytes as the source has, or as asked
for. -/
theorem writeFrom_spec (source : Source) (sink : RealBufferedSink)
    (rest : List JByte) (byteCount : Nat) :
    (sink.writeFrom okio source rest byteCount).1.taken =
        sink.taken ++ rest.take byteCount ∧
      (sink.writeFrom okio source rest byteCount).2 =
        if byteCount ≤ rest.length then .done else .eofException := by
  fun_induction writeFrom okio source sink rest byteCount with
  | case1 sink rest => simp
  | case2 sink byteCount asked => simp [asked]
  | case3 sink rest byteCount asked more inductionHypothesis =>
      have few := source.length_delivered_le rest byteCount
      have split := source.delivered_append_left rest byteCount
      have lengths := congrArg List.length split
      rw [List.length_append] at lengths
      have same : rest.take byteCount =
          source.delivered rest byteCount ++
            (source.left rest byteCount).take
              (byteCount - (source.delivered rest byteCount).length) := by
        conv_lhs => rw [← split]
        rw [List.take_append, List.take_of_length_le few]
      rw [inductionHypothesis.1, inductionHypothesis.2, same]
      constructor
      · simp
      · congr 1
        apply propext
        omega

/-- A loop of reads takes the whole source, whatever their size. -/
theorem readAll_spec (source : Source) {size : Nat}
    {moveOn : RealBufferedSink → RealBufferedSink} (positive : 0 < size)
    (taken_moveOn : ∀ sink, (moveOn sink).taken = sink.taken)
    (sink : RealBufferedSink) (rest : List JByte) (totalBytesRead : Nat) :
    (readAll source size moveOn positive sink rest totalBytesRead).1.taken =
        sink.taken ++ rest ∧
      (readAll source size moveOn positive sink rest totalBytesRead).2 =
        .totalBytesRead (totalBytesRead + rest.length) := by
  fun_induction readAll source size moveOn positive sink rest totalBytesRead
    with
  | case1 sink totalBytesRead => simp
  | case2 sink rest totalBytesRead more inductionHypothesis =>
      have split := source.delivered_append_left rest size
      have lengths := congrArg List.length split
      rw [List.length_append] at lengths
      rw [inductionHypothesis.1, inductionHypothesis.2, taken_moveOn,
        taken_append, List.append_assoc, split, Nat.add_assoc, lengths]
      exact ⟨rfl, rfl⟩

end RealBufferedSink

end DripStone.BufferedSink
