import DripStone.BufferedSink.ByteCount
import DripStone.Library.Action
import DripStone.SpeedLimit.Throttle

/-!
# `SpeedLimitRequestBody`

The body is written through a `ByteCountBufferedSink` on a forwarding sink.
Both are made in the first `writeTo` and kept in a field, and every `writeTo`
ends with their `close`.
-/

namespace DripStone.SpeedLimit

open DripStone.Library
open DripStone.BufferedSink

inductive Failure where
  | illegalStateException
  | eofException
  | ioException
deriving DecidableEq, Repr

/-! ## The sinks -/

/-- What is behind a sink of the client: which of its calls fail, the clock
before and after each, and whether `close` closes it (a `Buffer` stays
open). -/
structure Network where
  fails : Nat → Bool
  uptimeMillis : Nat → Int
  closes : Bool

/-- A sink of the client. -/
structure TargetSink where
  written : List JByte := []
  isOpen : Bool := true
  calls : Nat := 0
deriving DecidableEq, Repr

/-- The wrapper: the buffered sink of okio and the fields of the forwarding
sink. -/
structure Wrapper where
  buffer : List JByte := []
  isOpen : Bool := true
  time : Nat := 0
  throttle : Throttle := .new
deriving DecidableEq, Repr

/-- The wrapper and the sink that it wraps. -/
structure Stream where
  wrapper : Wrapper := {}
  target : TargetSink := {}
deriving DecidableEq, Repr

/-- All bytes that have been taken so far. -/
def Stream.taken (stream : Stream) : List JByte :=
  stream.target.written ++ stream.wrapper.buffer

def Stream.closed (stream : Stream) : Stream :=
  { stream with wrapper := { stream.wrapper with isOpen := false } }

abbrev Call := Action Failure Stream

section Calls

variable (okio : Okio) (mSpeedByte : Int) (network : Network)

/-! ### The forwarding sink -/

/-- `write` -/
def forward (byteCount : Nat) : Call Unit := fun stream =>
  let wrapper := stream.wrapper
  let target := stream.target
  let begun :=
    wrapper.throttle.begin_ (network.uptimeMillis (2 * target.calls))
  if target.isOpen = false then
    .error .illegalStateException
      { stream with wrapper := { wrapper with throttle := begun } }
  else
    let target := { target with
      written := target.written ++ wrapper.buffer.take byteCount
      calls := target.calls + 1 }
    let buffer := wrapper.buffer.drop byteCount
    if network.fails stream.target.calls then
      .error .ioException
        ⟨{ wrapper with buffer, throttle := begun }, target⟩
    else
      let counted := begun.count mSpeedByte byteCount
        (network.uptimeMillis (2 * stream.target.calls + 1))
      .ok () ⟨{ wrapper with buffer, throttle := counted.1 }, target⟩

/-- `flush` -/
def forwardFlush : Call Unit := fun stream =>
  let target := stream.target
  if target.isOpen = false then .error .illegalStateException stream
  else
    let left :=
      { stream with target := { target with calls := target.calls + 1 } }
    if network.fails target.calls then .error .ioException left
    else .ok () left

/-- `close`; a second one does nothing. -/
def forwardClose : Call Unit := fun stream =>
  let target := stream.target
  if target.isOpen = false then .ok () stream
  else
    let left := { stream with
      target := { target with
        isOpen := !network.closes
        calls := target.calls + 1 } }
    if network.fails target.calls then .error .ioException left
    else .ok () left

/-! ### The buffered sink of okio -/

def checkOpen : Call Unit := fun stream =>
  if stream.wrapper.isOpen then .ok () stream
  else .error .illegalStateException stream

def append (bytes : List JByte) : Call Unit := fun stream =>
  .ok () { stream with
    wrapper := { stream.wrapper with
      buffer := stream.wrapper.buffer ++ bytes } }

/-- A write of some bytes of the buffer, if there are any to be written. -/
def forwardSome (byteCount : Nat) : Call Unit :=
  if byteCount = 0 then pure () else forward mSpeedByte network byteCount

/-- The bytes of the complete segments are counted. -/
def completeSegmentByteCount : Call Nat := fun stream =>
  let wrapper := stream.wrapper
  .ok (okio.completeSegmentByteCount wrapper.time wrapper.buffer)
    { stream with wrapper := { wrapper with time := wrapper.time + 1 } }

def emitSegments : Call Unit := do
  checkOpen
  let byteCount ← completeSegmentByteCount okio
  forwardSome mSpeedByte network byteCount

def bufferSize : Call Nat := fun stream =>
  .ok stream.wrapper.buffer.length stream

def emit : Call Unit := do
  checkOpen
  let byteCount ← bufferSize
  forwardSome mSpeedByte network byteCount

def flush : Call Unit := do
  emit mSpeedByte network
  forwardFlush network

/-- The methods that write one value. -/
def writeBytes (bytes : List JByte) : Call Unit := do
  checkOpen
  append bytes
  emitSegments okio mSpeedByte network

/-- `write(Source, long)`, over what is left of the source. -/
def writeFrom (source : Source) (rest : List JByte) (byteCount : Nat) :
    Call Unit :=
  if byteCount = 0 then pure ()
  else if rest = [] then throw .eofException
  else do
    append (source.delivered rest byteCount)
    emitSegments okio mSpeedByte network
    writeFrom source (source.left rest byteCount)
      (byteCount - (source.delivered rest byteCount).length)
termination_by rest.length
decreasing_by exact source.length_left_lt ‹_› (Nat.pos_of_ne_zero ‹_›)

/-- The wrapper is closed whether the two calls return or fail; the first
failure is thrown. -/
def close : Call Unit := fun stream =>
  if stream.wrapper.isOpen = false then .ok () stream
  else
    match forwardSome mSpeedByte network stream.wrapper.buffer.length
        stream with
    | .ok _ left =>
        match forwardClose network left with
        | .ok _ left => .ok () left.closed
        | .error failure left => .error failure left.closed
    | .error failure left =>
        .error failure ((forwardClose network).after left).closed

/-! ### `ByteCountBufferedSink` -/

/-- `emitCompleteSegments` asks nothing and writes the whole buffer. -/
def emitCompleteSegments : Call Unit := do
  let byteCount ← bufferSize
  forward mSpeedByte network byteCount

/-- `writeAll`, over what is left of the source. -/
def readAll (source : Source) (mByteCount : Nat) (positive : 0 < mByteCount)
    (rest : List JByte) : Call Unit :=
  if rest = [] then pure ()
  else do
    append (source.delivered rest mByteCount)
    emitCompleteSegments mSpeedByte network
    readAll source mByteCount positive (source.left rest mByteCount)
termination_by rest.length
decreasing_by exact source.length_left_lt ‹_› positive

/-- `write(byte[], int, int)` -/
def writePart (mByteCount : Nat) (source : List JByte) : Call Unit := do
  checkOpen
  forM (List.range (ByteCountBufferedSink.count mByteCount source)) fun i => do
    append (ByteCountBufferedSink.chunk mByteCount source i)
    emitCompleteSegments mSpeedByte network

/-- One call of the wrapper. -/
def perform : Op → Call Unit
  | .writeValue value =>
      writeBytes okio mSpeedByte network (okio.encode value)
  | .writePart source _ _ _ => writePart mSpeedByte network 1024 source
  | .writeSource source byteCount =>
      writeFrom okio mSpeedByte network source source.bytes byteCount
  | .writeAll source =>
      readAll mSpeedByte network source 1024 (by decide) source.bytes
  | .emit => emit mSpeedByte network
  | .emitCompleteSegments => emitCompleteSegments mSpeedByte network
  | .flush => flush mSpeedByte network

/-- `mRequestBody.writeTo(mBufferedSink)`, then `mBufferedSink.close()`. -/
def writeBody (body : List Op) : Call Unit := do
  forM body (perform okio mSpeedByte network)
  close mSpeedByte network

end Calls

/-! ## `writeTo` -/

/-- The field `mBufferedSink`, with the number of the sink that it wraps, and
the sinks of the client, one for each call. -/
structure World where
  mBufferedSink : Option (Nat × Wrapper) := none
  sinks : Nat → TargetSink := fun _ => {}

/-- What a call on the wrapper leaves. -/
def World.store (world : World) (index : Nat) (stream : Stream) : World where
  mBufferedSink := some (index, stream.wrapper)
  sinks := Function.update world.sinks index stream.target

section Attempts

variable (okio : Okio) (mSpeedByte : Int) (body : List Op)
variable (networks : Nat → Network)

/-- `writeTo(sink)` -/
def writeTo (sink : Nat) : Action Failure World Unit := fun world =>
  let mBufferedSink := world.mBufferedSink.getD (sink, {})
  let index := mBufferedSink.1
  match writeBody okio mSpeedByte (networks index) body
      ⟨mBufferedSink.2, world.sinks index⟩ with
  | .ok _ stream => .ok () (world.store index stream)
  | .error failure stream => .error failure (world.store index stream)

/-- The world after some calls, each with a sink of its own. -/
def worldAfter : Nat → World
  | 0 => {}
  | count + 1 =>
      (writeTo okio mSpeedByte body networks count).after (worldAfter count)

/-! ## The law and the condition -/

/-- A call that returns has written the body to its own sink and nothing to an
earlier one; one that fails would fail on a new object too. -/
structure Independent (attempt : Nat) : Prop where
  writes : ∀ left,
    writeTo okio mSpeedByte body networks attempt
        (worldAfter okio mSpeedByte body networks attempt) = .ok () left →
      (left.sinks attempt).written = body.flatMap (Op.written okio) ∧
      ∀ earlier < attempt, (left.sinks earlier).written =
        ((worldAfter okio mSpeedByte body networks attempt).sinks
          earlier).written
  fails : ∀ failure left,
    writeTo okio mSpeedByte body networks attempt
        (worldAfter okio mSpeedByte body networks attempt) =
          .error failure left →
      ∃ failure left,
        writeTo okio mSpeedByte body networks attempt {} = .error failure left

end Attempts

/-- A source ends before as many bytes as asked for. -/
def Short : Op → Prop
  | .writeSource source byteCount => source.bytes.length < byteCount
  | _ => False

/-- The call neither asks for the state of the sink nor writes. -/
def Silent : Op → Prop
  | .writeSource _ byteCount => byteCount = 0
  | .writeAll source => source.bytes = []
  | _ => False

end DripStone.SpeedLimit
