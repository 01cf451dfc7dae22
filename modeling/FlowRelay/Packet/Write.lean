import FlowRelay.Bytes

/-!
# FlowRelay.Packet.Write

Writing headers into buffers that somebody else owns.  A write gives back the buffer as it leaves
it, also where it fails, because a packet is written in two steps and the second one may fail.
-/

namespace FlowRelay.Packet

/-- Why a header cannot be written. -/
inductive WriteError where
  | bufferTooSmall
  | lengthTooBig
  /-- The headers that a TCP response is to be addressed by are not TCP headers. -/
  | notTcp
  /-- The headers that a UDP response is to be addressed by are not UDP headers. -/
  | notUdp
  deriving DecidableEq, Repr

/-- The wording of a write error. -/
def WriteError.message : WriteError → String
  | .bufferTooSmall => "buffer too small"
  | .lengthTooBig => "length too big"
  | .notTcp => "not a TCP template"
  | .notUdp => "not an UDP template"

/-- The outcome of a write: the buffer as it is left, and the number of bytes that count. -/
structure Written where
  buffer : List UInt8
  result : Except WriteError Nat

namespace Written

/-- A write that fails and leaves the buffer as it is. -/
def refuse (buffer : List UInt8) (error : WriteError) : Written := ⟨buffer, .error error⟩

/-- Go on with another write where the first one succeeds. -/
def andThen (w : Written) (next : List UInt8 → Nat → Written) : Written :=
  match w.result with
  | .ok n => next w.buffer n
  | .error _ => w

/-- Write into the part of a buffer behind an offset. -/
def behind (buffer : List UInt8) (offset : Nat) (write : List UInt8 → Written) : Written :=
  let w := write (buffer.drop offset)
  { w with buffer := buffer.take offset ++ w.buffer }

end Written

/-- Stage a payload behind a header of so many bytes, then write the header for a segment of
`length` bytes.  What counts is header and payload. -/
def writeWithPayload (headerLength : Nat) (write : List UInt8 → Nat → Written)
    (buffer payload : List UInt8) (length : Nat) : Written :=
  if buffer.length < headerLength + payload.length then .refuse buffer .bufferTooSmall
  else
    (write (Bytes.overwrite buffer headerLength payload) length).andThen fun buffer _ =>
      ⟨buffer, .ok (headerLength + payload.length)⟩

end FlowRelay.Packet
