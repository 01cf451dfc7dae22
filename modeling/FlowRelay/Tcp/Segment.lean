/-!
# FlowRelay.Tcp.Segment

What a device sends on a connection: data, perhaps with the end of its stream.
-/

namespace FlowRelay.Tcp

/-- The data and the end of stream of one segment from the device. -/
structure Segment where
  sequence : UInt32
  payload : List UInt8
  fin : Bool
  deriving DecidableEq, Repr

/-- The sequence number behind the segment.  The end of the stream counts as one byte. -/
def Segment.stop (s : Segment) : UInt32 :=
  s.sequence + UInt32.ofNat s.payload.length + (if s.fin then 1 else 0)

example : (Segment.mk 0xFFFFFFFF [] true).stop = 0 := by decide

end FlowRelay.Tcp
