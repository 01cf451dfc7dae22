import FlowRelay.Flow.Key
import FlowRelay.Http.Reassembler

/-!
# FlowRelay.Http.Inspector

The two directions of an inspected flow.  Each has a reassembler of its own, so neither the order in
which their pieces arrive nor an error in one of them touches the other.
-/

namespace FlowRelay.Http

/-- The two directions of a flow. -/
inductive Direction where
  /-- From the device. -/
  | request
  /-- From the network. -/
  | response
  deriving DecidableEq, Repr

/-- The name of a direction. -/
def Direction.text : Direction → String
  | .request => "request"
  | .response => "response"

/-- The reassemblers of both directions. -/
structure Inspector where
  request : Reassembler
  response : Reassembler
  deriving DecidableEq, Repr

namespace Inspector

/-- The inspector of a new flow. -/
def empty : Inspector := ⟨.empty, .empty⟩

/-- Take a piece of one direction, returning the bodies that it completes. -/
def push (inspector : Inspector) (direction : Direction) (data : List UInt8) :
    Inspector × Except FramingError (List (List UInt8)) :=
  match direction with
  | .request =>
    let (request, result) := inspector.request.push data
    ({ inspector with request }, result)
  | .response =>
    let (response, result) := inspector.response.push data
    ({ inspector with response }, result)

end Inspector

/-- A body that an inspected flow delivers. -/
structure Delivery where
  key : Flow.Key
  direction : Direction
  body : List UInt8
  deriving DecidableEq, Repr

/-- The line that a log shows for a delivery. -/
def Delivery.logLine (d : Delivery) : String :=
  s!"INFO: reassemble {d.direction.text} of {d.key.text} ({d.body.length} Bytes)"

end FlowRelay.Http
