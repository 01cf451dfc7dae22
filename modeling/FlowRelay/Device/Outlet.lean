import FlowRelay.Fault
import FlowRelay.Traffic

/-!
# FlowRelay.Device.Outlet

Writing the packets that the engines have completed to the device, in the order of the queue.  A
packet that the device refuses is lost and the next one follows.  When the stop signal is raised,
everything that is queued is still written.
-/

namespace FlowRelay.Device

/-- A queued packet, with what the device says when it is written: the number of bytes it took. -/
structure Queued where
  packet : List UInt8
  answer : Except Fault Nat

/-- What was passed to the device so far, with its answers. -/
structure Outlet where
  traffic : Traffic
  offers : List Queued

/-- What the wait for the next packet finds, where a packet and the stop signal are both there. -/
inductive Turn where
  | packet
  | stop
  deriving DecidableEq, Repr

namespace Outlet

/-- Nothing has been written yet. -/
def empty : Outlet := ⟨.zero, []⟩

/-- What the device has taken so far. -/
def taken (o : Outlet) : List (List UInt8) :=
  o.offers.filterMap fun q => q.answer.toOption.map q.packet.take

/-- Write one packet. -/
def write (o : Outlet) (q : Queued) : Outlet :=
  let offers := o.offers ++ [q]
  match q.answer with
  | .error _ => { o with offers }
  | .ok n => { traffic := o.traffic.add n, offers }

/-- Write all queued packets. -/
def flush (o : Outlet) (queue : List Queued) : Outlet := queue.foldl write o

/-- Write until the queue is used up or the stop signal is found, and flush the rest. -/
def run (o : Outlet) : List Turn → List Queued → Outlet
  | .packet :: turns, q :: queue => run (o.write q) turns queue
  | _, queue => o.flush queue

end Outlet

end FlowRelay.Device
