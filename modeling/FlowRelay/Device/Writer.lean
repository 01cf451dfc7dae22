import FlowRelay.Device.Outlet

/-!
# FlowRelay.Device.Writer

The writing side of a device, act by act, while the engines still queue packets.

The writer waits for a packet or for the stop signal, whichever it finds first, and writes one
packet at a time.  Once it has found the signal it writes what is queued, and ends.  It ends as well
when nothing is queued and nobody is left who could queue anything.
-/

namespace FlowRelay.Device

/-- Where the writer stands, and whether it has found the stop signal. -/
inductive Stage where
  | idle (flushing : Bool)
  | writing (flushing : Bool) (packet : List UInt8)
  | ended

/-- The writing side of a device. -/
structure Writer where
  queue : List (List UInt8)
  /-- Nobody can queue packets any more. -/
  closed : Bool
  stage : Stage
  outlet : Outlet

namespace Writer

/-- What the engines, the device and the writer do. -/
inductive Act where
  /-- An engine queues a packet. -/
  | queue (packet : List UInt8)
  /-- The last one who could queue packets is gone. -/
  | close
  /-- The writer takes the packet that has waited longest. -/
  | next
  /-- The writer finds the stop signal. -/
  | notice
  /-- The device answers to the packet that is written. -/
  | answer (answer : Except Fault Nat)
  /-- The writer finds nothing more to wait for. -/
  | finish

/-- Nothing has been queued yet. -/
def empty : Writer := ⟨[], false, .idle false, .empty⟩

/-- Whether packets can be queued. -/
def isOpen (w : Writer) : Bool :=
  match w.stage with
  | .ended => false
  | .idle _ | .writing _ _ => !w.closed

/-- Whether the writer has ended. -/
def hasEnded (w : Writer) : Bool :=
  match w.stage with
  | .ended => true
  | .idle _ | .writing _ _ => false

/-- One act, with the stop signal as it is.  An act whose turn it is not changes nothing. -/
def step (stopped : Bool) (w : Writer) : Act → Writer
  | .queue packet => if w.isOpen then { w with queue := w.queue ++ [packet] } else w
  | .close => { w with closed := true }
  | .next =>
    match w.stage, w.queue with
    | .idle flushing, packet :: rest =>
      { w with queue := rest, stage := .writing flushing packet }
    | _, _ => w
  | .notice =>
    match w.stage, stopped with
    | .idle false, true => { w with stage := .idle true }
    | _, _ => w
  | .answer answer =>
    match w.stage with
    | .writing flushing packet =>
      { w with stage := .idle flushing, outlet := w.outlet.write ⟨packet, answer⟩ }
    | _ => w
  | .finish =>
    match w.stage, w.queue with
    | .idle flushing, [] => if flushing || w.closed then { w with stage := .ended } else w
    | _, _ => w

/-- Whether the writer does it, or the device for it. -/
def Act.isOwn : Act → Bool
  | .next | .notice | .answer _ | .finish => true
  | .queue _ | .close => false

/-- Many acts. -/
def run (stopped : Bool) (w : Writer) (acts : List Act) : Writer := acts.foldl (step stopped) w

end Writer

end FlowRelay.Device
