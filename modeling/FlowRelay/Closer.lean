/-!
# FlowRelay.Closer

A signal that is raised once and wakes everybody who waits for it.

Raising it takes two steps: the flag is swapped, and whoever found it down notifies the waiters.
Waiting takes steps as well: a waiter arms a notification, tests the flag, and parks until the
notification comes, then starts over.  A notification reaches every waiter that is armed when it is
sent, parked or not, so testing the flag between arming and parking loses nothing.
-/

namespace FlowRelay

/-- What a waiter is about to do. -/
inductive Waiter where
  /-- Arm a notification. -/
  | start
  /-- Test the flag; the notification may have come already. -/
  | armed (notified : Bool)
  /-- Go on once the notification has come. -/
  | parked (notified : Bool)
  | done
  deriving DecidableEq, Repr

namespace Waiter

/-- One step of a waiter.  A parked waiter stays where it is until its notification comes. -/
def step (closed : Bool) : Waiter → Waiter
  | .start => .armed false
  | .armed notified => if closed then .done else .parked notified
  | .parked true => .start
  | .parked false => .parked false
  | .done => .done

/-- The notification of a waiter comes, if it has armed one. -/
def notify : Waiter → Waiter
  | .start => .start
  | .armed _ => .armed true
  | .parked _ => .parked true
  | .done => .done

/-- The steps of a waiter until it is done or parks: going round once, it takes at most four. -/
def poll (closed : Bool) (w : Waiter) : Waiter :=
  (((w.step closed).step closed).step closed).step closed

end Waiter

/-- The flag of the signal, and those who wait for it. -/
structure Closer where
  closed : Bool
  waiters : List Waiter
  deriving DecidableEq, Repr

namespace Closer

/-- A signal that is not raised, with nobody waiting. -/
def empty : Closer := ⟨false, []⟩

/-- Swap the flag, telling whether it was down. -/
def swap (c : Closer) : Closer × Bool := ({ c with closed := true }, !c.closed)

/-- Notify everybody. -/
def notify (c : Closer) : Closer := { c with waiters := c.waiters.map Waiter.notify }

/-- Raise the signal, telling whether this call raised it. -/
def close (c : Closer) : Closer × Bool :=
  let (c, first) := c.swap
  (if first then c.notify else c, first)

/-- Somebody else is going to wait. -/
def wait (c : Closer) : Closer := { c with waiters := c.waiters ++ [.start] }

/-- Every waiter goes on as far as it can. -/
def poll (c : Closer) : Closer := { c with waiters := c.waiters.map (Waiter.poll c.closed) }

/-- How many waiters are done. -/
def woken (c : Closer) : Nat := c.waiters.count .done

/-- How many waiters are not done. -/
def waiting (c : Closer) : Nat := c.waiters.length - c.woken

end Closer

end FlowRelay
