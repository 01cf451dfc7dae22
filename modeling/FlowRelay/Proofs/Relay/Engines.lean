import FlowRelay.Proofs.Tcp.Moves
import FlowRelay.Proofs.Udp.Moves

/-!
# FlowRelay.Proofs.Relay.Engines

The engines of both protocols at work side by side, in any order of their steps.  A step of one
leaves the other alone, so what holds of every run of an engine holds of it here.
-/

namespace FlowRelay

/-- The engines of both protocols. -/
structure Engines where
  tcp : Tcp.Engine
  udp : Udp.Engine

namespace Engines

/-- What makes one of the engines take a step. -/
inductive Event where
  | tcp (event : Tcp.Engine.Event)
  | udp (event : Udp.Engine.Event)

/-- Engines that have not seen anything yet. -/
def empty (config : Config) (inspecting : Bool) : Engines :=
  { tcp := .empty config inspecting, udp := .empty config }

/-- Take a step of one engine. -/
def step (e : Engines) (s : Surroundings) : Event → Engines
  | .tcp event => { e with tcp := e.tcp.step s event }
  | .udp event => { e with udp := e.udp.step s event }

/-- Take steps one after the other. -/
def run (e : Engines) (steps : List (Surroundings × Event)) : Engines :=
  steps.foldl (fun e (s, event) => e.step s event) e

/-- The steps of the TCP engine among steps. -/
def tcpSteps (steps : List (Surroundings × Event)) : List (Surroundings × Tcp.Engine.Event) :=
  steps.filterMap fun
    | (s, .tcp event) => some (s, event)
    | (_, .udp _) => none

/-- The steps of the UDP engine among steps. -/
def udpSteps (steps : List (Surroundings × Event)) : List (Surroundings × Udp.Engine.Event) :=
  steps.filterMap fun
    | (_, .tcp _) => none
    | (s, .udp event) => some (s, event)

/-- The TCP engine takes its own steps. -/
theorem tcp_run (e : Engines) (steps : List (Surroundings × Event)) :
    (e.run steps).tcp = e.tcp.run (tcpSteps steps) := by
  induction steps generalizing e with
  | nil => rfl
  | cons x rest ih =>
      obtain ⟨s, event⟩ := x
      cases event with
      | tcp event => exact ih (e.step s (.tcp event))
      | udp event => exact ih (e.step s (.udp event))

/-- The UDP engine takes its own steps. -/
theorem udp_run (e : Engines) (steps : List (Surroundings × Event)) :
    (e.run steps).udp = e.udp.run (udpSteps steps) := by
  induction steps generalizing e with
  | nil => rfl
  | cons x rest ih =>
      obtain ⟨s, event⟩ := x
      cases event with
      | tcp event => exact ih (e.step s (.tcp event))
      | udp event => exact ih (e.step s (.udp event))

/-- **Open connections**: after every run, and so after every step of one, each table lists exactly
the open connections of its protocol, at most one for each flow.  So no more of them are open than
the table has room for. -/
theorem run_openListed (config : Config) (inspecting : Bool)
    (steps : List (Surroundings × Event)) :
    let e := (Engines.empty config inspecting).run steps
    e.tcp.store.OpenListed (max config.capacity 1) ∧
      e.udp.store.OpenListed (max config.capacity 1) := by
  simp only [tcp_run, udp_run]
  exact ⟨Tcp.Engine.openListed_run config inspecting _, Udp.Engine.openListed_run config _⟩

end Engines

end FlowRelay
