import FlowRelay.Proofs.Relay.Isolation
import FlowRelay.Proofs.Tcp.Stale
import FlowRelay.Proofs.Udp.Stale

/-!
# FlowRelay.Proofs.Relay.Stale

Work that is under way for a connection when it leaves the table ends at some later time, and by
then the flow may have a newer connection under the same key.  The engines notice: the newer one
does not.
-/

namespace FlowRelay

/-- **Stale work**: once a connection has left the table, whatever happens in between, the end of
its connect, of its read, of its writer or of one of its sends shows the device nothing, delivers no
body, begins no work and leaves the table as it is.  What is found under a key, such as a newer
connection of the same flow, is still found there, open and as it was. -/
theorem run_stale (config : Config) (inspecting : Bool) :
    (∀ before between s event id,
      ((Tcp.Engine.empty config inspecting).run before).store.Gone id →
      Tcp.Engine.Event.connection? event = some id →
        let e := (Tcp.Engine.empty config inspecting).run (before ++ between)
        let e' := e.step s event
        e.Harmless e' id ∧
          ∀ key i, e.store.table.peek? key = some i →
            e'.store.table.peek? key = some i ∧ e'.store.isClosed i = false ∧
              e'.view i = e.view i) ∧
    ∀ before between s event id,
      ((Udp.Dispatch.empty config).run before).engine.store.Gone id →
      Udp.Dispatch.Event.connection? event = some id →
        let p := (Udp.Dispatch.empty config).run (before ++ between)
        let e' := (p.step s event).engine
        p.engine.Harmless e' id ∧
          ∀ key i, p.engine.store.table.peek? key = some i →
            e'.store.table.peek? key = some i ∧ e'.store.isClosed i = false ∧
              e'.store.connection? i = p.engine.store.connection? i := by
  constructor
  · intro before between s event id hgone hevent e e'
    have hcoherent : e.Coherent := Tcp.Engine.coherent_run config inspecting _
    have hstill : e.store.Gone id := Tcp.Engine.gone_run hgone between
    have hharmless : e.Harmless e' id :=
      Tcp.Engine.harmless_step (hcoherent.accurate.gone_iff.mp hstill) hevent s
    refine ⟨hharmless, fun key i hpeek => ?_⟩
    obtain ⟨hpeek', hsame⟩ := hharmless.found hstill hpeek
    exact ⟨hpeek', (hcoherent.step s event).accurate.isClosed_of_peek? hpeek', hsame⟩
  · intro before between s event id hgone hevent p e'
    have hcoherent : p.Coherent := Udp.Dispatch.coherent_run config _
    have hstill : p.engine.store.Gone id := Udp.Dispatch.gone_run hgone between
    have hharmless : p.engine.Harmless e' id := hcoherent.harmless_step hstill hevent s
    refine ⟨hharmless, fun key i hpeek => ?_⟩
    obtain ⟨hpeek', hsame⟩ := hharmless.found hstill hpeek
    exact ⟨hpeek', (hcoherent.step s event).engine.accurate.isClosed_of_peek? hpeek', hsame⟩

/-! ## A sample -/

namespace Stale.Sample

open Packet
open Tcp.Engine.Sample (surroundings)

/-- A connection is opened and reset before its connect ends. -/
def reset : List (Surroundings × Tcp.Engine.Event) :=
  [.segment 100 (Tcp.Engine.Sample.datagram Flag.syn 7 []),
    .segment 0 (Tcp.Engine.Sample.datagram Flag.rst 8 [])].map (surroundings, ·)

/-- The flow is opened again. -/
def reopened : List (Surroundings × Tcp.Engine.Event) :=
  [(surroundings, .segment 200 (Tcp.Engine.Sample.datagram Flag.syn 9 []))]

/-- Every connection is closed while a datagram is on its way to its socket. -/
def closed : List (Surroundings × Udp.Dispatch.Event) :=
  [.accept Engines.Sample.calls (Engines.Sample.datagram [1, 2]), .own .closeAll].map
    (surroundings, ·)

/-- The next datagram of the flow opens it again. -/
def resumed : List (Surroundings × Udp.Dispatch.Event) :=
  [(surroundings, .accept Engines.Sample.calls (Engines.Sample.datagram [3]))]

/-- The datagram that was on its way cannot be sent. -/
def failed : Udp.Dispatch.Event := .sent ⟨0, [1, 2]⟩ ⟨fun _ => .ok (), .error .notConnected⟩

end Stale.Sample

open Stale.Sample in
/-- A connect succeeds and a send fails for connections that have left, while newer connections of
their flows are in the table. -/
theorem stale_of_sample :
    let config := Tcp.Engine.Sample.config
    let surroundings := Tcp.Engine.Sample.surroundings
    let connected : Tcp.Engine.Event := .connected 0 Tcp.Engine.Sample.target (.ok ())
    let e := (Tcp.Engine.empty config false).run (reset ++ reopened)
    let p := (Udp.Dispatch.empty config).run (closed ++ resumed)
    ((Tcp.Engine.empty config false).run reset).store.Gone 0 ∧
      connected.connection? = some 0 ∧
      e.Harmless (e.step surroundings connected) 0 ∧
      e.tasks.contains (.connect 0 Tcp.Engine.Sample.target) = true ∧
      e.store.table.peek? Engines.Sample.flow = some 1 ∧
      ((Udp.Dispatch.empty config).run closed).engine.store.Gone 0 ∧
      failed.connection? = some 0 ∧
      p.engine.Harmless (p.step surroundings failed).engine 0 ∧
      p.sends.length = 2 ∧
      p.engine.store.table.peek? Engines.Sample.flow = some 1 := by
  intro config surroundings connected e p
  have hreset : ((Tcp.Engine.empty config false).run reset).store.Gone 0 :=
    (Tcp.Engine.coherent_run config false reset).accurate.gone_iff.mpr (by decide +kernel)
  have hclosed : ((Udp.Dispatch.empty config).run closed).engine.store.Gone 0 :=
    (Udp.Dispatch.coherent_run config closed).engine.accurate.gone_iff.mpr (by decide +kernel)
  have htcp := (run_stale config false).1 reset reopened surroundings connected 0 hreset rfl
  have hudp := (run_stale config false).2 closed resumed surroundings failed 0 hclosed rfl
  exact ⟨hreset, rfl, htcp.1, by decide +kernel, by decide +kernel, hclosed, rfl, hudp.1,
    by decide +kernel, by decide +kernel⟩

end FlowRelay
