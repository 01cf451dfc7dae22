import FlowRelay.Proofs.Tcp.Run

/-!
# FlowRelay.Proofs.Tcp.Sent

What has been sent to the device is never looked at again: an engine goes on in the same way
whatever was sent before.

1. *Earlier packets* (`behind`): the engine with packets sent in front of its own.
2. *Plans* (`plan_behind`, `follow_behind`): it makes the same plans behind other packets, and
   follows them alike.
3. *Runs* (`run_behind`): so does a run, which adds its own packets behind the earlier ones.
-/

namespace FlowRelay.Tcp.Engine

open Packet

/-- The engine behind packets that were sent earlier. -/
def behind (e : Engine) (sent : List Outgoing) : Engine := { e with outbox := sent ++ e.outbox }

section

variable (e : Engine) (sent : List Outgoing) (s : Surroundings) (id : Nat)

theorem post_behind (connection : Option Nat) (packet : List UInt8) :
    (e.behind sent).post connection packet = (e.post connection packet).behind sent := by
  simp [post, behind]

/-- Whatever is done for a connection is done alike behind earlier packets. -/
theorem perform_behind (a : Act) :
    (e.behind sent).perform id a = (e.perform id a).behind sent := by
  cases a with
  | say flags payload =>
      simp only [perform]
      cases hpacket : (e.store.connection? id).bind (·.packet? e.config flags payload) with
      | none => rw [say_of_none hpacket, say_of_none (e := e.behind sent) hpacket]
      | some packet =>
          rw [say_of_some hpacket, say_of_some (e := e.behind sent) hpacket]
          exact post_behind e sent id packet
  | inspect direction data =>
      simp only [perform]
      cases hc : e.store.connection? id with
      | none => rw [inspect_of_none hc, inspect_of_none (e := e.behind sent) hc]
      | some c =>
          rw [inspect_eq hc, inspect_eq (e := e.behind sent) hc]
          rfl
  | hand payload =>
      simp only [perform, hand]
      split <;> rfl
  | advance | terminate | begin | finish => rfl

theorem carryOut_behind (acts : List Act) :
    (e.behind sent).carryOut id acts = (e.carryOut id acts).behind sent := by
  induction acts generalizing e with
  | nil => rfl
  | cons a acts ih => rw [carryOut_cons, carryOut_cons, perform_behind, ih]

/-! ## Plans -/

/-- What was sent earlier does not matter for what a step is going to do. -/
theorem plan_behind (event : Event) : (e.behind sent).plan s event = e.plan s event := rfl

theorem follow_behind (plan : Plan) :
    (e.behind sent).follow s plan = (e.follow s plan).behind sent := by
  cases plan with
  | act id acts => exact carryOut_behind e sent id acts
  | find key id acts => exact carryOut_behind { e with store := _ } sent id acts
  | accept c target =>
      exact carryOut_behind { e with store := _ } sent _ (begun s (.connect target))
  | refuse packet? =>
      cases packet? with
      | none => rfl
      | some packet => exact post_behind e sent none packet
  | idle | closeAll => rfl

end

/-! ## Runs -/

/-- A step is the same behind earlier packets. -/
theorem step_behind (e : Engine) (sent : List Outgoing) (s : Surroundings) (event : Event) :
    (e.behind sent).step s event = (e.step s event).behind sent := by
  rw [step_eq, step_eq, plan_behind, follow_behind]

/-- **Runs**: a run is the same behind earlier packets. -/
theorem run_behind (e : Engine) (sent : List Outgoing) (steps : List (Surroundings × Event)) :
    (e.behind sent).run steps = (e.run steps).behind sent := by
  induction steps generalizing e with
  | nil => rfl
  | cons x rest ih =>
      obtain ⟨s, event⟩ := x
      exact (congrArg (run · rest) (step_behind e sent s event)).trans (ih _)

end FlowRelay.Tcp.Engine
