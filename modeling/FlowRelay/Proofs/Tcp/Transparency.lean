import FlowRelay.Proofs.Flow.Blind
import FlowRelay.Proofs.Tcp.Run

/-!
# FlowRelay.Proofs.Tcp.Transparency

Nothing but the bodies tells whether connections are inspected.

1. *Plain engines* (`plain`): the engine without everything that is there for inspection.
2. *Acts* (`perform_plain`): inspection does not show in the plain engine (`plain_inspect`), and
   whatever else is done for a connection is done alike there.
3. *Plans* (`plan_plain`, `follow_plain`): the plain engine makes the same plans, and follows them.
4. *Runs* (`run_plain`): so does a run, and two engines that differ in inspection alone send the
   same packets and hand out the same data.
-/

namespace FlowRelay.Tcp

open Packet

/-! ## Plain engines -/

/-- The connection without its inspector. -/
def Connection.plain (c : Connection) : Connection := { c with inspector := none }

namespace Connection

theorem blind_plain : Flow.Blind plain where
  key _ := rfl
  isClosed _ := rfl
  close _ := rfl
  mayGoEarly _ := rfl

end Connection

namespace Engine

/-- The engine without everything that is there for inspection. -/
def plain (e : Engine) : Engine :=
  { e with
    config := { e.config with inspectPorts := [] }, inspecting := false
    store := e.store.map Connection.plain, delivered := [] }

theorem connection?_plain (e : Engine) (id : Nat) :
    e.plain.store.connection? id = (e.store.connection? id).map Connection.plain :=
  Flow.Store.connection?_map Connection.plain e.store id

/-- In front of all steps nothing else depends on what is inspected. -/
theorem plain_empty (config : Config) (inspecting : Bool) (ports : List UInt16)
    (inspecting' : Bool) :
    (empty { config with inspectPorts := ports } inspecting').plain =
      (empty config inspecting).plain := rfl

/-! ## Acts -/

/-- Inspection does not show. -/
theorem plain_inspect (e : Engine) (id : Nat) (direction : Http.Direction) (data : List UInt8) :
    (e.inspect id direction data).plain = e.plain := by
  cases hc : e.store.connection? id with
  | none => rw [inspect_of_none hc]
  | some c =>
      have hconnections := Flow.map_modify_of_eq (f := Connection.plain)
        (g := (·.inspected direction data)) (fun _ => rfl) e.store.connections id
      rw [inspect_eq hc, plain, update, Flow.Store.map, Flow.Store.update, hconnections]
      rfl

/-- A change that has nothing to do with the inspector. -/
theorem update_plain {f : Connection → Connection} (e : Engine) (id : Nat)
    (h : ∀ c, f c.plain = (f c).plain) : e.plain.update id f = (e.update id f).plain := by
  have hstore : e.plain.store.update id f = (e.store.update id f).map Connection.plain :=
    Flow.Store.update_map h e.store id
  rw [update, hstore]
  rfl

/-- Whatever is done for a connection is done alike in the plain engine. -/
theorem perform_plain (e : Engine) (id : Nat) (a : Act) :
    e.plain.perform id a = (e.perform id a).plain := by
  cases a with
  | advance f => exact update_plain e id fun _ => rfl
  | terminate =>
      have hstore : e.plain.store.terminate id = (e.store.terminate id).map Connection.plain :=
        Flow.Store.terminate_map Connection.blind_plain e.store id
      rw [perform, terminate, hstore]
      rfl
  | say flags payload =>
      have hsame : (e.plain.store.connection? id).bind (·.packet? e.plain.config flags payload) =
          (e.store.connection? id).bind (·.packet? e.config flags payload) := by
        rw [connection?_plain]
        cases e.store.connection? id <;> rfl
      simp only [perform]
      cases hpacket : (e.store.connection? id).bind (·.packet? e.config flags payload) with
      | none => rw [say_of_none hpacket, say_of_none (hsame.trans hpacket)]
      | some packet =>
          rw [say_of_some hpacket, say_of_some (hsame.trans hpacket)]
          rfl
  | inspect direction data =>
      rw [perform, perform, plain_inspect]
      -- The plain engine inspects nothing.
      rw [inspect, connection?_plain]
      cases e.store.connection? id <;> rfl
  | hand payload =>
      simp only [perform, hand]
      split <;> rfl
  | begin | finish => rfl

theorem carryOut_plain (e : Engine) (id : Nat) (acts : List Act) :
    e.plain.carryOut id acts = (e.carryOut id acts).plain := by
  induction acts generalizing e with
  | nil => rfl
  | cons a acts ih => rw [carryOut_cons, carryOut_cons, perform_plain, ih]

/-! ## Plans -/

/-- A plan without inspection. -/
def Plan.plain : Plan → Plan
  | .accept c target => .accept c.plain target
  | plan => plan

theorem actsFor_plain (e : Engine) (id : Nat) {acts acts' : Connection → List Act}
    (h : ∀ c, acts c.plain = acts' c) : e.plain.actsFor id acts = e.actsFor id acts' := by
  rw [actsFor, connection?_plain, actsFor]
  cases e.store.connection? id with
  | none => rfl
  | some c => exact h c

/-- The plain engine has the same plans. -/
theorem plan_plain (e : Engine) (s : Surroundings) (event : Event) :
    e.plain.plan s event = (e.plan s event).plain := by
  have hact {p : Prop} [Decidable p] {id : Nat} {acts acts' : List Act} (h : acts = acts') :
      (if p then Plan.act id acts else .idle) =
        (if p then Plan.act id acts' else .idle).plain := by
    rw [h]
    split <;> rfl
  cases event with
  | segment initial d =>
      simp only [plan]
      cases d.headers.tcp? with
      | none => rfl
      | some tcp =>
          have htable : e.plain.store.table = e.store.table := rfl
          simp only [htable]
          cases e.store.table.peek? ⟨d.destination, d.source.port⟩ with
          | some id => exact congrArg (Plan.find _ id) (actsFor_plain e id fun _ => rfl)
          | none =>
              simp only
              split
              · cases s.socket <;> rfl
              · rfl
  | connected id target result =>
      exact hact (congrArg _ (actsFor_plain e id fun _ => rfl))
  | received id result => exact hact (congrArg _ (actsFor_plain e id fun _ => rfl))
  | took id count => exact hact (actsFor_plain e id fun _ => rfl)
  | wrote id result => exact hact (actsFor_plain e id fun _ => rfl)
  | abandoned task =>
      have hclosed : e.plain.store.isClosed task.connection = e.store.isClosed task.connection :=
        Flow.Store.isClosed_map Connection.blind_plain e.store task.connection
      simp only [plan, hclosed]
      exact hact rfl
  | closeAll => rfl

/-- The plain engine follows plans alike. -/
theorem follow_plain (e : Engine) (s : Surroundings) (plan : Plan) :
    e.plain.follow s plan.plain = (e.follow s plan).plain := by
  cases plan with
  | act id acts => exact carryOut_plain e id acts
  | find key id acts => exact carryOut_plain { e with store := (e.store.find? key).1 } id acts
  | accept c target =>
      have hnew := Flow.Store.openNew_map Connection.blind_plain e.store s.now e.config.tcpIdle c
      have hlength : e.plain.store.connections.length = e.store.connections.length :=
        List.length_map _
      have hstore : ({ e.plain with
          store := (e.plain.store.openNew s.now e.plain.config.tcpIdle c.plain).1 } : Engine) =
          plain { e with store := (e.store.openNew s.now e.config.tcpIdle c).1 } :=
        congrArg (fun p => ({ e.plain with store := p.1 } : Engine)) hnew
      simp only [follow, Plan.plain, hlength]
      rw [hstore, carryOut_plain]
  | refuse packet? => cases packet? <;> rfl
  | closeAll =>
      have hclose := Flow.Store.closeAll_map Connection.blind_plain e.store
      exact congrArg (fun p => ({ e.plain with store := p.1 } : Engine)) hclose
  | idle => rfl

/-! ## Runs -/

/-- A step is the same in the plain engine. -/
theorem step_plain (e : Engine) (s : Surroundings) (event : Event) :
    e.plain.step s event = (e.step s event).plain := by
  rw [step_eq, step_eq, plan_plain, follow_plain]

/-- **Runs**: a run is the same in the plain engine. -/
theorem run_plain (e : Engine) (steps : List (Surroundings × Event)) :
    e.plain.run steps = (e.run steps).plain := by
  induction steps generalizing e with
  | nil => rfl
  | cons x rest ih =>
      obtain ⟨s, event⟩ := x
      exact (congrArg (run · rest) (step_plain e s event)).trans (ih _)

/-- Engines that differ in inspection alone go on doing so. -/
theorem plain_run_of_plain {e e' : Engine} (h : e'.plain = e.plain)
    (steps : List (Surroundings × Event)) : (e'.run steps).plain = (e.run steps).plain := by
  rw [← run_plain, ← run_plain, h]

theorem sent_of_plain {e e' : Engine} (h : e'.plain = e.plain) (id : Nat) :
    e'.sent id = e.sent id := by
  have hsent : e'.plain.sent id = e.plain.sent id := congrArg (·.sent id) h
  exact hsent

theorem map_key_of_plain {e e' : Engine} (h : e'.plain = e.plain) (id : Nat) :
    (e'.store.connection? id).map Connection.key =
      (e.store.connection? id).map Connection.key := by
  have hkey (e : Engine) : (e.plain.store.connection? id).map Connection.key =
      (e.store.connection? id).map Connection.key := by
    rw [connection?_plain, Option.map_map]
    rfl
  rw [← hkey e', h, hkey e]

end Engine

end FlowRelay.Tcp
