import FlowRelay.Proofs.Udp.Moves

/-!
# FlowRelay.Proofs.Udp.Stale

Work that ends when its connection has left the table.

Handling a datagram of the device takes two steps here: its connection is found or opened, and the
datagram is handed to the socket at some later time, when the connection may have left the table.

1. *Sends that take time* (`Dispatch`): the engine with the datagrams that are on their way to their
   sockets.  A datagram that is sent at once is handled as the engine does (`step_accept_sent`), and
   a run of the engine is one in which nothing is on its way (`run_own`).
2. *Coherence* (`Dispatch.Coherent`): what the engine keeps, it keeps with sends under way.
3. *Harmless steps* (`Harmless`): nothing is sent to the device, no read is begun, the table stays
   as it is, and so do all other connections.
4. *Steps* (`Dispatch.harmless_step`): such is every end of work for a connection that has left.
-/

namespace FlowRelay.Udp

open Packet

namespace Engine

variable {e e' : Engine} {k : Flow.Key} {i id : Nat}

/-! ## What stays -/

/-- What is closed stays closed. -/
theorem Move.isClosed (h : Move k e e') (hclosed : e.store.isClosed i = true) :
    e'.store.isClosed i = true := by
  cases h with
  | update howns hkeeps =>
      exact Flow.Store.isClosed_update hclosed (fun c hc => (hkeeps.closed c).trans hc) _
  | terminate howns => exact Flow.Store.isClosed_terminate hclosed _
  | openNew now idle _ _ _ => exact Flow.Store.isClosed_openNew hclosed now idle _
  | find | post | begin | finishTask | hand => exact hclosed

/-- Moves leave closed what is closed. -/
theorem Moves.isClosed (h : Moves k e e') (hclosed : e.store.isClosed i = true) :
    e'.store.isClosed i = true := by
  induction h with
  | refl => exact hclosed
  | tail _ hmove ih => exact hmove.isClosed ih

theorem Coherent.isClosed_step (h : e.Coherent) (hclosed : e.store.isClosed i = true)
    (s : Surroundings) (event : Event) : (e.step s event).store.isClosed i = true := by
  rcases h.step_cases s event with ⟨k, hmoves⟩ | hall | hsame
  · exact hmoves.isClosed hclosed
  · rw [hall]
    exact Flow.Store.isClosed_closeAllOf (s := { e.store with table := e.store.table.clear.1 })
      hclosed _
  · rwa [hsame]

/-- A connection stays with its flow. -/
theorem Owns.step (h : e.Owns k id) (hcoherent : e.Coherent) (s : Surroundings) (event : Event) :
    (e.step s event).Owns k id := by
  obtain ⟨c, hc, hkey, haddressed⟩ := h
  obtain ⟨c', hc', hkey', htemplate⟩ := hcoherent.connection?_step hc s event
  exact ⟨c', hc', hkey'.trans hkey, haddressed.congr hkey' htemplate⟩

/-! ## Harmless steps -/

/-- Nothing happens but that a read of the connection ends, and that its own account changes. -/
structure Harmless (e e' : Engine) (id : Nat) : Prop where
  outbox : e'.outbox = e.outbox
  tasks : e'.tasks = e.tasks ∨ e'.tasks = e.tasks.erase ⟨id⟩
  table : e'.store.table = e.store.table
  others : ∀ i, i ≠ id → e'.store.connection? i = e.store.connection? i

namespace Harmless

theorem refl (e : Engine) (id : Nat) : e.Harmless e id := ⟨rfl, .inl rfl, rfl, fun _ _ => rfl⟩

theorem finishTask (e : Engine) (id : Nat) : e.Harmless (e.finishTask id) id :=
  ⟨rfl, .inr rfl, rfl, fun _ _ => rfl⟩

/-- What is found under a key stays where it is, open and as it is. -/
theorem found (h : e.Harmless e' id) (hgone : e.store.Gone id) {key : Flow.Key}
    (hpeek : e.store.table.peek? key = some i) :
    e'.store.table.peek? key = some i ∧ e'.store.connection? i = e.store.connection? i := by
  have hi : i ≠ id := fun hi => hgone.notListed key (hi ▸ hpeek)
  exact ⟨by rw [h.table, hpeek], h.others i hi⟩

end Harmless

/-- A datagram that is handed to a socket, or cannot be, is lost with its connection. -/
theorem harmless_forward (hgone : e.store.Gone id) (s : Surroundings) (calls : SocketCalls)
    (payload : List UInt8) : e.Harmless (e.forward s calls id payload) id := by
  unfold forward
  split
  · refine ⟨rfl, .inl rfl, hgone.table_terminate, fun i hi => ?_⟩
    unfold terminate Flow.Store.terminate
    split
    · rfl
    · exact Flow.Store.connection?_update_of_ne hi.symm _
  · exact ⟨rfl, .inl rfl, rfl, fun i hi => Flow.Store.connection?_update_of_ne hi.symm _⟩

/-- A read that ends too late does nothing. -/
theorem received_of_closed (hclosed : e.store.isClosed id = true) (s : Surroundings)
    (result : Except Fault (List UInt8)) : e.received s id result = e := by
  obtain ⟨c, hc, hshut⟩ := Flow.Store.isClosed_iff.mp hclosed
  have hshut' : c.closed = true := hshut
  simp only [received, hc, hshut', if_true]

end Engine

/-! ## Dispatching -/

namespace Dispatch

/-- The connection that an event is an end of work for. -/
def Event.connection? : Event → Option Nat
  | .accept _ _ | .own (.datagram _ _) | .own .closeAll => none
  | .sent x _ => some x.connection
  | .own (.received id _) | .own (.abandoned id) => some id

variable {p : Dispatch} {s : Surroundings} {id : Nat}

theorem run_append (p : Dispatch) (xs ys : List (Surroundings × Event)) :
    p.run (xs ++ ys) = (p.run xs).run ys := List.foldl_append

@[simp] theorem run_concat (p : Dispatch) (xs : List (Surroundings × Event)) (s : Surroundings)
    (event : Event) : p.run (xs ++ [(s, event)]) = (p.run xs).step s event := by
  rw [run_append]
  rfl

/-- A run of the engine is a run in which nothing is on its way. -/
theorem run_own (config : Config) (steps : List (Surroundings × Engine.Event)) :
    (empty config).run (steps.map fun (s, event) => (s, .own event)) =
      ⟨(Engine.empty config).run steps, []⟩ := by
  induction steps using List.reverseRecOn with
  | nil => rfl
  | append_singleton steps x ih =>
      rw [List.map_append, List.map_singleton, run_concat, ih, Engine.run_concat]
      rfl

/-- A datagram that is sent as soon as it is accepted is handled as a whole. -/
theorem step_accept_sent (p : Dispatch) (s : Surroundings) (calls : SocketCalls) (d : Datagram) :
    (match (p.engine.accept s calls d).2 with
      | some id => (p.step s (.accept calls d)).step s (.sent ⟨id, d.payload⟩ calls)
      | none => p.step s (.accept calls d)).engine =
      (p.step s (.own (.datagram calls d))).engine := by
  obtain ⟨engine, id?, haccept⟩ : ∃ engine id?, p.engine.accept s calls d = (engine, id?) :=
    ⟨_, _, rfl⟩
  cases id? with
  | none => simp only [step, Engine.step, p.engine.handle_eq, haccept]
  | some id => simp [step, Engine.step, p.engine.handle_eq, haccept]

/-! ## Coherence -/

/-- The engine is coherent, and what is on its way is for connections that exist. -/
structure Coherent (p : Dispatch) : Prop where
  engine : p.engine.Coherent
  sends : ∀ x ∈ p.sends, ∃ k, p.engine.Owns k x.connection

/-- Steps keep the dispatcher coherent. -/
theorem Coherent.step (h : p.Coherent) (s : Surroundings) (event : Event) :
    (p.step s event).Coherent := by
  cases event with
  | accept calls d =>
      obtain ⟨hmoves, howns⟩ := h.engine.accept_moves s calls d
      have hengine := h.engine.moves hmoves
      have hsends : ∀ x ∈ p.sends, ∃ k, (p.engine.accept s calls d).1.Owns k x.connection := by
        intro x hx
        obtain ⟨k, hk⟩ := h.sends x hx
        exact ⟨k, hk.moves hmoves⟩
      simp only [Dispatch.step]
      split
      · next engine id heq =>
          rw [heq] at hengine hsends howns
          refine ⟨hengine, fun x hx => ?_⟩
          cases List.mem_append.mp hx with
          | inl hold => exact hsends x hold
          | inr hnew =>
              rw [List.mem_singleton.mp hnew]
              exact ⟨_, howns id rfl⟩
      · next engine heq =>
          rw [heq] at hengine hsends
          exact ⟨hengine, hsends⟩
  | sent x calls =>
      simp only [Dispatch.step]
      split
      · next hx =>
          obtain ⟨k, hk⟩ := h.sends x (by simpa using hx)
          have hmoves := hk.forward s calls x.payload
          refine ⟨h.engine.moves hmoves, fun y hy => ?_⟩
          obtain ⟨k', hk'⟩ := h.sends y (List.mem_of_mem_erase hy)
          exact ⟨k', hk'.moves hmoves⟩
      · exact h
  | own event =>
      refine ⟨h.engine.step s event, fun x hx => ?_⟩
      obtain ⟨k, hk⟩ := h.sends x hx
      exact ⟨k, hk.step h.engine s event⟩

theorem coherent_run (config : Config) (steps : List (Surroundings × Event)) :
    ((empty config).run steps).Coherent := by
  induction steps using List.reverseRecOn with
  | nil => exact ⟨.empty config, nofun⟩
  | append_singleton steps x ih =>
      rw [run_concat]
      exact ih.step x.1 x.2

/-! ## Steps -/

/-- **Steps**: the end of work for a connection that has left the table is harmless. -/
theorem Coherent.harmless_step (h : p.Coherent) (hgone : p.engine.store.Gone id) {event : Event}
    (hevent : event.connection? = some id) (s : Surroundings) :
    p.engine.Harmless (p.step s event).engine id := by
  have hclosed := h.engine.accurate.gone_iff.mp hgone
  cases event with
  | accept calls d => contradiction
  | sent x calls =>
      obtain rfl : x.connection = id := Option.some.inj hevent
      simp only [Dispatch.step]
      split
      · exact Engine.harmless_forward hgone s calls x.payload
      · exact .refl _ _
  | own event =>
      cases event with
      | datagram | closeAll => contradiction
      | received i result =>
          obtain rfl : i = id := Option.some.inj hevent
          simp only [Dispatch.step, Engine.step]
          split
          · have hreceived :=
              Engine.received_of_closed (e := p.engine.finishTask i) hclosed s result
            rw [hreceived]
            exact .finishTask _ _
          · exact .refl _ _
      | abandoned i =>
          obtain rfl : i = id := Option.some.inj hevent
          simp only [Dispatch.step, Engine.step, hclosed, if_true]
          exact .finishTask _ _

/-- What is closed stays closed. -/
theorem Coherent.isClosed_step (h : p.Coherent) (hclosed : p.engine.store.isClosed id = true)
    (s : Surroundings) (event : Event) : (p.step s event).engine.store.isClosed id = true := by
  cases event with
  | accept calls d =>
      have haccept := (h.engine.accept_moves s calls d).1.isClosed hclosed
      simp only [Dispatch.step]
      split
      · next heq =>
          rw [heq] at haccept
          exact haccept
      · next heq =>
          rw [heq] at haccept
          exact haccept
  | sent x calls =>
      simp only [Dispatch.step]
      split
      · next hx =>
          obtain ⟨k, hk⟩ := h.sends x (by simpa using hx)
          exact (hk.forward s calls x.payload).isClosed hclosed
      · exact hclosed
  | own event => exact h.engine.isClosed_step hclosed s event

/-- **Departures**: a connection that has left the table never comes back. -/
theorem gone_run {config : Config} {before : List (Surroundings × Event)}
    (h : ((empty config).run before).engine.store.Gone id)
    (between : List (Surroundings × Event)) :
    ((empty config).run (before ++ between)).engine.store.Gone id := by
  induction between using List.reverseRecOn with
  | nil => rwa [List.append_nil]
  | append_singleton between x ih =>
      obtain ⟨s, event⟩ := x
      have hsofar := coherent_run config (before ++ between)
      rw [← List.append_assoc, run_concat, (hsofar.step s event).engine.accurate.gone_iff]
      exact hsofar.isClosed_step (hsofar.engine.accurate.gone_iff.mp ih) s event

end Dispatch

end FlowRelay.Udp
