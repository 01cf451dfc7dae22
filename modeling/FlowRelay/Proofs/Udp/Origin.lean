import FlowRelay.Proofs.Udp.Answers
import FlowRelay.Proofs.Udp.Stale

/-!
# FlowRelay.Proofs.Udp.Origin

Which connection a datagram of the device is sent on, and what a connection keeps of the datagram
that opened it.

1. *Origins* (`Connection.OpenedBy`): a connection belongs to the flow of a datagram, is connected
   to where the proxy sends that flow, and is addressed by the swapped headers of the datagram.
2. *Acceptance* (`Coherent.accept_of_open`, `Coherent.accept_of_closed`): a datagram is sent on the
   open connection of its flow, or else on a new one, if a socket can be had for it.
3. *Steps* (`Coherent.connection?_step`, `Coherent.openedBy_of_none`): a connection keeps its flow,
   its socket and its headers, and comes only with a datagram of the device.
4. *Runs* (`exists_opened`): every connection was opened by a datagram of the run.
-/

namespace FlowRelay.Udp

open Packet

/-- The flow of a datagram of the device. -/
def flowOf (d : Datagram) : Flow.Key := ⟨d.destination, d.source.port⟩

/-- A connection is what a datagram of the device opened in these surroundings. -/
structure Connection.OpenedBy (c : Connection) (s : Surroundings) (d : Datagram) : Prop where
  isUdp : ∃ udp, d.headers.udp? = some udp
  key : c.key = flowOf d
  target : c.target = s.proxy.resolve d.destination
  template : c.template = d.headers.swap

namespace Connection.OpenedBy

variable {c c' : Connection} {s : Surroundings} {d : Datagram}

theorem congr (h : c.OpenedBy s d) (hkey : c'.key = c.key) (htemplate : c'.template = c.template)
    (htarget : c'.target = c.target) : c'.OpenedBy s d :=
  ⟨h.isUdp, hkey.trans h.key, htarget.trans h.target, htemplate.trans h.template⟩

theorem make {udp : Packet.Udp} (hudp : d.headers.udp? = some udp) (s : Surroundings) :
    (Connection.make (flowOf d) (s.proxy.resolve d.destination) d.headers.swap s.now).OpenedBy s
      d :=
  ⟨⟨udp, hudp⟩, rfl, rfl, rfl⟩

/-- Everything that is sent on a connection comes from where the datagram was sent to. -/
theorem source_eq (h : c.OpenedBy s d) : c.template.source = d.destination := by
  rw [h.template, Headers.source_swap]
  rfl

/-- Everything that is sent on a connection goes to where the datagram came from. -/
theorem destination_eq (h : c.OpenedBy s d) : c.template.destination = d.source := by
  rw [h.template, Headers.destination_swap]
  rfl

end Connection.OpenedBy

namespace Engine

variable {e e' : Engine} {s : Surroundings} {calls : SocketCalls} {d : Datagram}
  {udp : Packet.Udp} {id : Nat} {c : Connection}

/-! ## Acceptance -/

/-- A connection that comes does not go early at once. -/
theorem mayGoEarly_make (key : Flow.Key) (target : Net.Endpoint) (template : Headers)
    (now : Instant) (idle : Nat) :
    Flow.Tracked.mayGoEarly (Connection.make key target template now) now idle = false :=
  now.elapsedMore_self idle

/-- A connection that comes with the acceptance of a datagram is opened by it. -/
theorem openedBy_of_accept (hnone : e.store.connection? id = none)
    (hc : (e.accept s calls d).1.store.connection? id = some c) : c.OpenedBy s d := by
  unfold accept at hc
  cases hudp : d.headers.udp? with
  | none =>
      simp only [hudp] at hc
      exact absurd (hnone.symm.trans hc) nofun
  | some udp =>
      simp only [hudp, Flow.Store.find?, Table.snd_get?] at hc
      cases hpeek : e.store.table.peek? ⟨d.destination, d.source.port⟩ with
      | some i =>
          simp only [hpeek] at hc
          exact absurd (hnone.symm.trans hc) nofun
      | none =>
          simp only [hpeek] at hc
          have hopened : ∀ c, (e.openConnection s calls ⟨d.destination, d.source.port⟩
              d.headers).1.store.connection? id = some c → c.OpenedBy s d := by
            intro c hc
            have hmake := Connection.OpenedBy.make hudp s
            cases openConnection_of_none hnone hc with
            | inl hnew => exact hnew ▸ hmake
            | inr hnew => exact hnew ▸ hmake.congr rfl rfl rfl
          split at hc
          · next heq => exact hopened c (heq ▸ hc)
          · next heq => exact hopened c (heq ▸ hc)

/-- **Acceptance**: a datagram is sent on the open connection of its flow. -/
theorem Coherent.accept_of_open (h : e.Coherent) (hudp : d.headers.udp? = some udp)
    (hc : e.store.connection? id = some c) (hkey : c.key = flowOf d) (hopen : c.closed = false)
    (s : Surroundings) (calls : SocketCalls) : (e.accept s calls d).2 = some id := by
  have hpeek : e.store.table.peek? ⟨d.destination, d.source.port⟩ = some id :=
    h.accurate.peek?_iff.mpr ⟨c, hc, hkey, hopen⟩
  simp only [accept, hudp, Flow.Store.find?, Table.snd_get?, hpeek]

/-- A datagram opens a new connection and is sent on it, if a socket can be had and connected, and
is dropped if not. -/
def Starts (e : Engine) (s : Surroundings) (calls : SocketCalls) (d : Datagram) : Prop :=
  match s.socket, calls.connect (s.proxy.resolve d.destination) with
  | .ok (), .ok () => ∃ id c, (e.accept s calls d).2 = some id ∧
      e.store.connection? id = none ∧
      (e.accept s calls d).1.store.connection? id = some c ∧ c.closed = false ∧ c.OpenedBy s d
  | _, _ => e.accept s calls d = (e, none)

/-- **Acceptance**: where no connection of its flow is open, a datagram starts one. -/
theorem Coherent.accept_of_closed (h : e.Coherent) (hudp : d.headers.udp? = some udp)
    (hclosed : ∀ id c, e.store.connection? id = some c → c.key = flowOf d → c.closed = true)
    (hserved : s.multiplexerOpen = true) (calls : SocketCalls) : e.Starts s calls d := by
  have hpeek : e.store.table.peek? ⟨d.destination, d.source.port⟩ = none := by
    rw [Option.eq_none_iff_forall_ne_some]
    intro id hpeek
    obtain ⟨c, hc, hkey, hopen⟩ := h.accurate.peek?_iff.mp hpeek
    exact absurd ((hclosed id c hc hkey).symm.trans hopen) nofun
  simp only [Starts, accept, hudp, Flow.Store.find?, Table.snd_get?, hpeek, openConnection]
  cases hsocket : s.socket with
  | error x => rfl
  | ok _ =>
      cases hconnect : calls.connect (s.proxy.resolve d.destination) with
      | error x => rfl
      | ok _ =>
          simp only [hserved, if_true]
          have hnew := h.accurate.connection?_openNew rfl
            (mayGoEarly_make (flowOf d) (s.proxy.resolve d.destination) d.headers.swap s.now
              e.config.udpIdle)
          have hnone : e.store.connection? e.store.connections.length = none :=
            List.getElem?_eq_none (Nat.le_refl _)
          exact ⟨_, _, rfl, hnone, hnew, rfl, .make hudp s⟩

end Engine

namespace Dispatch

variable {p : Dispatch} {s : Surroundings} {event : Event} {i id : Nat} {c : Connection}
  {config : Config} {steps : List (Surroundings × Event)}

/-! ## Steps -/

/-- The datagram of the device that a step accepts, or drops. -/
def Event.datagram? : Event → Option Datagram
  | .accept _ d | .own (.datagram _ d) => some d
  | .sent _ _ | .own (.received _ _) | .own (.abandoned _) | .own .closeAll => none

/-- A datagram that is handled as a whole is accepted, and sent where that says. -/
theorem engine_step_datagram (p : Dispatch) (s : Surroundings) (calls : SocketCalls)
    (d : Datagram) : (p.step s (.own (.datagram calls d))).engine =
      match (p.engine.accept s calls d).2 with
      | some id => (p.engine.accept s calls d).1.forward s calls id d.payload
      | none => (p.engine.accept s calls d).1 := by
  have hhandle := p.engine.handle_eq s calls d
  rcases haccept : p.engine.accept s calls d with ⟨e, _ | id⟩
  · rw [haccept] at hhandle
    exact hhandle
  · rw [haccept] at hhandle
    exact hhandle

theorem engine_step_accept (p : Dispatch) (s : Surroundings) (calls : SocketCalls)
    (d : Datagram) : (p.step s (.accept calls d)).engine = (p.engine.accept s calls d).1 := by
  simp only [step]
  split <;> simp only [*]

/-- A step makes moves of one flow, closes every connection, or does nothing. -/
theorem Coherent.step_cases (h : p.Coherent) (s : Surroundings) (event : Event) :
    (∃ k, Engine.Moves k p.engine (p.step s event).engine) ∨
      (p.step s event).engine = p.engine.closeAll.1 ∨ (p.step s event).engine = p.engine := by
  cases event with
  | accept calls d =>
      rw [engine_step_accept]
      exact .inl ⟨_, (h.engine.accept_moves s calls d).1⟩
  | sent x calls =>
      simp only [Dispatch.step]
      split
      · next hx =>
          obtain ⟨k, hk⟩ := h.sends x (by simpa using hx)
          exact .inl ⟨k, hk.forward s calls x.payload⟩
      · exact .inr (.inr rfl)
  | own event => exact h.engine.step_cases s event

/-- A connection keeps its flow, its headers and its socket. -/
theorem Coherent.connection?_step (h : p.Coherent)
    (hc : p.engine.store.connection? i = some c) (s : Surroundings) (event : Event) :
    ∃ c', (p.step s event).engine.store.connection? i = some c' ∧ c'.key = c.key ∧
      c'.template = c.template ∧ c'.target = c.target := by
  rcases h.step_cases s event with ⟨k, hmoves⟩ | hall | hsame
  · obtain ⟨c', hc', hkey, htemplate⟩ := hmoves.connection? hc
    exact ⟨c', hc', hkey, htemplate, hmoves.target hc hc'⟩
  · rw [hall]
    have hclosed := Flow.Store.connection?_closeAllOf (fun _ => rfl)
      { p.engine.store with table := p.engine.store.table.clear.1 }
      (p.engine.store.table.clear.2.map Prod.snd) i
    have hstays : { p.engine.store with table := p.engine.store.table.clear.1 }.connection? i =
      some c := hc
    rw [hstays] at hclosed
    split at hclosed
    · exact ⟨c.close, hclosed, rfl, rfl, rfl⟩
    · exact ⟨c, hclosed, rfl, rfl, rfl⟩
  · rw [hsame]
    exact ⟨c, hc, rfl, rfl, rfl⟩

/-- A connection comes only with a datagram of the device, which opens it. -/
theorem Coherent.openedBy_of_none (h : p.Coherent)
    (hnone : p.engine.store.connection? i = none)
    (hc : (p.step s event).engine.store.connection? i = some c) :
    ∃ d, event.datagram? = some d ∧ c.OpenedBy s d := by
  cases event with
  | accept calls d =>
      rw [engine_step_accept] at hc
      exact ⟨d, rfl, Engine.openedBy_of_accept hnone hc⟩
  | sent x calls =>
      simp only [Dispatch.step] at hc
      split at hc
      · have hstill := (Engine.forward_of_none hnone s calls _ _).symm.trans hc
        exact absurd hstill (Option.some_ne_none _).symm
      · exact absurd (hnone.symm.trans hc) (Option.some_ne_none _).symm
  | own event =>
      rcases Engine.step_of_none hnone s event with hstill | ⟨calls, d, rfl⟩
      · exact absurd (hstill.symm.trans hc) (Option.some_ne_none _).symm
      · refine ⟨d, rfl, ?_⟩
        obtain ⟨-, howns⟩ := h.engine.accept_moves s calls d
        rw [engine_step_datagram] at hc
        split at hc
        · next id hid =>
            cases hc₁ : (p.engine.accept s calls d).1.store.connection? i with
            | none =>
                have hstill := Engine.forward_of_none hc₁ s calls id d.payload
                exact absurd (hstill.symm.trans hc) (Option.some_ne_none _).symm
            | some c₁ =>
                have hmoves := (howns id hid).forward s calls d.payload
                obtain ⟨c', hc', hkey, htemplate⟩ := hmoves.connection? hc₁
                have htarget := hmoves.target hc₁ hc'
                cases hc'.symm.trans hc
                exact (Engine.openedBy_of_accept hnone hc₁).congr hkey htemplate htarget
        · exact Engine.openedBy_of_accept hnone hc

theorem Coherent.config_step (h : p.Coherent) (s : Surroundings) (event : Event) :
    (p.step s event).engine.config = p.engine.config := by
  rcases h.step_cases s event with ⟨k, hmoves⟩ | hall | hsame
  · exact hmoves.config
  · rw [hall]
    rfl
  · rw [hsame]

/-! ## Runs -/

theorem config_run (config : Config) (steps : List (Surroundings × Event)) :
    ((empty config).run steps).engine.config = config := by
  induction steps using List.reverseRecOn with
  | nil => rfl
  | append_singleton steps x ih =>
      rw [run_concat]
      exact ((coherent_run config steps).config_step x.1 x.2).trans ih

/-- In one of the steps a datagram of the device opened the connection. -/
def Opened (p : Dispatch) (steps : List (Surroundings × Event)) (id : Nat) (s : Surroundings)
    (d : Datagram) : Prop :=
  ∃ before event after, steps = before ++ (s, event) :: after ∧ event.datagram? = some d ∧
    (p.run before).engine.store.connection? id = none ∧
    ((p.run before).step s event).engine.store.connection? id ≠ none

theorem Opened.append {d : Datagram} (h : p.Opened steps id s d)
    (more : List (Surroundings × Event)) : p.Opened (steps ++ more) id s d := by
  obtain ⟨before, event, after, rfl, hopens⟩ := h
  exact ⟨before, event, after ++ more, by simp, hopens⟩

/-- **Origins**: every connection was opened by a datagram of the run. -/
theorem exists_opened (hc : ((empty config).run steps).engine.store.connection? id = some c) :
    ∃ s d, (empty config).Opened steps id s d ∧ c.OpenedBy s d := by
  induction steps using List.reverseRecOn generalizing c with
  | nil => exact absurd hc nofun
  | append_singleton steps x ih =>
      obtain ⟨s, event⟩ := x
      have hsofar := coherent_run config steps
      rw [run_concat] at hc
      cases hbefore : ((empty config).run steps).engine.store.connection? id with
      | none =>
          obtain ⟨d, hd, hopened⟩ := hsofar.openedBy_of_none hbefore hc
          refine ⟨s, d, ⟨steps, event, [], rfl, hd, hbefore, ?_⟩, hopened⟩
          rw [hc]
          nofun
      | some c₀ =>
          obtain ⟨s₀, d, hopens, hopened⟩ := ih hbefore
          obtain ⟨c', hc', hkey, htemplate, htarget⟩ := hsofar.connection?_step hbefore s event
          cases hc'.symm.trans hc
          exact ⟨s₀, d, hopens.append _, hopened.congr hkey htemplate htarget⟩

end Dispatch

end FlowRelay.Udp
