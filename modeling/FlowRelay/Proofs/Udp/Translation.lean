import FlowRelay.Proofs.Relay.Isolation
import FlowRelay.Proofs.Udp.Reception

/-!
# FlowRelay.Proofs.Udp.Translation

The UDP engine translates addresses faithfully: every datagram of the device goes to the socket of
its flow, and every datagram of a socket comes back to the device.

1. *One read* (`Engine.OneRead`): exactly one read is under way of every open connection.
2. *Accounts* (`accepted`, `sent`, `arrived`): what is noted of the datagrams at each step of a run.
   A datagram that is accepted is on its way until it is sent (`coe_accepted_step`), what is sent is
   handed to the socket (`handed_step`), and what arrives is sent to the device (`outbox_step`).
3. *Runs* (`run_translates`): all of this together, with the connection that each datagram goes
   through (`Translates`).
-/

namespace FlowRelay

namespace Flow.Store

variable {γ : Type} [Tracked γ] {s s' : Store γ} {id : Nat}

/-- An open connection is there and not closed. -/
theorem isOpen_iff : s.isOpen id = true ↔
    ∃ c, s.connection? id = some c ∧ Tracked.isClosed c = false := by
  unfold isOpen
  cases s.connection? id <;> simp

theorem not_isClosed_of_isOpen (h : s.isOpen id = true) : s.isClosed id = false := by
  obtain ⟨c, hc, hopen⟩ := isOpen_iff.mp h
  rw [isClosed, hc]
  exact hopen

/-- What has not come or is closed stays so, so what is open was open before. -/
theorem isOpen_of_kept (hnone : s.connection? id = none → s'.connection? id = none)
    (hclosed : s.isClosed id = true → s'.isClosed id = true) (h : s'.isOpen id = true) :
    s.isOpen id = true := by
  cases hc : s.connection? id with
  | none =>
      rw [isOpen, hnone hc] at h
      contradiction
  | some c =>
      refine isOpen_iff.mpr ⟨c, hc, ?_⟩
      by_contra hshut
      have hstill := hclosed (isClosed_iff.mpr ⟨c, hc, by simpa using hshut⟩)
      rw [not_isClosed_of_isOpen h] at hstill
      contradiction

end Flow.Store

namespace Udp

open Packet

namespace Engine

variable {e : Engine} {s : Surroundings} {calls : SocketCalls} {d : Datagram} {k : Flow.Key}
  {id : Nat} {c : Connection}

/-! ## One read -/

/-- Exactly one read is under way of every open connection. -/
def OneRead (e : Engine) : Prop := ∀ id, e.store.isOpen id = true → e.tasks.count ⟨id⟩ = 1

/-- Where no connection comes and the reads of the open ones stay, there is still one read. -/
theorem OneRead.keep {e' : Engine} (h : e.OneRead)
    (hopen : ∀ id, e'.store.isOpen id = true → e.store.isOpen id = true)
    (htasks : ∀ id, e'.store.isOpen id = true → e'.tasks.count ⟨id⟩ = e.tasks.count ⟨id⟩) :
    e'.OneRead := fun id hid => (htasks id hid).trans (h id (hopen id hid))

/-- Forwarding data begins and ends no work. -/
theorem tasks_forward (e : Engine) (s : Surroundings) (calls : SocketCalls) (id : Nat)
    (payload : List UInt8) : (e.forward s calls id payload).tasks = e.tasks := by
  unfold forward
  split <;> rfl

/-- Sending a packet begins and ends no work. -/
theorem tasks_emit (e : Engine) (s : Surroundings) (id : Nat) (w : Written) :
    (e.emit s id w).tasks = e.tasks := by
  unfold emit
  split
  · rfl
  · split <;> rfl

/-- Forwarding data leaves one read for each open connection. -/
theorem Owns.oneRead_forward (howns : e.Owns k id) (h : e.OneRead) (s : Surroundings)
    (calls : SocketCalls) (payload : List UInt8) : (e.forward s calls id payload).OneRead := by
  refine h.keep (fun i hi => ?_) fun i _ => by rw [tasks_forward]
  exact Flow.Store.isOpen_of_kept (fun hnone => forward_of_none hnone s calls id payload)
    (howns.forward s calls payload).isClosed hi

/-- A connection that comes is read from the start. -/
theorem Coherent.oneRead_open (hcoherent : e.Coherent) (h : e.OneRead) (now : Instant)
    (idle : Nat) (c : Connection) :
    OneRead { e with
      store := (e.store.openNew now idle c).1
      tasks := e.tasks ++ [⟨(e.store.openNew now idle c).2⟩] } := by
  have hid : (e.store.openNew now idle c).2 = e.store.connections.length := rfl
  intro i hi
  rw [hid]
  by_cases hnew : i = e.store.connections.length
  · -- Nothing is under way yet for a connection that has just come.
    have hold : e.tasks.count ⟨i⟩ = 0 := List.count_eq_zero.mpr fun hmem =>
      absurd (hcoherent.tasks _ hmem) (by rw [hnew]; exact Nat.lt_irrefl _)
    rw [List.count_append, hold, ← hnew, List.count_singleton_self]
  · have hcount : [(⟨e.store.connections.length⟩ : Task)].count ⟨i⟩ = 0 :=
      List.count_eq_zero.mpr (by simpa using hnew)
    rw [List.count_append, hcount, Nat.add_zero]
    refine h i (Flow.Store.isOpen_of_kept (fun hnone => ?_)
      (fun hclosed => Flow.Store.isClosed_openNew hclosed now idle c) hi)
    have hle := List.getElem?_eq_none_iff.mp hnone
    refine List.getElem?_eq_none ?_
    rw [Flow.Store.length_openNew]
    omega

/-- A datagram of the device leaves one read for each open connection. -/
theorem Coherent.oneRead_accept (hcoherent : e.Coherent) (h : e.OneRead)
    (hserved : s.multiplexerOpen = true) (calls : SocketCalls) (d : Datagram) :
    (e.accept s calls d).1.OneRead := by
  unfold accept
  cases d.headers.udp? with
  | none => exact h
  | some udp =>
      simp only [Flow.Store.find?, Table.snd_get?]
      cases e.store.table.peek? ⟨d.destination, d.source.port⟩ with
      | some id => exact h
      | none =>
          simp only [openConnection]
          cases s.socket with
          | error x => exact h
          | ok _ =>
              cases calls.connect (s.proxy.resolve d.destination) with
              | error x => exact h
              | ok _ =>
                  simp only [hserved, if_true]
                  exact hcoherent.oneRead_open h s.now e.config.udpIdle _

/-- A read that has ended begins anew, unless its connection is closed by then. -/
theorem Owns.oneRead_received (howns : e.Owns k id)
    (hothers : ∀ i, i ≠ id → e.store.isOpen i = true → e.tasks.count ⟨i⟩ = 1)
    (hended : e.store.isOpen id = true → e.tasks.count ⟨id⟩ = 0) (s : Surroundings)
    (result : Except Fault (List UInt8)) : (e.received s id result).OneRead := by
  intro i hi
  have hbefore : e.store.isOpen i = true := Flow.Store.isOpen_of_kept
    (fun hnone => received_of_none hnone s id result) (howns.received s result).isClosed hi
  unfold Engine.received at hi ⊢
  cases hc : e.store.connection? id with
  | none =>
      obtain ⟨c, hc', -⟩ := howns
      exact absurd (hc.symm.trans hc') nofun
  | some c =>
      simp only [hc] at hi ⊢
      by_cases hclosed : c.closed = true
      · rw [if_pos hclosed]
        have hne : i ≠ id := by
          rintro rfl
          have hshut := Flow.Store.isClosed_iff.mpr ⟨c, hc, hclosed⟩
          rw [Flow.Store.not_isClosed_of_isOpen hbefore] at hshut
          contradiction
        exact hothers i hne hbefore
      · rw [if_neg hclosed] at hi ⊢
        cases hresult : result.map (·.take e.readRoom) with
        | error x =>
            simp only [hresult] at hi ⊢
            have hne : i ≠ id := by
              rintro rfl
              have hshut : (e.terminate i).store.connection? i = some c.close := by
                simp only [Engine.terminate, Flow.Store.terminate, hc]
                exact (Flow.Store.connection?_update_self _ _ _).trans (congrArg _ hc)
              rw [Flow.Store.isOpen, hshut] at hi
              contradiction
            exact hothers i hne hbefore
        | ok data =>
            simp only [Engine.update, tasks_emit, List.count_append]
            by_cases hid : i = id
            · subst hid
              rw [hended hbefore, List.count_singleton_self]
            · have hcount : [(⟨id⟩ : Task)].count ⟨i⟩ = 0 :=
                List.count_eq_zero.mpr (by simpa using hid)
              rw [hcount, hothers i hid hbefore]

/-- A step of the engine that is not about a datagram of the device keeps the reads. -/
theorem Coherent.oneRead_step (hcoherent : e.Coherent) (h : e.OneRead) (s : Surroundings)
    {event : Event} (hevent : ∀ calls d, event ≠ .datagram calls d) :
    (e.step s event).OneRead := by
  have hopen : ∀ i, (e.step s event).store.isOpen i = true → e.store.isOpen i = true := by
    intro i hi
    refine Flow.Store.isOpen_of_kept (fun hnone => ?_)
      (fun hclosed => hcoherent.isClosed_step hclosed s event) hi
    rcases step_of_none hnone s event with hstill | ⟨calls, d, hdatagram⟩
    · exact hstill
    · exact absurd hdatagram (hevent calls d)
  cases event with
  | datagram calls d => exact absurd rfl (hevent calls d)
  | closeAll => exact h.keep hopen fun _ _ => rfl
  | abandoned id =>
      simp only [Engine.step]
      split
      · next hclosed =>
          refine h.keep (fun i hi => hi) fun i hi => List.count_erase_of_ne fun heq => ?_
          have hid : i = id := congrArg Task.connection heq
          have hopen : e.store.isOpen id = true := hid ▸ hi
          rw [Flow.Store.not_isClosed_of_isOpen hopen] at hclosed
          contradiction
      · exact h
  | received id result =>
      simp only [Engine.step]
      split
      · next hread =>
          have hlt : id < e.store.connections.length := hcoherent.tasks ⟨id⟩ (by simpa using hread)
          have hc : e.store.connection? id = some e.store.connections[id] :=
            List.getElem?_eq_getElem hlt
          have howns := (hcoherent.owns hc).moves (hcoherent.owns hc).finishTask
          refine howns.oneRead_received (fun i hi hopen => ?_) (fun hopen => ?_) s result
          · refine (List.count_erase_of_ne fun heq => ?_).trans (h i hopen)
            cases heq
            exact hi rfl
          · exact List.count_erase_self.trans (by rw [h id hopen])
      · exact h

/-! ## What is sent and handed over -/

/-- Accepting a datagram sends and hands over nothing. -/
theorem accept_quiet (e : Engine) (s : Surroundings) (calls : SocketCalls) (d : Datagram) :
    (e.accept s calls d).1.outbox = e.outbox ∧ (e.accept s calls d).1.handed = e.handed := by
  unfold accept
  cases d.headers.udp? with
  | none => exact ⟨rfl, rfl⟩
  | some udp =>
      simp only [Flow.Store.find?, Table.snd_get?]
      cases e.store.table.peek? ⟨d.destination, d.source.port⟩ with
      | some id => exact ⟨rfl, rfl⟩
      | none =>
          simp only [openConnection]
          cases s.socket with
          | error x => exact ⟨rfl, rfl⟩
          | ok _ =>
              cases calls.connect (s.proxy.resolve d.destination) with
              | error x => exact ⟨rfl, rfl⟩
              | ok _ => cases s.multiplexerOpen <;> exact ⟨rfl, rfl⟩

/-- Nothing is written for a connection that is not open. -/
theorem response?_of_not_open (hopen : e.store.isOpen id = false)
    (result : Except Fault (List UInt8)) : e.response? (.received id result) = none := by
  simp only [response?]
  split
  · cases hc : e.store.connection? id with
    | none => rfl
    | some c =>
        have hshut : Flow.Tracked.isClosed c = true := by
          simpa [Flow.Store.isOpen, hc] using hopen
        have hclosed : c.closed = true := hshut
        simp only [Option.bind_some, Connection.receivedResponse?, hclosed, if_true]
  · rfl

/-- Only datagrams of the device are handed over. -/
theorem handed_step_of_ne (e : Engine) (s : Surroundings) {event : Event}
    (hevent : ∀ calls d, event ≠ .datagram calls d) : (e.step s event).handed = e.handed := by
  cases event with
  | datagram calls d => exact absurd rfl (hevent calls d)
  | closeAll => rfl
  | abandoned id =>
      simp only [step]
      split <;> rfl
  | received id result =>
      have hemit : ∀ w, ((e.finishTask id).emit s id w).handed = e.handed := by
        intro w
        unfold emit
        split
        · rfl
        · split <;> rfl
      simp only [step]
      split
      · simp only [received]
        split
        · rfl
        · split
          · rfl
          · split
            · rfl
            · exact hemit _
      · rfl

end Engine

namespace Dispatch

variable {p : Dispatch} {s : Surroundings} {event : Event}

/-- One read stays under way of every open connection. -/
theorem Coherent.oneRead_step (hcoherent : p.Coherent) (h : p.engine.OneRead)
    (hserved : s.multiplexerOpen = true) (event : Event) : (p.step s event).engine.OneRead := by
  cases event with
  | accept calls d =>
      rw [engine_step_accept]
      exact hcoherent.engine.oneRead_accept h hserved calls d
  | sent x calls =>
      simp only [Dispatch.step]
      split
      · next hx =>
          obtain ⟨k, hk⟩ := hcoherent.sends x (by simpa using hx)
          exact hk.oneRead_forward h s calls x.payload
      · exact h
  | own event =>
      by_cases hdatagram : ∃ calls d, event = .datagram calls d
      · obtain ⟨calls, d, rfl⟩ := hdatagram
        obtain ⟨-, howns⟩ := hcoherent.engine.accept_moves s calls d
        have haccept := hcoherent.engine.oneRead_accept h hserved calls d
        rw [engine_step_datagram]
        split
        · next id hid => exact (howns id hid).oneRead_forward haccept s calls d.payload
        · exact haccept
      · exact hcoherent.engine.oneRead_step h s fun calls d heq => hdatagram ⟨calls, d, heq⟩

/-! ## Accounts -/

/-- What is noted at the steps of a run, in order. -/
def observe {α : Type} (note : Dispatch → Surroundings → Event → List α) (p : Dispatch) :
    List (Surroundings × Event) → List α
  | [] => []
  | (s, event) :: rest => note p s event ++ observe note (p.step s event) rest

/-- Notes of a run are those of its steps. -/
theorem observe_concat {α : Type} (note : Dispatch → Surroundings → Event → List α)
    (p : Dispatch) (xs : List (Surroundings × Event)) (s : Surroundings) (event : Event) :
    observe note p (xs ++ [(s, event)]) = observe note p xs ++ note (p.run xs) s event := by
  induction xs generalizing p with
  | nil => simp [observe, run]
  | cons x rest ih =>
      obtain ⟨s', event'⟩ := x
      rw [List.cons_append, observe, observe, ih, List.append_assoc]
      rfl

/-- The datagram of the device that a step accepts, with the connection that it is sent on. -/
def accepted (p : Dispatch) (s : Surroundings) : Event → List (Nat × Datagram)
  | .accept calls d | .own (.datagram calls d) =>
    ((p.engine.accept s calls d).2.map (·, d)).toList
  | .sent _ _ | .own (.received _ _) | .own (.abandoned _) | .own .closeAll => []

/-- What is on its way of a datagram that was accepted. -/
def sending (x : Nat × Datagram) : Sending := ⟨x.1, x.2.payload⟩

/-- The datagram that a step hands to a socket, with what the socket says. -/
def sent (p : Dispatch) (s : Surroundings) : Event → List (Sending × Except Fault Unit)
  | .sent x calls => if p.sends.contains x then [(x, calls.send)] else []
  | .own (.datagram calls d) =>
    (p.accepted s (.own (.datagram calls d))).map fun x => (sending x, calls.send)
  | .accept _ _ | .own (.received _ _) | .own (.abandoned _) | .own .closeAll => []

/-- What the socket has taken of what was handed to it. -/
def taken : Sending × Except Fault Unit → Option Handed
  | (x, .ok ()) => some ⟨x.connection, x.payload⟩
  | (_, .error _) => none

/-- The datagram that a step reads on an open connection. -/
def arrived (p : Dispatch) (_s : Surroundings) : Event → List (Nat × List UInt8)
  | .own (.received id (.ok data)) => if p.engine.store.isOpen id then [(id, data)] else []
  | .accept _ _ | .sent _ _ | .own (.datagram _ _) | .own (.received _ (.error _))
  | .own (.abandoned _) | .own .closeAll => []

/-- A datagram that is accepted is on its way until it is sent. -/
theorem coe_accepted_step (p : Dispatch) (s : Surroundings) (event : Event) :
    ((p.sends : Multiset Sending) + (p.accepted s event).map sending) =
      (p.step s event).sends + (p.sent s event).map Prod.fst := by
  cases event with
  | accept calls d =>
      rcases haccept : p.engine.accept s calls d with ⟨e, _ | id⟩
      · simp [accepted, sent, step, haccept]
      · simp only [accepted, sent, step, haccept, sending, Option.map_some, Option.toList_some,
          List.map_singleton, List.map_nil, Multiset.coe_nil, add_zero, Multiset.coe_add]
  | sent x calls =>
      simp only [accepted, sent, step]
      split
      · next hx =>
          have hmem : x ∈ p.sends := by simpa using hx
          rw [List.map_singleton, List.map_nil, Multiset.coe_nil, add_zero, Multiset.coe_singleton,
            add_comm, Multiset.singleton_add, ← Multiset.coe_erase,
            Multiset.cons_erase (Multiset.mem_coe.mpr hmem)]
      · simp
  | own event =>
      cases event with
      | datagram calls d => simp [accepted, sent, step, Function.comp_def]
      | received | abandoned | closeAll => rfl

/-- What is forwarded is handed over as far as the socket takes it. -/
theorem handed_forward (e : Engine) (s : Surroundings) (calls : SocketCalls) (x : Sending) :
    (e.forward s calls x.connection x.payload).handed =
      e.handed ++ [(x, calls.send)].filterMap taken := by
  unfold Engine.forward
  cases hsend : calls.send with
  | error fault => simp [taken, Engine.terminate]
  | ok _ => simp [taken, Engine.update]

/-- What is sent is handed to the socket, if that takes it, and nothing else is. -/
theorem handed_step (p : Dispatch) (s : Surroundings) (event : Event) :
    (p.step s event).engine.handed =
      p.engine.handed ++ (p.sent s event).filterMap taken := by
  cases event with
  | accept calls d =>
      rw [engine_step_accept, (p.engine.accept_quiet s calls d).2]
      exact (List.append_nil _).symm
  | sent x calls =>
      simp only [sent, step]
      split
      · exact handed_forward p.engine s calls x
      · exact (List.append_nil _).symm
  | own event =>
      by_cases hdatagram : ∃ calls d, event = .datagram calls d
      · obtain ⟨calls, d, rfl⟩ := hdatagram
        have hquiet := (p.engine.accept_quiet s calls d).2
        rw [engine_step_datagram]
        simp only [sent, accepted]
        cases haccept : (p.engine.accept s calls d).2 with
        | none => exact hquiet.trans (List.append_nil _).symm
        | some id =>
            have hforward := handed_forward (p.engine.accept s calls d).1 s calls ⟨id, d.payload⟩
            rw [hquiet] at hforward
            exact hforward
      · have hne : ∀ calls d, event ≠ .datagram calls d :=
          fun calls d heq => hdatagram ⟨calls, d, heq⟩
        have hnothing : p.sent s (.own event) = [] := by
          cases event with
          | datagram calls d => exact absurd rfl (hne calls d)
          | received | abandoned | closeAll => rfl
        rw [hnothing, List.filterMap_nil, List.append_nil]
        exact p.engine.handed_step_of_ne s hne

/-- A datagram of the network is small enough for the buffer that it is read into, and for UDP. -/
def Event.Fits (mtu : Nat) : Event → Prop
  | .own (.received _ (.ok data)) =>
    Headers.udpPayloadOffset + data.length ≤ mtu ∧ Headers.udpPayloadOffset + data.length ≤ 65535
  | _ => True

/-- A packet brings what was read on a connection to the device, in the name of the connection. -/
def Brings (e : Engine) (packet : Outgoing) (x : Nat × List UInt8) : Prop :=
  packet.connection = some x.1 ∧ ∃ c, e.store.connection? x.1 = some c ∧
    packet.Conveys c.template.source c.template.destination x.2

/-- What arrives is sent to the device, and nothing else is. -/
theorem Coherent.outbox_step (hcoherent : p.Coherent) (h : p.engine.OneRead)
    (hdevice : s.deviceOpen = true) (hfits : event.Fits p.engine.config.mtu) :
    ∃ packets, (p.step s event).engine.outbox = p.engine.outbox ++ packets ∧
      List.Forall₂ (Brings p.engine) packets (p.arrived s event) := by
  cases event with
  | accept calls d =>
      rw [engine_step_accept, (p.engine.accept_quiet s calls d).1]
      exact ⟨[], (List.append_nil _).symm, .nil⟩
  | sent x calls =>
      refine ⟨[], ?_, .nil⟩
      simp only [Dispatch.step, List.append_nil]
      split
      · exact Engine.outbox_forward _ s calls _ _
      · rfl
  | own event =>
      cases event with
      | datagram | abandoned | closeAll => exact ⟨[], p.engine.outbox_step s _, .nil⟩
      | received id result =>
          have hwritten := p.engine.outbox_step s (.received id result)
          cases hopen : p.engine.store.isOpen id with
          | false =>
              rw [Engine.response?_of_not_open hopen] at hwritten
              refine ⟨[], hwritten, ?_⟩
              cases result <;> simp [arrived, hopen]
          | true =>
              obtain ⟨c, hc, hshut⟩ := Flow.Store.isOpen_iff.mp hopen
              have hread : p.engine.tasks.contains ⟨id⟩ = true := by
                have hone := h id hopen
                simpa using List.count_pos_iff.mp (by omega : 0 < p.engine.tasks.count ⟨id⟩)
              cases result with
              | error x =>
                  have hopen' : c.closed = false := hshut
                  refine ⟨[], ?_, .nil⟩
                  rw [Engine.response?, if_pos hread, hc] at hwritten
                  simp only [Option.bind_some, Connection.receivedResponse?, hopen',
                    Bool.false_eq_true, if_false] at hwritten
                  exact hwritten
              | ok data =>
                  obtain ⟨hroom, hmax⟩ := hfits
                  have hmin : Headers.udpPayloadOffset ≤ p.engine.config.mtu := by omega
                  have hwhole := (Engine.take_readRoom_iff hmin data).mpr hroom
                  obtain ⟨packet, houtbox, hid, hconveys⟩ :=
                    hcoherent.engine.outbox_step_received hc hshut hread hdevice hmin data
                      (hwhole.symm ▸ hmax)
                  rw [hwhole] at hconveys
                  refine ⟨[packet], houtbox, ?_⟩
                  simp only [arrived, hopen, if_true]
                  exact .cons ⟨hid, c, hc, hconveys⟩ .nil

/-- What is accepted is sent on a connection of its flow. -/
theorem Coherent.key_accepted (h : p.Coherent) {x : Nat × Datagram}
    (hx : x ∈ p.accepted s event) :
    ∃ c, (p.step s event).engine.store.connection? x.1 = some c ∧ c.key = flowOf x.2 := by
  cases event with
  | accept calls d =>
      obtain ⟨id, hid, rfl⟩ := Option.map_eq_some_iff.mp (Option.mem_toList.mp hx)
      obtain ⟨c, hc, hkey, -⟩ := (h.engine.accept_moves s calls d).2 id hid
      rw [engine_step_accept]
      exact ⟨c, hc, hkey⟩
  | sent x calls => contradiction
  | own event =>
      cases event with
      | datagram calls d =>
          obtain ⟨id, hid, rfl⟩ := Option.map_eq_some_iff.mp (Option.mem_toList.mp hx)
          have howns := (h.engine.accept_moves s calls d).2 id hid
          obtain ⟨c, hc, hkey, -⟩ := howns.moves (howns.forward s calls d.payload)
          rw [engine_step_datagram, hid]
          exact ⟨c, hc, hkey⟩
      | received | abandoned | closeAll => contradiction

/-! ## Runs -/

/-- A step with somebody to drive the reads and to take packets, and with a datagram, if it reads
one, that fits. -/
structure Served (mtu : Nat) (x : Surroundings × Event) : Prop where
  multiplexer : x.1.multiplexerOpen = true
  device : x.1.deviceOpen = true
  fits : x.2.Fits mtu

/-- A run translates faithfully between the flows of the device and their sockets. -/
structure Translates (start : Dispatch) (steps : List (Surroundings × Event)) : Prop where
  /-- A datagram is sent on the open connection of its flow. -/
  found : ∀ (s : Surroundings) (calls : SocketCalls) (d : Datagram) udp id c,
    d.headers.udp? = some udp → (start.run steps).engine.store.connection? id = some c →
    c.key = flowOf d → c.closed = false →
      ((start.run steps).engine.accept s calls d).2 = some id
  /-- Where none is open, the datagram opens one if a socket can be had for it. -/
  opened : ∀ (s : Surroundings) (calls : SocketCalls) (d : Datagram) udp,
    d.headers.udp? = some udp → s.multiplexerOpen = true →
    (∀ id c, (start.run steps).engine.store.connection? id = some c → c.key = flowOf d →
      c.closed = true) → (start.run steps).engine.Starts s calls d
  /-- Whatever was accepted is sent on a connection of its own flow, which is connected to where the
  proxy sent that flow when the connection was opened. -/
  owned : ∀ x ∈ observe accepted start steps, ∃ s₀ d₀ c, start.Opened steps x.1 s₀ d₀ ∧
    (start.run steps).engine.store.connection? x.1 = some c ∧ c.key = flowOf x.2 ∧
    flowOf d₀ = flowOf x.2 ∧ c.target = s₀.proxy.resolve x.2.destination
  /-- The next datagram of a flow goes through the same socket, unless that is closed. -/
  same : ∀ x ∈ observe accepted start steps,
    (start.run steps).engine.store.isOpen x.1 = true →
    ∀ (s : Surroundings) (calls : SocketCalls) (d : Datagram) udp,
      d.headers.udp? = some udp → flowOf d = flowOf x.2 →
        ((start.run steps).engine.accept s calls d).2 = some x.1
  /-- Whatever was accepted is on its way or was sent, once. -/
  balance : ((observe accepted start steps).map sending : Multiset Sending) =
    (start.run steps).sends + (observe sent start steps).map Prod.fst
  /-- Whatever was sent was handed to its socket as it is, in order. -/
  handed : (start.run steps).engine.handed = (observe sent start steps).filterMap taken
  /-- Exactly one read is under way of every open connection. -/
  reads : (start.run steps).engine.OneRead
  /-- Whatever was read on an open connection was sent to the device, once and in order, as it is,
  and goes back the way the datagram came that opened the connection. -/
  outbox : List.Forall₂ (fun packet x => packet.connection = some x.1 ∧
      ∃ s₀ d₀, start.Opened steps x.1 s₀ d₀ ∧ packet.Conveys d₀.destination d₀.source x.2)
    (start.run steps).engine.outbox (observe arrived start steps)

section

variable (config : Config) (steps : List (Surroundings × Event))

/-- What was handed over in a run is what the sockets took. -/
theorem handed_run : ((empty config).run steps).engine.handed =
    (observe sent (empty config) steps).filterMap taken := by
  induction steps using List.reverseRecOn with
  | nil => rfl
  | append_singleton steps x ih =>
      obtain ⟨s, event⟩ := x
      rw [run_concat, handed_step, ih, observe_concat, List.filterMap_append]

/-- What was accepted in a run was sent or is on its way. -/
theorem coe_accepted_run :
    ((observe accepted (empty config) steps).map sending : Multiset Sending) =
      ((empty config).run steps).sends + (observe sent (empty config) steps).map Prod.fst := by
  induction steps using List.reverseRecOn with
  | nil => rfl
  | append_singleton steps x ih =>
      obtain ⟨s, event⟩ := x
      have hstep := coe_accepted_step ((empty config).run steps) s event
      rw [run_concat, observe_concat, observe_concat, List.map_append, List.map_append,
        ← Multiset.coe_add, ← Multiset.coe_add, ih, add_right_comm, hstep]
      abel

/-- What was accepted is for a connection of its flow. -/
theorem key_accepted_run {x : Nat × Datagram} (hx : x ∈ observe accepted (empty config) steps) :
    ∃ c, ((empty config).run steps).engine.store.connection? x.1 = some c ∧
      c.key = flowOf x.2 := by
  induction steps using List.reverseRecOn with
  | nil => contradiction
  | append_singleton steps y ih =>
      obtain ⟨s, event⟩ := y
      have hsofar := coherent_run config steps
      rw [observe_concat] at hx
      rw [run_concat]
      cases List.mem_append.mp hx with
      | inl hold =>
          obtain ⟨c, hc, hkey⟩ := ih hold
          obtain ⟨c', hc', hkey', -⟩ := hsofar.connection?_step hc s event
          exact ⟨c', hc', hkey'.trans hkey⟩
      | inr hnew => exact hsofar.key_accepted hnew

variable {config steps}

/-- In a run there is one read for each open connection. -/
theorem oneRead_run (hserved : ∀ x ∈ steps, Served config.mtu x) :
    ((empty config).run steps).engine.OneRead := by
  induction steps using List.reverseRecOn with
  | nil => exact fun id hid => absurd hid (by simp [empty, run, Engine.empty, Flow.Store.empty,
      Flow.Store.isOpen, Flow.Store.connection?])
  | append_singleton steps x ih =>
      obtain ⟨s, event⟩ := x
      rw [run_concat]
      exact (coherent_run config steps).oneRead_step
        (ih fun y hy => hserved y (List.mem_append_left _ hy))
        (hserved (s, event) (by simp)).multiplexer event

/-- What the device was sent in a run conveys what arrived. -/
theorem outbox_run (hserved : ∀ x ∈ steps, Served config.mtu x) :
    List.Forall₂ (fun packet x => packet.connection = some x.1 ∧
        ∃ s₀ d₀, (empty config).Opened steps x.1 s₀ d₀ ∧
          packet.Conveys d₀.destination d₀.source x.2)
      ((empty config).run steps).engine.outbox (observe arrived (empty config) steps) := by
  induction steps using List.reverseRecOn with
  | nil => exact .nil
  | append_singleton steps x ih =>
      obtain ⟨s, event⟩ := x
      have hbefore := fun y hy => hserved y (List.mem_append_left _ hy)
      have hnow := hserved (s, event) (by simp)
      have hfits := hnow.fits
      rw [← config_run config steps] at hfits
      obtain ⟨packets, houtbox, hpackets⟩ :=
        (coherent_run config steps).outbox_step (oneRead_run hbefore) hnow.device hfits
      rw [run_concat, houtbox, observe_concat]
      refine List.rel_append ((ih hbefore).imp fun packet y hy => ?_)
        (hpackets.imp fun packet y hy => ?_)
      · obtain ⟨hid, s₀, d₀, hopens, hconveys⟩ := hy
        exact ⟨hid, s₀, d₀, hopens.append _, hconveys⟩
      · obtain ⟨hid, c, hc, hconveys⟩ := hy
        obtain ⟨s₀, d₀, hopens, hopened⟩ := exists_opened hc
        rw [hopened.source_eq, hopened.destination_eq] at hconveys
        exact ⟨hid, s₀, d₀, hopens.append _, hconveys⟩

/-- **Runs**: every run in which reads are driven, packets are taken and datagrams fit translates
faithfully. -/
theorem run_translates (hserved : ∀ x ∈ steps, Served config.mtu x) :
    (empty config).Translates steps := by
  have hcoherent := coherent_run config steps
  refine
    { found := fun s calls d udp id c hudp hc hkey hopen =>
        hcoherent.engine.accept_of_open hudp hc hkey hopen s calls
      opened := fun s calls d udp hudp hdriven hclosed =>
        hcoherent.engine.accept_of_closed hudp hclosed hdriven calls
      owned := fun x hx => ?_
      same := fun x hx hopen s calls d udp hudp hflow => ?_
      balance := coe_accepted_run config steps
      handed := handed_run config steps
      reads := oneRead_run hserved
      outbox := outbox_run hserved }
  · obtain ⟨c, hc, hkey⟩ := key_accepted_run config steps hx
    obtain ⟨s₀, d₀, hopens, hopened⟩ := exists_opened hc
    have hflow : flowOf d₀ = flowOf x.2 := hopened.key.symm.trans hkey
    have hdestination : d₀.destination = x.2.destination := congrArg Flow.Key.destination hflow
    exact ⟨s₀, d₀, c, hopens, hc, hkey, hflow, hdestination ▸ hopened.target⟩
  · obtain ⟨c, hc, hkey⟩ := key_accepted_run config steps hx
    obtain ⟨c', hc', hshut⟩ := Flow.Store.isOpen_iff.mp hopen
    cases hc.symm.trans hc'
    exact hcoherent.engine.accept_of_open hudp hc (hkey.trans hflow.symm) hshut s calls

end

/-! ## A sample -/

namespace Sample

open Tcp.Engine.Sample (surroundings)
open Engines.Sample (calls datagram)

/-- The socket takes nothing. -/
def failing : SocketCalls := { calls with send := .error .notConnected }

/-- Something arrives while the first datagram is on its way.  The next one cannot be sent while a
read is under way, and the last one opens the flow again. -/
def exchange : List (Surroundings × Event) :=
  [.accept calls (datagram [1]), .own (.received 0 (.ok [2, 3])), .sent ⟨0, [1]⟩ calls,
    .accept calls (datagram [4]), .sent ⟨0, [4]⟩ failing, .own (.datagram calls (datagram [5])),
    .own (.abandoned 0), .own (.received 1 (.ok [6]))].map (surroundings, ·)

end Sample

/-- The datagrams go through two connections, and two answers come back. -/
theorem translates_of_sample :
    let p := (empty Tcp.Engine.Sample.config).run Sample.exchange
    (∀ x ∈ Sample.exchange, Served Tcp.Engine.Sample.config.mtu x) ∧
      (empty Tcp.Engine.Sample.config).Translates Sample.exchange ∧
      p.engine.handed = [⟨0, [1]⟩, ⟨1, [5]⟩] ∧ p.sends = [] ∧ p.engine.tasks = [⟨1⟩] ∧
      p.engine.outbox.map (·.connection) = [some 0, some 1] := by
  intro p
  have hserved : ∀ x ∈ Sample.exchange, Served Tcp.Engine.Sample.config.mtu x := by
    simp only [Sample.exchange, List.map_cons, List.map_nil, List.forall_mem_cons]
    refine ⟨⟨rfl, rfl, trivial⟩, ⟨rfl, rfl, ?_⟩, ⟨rfl, rfl, trivial⟩, ⟨rfl, rfl, trivial⟩,
      ⟨rfl, rfl, trivial⟩, ⟨rfl, rfl, trivial⟩, ⟨rfl, rfl, trivial⟩, ⟨rfl, rfl, ?_⟩, by simp⟩
    · exact ⟨by decide, by decide⟩
    · exact ⟨by decide, by decide⟩
  exact ⟨hserved, run_translates hserved, by decide +kernel, by decide +kernel, by decide +kernel,
    by decide +kernel⟩

end Dispatch

end Udp

end FlowRelay
