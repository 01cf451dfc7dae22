import FlowRelay.Proofs.Packet.Answer
import FlowRelay.Proofs.Udp.Moves

/-!
# FlowRelay.Proofs.Udp.Answers

Every datagram for the device answers the one that opened its connection.

1. *Responses* (`Response`): what a datagram is written from.  A step writes at most one
   (`Engine.response?`), and it may be that nobody takes it.
2. *Outbox* (`outbox_step`): a step adds to the packets for the device what it has written, if that
   is taken, and nothing else.
3. *Templates* (`exists_opens_template`): a connection addresses its packets by the swapped headers
   of the datagram that opened it, for as long as it is there.
4. *Answers* (`exists_answer`, `isAnswer_of_mem_outbox`): in every run, what a step writes is
   written without failing, and it answers the datagram that opened its connection, and so does
   every packet that is sent.
-/

namespace FlowRelay.Udp

open Packet

/-! ## Responses -/

/-- What a datagram for the device is written from. -/
structure Response where
  connection : Nat
  template : Headers
  payload : List UInt8
  deriving DecidableEq, Repr

/-- Write a response into a buffer, with its payload staged behind the headers. -/
def Response.write (r : Response) (buffer : List UInt8) : Written :=
  r.template.writeUdpResponse (Bytes.overwrite buffer Headers.udpPayloadOffset r.payload)
    r.payload.length

/-- A response that answers a datagram is written, if its payload fits the device. -/
theorem Response.exists_answer {r : Response} {d : Datagram} {udp : Packet.Udp} {mtu : Nat}
    {buffer : List UInt8} (hudp : d.headers.udp? = some udp)
    (htemplate : r.template = d.headers.swap) (hbuffer : buffer.length = mtu)
    (hfits : Headers.udpPayloadOffset + r.payload.length ≤ mtu) (hmax : mtu ≤ 65535) :
    ∃ n, (r.write buffer).result = .ok n ∧
      Outgoing.IsAnswer ⟨some r.connection, (r.write buffer).buffer.take n⟩ mtu d := by
  have htransport := Headers.udp?_eq_some.mp hudp
  have hswap : r.template.transport = .udp udp.swap := by
    rw [htemplate]
    exact congrArg Transport.swap htransport
  have hlength := Nat.le_trans hfits hmax
  have hpacket : (r.write buffer).IsPacket r.template r.payload :=
    Headers.writeUdpResponse_isPacket hswap (hbuffer ▸ hfits) hlength
  have hsize : r.template.size r.payload = Headers.udpPayloadOffset + r.payload.length := by
    rw [Headers.size, hswap]
    rfl
  refine ⟨_, hpacket.result_eq, hpacket.isAnswer (hsize ▸ hfits) (hsize ▸ hlength) ?_ ?_ ?_
    hpacket.result_eq (some r.connection)⟩
  · rw [htemplate, Headers.source_swap]
    rfl
  · rw [htemplate, Headers.destination_swap]
    rfl
  · rw [Headers.protocol, Headers.protocol, hswap, htransport]
    rfl

/-- What is written when a read ends. -/
def Connection.receivedResponse? (c : Connection) (id : Nat)
    (result : Except Fault (List UInt8)) : Option Response :=
  if c.closed then none
  else
    match result with
    | .error _ => none
    | .ok data => some ⟨id, c.template, data⟩

namespace Engine

variable {e e' : Engine} {s : Surroundings} {calls : SocketCalls} {d : Datagram} {event : Event}
  {id i : Nat} {c : Connection} {r : Response} {config : Config}
  {steps : List (Surroundings × Event)}

/-- What a step writes for the device. -/
def response? (e : Engine) : Event → Option Response
  | .received id result =>
    if e.tasks.contains ⟨id⟩ then
      (e.store.connection? id).bind fun c =>
        c.receivedResponse? id (result.map (·.take e.readRoom))
    else none
  | .datagram _ _ | .abandoned _ | .closeAll => none

/-- The packet that becomes of a response, if it can be written and is taken. -/
def outgoing (e : Engine) (s : Surroundings) : Option Response → List Outgoing
  | none => []
  | some r =>
    match (r.write (List.replicate e.config.mtu 0)).result with
    | .error _ => []
    | .ok n =>
      if s.deviceOpen then
        [⟨some r.connection, (r.write (List.replicate e.config.mtu 0)).buffer.take n⟩]
      else []

/-! ## Outbox -/

theorem outbox_emit (e : Engine) (s : Surroundings) (r : Response) :
    (e.emit s r.connection (r.write (List.replicate e.config.mtu 0))).outbox =
      e.outbox ++ e.outgoing s (some r) := by
  simp only [emit, outgoing]
  cases (r.write (List.replicate e.config.mtu 0)).result with
  | error x => exact (List.append_nil _).symm
  | ok n =>
      cases s.deviceOpen with
      | false => exact (List.append_nil _).symm
      | true => rfl

theorem outbox_received (hc : e.store.connection? id = some c) (s : Surroundings)
    (result : Except Fault (List UInt8)) :
    (e.received s id result).outbox = e.outbox ++ e.outgoing s
      (c.receivedResponse? id (result.map (·.take e.readRoom))) := by
  simp only [received, hc, Connection.receivedResponse?]
  generalize result.map (·.take e.readRoom) = read
  split
  · exact (List.append_nil _).symm
  · cases read with
    | error x => exact (List.append_nil _).symm
    | ok data => exact e.outbox_emit s ⟨id, c.template, data⟩

/-- Handing a datagram over shows the device nothing. -/
theorem outbox_forward (e : Engine) (s : Surroundings) (calls : SocketCalls) (id : Nat)
    (payload : List UInt8) : (e.forward s calls id payload).outbox = e.outbox := by
  unfold forward
  split <;> rfl

theorem outbox_openConnection (e : Engine) (s : Surroundings) (calls : SocketCalls)
    (key : Flow.Key) (headers : Headers) :
    (e.openConnection s calls key headers).1.outbox = e.outbox := by
  simp only [openConnection]
  split
  · rfl
  · rfl
  · split <;> rfl

theorem outbox_handle (e : Engine) (s : Surroundings) (calls : SocketCalls) (d : Datagram) :
    (e.handle s calls d).outbox = e.outbox := by
  unfold handle
  split
  · rfl
  · simp only
    split
    · exact outbox_forward _ s calls _ _
    · have hopen := e.outbox_openConnection s calls ⟨d.destination, d.source.port⟩ d.headers
      split
      · next heq =>
          rw [heq] at hopen
          exact (outbox_forward _ s calls _ _).trans hopen
      · next heq =>
          rw [heq] at hopen
          exact hopen

/-- **Outbox**: a step adds to the packets for the device what it has written, if that is taken. -/
theorem outbox_step (e : Engine) (s : Surroundings) (event : Event) :
    (e.step s event).outbox = e.outbox ++ e.outgoing s (e.response? event) := by
  cases event with
  | datagram calls d => exact (outbox_handle e s calls d).trans (List.append_nil _).symm
  | received id result =>
      simp only [step, response?]
      split
      · cases hc : e.store.connection? id with
        | none =>
            have hnone : (e.finishTask id).store.connection? id = none := hc
            simp only [received, hnone]
            exact (List.append_nil _).symm
        | some c =>
            have hreceived : (e.finishTask id).store.connection? id = some c := hc
            exact outbox_received hreceived s result
      · exact (List.append_nil _).symm
  | abandoned id =>
      simp only [step]
      split <;> exact (List.append_nil _).symm
  | closeAll => exact (List.append_nil _).symm

/-- What a step writes is for a connection, by its template, with no more data than a read
returns. -/
theorem response?_connection (h : e.response? event = some r) :
    ∃ c, e.store.connection? r.connection = some c ∧ r.template = c.template ∧
      r.payload.length ≤ e.readRoom := by
  cases event with
  | received id result =>
      simp only [response?] at h
      split at h
      · obtain ⟨c, hc, hr⟩ := Option.bind_eq_some_iff.mp h
        unfold Connection.receivedResponse? at hr
        split at hr
        · contradiction
        · cases result with
          | error x => contradiction
          | ok all =>
              cases hr
              exact ⟨c, hc, rfl, List.length_take_le _ _⟩
      · contradiction
  | datagram | abandoned | closeAll => contradiction

/-! ## Templates -/

/-- A datagram of the device opens a connection. -/
def Opens (e : Engine) (s : Surroundings) (calls : SocketCalls) (d : Datagram) (id : Nat) : Prop :=
  e.store.connection? id = none ∧
    (e.step s (.datagram calls d)).store.connection? id ≠ none

/-- Handing a datagram over brings no connection. -/
theorem forward_of_none (hnone : e.store.connection? i = none) (s : Surroundings)
    (calls : SocketCalls) (id : Nat) (payload : List UInt8) :
    (e.forward s calls id payload).store.connection? i = none := by
  unfold forward
  split
  · exact Flow.Store.connection?_terminate_of_none hnone id
  · exact Flow.Store.connection?_update_of_none hnone id _

theorem store_emit (e : Engine) (s : Surroundings) (id : Nat) (w : Written) :
    (e.emit s id w).store = e.store := by
  unfold emit
  split
  · rfl
  · split <;> rfl

theorem received_of_none (hnone : e.store.connection? i = none) (s : Surroundings) (id : Nat)
    (result : Except Fault (List UInt8)) :
    (e.received s id result).store.connection? i = none := by
  unfold received
  split
  · exact hnone
  · split
    · exact hnone
    · split
      · exact Flow.Store.connection?_terminate_of_none hnone id
      · refine Flow.Store.connection?_update_of_none ?_ id _
        rwa [store_emit]

/-- Only a datagram of the device brings a connection. -/
theorem step_of_none (hnone : e.store.connection? i = none) (s : Surroundings) (event : Event) :
    (e.step s event).store.connection? i = none ∨ ∃ calls d, event = .datagram calls d := by
  cases event with
  | datagram calls d => exact .inr ⟨calls, d, rfl⟩
  | received id result =>
      refine .inl ?_
      simp only [step]
      split
      · exact received_of_none (e := e.finishTask id) hnone s id result
      · exact hnone
  | abandoned id =>
      refine .inl ?_
      simp only [step]
      split <;> exact hnone
  | closeAll =>
      refine .inl ?_
      have hclosed := Flow.Store.connection?_closeAllOf (fun _ => rfl)
        { e.store with table := e.store.table.clear.1 } (e.store.table.clear.2.map Prod.snd) i
      rw [show Flow.Store.connection? { e.store with table := e.store.table.clear.1 } i = none
        from hnone] at hclosed
      split at hclosed <;> exact hclosed

/-- What is opened is a new connection, which may have had to leave at once. -/
theorem openConnection_of_none (hnone : e.store.connection? id = none) {key : Flow.Key}
    {headers : Headers}
    (hc : (e.openConnection s calls key headers).1.store.connection? id = some c) :
    c = .make key (s.proxy.resolve key.destination) headers.swap s.now ∨
      c = (Connection.make key (s.proxy.resolve key.destination) headers.swap s.now).close := by
  cases hsocket : s.socket with
  | error x =>
      simp only [openConnection, hsocket] at hc
      have hsame := hnone.symm.trans hc
      contradiction
  | ok _ =>
      cases hconnect : calls.connect (s.proxy.resolve key.destination) with
      | error x =>
          simp only [openConnection, hsocket, hconnect] at hc
          have hsame := hnone.symm.trans hc
          contradiction
      | ok _ =>
          have hopened : (e.store.openNew s.now e.config.udpIdle
              (.make key (s.proxy.resolve key.destination) headers.swap s.now)).1.connection? id =
                some c := by
            simp only [openConnection, hsocket, hconnect] at hc
            cases hopen : s.multiplexerOpen <;> rw [hopen] at hc <;> exact hc
          exact Flow.Store.connection?_openNew_of_none (fun _ => rfl) hnone hopened

theorem openConnection_template (hnone : e.store.connection? id = none) {key : Flow.Key}
    {headers : Headers}
    (hc : (e.openConnection s calls key headers).1.store.connection? id = some c) :
    c.template = headers.swap := by
  cases openConnection_of_none hnone hc with
  | inl hnew =>
      rw [hnew]
      rfl
  | inr hnew =>
      rw [hnew]
      rfl

/-- A connection that is opened is addressed by the swapped headers of its datagram. -/
theorem Opens.template (h : e.Opens s calls d id) :
    ∃ udp c, d.headers.udp? = some udp ∧
      (e.step s (.datagram calls d)).store.connection? id = some c ∧
      c.template = d.headers.swap := by
  obtain ⟨hnone, hsome⟩ := h
  obtain ⟨c, hc⟩ := Option.ne_none_iff_exists'.mp hsome
  have hhandled : (e.handle s calls d).store.connection? id = some c := hc
  unfold handle at hhandled
  split at hhandled
  · exact absurd (hnone.symm.trans hhandled) nofun
  · next udp hudp =>
      refine ⟨udp, c, hudp, hc, ?_⟩
      simp only [Flow.Store.find?, Table.snd_get?] at hhandled
      cases hpeek : e.store.table.peek? ⟨d.destination, d.source.port⟩ with
      | none =>
          rw [hpeek] at hhandled
          simp only at hhandled
          obtain ⟨-, howns⟩ := openConnection_moves hudp e s calls
          have htemplate : ∀ c, (e.openConnection s calls ⟨d.destination, d.source.port⟩
              d.headers).1.store.connection? id = some c → c.template = d.headers.swap :=
            fun c hc => openConnection_template hnone hc
          split at hhandled
          · next e' i heq =>
              rw [heq] at howns htemplate
              cases hc₁ : e'.store.connection? id with
              | none =>
                  have hstill := forward_of_none hc₁ s calls i d.payload
                  exact absurd (hstill.symm.trans hhandled) nofun
              | some c₁ =>
                  obtain ⟨c', hc', -, hsame⟩ :=
                    ((howns i rfl).forward s calls d.payload).connection? hc₁
                  cases hhandled.symm.trans hc'
                  exact hsame.trans (htemplate c₁ hc₁)
          · next e' x heq =>
              rw [heq] at htemplate
              exact htemplate c hhandled
      | some i =>
          rw [hpeek] at hhandled
          simp only at hhandled
          generalize (e.store.table.get? _).1 = table at hhandled
          have hstill := forward_of_none (e := { e with store := { e.store with table } }) hnone s
            calls i d.payload
          exact absurd (hstill.symm.trans hhandled) nofun

/-- A run keeps every connection in its flow, and its template. -/
theorem Coherent.connection?_run (h : e.Coherent) (hc : e.store.connection? id = some c)
    (steps : List (Surroundings × Event)) :
    ∃ c', (e.run steps).store.connection? id = some c' ∧ c'.key = c.key ∧
      c'.template = c.template := by
  induction steps generalizing e c with
  | nil => exact ⟨c, hc, rfl, rfl⟩
  | cons x rest ih =>
      obtain ⟨c₁, hc₁, hkey₁, htemplate₁⟩ := h.connection?_step hc x.1 x.2
      obtain ⟨c', hc', hkey, htemplate⟩ := ih (h.step x.1 x.2) hc₁
      exact ⟨c', hc', hkey.trans hkey₁, htemplate.trans htemplate₁⟩

/-- **Lives**: a connection that exists was opened by a datagram of the run. -/
theorem exists_opens (hsome : ((empty config).run steps).store.connection? id ≠ none) :
    ∃ before s calls d after, steps = before ++ (s, .datagram calls d) :: after ∧
      ((empty config).run before).Opens s calls d id := by
  induction steps using List.reverseRecOn with
  | nil => exact absurd rfl hsome
  | append_singleton steps x ih =>
      obtain ⟨s, event⟩ := x
      rw [run_concat] at hsome
      by_cases hbefore : ((empty config).run steps).store.connection? id = none
      · rcases step_of_none hbefore s event with hnone | ⟨calls, d, rfl⟩
        · exact absurd hnone hsome
        · exact ⟨steps, s, calls, d, [], rfl, hbefore, hsome⟩
      · obtain ⟨before, s', calls, d, after, rfl, hopens⟩ := ih hbefore
        exact ⟨before, s', calls, d, after ++ [(s, event)], by simp, hopens⟩

/-- **Templates**: a connection is addressed by the swapped headers of the datagram that opened
it. -/
theorem exists_opens_template (hc : ((empty config).run steps).store.connection? id = some c) :
    ∃ before s calls d after udp, steps = before ++ (s, .datagram calls d) :: after ∧
      ((empty config).run before).Opens s calls d id ∧ d.headers.udp? = some udp ∧
      c.template = d.headers.swap := by
  obtain ⟨before, s, calls, d, after, rfl, hopens⟩ := exists_opens
    (Option.ne_none_iff_exists'.mpr ⟨c, hc⟩)
  obtain ⟨udp, c₁, hudp, hc₁, htemplate⟩ := hopens.template
  obtain ⟨c', hc', -, hsame⟩ := ((coherent_run config before).step s
    (.datagram calls d)).connection?_run hc₁ after
  rw [run_append] at hc
  cases hc.symm.trans hc'
  exact ⟨before, s, calls, d, after, udp, rfl, hopens, hudp, hsame.trans htemplate⟩

/-! ## Answers -/

/-- A datagram of the steps opened the connection. -/
def Asked (e : Engine) (steps : List (Surroundings × Event)) (id : Nat) (d : Datagram) : Prop :=
  ∃ before s calls after, steps = before ++ (s, .datagram calls d) :: after ∧
    (e.run before).Opens s calls d id

theorem Asked.append (h : e.Asked steps id d) (more : List (Surroundings × Event)) :
    e.Asked (steps ++ more) id d := by
  obtain ⟨before, s, calls, after, rfl, hopens⟩ := h
  exact ⟨before, s, calls, after ++ more, by simp, hopens⟩

/-- **Responses**: what a step writes is written without failing, and answers the datagram that
opened its connection. -/
theorem exists_answer (hmin : Headers.udpPayloadOffset ≤ config.mtu) (hmax : config.mtu ≤ 65535)
    (h : ((empty config).run steps).response? event = some r) :
    ∃ d n, (empty config).Asked steps r.connection d ∧
      (r.write (List.replicate config.mtu 0)).result = .ok n ∧
      Outgoing.IsAnswer ⟨some r.connection,
        (r.write (List.replicate config.mtu 0)).buffer.take n⟩ config.mtu d := by
  obtain ⟨c, hc, htemplate, hlength⟩ := response?_connection h
  obtain ⟨before, s, calls, d, after, udp, rfl, hopens, hudp, hswap⟩ := exists_opens_template hc
  rw [readRoom, config_run] at hlength
  obtain ⟨n, hn, hanswer⟩ := Response.exists_answer hudp (htemplate.trans hswap)
    List.length_replicate (by omega) hmax
  exact ⟨d, n, ⟨before, s, calls, after, rfl, hopens⟩, hn, hanswer⟩

/-- **Answers**: every packet that is sent answers the datagram that opened its connection. -/
theorem isAnswer_of_mem_outbox (hmin : Headers.udpPayloadOffset ≤ config.mtu)
    (hmax : config.mtu ≤ 65535) {p : Outgoing} (hp : p ∈ ((empty config).run steps).outbox) :
    ∃ id d, p.connection = some id ∧ (empty config).Asked steps id d ∧
      p.IsAnswer config.mtu d := by
  induction steps using List.reverseRecOn with
  | nil => contradiction
  | append_singleton steps x ih =>
      obtain ⟨s, event⟩ := x
      rw [run_concat, outbox_step] at hp
      cases List.mem_append.mp hp with
      | inl hold =>
          obtain ⟨id, d, hid, hasked, hanswer⟩ := ih hold
          exact ⟨id, d, hid, hasked.append _, hanswer⟩
      | inr hnew =>
          cases hr : ((empty config).run steps).response? event with
          | none =>
              rw [hr] at hnew
              contradiction
          | some r =>
              obtain ⟨d, n, hasked, hn, hanswer⟩ := exists_answer hmin hmax hr
              simp only [hr, outgoing, config_run, hn] at hnew
              split at hnew
              · rw [List.mem_singleton.mp hnew]
                exact ⟨r.connection, d, rfl, hasked.append _, hanswer⟩
              · contradiction

end Engine

end FlowRelay.Udp
