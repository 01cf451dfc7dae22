import FlowRelay.Proofs.Tcp.Response

/-!
# FlowRelay.Proofs.Tcp.Answers

Every segment for the device answers the SYN that opened its connection, or that could not open one.

1. *Templates* (`exists_opens_template`): a connection addresses its packets by the swapped headers
   of the SYN that opened it, for as long as it is there.
2. *Responses* (`exists_answer`): in every run, what a step writes is written without failing, and
   answers a SYN of the run.
3. *Outbox* (`run_answers`): so does every packet that is sent.
-/

namespace FlowRelay.Tcp

open Packet

/-- A response that answers a segment is written, if its payload fits the device. -/
theorem Response.exists_answer {r : Response} {d : Datagram} {tcp : Packet.Tcp} {mtu : Nat}
    {buffer : List UInt8} (htcp : d.headers.tcp? = some tcp)
    (htemplate : r.template = d.headers.swap) (hbuffer : buffer.length = mtu)
    (hfits : Headers.tcpPayloadOffset + r.payload.length ≤ mtu) (hmax : mtu ≤ 65535) :
    ∃ n, (r.write buffer).result = .ok n ∧
      Outgoing.IsAnswer ⟨r.connection, (r.write buffer).buffer.take n⟩ mtu d := by
  have htransport := Headers.tcp?_eq_some.mp htcp
  have hswap : r.template.transport = .tcp tcp.swap := by
    rw [htemplate]
    exact congrArg Transport.swap htransport
  have hlength := Nat.le_trans hfits hmax
  have hpacket : (r.write buffer).IsPacket _ r.payload :=
    Headers.writeTcpResponse_isPacket hswap (hbuffer ▸ hfits) hlength r.flags r.sequence
      r.acknowledgement
  refine ⟨_, hpacket.result_eq, hpacket.isAnswer hfits hlength ?_ ?_ ?_ hpacket.result_eq
    r.connection⟩
  · rw [Headers.source_withTcp hswap, htemplate, Headers.source_swap]
    rfl
  · rw [Headers.destination_withTcp hswap, htemplate, Headers.destination_swap]
    rfl
  · rw [Headers.protocol, Headers.protocol, htransport]
    rfl

namespace Engine

variable {e : Engine} {s : Surroundings} {initial : UInt32} {d : Datagram} {id : Nat}
  {config : Config} {inspecting : Bool} {steps : List (Surroundings × Event)}

/-! ## Templates -/

/-- A connection that is opened is addressed by the swapped headers of its SYN. -/
theorem Opens.template (h : e.Opens s initial d id) :
    ∃ tcp c, d.headers.tcp? = some tcp ∧
      (e.step s (.segment initial d)).store.connection? id = some c ∧
      c.template = d.headers.swap := by
  obtain ⟨hnone, hsome⟩ := h
  obtain ⟨c, hc⟩ := Option.ne_none_iff_exists'.mp hsome
  rw [step_eq] at hc
  rw [step_eq]
  have hplan := e.plan_segment s initial d
  generalize e.plan s (.segment initial d) = p at hplan hc
  cases hplan with
  | idle => exact absurd (hnone.symm.trans hc) nofun
  | find htcp hpeek =>
      rw [follow, connection?_carryOut_of_none
        (e := { e with store := (e.store.find? ⟨d.destination, d.source.port⟩).1 }) hnone] at hc
      contradiction
  | @accept tcp htcp hsyn hunknown hsocket =>
      refine ⟨tcp, c, htcp, hc, ?_⟩
      rw [follow, store_carryOut_begun] at hc
      cases Flow.Store.connection?_openNew_of_none Connection.close_close hnone hc with
      | inl hnew =>
          rw [hnew]
          rfl
      | inr hnew =>
          rw [hnew]
          rfl
  | refuse htcp hsyn hunknown hsocket =>
      rw [store_refuse] at hc
      exact absurd (hnone.symm.trans hc) nofun

/-- A run keeps every connection in its flow, and its template. -/
theorem Coherent.connection?_run (h : e.Coherent) {c : Connection}
    (hc : e.store.connection? id = some c) (steps : List (Surroundings × Event)) :
    ∃ c', (e.run steps).store.connection? id = some c' ∧ c'.key = c.key ∧
      c'.template = c.template := by
  induction steps generalizing e c with
  | nil => exact ⟨c, hc, rfl, rfl⟩
  | cons x rest ih =>
      obtain ⟨c₁, hc₁, hkey₁, htemplate₁⟩ := h.connection?_step hc x.1 x.2
      obtain ⟨c', hc', hkey, htemplate⟩ := ih (h.step x.1 x.2) hc₁
      exact ⟨c', hc', hkey.trans hkey₁, htemplate.trans htemplate₁⟩

/-- **Templates**: a connection is addressed by the swapped headers of the SYN that opened it. -/
theorem exists_opens_template {c : Connection}
    (hc : ((empty config inspecting).run steps).store.connection? id = some c) :
    ∃ before s initial d after tcp, steps = before ++ (s, .segment initial d) :: after ∧
      ((empty config inspecting).run before).Opens s initial d id ∧ d.headers.tcp? = some tcp ∧
      c.template = d.headers.swap := by
  obtain ⟨before, s, initial, d, after, rfl, hopens⟩ := exists_opens config inspecting steps
    (Option.ne_none_iff_exists'.mpr ⟨c, hc⟩)
  obtain ⟨tcp, c₁, htcp, hc₁, htemplate⟩ := hopens.template
  obtain ⟨c', hc', -, hsame⟩ := ((coherent_run config inspecting before).step s
    (.segment initial d)).connection?_run hc₁ after
  rw [run_append] at hc
  cases hc.symm.trans hc'
  exact ⟨before, s, initial, d, after, tcp, rfl, hopens, htcp, hsame.trans htemplate⟩

/-! ## Answers -/

/-- A SYN of the device opens the connection, or opens none. -/
def Meets (e : Engine) (s : Surroundings) (initial : UInt32) (d : Datagram) : Option Nat → Prop
  | some id => e.Opens s initial d id
  | none => e.Refuses s d

/-- A SYN of the steps opened the connection, or could not open one. -/
def Asked (e : Engine) (steps : List (Surroundings × Event)) (connection : Option Nat)
    (d : Datagram) : Prop :=
  ∃ before s initial after, steps = before ++ (s, .segment initial d) :: after ∧
    (e.run before).Meets s initial d connection

theorem Asked.append {connection : Option Nat} (h : e.Asked steps connection d)
    (more : List (Surroundings × Event)) : e.Asked (steps ++ more) connection d := by
  obtain ⟨before, s, initial, after, rfl, hasked⟩ := h
  exact ⟨before, s, initial, after ++ more, by simp, hasked⟩

/-- **Responses**: what a step writes is written without failing, and answers a SYN of the run. -/
theorem exists_answer {event : Event} {r : Response}
    (hmin : Headers.tcpPayloadOffset ≤ config.mtu) (hmax : config.mtu ≤ 65535)
    (h : ((empty config inspecting).run steps).response? s event = some r) :
    ∃ d n, (empty config inspecting).Asked (steps ++ [(s, event)]) r.connection d ∧
      (r.write ((empty config inspecting).run steps).blank).result = .ok n ∧
      Outgoing.IsAnswer ⟨r.connection,
        (r.write ((empty config inspecting).run steps).blank).buffer.take n⟩ config.mtu d := by
  have hconfig := config_run config inspecting steps
  have hblank : ((empty config inspecting).run steps).blank.length = config.mtu := by
    rw [blank, List.length_replicate, hconfig]
  rcases response?_cases h with ⟨id, c, hc, hof⟩ | ⟨initial, d, tcp, rfl, htcp, hrefuses, rfl⟩
  · obtain ⟨before, s', initial, d, after, tcp, rfl, hopens, htcp, htemplate⟩ :=
      exists_opens_template hc
    have hroom : r.payload.length ≤ config.mtu - Headers.tcpPayloadOffset := by
      have hle := hof.length_le
      rwa [readRoom, hconfig] at hle
    obtain ⟨n, hn, hanswer⟩ := Response.exists_answer htcp (hof.template_eq.trans htemplate) hblank
      (by omega) hmax
    refine ⟨d, n, .append ⟨before, s', initial, after, rfl, ?_⟩ _, hn, hanswer⟩
    rw [hof.connection_eq]
    exact hopens
  · obtain ⟨n, hn, hanswer⟩ := Response.exists_answer (r := refusal d.headers tcp) htcp rfl hblank
      hmin hmax
    exact ⟨d, n, ⟨steps, s, initial, [], rfl, hrefuses⟩, hn, hanswer⟩

/-- **Outbox**: every packet that is sent answers a SYN of the run. -/
theorem isAnswer_of_mem_outbox (hmin : Headers.tcpPayloadOffset ≤ config.mtu)
    (hmax : config.mtu ≤ 65535) {p : Outgoing}
    (hp : p ∈ ((empty config inspecting).run steps).outbox) :
    ∃ d, (empty config inspecting).Asked steps p.connection d ∧ p.IsAnswer config.mtu d := by
  induction steps using List.reverseRecOn with
  | nil => contradiction
  | append_singleton steps x ih =>
      obtain ⟨s, event⟩ := x
      rw [run_concat, outbox_step] at hp
      cases List.mem_append.mp hp with
      | inl hold =>
          obtain ⟨d, hasked, hanswer⟩ := ih hold
          exact ⟨d, hasked.append _, hanswer⟩
      | inr hnew =>
          cases hr : ((empty config inspecting).run steps).response? s event with
          | none =>
              rw [hr] at hnew
              contradiction
          | some r =>
              obtain ⟨d, n, hasked, hn, hanswer⟩ := exists_answer hmin hmax hr
              simp only [hr, outgoing, hn] at hnew
              split at hnew
              · rw [List.mem_singleton.mp hnew]
                exact ⟨d, hasked, hanswer⟩
              · contradiction

end Engine

end FlowRelay.Tcp
