import FlowRelay.Proofs.Packet.Acceptance
import FlowRelay.Proofs.Packet.Response

/-!
# FlowRelay.Proofs.Packet.Independence

What the responses to a packet show of it besides its endpoints.

1. *Agreement* (`Written.AgreeOutside`): two writes that leave the same bytes outside of a stretch.
2. *Templates* (`Headers.writeTcpResponse_eq_template`, `Headers.writeUdpResponse_eq_udp`): headers
   that are made for the endpoints of a template write the same responses as the template does.
   Those of TCP also have to be given its urgent pointer.
3. *Urgent pointers* (`Headers.differInUrgent_template`): the urgent pointer of a template stands in
   every response, where nothing but the checksum depends on it.
4. *Packets* (`Datagram.responses_agree`): so the responses to two packets between the same
   endpoints agree in everything else.
-/

namespace FlowRelay.Packet

open Bytes

/-! ## Agreement -/

/-- Two writes end alike and leave the same bytes, except perhaps for those from `start` up to, and
without, `stop`. -/
structure Written.AgreeOutside (start stop : Nat) (w₁ w₂ : Written) : Prop where
  result_eq : w₁.result = w₂.result
  length_eq : w₁.buffer.length = w₂.buffer.length
  getElem?_eq : ∀ i, i < start ∨ stop ≤ i → w₁.buffer[i]? = w₂.buffer[i]?

namespace Written.AgreeOutside

variable {start stop : Nat}

theorem refl (start stop : Nat) (w : Written) : AgreeOutside start stop w w :=
  ⟨rfl, rfl, fun _ _ => rfl⟩

/-- Buffers agree outside of a stretch that is filled with other bytes. -/
theorem of_append {front middle₁ middle₂ back : List UInt8} {result : Except WriteError Nat}
    (hfront : front.length = start) (h₁ : start + middle₁.length = stop)
    (h₂ : start + middle₂.length = stop) :
    AgreeOutside start stop ⟨front ++ (middle₁ ++ back), result⟩
      ⟨front ++ (middle₂ ++ back), result⟩ := by
  constructor
  case result_eq => rfl
  case length_eq =>
    simp only [List.length_append]
    omega
  case getElem?_eq =>
    intro i hi
    cases hi with
    | inl hstart =>
        rw [List.getElem?_append_left (hfront ▸ hstart),
          List.getElem?_append_left (hfront ▸ hstart)]
    | inr hstop =>
        have hmiddle : middle₁.length = middle₂.length := by omega
        rw [List.getElem?_append_right (by omega), List.getElem?_append_right (by omega),
          List.getElem?_append_right (by omega), List.getElem?_append_right (by omega), hmiddle]

end Written.AgreeOutside

/-- Where the checksum and the urgent pointer of a TCP packet stand that is sent from here. -/
def Headers.tcpChecksumOffset : Nat := Ipv4.headerLength + 16
def Headers.tcpUrgentOffset : Nat := Ipv4.headerLength + 18

/-- Two TCP responses agree, but for the urgent pointers of their templates, which stand in them if
they fit the buffer, and for the checksums. -/
structure Written.DifferInUrgent (w₁ w₂ : Written) (urgent₁ urgent₂ : UInt16) (fits : Prop) :
    Prop where
  agreeOutside : w₁.AgreeOutside Headers.tcpChecksumOffset Headers.tcpPayloadOffset w₂
  urgent_eq : fits → word16At w₁.buffer Headers.tcpUrgentOffset = urgent₁ ∧
    word16At w₂.buffer Headers.tcpUrgentOffset = urgent₂
  eq_iff : w₁ = w₂ ↔ (fits → urgent₁ = urgent₂)

/-! ## Templates -/

/-- The bytes of a header in front of its checksum. -/
def Tcp.leading (h : Tcp) : List UInt8 :=
  split16 h.source ++ split16 h.destination ++ split32 h.sequence ++ split32 h.acknowledgement ++
    [0x50, h.flags] ++ split16 h.window

/-- A header with another urgent pointer. -/
def Tcp.withUrgent (h : Tcp) (urgent : UInt16) : Tcp := { h with urgent }

theorem Tcp.length_leading (h : Tcp) : h.leading.length = 16 := by
  simp [leading]

/-- The bytes of a header end in its checksum and its urgent pointer. -/
theorem Tcp.exists_bytes_withUrgent (h : Tcp) (source destination : Net.Address)
    (payload : List UInt8) (urgent : UInt16) :
    ∃ checksum, (h.withUrgent urgent).bytes source destination payload =
      h.leading ++ (split16 checksum ++ split16 urgent) :=
  ⟨_, List.append_assoc h.leading _ _⟩

namespace Headers

variable {h : Headers} {buffer : List UInt8} {length : Nat}

/-- Headers of which nothing is known but the endpoints and the urgent pointer. -/
def template (source destination : Net.Endpoint) (urgent : UInt16) : Headers :=
  { network := Ipv4.make 0 .tcp source.address destination.address
    transport := .tcp ((Tcp.make source.port destination.port 0 0 0).withUrgent urgent) }

/-- **Templates**: a response of TCP takes the endpoints and the urgent pointer from its template,
and nothing else. -/
theorem writeTcpResponse_eq_template {t : Tcp} (ht : h.transport = .tcp t) (buffer : List UInt8)
    (flags : UInt8) (sequence acknowledgement : UInt32) (length : Nat) :
    h.writeTcpResponse buffer flags sequence acknowledgement length =
      (template h.source h.destination t.urgent).writeTcpResponse buffer flags sequence
        acknowledgement length := by
  obtain ⟨network, transport⟩ := h
  subst ht
  rfl

/-- A response of UDP takes nothing but the endpoints from its template. -/
theorem writeUdpResponse_eq_udp {u : Udp} (hu : h.transport = .udp u) (buffer : List UInt8)
    (length : Nat) :
    h.writeUdpResponse buffer length =
      (udp h.source h.destination).writeUdpResponse buffer length := by
  obtain ⟨network, transport⟩ := h
  subst hu
  rfl

/-! ## Urgent pointers -/

/-- A packet that does not fit its length field is left without its IPv4 header. -/
theorem writeBoth_of_long {network : Ipv4} {transport : List UInt8 → Nat → Written}
    {segment : List UInt8} {n k : Nat}
    (htransport : transport (buffer.drop Ipv4.headerLength) (n - Ipv4.headerLength) =
      ⟨segment, .ok k⟩) (hmax : 65535 < n) :
    writeBoth network transport buffer n =
      .refuse (buffer.take Ipv4.headerLength ++ segment) .lengthTooBig := by
  unfold writeBoth Written.behind
  simp only [htransport, Written.andThen, Ipv4.write, if_pos hmax, Written.refuse]

variable (source destination : Net.Endpoint) (flags : UInt8) (sequence acknowledgement : UInt32)

/-- Whatever the urgent pointer is, the same stands in front of the TCP header and behind it. -/
theorem exists_writeTcpResponse_template (hbuffer : tcpPayloadOffset + length ≤ buffer.length) :
    ∃ front result, front.length = Ipv4.headerLength ∧ ∀ urgent,
      (template source destination urgent).writeTcpResponse buffer flags sequence acknowledgement
          length =
        ⟨front ++ (((Tcp.make source.port destination.port flags sequence
            acknowledgement).withUrgent urgent).bytes source.address destination.address
              ((buffer.drop tcpPayloadOffset).take length) ++ buffer.drop tcpPayloadOffset),
          result⟩ := by
  by_cases hmax : tcpPayloadOffset + length ≤ 65535
  case pos =>
    refine ⟨(Ipv4.make 0 .tcp source.address destination.address).bytes
      (tcpPayloadOffset + ((buffer.drop tcpPayloadOffset).take length).length).toUInt16,
      .ok (tcpPayloadOffset + length), Ipv4.length_bytes _ _, fun urgent => ?_⟩
    rw [writeTcpResponse_eq rfl hbuffer hmax, responseBytes, List.append_assoc]
    rfl
  case neg =>
    -- The TCP header is in the buffer before the length turns out not to fit the IPv4 header.
    refine ⟨buffer.take Ipv4.headerLength, .error .lengthTooBig, ?_, fun urgent => ?_⟩
    · rw [List.length_take]
      simp only [tcpPayloadOffset] at hbuffer
      omega
    · unfold writeTcpResponse template
      simp only
      rw [if_neg (by omega), writeBoth_of_long (write_staged _ _ _ hbuffer) (by omega)]
      rfl

/-- A response that does not fit the buffer is refused, whatever the urgent pointer is. -/
theorem writeTcpResponse_template_of_lt (hbuffer : buffer.length < tcpPayloadOffset + length)
    (urgent : UInt16) :
    (template source destination urgent).writeTcpResponse buffer flags sequence acknowledgement
        length =
      .refuse buffer .bufferTooSmall := by
  unfold writeTcpResponse template
  simp only
  rw [if_pos hbuffer]

/-- A response shows the urgent pointer of its template. -/
theorem urgent_writeTcpResponse (hbuffer : tcpPayloadOffset + length ≤ buffer.length)
    (urgent : UInt16) :
    word16At ((template source destination urgent).writeTcpResponse buffer flags sequence
      acknowledgement length).buffer tcpUrgentOffset = urgent := by
  obtain ⟨front, result, hfront, hw⟩ := exists_writeTcpResponse_template source destination flags
    sequence acknowledgement hbuffer
  rw [hw, tcpUrgentOffset, word16At_append hfront]
  exact congrArg Tcp.urgent (Tcp.ofBytes_bytes _ _ _ _ _)

/-- A response shows the urgent pointer nowhere else, but for its checksum. -/
theorem agreeOutside_writeTcpResponse (urgent₁ urgent₂ : UInt16) :
    ((template source destination urgent₁).writeTcpResponse buffer flags sequence acknowledgement
        length).AgreeOutside tcpChecksumOffset tcpPayloadOffset
      ((template source destination urgent₂).writeTcpResponse buffer flags sequence acknowledgement
        length) := by
  by_cases hbuffer : tcpPayloadOffset + length ≤ buffer.length
  case pos =>
    obtain ⟨front, result, hfront, hw⟩ := exists_writeTcpResponse_template source destination flags
      sequence acknowledgement hbuffer
    have hbytes := (Tcp.make source.port destination.port flags sequence
      acknowledgement).exists_bytes_withUrgent source.address destination.address
        ((buffer.drop tcpPayloadOffset).take length)
    obtain ⟨checksum₁, h₁⟩ := hbytes urgent₁
    obtain ⟨checksum₂, h₂⟩ := hbytes urgent₂
    -- What may differ is the stretch from the checksum up to the payload.
    rw [hw, hw, h₁, h₂, List.append_assoc (Tcp.leading _), List.append_assoc (Tcp.leading _),
      ← List.append_assoc front, ← List.append_assoc front]
    refine .of_append ?_ rfl rfl
    rw [List.length_append, hfront, Tcp.length_leading, tcpChecksumOffset]
  case neg =>
    rw [writeTcpResponse_template_of_lt _ _ _ _ _ (Nat.lt_of_not_le hbuffer),
      writeTcpResponse_template_of_lt _ _ _ _ _ (Nat.lt_of_not_le hbuffer)]
    exact .refl _ _ _

/-- **Urgent pointers**: responses to templates for the same endpoints differ in nothing else. -/
theorem differInUrgent_template (buffer : List UInt8) (length : Nat) (urgent₁ urgent₂ : UInt16) :
    ((template source destination urgent₁).writeTcpResponse buffer flags sequence acknowledgement
        length).DifferInUrgent
      ((template source destination urgent₂).writeTcpResponse buffer flags sequence acknowledgement
        length) urgent₁ urgent₂ (tcpPayloadOffset + length ≤ buffer.length) := by
  have hurgent (hbuffer : tcpPayloadOffset + length ≤ buffer.length) (urgent : UInt16) :=
    urgent_writeTcpResponse source destination flags sequence acknowledgement hbuffer urgent
  constructor
  case agreeOutside => exact agreeOutside_writeTcpResponse _ _ _ _ _ _ _
  case urgent_eq => exact fun hbuffer => ⟨hurgent hbuffer urgent₁, hurgent hbuffer urgent₂⟩
  case eq_iff =>
    constructor
    · intro hsame hbuffer
      rw [← hurgent hbuffer urgent₁, hsame, hurgent hbuffer urgent₂]
    · intro hsame
      by_cases hbuffer : tcpPayloadOffset + length ≤ buffer.length
      · rw [hsame hbuffer]
      · rw [writeTcpResponse_template_of_lt _ _ _ _ _ (Nat.lt_of_not_le hbuffer),
          writeTcpResponse_template_of_lt _ _ _ _ _ (Nat.lt_of_not_le hbuffer)]

end Headers

/-! ## Packets -/

/-- The urgent pointer of a packet of TCP. -/
def Format.urgent (bytes : List UInt8) : UInt16 := word16At bytes (headerLength bytes + 18)

namespace Datagram

variable {buffer : List UInt8} {d : Datagram}

theorem urgent_of_parse {t : Tcp} (hparse : parse buffer = .ok d)
    (ht : d.headers.transport = .tcp t) : t.urgent = Format.urgent buffer := by
  obtain ⟨hacceptable, hread⟩ := Format.parse_eq_ok_iff.mp (parse_eq_ok_iff.mp hparse).1
  injection hread with hheaders
  rw [← hheaders] at ht
  obtain ⟨htcp, hleast, -⟩ | ⟨hudp, -⟩ := hacceptable.transport
  · rw [Format.segmentLength] at hleast
    simp only [Format.transport, if_pos htcp, Transport.tcp.injEq] at ht
    rw [← ht]
    simp only [Tcp.ofBytes, word16At, Format.segment, Format.urgent]
    rw [Format.byteAt_slice (by omega), Format.byteAt_slice (by omega)]
  · simp [Format.transport, hudp] at ht

/-! ## Independence -/

/-- **Independence**: with the swapped headers of two packets between the same endpoints, the same
responses are written into the same buffer, but for the urgent pointers of TCP: a response that fits
the buffer shows the one that its packet had, and a checksum that covers it. -/
theorem responses_agree {buffer₁ buffer₂ : List UInt8} {d₁ d₂ : Datagram}
    (hparse₁ : parse buffer₁ = .ok d₁) (hparse₂ : parse buffer₂ = .ok d₂)
    (hsource : d₁.source = d₂.source) (hdestination : d₁.destination = d₂.destination) :
    (d₁.headers.protocol = .tcp → d₂.headers.protocol = .tcp →
      ∀ buffer flags sequence acknowledgement length,
        (d₁.headers.swap.writeTcpResponse buffer flags sequence acknowledgement
            length).DifferInUrgent
          (d₂.headers.swap.writeTcpResponse buffer flags sequence acknowledgement length)
          (Format.urgent buffer₁) (Format.urgent buffer₂)
          (Headers.tcpPayloadOffset + length ≤ buffer.length)) ∧
    (d₁.headers.protocol = .udp → d₂.headers.protocol = .udp →
      ∀ buffer length, d₁.headers.swap.writeUdpResponse buffer length =
        d₂.headers.swap.writeUdpResponse buffer length) := by
  have hsource' : d₁.headers.swap.source = d₂.headers.swap.source := by
    rw [Headers.source_swap, Headers.source_swap]
    exact hdestination
  have hdestination' : d₁.headers.swap.destination = d₂.headers.swap.destination := by
    rw [Headers.destination_swap, Headers.destination_swap]
    exact hsource
  constructor
  case left =>
    intro htcp₁ htcp₂ buffer flags sequence acknowledgement length
    obtain ⟨t₁, ht₁, hswap₁⟩ := Headers.exists_tcp_swap htcp₁
    obtain ⟨t₂, ht₂, hswap₂⟩ := Headers.exists_tcp_swap htcp₂
    rw [Headers.writeTcpResponse_eq_template hswap₁, Headers.writeTcpResponse_eq_template hswap₂,
      hsource', hdestination', ← urgent_of_parse hparse₁ ht₁, ← urgent_of_parse hparse₂ ht₂]
    exact Headers.differInUrgent_template _ _ _ _ _ _ _ _ _
  case right =>
    intro hudp₁ hudp₂ buffer length
    obtain ⟨_, -, hswap₁⟩ := Headers.exists_udp_swap hudp₁
    obtain ⟨_, -, hswap₂⟩ := Headers.exists_udp_swap hudp₂
    rw [Headers.writeUdpResponse_eq_udp hswap₁, Headers.writeUdpResponse_eq_udp hswap₂, hsource',
      hdestination']

/-- The first segment of a connection, as one device and another may send it. -/
def opening (service ttl : UInt8) (window urgent : UInt16) : List UInt8 :=
  [0x45, service, 0, 40, 0, 1, 0x40, 0, ttl, 6, 0, 0, 10, 0, 0, 1, 10, 0, 0, 2] ++
    [0xC0, 1, 0, 80, 0, 0, 0, 100, 0, 0, 0, 0, 0x50, 0x02] ++ split16 window ++ [0, 0] ++
    split16 urgent

/-- Two devices that differ in their urgent pointers are answered with different bytes. -/
theorem responses_differ :
    ∃ d₁ d₂, parse (opening 0 64 8192 0x1234) = .ok d₁ ∧ parse (opening 0 64 8192 0) = .ok d₂ ∧
      d₁.source = d₂.source ∧ d₁.destination = d₂.destination ∧
      d₁.headers.protocol = .tcp ∧ d₂.headers.protocol = .tcp ∧
      word16At (d₁.headers.swap.writeTcpResponse (List.replicate 40 0) 0x12 5000 101 0).buffer
        Headers.tcpUrgentOffset = 0x1234 ∧
      (d₁.headers.swap.writeTcpResponse (List.replicate 40 0) 0x12 5000 101 0).buffer ≠
        (d₂.headers.swap.writeTcpResponse (List.replicate 40 0) 0x12 5000 101 0).buffer := by
  refine ⟨_, _, rfl, rfl, ?_⟩
  decide

/-- Two devices that differ in everything else are answered with the same bytes. -/
theorem responses_agree_of_urgent_eq :
    ∃ d₁ d₂, parse (opening 0 64 8192 7) = .ok d₁ ∧ parse (opening 0xB8 128 65535 7) = .ok d₂ ∧
      d₁.headers ≠ d₂.headers ∧
      d₁.headers.swap.writeTcpResponse (List.replicate 40 0) 0x12 5000 101 0 =
        d₂.headers.swap.writeTcpResponse (List.replicate 40 0) 0x12 5000 101 0 := by
  have hparse₁ : parse (opening 0 64 8192 7) = .ok _ := rfl
  have hparse₂ : parse (opening 0xB8 128 65535 7) = .ok _ := rfl
  refine ⟨_, _, hparse₁, hparse₂, by decide, ?_⟩
  have hdiffer := (responses_agree hparse₁ hparse₂ (by decide) (by decide)).1 (by decide)
    (by decide) (List.replicate 40 0) 0x12 5000 101 0
  exact hdiffer.eq_iff.mpr fun _ => by decide

end Datagram

end FlowRelay.Packet
