import Mathlib.Tactic.SplitIfs
import FlowRelay.Proofs.Packet.Acceptance
import FlowRelay.Proofs.Packet.Response

/-!
# FlowRelay.Proofs.Packet.Swap

Packets that are turned around in place.

1. *Fields* (`Datagram.getElem?_swapFields`, `Datagram.wordSum_swapFields`): two neighbouring fields
   change places, every other byte stays, and so does the sum if the fields are made of whole words.
2. *Headers* (`Ipv4.ofBytes_swapFields`, …): a header whose fields changed places is read as the
   header of the answer.
3. *Packets* (`Datagram.getElem?_swap`, `Datagram.take_swap`, `Datagram.slice_swap`): the addresses
   change places in the IPv4 header and the ports in the segment behind it, whatever its length.
4. *Reading* (`Datagram.parse_swap`): so the buffer is read as the packet that the swap reports.
5. *Swapping* (`Datagram.isSwapOf_swap`): all of this, with the checksums; a second swap takes the
   first one back.
-/

namespace FlowRelay.Packet

open Bytes

/-! ## Fields -/

/-- A slice is as long as its bounds say. -/
theorem length_slice {bytes : List UInt8} {start stop : Nat} (h : stop ≤ bytes.length) :
    (slice bytes start stop).length = stop - start := by
  rw [slice, List.length_take, List.length_drop]
  omega

/-- A slice has the bytes of the whole between its bounds. -/
theorem getElem?_slice (bytes : List UInt8) (start stop i : Nat) :
    (slice bytes start stop)[i]? = if start + i < stop then bytes[start + i]? else none := by
  rw [slice, List.getElem?_take, List.getElem?_drop]
  by_cases h : start + i < stop
  · rw [if_pos h, if_pos (by omega)]
  · rw [if_neg h, if_neg (by omega)]

namespace Datagram

/-- Where the byte at a place comes from when two neighbouring fields change places. -/
def exchange (offset width i : Nat) : Nat :=
  if offset ≤ i ∧ i < offset + width then i + width
  else if offset + width ≤ i ∧ i < offset + 2 * width then i - width
  else i

/-- A position is in the first field, in the second, or in neither and stays. -/
theorem exchange_cases (offset width i : Nat) :
    offset ≤ i ∧ i < offset + width ∧ exchange offset width i = i + width ∨
      offset + width ≤ i ∧ i < offset + 2 * width ∧ exchange offset width i + width = i ∨
      (i < offset ∨ offset + 2 * width ≤ i) ∧ exchange offset width i = i := by
  unfold exchange
  split_ifs <;> omega

section

variable {bytes : List UInt8} {offset width : Nat}

/-- Two fields that change places, with what is in front of them and behind them. -/
theorem exists_fields (h : offset + 2 * width ≤ bytes.length) :
    ∃ front first second back, front.length = offset ∧ first.length = width ∧
      second.length = width ∧ bytes = front ++ (first ++ (second ++ back)) ∧
      swapFields bytes offset width = front ++ (second ++ (first ++ back)) := by
  have hfirst : (slice bytes offset (offset + width)).length = width := by
    rw [length_slice (by omega), Nat.add_sub_cancel_left]
  have hsecond : (slice bytes (offset + width) (offset + 2 * width)).length = width := by
    rw [length_slice h]
    omega
  have hback : slice bytes (offset + width) (offset + 2 * width) ++
      bytes.drop (offset + 2 * width) = bytes.drop (offset + width) := by
    have htwo : offset + 2 * width = offset + width + width := by omega
    rw [slice, htwo, Nat.add_sub_cancel_left, ← List.drop_drop (i := width) (j := offset + width),
      List.take_append_drop]
  refine ⟨bytes.take offset, _, _, bytes.drop (offset + 2 * width), ?_, hfirst, hsecond, ?_, ?_⟩
  · rw [List.length_take]
    omega
  · rw [hback, slice, Nat.add_sub_cancel_left, ← List.drop_drop, List.take_append_drop,
      List.take_append_drop]
  · rw [swapFields, overwrite, List.length_append, hfirst, hsecond, ← Nat.two_mul,
      List.append_assoc, List.append_assoc]

/-- **Fields**: every byte is where the exchange of the fields puts it. -/
theorem getElem?_swapFields (h : offset + 2 * width ≤ bytes.length) (i : Nat) :
    (swapFields bytes offset width)[i]? = bytes[exchange offset width i]? := by
  obtain ⟨front, first, second, back, hfront, hfirst, hsecond, rfl, hswap⟩ := exists_fields h
  rw [hswap, exchange]
  simp only [List.getElem?_append, hfront, hfirst, hsecond]
  split_ifs <;> first | rfl | omega | (congr 1; omega)

/-- Swapping two fields exchanges their bytes. -/
theorem byteAt_swapFields (h : offset + 2 * width ≤ bytes.length) (i : Nat) :
    byteAt (swapFields bytes offset width) i = byteAt bytes (exchange offset width i) := by
  simp only [byteAt, List.getD_eq_getElem?_getD, getElem?_swapFields h]

/-- A sum of words does not depend on the order of two fields of whole words. -/
theorem wordSum_swapFields (h : offset + 2 * width ≤ bytes.length) (hoffset : offset % 2 = 0)
    (hwidth : width % 2 = 0) : wordSum (swapFields bytes offset width) = wordSum bytes := by
  obtain ⟨front, first, second, back, hfront, hfirst, hsecond, rfl, hswap⟩ := exists_fields h
  have hfront' : front.length % 2 = 0 := by rw [hfront, hoffset]
  have hfirst' : first.length % 2 = 0 := by rw [hfirst, hwidth]
  have hsecond' : second.length % 2 = 0 := by rw [hsecond, hwidth]
  rw [hswap]
  simp only [wordSum_append _ _ hfront', wordSum_append _ _ hfirst', wordSum_append _ _ hsecond']
  omega

end

end Datagram

/-! ## Headers -/

section

variable {bytes : List UInt8}

open Datagram (swapFields byteAt_swapFields)

/-- With its addresses exchanged, a header is read as that of the answer. -/
theorem Ipv4.ofBytes_swapFields (h : headerLength ≤ bytes.length) :
    Ipv4.ofBytes (swapFields bytes 12 4) = (Ipv4.ofBytes bytes).swap := by
  simp only [ofBytes, swap, addressAt, word16At,
    byteAt_swapFields (show 12 + 2 * 4 ≤ bytes.length from h)]
  rfl

/-- With its ports exchanged, a header is read as that of the answer. -/
theorem Tcp.ofBytes_swapFields (h : 4 ≤ bytes.length) :
    Tcp.ofBytes (swapFields bytes 0 2) = (Tcp.ofBytes bytes).swap := by
  simp only [ofBytes, swap, word16At, word32At,
    byteAt_swapFields (show 0 + 2 * 2 ≤ bytes.length from h)]
  rfl

/-- With its ports exchanged, a header is read as that of the answer. -/
theorem Udp.ofBytes_swapFields (h : 4 ≤ bytes.length) :
    Udp.ofBytes (swapFields bytes 0 2) = (Udp.ofBytes bytes).swap := by
  simp only [ofBytes, swap, word16At, byteAt_swapFields (show 0 + 2 * 2 ≤ bytes.length from h)]
  rfl

end

/-! ## Packets -/

namespace Datagram

open Format

/-- Where the byte at a place of a swapped packet comes from: the addresses are exchanged, and so
are the ports, which stand behind an IPv4 header of the given length. -/
def origin (headerLength i : Nat) : Nat := exchange 12 4 (exchange headerLength 2 i)

/-- A place that neither holds an address nor a port. -/
theorem origin_of_unmoved {headerLength i : Nat} (hheader : 20 ≤ headerLength)
    (hi : i < 12 ∨ 20 ≤ i ∧ i < headerLength ∨ headerLength + 4 ≤ i) :
    origin headerLength i = i := by
  have hports := exchange_cases headerLength 2 i
  have haddresses := exchange_cases 12 4 (exchange headerLength 2 i)
  rw [origin]
  omega

/-- What was exchanged twice is where it was. -/
theorem origin_origin {headerLength : Nat} (hheader : 20 ≤ headerLength) (i : Nat) :
    origin headerLength (origin headerLength i) = i := by
  have hports := exchange_cases headerLength 2 i
  have haddresses := exchange_cases 12 4 (exchange headerLength 2 i)
  have hports' := exchange_cases headerLength 2 (origin headerLength i)
  have haddresses' := exchange_cases 12 4 (exchange headerLength 2 (origin headerLength i))
  simp only [origin] at *
  omega

section

variable {d : Datagram} (h : d.InRange)

include h

/-- The addresses and the ports are in the buffer. -/
theorem InRange.ports_le :
    20 ≤ Ipv4.lengthAt d.buffer ∧ Ipv4.lengthAt d.buffer + 8 ≤ d.length ∧
      d.length ≤ d.buffer.length := by
  have hheader : 8 ≤ d.headers.transport.headerLength := by
    cases d.headers.transport <;> simp [Transport.headerLength, Tcp.headerLength, Udp.headerLength]
  have hports := h.ports
  exact ⟨h.addresses, by omega, h.bytes⟩

/-- **Packets**: in the buffer, addresses and ports are exchanged and every other byte stays. -/
theorem getElem?_swap (i : Nat) :
    d.swap.buffer[i]? = d.buffer[origin (Ipv4.lengthAt d.buffer) i]? := by
  obtain ⟨haddresses, hports, hbytes⟩ := h.ports_le
  have haddressed : (swapFields d.buffer 12 4).length = d.buffer.length :=
    length_swapFields (by omega)
  simp only [swap, origin]
  rw [getElem?_swapFields (by omega), getElem?_swapFields (by omega)]

/-- A byte of the swapped datagram is the byte at its origin. -/
theorem byteAt_swap (i : Nat) :
    byteAt d.swap.buffer i = byteAt d.buffer (origin (Ipv4.lengthAt d.buffer) i) := by
  simp only [byteAt, List.getD_eq_getElem?_getD, getElem?_swap h]

/-- In the IPv4 header the addresses change places. -/
theorem take_swap :
    d.swap.buffer.take (Ipv4.lengthAt d.buffer) =
      swapFields (d.buffer.take (Ipv4.lengthAt d.buffer)) 12 4 := by
  obtain ⟨haddresses, hports, hbytes⟩ := h.ports_le
  apply List.ext_getElem?
  intro i
  have haddressed := exchange_cases 12 4 i
  rw [getElem?_swapFields (by rw [List.length_take]; omega), List.getElem?_take,
    List.getElem?_take, getElem?_swap h, origin]
  by_cases hi : i < Ipv4.lengthAt d.buffer
  · have hport : exchange (Ipv4.lengthAt d.buffer) 2 i = i := by
      have hports := exchange_cases (Ipv4.lengthAt d.buffer) 2 i
      omega
    rw [if_pos hi, if_pos (by omega), hport]
  · rw [if_neg hi, if_neg (by omega)]

/-- In every stretch of the segment that has both ports they change places. -/
theorem slice_swap {n : Nat} (hn : 4 ≤ n) :
    slice d.swap.buffer (Ipv4.lengthAt d.buffer) (Ipv4.lengthAt d.buffer + n) =
      swapFields (slice d.buffer (Ipv4.lengthAt d.buffer) (Ipv4.lengthAt d.buffer + n)) 0 2 := by
  obtain ⟨haddresses, hports, hbytes⟩ := h.ports_le
  apply List.ext_getElem?
  intro i
  have hmoved := exchange_cases 0 2 i
  have hports := exchange_cases (Ipv4.lengthAt d.buffer) 2 (Ipv4.lengthAt d.buffer + i)
  have haddressed := exchange_cases 12 4
    (exchange (Ipv4.lengthAt d.buffer) 2 (Ipv4.lengthAt d.buffer + i))
  have hplace : origin (Ipv4.lengthAt d.buffer) (Ipv4.lengthAt d.buffer + i) =
      Ipv4.lengthAt d.buffer + exchange 0 2 i := by
    rw [origin]
    omega
  rw [getElem?_swapFields (by rw [slice, List.length_take, List.length_drop]; omega),
    getElem?_slice, getElem?_slice, getElem?_swap h, hplace]
  by_cases hi : i < n
  · rw [if_pos (by omega), if_pos (by omega)]
  · rw [if_neg (by omega), if_neg (by omega)]

/-- Behind the ports nothing moves. -/
theorem slice_swap_of_le {start : Nat} (hstart : Ipv4.lengthAt d.buffer + 4 ≤ start) (stop : Nat) :
    slice d.swap.buffer start stop = slice d.buffer start stop := by
  apply List.ext_getElem?
  intro i
  rw [getElem?_slice, getElem?_slice, getElem?_swap h,
    origin_of_unmoved h.ports_le.1 (.inr (.inr (by omega)))]

/-! ## Reading -/

/-- Bytes outside the addresses and the ports stay. -/
theorem octet_swap {i : Nat} (hi : i < 12 ∨ Ipv4.lengthAt d.buffer + 4 ≤ i) :
    octet d.swap.buffer i = octet d.buffer i := by
  rw [octet, byteAt_swap h, origin_of_unmoved h.ports_le.1 (by omega), octet]

theorem headerLength_swap : headerLength d.swap.buffer = headerLength d.buffer := by
  rw [headerLength, octet_swap h (by omega), headerLength]

theorem lengthAt_swap : Ipv4.lengthAt d.swap.buffer = Ipv4.lengthAt d.buffer := by
  rw [lengthAt_eq, headerLength_swap h, lengthAt_eq]

theorem totalLength_swap : totalLength d.swap.buffer = totalLength d.buffer := by
  rw [totalLength, word, octet_swap h (by omega), octet_swap h (by omega), totalLength, word]

theorem protocol_swap : protocol d.swap.buffer = protocol d.buffer := octet_swap h (by omega)

theorem dataOffset_swap : dataOffset d.swap.buffer = dataOffset d.buffer := by
  rw [dataOffset, headerLength_swap h, octet_swap h (by rw [lengthAt_eq]; omega), dataOffset]

theorem datagramLength_swap : datagramLength d.swap.buffer = datagramLength d.buffer := by
  rw [datagramLength, headerLength_swap h, word, octet_swap h (by rw [lengthAt_eq]; omega),
    octet_swap h (by rw [lengthAt_eq]; omega), datagramLength, word]

theorem payloadSpan_swap : payloadSpan d.swap.buffer = payloadSpan d.buffer := by
  simp only [payloadSpan, protocol_swap h, headerLength_swap h, totalLength_swap h,
    dataOffset_swap h, datagramLength_swap h]

/-- What decides whether bytes are read as a packet does not move. -/
theorem acceptable_swap (hd : Acceptable d.buffer) : Acceptable d.swap.buffer := by
  have hsegment : segmentLength d.swap.buffer = segmentLength d.buffer := by
    rw [segmentLength, totalLength_swap h, headerLength_swap h, segmentLength]
  have hword : word d.swap.buffer 6 = word d.buffer 6 := by
    rw [word, octet_swap h (by omega), octet_swap h (by omega), word]
  constructor
  case length => rw [h.length_swap]; exact hd.length
  case version => rw [version, octet_swap h (by omega)]; exact hd.version
  case header => rw [headerLength_swap h, h.length_swap]; exact hd.header
  case total => rw [headerLength_swap h, totalLength_swap h, h.length_swap]; exact hd.total
  case whole => rw [moreFragments, fragmentOffset, hword]; exact hd.whole
  case transport =>
    rw [protocol_swap h, hsegment, dataOffset_swap h, datagramLength_swap h]
    exact hd.transport

/-- The IPv4 header is read with its addresses swapped. -/
theorem ofBytes_swap : Ipv4.ofBytes d.swap.buffer = (Ipv4.ofBytes d.buffer).swap := by
  obtain ⟨haddresses, hports, hbytes⟩ := h.ports_le
  -- The ports stand behind what is read of the header.
  have hport {i : Nat} (hi : i < 20) :
      byteAt d.swap.buffer i = byteAt (swapFields d.buffer 12 4) i := by
    have hports := exchange_cases (Ipv4.lengthAt d.buffer) 2 i
    rw [byteAt_swap h, origin, byteAt_swapFields (by omega)]
    congr 2
    omega
  rw [← Ipv4.ofBytes_swapFields (by rw [Ipv4.headerLength]; omega)]
  simp only [Ipv4.ofBytes, Ipv4.addressAt, word16At]
  simp (disch := omega) only [hport]

/-- The transport header is read with its ports swapped. -/
theorem transport_swap (hd : Acceptable d.buffer) :
    Format.transport d.swap.buffer = (Format.transport d.buffer).swap := by
  have htotal := hd.total
  have hsegment : Format.segment d.swap.buffer = swapFields (Format.segment d.buffer) 0 2 ∧
      4 ≤ (Format.segment d.buffer).length := by
    have hleast : 4 ≤ segmentLength d.buffer := by
      cases hd.transport with
      | inl htcp => omega
      | inr hudp => omega
    have hslice := slice_swap h hleast
    rw [lengthAt_eq, segmentLength, Nat.add_sub_cancel' htotal.1] at hslice
    rw [Format.segment, headerLength_swap h, totalLength_swap h, hslice]
    refine ⟨rfl, ?_⟩
    rw [Format.segment, length_slice htotal.2]
    exact hleast
  rw [Format.transport, Format.transport, protocol_swap h, hsegment.1,
    Tcp.ofBytes_swapFields hsegment.2, Udp.ofBytes_swapFields hsegment.2]
  split_ifs <;> rfl

end

variable {buffer : List UInt8} {d : Datagram}

/-- **Reading**: the buffer of a swapped packet is read as the packet that the swap reports. -/
theorem parse_swap (h : parse buffer = .ok d) : parse d.swap.buffer = .ok d.swap := by
  have hrange := inRange_of_parse h
  obtain ⟨hread, rfl⟩ := parse_eq_ok_iff.mp h
  obtain ⟨hacceptable, hread⟩ := Format.parse_eq_ok_iff.mp hread
  injection hread with hheaders hspan
  refine parse_eq_ok_iff.mpr ⟨Format.parse_eq_ok_iff.mpr ⟨acceptable_swap hrange hacceptable, ?_⟩,
    rfl⟩
  rw [ofBytes_swap hrange, transport_swap hrange hacceptable, payloadSpan_swap hrange, hspan]
  simp only [swap, ← hheaders, Headers.swap]

/-! ## Swapping -/

/-- The sum that the checksum of the IPv4 header is verified by. -/
def networkSum (d : Datagram) : Nat := wordSum (d.buffer.take (Ipv4.lengthAt d.buffer))

/-- The sum that the checksum of the transport header is verified by, over so many bytes of the
segment: all of them for TCP, as many as the header states for UDP. -/
def transportSum (d : Datagram) (n : Nat) : Nat :=
  pseudoSum d.headers.network.source d.headers.network.destination d.headers.protocol.number n +
    wordSum (slice d.buffer (Ipv4.lengthAt d.buffer) (Ipv4.lengthAt d.buffer + n))

/-- The pseudo header adds up to the same in both directions. -/
theorem pseudoSum_comm (source destination : Net.Address) (protocol : UInt8) (length : Nat) :
    pseudoSum destination source protocol length =
      pseudoSum source destination protocol length := by
  simp only [pseudoSum]
  omega

theorem protocol_swap_headers (h : Headers) : h.swap.protocol = h.protocol := by
  cases ht : h.transport <;> simp only [Headers.protocol, Headers.swap, ht] <;> rfl

/-- Swapping headers twice gives them back. -/
theorem swap_swap_headers (h : Headers) : h.swap.swap = h := by
  obtain ⟨network, transport⟩ := h
  cases transport <;> rfl

/-- The words of the IPv4 header change places, those of the addresses. -/
theorem networkSum_swap (h : d.InRange) : d.swap.networkSum = d.networkSum := by
  obtain ⟨haddresses, hports, hbytes⟩ := h.ports_le
  rw [networkSum, lengthAt_swap h, take_swap h,
    wordSum_swapFields (by rw [List.length_take]; omega) (by decide) (by decide), networkSum]

/-- The words of the segment change places, those of the ports, and so do both addresses of the
pseudo header. -/
theorem transportSum_swap (h : d.InRange) {n : Nat} (hn : 4 ≤ n) :
    d.swap.transportSum n = d.transportSum n := by
  obtain ⟨haddresses, hports, hbytes⟩ := h.ports_le
  have hpseudo : pseudoSum d.swap.headers.network.source d.swap.headers.network.destination
      d.swap.headers.protocol.number n = pseudoSum d.headers.network.source
        d.headers.network.destination d.headers.protocol.number n := by
    rw [show d.swap.headers = d.headers.swap from rfl, protocol_swap_headers]
    exact pseudoSum_comm _ _ _ _
  have hsegment : 0 + 2 * 2 ≤ (slice d.buffer (Ipv4.lengthAt d.buffer)
      (Ipv4.lengthAt d.buffer + n)).length := by
    rw [slice, List.length_take, List.length_drop]
    omega
  rw [transportSum, transportSum, hpseudo, lengthAt_swap h, slice_swap h hn,
    wordSum_swapFields hsegment (by decide) (by decide)]

/-- The checksums of a packet verify by these sums, over its whole segment. -/
theorem checksumsVerify_iff (h : d.InRange) :
    d.checksumsVerify = true ↔
      Verifies d.networkSum ∧ Verifies (d.transportSum (d.length - Ipv4.lengthAt d.buffer)) := by
  obtain ⟨haddresses, hports, hbytes⟩ := h.ports_le
  have hstop : Ipv4.lengthAt d.buffer + (d.length - Ipv4.lengthAt d.buffer) = d.length := by omega
  simp only [checksumsVerify, Bool.and_eq_true, decide_eq_true_eq, networkSum, transportSum, hstop,
    length_slice hbytes]

/-- What was exchanged twice is as it was. -/
theorem swap_swap (h : parse buffer = .ok d) : d.swap.swap = d := by
  have hrange := inRange_of_parse h
  have hrange' := inRange_of_parse (parse_swap h)
  have hbuffer : d.swap.swap.buffer = d.buffer := by
    apply List.ext_getElem?
    intro i
    rw [getElem?_swap hrange', lengthAt_swap hrange, getElem?_swap hrange,
      origin_origin hrange.ports_le.1]
  have hheaders : d.swap.swap.headers = d.headers := swap_swap_headers d.headers
  calc d.swap.swap = ⟨d.swap.swap.buffer, d.swap.swap.headers, d.span⟩ := rfl
    _ = d := by rw [hbuffer, hheaders]

/-- One packet is the other one turned around in place. -/
structure IsSwapOf (s d : Datagram) : Prop where
  /-- Addresses and ports are exchanged in the buffer, and every other byte stays. -/
  getElem?_eq : ∀ i, s.buffer[i]? = d.buffer[origin (Ipv4.lengthAt d.buffer) i]?
  source_eq : s.source = d.destination
  destination_eq : s.destination = d.source
  payload_eq : s.payload = d.payload
  /-- The bytes of the packet are read again with the headers and the payload that it reports. -/
  reread : ∃ r, parse s.bytes = .ok r ∧ r.headers = s.headers ∧ r.payload = s.payload
  /-- Both sums stay what they were, the one of the segment over any stretch that has both ports. -/
  networkSum_eq : s.networkSum = d.networkSum
  transportSum_eq : ∀ n, 4 ≤ n → s.transportSum n = d.transportSum n
  /-- So the checksums verify if they did before. -/
  checksumsVerify_iff : s.checksumsVerify = true ↔ d.checksumsVerify = true
  /-- A second swap restores buffer and headers. -/
  swap_eq : s.swap = d

/-- **Swapping**: a packet that was read, whatever its options, its padding and the bytes behind it,
is turned around in place. -/
theorem isSwapOf_swap (h : parse buffer = .ok d) : d.swap.IsSwapOf d := by
  have hrange := inRange_of_parse h
  have hread := parse_swap h
  constructor
  case getElem?_eq => exact getElem?_swap hrange
  case source_eq => exact d.headers.source_swap
  case destination_eq => exact d.headers.destination_swap
  case payload_eq =>
    obtain ⟨hheaders, rfl⟩ := parse_eq_ok_iff.mp h
    obtain ⟨hacceptable, hspan⟩ := Format.parse_eq_ok_iff.mp hheaders
    injection hspan with _ hspan
    refine slice_swap_of_le hrange ?_ _
    rw [show d.swap.span = d.span from rfl, ← hspan, payloadSpan, lengthAt_eq]
    have htransport := hacceptable.transport
    split_ifs
    · simp only
      omega
    · simp only
      omega
  case reread =>
    obtain ⟨hsame, r, hr, hpayload, -⟩ := parse_of_take_eq hread
      (show d.swap.bytes.take d.swap.length = d.swap.buffer.take d.swap.length by
        rw [bytes, List.take_take, Nat.min_self])
    refine ⟨r, hr, ?_, hpayload⟩
    have hheaders := (parse_eq_ok_iff.mp hr).1.symm.trans
      (hsame.trans (parse_eq_ok_iff.mp hread).1)
    injection hheaders with hheaders
    exact congrArg Prod.fst hheaders
  case networkSum_eq => exact networkSum_swap hrange
  case transportSum_eq => exact fun n => transportSum_swap hrange
  case checksumsVerify_iff =>
    obtain ⟨haddresses, hports, hbytes⟩ := hrange.ports_le
    rw [checksumsVerify_iff (inRange_of_parse hread), checksumsVerify_iff hrange,
      lengthAt_swap hrange, show d.swap.length = d.length from rfl, networkSum_swap hrange,
      transportSum_swap hrange (by omega)]
  case swap_eq => exact swap_swap h

/-- A datagram of UDP with options, an odd payload, padding and bytes behind it, whose checksums
verify. -/
def checked : List UInt8 :=
  [0x46, 0, 0, 36, 0, 1, 0x40, 0, 64, 17, 0xF7, 0xEA, 10, 0, 0, 1, 93, 184, 216, 34, 1, 1, 1, 1] ++
    [0xC0, 1, 0, 53, 0, 11, 0x76, 0x5C] ++ [104, 105, 33] ++ [0x55] ++ [7, 7, 7]

/-- Turned around, it still verifies: the IPv4 header, and the eleven bytes that its UDP header
states. -/
theorem isSwapOf_checked :
    ∃ d, parse checked = .ok d ∧ d.swap.IsSwapOf d ∧ d.swap.buffer ≠ d.buffer ∧
      d.headers.udp?.map (·.length) = some 11 ∧ Verifies d.swap.networkSum ∧
      Verifies (d.swap.transportSum 11) := by
  obtain ⟨d, hparse, hmoved, hlength, hnetwork, htransport⟩ : ∃ d, parse checked = .ok d ∧
      d.swap.buffer ≠ d.buffer ∧ d.headers.udp?.map (·.length) = some 11 ∧
      Verifies d.networkSum ∧ Verifies (d.transportSum 11) :=
    ⟨_, rfl, by decide, by decide, by decide, by decide⟩
  have hswap := isSwapOf_swap hparse
  refine ⟨d, hparse, hswap, hmoved, hlength, ?_, ?_⟩
  · rwa [hswap.networkSum_eq]
  · rwa [hswap.transportSum_eq 11 (by decide)]

end Datagram

end FlowRelay.Packet
