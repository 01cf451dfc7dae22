import Mathlib.Data.Nat.Bitwise
import FlowRelay.Proofs.Packet.RoundTrip

/-!
# FlowRelay.Proofs.Packet.Acceptance

Which bytes are read as a packet.

1. *Format* (`Format`): the fields that decide, as the numbers that the bytes stand for.
2. *Demands* (`Format.demands`, `Format.Acceptable`): what the fields have to be like, in the order
   in which it is asked for, each with the refusal that it leads to.
3. *Fields* (`Format.lengthAt_eq`, …): the reader works with these numbers.
4. *Decision* (`Headers.parse_eq`): bytes are read where they meet all demands, and otherwise are
   refused for the first one that they do not meet.
5. *Locality* (`Headers.parse_eq_of_take_eq`): nothing past the total length is looked at.
6. *Acceptance* (`Datagram.acceptance`): all of this, and every stretch of the buffer that is used
   later lies inside of it.
-/

namespace FlowRelay.Packet

open Bytes

namespace Format

/-! ## Format -/

/-- The number that a byte stands for. -/
def octet (bytes : List UInt8) (offset : Nat) : Nat := (byteAt bytes offset).toNat

/-- The number in a field of two bytes, the high one first. -/
def word (bytes : List UInt8) (offset : Nat) : Nat :=
  octet bytes offset * 256 + octet bytes (offset + 1)

/-- The version is the upper half of the first byte. -/
def version (bytes : List UInt8) : Nat := octet bytes 0 / 16

/-- The length of the IPv4 header in words of four bytes is the lower half of the first byte. -/
def headerLength (bytes : List UInt8) : Nat := octet bytes 0 % 16 * 4

def totalLength (bytes : List UInt8) : Nat := word bytes 2

/-- The last of the three flags in front of the fragment offset. -/
def moreFragments (bytes : List UInt8) : Nat := word bytes 6 / 8192 % 2

def fragmentOffset (bytes : List UInt8) : Nat := word bytes 6 % 8192

def protocol (bytes : List UInt8) : Nat := octet bytes 9

/-- The segment stands between the IPv4 header and the total length. -/
def segmentLength (bytes : List UInt8) : Nat := totalLength bytes - headerLength bytes

/-- The length of a TCP header in words of four bytes is the upper half of its byte 12. -/
def dataOffset (bytes : List UInt8) : Nat := octet bytes (headerLength bytes + 12) / 16 * 4

/-- A UDP header states its own length and that of the payload together. -/
def datagramLength (bytes : List UInt8) : Nat := word bytes (headerLength bytes + 4)

/-! ## Demands -/

/-- What has to hold of bytes that are read as a packet. -/
structure Acceptable (bytes : List UInt8) : Prop where
  length : 20 ≤ bytes.length
  version : version bytes = 4
  header : 20 ≤ headerLength bytes ∧ headerLength bytes ≤ bytes.length
  total : headerLength bytes ≤ totalLength bytes ∧ totalLength bytes ≤ bytes.length
  whole : moreFragments bytes = 0 ∧ fragmentOffset bytes = 0
  transport :
    protocol bytes = 6 ∧ 20 ≤ segmentLength bytes ∧
        20 ≤ dataOffset bytes ∧ dataOffset bytes ≤ segmentLength bytes ∨
      protocol bytes = 17 ∧ 8 ≤ segmentLength bytes ∧
        8 ≤ datagramLength bytes ∧ datagramLength bytes ≤ segmentLength bytes

/-- A demand on bytes, and the refusal of bytes that do not meet it. -/
structure Demand where
  met : Bool
  refusal : Malformed

/-- The demands on a length that a transport header states: there are enough bytes to read it, and
it covers the header and no more than there is. -/
def lengthDemands (least available stated : Nat) : List Demand :=
  [⟨least ≤ available, .tooShort⟩, ⟨least ≤ stated ∧ stated ≤ available, .invalidLength⟩]

/-- The demands on the segment of a packet. -/
def transportDemands (bytes : List UInt8) : List Demand :=
  if protocol bytes = 6 then lengthDemands 20 (segmentLength bytes) (dataOffset bytes)
  else if protocol bytes = 17 then lengthDemands 8 (segmentLength bytes) (datagramLength bytes)
  else [⟨false, .unsupportedProtocol (protocol bytes).toUInt8⟩]

/-- The demands on a packet, in order. -/
def demands (bytes : List UInt8) : List Demand :=
  [⟨20 ≤ bytes.length, .tooShort⟩,
    ⟨version bytes = 4, .unsupportedVersion (version bytes).toUInt8⟩,
    ⟨20 ≤ headerLength bytes ∧ headerLength bytes ≤ bytes.length, .invalidLength⟩,
    ⟨headerLength bytes ≤ totalLength bytes ∧ totalLength bytes ≤ bytes.length, .invalidLength⟩,
    ⟨moreFragments bytes = 0 ∧ fragmentOffset bytes = 0, .fragmented⟩] ++
    transportDemands bytes

/-- The refusal of the first demand that is not met. -/
def refusal? (demands : List Demand) : Option Malformed :=
  (demands.find? (!·.met)).map (·.refusal)

/-- The first demand that is not met is what is refused. -/
theorem refusal?_cons (d : Demand) (rest : List Demand) :
    refusal? (d :: rest) = if d.met then refusal? rest else some d.refusal := by
  cases h : d.met <;> simp [refusal?, h]

/-- Nothing is refused if every demand is met. -/
theorem refusal?_eq_none {ds : List Demand} : refusal? ds = none ↔ ∀ d ∈ ds, d.met = true := by
  simp [refusal?]

/-- Bytes that meet every demand are acceptable. -/
theorem refusal?_demands_eq_none {bytes : List UInt8} :
    refusal? (demands bytes) = none ↔ Acceptable bytes := by
  have htransport : (∀ d ∈ transportDemands bytes, d.met = true) ↔
      protocol bytes = 6 ∧ 20 ≤ segmentLength bytes ∧
          20 ≤ dataOffset bytes ∧ dataOffset bytes ≤ segmentLength bytes ∨
        protocol bytes = 17 ∧ 8 ≤ segmentLength bytes ∧
          8 ≤ datagramLength bytes ∧ datagramLength bytes ≤ segmentLength bytes := by
    unfold transportDemands lengthDemands
    by_cases htcp : protocol bytes = 6
    · simp [htcp]
    · by_cases hudp : protocol bytes = 17
      · simp [hudp]
      · simp [htcp, hudp]
  rw [refusal?_eq_none, demands, List.forall_mem_append, htransport]
  simp only [List.forall_mem_cons, decide_eq_true_eq, List.not_mem_nil, false_implies,
    implies_true, and_true]
  constructor
  · rintro ⟨⟨hlength, hversion, hheader, htotal, hwhole⟩, hsegment⟩
    exact ⟨hlength, hversion, hheader, htotal, hwhole, hsegment⟩
  · rintro ⟨hlength, hversion, hheader, htotal, hwhole, hsegment⟩
    exact ⟨⟨hlength, hversion, hheader, htotal, hwhole⟩, hsegment⟩

/-! ## Packets -/

/-- The segment of a packet. -/
def segment (bytes : List UInt8) : List UInt8 :=
  slice bytes (headerLength bytes) (totalLength bytes)

/-- The transport header of a packet. -/
def transport (bytes : List UInt8) : Transport :=
  if protocol bytes = 6 then .tcp (Tcp.ofBytes (segment bytes))
  else .udp (Udp.ofBytes (segment bytes))

/-- Where the payload lies in the segment of a packet. -/
def segmentSpan (bytes : List UInt8) : Span :=
  if protocol bytes = 6 then ⟨dataOffset bytes, segmentLength bytes⟩ else ⟨8, datagramLength bytes⟩

/-- Where the payload of a packet lies: behind its transport header, and up to the total length or
to the length that a UDP header states. -/
def payloadSpan (bytes : List UInt8) : Span :=
  if protocol bytes = 6 then ⟨headerLength bytes + dataOffset bytes, totalLength bytes⟩
  else ⟨headerLength bytes + 8, headerLength bytes + datagramLength bytes⟩

/-! ## Fields -/

/-- `join16` is the number of its two bytes. -/
theorem toNat_join16 (hi lo : UInt8) : (join16 hi lo).toNat = hi.toNat * 256 + lo.toNat := by
  have hhi := hi.toNat_lt
  have hlo := lo.toNat_lt
  simp only [join16, UInt16.toNat_or, UInt16.toNat_shiftLeft, UInt8.toNat_toUInt16,
    UInt16.reduceToNat, Nat.reduceMod]
  rw [Nat.mod_eq_of_lt (by rw [Nat.shiftLeft_eq]; omega),
    ← Nat.shiftLeft_add_eq_or_of_lt (by omega), Nat.shiftLeft_eq]

/-- A word is read as the number of its two bytes. -/
theorem toNat_word16At (bytes : List UInt8) (offset : Nat) :
    (word16At bytes offset).toNat = word bytes offset := toNat_join16 _ _

theorem toNat_shiftRight_four (b : UInt8) : (b >>> 4).toNat = b.toNat / 16 := by
  simp [Nat.shiftRight_eq_div_pow]

theorem version_eq (bytes : List UInt8) :
    (Ipv4.ofBytes bytes).version.toNat = version bytes := toNat_shiftRight_four _

/-- The length of the IPv4 header is counted in words of four bytes. -/
theorem lengthAt_eq (bytes : List UInt8) : Ipv4.lengthAt bytes = headerLength bytes := by
  have hmod := Nat.and_two_pow_sub_one_eq_mod (byteAt bytes 0).toNat 4
  rw [Ipv4.lengthAt, UInt8.toNat_and, headerLength, octet]
  exact congrArg (· * 4) hmod

/-- The flag for more fragments is bit 13 of its word. -/
theorem and_moreFragments_eq_zero (w : UInt16) :
    w &&& 0x2000 = 0 ↔ w.toNat / 8192 % 2 = 0 := by
  have hand : w.toNat &&& 8192 = (decide (w.toNat / 8192 % 2 = 1)).toNat * 8192 := by
    rw [← Nat.testBit_eq_decide_div_mod_eq (i := 13)]
    exact Nat.and_two_pow w.toNat 13
  rw [← UInt16.toNat_inj, UInt16.toNat_and, UInt16.toNat_zero]
  change w.toNat &&& 8192 = 0 ↔ _
  rw [hand]
  by_cases hbit : w.toNat / 8192 % 2 = 1
  · simp [hbit]
  · simp only [hbit, decide_false, Bool.toNat_false, Nat.zero_mul, true_iff]
    omega

/-- The fragment offset is the word below that. -/
theorem and_fragmentOffset_eq_zero (w : UInt16) : w &&& 0x1FFF = 0 ↔ w.toNat % 8192 = 0 := by
  have hmod := Nat.and_two_pow_sub_one_eq_mod w.toNat 13
  rw [← UInt16.toNat_inj, UInt16.toNat_and, UInt16.toNat_zero]
  exact Eq.congr_left hmod

/-- A fragment has its flag set or an offset. -/
theorem isFragment_eq (bytes : List UInt8) :
    (Ipv4.ofBytes bytes).isFragment =
      decide ¬ (moreFragments bytes = 0 ∧ fragmentOffset bytes = 0) := by
  simp only [Ipv4.isFragment, Ipv4.moreFragments, Ipv4.fragmentOffset, Ipv4.ofBytes,
    moreFragments, fragmentOffset, ← toNat_word16At, ← and_moreFragments_eq_zero,
    ← and_fragmentOffset_eq_zero]
  by_cases hmore : word16At bytes 6 &&& 0x2000 = 0 <;>
    by_cases hoffset : word16At bytes 6 &&& 0x1FFF = 0 <;> simp [hmore, hoffset]

/-- A byte of a slice is the byte of the whole at its place. -/
theorem byteAt_slice {bytes : List UInt8} {start stop i : Nat} (h : start + i < stop) :
    byteAt (slice bytes start stop) i = byteAt bytes (start + i) := by
  simp only [byteAt, slice, List.getD_eq_getElem?_getD]
  rw [List.getElem?_take_of_lt (by omega), List.getElem?_drop]

/-- The length of the TCP header is counted in words of four bytes. -/
theorem dataOffset_eq {bytes : List UInt8} (h : 20 ≤ segmentLength bytes) :
    Tcp.lengthAt (segment bytes) = dataOffset bytes := by
  rw [Tcp.lengthAt, toNat_shiftRight_four, segment,
    byteAt_slice (by rw [segmentLength] at h; omega)]
  rfl

theorem datagramLength_eq {bytes : List UInt8} (h : 8 ≤ segmentLength bytes) :
    (Udp.ofBytes (segment bytes)).length.toNat = datagramLength bytes := by
  rw [segmentLength] at h
  rw [Udp.ofBytes, toNat_word16At, word, octet, octet, segment, byteAt_slice (by omega),
    byteAt_slice (by omega)]
  rfl

/-! ## Decision -/

/-- What is read, unless it is refused. -/
def verdict {α : Type} (ds : List Demand) (read : α) : Except Malformed α :=
  match refusal? ds with
  | some e => .error e
  | none => .ok read

theorem verdict_cons {α : Type} (d : Demand) (rest : List Demand) (read : α) :
    verdict (d :: rest) read = if d.met then verdict rest read else .error d.refusal := by
  unfold verdict
  rw [refusal?_cons]
  cases d.met <;> rfl

/-- A stated length is looked at only where there are enough bytes to read it. -/
theorem verdict_lengthDemands {α : Type} {least available stated stated' : Nat} (read : Nat → α)
    (hstated : least ≤ available → stated' = stated) :
    (if available < least then .error .tooShort
      else if stated' < least ∨ stated' > available then .error .invalidLength
      else .ok (read stated')) =
      verdict (lengthDemands least available stated) (read stated) := by
  rw [lengthDemands, verdict_cons, verdict_cons]
  simp only [decide_eq_true_eq]
  by_cases hleast : least ≤ available
  · rw [hstated hleast, if_neg (by omega), if_pos hleast]
    by_cases hlength : least ≤ stated ∧ stated ≤ available
    · rw [if_neg (by omega), if_pos hlength]
      rfl
    · rw [if_pos (by omega), if_neg hlength]
  · rw [if_pos (by omega), if_neg hleast]

/-- A segment is read where it meets all demands on segments. -/
theorem parseTransport_segment {bytes : List UInt8}
    (hlength : (segment bytes).length = segmentLength bytes) :
    Headers.parseTransport (Ipv4.ofBytes bytes).protocol (segment bytes) =
      verdict (transportDemands bytes) (transport bytes, segmentSpan bytes) := by
  have hnumber (n : UInt8) : (Ipv4.ofBytes bytes).protocol = n ↔ protocol bytes = n.toNat :=
    UInt8.toNat_inj.symm
  unfold Headers.parseTransport transportDemands transport segmentSpan Protocol.ofNumber?
  simp only [hnumber, UInt8.reduceToNat, hlength]
  by_cases htcp : protocol bytes = 6
  · simp only [if_pos htcp]
    exact verdict_lengthDemands
      (fun offset =>
        (Transport.tcp (Tcp.ofBytes (segment bytes)), (⟨offset, segmentLength bytes⟩ : Span)))
      dataOffset_eq
  by_cases hudp : protocol bytes = 17
  · simp only [if_neg htcp, if_pos hudp]
    exact verdict_lengthDemands
      (fun length => (Transport.udp (Udp.ofBytes (segment bytes)), (⟨8, length⟩ : Span)))
      datagramLength_eq
  · simp only [if_neg htcp, if_neg hudp, verdict_cons, Bool.false_eq_true, if_false]
    rw [protocol, octet, Nat.toUInt8_eq, UInt8.ofNat_toNat]
    rfl

/-- **Decision**: bytes are read as a packet where they meet all demands, and are refused for the
first one that they do not meet. -/
theorem parse_eq (bytes : List UInt8) :
    Headers.parse bytes =
      verdict (demands bytes) (⟨Ipv4.ofBytes bytes, transport bytes⟩, payloadSpan bytes) := by
  have hversion : (Ipv4.ofBytes bytes).version = 4 ↔ version bytes = 4 := by
    rw [← UInt8.toNat_inj, version_eq]
    rfl
  have htotal : (Ipv4.ofBytes bytes).totalLength.toNat = totalLength bytes :=
    toNat_word16At bytes 2
  unfold Headers.parse
  simp only [lengthAt_eq, htotal, isFragment_eq, hversion, Ipv4.headerLength, ne_eq,
    decide_eq_true_eq]
  simp only [demands, List.cons_append, List.nil_append, verdict_cons, decide_eq_true_eq]
  by_cases hlength : 20 ≤ bytes.length
  case neg => rw [if_pos (by omega), if_neg hlength]
  rw [if_neg (by omega), if_pos hlength]
  by_cases hv : version bytes = 4
  case neg =>
    rw [if_pos hv, if_neg hv, ← version_eq, Nat.toUInt8_eq, UInt8.ofNat_toNat]
  rw [if_neg (not_not.mpr hv), if_pos hv]
  by_cases hheader : 20 ≤ headerLength bytes ∧ headerLength bytes ≤ bytes.length
  case neg => rw [if_pos (by omega), if_neg hheader]
  rw [if_neg (by omega), if_pos hheader]
  by_cases hfits : headerLength bytes ≤ totalLength bytes ∧ totalLength bytes ≤ bytes.length
  case neg => rw [if_pos (by omega), if_neg hfits]
  rw [if_neg (by omega), if_pos hfits]
  by_cases hwhole : moreFragments bytes = 0 ∧ fragmentOffset bytes = 0
  case neg => rw [if_pos hwhole, if_neg hwhole]
  rw [if_neg (not_not.mpr hwhole), if_pos hwhole]
  have hsegment : (slice bytes (headerLength bytes) (totalLength bytes)).length =
      segmentLength bytes := by
    rw [slice, List.length_take, List.length_drop, segmentLength]
    omega
  have hspan : payloadSpan bytes = ⟨headerLength bytes + (segmentSpan bytes).start,
      headerLength bytes + (segmentSpan bytes).stop⟩ := by
    unfold payloadSpan segmentSpan
    by_cases htcp : protocol bytes = 6
    · simp only [if_pos htcp, segmentLength, Nat.add_sub_cancel' hfits.1]
    · simp only [if_neg htcp]
  rw [show slice bytes (headerLength bytes) (totalLength bytes) = segment bytes from rfl,
    parseTransport_segment hsegment]
  unfold verdict
  cases refusal? (transportDemands bytes) with
  | none => rw [hspan]
  | some e => rfl

/-- Something is read only where no demand is refused. -/
theorem verdict_eq_ok {α : Type} {ds : List Demand} {read r : α} :
    verdict ds read = .ok r ↔ refusal? ds = none ∧ read = r := by
  unfold verdict
  cases refusal? ds <;> simp

/-- An error names a demand that is refused. -/
theorem verdict_eq_error {α : Type} {ds : List Demand} {read : α} {e : Malformed} :
    verdict ds read = .error e ↔ refusal? ds = some e := by
  unfold verdict
  cases refusal? ds <;> simp

/-- What is read of a packet, where it is one. -/
theorem parse_eq_ok_iff {bytes : List UInt8} {r : Headers × Span} :
    Headers.parse bytes = .ok r ↔
      Acceptable bytes ∧ (⟨Ipv4.ofBytes bytes, transport bytes⟩, payloadSpan bytes) = r := by
  rw [parse_eq, verdict_eq_ok, refusal?_demands_eq_none]

/-! ## Locality -/

section

variable {bytes bytes' : List UInt8} {n : Nat}

/-- Bytes in front of the end of a common front are the same. -/
theorem byteAt_of_take_eq (h : bytes'.take n = bytes.take n) {i : Nat} (hi : i < n) :
    byteAt bytes' i = byteAt bytes i := by
  have hget := congrArg (·[i]?) h
  simp only [List.getElem?_take_of_lt hi] at hget
  simp only [byteAt, List.getD_eq_getElem?_getD, hget]

/-- Slices of a common front are the same. -/
theorem slice_of_take_eq (h : bytes'.take n = bytes.take n) (start : Nat) {stop : Nat}
    (hstop : stop ≤ n) : slice bytes' start stop = slice bytes start stop := by
  have htake : bytes'.take stop = bytes.take stop := by
    rw [← Nat.min_eq_left hstop, ← List.take_take, h, List.take_take]
  rw [slice, slice, ← List.drop_take, htake, List.drop_take]

/-- **Locality**: nothing past the total length of a packet is looked at. -/
theorem parse_eq_of_take_eq (h : Acceptable bytes)
    (htake : bytes'.take (totalLength bytes) = bytes.take (totalLength bytes)) :
    Headers.parse bytes' = Headers.parse bytes := by
  have hheader := h.header
  have htotal := h.total
  have hmore : totalLength bytes ≤ bytes'.length := by
    have hlength := congrArg List.length htake
    rw [List.length_take, List.length_take] at hlength
    omega
  have hnetwork : Ipv4.ofBytes bytes' = Ipv4.ofBytes bytes := by
    simp only [Ipv4.ofBytes, Ipv4.addressAt, word16At]
    simp (disch := omega) only [byteAt_of_take_eq htake]
  have hat : Ipv4.lengthAt bytes' = Ipv4.lengthAt bytes := by
    rw [Ipv4.lengthAt, Ipv4.lengthAt, byteAt_of_take_eq htake (by omega)]
  have hstated : (Ipv4.ofBytes bytes).totalLength.toNat = totalLength bytes :=
    toNat_word16At bytes 2
  -- The length of the buffer is only compared with lengths that are inside of both buffers.
  have hshort : ¬ bytes'.length < Ipv4.headerLength ∧ ¬ bytes.length < Ipv4.headerLength := by
    rw [Ipv4.headerLength]
    omega
  have hcover (k : Nat) (hk : k ≤ totalLength bytes) :
      ¬ k > bytes'.length ∧ ¬ k > bytes.length := by
    omega
  unfold Headers.parse
  simp only [hnetwork, hat, lengthAt_eq, hstated, slice_of_take_eq htake _ (Nat.le_refl _), hshort,
    hcover _ htotal.1, hcover _ (Nat.le_refl _)]

end

end Format

namespace Datagram

open Format

variable {buffer buffer' : List UInt8} {d : Datagram}

/-! ## Ranges -/

/-- Every stretch of the buffer that is used lies inside of it: the payload and the bytes of the
packet, the addresses, which are in the IPv4 header, and the ports, which are in the transport
header behind it. -/
structure InRange (d : Datagram) : Prop where
  payload : d.span.start ≤ d.span.stop ∧ d.span.stop ≤ d.length
  bytes : d.length ≤ d.buffer.length
  addresses : Ipv4.headerLength ≤ Ipv4.lengthAt d.buffer
  ports : Ipv4.lengthAt d.buffer + d.headers.transport.headerLength ≤ d.length

/-- The payload is as long as its place in the buffer. -/
theorem InRange.length_payload (h : d.InRange) :
    d.payload.length = d.span.stop - d.span.start := by
  have hpayload := h.payload
  have hbytes := h.bytes
  rw [Datagram.payload, slice, List.length_take, List.length_drop]
  omega

theorem InRange.length_bytes (h : d.InRange) : d.bytes.length = d.length := by
  rw [Datagram.bytes, List.length_take, Nat.min_eq_left h.bytes]

/-- Swapping two fields changes no length. -/
theorem length_swapFields {bytes : List UInt8} {offset width : Nat}
    (h : offset + 2 * width ≤ bytes.length) :
    (swapFields bytes offset width).length = bytes.length := by
  apply length_overwrite
  simp only [slice, List.length_append, List.length_take, List.length_drop]
  omega

/-- Addresses and ports are exchanged without a byte more or less. -/
theorem InRange.length_swap (h : d.InRange) : d.swap.buffer.length = d.buffer.length := by
  have hbytes := h.bytes
  have haddresses := h.addresses
  have hports := h.ports
  have hheader : 4 ≤ d.headers.transport.headerLength := by
    cases d.headers.transport <;> simp [Transport.headerLength, Tcp.headerLength, Udp.headerLength]
  rw [Ipv4.headerLength] at haddresses
  have haddressed : (swapFields d.buffer 12 4).length = d.buffer.length :=
    length_swapFields (by omega)
  simp only [swap]
  rw [length_swapFields (by omega), haddressed]

/-! ## Acceptance -/

/-- What is parsed is what the headers say, over the buffer as it is. -/
theorem parse_eq_ok_iff :
    parse buffer = .ok d ↔ Headers.parse buffer = .ok (d.headers, d.span) ∧ d.buffer = buffer := by
  unfold parse
  cases Headers.parse buffer with
  | error e => simp [Except.map]
  | ok r =>
      obtain ⟨h, span⟩ := r
      obtain ⟨buffer', h', span'⟩ := d
      simp only [Except.map, Except.ok.injEq, Datagram.mk.injEq, Prod.mk.injEq]
      constructor
      · rintro ⟨rfl, rfl, rfl⟩
        exact ⟨⟨rfl, rfl⟩, rfl⟩
      · rintro ⟨⟨rfl, rfl⟩, rfl⟩
        exact ⟨rfl, rfl, rfl⟩

/-- The length of a parsed datagram is the total length of its header. -/
theorem length_of_parse (h : parse buffer = .ok d) : d.length = totalLength buffer := by
  obtain ⟨-, hread⟩ := Format.parse_eq_ok_iff.mp (parse_eq_ok_iff.mp h).1
  injection hread with hheaders
  rw [length, ← hheaders]
  exact toNat_word16At buffer 2

/-- All places of a parsed datagram are in its buffer. -/
theorem inRange_of_parse (h : parse buffer = .ok d) : d.InRange := by
  have hlength := length_of_parse h
  obtain ⟨hread, rfl⟩ := parse_eq_ok_iff.mp h
  obtain ⟨-, hstart, hstop, hfits⟩ := Headers.parse_ok hread
  obtain ⟨hacceptable, hread⟩ := Format.parse_eq_ok_iff.mp hread
  injection hread with hheaders
  refine ⟨⟨hstart, hstop⟩, hfits, ?_, ?_⟩
  · rw [lengthAt_eq]
    exact hacceptable.header.1
  · rw [lengthAt_eq, hlength, ← hheaders]
    have htotal := hacceptable.total
    cases hacceptable.transport with
    | inl htcp =>
        obtain ⟨hprotocol, hleast, -⟩ := htcp
        rw [segmentLength] at hleast
        simp only [transport, hprotocol, if_true, Transport.headerLength, Tcp.headerLength]
        omega
    | inr hudp =>
        obtain ⟨hprotocol, hleast, -⟩ := hudp
        rw [segmentLength] at hleast
        simp only [transport, hprotocol, Transport.headerLength]
        rw [if_neg (by omega)]
        simp only [Udp.headerLength]
        omega

/-- A buffer with the same packet at its front is read as the same packet. -/
theorem parse_of_take_eq (h : parse buffer = .ok d)
    (htake : buffer'.take d.length = buffer.take d.length) :
    Headers.parse buffer' = Headers.parse buffer ∧
      ∃ d', parse buffer' = .ok d' ∧ d'.payload = d.payload ∧ d'.bytes = d.bytes := by
  have hlength := length_of_parse h
  have hrange := inRange_of_parse h
  obtain ⟨hread, rfl⟩ := parse_eq_ok_iff.mp h
  obtain ⟨hacceptable, -⟩ := Format.parse_eq_ok_iff.mp hread
  have hsame : Headers.parse buffer' = Headers.parse d.buffer :=
    parse_eq_of_take_eq hacceptable (hlength ▸ htake)
  refine ⟨hsame, { d with buffer := buffer' }, parse_eq_ok_iff.mpr ⟨hsame.trans hread, rfl⟩, ?_,
    htake⟩
  exact slice_of_take_eq htake _ hrange.payload.2

/-- **Acceptance**: bytes are read as a packet exactly where they are acceptable, and are otherwise
refused for the first demand that they do not meet.  The payload of a packet that is read lies
behind its transport header and inside its total length, every stretch of the buffer that is used
later lies inside of it, and what stands past the total length does not matter. -/
theorem acceptance :
    (∀ bytes, (∃ r, Headers.parse bytes = .ok r) ↔ Acceptable bytes) ∧
    (∀ bytes e, Headers.parse bytes = .error e ↔ refusal? (demands bytes) = some e) ∧
    ∀ buffer d, parse buffer = .ok d →
      d.length = totalLength buffer ∧ d.span = payloadSpan buffer ∧
        d.InRange ∧ d.payload.length = d.span.stop - d.span.start ∧ d.bytes.length = d.length ∧
        d.swap.buffer.length = buffer.length ∧
        ∀ buffer', buffer'.take d.length = buffer.take d.length →
          Headers.parse buffer' = Headers.parse buffer ∧
            ∃ d', parse buffer' = .ok d' ∧ d'.payload = d.payload ∧ d'.bytes = d.bytes := by
  refine ⟨fun bytes => ?_, fun bytes e => ?_, fun buffer d hparse => ?_⟩
  · simp only [Format.parse_eq_ok_iff, exists_and_left, exists_eq', and_true]
  · rw [parse_eq, verdict_eq_error]
  · have hrange := inRange_of_parse hparse
    obtain ⟨hread, hbuffer⟩ := parse_eq_ok_iff.mp hparse
    obtain ⟨-, hread⟩ := Format.parse_eq_ok_iff.mp hread
    injection hread with _ hspan
    exact ⟨length_of_parse hparse, hspan.symm, hrange, hrange.length_payload, hrange.length_bytes,
      hbuffer ▸ hrange.length_swap, fun buffer' => parse_of_take_eq hparse⟩

/-- With other bytes behind it, a segment with options is the same packet. -/
theorem acceptance_of_options :
    ∃ d d', parse optioned = .ok d ∧ d.length = 50 ∧ d.span = ⟨48, 50⟩ ∧ d.InRange ∧
      parse (optioned.take 50 ++ List.replicate 100 7) = .ok d' ∧ d'.payload = d.payload := by
  obtain ⟨d, hparse, hlength⟩ : ∃ d, parse optioned = .ok d ∧ d.length = 50 := ⟨_, rfl, by decide⟩
  obtain ⟨-, hspan, hrange, -, -, -, hlocal⟩ := acceptance.2.2 optioned d hparse
  obtain ⟨-, d', hparse', hpayload, -⟩ := hlocal (optioned.take 50 ++ List.replicate 100 7)
    (by rw [hlength]; decide)
  exact ⟨d, d', hparse, hlength, hspan.trans (by decide), hrange, hparse', hpayload⟩

end Datagram

end FlowRelay.Packet
