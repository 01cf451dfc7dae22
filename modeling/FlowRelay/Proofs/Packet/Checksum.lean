import FlowRelay.Packet.Datagram

/-!
# FlowRelay.Proofs.Packet.Checksum

The checksums that are written verify.

1. *Sums* (`wordSum_append`): bytes that stand next to each other are summed apart, as long as the
   first of them make up whole words.
2. *Checksums* (`verifies_checksumOf`): a sum and its checksum verify.
3. *Headers* (`Ipv4.verifies_bytes`, `Tcp.verifies_bytes`, `Udp.verifies_bytes`): so each header
   verifies with the checksum that is written into it.
-/

namespace FlowRelay.Packet

open Bytes

/-! ## Sums -/

theorem wordSum.go_eq_add : (sum : Nat) → (bytes : List UInt8) → go sum bytes = sum + wordSum bytes
  | sum, [] => by simp [wordSum, go]
  | sum, [hi] => by simp [wordSum, go]
  | sum, hi :: lo :: rest => by
      rw [wordSum, go, go, go_eq_add (sum + _) rest, go_eq_add (0 + _) rest]
      omega

@[simp] theorem wordSum_nil : wordSum [] = 0 := rfl

@[simp] theorem wordSum_cons_cons (hi lo : UInt8) (rest : List UInt8) :
    wordSum (hi :: lo :: rest) = hi.toNat * 256 + lo.toNat + wordSum rest := by
  rw [wordSum, wordSum.go, wordSum.go_eq_add, Nat.zero_add]

/-- Whole words in front are summed apart from what is behind them. -/
theorem wordSum_append : (xs ys : List UInt8) → xs.length % 2 = 0 →
    wordSum (xs ++ ys) = wordSum xs + wordSum ys
  | [], ys, _ => by simp
  | [_], _, h => by simp at h
  | hi :: lo :: rest, ys, h => by
      have hrest := wordSum_append rest ys (by simp only [List.length_cons] at h; omega)
      simp only [List.cons_append, wordSum_cons_cons, hrest, Nat.add_assoc]

/-- The two bytes of a word are summed as the word. -/
theorem wordSum_split16 (w : UInt16) : wordSum (split16 w) = w.toNat := by
  have hw := w.toNat_lt
  simp only [split16, wordSum_cons_cons, wordSum_nil, UInt16.toNat_toUInt8, UInt16.toNat_shiftRight,
    UInt16.reduceToNat, Nat.reduceMod, Nat.shiftRight_eq_div_pow]
  omega

/-- A word at an even offset counts as much as it is. -/
theorem wordSum_field {xs : List UInt8} (h : xs.length % 2 = 0) (w : UInt16) (ys : List UInt8) :
    wordSum (xs ++ split16 w ++ ys) = wordSum (xs ++ split16 0 ++ ys) + w.toNat := by
  simp only [List.append_assoc, wordSum_append xs _ h, wordSum_append (split16 _) ys (by simp),
    wordSum_split16, UInt16.toNat_zero]
  omega

/-! ## Checksums -/

theorem toNat_checksumOf (sum : Nat) : (checksumOf sum).toNat = 65535 - foldCarries sum := by
  simp only [checksumOf, Nat.toUInt16_eq, UInt16.toNat_ofNat']
  omega

/-- A sum and the checksum that it asks for verify. -/
theorem verifies_checksumOf (sum : Nat) : Verifies (sum + (checksumOf sum).toNat) := by
  rw [Verifies, toNat_checksumOf]
  unfold foldCarries
  by_cases hzero : sum = 0
  · simp [hzero]
  · rw [if_neg hzero, if_neg (by omega)]
    omega

/-! ## Headers -/

theorem Ipv4.verifies_bytes (h : Ipv4) (length : UInt16) : Verifies (wordSum (h.bytes length)) := by
  have hfield (checksum : UInt16) : wordSum (h.bytesWith length checksum) =
      wordSum (h.bytesWith length 0) + checksum.toNat := by
    simp only [bytesWith]
    rw [List.append_assoc (_ ++ split16 checksum), List.append_assoc (_ ++ split16 0)]
    exact wordSum_field (by simp) checksum _
  rw [bytes, hfield]
  exact verifies_checksumOf _

/-- The checksum of a segment covers its addresses, its header and its payload. -/
theorem Tcp.verifies_bytes (h : Tcp) (source destination : Net.Address) (payload : List UInt8) :
    Verifies (pseudoSum source destination Protocol.tcp.number (headerLength + payload.length) +
      wordSum (h.bytes source destination payload ++ payload)) := by
  have hfield (checksum : UInt16) : wordSum (h.bytesWith checksum) =
      wordSum (h.bytesWith 0) + checksum.toNat := wordSum_field (by simp) checksum _
  have hlength (checksum : UInt16) : (h.bytesWith checksum).length % 2 = 0 := by simp [bytesWith]
  rw [bytes, wordSum_append _ _ (hlength _), hfield, ← Nat.add_assoc, ← Nat.add_assoc,
    Nat.add_right_comm]
  exact verifies_checksumOf _

/-- The checksum of a datagram covers its addresses, its header and its payload. -/
theorem Udp.verifies_bytes (h : Udp) (source destination : Net.Address) (payload : List UInt8) :
    Verifies (pseudoSum source destination Protocol.udp.number (headerLength + payload.length) +
      wordSum (h.bytes source destination payload ++ payload)) := by
  have hfield (length checksum : UInt16) : wordSum (h.bytesWith length checksum) =
      wordSum (h.bytesWith length 0) + checksum.toNat := by
    rw [← List.append_nil (h.bytesWith length checksum), ← List.append_nil (h.bytesWith length 0)]
    exact wordSum_field (by simp) checksum []
  have hlength (length checksum : UInt16) : (h.bytesWith length checksum).length % 2 = 0 := by
    simp [bytesWith]
  rw [bytes, wordSum_append _ _ (hlength _ _), hfield, ← Nat.add_assoc, ← Nat.add_assoc,
    Nat.add_right_comm]
  exact verifies_checksumOf _

end FlowRelay.Packet
