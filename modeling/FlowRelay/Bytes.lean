/-!
# FlowRelay.Bytes

Byte-list plumbing: big-endian words, bytes at an offset, slices and overwriting a stretch of a
buffer.  Buffers are `List UInt8`; a reader past the end sees zeros, so every format checks its
lengths before it reads.

This module depends only on the Lean 4 core library.
-/

namespace FlowRelay.Bytes

/-! ## Big-endian words -/

/-- The 16-bit word with the given high and low byte. -/
def join16 (hi lo : UInt8) : UInt16 := hi.toUInt16 <<< 8 ||| lo.toUInt16

/-- The 32-bit word with the given bytes, most significant first. -/
def join32 (a b c d : UInt8) : UInt32 :=
  a.toUInt32 <<< 24 ||| b.toUInt32 <<< 16 ||| c.toUInt32 <<< 8 ||| d.toUInt32

/-- The two bytes of a 16-bit word, most significant first. -/
def split16 (w : UInt16) : List UInt8 := [(w >>> 8).toUInt8, w.toUInt8]

/-- The four bytes of a 32-bit word, most significant first. -/
def split32 (w : UInt32) : List UInt8 :=
  [(w >>> 24).toUInt8, (w >>> 16).toUInt8, (w >>> 8).toUInt8, w.toUInt8]

@[simp] theorem length_split16 (w : UInt16) : (split16 w).length = 2 := rfl

@[simp] theorem length_split32 (w : UInt32) : (split32 w).length = 4 := rfl

/-- A 16-bit word is made up of its bytes. -/
theorem join16_split (w : UInt16) : join16 (w >>> 8).toUInt8 w.toUInt8 = w := by
  have hw := w.toNat_lt
  apply UInt16.toNat_inj.mp
  simp only [join16, UInt16.toNat_or, UInt16.toNat_shiftLeft, UInt8.toNat_toUInt16,
    UInt16.toNat_toUInt8, UInt16.toNat_shiftRight, UInt16.reduceToNat, Nat.reduceMod,
    Nat.shiftRight_eq_div_pow]
  rw [Nat.mod_eq_of_lt (by rw [Nat.shiftLeft_eq]; omega),
    ← Nat.shiftLeft_add_eq_or_of_lt (by omega)]
  omega

/-- A 32-bit word is made up of its bytes. -/
theorem join32_split (w : UInt32) :
    join32 (w >>> 24).toUInt8 (w >>> 16).toUInt8 (w >>> 8).toUInt8 w.toUInt8 = w := by
  have hw := w.toNat_lt
  apply UInt32.toNat_inj.mp
  have hshift (n k : Nat) (h : n < 2 ^ 8) (hk : k ≤ 24) : n <<< k % 2 ^ 32 = n <<< k := by
    apply Nat.mod_eq_of_lt
    have := Nat.pow_le_pow_right (n := 2) (by decide) hk
    rw [Nat.shiftLeft_eq]
    calc n * 2 ^ k < 2 ^ 8 * 2 ^ k := Nat.mul_lt_mul_of_pos_right h (Nat.two_pow_pos k)
      _ ≤ 2 ^ 8 * 2 ^ 24 := Nat.mul_le_mul_left _ this
  simp only [join32, UInt32.toNat_or, UInt32.toNat_shiftLeft, UInt8.toNat_toUInt32,
    UInt32.toNat_toUInt8, UInt32.toNat_shiftRight, UInt32.reduceToNat, Nat.reduceMod,
    Nat.shiftRight_eq_div_pow, Nat.or_assoc]
  rw [hshift _ _ (by omega) (by omega), hshift _ _ (by omega) (by omega),
    hshift _ _ (by omega) (by omega), ← Nat.shiftLeft_add_eq_or_of_lt (i := 8) (by omega),
    ← Nat.shiftLeft_add_eq_or_of_lt (i := 16) (by omega),
    ← Nat.shiftLeft_add_eq_or_of_lt (i := 24) (by omega)]
  omega

/-! ## Reading at an offset -/

/-- The byte at an offset, 0 past the end. -/
def byteAt (bytes : List UInt8) (offset : Nat) : UInt8 := bytes.getD offset 0

/-- The big-endian 16-bit word at an offset. -/
def word16At (bytes : List UInt8) (offset : Nat) : UInt16 :=
  join16 (byteAt bytes offset) (byteAt bytes (offset + 1))

/-- The big-endian 32-bit word at an offset. -/
def word32At (bytes : List UInt8) (offset : Nat) : UInt32 :=
  join32 (byteAt bytes offset) (byteAt bytes (offset + 1)) (byteAt bytes (offset + 2))
    (byteAt bytes (offset + 3))

/-- The bytes from offset `start` up to, and without, offset `stop`. -/
def slice (bytes : List UInt8) (start stop : Nat) : List UInt8 :=
  (bytes.drop start).take (stop - start)

/-! ## Searching -/

/-- Look for a mark in bytes in front of which `offset` others stand. -/
def find?.go (mark : List UInt8) (offset : Nat) : List UInt8 → Option Nat
  | [] => none
  | b :: rest => if mark.isPrefixOf (b :: rest) then some offset else go mark (offset + 1) rest

/-- The offset at which a mark, which is not empty, occurs first. -/
def find? (mark bytes : List UInt8) : Option Nat := find?.go mark 0 bytes

theorem find?.go_eq_map (mark bytes : List UInt8) (offset : Nat) :
    go mark offset bytes = (find? mark bytes).map (· + offset) := by
  induction bytes generalizing offset with
  | nil => rfl
  | cons b rest ih =>
      by_cases h : mark.isPrefixOf (b :: rest)
      · simp [find?, go, h]
      · simp only [find?, go, h, Bool.false_eq_true, if_false]
        rw [ih (offset + 1), ih (0 + 1), Option.map_map]
        congr 1
        funext n
        simp only [Function.comp_apply]
        omega

@[simp] theorem find?_nil (mark : List UInt8) : find? mark [] = none := rfl

theorem find?_cons (mark : List UInt8) (b : UInt8) (rest : List UInt8) :
    find? mark (b :: rest) =
      if mark.isPrefixOf (b :: rest) then some 0 else (find? mark rest).map (· + 1) := by
  rw [find?, find?.go, find?.go_eq_map]

/-- A mark occurs as a whole. -/
theorem add_length_le_of_find? {mark bytes : List UInt8} {n : Nat}
    (h : find? mark bytes = some n) : n + mark.length ≤ bytes.length := by
  induction bytes generalizing n with
  | nil => simp at h
  | cons b rest ih =>
      rw [find?_cons] at h
      split at h
      · next hp =>
        simp only [Option.some.injEq] at h
        have := (List.isPrefixOf_iff_prefix.mp hp).length_le
        omega
      · obtain ⟨k, hk, rfl⟩ := Option.map_eq_some_iff.mp h
        have := ih hk
        simp only [List.length_cons]
        omega

/-- More bytes behind do not move the first occurrence of a mark. -/
theorem find?_append_of_some {mark bytes : List UInt8} {n : Nat} (h : find? mark bytes = some n)
    (more : List UInt8) : find? mark (bytes ++ more) = some n := by
  induction bytes generalizing n with
  | nil => simp at h
  | cons b rest ih =>
      rw [find?_cons] at h
      rw [List.cons_append, find?_cons, ← List.cons_append]
      split at h
      · next hp =>
          have hp' : mark <+: b :: rest ++ more :=
            (List.isPrefixOf_iff_prefix.mp hp).trans (List.prefix_append _ _)
          rw [if_pos (List.isPrefixOf_iff_prefix.mpr hp'), h]
      · next hp =>
          obtain ⟨k, hk, rfl⟩ := Option.map_eq_some_iff.mp h
          -- The mark fits into `rest`, so at the front it would end inside `b :: rest` as well.
          have hlen : mark.length ≤ (b :: rest).length := by
            have := add_length_le_of_find? hk
            simp only [List.length_cons]
            omega
          have hp' : ¬ mark <+: b :: rest ++ more := fun hpre =>
            hp (List.isPrefixOf_iff_prefix.mpr
              (List.prefix_of_prefix_length_le hpre (List.prefix_append _ _) hlen))
          rw [if_neg fun hpre => hp' (List.isPrefixOf_iff_prefix.mp hpre), ih hk]
          rfl

/-! ## Overwriting -/

/-- Replace the bytes from `offset` on by `data`, leaving everything else where it was.  A buffer
keeps its length as long as the data ends inside it. -/
def overwrite (buffer : List UInt8) (offset : Nat) (data : List UInt8) : List UInt8 :=
  buffer.take offset ++ data ++ buffer.drop (offset + data.length)

theorem length_overwrite {buffer : List UInt8} {offset : Nat} {data : List UInt8}
    (h : offset + data.length ≤ buffer.length) :
    (overwrite buffer offset data).length = buffer.length := by
  simp only [overwrite, List.length_append, List.length_take, List.length_drop]
  omega

/-- What was put into a buffer stands in front of what was behind it. -/
theorem drop_overwrite {buffer : List UInt8} {offset : Nat} {data : List UInt8}
    (h : offset + data.length ≤ buffer.length) :
    (overwrite buffer offset data).drop offset = data ++ buffer.drop (offset + data.length) := by
  have hfront : (buffer.take offset).length = offset := by
    rw [List.length_take]
    omega
  rw [overwrite, List.append_assoc, List.drop_left' hfront]

/-! ## Resizing -/

/-- Give a buffer another size: what does not fit is cut off, and what is missing is zeros. -/
def resize (buffer : List UInt8) (size : Nat) : List UInt8 :=
  buffer.take size ++ List.replicate (size - buffer.length) 0

@[simp] theorem length_resize (buffer : List UInt8) (size : Nat) :
    (resize buffer size).length = size := by
  simp only [resize, List.length_append, List.length_take, List.length_replicate]
  omega

end FlowRelay.Bytes
