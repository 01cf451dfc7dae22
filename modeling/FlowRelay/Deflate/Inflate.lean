import FlowRelay.Deflate.Huffman

/-!
# FlowRelay.Deflate.Inflate

Decompression of a DEFLATE stream: stored blocks, blocks with the fixed codes and blocks that bring
their own codes.  A copy reaches back at most 32768 bytes; the window in front of the first byte is
all zeros.

`inflate?` returns the decompressed bytes with the bytes that follow the stream.  It fails on an
invalid block type or length, an invalid set of code lengths, a code word without a meaning, and at
the end of the input.
-/

namespace FlowRelay.Deflate

/-! ## Lengths and distances -/

/-- Base value and number of extra bits of each length symbol from 257 on. -/
def lengthTable : Array (Nat × Nat) :=
  #[(3, 0), (4, 0), (5, 0), (6, 0), (7, 0), (8, 0), (9, 0), (10, 0), (11, 1), (13, 1), (15, 1),
    (17, 1), (19, 2), (23, 2), (27, 2), (31, 2), (35, 3), (43, 3), (51, 3), (59, 3), (67, 4),
    (83, 4), (99, 4), (115, 4), (131, 5), (163, 5), (195, 5), (227, 5), (258, 0)]

/-- Base value and number of extra bits of each distance symbol. -/
def distanceTable : Array (Nat × Nat) :=
  #[(1, 0), (2, 0), (3, 0), (4, 0), (5, 1), (7, 1), (9, 2), (13, 2), (17, 3), (25, 3), (33, 4),
    (49, 4), (65, 5), (97, 5), (129, 6), (193, 6), (257, 7), (385, 7), (513, 8), (769, 8),
    (1025, 9), (1537, 9), (2049, 10), (3073, 10), (4097, 11), (6145, 11), (8193, 12), (12289, 12),
    (16385, 13), (24577, 13)]

/-- Read the value that a symbol of a table stands for, with its extra bits. -/
def tableValue? (table : Array (Nat × Nat)) (symbol : Nat) (s : Bits) : Option (Nat × Bits) :=
  match table[symbol]? with
  | none => none
  | some (base, extra) => (s.field? extra).map fun (more, s) => (base + more, s)

/-- Append `count` bytes, each one from `distance` bytes before the end of what is there then. -/
def copyBack (out : Array UInt8) (distance : Nat) : Nat → Array UInt8
  | 0 => out
  | count + 1 =>
    let b := if distance ≤ out.size then out.getD (out.size - distance) 0 else 0
    copyBack (out.push b) distance count

/-! ## Blocks -/

/-- The codes of literals and lengths, and of distances. -/
structure Codes where
  literals : Huffman
  distances : Huffman

/-- Decode the symbols of a block up to its end-of-block symbol.  Each symbol takes at least one
bit, so the number of bits is enough fuel. -/
def symbols? (codes : Codes) : Nat → Array UInt8 → Bits → Option (Array UInt8 × Bits)
  | 0, _, _ => none
  | fuel + 1, out, s =>
    match codes.literals.decode? s with
    | none => none
    | some (symbol, s) =>
      if symbol < 256 then symbols? codes fuel (out.push symbol.toUInt8) s
      else if symbol = 256 then some (out, s)
      else
        match tableValue? lengthTable (symbol - 257) s with
        | none => none
        | some (length, s) =>
          match codes.distances.decode? s with
          | none => none
          | some (symbol, s) =>
            match tableValue? distanceTable symbol s with
            | none => none
            | some (distance, s) => symbols? codes fuel (copyBack out distance length) s

/-- The fixed codes. -/
def fixedCodes? : Option Codes := do
  let literals ← Huffman.ofLengths? true
    (List.replicate 144 8 ++ List.replicate 112 9 ++ List.replicate 24 7 ++ List.replicate 8 8)
  let distances ← Huffman.ofLengths? true (List.replicate 32 5)
  return ⟨literals, distances⟩

/-- The order in which a block lists the word lengths of the code for code lengths. -/
def codeLengthOrder : List Nat :=
  [16, 17, 18, 0, 8, 7, 9, 6, 10, 5, 11, 4, 12, 3, 13, 2, 14, 1, 15]

/-- Read `count` fields of three bits. -/
def smallFields? : Nat → Bits → Option (List Nat × Bits)
  | 0, s => some ([], s)
  | count + 1, s =>
    match s.field? 3 with
    | none => none
    | some (value, s) => (smallFields? count s).map fun (values, s) => (value :: values, s)

/-- Read `wanted` code lengths, found ones newest first in `found`.  Symbols 16, 17 and 18 repeat
the last length or zero; a repetition may not go past the wanted number. -/
def codeLengths? (code : Huffman) : Nat → Nat → List Nat → Bits → Option (List Nat × Bits)
  | 0, _, _, _ => none
  | fuel + 1, wanted, found, s =>
    if wanted = 0 then some (found.reverse, s)
    else
      match code.decode? s with
      | none => none
      | some (symbol, s) =>
        if symbol < 16 then codeLengths? code fuel (wanted - 1) (symbol :: found) s
        else
          let repeated? : Option (Nat × Nat × Bits) :=
            if symbol = 16 then
              match found with
              | [] => none
              | last :: _ => (s.field? 2).map fun (more, s) => (last, 3 + more, s)
            else if symbol = 17 then (s.field? 3).map fun (more, s) => (0, 3 + more, s)
            else (s.field? 7).map fun (more, s) => (0, 11 + more, s)
          match repeated? with
          | none => none
          | some (length, times, s) =>
            if times ≤ wanted then
              codeLengths? code fuel (wanted - times) (List.replicate times length ++ found) s
            else none

/-- Read the codes that a block brings along. -/
def dynamicCodes? (s : Bits) : Option (Codes × Bits) := do
  let (literals, s) ← s.field? 5
  let (distances, s) ← s.field? 5
  let (lengths, s) ← s.field? 4
  let literals := literals + 257
  let distances := distances + 1
  if literals ≤ 286 ∧ distances ≤ 30 then
    let (small, s) ← smallFields? (lengths + 4) s
    let sizeOf (symbol : Nat) : Nat :=
      ((codeLengthOrder.zip small).lookup symbol).getD 0
    let code ← Huffman.ofLengths? false ((List.range 19).map sizeOf)
    let wanted := literals + distances
    let (found, s) ← codeLengths? code (wanted + 1) wanted [] s
    let literalCode ← Huffman.ofLengths? true (found.take literals)
    let distanceCode ← Huffman.ofLengths? true (found.drop literals)
    return (⟨literalCode, distanceCode⟩, s)
  else none

/-- Copy a stored block: its length, the complement of its length, then its bytes. -/
def stored? (out : Array UInt8) (s : Bits) : Option (Array UInt8 × Bits) :=
  match s.alignedBytes with
  | l0 :: l1 :: n0 :: n1 :: rest =>
    let length := l0.toNat + 256 * l1.toNat
    let data := rest.take length
    if n0 = ~~~l0 ∧ n1 = ~~~l1 ∧ data.length = length then
      some (out ++ data, Bits.ofBytes (rest.drop length))
    else none
  | _ => none

/-- Decode blocks up to the final one.  Each block takes at least one bit. -/
def blocks? (fuel : Nat) : Nat → Array UInt8 → Bits → Option (Array UInt8 × Bits)
  | 0, _, _ => none
  | count + 1, out, s =>
    match s.field? 1 with
    | none => none
    | some (final, s) =>
      match s.field? 2 with
      | none => none
      | some (kind, s) =>
        let result :=
          if kind = 0 then stored? out s
          else if kind = 1 then fixedCodes?.bind (symbols? · fuel out s)
          else if kind = 2 then (dynamicCodes? s).bind fun (codes, s) => symbols? codes fuel out s
          else none
        match result with
        | none => none
        | some (out, s) => if final = 1 then some (out, s) else blocks? fuel count out s

/-- Decompress a stream, returning its bytes and the bytes behind it. -/
def inflate? (bytes : List UInt8) : Option (List UInt8 × List UInt8) :=
  let fuel := 8 * bytes.length + 1
  (blocks? fuel fuel #[] (Bits.ofBytes bytes)).map fun (out, s) => (out.toList, s.alignedBytes)

end FlowRelay.Deflate
