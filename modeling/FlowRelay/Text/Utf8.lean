/-!
# FlowRelay.Text.Utf8

UTF-8 as a machine that takes one byte at a time.  Between characters it stands at the start; inside
one it remembers how many continuation bytes are owed and which values the next one may have, so
that overlong forms, surrogates and values past U+10FFFF are refused at the first byte that rules
them out.

A byte that cannot continue the character read so far ends an ill-formed stretch and is then read
as the first byte of the next character.  `decode?` refuses text with such a stretch, `decodeLossy`
puts one U+FFFD in the place of each.
-/

namespace FlowRelay.Text.Utf8

/-- A character of which `owed` bytes are still to come, the next one between `low` and `high`. -/
structure Pending where
  owed : Nat
  low : UInt8
  high : UInt8
  value : Nat

/-- What a byte amounts to at the start of a character. -/
inductive First where
  | done (c : Char)
  | more (pending : Pending)
  | illFormed

/-- Read the first byte of a character. -/
def first (b : UInt8) : First :=
  if b < 0x80 then .done (Char.ofNat b.toNat)
  else if b < 0xC2 then .illFormed
  else if b < 0xE0 then .more ⟨1, 0x80, 0xBF, b.toNat % 32⟩
  else if b == 0xE0 then .more ⟨2, 0xA0, 0xBF, 0⟩
  else if b == 0xED then .more ⟨2, 0x80, 0x9F, 13⟩
  else if b < 0xF0 then .more ⟨2, 0x80, 0xBF, b.toNat % 16⟩
  else if b == 0xF0 then .more ⟨3, 0x90, 0xBF, 0⟩
  else if b < 0xF4 then .more ⟨3, 0x80, 0xBF, b.toNat % 8⟩
  else if b == 0xF4 then .more ⟨3, 0x80, 0x8F, 4⟩
  else .illFormed

/-- Split bytes into characters and ill-formed stretches (`none`).  The pieces found so far come
newest first in `found`, which keeps the walk iterative. -/
def pieces.go (pending : Option Pending) (found : List (Option Char)) :
    List UInt8 → List (Option Char)
  | [] =>
    match pending with
    | none => found.reverse
    | some _ => (none :: found).reverse
  | b :: rest =>
    match pending with
    | some p =>
      if p.low ≤ b ∧ b ≤ p.high then
        let value := p.value * 64 + b.toNat % 64
        if p.owed ≤ 1 then go none (some (Char.ofNat value) :: found) rest
        else go (some ⟨p.owed - 1, 0x80, 0xBF, value⟩) found rest
      else
        match first b with
        | .done c => go none (some c :: none :: found) rest
        | .more p => go (some p) (none :: found) rest
        | .illFormed => go none (none :: none :: found) rest
    | none =>
      match first b with
      | .done c => go none (some c :: found) rest
      | .more p => go (some p) found rest
      | .illFormed => go none (none :: found) rest

/-- The characters of the bytes in order, `none` for each ill-formed stretch. -/
def pieces (bytes : List UInt8) : List (Option Char) := pieces.go none [] bytes

/-- The text of the bytes with U+FFFD in the place of each ill-formed stretch. -/
def decodeLossy (bytes : List UInt8) : List Char :=
  (pieces bytes).map (·.getD '\uFFFD')

/-- The text of well-formed bytes. -/
def decode? (bytes : List UInt8) : Option (List Char) :=
  let found := pieces bytes
  if found.all Option.isSome then some (found.filterMap id) else none

end FlowRelay.Text.Utf8
