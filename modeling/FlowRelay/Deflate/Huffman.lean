import FlowRelay.Deflate.Bits

/-!
# FlowRelay.Deflate.Huffman

Canonical Huffman codes given by the lengths of their code words: shorter words come first, words of
one length are numbered upwards in the order of their symbols.

A set of lengths is a code if its words fill the code space exactly.  An alphabet of which no symbol
or only one is used cannot fill it; such a set is accepted where the format lets an alphabet go
unused.
-/

namespace FlowRelay.Deflate

/-- The longest code word of the format. -/
def maxCodeLength : Nat := 15

/-- A canonical code: how many words there are of each length from 1 on, and the symbols in the
order of their words. -/
structure Huffman where
  counts : List Nat
  symbols : Array Nat

namespace Huffman

/-- The lengths that code words may have, shortest first. -/
def wordLengths : List Nat := (List.range maxCodeLength).map (· + 1)

/-- The symbols that have a code word of the given length, in ascending order. -/
def symbolsOfLength (lengths : List Nat) (length : Nat) : List Nat :=
  lengths.zipIdx.filterMap fun (l, symbol) => if l = length then some symbol else none

/-- The share of the code space that the words take, in words of the greatest length. -/
def space (lengths : List Nat) : Nat :=
  lengths.foldl (fun sum l => if l = 0 then sum else sum + (1 <<< (maxCodeLength - l))) 0

/-- The number of symbols with a code word. -/
def usedSymbols (lengths : List Nat) : Nat := lengths.countP (· ≠ 0)

/-- The code with the given word lengths, 0 for a symbol without a word.  `mayBeSparse` admits an
alphabet with at most one used symbol. -/
def ofLengths? (mayBeSparse : Bool) (lengths : List Nat) : Option Huffman :=
  let groups := wordLengths.map (symbolsOfLength lengths)
  if space lengths = 1 <<< maxCodeLength ∨ (mayBeSparse ∧ usedSymbols lengths ≤ 1) then
    some ⟨groups.map List.length, groups.flatten.toArray⟩
  else none

/-- Walk down the word lengths.  `word` holds the bits read so far, `first` the least word of the
current length and `index` the place of its symbol. -/
def decode?.go (symbols : Array Nat) (word first index : Nat) :
    List Nat → Bits → Option (Nat × Bits)
  | [], _ => none
  | count :: counts, s =>
    match s.bit? with
    | none => none
    | some (bit, s) =>
      let word := 2 * word + bit
      if word < first + count then
        (symbols[index + (word - first)]?).map (·, s)
      else go symbols word (2 * (first + count)) (index + count) counts s

/-- Read one code word and return its symbol. -/
def decode? (code : Huffman) (s : Bits) : Option (Nat × Bits) :=
  decode?.go code.symbols 0 0 0 code.counts s

end Huffman

end FlowRelay.Deflate
