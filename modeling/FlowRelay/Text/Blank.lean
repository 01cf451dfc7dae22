/-!
# FlowRelay.Text.Blank

Blank characters, and trimming them from both ends of a text.  The table is the Unicode property
`White_Space`.
-/

namespace FlowRelay.Text

/-- The characters with the Unicode property `White_Space`. -/
def isBlank (c : Char) : Bool :=
  let n := c.toNat
  (0x09 ≤ n && n ≤ 0x0D) || n == 0x20 || n == 0x85 || n == 0xA0 || n == 0x1680 ||
    (0x2000 ≤ n && n ≤ 0x200A) || n == 0x2028 || n == 0x2029 || n == 0x202F || n == 0x205F ||
    n == 0x3000

/-- The text without the blanks at its two ends. -/
def trim (text : List Char) : List Char :=
  ((text.dropWhile isBlank).reverse.dropWhile isBlank).reverse

/-- Split at every occurrence of a separator; a text without it is one piece. -/
def splitOn.go (separator : Char) (piece : List Char) : List Char → List (List Char)
  | [] => [piece.reverse]
  | c :: rest =>
    if c = separator then piece.reverse :: go separator [] rest
    else go separator (c :: piece) rest

/-- The pieces between the separators, one more than there are separators. -/
def splitOn (separator : Char) (text : List Char) : List (List Char) :=
  splitOn.go separator [] text

/-- Letters `A` to `Z` as small letters, everything else as it is. -/
def lowerAscii (text : List Char) : List Char := text.map Char.toLower

example : isBlank '\x0b' = true ∧ isBlank '\u00a0' = true ∧ isBlank '\u200b' = false := by decide

example : trim " a b\t".toList = "a b".toList := by decide

example : splitOn ',' "a,,b".toList = ["a".toList, [], "b".toList] := by decide

end FlowRelay.Text
