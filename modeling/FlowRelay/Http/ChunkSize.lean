import FlowRelay.Http.Header

/-!
# FlowRelay.Http.ChunkSize

The line in front of a chunk: the size of the chunk in hexadecimal, perhaps with an extension behind
a semicolon, which is ignored.
-/

namespace FlowRelay.Http

/-- A line without the carriage return at its end. -/
def trimCr (line : List UInt8) : List UInt8 :=
  if line.getLast? = some 0x0D then line.dropLast else line

/-- The size that a chunk line states.  Outside the extension the line has to be well-formed text
with a number in it. -/
def chunkSize? (line : List UInt8) : Option Nat :=
  match Text.Utf8.decode? ((trimCr line).takeWhile (· ≠ 0x3B)) with
  | none => none
  | some text => (Text.readNumeral 16 maxNumber (Text.trim text)).toOption

end FlowRelay.Http
