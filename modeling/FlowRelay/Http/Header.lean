import FlowRelay.Text.Blank
import FlowRelay.Text.Numeral
import FlowRelay.Text.Utf8

/-!
# FlowRelay.Http.Header

What a header section says about the framing of its message: whether the body is chunked, its
length, and whether it is compressed with gzip.

Names, values and codings are compared without regard to ASCII case and to blanks around them.
Header lines without a colon and lines of other names say nothing.  Of several lengths the last one
counts, but each of them has to be a number.
-/

namespace FlowRelay.Http

/-- The largest number that a length or a chunk size may state. -/
def maxNumber : Nat := Text.maxOfBits 64

/-- What a header section says about the framing of its message. -/
structure Header where
  chunked : Bool
  contentLength : Option Nat
  gzip : Bool
  deriving DecidableEq, Repr

namespace Header

/-- A header section that says nothing. -/
def empty : Header := ⟨false, none, false⟩

/-! ## Lines and fields -/

/-- Split at each CR LF, the line read so far coming newest first. -/
def lines.go (line : List Char) : List Char → List (List Char)
  | [] => [line.reverse]
  | '\r' :: '\n' :: rest => line.reverse :: go [] rest
  | c :: rest => go (c :: line) rest

/-- The lines of a text, which CR LF separates. -/
def lines (text : List Char) : List (List Char) := lines.go [] text

/-- The normal form of a name, a value or a coding. -/
def normal (text : List Char) : List Char := Text.lowerAscii (Text.trim text)

/-- Name and value of a header line, both in normal form; a line without a colon has none. -/
def field? (line : List Char) : Option (List Char × List Char) :=
  match line.span (· ≠ ':') with
  | (name, _ :: value) => some (normal name, normal value)
  | (_, []) => none

/-- Whether a comma-separated value lists the coding. -/
def lists (coding : String) (value : List Char) : Bool :=
  (Text.splitOn ',' value).any fun c => Text.trim c == coding.toList

/-! ## Interpretation -/

/-- Take one field into account.  Only a length that is no number is refused. -/
def add (header : Header) (name value : List Char) : Option Header :=
  if name = "transfer-encoding".toList then
    some { header with chunked := header.chunked || lists "chunked" value }
  else if name = "content-length".toList then
    match Text.readNumeral 10 maxNumber value with
    | .ok n => some { header with contentLength := some n }
    | .error _ => none
  else if name = "content-encoding".toList then
    some { header with gzip := header.gzip || lists "gzip" value }
  else some header

/-- Take one header line into account. -/
def addLine (header : Header) (line : List Char) : Option Header :=
  match field? line with
  | some (name, value) => header.add name value
  | none => some header

/-- Read a header section, whose first line is the start line of the message. -/
def ofSection? (bytes : List UInt8) : Option Header :=
  ((lines (Text.Utf8.decodeLossy bytes)).drop 1).foldlM addLine empty

end Header

end FlowRelay.Http
