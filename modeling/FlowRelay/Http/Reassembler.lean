import FlowRelay.Bytes
import FlowRelay.Gzip.Member
import FlowRelay.Http.ChunkSize

/-!
# FlowRelay.Http.Reassembler

Reassembling the message bodies of one direction of an HTTP/1.x stream.

The bytes at hand are scanned unit by unit: an empty line, a header section, a stretch of a body or
of a chunk, a line.  Bytes of an unfinished header section or line are held back and scanned again
together with the next piece of the stream.

1. A header section ends with an empty line.  Empty lines in front of it are skipped.
2. A body is chunked if the header says so, else it has the length that the header states, else
   there is none.
3. A complete body is delivered unless it is empty.  It is decompressed if the header says that it
   is compressed or if it looks like it; a body that does not decompress is delivered as it is.
4. Malformed framing discards everything, the bodies of the current piece included.
5. The size of a header section or a line is limited only while its end is not in sight.
-/

namespace FlowRelay.Http

/-! ## Limits and errors -/

/-- The most bytes of an unfinished header section, or of an unfinished trailer line. -/
def maxHeaderSize : Nat := 64 * 1024

/-- The most bytes of an unfinished chunk size line. -/
def maxLineSize : Nat := 1024

/-- The most bytes of a body. -/
def maxBodySize : Nat := 16 * 1024 * 1024

/-- What can be wrong with the framing of a stream. -/
inductive FramingError where
  | headerTooLarge
  | lineTooLong
  | trailerTooLarge
  | bodyTooLarge
  | invalidContentLength
  | invalidChunkSize
  deriving DecidableEq, Repr

namespace FramingError

/-- The wording of a framing error. -/
def message : FramingError → String
  | .headerTooLarge => "header too large"
  | .lineTooLong => "chunk size line too long"
  | .trailerTooLarge => "trailer too large"
  | .bodyTooLarge => "body too large"
  | .invalidContentLength => "invalid content length"
  | .invalidChunkSize => "invalid chunk size"

/-- Whether the error is that the end of a header section or of a line was not in sight when the
limit was reached. -/
def isOverrun : FramingError → Bool
  | .headerTooLarge | .lineTooLong | .trailerTooLarge => true
  | .bodyTooLarge | .invalidContentLength | .invalidChunkSize => false

end FramingError

/-! ## State -/

/-- What the next byte of the stream belongs to. -/
inductive Framing where
  /-- A header section. -/
  | headers
  /-- A body of stated length, of which so many bytes are to come. -/
  | fixed (left : Nat)
  /-- The line in front of a chunk. -/
  | chunkSize
  /-- A chunk, of which so many bytes are to come. -/
  | chunkData (left : Nat)
  /-- The line end behind a chunk, of which so many bytes are to come. -/
  | chunkEnd (left : Nat)
  /-- The trailer lines behind the last chunk. -/
  | trailers
  deriving DecidableEq, Repr

/-- How many units that take no byte may come next. -/
def Framing.slack : Framing → Nat
  | .headers | .chunkSize | .trailers => 0
  | .fixed _ | .chunkEnd _ => 1
  | .chunkData _ => 2

theorem Framing.slack_le (f : Framing) : f.slack ≤ 2 := by
  cases f <;> simp [slack]

/-- How far the current message has been read. -/
structure Message where
  framing : Framing
  /-- The body as far as it has arrived, newest byte first. -/
  body : List UInt8
  /-- Whether the header says that the body is compressed. -/
  gzip : Bool
  deriving DecidableEq, Repr

/-- A reassembler between two pieces of the stream. -/
structure Reassembler where
  message : Message
  /-- The bytes held back of an unfinished header section or line. -/
  held : List UInt8
  deriving DecidableEq, Repr

/-- The phases of a message as they show from outside. -/
inductive Phase where
  | awaitingHeaders
  | readingFixedBody
  | readingChunkedBody
  | readingTrailers
  deriving DecidableEq, Repr

/-- What the bytes at hand come to. -/
inductive Scan where
  /-- The unit at the front is not complete yet. -/
  | wait
  | refuse (e : FramingError)
  /-- A unit is taken off the front, which may complete a body; the rest is still to be read. -/
  | next (m : Message) (rest : List UInt8) (body? : Option (List UInt8))
  deriving DecidableEq, Repr

namespace Message

/-- In front of a header section. -/
def empty : Message := ⟨.headers, [], false⟩

/-! ## Bodies -/

/-- The body to deliver, if any, for the bytes that arrived. -/
def decoded (gzip : Bool) (body : List UInt8) : Option (List UInt8) :=
  if body.isEmpty then none
  else if gzip || Gzip.magic.isPrefixOf body then some ((Gzip.decompress? body).getD body)
  else some body

/-- End the message: back in front of a header section, with the body to deliver. -/
def finish (m : Message) (rest : List UInt8) : Scan :=
  .next empty rest (decoded m.gzip m.body.reverse)

/-! ## Where a unit ends -/

/-- The bytes of a line end. -/
def lineEnd : List UInt8 := [0x0D, 0x0A]

/-- The bytes that end a header section: a line end and an empty line. -/
def headerEnd : List UInt8 := lineEnd ++ lineEnd

/-- Take what stands in front of a mark, and go on with it and with what is behind the mark.  While
the mark is not in sight there is a limit to what may stand in front of it. -/
def upTo (mark : List UInt8) (limit : Nat) (overrun : FramingError) (bytes : List UInt8)
    (next : List UInt8 → List UInt8 → Scan) : Scan :=
  match Bytes.find? mark bytes with
  | none => if bytes.length > limit then .refuse overrun else .wait
  | some n => next (bytes.take n) (bytes.drop (n + mark.length))

/-- Take what there is of a stretch of which `left` bytes are to come: the whole of it, to go on
with it and with the bytes behind it, or all bytes, and so many fewer are to come. -/
def stretch (left : Nat) (bytes : List UInt8) (whole : List UInt8 → List UInt8 → Scan)
    (part : List UInt8 → Nat → Message) : Scan :=
  if bytes = [] then .wait
  else if left ≤ bytes.length then whole (bytes.take left) (bytes.drop left)
  else .next (part bytes (left - bytes.length)) [] none

/-! ## One unit -/

/-- Go on behind a complete header section. -/
def enter (m : Message) (header : Header) (rest : List UInt8) : Scan :=
  let m := { m with gzip := header.gzip }
  if header.chunked then .next { m with framing := .chunkSize } rest none
  else
    match header.contentLength with
    | none | some 0 => m.finish rest
    | some n =>
      if n > maxBodySize then .refuse .bodyTooLarge
      else .next { m with framing := .fixed n } rest none

/-- Take an empty line or a header section. -/
def scanHeaders (m : Message) (bytes : List UInt8) : Scan :=
  if lineEnd.isPrefixOf bytes then .next m (bytes.drop lineEnd.length) none
  else
    upTo headerEnd maxHeaderSize .headerTooLarge bytes fun lines rest =>
      match Header.ofSection? (lines ++ headerEnd) with
      | none => .refuse .invalidContentLength
      | some header => m.enter header rest

/-- Add what has arrived to the body. -/
def gather (m : Message) (got : List UInt8) : Message := { m with body := got.reverse ++ m.body }

/-- Take what there is of a body. -/
def scanFixed (m : Message) (left : Nat) (bytes : List UInt8) : Scan :=
  stretch left bytes (fun got rest => (m.gather got).finish rest)
    fun got left => { m.gather got with framing := .fixed left }

/-- Go on behind a complete chunk size line. -/
def enterChunk (m : Message) (size : Nat) (rest : List UInt8) : Scan :=
  if size = 0 then .next { m with framing := .trailers } rest none
  else if m.body.length + size > maxBodySize then .refuse .bodyTooLarge
  else .next { m with framing := .chunkData size } rest none

/-- Take a chunk size line. -/
def scanChunkSize (m : Message) (bytes : List UInt8) : Scan :=
  upTo [0x0A] maxLineSize .lineTooLong bytes fun line rest =>
    match chunkSize? line with
    | none => .refuse .invalidChunkSize
    | some size => m.enterChunk size rest

/-- Take what there is of a chunk. -/
def scanChunkData (m : Message) (left : Nat) (bytes : List UInt8) : Scan :=
  stretch left bytes
    (fun got rest => .next { m.gather got with framing := .chunkEnd lineEnd.length } rest none)
    fun got left => { m.gather got with framing := .chunkData left }

/-- Take what there is of the line end behind a chunk, whatever its bytes are. -/
def scanChunkEnd (m : Message) (left : Nat) (bytes : List UInt8) : Scan :=
  stretch left bytes (fun _ rest => .next { m with framing := .chunkSize } rest none)
    fun _ left => { m with framing := .chunkEnd left }

/-- Take a trailer line; an empty one ends the message. -/
def scanTrailers (m : Message) (bytes : List UInt8) : Scan :=
  upTo [0x0A] maxHeaderSize .trailerTooLarge bytes fun line rest =>
    if (trimCr line).isEmpty then m.finish rest else .next m rest none

/-- Take the next unit off the front of the bytes. -/
def scanUnit (m : Message) (bytes : List UInt8) : Scan :=
  match m.framing with
  | .headers => m.scanHeaders bytes
  | .fixed left => m.scanFixed left bytes
  | .chunkSize => m.scanChunkSize bytes
  | .chunkData left => m.scanChunkData left bytes
  | .chunkEnd left => m.scanChunkEnd left bytes
  | .trailers => m.scanTrailers bytes

/-! ## All units -/

/-- What is left to do in the worst case. -/
def workload (m : Message) (bytes : List UInt8) : Nat := 3 * bytes.length + m.framing.slack

/-- What is taken up to a mark is more than nothing. -/
theorem upTo_next {mark bytes rest : List UInt8} {limit : Nat} {overrun : FramingError}
    {next : List UInt8 → List UInt8 → Scan} {m : Message} {body? : Option (List UInt8)}
    (hmark : mark ≠ [])
    (hnext : ∀ line behind, next line behind = .next m rest body? → rest = behind)
    (h : upTo mark limit overrun bytes next = .next m rest body?) : rest.length < bytes.length := by
  unfold upTo at h
  split at h
  · split at h <;> contradiction
  · next n hn =>
      have hlen := Bytes.add_length_le_of_find? hn
      have hpos := List.length_pos_iff.mpr hmark
      rw [hnext _ _ h, List.length_drop]
      omega

theorem enter_next {m m' : Message} {header : Header} {behind rest : List UInt8}
    {body? : Option (List UInt8)} (h : m.enter header behind = .next m' rest body?) :
    rest = behind := by
  unfold enter finish at h
  grind

theorem enterChunk_next {m m' : Message} {size : Nat} {behind rest : List UInt8}
    {body? : Option (List UInt8)} (h : m.enterChunk size behind = .next m' rest body?) :
    rest = behind := by
  unfold enterChunk at h
  grind

/-- What is taken of a stretch is more than nothing, unless nothing of it was to come. -/
theorem stretch_next {left : Nat} {bytes rest : List UInt8}
    {whole : List UInt8 → List UInt8 → Scan} {part : List UInt8 → Nat → Message} {m : Message}
    {body? : Option (List UInt8)} {slack : Nat}
    (hwhole : ∀ got behind, whole got behind = .next m rest body? →
      rest = behind ∧ m.framing.slack < slack)
    (h : stretch left bytes whole part = .next m rest body?) :
    rest.length < bytes.length ∨ rest.length = bytes.length ∧ m.framing.slack < slack := by
  unfold stretch at h
  split at h
  · contradiction
  · next hne =>
      have hpos := List.length_pos_iff.mpr hne
      split at h
      · obtain ⟨rfl, hslack⟩ := hwhole _ _ h
        rw [List.length_drop]
        omega
      · left
        injection h with _ hrest _
        simpa [← hrest] using hpos

/-- A unit leaves less to do: it takes a byte, or it goes on to a unit that takes one. -/
theorem workload_lt_of_scanUnit {m m' : Message} {bytes rest : List UInt8}
    {body? : Option (List UInt8)} (h : m.scanUnit bytes = .next m' rest body?) :
    m'.workload rest < m.workload bytes := by
  have hslack := m'.framing.slack_le
  suffices rest.length < bytes.length ∨
      rest.length = bytes.length ∧ m'.framing.slack < m.framing.slack by
    unfold workload
    omega
  unfold scanUnit at h
  split at h
  · next hf =>
      left
      unfold scanHeaders at h
      split at h
      · next hp =>
          have hlen := (List.isPrefixOf_iff_prefix.mp hp).length_le
          injection h with _ hrest _
          rw [← hrest, List.length_drop]
          simp only [lineEnd, List.length_cons, List.length_nil] at hlen ⊢
          omega
      · refine upTo_next (by decide) (fun lines behind hnext => ?_) h
        split at hnext
        · contradiction
        · exact enter_next hnext
  · next left hf =>
      rw [hf]
      refine stretch_next (fun got behind hwhole => ?_) h
      injection hwhole with hm hrest _
      exact ⟨hrest.symm, by rw [← hm]; exact Nat.zero_lt_one⟩
  · next hf =>
      left
      refine upTo_next (by decide) (fun line behind hnext => ?_) h
      split at hnext
      · contradiction
      · exact enterChunk_next hnext
  · next left hf =>
      rw [hf]
      refine stretch_next (fun got behind hwhole => ?_) h
      injection hwhole with hm hrest _
      exact ⟨hrest.symm, by rw [← hm]; exact Nat.lt_succ_self 1⟩
  · next left hf =>
      rw [hf]
      refine stretch_next (fun got behind hwhole => ?_) h
      injection hwhole with hm hrest _
      exact ⟨hrest.symm, by rw [← hm]; exact Nat.zero_lt_one⟩
  · next hf =>
      left
      refine upTo_next (by decide) (fun line behind hnext => ?_) h
      split at hnext
      · injection hnext with _ hrest _
        exact hrest.symm
      · injection hnext with _ hrest _
        exact hrest.symm

/-- Take units off the front of the bytes until the next one is not complete.  The bodies found so
far come newest first. -/
def scan (m : Message) (bytes : List UInt8) (bodies : List (List UInt8)) :
    Except FramingError (Reassembler × List (List UInt8)) :=
  match _h : m.scanUnit bytes with
  | .wait => .ok (⟨m, bytes⟩, bodies)
  | .refuse e => .error e
  | .next m' rest body? => scan m' rest (body?.toList ++ bodies)
termination_by m.workload bytes
decreasing_by exact workload_lt_of_scanUnit ‹_›

end Message

namespace Reassembler

/-- A reassembler in front of a stream. -/
def empty : Reassembler := ⟨.empty, []⟩

/-- The phase of the current message. -/
def phase (r : Reassembler) : Phase :=
  match r.message.framing with
  | .headers => .awaitingHeaders
  | .fixed _ => .readingFixedBody
  | .chunkSize | .chunkData _ | .chunkEnd _ => .readingChunkedBody
  | .trailers => .readingTrailers

/-! ## Pieces of the stream -/

/-- Take a piece of the stream, returning the bodies that it completes. -/
def push? (r : Reassembler) (data : List UInt8) :
    Except FramingError (Reassembler × List (List UInt8)) :=
  (r.message.scan (r.held ++ data) []).map fun (r, bodies) => (r, bodies.reverse)

/-- Take a piece of the stream.  An error leaves the reassembler in front of a new stream. -/
def push (r : Reassembler) (data : List UInt8) :
    Reassembler × Except FramingError (List (List UInt8)) :=
  match r.push? data with
  | .ok (r, bodies) => (r, .ok bodies)
  | .error e => (empty, .error e)

end Reassembler

end FlowRelay.Http
