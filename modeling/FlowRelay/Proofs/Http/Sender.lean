import FlowRelay.Http.Reassembler
import FlowRelay.Proofs.Text.Ascii
import Mathlib.Data.List.TakeDrop
import Mathlib.Data.List.TakeWhile

/-!
# FlowRelay.Proofs.Http.Sender

Messages as a sender writes them.

1. *Header lines* (`HeaderLine`): lines that state a length, a transfer coding or compression, in
   any spelling of their names and values, and lines that say nothing about the framing.
2. *Bodies* (`Body`): none, one of stated length, or one cut into chunks, with extensions and
   trailer lines.
3. *Messages* (`Outgoing.bytes`, `encode`): what goes onto the wire, and which messages are well
   formed.
4. *Header sections* (`Outgoing.ofSection?_head`): what the lines of a message say is read back from
   its header section.
-/

namespace FlowRelay.Http

open Text (ascii isPrintable Spells)
open Message (lineEnd)

/-! ## Lines -/

/-- A line with its line end. -/
def lineBytes (text : List Char) : List UInt8 := ascii text ++ lineEnd

/-- A line that is not empty and has nothing but printed characters. -/
structure IsLine (text : List Char) : Prop where
  nonempty : text ≠ []
  printable : ∀ c ∈ text, isPrintable c = true

instance (text : List Char) : Decidable (IsLine text) :=
  decidable_of_iff (text ≠ [] ∧ text.all isPrintable = true)
    ⟨fun h => ⟨h.1, List.all_eq_true.mp h.2⟩,
      fun h => ⟨h.nonempty, List.all_eq_true.mpr h.printable⟩⟩

/-! ## Header lines -/

/-- A header line of a message. -/
inductive HeaderLine where
  /-- A line that says nothing about the framing. -/
  | other (text : List Char)
  /-- A line that states a length. -/
  | length (name value : List Char) (n : Nat)
  /-- A line that says that the body is cut into chunks. -/
  | chunked (name value : List Char)
  /-- A line that says that the body is compressed. -/
  | gzip (name value : List Char)

namespace HeaderLine

/-- The line as it is written. -/
def text : HeaderLine → List Char
  | .other text => text
  | .length name value _ | .chunked name value | .gzip name value => name ++ ':' :: value

/-- The normal forms of the names that matter to the framing. -/
def framingNames : List (List Char) :=
  ["content-length".toList, "transfer-encoding".toList, "content-encoding".toList]

/-- Whether a line says what it is said to say.  Names and values may be spelled in any way that has
the right normal form. -/
def Says : HeaderLine → Prop
  | .other text => ':' ∈ text → Header.normal (text.takeWhile (· ≠ ':')) ∉ framingNames
  | .length name value n => ':' ∉ name ∧ Header.normal name = "content-length".toList ∧
      Spells 10 (Header.normal value) n ∧ n ≤ maxNumber
  | .chunked name value => ':' ∉ name ∧ Header.normal name = "transfer-encoding".toList ∧
      Header.normal value = "chunked".toList
  | .gzip name value => ':' ∉ name ∧ Header.normal name = "content-encoding".toList ∧
      Header.normal value = "gzip".toList

structure WellFormed (l : HeaderLine) : Prop where
  isLine : IsLine l.text
  meaning : l.Says

/-- The length that a line states. -/
def length? : HeaderLine → Option Nat
  | .length _ _ n => some n
  | _ => none

def isChunked : HeaderLine → Bool
  | .chunked _ _ => true
  | _ => false

def isGzip : HeaderLine → Bool
  | .gzip _ _ => true
  | _ => false

end HeaderLine

/-! ## Bodies -/

/-- The line in front of a chunk: hexadecimal digits, perhaps with an extension. -/
structure SizeLine where
  digits : List Char
  /-- What stands behind the semicolon. -/
  extension? : Option (List UInt8)

/-- The line without its line end. -/
def SizeLine.content (l : SizeLine) : List UInt8 :=
  ascii l.digits ++ l.extension?.elim [] (0x3B :: ·)

/-- The line as it is written. -/
def SizeLine.bytes (l : SizeLine) : List UInt8 := l.content ++ lineEnd

/-- The line states a size, and its end comes in sight in time. -/
structure SizeLine.States (l : SizeLine) (size : Nat) : Prop where
  spells : Spells 16 l.digits size
  extension : ∀ e ∈ l.extension?, 0x0A ∉ e
  length_le : l.bytes.length ≤ maxLineSize + 1

/-- A chunk with the line in front of it. -/
structure Chunk where
  line : SizeLine
  data : List UInt8

/-- A chunk as it is written. -/
def Chunk.bytes (c : Chunk) : List UInt8 := c.line.bytes ++ (c.data ++ lineEnd)

structure Chunk.WellFormed (c : Chunk) : Prop where
  nonempty : c.data ≠ []
  states : c.line.States c.data.length

/-- A body as it is sent. -/
inductive Body where
  | absent
  /-- A body of stated length. -/
  | sized (data : List UInt8)
  /-- Chunks, the line of the last chunk, which is empty, and trailer lines. -/
  | chunked (chunks : List Chunk) (last : SizeLine) (trailers : List (List Char))

namespace Body

/-- What the body is made up of. -/
def data : Body → List UInt8
  | .absent => []
  | .sized data => data
  | .chunked chunks _ _ => chunks.flatMap (·.data)

/-- The body as it is written. -/
def bytes : Body → List UInt8
  | .absent => []
  | .sized data => data
  | .chunked chunks last trailers =>
    chunks.flatMap (·.bytes) ++ (last.bytes ++ (trailers.flatMap lineBytes ++ lineEnd))

/-- The header lines say how the body is framed.  A length in front of chunks may be any number. -/
def FramedBy (lines : List HeaderLine) : Body → Prop
  | .absent => lines.filterMap (·.length?) = [] ∧ lines.any (·.isChunked) = false
  | .sized data => lines.filterMap (·.length?) = [data.length] ∧
      lines.any (·.isChunked) = false
  | .chunked _ _ _ => lines.any (·.isChunked) = true

/-- The lines in the body are well formed, and their ends come in sight in time. -/
def WellFormed : Body → Prop
  | .absent | .sized _ => True
  | .chunked chunks last trailers => (∀ c ∈ chunks, c.WellFormed) ∧ last.States 0 ∧
      ∀ t ∈ trailers, IsLine t ∧ (lineBytes t).length ≤ maxHeaderSize + 1

end Body

/-! ## Messages -/

/-- A message as it is sent. -/
structure Outgoing where
  /-- How many empty lines stand in front of it. -/
  gap : Nat
  start : List Char
  lines : List HeaderLine
  body : Body

namespace Outgoing

/-- The header section. -/
def head (m : Outgoing) : List UInt8 :=
  lineBytes m.start ++ (m.lines.flatMap (lineBytes ·.text) ++ lineEnd)

/-- So many empty lines. -/
def emptyLines (n : Nat) : List UInt8 := (List.replicate n lineEnd).flatten

/-- The message as it is written. -/
def bytes (m : Outgoing) : List UInt8 := emptyLines m.gap ++ (m.head ++ m.body.bytes)

/-- Whether the header section says that the body is compressed. -/
def isGzip (m : Outgoing) : Bool := m.lines.any (·.isGzip)

/-- What the header section is meant to say.  Of several lengths the last one counts. -/
def header (m : Outgoing) : Header where
  chunked := m.lines.any (·.isChunked)
  contentLength := (m.lines.filterMap (·.length?)).getLast?
  gzip := m.isGzip

structure WellFormed (m : Outgoing) : Prop where
  start : IsLine m.start
  lines : ∀ l ∈ m.lines, l.WellFormed
  /-- The end of the header section comes in sight in time. -/
  head_le : m.head.length ≤ maxHeaderSize + 1
  framedBy : m.body.FramedBy m.lines
  body : m.body.WellFormed
  data_le : m.body.data.length ≤ maxBodySize

/-- The body that a receiver is to get: none for an empty one, the content of a compressed one, and
the body as it was sent where it does not decompress. -/
def received? (m : Outgoing) : Option (List UInt8) :=
  if m.body.data = [] then none
  else if m.isGzip ∨ Gzip.magic <+: m.body.data then
    some ((Gzip.decompress? m.body.data).getD m.body.data)
  else some m.body.data

end Outgoing

/-- Messages as they are written one behind the other, with so many empty lines behind the last. -/
def encode (messages : List Outgoing) (extra : Nat) : List UInt8 :=
  messages.flatMap (·.bytes) ++ Outgoing.emptyLines extra

/-! ## Bytes of lines -/

theorem isPrintable_bounds {c : Char} (h : isPrintable c = true) :
    0x20 ≤ c.toNat ∧ c.toNat ≤ 0x7E := by
  simpa [isPrintable] using h

namespace IsLine

variable {text : List Char}

theorem isAscii (h : IsLine text) : ∀ c ∈ text, c.toNat < 128 := by
  intro c hc
  have hbounds := isPrintable_bounds (h.printable c hc)
  omega

/-- No control byte is in a line. -/
theorem notMem_ascii (h : IsLine text) {b : UInt8} (hb : b.toNat < 0x20) : b ∉ ascii text := by
  refine Text.notMem_ascii fun c hc => ?_
  have hbounds := isPrintable_bounds (h.printable c hc)
  omega

/-- A line starts with a byte that is no control byte. -/
theorem exists_cons (h : IsLine text) : ∃ b rest, ascii text = b :: rest ∧ b ≠ 0x0D := by
  cases htext : text with
  | nil => exact absurd htext h.nonempty
  | cons c text' =>
      have hmem : (0x0D : UInt8) ∉ ascii text := h.notMem_ascii (by decide)
      rw [htext, Text.ascii_cons, List.mem_cons, not_or] at hmem
      exact ⟨_, _, rfl, fun heq => hmem.1 heq.symm⟩

theorem notMem (h : IsLine text) {c : Char} (hc : c.toNat < 0x20) : c ∉ text := by
  intro hmem
  have hbounds := isPrintable_bounds (h.printable c hmem)
  omega

end IsLine

/-! ## Header sections -/

namespace Header

/-- At each line end a text falls apart. -/
theorem lines.go_append (line text more : List Char) :
    lines.go line (text ++ '\r' :: '\n' :: more) = lines.go line text ++ lines more := by
  fun_induction lines.go line text with
  | case1 line => simp [lines.go, lines]
  | case2 line rest ih =>
      rw [List.cons_append, List.cons_append, lines.go, ih, List.cons_append]
  | case3 line c rest hc ih =>
      have hc' : ∀ rest', c = '\r' → rest ++ '\r' :: '\n' :: more = '\n' :: rest' → False := by
        intro rest' hcr hrest
        cases rest with
        | nil => simp at hrest
        | cons d rest => exact hc rest hcr (by rw [(List.cons.inj hrest).1])
      rw [List.cons_append, lines.go.eq_3 _ _ _ hc', ih]

/-- A text without a line end is one line. -/
theorem lines.go_of_notInfix {line text : List Char} (h : ¬ ['\r', '\n'] <:+: text) :
    lines.go line text = [line.reverse ++ text] := by
  fun_induction lines.go line text with
  | case1 line => simp
  | case2 line rest ih => exact absurd (List.prefix_append ['\r', '\n'] rest).isInfix h
  | case3 line c rest hc ih =>
      rw [ih fun hrest => h (hrest.trans (List.suffix_cons c rest).isInfix)]
      simp

/-- A line ends at the first line end. -/
theorem lines_append {text : List Char} (h : ¬ ['\r', '\n'] <:+: text) (rest : List Char) :
    lines (text ++ '\r' :: '\n' :: rest) = text :: lines rest := by
  rw [lines, lines.go_append, lines.go_of_notInfix h]
  rfl

/-- The name of a field ends at the first colon. -/
theorem takeWhile_append {name : List Char} (h : ':' ∉ name) (value : List Char) :
    (name ++ ':' :: value).takeWhile (· ≠ ':') = name := by
  have hname : ∀ c ∈ name, decide (c ≠ ':') = true := by
    intro c hc
    simpa using ne_of_mem_of_not_mem hc h
  rw [List.takeWhile_append_of_pos hname]
  simp

theorem span_append {name : List Char} (h : ':' ∉ name) (value : List Char) :
    (name ++ ':' :: value).span (· ≠ ':') = (name, ':' :: value) := by
  have hname : ∀ c ∈ name, decide (c ≠ ':') = true := by
    intro c hc
    simpa using ne_of_mem_of_not_mem hc h
  rw [List.span_eq_takeWhile_dropWhile, takeWhile_append h, List.dropWhile_append_of_pos hname]
  simp

theorem span_of_notMem {line : List Char} (h : ':' ∉ line) :
    line.span (· ≠ ':') = (line, []) := by
  have hline : ∀ c ∈ line, decide (c ≠ ':') = true := by
    intro c hc
    simpa using ne_of_mem_of_not_mem hc h
  rw [List.span_eq_takeWhile_dropWhile, List.takeWhile_eq_self_iff.mpr hline,
    List.dropWhile_eq_nil_iff.mpr hline]

theorem field?_append {name : List Char} (h : ':' ∉ name) (value : List Char) :
    field? (name ++ ':' :: value) = some (normal name, normal value) := by
  rw [field?, span_append h]

/-- A line without a colon has no field. -/
theorem field?_of_notMem {line : List Char} (h : ':' ∉ line) : field? line = none := by
  rw [field?, span_of_notMem h]

end Header

namespace HeaderLine

/-- What is known of the framing behind a line. -/
def apply (header : Header) : HeaderLine → Header
  | .other _ => header
  | .length _ _ n => { header with contentLength := some n }
  | .chunked _ _ => { header with chunked := true }
  | .gzip _ _ => { header with gzip := true }

/-- A line is understood as it is meant. -/
theorem addLine_text {l : HeaderLine} (h : l.Says) (header : Header) :
    header.addLine l.text = some (l.apply header) := by
  cases l with
  | other text =>
      by_cases hcolon : ':' ∈ text
      · obtain ⟨name, value, rfl, hname⟩ := List.eq_append_cons_of_mem hcolon
        have hother := h hcolon
        rw [Header.takeWhile_append hname] at hother
        simp only [framingNames, List.mem_cons, List.not_mem_nil, or_false, not_or] at hother
        simp only [Header.addLine, HeaderLine.text, Header.field?_append hname, Header.add]
        rw [if_neg hother.2.1, if_neg hother.1, if_neg hother.2.2]
        rfl
      · simp only [Header.addLine, HeaderLine.text, Header.field?_of_notMem hcolon]
        rfl
  | length name value n =>
      obtain ⟨hcolon, hname, hvalue, hn⟩ := h
      simp only [Header.addLine, HeaderLine.text, Header.field?_append hcolon, hname, Header.add,
        hvalue.readNumeral hn]
      rfl
  | chunked name value =>
      obtain ⟨hcolon, hname, hvalue⟩ := h
      have hlists : Header.lists "chunked" "chunked".toList = true := by decide
      simp only [Header.addLine, HeaderLine.text, Header.field?_append hcolon, hname, hvalue,
        Header.add, hlists, Bool.or_true]
      rfl
  | gzip name value =>
      obtain ⟨hcolon, hname, hvalue⟩ := h
      have hlists : Header.lists "gzip" "gzip".toList = true := by decide
      simp only [Header.addLine, HeaderLine.text, Header.field?_append hcolon, hname, hvalue,
        Header.add, hlists, Bool.or_true]
      rfl

/-- Header lines are read one after the other. -/
theorem foldlM_addLine {ls : List HeaderLine} (h : ∀ l ∈ ls, l.Says) (header : Header) :
    (ls.map text).foldlM Header.addLine header = some (ls.foldl apply header) := by
  induction ls generalizing header with
  | nil => rfl
  | cons l ls ih =>
      have hl := addLine_text (h l List.mem_cons_self) header
      simp only [List.map_cons, List.foldlM_cons, hl, List.foldl_cons]
      exact ih (fun l hl => h l (List.mem_cons_of_mem _ hl)) _

/-- Of several lengths the last one counts. -/
theorem foldl_apply (ls : List HeaderLine) (header : Header) :
    ls.foldl apply header =
      { chunked := header.chunked || ls.any (·.isChunked)
        contentLength := (ls.filterMap (·.length?)).getLast?.or header.contentLength
        gzip := header.gzip || ls.any (·.isGzip) } := by
  induction ls generalizing header with
  | nil => simp
  | cons l ls ih =>
      rw [List.foldl_cons, ih]
      cases l <;> simp [apply, length?, isChunked, isGzip, List.getLast?_cons, Option.or_some]

end HeaderLine

namespace Header

/-- Lines with their line ends, as text. -/
def joined (texts : List (List Char)) : List Char := texts.flatMap (· ++ ['\r', '\n'])

/-- Lines that are joined are the bytes of each of them. -/
theorem ascii_joined (texts : List (List Char)) :
    ascii (joined texts) = texts.flatMap lineBytes := by
  induction texts with
  | nil => rfl
  | cons text texts ih =>
      have hline : ascii (text ++ ['\r', '\n']) = lineBytes text := by
        rw [lineBytes, Text.ascii_append]
        rfl
      simp only [joined, List.flatMap_cons, Text.ascii_append, hline] at ih ⊢
      rw [ih]

/-- Behind an empty line there is one more, which nothing ends. -/
theorem lines_joined {texts : List (List Char)} (h : ∀ text ∈ texts, IsLine text) :
    lines (joined texts ++ ['\r', '\n']) = texts ++ [[], []] := by
  induction texts with
  | nil => rfl
  | cons text texts ih =>
      have hcr : '\r' ∉ text := (h text List.mem_cons_self).notMem (by decide)
      have hline : ¬ ['\r', '\n'] <:+: text := fun hends => hcr (hends.subset List.mem_cons_self)
      have htexts := ih fun text htext => h text (List.mem_cons_of_mem _ htext)
      simp only [joined, List.flatMap_cons, List.append_assoc, List.cons_append,
        List.nil_append] at htexts ⊢
      rw [lines_append hline, htexts]

end Header

namespace Outgoing

variable {m : Outgoing}

/-- All lines of the header section. -/
def texts (m : Outgoing) : List (List Char) := m.start :: m.lines.map (·.text)

/-- A head is its lines and an empty one. -/
theorem head_eq (m : Outgoing) : m.head = m.texts.flatMap lineBytes ++ lineEnd := by
  simp [head, texts, List.flatMap_map]

theorem WellFormed.isLine (h : m.WellFormed) : ∀ text ∈ m.texts, IsLine text := by
  intro text htext
  cases List.mem_cons.mp htext with
  | inl heq => exact heq ▸ h.start
  | inr hmem =>
      obtain ⟨l, hl, rfl⟩ := List.mem_map.mp hmem
      exact (h.lines l hl).isLine

/-- **Header sections**: a header section is understood as it is meant. -/
theorem ofSection?_head (h : m.WellFormed) : Header.ofSection? m.head = some m.header := by
  have htext : m.head = ascii (Header.joined m.texts ++ ['\r', '\n']) := by
    rw [head_eq, Text.ascii_append, Header.ascii_joined]
    rfl
  have hascii : ∀ c ∈ Header.joined m.texts ++ ['\r', '\n'], c.toNat < 128 := by
    intro c hc
    simp only [Header.joined, List.mem_append, List.mem_flatMap, List.mem_cons, List.not_mem_nil,
      or_false] at hc
    obtain ⟨text, hmem, hc | rfl | rfl⟩ | rfl | rfl := hc
    · exact (h.isLine text hmem).isAscii c hc
    all_goals decide
  have hsays : ∀ l ∈ m.lines, l.Says := fun l hl => (h.lines l hl).meaning
  rw [Header.ofSection?, htext, Text.Utf8.decodeLossy_ascii hascii, Header.lines_joined h.isLine]
  simp only [texts, List.cons_append, List.drop_succ_cons, List.drop_zero, List.foldlM_append,
    HeaderLine.foldlM_addLine hsays, HeaderLine.foldl_apply]
  simp [Header.empty, Header.addLine, Header.field?, header, isGzip]

end Outgoing

end FlowRelay.Http
