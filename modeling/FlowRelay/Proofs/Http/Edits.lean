import Mathlib.Data.List.Infix
import Mathlib.Logic.Relation
import FlowRelay.Proofs.Http.Fields

/-!
# FlowRelay.Proofs.Http.Edits

How a header section may be rewritten without a change of what it says.

1. *Sections* (`exists_section`, `lines_bytes`): any bytes are lines with line ends between them,
   and lossy decoding keeps them apart.
2. *Spellings* (`Respelled.field?_eq`): the case of letters in a line does not matter, nor do spaces
   and tabs around its name and its codings.
3. *Edits* (`Edit.says_iff`): one edit changes the start line or the spelling of a line, moves lines
   or inserts one.
4. *Runs of edits* (`Section.edited_agrees`): after any number of them, made or undone, a section is
   read as before, or refused as before.
-/

namespace FlowRelay.Http.Header

open Message (lineEnd)
open Text (ascii lowerAscii Blank)
open Text.Utf8 (decodeLossy lowerByte)

/-! ## Sections -/

/-- A line of a header section: bytes without a line end in them. -/
structure Line where
  bytes : List UInt8
  whole : ¬ lineEnd <:+: bytes

/-- A header section by its lines, of which the first one is the start line of the message. -/
structure Section where
  start : Line
  lines : List Line

namespace Line

/-- The text of a line. -/
def text (l : Line) : List Char := decodeLossy l.bytes

/-- The field of a line, unless it has no colon. -/
def field? (l : Line) : Option Field := Field.ofLine? l.text

/-- Whether the line states a length. -/
def isLength (l : Line) : Bool := l.field?.any (·.isNamed "content-length")

/-- A line without a colon, or of a name that does not matter to the framing. -/
def IsOther (l : Line) : Prop := ∀ f ∈ l.field?, f.name ∉ HeaderLine.framingNames

end Line

namespace Section

/-- The section as it is written. -/
def bytes (s : Section) : List UInt8 := s.start.bytes ++ s.lines.flatMap (lineEnd ++ ·.bytes)

/-- The fields of the header lines. -/
def fields (s : Section) : List Field := s.lines.filterMap (·.field?)

end Section

/-- Any bytes are a header section. -/
theorem exists_section (bytes : List UInt8) : ∃ s : Section, s.bytes = bytes := by
  by_cases h : lineEnd <:+: bytes
  · obtain ⟨front, back, rfl⟩ := h
    obtain ⟨s, hs⟩ := exists_section front
    obtain ⟨s', hs'⟩ := exists_section back
    refine ⟨⟨s.start, s.lines ++ s'.start :: s'.lines⟩, ?_⟩
    rw [← hs, ← hs']
    simp [Section.bytes]
  · exact ⟨⟨⟨bytes, h⟩, []⟩, by simp [Section.bytes]⟩
termination_by bytes.length
decreasing_by all_goals grind [lineEnd]

/-- The text of a line has no line end either. -/
theorem Line.lineEnd_notInfix (l : Line) : ¬ ['\r', '\n'] <:+: l.text := by
  rintro ⟨front, back, h⟩
  rw [List.append_assoc] at h
  obtain ⟨xs, rest, hbytes, -, hrest⟩ := Text.Utf8.exists_of_decodeLossy (by decide) h.symm
  obtain ⟨ys, zs, rfl, hys, -⟩ := Text.Utf8.exists_of_decodeLossy
    (by decide : Text.Utf8.IsAscii '\n') (hrest.trans (List.nil_append _).symm)
  obtain rfl := Text.Utf8.eq_nil_of_decodeLossy hys
  exact l.whole ⟨xs, zs, by simp [hbytes, lineEnd]⟩

/-- A line end is decoded as one wherever it stands. -/
theorem decodeLossy_lineEnd (xs ys : List UInt8) :
    decodeLossy (xs ++ (lineEnd ++ ys)) = decodeLossy xs ++ '\r' :: '\n' :: decodeLossy ys := by
  rw [lineEnd, List.cons_append, List.cons_append, List.nil_append,
    Text.Utf8.decodeLossy_append_cons (by decide), Text.Utf8.decodeLossy_cons (by decide)]
  rfl

/-- Lossy decoding keeps the lines apart. -/
theorem lines_bytes (start : Line) (ls : List Line) :
    lines (decodeLossy (Section.bytes ⟨start, ls⟩)) = start.text :: ls.map (·.text) := by
  induction ls generalizing start with
  | nil =>
      rw [Section.bytes, List.flatMap_nil, List.append_nil, ← Line.text, lines,
        lines.go_of_notInfix start.lineEnd_notInfix]
      rfl
  | cons l ls ih =>
      have hbytes : Section.bytes ⟨start, l :: ls⟩ =
          start.bytes ++ (lineEnd ++ Section.bytes ⟨l, ls⟩) := by
        simp [Section.bytes]
      rw [hbytes, decodeLossy_lineEnd, ← Line.text, lines_append start.lineEnd_notInfix, ih,
        List.map_cons]

/-- **Sections**: a section is read as what its fields say together. -/
theorem ofSection?_eq_some_iff {s : Section} {header : Header} :
    ofSection? s.bytes = some header ↔ Says s.fields header := by
  have hfields : s.fields = (s.lines.map (·.text)).filterMap Field.ofLine? := by
    rw [Section.fields, List.filterMap_map]
    rfl
  rw [ofSection?, lines_bytes, List.drop_succ_cons, List.drop_zero, foldlM_addLine_eq_some_iff,
    hfields]

/-! ## Spellings -/

/-- Spaces and tabs are put at an end of a text, or among the blanks there. -/
inductive Spaced : List UInt8 → List UInt8 → Prop where
  | intro {front pad back : List UInt8} : (∀ b ∈ pad, b = 0x20 ∨ b = 0x09) →
      Blank (decodeLossy front) ∨ Blank (decodeLossy back) →
      Spaced (front ++ back) (front ++ pad ++ back)

/-- A line with a name and, behind a colon, codings with commas between them. -/
def fieldBytes (name : List UInt8) (codings : List (List UInt8)) : List UInt8 :=
  name ++ 0x3A :: [0x2C].intercalate codings

/-- A line is spelled in another way. -/
inductive Respelled : Line → Line → Prop where
  /-- With other letters capital and other letters small, in the name and in the value. -/
  | letters {l l' : Line} : l.bytes.map lowerByte = l'.bytes.map lowerByte → Respelled l l'
  /-- With spaces and tabs around the name and around the codings.  A value without a comma is its
  only coding. -/
  | spacing {l l' : Line} {name name' : List UInt8} {codings codings' : List (List UInt8)} :
      0x3A ∉ name → Spaced name name' → List.Forall₂ Spaced codings codings' →
      l.bytes = fieldBytes name codings → l'.bytes = fieldBytes name' codings' → Respelled l l'

theorem Spaced.before {xs pad : List UInt8} (h : ∀ b ∈ pad, b = 0x20 ∨ b = 0x09) :
    Spaced xs (pad ++ xs) := by
  have hstart : Spaced ([] ++ xs) ([] ++ pad ++ xs) := .intro h (.inl Text.blank_nil)
  simpa using hstart

theorem Spaced.behind {xs pad : List UInt8} (h : ∀ b ∈ pad, b = 0x20 ∨ b = 0x09) :
    Spaced xs (xs ++ pad) := by
  have hend : Spaced (xs ++ []) (xs ++ pad ++ []) := .intro h (.inr Text.blank_nil)
  simpa using hend

/-- Spaces and tabs are blanks. -/
theorem isBlank_of_spacing {b : UInt8} (h : b = 0x20 ∨ b = 0x09) :
    b < 0x80 ∧ Text.isBlank (Char.ofNat b.toNat) = true := by
  rcases h with rfl | rfl <;> decide

/-- Bytes of spaces and tabs are blanks. -/
theorem blank_decodeLossy {pad : List UInt8} (h : ∀ b ∈ pad, b = 0x20 ∨ b = 0x09) :
    Blank (decodeLossy pad) := by
  induction pad with
  | nil => exact Text.blank_nil
  | cons b pad ih =>
      obtain ⟨hascii, hblank⟩ := isBlank_of_spacing (h b List.mem_cons_self)
      rw [Text.Utf8.decodeLossy_cons hascii]
      exact List.forall_mem_cons.mpr ⟨hblank, ih fun b hb => h b (List.mem_cons_of_mem _ hb)⟩

/-- Such blanks stand in the text where they stand in the bytes. -/
theorem decodeLossy_insert {front pad back : List UInt8} (hpad : ∀ b ∈ pad, b = 0x20 ∨ b = 0x09)
    (h : decodeLossy (front ++ back) = decodeLossy front ++ decodeLossy back) :
    decodeLossy (front ++ pad ++ back) =
      decodeLossy front ++ decodeLossy pad ++ decodeLossy back := by
  cases pad with
  | nil =>
      have hnil : decodeLossy [] = [] := rfl
      rw [hnil, List.append_nil, List.append_nil, h]
  | cons b pad =>
      have hascii := (isBlank_of_spacing (hpad b List.mem_cons_self)).1
      have hblank := blank_decodeLossy fun b hb => hpad b (List.mem_cons_of_mem _ hb)
      rw [List.append_assoc, List.cons_append, Text.Utf8.decodeLossy_append_cons hascii,
        Text.Utf8.decodeLossy_append (.inl (hblank.notMem (by decide))),
        Text.Utf8.decodeLossy_cons hascii]
      simp

/-- What is put into the bytes is put into the text. -/
theorem Spaced.exists_text {xs ys : List UInt8} (h : Spaced xs ys) :
    ∃ front pad back, decodeLossy xs = front ++ back ∧ decodeLossy ys = front ++ pad ++ back ∧
      Blank pad ∧ (Blank front ∨ Blank back) := by
  obtain ⟨hpad, hblank⟩ := h
  have hcut := Text.Utf8.decodeLossy_append
    (hblank.imp (·.notMem (by decide)) (·.notMem (by decide)))
  exact ⟨_, _, _, hcut, decodeLossy_insert hpad hcut, blank_decodeLossy hpad, hblank⟩

/-- Blanks around a value do not show in its normal form. -/
theorem Spaced.normal_eq {xs ys : List UInt8} (h : Spaced xs ys) :
    normal (decodeLossy ys) = normal (decodeLossy xs) := by
  obtain ⟨front, pad, back, hxs, hys, hpad, hblank⟩ := h.exists_text
  rw [hxs, hys, normal, normal, Text.trim_insert hpad hblank]

/-- Blanks around a value do not show in its codings. -/
theorem Spaced.codings_eq {xs ys : List UInt8} (h : Spaced xs ys) :
    codings (decodeLossy ys) = codings (decodeLossy xs) := by
  obtain ⟨front, pad, back, hxs, hys, hpad, hblank⟩ := h.exists_text
  rw [hxs, hys, codings, codings, Text.items_insert (by decide) hpad hblank]

theorem Spaced.colon_notMem {xs ys : List UInt8} (h : Spaced xs ys) (hxs : 0x3A ∉ xs) :
    0x3A ∉ ys := by
  obtain ⟨hpad, -⟩ := h
  simp only [List.mem_append, not_or] at hxs ⊢
  exact ⟨⟨hxs.1, fun hmem => by simpa using hpad _ hmem⟩, hxs.2⟩

/-- Commas in the bytes of a value are commas in its text. -/
theorem codings_intercalate {c : List UInt8} {cs : List (List UInt8)} :
    codings (decodeLossy ([0x2C].intercalate (c :: cs))) =
      (c :: cs).flatMap fun c => codings (decodeLossy c) := by
  induction cs generalizing c with
  | nil => simp
  | cons c' cs ih =>
      rw [List.intercalate_cons_cons, List.append_assoc, List.singleton_append,
        Text.Utf8.decodeLossy_append_cons (by decide), List.flatMap_cons, ← ih]
      exact codings_append_cons ..

/-- Blanks around the codings of a value do not matter. -/
theorem codings_respaced {cs cs' : List (List UInt8)} (h : List.Forall₂ Spaced cs cs') :
    codings (decodeLossy ([0x2C].intercalate cs')) =
      codings (decodeLossy ([0x2C].intercalate cs)) := by
  have hall : (cs'.flatMap fun c => codings (decodeLossy c)) =
      cs.flatMap fun c => codings (decodeLossy c) := by
    induction h with
    | nil => rfl
    | cons hc _ ih => rw [List.flatMap_cons, List.flatMap_cons, hc.codings_eq, ih]
  cases h with
  | nil => rfl
  | cons => rw [codings_intercalate, codings_intercalate, hall]

/-- The bytes of a field are read as its name and its codings. -/
theorem ofLine?_fieldBytes {name : List UInt8} (h : 0x3A ∉ name) (cs : List (List UInt8)) :
    Field.ofLine? (decodeLossy (fieldBytes name cs)) =
      some ⟨normal (decodeLossy name), codings (decodeLossy ([0x2C].intercalate cs))⟩ := by
  have hcolon : ':' ∉ decodeLossy name :=
    fun hmem => h (Text.Utf8.mem_of_decodeLossy (by decide) hmem)
  rw [fieldBytes, Text.Utf8.decodeLossy_append_cons (by decide)]
  exact Field.ofLine?_append hcolon _

/-- **Spellings**: however a line is spelled, its field is the same. -/
theorem Respelled.field?_eq {l l' : Line} (h : Respelled l l') : l'.field? = l.field? := by
  cases h with
  | letters h =>
      have htext : lowerAscii l'.text = lowerAscii l.text := by
        rw [Line.text, Line.text, ← Text.Utf8.decodeLossy_lowerByte,
          ← Text.Utf8.decodeLossy_lowerByte, h]
      rw [Line.field?, Line.field?, ← Field.ofLine?_lowerAscii, htext, Field.ofLine?_lowerAscii]
  | spacing hcolon hname hcodings hl hl' =>
      rw [Line.field?, Line.field?, Line.text, Line.text, hl, hl', ofLine?_fieldBytes hcolon,
        ofLine?_fieldBytes (hname.colon_notMem hcolon), hname.normal_eq, codings_respaced hcodings]

/-! ## Edits -/

/-- A change that is made to a section. -/
inductive Edit : Section → Section → Prop where
  | startLine {lines : List Line} (start start' : Line) : Edit ⟨start, lines⟩ ⟨start', lines⟩
  | respell {start l l' : Line} {front back : List Line} : Respelled l l' →
      Edit ⟨start, front ++ l :: back⟩ ⟨start, front ++ l' :: back⟩
  /-- Lines change places.  Those that state a length keep their order. -/
  | reorder {start : Line} {lines lines' : List Line} : lines.Perm lines' →
      lines.filter (·.isLength) = lines'.filter (·.isLength) → Edit ⟨start, lines⟩ ⟨start, lines'⟩
  | insert {start l : Line} {front back : List Line} : l.IsOther →
      Edit ⟨start, front ++ back⟩ ⟨start, front ++ l :: back⟩

theorem filter_fields (ls : List Line) :
    (ls.filterMap (·.field?)).filter (·.isNamed "content-length") =
      (ls.filter (·.isLength)).filterMap (·.field?) := by
  induction ls with
  | nil => rfl
  | cons l ls ih =>
      rw [List.filterMap_cons, List.filter_cons, Line.isLength]
      cases hfield : l.field? with
      | none => simpa [hfield] using ih
      | some f =>
          simp only [List.filter_cons, Option.any_some, ih]
          split
          · rw [List.filterMap_cons_some hfield]
          · rfl

variable {s s' : Section}

/-- **Edits**: an edit does not change what the fields say together. -/
theorem Edit.says_iff {header : Header} (h : Edit s s') :
    Says s.fields header ↔ Says s'.fields header := by
  cases h with
  | startLine => rfl
  | respell h => simp only [Section.fields, List.filterMap_append, List.filterMap_cons, h.field?_eq]
  | reorder hperm hlengths =>
      refine says_of_perm (hperm.filterMap _) ?_
      rw [Section.fields, Section.fields, filter_fields, filter_fields, hlengths]
  | @insert start l front back h =>
      simp only [Section.fields, List.filterMap_append, List.filterMap_cons]
      cases hfield : l.field? with
      | none => rfl
      | some f => exact (says_insert (h f hfield)).symm

/-- **Runs of edits**: any bytes are a section, which says what its fields say together, and is
refused if they say nothing.  After any number of edits, made or undone, it says the same, or is
refused as before. -/
theorem Section.edited_agrees :
    (∀ bytes, ∃ s : Section, s.bytes = bytes) ∧
    (∀ (s : Section) (header : Header),
      ofSection? s.bytes = some header ↔ Says s.fields header) ∧
    ∀ s s' : Section, Relation.EqvGen Edit s s' → ofSection? s.bytes = ofSection? s'.bytes := by
  refine ⟨exists_section, fun s header => ofSection?_eq_some_iff, fun s s' h => ?_⟩
  induction h with
  | rel s s' h =>
      refine Option.ext fun header => ?_
      rw [ofSection?_eq_some_iff, ofSection?_eq_some_iff, h.says_iff]
  | refl s => rfl
  | symm s s' _ ih => exact ih.symm
  | trans s s₁ s' _ _ ih ih' => exact ih.trans ih'

/-! ## A sample -/

namespace Sample

def ok : Line := ⟨ascii "HTTP/1.1 200 OK".toList, by decide +kernel⟩

def post : Line := ⟨ascii "POST / HTTP/1.1".toList, by decide +kernel⟩

def seven : Line := ⟨ascii "Content-Length: 7".toList, by decide +kernel⟩

def two : Line := ⟨ascii "content-length:2".toList, by decide +kernel⟩

/-- A field whose value ends inside a character. -/
def note : Line := ⟨ascii "X-Note: ".toList ++ [0xE2, 0x82], by decide +kernel⟩

def coding : Line := ⟨ascii "Transfer-Encoding: gzip,chunked".toList, by decide +kernel⟩

def capital : Line := ⟨ascii "TRANSFER-ENCODING: gzip,Chunked".toList, by decide +kernel⟩

def spaced : Line := ⟨ascii "TRANSFER-ENCODING : gzip\t, Chunked".toList, by decide +kernel⟩

end Sample

open Sample in
/-- A response and a request that frame their bodies alike. -/
theorem Section.edited_agrees_of_samples :
    Relation.EqvGen Edit ⟨ok, [seven, note, two, coding]⟩ ⟨post, [spaced, seven, two]⟩ ∧
      ofSection? (Section.bytes ⟨ok, [seven, note, two, coding]⟩) =
        ofSection? (Section.bytes ⟨post, [spaced, seven, two]⟩) ∧
      ofSection? (Section.bytes ⟨post, [spaced, seven, two]⟩) = some ⟨true, some 2, false⟩ := by
  have hnote : note.IsOther := by
    have hfield : note.field? = some ⟨"x-note".toList, [['\uFFFD']]⟩ := by decide +kernel
    rw [Line.IsOther, hfield]
    decide +kernel
  have hspaced : Respelled capital spaced := by
    have hspace : ∀ b ∈ ([0x20] : List UInt8), b = 0x20 ∨ b = 0x09 := by simp
    have htab : ∀ b ∈ ([0x09] : List UInt8), b = 0x20 ∨ b = 0x09 := by simp
    have hname : Spaced (ascii "TRANSFER-ENCODING".toList)
        (ascii "TRANSFER-ENCODING".toList ++ [0x20]) := .behind hspace
    have hgzip : Spaced (ascii " gzip".toList) (ascii " gzip".toList ++ [0x09]) := .behind htab
    have hchunked : Spaced (ascii "Chunked".toList) ([0x20] ++ ascii "Chunked".toList) :=
      .before hspace
    exact .spacing (by decide +kernel) hname (.cons hgzip (.cons hchunked .nil))
      (by decide +kernel) (by decide +kernel)
  have hstart : Edit ⟨ok, [seven, note, two, coding]⟩ ⟨post, [seven, note, two, coding]⟩ :=
    .startLine ok post
  have hinsert : Edit ⟨post, [seven] ++ [two, coding]⟩ ⟨post, [seven] ++ note :: [two, coding]⟩ :=
    .insert hnote
  have hreorder : Edit ⟨post, [seven, two] ++ [coding]⟩ ⟨post, [coding] ++ [seven, two]⟩ := by
    have hcoding : coding.isLength = false := by decide +kernel
    have hfilter : [coding].filter (·.isLength) = [] := by simp [hcoding]
    refine .reorder List.perm_append_comm ?_
    rw [List.filter_append, List.filter_append, hfilter, List.append_nil, List.nil_append]
  have hletters : Edit ⟨post, [] ++ coding :: [seven, two]⟩ ⟨post, [] ++ capital :: [seven, two]⟩ :=
    .respell (.letters (by decide +kernel))
  have hspacing : Edit ⟨post, [] ++ capital :: [seven, two]⟩ ⟨post, [] ++ spaced :: [seven, two]⟩ :=
    .respell hspaced
  have hedits : Relation.EqvGen Edit ⟨ok, [seven, note, two, coding]⟩
      ⟨post, [spaced, seven, two]⟩ :=
    .trans _ _ _ (.rel _ _ hstart) <| .trans _ _ _ (.symm _ _ (.rel _ _ hinsert)) <|
      .trans _ _ _ (.rel _ _ hreorder) <| .trans _ _ _ (.rel _ _ hletters) (.rel _ _ hspacing)
  exact ⟨hedits, edited_agrees.2.2 _ _ hedits, by decide +kernel⟩

end FlowRelay.Http.Header
