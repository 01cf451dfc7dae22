import FlowRelay.Proofs.Http.Segmentation
import FlowRelay.Proofs.Http.Sender

/-!
# FlowRelay.Proofs.Http.Decoding

What a sender writes is what a reassembler reads.

1. *Stretches of the stream* (`Message.Takes`): bytes that lead from one state to another in which
   nothing is held back, while none of their prefixes is refused.  They compose
   (`Takes.append`).
2. *Units* (`takes_upTo`, `takes_stretch`): a unit is taken once its end is there, and before that
   it is waited for.
3. *Messages* (`takes_bytes`): a message leads back in front of a header section and delivers its
   body.
4. *Streams* (`feed_encode`): so does a list of messages, however the stream is divided.
-/

namespace FlowRelay.Http

open Message (lineEnd headerEnd)
open Text (ascii)

/-! ## Marks -/

section

variable {xs ys mark : List UInt8} {b : UInt8}

/-- A mark does not occur before its first byte does. -/
theorem find?_append_of_notMem (h : b ∉ xs) (ys : List UInt8) :
    Bytes.find? (b :: mark) (xs ++ ys) = (Bytes.find? (b :: mark) ys).map (· + xs.length) := by
  induction xs with
  | nil => simp
  | cons x xs ih =>
      obtain ⟨hx, hxs⟩ : b ≠ x ∧ b ∉ xs := by simpa using h
      rw [List.cons_append, Bytes.find?_cons, ih hxs]
      simp [List.isPrefixOf, hx, Option.map_map, Function.comp_def, Nat.add_assoc]

/-- A mark of one byte occurs where the byte does first. -/
theorem find?_singleton (h : b ∉ xs) : Bytes.find? [b] (xs ++ [b]) = some xs.length := by
  rw [find?_append_of_notMem h, Bytes.find?_cons]
  simp

theorem headerEnd_eq : headerEnd = 0x0D :: [0x0A, 0x0D, 0x0A] := rfl

/-- A line end in front of a line is not where a header section ends. -/
theorem find?_lineEnd_append (hb : b ≠ 0x0D) (ys : List UInt8) :
    Bytes.find? headerEnd (lineEnd ++ b :: ys) =
      (Bytes.find? headerEnd (b :: ys)).map (· + lineEnd.length) := by
  have hb' : ((0x0D : UInt8) == b) = false := by simpa using hb.symm
  rw [headerEnd_eq, lineEnd, List.cons_append, List.cons_append, List.nil_append,
    Bytes.find?_cons, Bytes.find?_cons _ 0x0A]
  simp [List.isPrefixOf, hb', Option.map_map, Function.comp_def]

/-- Header lines are not empty, so the first empty line is the one behind them. -/
theorem find?_lines {text : List Char} {texts : List (List Char)}
    (h : ∀ t ∈ text :: texts, IsLine t) :
    ∃ front, (text :: texts).flatMap lineBytes ++ lineEnd = front ++ headerEnd ∧
      Bytes.find? headerEnd (front ++ headerEnd) = some front.length := by
  have hcr : (0x0D : UInt8) ∉ ascii text := (h text List.mem_cons_self).notMem_ascii (by decide)
  induction texts generalizing text with
  | nil =>
      have hhere : Bytes.find? headerEnd headerEnd = some 0 := by decide
      have hfind : Bytes.find? headerEnd (ascii text ++ headerEnd) = some (ascii text).length := by
        rw [headerEnd_eq] at hhere ⊢
        rw [find?_append_of_notMem hcr, hhere]
        simp
      exact ⟨ascii text, by simp [lineBytes, headerEnd], hfind⟩
  | cons next texts ih =>
      have hnext : IsLine next := h next (by simp)
      obtain ⟨front, hfront, hfind⟩ := ih (fun t ht => h t (List.mem_cons_of_mem _ ht))
        (hnext.notMem_ascii (by decide))
      obtain ⟨b, rest, hb, hne⟩ := hnext.exists_cons
      have hbehind : ∃ more, front ++ headerEnd = b :: more := by
        rw [← hfront, List.flatMap_cons, lineBytes, hb]
        exact ⟨_, rfl⟩
      obtain ⟨more, hmore⟩ := hbehind
      refine ⟨ascii text ++ (lineEnd ++ front), ?_, ?_⟩
      · rw [List.flatMap_cons, List.append_assoc, hfront]
        simp [lineBytes]
      · have hskip : Bytes.find? headerEnd (lineEnd ++ (front ++ headerEnd)) =
            some (front.length + lineEnd.length) := by
          rw [hmore, find?_lineEnd_append hne, ← hmore, hfind]
          rfl
        rw [headerEnd_eq] at hskip ⊢
        rw [List.append_assoc, List.append_assoc, find?_append_of_notMem hcr, hskip]
        simp only [Option.map_some, List.length_append, Option.some.injEq]
        omega

end

namespace Message

variable {m m' m₁ m₂ : Message} {x y : List UInt8} {found found₁ found₂ : List (List UInt8)}
  {body? : Option (List UInt8)}

/-! ## Stretches of the stream -/

/-- The bytes lead from one state to another, in which nothing is held back, and complete bodies.
None of their prefixes is refused. -/
structure Takes (m : Message) (x : List UInt8) (m' : Message) (found : List (List UInt8)) :
    Prop where
  scan_eq : m.scan x [] = .ok (⟨m', []⟩, found.reverse)
  scan_prefix : ∀ a, a <+: x → ∃ taken, m.scan a [] = .ok taken

namespace Takes

theorem nil (m : Message) : m.Takes [] m [] where
  scan_eq := scan_nil m []
  scan_prefix := by
    intro a ha
    obtain rfl := List.prefix_nil.mp ha
    exact ⟨_, scan_nil m []⟩

/-- Behind bytes that are taken, others are scanned as if they came first. -/
theorem scan_append_eq (h : m.Takes x m₁ found) (y : List UInt8) :
    m.scan (x ++ y) [] = (m₁.scan y []).map fun (r, more) => (r, more ++ found.reverse) := by
  rw [scan_append h.scan_eq, List.nil_append, scan_eq_map]

/-- Bytes may be taken one part after the other. -/
theorem append (h₁ : m.Takes x m₁ found₁) (h₂ : m₁.Takes y m₂ found₂) :
    m.Takes (x ++ y) m₂ (found₁ ++ found₂) where
  scan_eq := by
    rw [h₁.scan_append_eq, h₂.scan_eq, List.reverse_append]
    rfl
  scan_prefix := by
    intro a ha
    obtain ⟨b, hb⟩ := ha
    cases List.append_eq_append_iff.mp hb with
    | inl hfront =>
        obtain ⟨c, hx, -⟩ := hfront
        exact h₁.scan_prefix a ⟨c, hx.symm⟩
    | inr hbehind =>
        obtain ⟨c, rfl, hy⟩ := hbehind
        obtain ⟨taken, htaken⟩ := h₂.scan_prefix c ⟨b, hy.symm⟩
        rw [h₁.scan_append_eq, htaken]
        exact ⟨_, rfl⟩

/-- One unit: it is complete, and before its end is there it is not refused. -/
theorem unit (hunit : m.scanUnit x = .next m' [] body?)
    (hpart : ∀ a, a <+: x → a ≠ x → ∃ taken, m.scan a [] = .ok taken) :
    m.Takes x m' body?.toList := by
  have hscan : m.scan x [] = .ok (⟨m', []⟩, body?.toList.reverse) := by
    rw [scan_of_next hunit, scan_nil]
    cases body? <;> rfl
  refine ⟨hscan, fun a ha => ?_⟩
  by_cases heq : a = x
  · exact ⟨_, heq ▸ hscan⟩
  · exact hpart a ha heq

end Takes

/-! ## Units -/

/-- What ends with a mark is taken once the mark is there, and is waited for until then. -/
theorem takes_upTo {mark line : List UInt8} {limit : Nat} {overrun : FramingError}
    {next : List UInt8 → List UInt8 → Scan}
    (hscan : ∀ a, a <+: line ++ mark → m.scanUnit a = upTo mark limit overrun a next)
    (hmark : Bytes.find? mark (line ++ mark) = some line.length)
    (hlimit : (line ++ mark).length ≤ limit + 1) (hnext : next line [] = .next m' [] body?) :
    m.Takes (line ++ mark) m' body?.toList := by
  apply Takes.unit
  · rw [hscan _ (List.prefix_refl _), upTo, hmark]
    simp only [List.take_left, List.drop_of_length_le (Nat.le_of_eq List.length_append)]
    exact hnext
  · intro a ha hne
    have hlength : a.length < (line ++ mark).length := by
      have hle := ha.length_le
      have hne' : a.length ≠ (line ++ mark).length := fun h => hne (ha.eq_of_length h)
      omega
    have hnone : Bytes.find? mark a = none := by
      cases hsome : Bytes.find? mark a with
      | none => rfl
      | some n =>
          obtain ⟨b, hb⟩ := ha
          have hwhole := Bytes.find?_append_of_some hsome b
          have hend := Bytes.add_length_le_of_find? hsome
          rw [hb, hmark] at hwhole
          injection hwhole with hn
          simp only [List.length_append] at hlength
          omega
    have hwait : m.scanUnit a = .wait := by
      rw [hscan a ha, upTo, hnone]
      simp only
      rw [if_neg (by omega)]
    exact ⟨_, scan_of_wait hwait []⟩

/-- A stretch is taken as it comes. -/
theorem takes_stretch {left : Nat} {whole : List UInt8 → List UInt8 → Scan}
    {part : List UInt8 → Nat → Message}
    (hscan : ∀ bytes, m.scanUnit bytes = stretch left bytes whole part) (hlength : x.length = left)
    (hne : x ≠ []) (hwhole : whole x [] = .next m' [] body?) : m.Takes x m' body?.toList := by
  apply Takes.unit
  · rw [hscan, stretch, if_neg hne, if_pos (by omega), ← hlength, List.take_length,
      List.drop_length, hwhole]
  · intro a ha hpart
    by_cases hnil : a = []
    · exact ⟨_, hnil ▸ scan_nil m []⟩
    · have hle := ha.length_le
      have hlt : a.length ≠ x.length := fun h => hpart (ha.eq_of_length h)
      have hunit : m.scanUnit a = .next (part a (left - a.length)) [] none := by
        rw [hscan, stretch, if_neg hnil, if_neg (by omega)]
      exact ⟨_, (scan_of_next hunit []).trans (scan_nil _ _)⟩

/-- A line is taken once its line end is there. -/
theorem takes_line {content : List UInt8} {limit : Nat} {overrun : FramingError}
    {next : List UInt8 → List UInt8 → Scan}
    (hscan : ∀ bytes, m.scanUnit bytes = upTo [0x0A] limit overrun bytes next)
    (hlf : 0x0A ∉ content) (hlimit : (content ++ lineEnd).length ≤ limit + 1)
    (hnext : next (content ++ [0x0D]) [] = .next m' [] body?) :
    m.Takes (content ++ lineEnd) m' body?.toList := by
  have hline : content ++ lineEnd = (content ++ [0x0D]) ++ [0x0A] := by simp [lineEnd]
  rw [hline] at hlimit ⊢
  exact takes_upTo (fun a _ => hscan a) (find?_singleton (by simpa using hlf)) hlimit hnext

/-! ## Header sections -/

theorem takes_lineEnd : empty.Takes lineEnd empty [] := by
  have hunit : empty.scanUnit lineEnd = .next empty [] none := rfl
  refine Takes.unit hunit fun a ha hne => ?_
  have hpart : a = [] ∨ a = [0x0D] := by
    simp only [lineEnd, List.prefix_cons_iff, List.prefix_nil] at ha
    unfold lineEnd at hne
    grind
  cases hpart with
  | inl hnil => exact ⟨_, hnil ▸ scan_nil empty []⟩
  | inr hcr =>
      have hwait : empty.scanUnit a = .wait := by
        rw [hcr]
        rfl
      exact ⟨_, scan_of_wait hwait []⟩

/-- Empty lines in front of a message are passed over. -/
theorem takes_emptyLines (n : Nat) : empty.Takes (Outgoing.emptyLines n) empty [] := by
  induction n with
  | zero => exact Takes.nil empty
  | succ n ih =>
      rw [Outgoing.emptyLines, List.replicate_succ, List.flatten_cons]
      exact takes_lineEnd.append ih

/-- What a header section leads to is what it is meant to lead to. -/
theorem takes_head {o : Outgoing} (h : o.WellFormed)
    (hnext : empty.enter o.header [] = .next m' [] body?) :
    empty.Takes o.head m' body?.toList := by
  obtain ⟨front, hfront, hmark⟩ := find?_lines h.isLine
  have hhead : o.head = front ++ headerEnd := by rw [Outgoing.head_eq, Outgoing.texts, hfront]
  obtain ⟨b, rest, hb, hne⟩ := h.start.exists_cons
  have hstart : ∃ more, o.head = b :: more := by
    rw [Outgoing.head, lineBytes, hb]
    exact ⟨_, rfl⟩
  obtain ⟨more, hmore⟩ := hstart
  have hsection := Outgoing.ofSection?_head h
  have hle := h.head_le
  rw [hhead] at hmore hsection hle ⊢
  have hscan : ∀ a, a <+: front ++ headerEnd → empty.scanUnit a =
      upTo headerEnd maxHeaderSize .headerTooLarge a fun lines rest =>
        (Header.ofSection? (lines ++ headerEnd)).elim (.refuse .invalidContentLength)
          (empty.enter · rest) := by
    intro a ha
    have hline : lineEnd.isPrefixOf a = false := by
      rw [Bool.eq_false_iff, ne_eq, List.isPrefixOf_iff_prefix]
      intro hpre
      obtain ⟨c, hc⟩ := hpre.trans ha
      rw [hmore, lineEnd, List.cons_append] at hc
      injection hc with hcr
      exact hne hcr.symm
    change scanHeaders empty a = _
    rw [scanHeaders, hline, if_neg Bool.false_ne_true]
    congr 1
    funext lines rest
    cases Header.ofSection? (lines ++ headerEnd) <;> rfl
  refine takes_upTo hscan hmark hle ?_
  rw [hsection]
  exact hnext

/-! ## Chunks -/

/-- The CR in front of an LF does not belong to the line. -/
theorem trimCr_append (content : List UInt8) : trimCr (content ++ [0x0D]) = content := by
  simp [trimCr]

/-- A size line states what it is meant to state. -/
theorem chunkSize?_content {l : SizeLine} {size : Nat} (h : l.States size)
    (hsize : size ≤ maxNumber) : chunkSize? (l.content ++ [0x0D]) = some size := by
  have hascii : ∀ c ∈ l.digits, c.toNat < 128 := by
    intro c hc
    have hbounds := h.spells.bounds hc
    omega
  have hsemicolon : (0x3B : UInt8) ∉ ascii l.digits := by
    refine Text.notMem_ascii fun c hc => ?_
    have hbounds := h.spells.bounds hc
    simp
    omega
  have htake : l.content.takeWhile (· ≠ 0x3B) = ascii l.digits := by
    have hdigits : ∀ b ∈ ascii l.digits, decide (b ≠ 0x3B) = true := by
      intro b hb
      simpa using ne_of_mem_of_not_mem hb hsemicolon
    rw [SizeLine.content, List.takeWhile_append_of_pos hdigits]
    cases l.extension? <;> simp
  have hblank : Text.trim l.digits = l.digits :=
    Text.trim_eq_self fun c hc => h.spells.isBlank_eq_false hc
  simp only [chunkSize?, trimCr_append, htake, Text.Utf8.decode?_ascii hascii, hblank,
    h.spells.readNumeral hsize]
  rfl

/-- There is no LF within a size line. -/
theorem notMem_content {l : SizeLine} {size : Nat} (h : l.States size) : 0x0A ∉ l.content := by
  have hdigits : (0x0A : UInt8) ∉ ascii l.digits := by
    refine Text.notMem_ascii fun c hc => ?_
    have hbounds := h.spells.bounds hc
    simp
    omega
  rw [SizeLine.content, List.mem_append, not_or]
  refine ⟨hdigits, ?_⟩
  cases he : l.extension? with
  | none => simp
  | some e => simpa using h.extension e he

/-- A size line says how much data the chunk has. -/
theorem takes_sizeLine {l : SizeLine} {size : Nat} {body : List UInt8} {gzip : Bool}
    (h : l.States size) (hsize : size ≤ maxNumber)
    (hnext : enterChunk ⟨.chunkSize, body, gzip⟩ size [] = .next m' [] body?) :
    Takes ⟨.chunkSize, body, gzip⟩ l.bytes m' body?.toList := by
  have hscan : ∀ bytes, scanUnit ⟨.chunkSize, body, gzip⟩ bytes =
      upTo [0x0A] maxLineSize .lineTooLong bytes fun line rest =>
        (chunkSize? line).elim (.refuse .invalidChunkSize)
          (enterChunk ⟨.chunkSize, body, gzip⟩ · rest) := by
    intro bytes
    change scanChunkSize _ bytes = _
    unfold scanChunkSize
    congr 1
    funext line rest
    cases chunkSize? line <;> rfl
  refine takes_line hscan (notMem_content h) h.length_le ?_
  rw [chunkSize?_content h hsize]
  exact hnext

/-- The data of a chunk is appended to the body. -/
theorem takes_chunkData {data body : List UInt8} {gzip : Bool} (h : data ≠ []) :
    Takes ⟨.chunkData data.length, body, gzip⟩ data
      ⟨.chunkEnd lineEnd.length, data.reverse ++ body, gzip⟩ [] := by
  have hscan : ∀ bytes, scanUnit ⟨.chunkData data.length, body, gzip⟩ bytes =
      stretch data.length bytes
        (fun got rest => .next ⟨.chunkEnd lineEnd.length, got.reverse ++ body, gzip⟩ rest none)
        fun got left => ⟨.chunkData left, got.reverse ++ body, gzip⟩ := fun _ => rfl
  exact takes_stretch hscan rfl h rfl

/-- The line end behind a chunk is passed over. -/
theorem takes_chunkEnd {body : List UInt8} {gzip : Bool} :
    Takes ⟨.chunkEnd lineEnd.length, body, gzip⟩ lineEnd ⟨.chunkSize, body, gzip⟩ [] := by
  have hscan : ∀ bytes, scanUnit ⟨.chunkEnd lineEnd.length, body, gzip⟩ bytes =
      stretch lineEnd.length bytes (fun _ rest => .next ⟨.chunkSize, body, gzip⟩ rest none)
        fun _ left => ⟨.chunkEnd left, body, gzip⟩ := fun _ => rfl
  exact takes_stretch hscan rfl (by decide) rfl

/-- A chunk is taken as a whole. -/
theorem takes_chunk {c : Chunk} {body : List UInt8} {gzip : Bool} (h : c.WellFormed)
    (hbody : body.length + c.data.length ≤ maxBodySize) :
    Takes ⟨.chunkSize, body, gzip⟩ c.bytes ⟨.chunkSize, c.data.reverse ++ body, gzip⟩ [] := by
  have hpos := List.length_pos_iff.mpr h.nonempty
  have hmax : maxBodySize ≤ maxNumber := by decide
  have henter : enterChunk ⟨.chunkSize, body, gzip⟩ c.data.length [] =
      .next ⟨.chunkData c.data.length, body, gzip⟩ [] none := by
    rw [enterChunk, if_neg (by omega), if_neg (by simp only; omega)]
  have hline : Takes ⟨.chunkSize, body, gzip⟩ c.line.bytes
      ⟨.chunkData c.data.length, body, gzip⟩ [] := takes_sizeLine h.states (by omega) henter
  exact hline.append ((takes_chunkData h.nonempty).append takes_chunkEnd)

/-- Chunks are taken one after the other, and their data is joined. -/
theorem takes_chunks {chunks : List Chunk} {body : List UInt8} {gzip : Bool}
    (h : ∀ c ∈ chunks, c.WellFormed)
    (hbody : body.length + (chunks.flatMap (·.data)).length ≤ maxBodySize) :
    Takes ⟨.chunkSize, body, gzip⟩ (chunks.flatMap (·.bytes))
      ⟨.chunkSize, (chunks.flatMap (·.data)).reverse ++ body, gzip⟩ [] := by
  induction chunks generalizing body with
  | nil => exact Takes.nil _
  | cons c chunks ih =>
      rw [List.flatMap_cons, List.length_append] at hbody
      have hfirst : Takes ⟨.chunkSize, body, gzip⟩ c.bytes
          ⟨.chunkSize, c.data.reverse ++ body, gzip⟩ [] :=
        takes_chunk (h c List.mem_cons_self) (by omega)
      have hlength : (c.data.reverse ++ body).length + (chunks.flatMap (·.data)).length ≤
          maxBodySize := by
        rw [List.length_append, List.length_reverse]
        omega
      have hrest := ih (fun c hc => h c (List.mem_cons_of_mem _ hc)) hlength
      simpa using hfirst.append hrest

/-! ## Trailers -/

section

variable {body : List UInt8} {gzip : Bool}

/-- Trailers are read line by line up to an empty one. -/
theorem scanUnit_trailers (body : List UInt8) (gzip : Bool) (bytes : List UInt8) :
    scanUnit ⟨.trailers, body, gzip⟩ bytes =
      upTo [0x0A] maxHeaderSize .trailerTooLarge bytes fun line rest =>
        if (trimCr line).isEmpty then finish ⟨.trailers, body, gzip⟩ rest
        else .next ⟨.trailers, body, gzip⟩ rest none := rfl

theorem takes_trailer {text : List Char} (h : IsLine text)
    (hlength : (lineBytes text).length ≤ maxHeaderSize + 1) :
    Takes ⟨.trailers, body, gzip⟩ (lineBytes text) ⟨.trailers, body, gzip⟩ [] := by
  have hempty : (ascii text).isEmpty = false := by simpa [ascii] using h.nonempty
  have hnext : (if (trimCr (ascii text ++ [0x0D])).isEmpty then
      finish ⟨.trailers, body, gzip⟩ [] else .next ⟨.trailers, body, gzip⟩ [] none) =
      .next ⟨.trailers, body, gzip⟩ [] none := by
    rw [trimCr_append, hempty]
    rfl
  exact takes_line (scanUnit_trailers body gzip) (h.notMem_ascii (by decide)) hlength hnext

/-- Trailers are passed over. -/
theorem takes_trailers {texts : List (List Char)}
    (h : ∀ t ∈ texts, IsLine t ∧ (lineBytes t).length ≤ maxHeaderSize + 1) :
    Takes ⟨.trailers, body, gzip⟩ (texts.flatMap lineBytes) ⟨.trailers, body, gzip⟩ [] := by
  induction texts with
  | nil => exact Takes.nil _
  | cons t texts ih =>
      obtain ⟨hline, hlength⟩ := h t List.mem_cons_self
      rw [List.flatMap_cons]
      exact (takes_trailer hline hlength).append (ih fun t ht => h t (List.mem_cons_of_mem _ ht))

/-- The empty line behind the trailers ends the message. -/
theorem takes_lastLine (body : List UInt8) (gzip : Bool) :
    Takes ⟨.trailers, body, gzip⟩ lineEnd empty (decoded gzip body.reverse).toList :=
  takes_line (scanUnit_trailers body gzip) List.not_mem_nil (by decide) rfl

end

/-! ## Messages -/

/-- A body of fixed length is taken as it is. -/
theorem takes_fixed {data : List UInt8} {gzip : Bool} (h : data ≠ []) :
    Takes ⟨.fixed data.length, [], gzip⟩ data empty (decoded gzip data).toList := by
  have hscan : ∀ bytes, scanUnit ⟨.fixed data.length, [], gzip⟩ bytes =
      stretch data.length bytes (fun got => finish ⟨.fixed data.length, got.reverse ++ [], gzip⟩)
        fun got left => ⟨.fixed left, got.reverse ++ [], gzip⟩ := fun _ => rfl
  refine takes_stretch hscan rfl h ?_
  simp [finish]

/-- A chunked body is taken as the data of its chunks. -/
theorem takes_chunked {chunks : List Chunk} {last : SizeLine} {trailers : List (List Char)}
    {gzip : Bool} (h : (Body.chunked chunks last trailers).WellFormed)
    (hlength : (chunks.flatMap (·.data)).length ≤ maxBodySize) :
    Takes ⟨.chunkSize, [], gzip⟩ (Body.chunked chunks last trailers).bytes empty
      (decoded gzip (chunks.flatMap (·.data))).toList := by
  obtain ⟨hchunks, hlast, htrailers⟩ := h
  have hdata : Takes ⟨.chunkSize, [], gzip⟩ (chunks.flatMap (·.bytes))
      ⟨.chunkSize, (chunks.flatMap (·.data)).reverse ++ [], gzip⟩ [] :=
    takes_chunks hchunks (by simpa using hlength)
  rw [List.append_nil] at hdata
  have hzero := takes_sizeLine hlast (Nat.zero_le _)
    (show enterChunk ⟨.chunkSize, (chunks.flatMap (·.data)).reverse, gzip⟩ 0 [] =
      .next ⟨.trailers, (chunks.flatMap (·.data)).reverse, gzip⟩ [] none from rfl)
  have hend : Takes ⟨.trailers, (chunks.flatMap (·.data)).reverse, gzip⟩ lineEnd empty
      (decoded gzip (chunks.flatMap (·.data))).toList := by
    have hlast := takes_lastLine (chunks.flatMap (·.data)).reverse gzip
    rwa [List.reverse_reverse] at hlast
  exact hdata.append (hzero.append ((takes_trailers htrailers).append hend))

/-- A header section that states a length leads to a body of that length. -/
theorem enter_sized {n : Nat} {gzip : Bool} (hn : n ≠ 0) (hmax : n ≤ maxBodySize) :
    empty.enter ⟨false, some n, gzip⟩ [] = .next ⟨.fixed n, [], gzip⟩ [] none := by
  cases n with
  | zero => contradiction
  | succ n =>
      simp only [enter, Bool.false_eq_true, if_false]
      rw [if_neg (by omega)]
      rfl

/-- The body that is delivered is the one that is to be received. -/
theorem decoded_eq (o : Outgoing) : decoded o.isGzip o.body.data = o.received? := by
  simp [decoded, Outgoing.received?, List.isPrefixOf_iff_prefix]

/-- **Messages**: a message leads back in front of a header section, with its body delivered. -/
theorem takes_bytes {o : Outgoing} (h : o.WellFormed) :
    empty.Takes o.bytes empty o.received?.toList := by
  suffices hmessage : empty.Takes (o.head ++ o.body.bytes) empty o.received?.toList from
    (takes_emptyLines o.gap).append hmessage
  have hframed := h.framedBy
  have hwell := h.body
  have hmax := h.data_le
  rw [← decoded_eq]
  cases hbody : o.body with
  | absent =>
      rw [hbody] at hframed
      have henter : empty.enter o.header [] = .next empty [] none := by
        rw [Outgoing.header, hframed.1, hframed.2]
        rfl
      exact (takes_head h henter).append (Takes.nil empty)
  | sized data =>
      rw [hbody] at hframed hmax
      by_cases hdata : data = []
      · have henter : empty.enter o.header [] = .next empty [] none := by
          rw [Outgoing.header, hframed.1, hframed.2, hdata]
          rfl
        rw [hdata]
        exact (takes_head h henter).append (Takes.nil empty)
      · have hlength : data.length ≠ 0 := by simpa using hdata
        have henter : empty.enter o.header [] =
            .next ⟨.fixed data.length, [], o.isGzip⟩ [] none := by
          rw [Outgoing.header, hframed.1, hframed.2]
          exact enter_sized hlength hmax
        exact (takes_head h henter).append (takes_fixed hdata)
  | chunked chunks last trailers =>
      rw [hbody] at hframed hwell hmax
      have henter : empty.enter o.header [] = .next ⟨.chunkSize, [], o.isGzip⟩ [] none := by
        rw [Outgoing.header, show o.lines.any (·.isChunked) = true from hframed]
        rfl
      exact (takes_head h henter).append (takes_chunked hwell hmax)

/-! ## Streams -/

/-- A stream of well-formed messages is taken message by message. -/
theorem takes_encode {messages : List Outgoing} (h : ∀ o ∈ messages, o.WellFormed) (extra : Nat) :
    empty.Takes (encode messages extra) empty (messages.filterMap (·.received?)) := by
  induction messages with
  | nil => exact takes_emptyLines extra
  | cons o messages ih =>
      have hfirst := takes_bytes (h o List.mem_cons_self)
      have hrest := ih fun o ho => h o (List.mem_cons_of_mem _ ho)
      have hreceived : (o :: messages).filterMap (·.received?) =
          o.received?.toList ++ messages.filterMap (·.received?) := by
        cases ho : o.received? <;> simp [ho]
      rw [hreceived, encode, List.flatMap_cons, List.append_assoc]
      exact hfirst.append hrest

end Message

namespace Reassembler

/-- Push pieces one after the other, up to the first that is refused, and collect the bodies. -/
def feed (r : Reassembler) : List (List UInt8) →
    Except FramingError (Reassembler × List (List UInt8))
  | [] => .ok (r, [])
  | piece :: pieces =>
    match r.push piece with
    | (_, .error e) => .error e
    | (r, .ok bodies) => (feed r pieces).map fun (r, more) => (r, bodies ++ more)

variable {m m' : Message} {x : List UInt8} {all : List (List UInt8)}

/-- Bytes that are taken as a whole are taken in pieces. -/
theorem feed_of_takes (h : m.Takes x m' all) {before : List UInt8} {pieces : List (List UInt8)}
    {r : Reassembler} {found : List (List UInt8)} (hx : before ++ pieces.flatten = x)
    (hbefore : m.scan before [] = .ok (r, found.reverse)) :
    ∃ more, r.feed pieces = .ok (⟨m', []⟩, more) ∧ found ++ more = all := by
  induction pieces generalizing before r found with
  | nil =>
      rw [List.flatten_nil, List.append_nil] at hx
      rw [hx, h.scan_eq] at hbefore
      injection hbefore with hbefore
      injection hbefore with hr hfound
      subst hr
      exact ⟨[], rfl, by simpa using (List.reverse_inj.mp hfound).symm⟩
  | cons piece pieces ih =>
      rw [List.flatten_cons, ← List.append_assoc] at hx
      obtain ⟨⟨r', found'⟩, htaken⟩ := h.scan_prefix (before ++ piece) ⟨_, hx⟩
      have hscan := htaken
      rw [Message.scan_append hbefore, Message.scan_eq_map] at hscan
      cases hpiece : r.message.scan (r.held ++ piece) [] with
      | error e =>
          rw [hpiece] at hscan
          contradiction
      | ok taken =>
          obtain ⟨r'', bodies⟩ := taken
          rw [hpiece] at hscan
          injection hscan with hscan
          injection hscan with hr hfound
          subst hr hfound
          have hbefore' : m.scan (before ++ piece) [] =
              .ok (r'', (found ++ bodies.reverse).reverse) := by
            rw [htaken, List.reverse_append, List.reverse_reverse]
          obtain ⟨more, hmore, hall⟩ := ih hx hbefore'
          have hpush : r.push piece = (r'', .ok bodies.reverse) := by
            rw [push, push?, hpiece]
            rfl
          refine ⟨bodies.reverse ++ more, ?_, ?_⟩
          · rw [feed, hpush]
            simp only [hmore]
            rfl
          · rw [← hall, List.append_assoc]

/-- **Streams**: however the stream of a list of messages is divided, every piece of it is taken,
the bodies are delivered in the order of the messages, and nothing is left over. -/
theorem feed_encode {messages : List Outgoing} (h : ∀ o ∈ messages, o.WellFormed) (extra : Nat)
    {pieces : List (List UInt8)} (hpieces : pieces.flatten = encode messages extra) :
    empty.feed pieces = .ok (empty, messages.filterMap (·.received?)) := by
  have hstart : Message.empty.scan [] [] = .ok (empty, [].reverse) := Message.scan_nil _ []
  obtain ⟨more, hmore, hall⟩ := feed_of_takes (Message.takes_encode h extra)
    (by simpa using hpieces) hstart
  rw [← hall]
  exact hmore

/-- A request of stated length behind an empty line, and a response in chunks. -/
def exchange : List Outgoing :=
  [{ gap := 1
     start := "POST / HTTP/1.1".toList
     lines := [.other "Host: a".toList, .length "Content-Length".toList " 02".toList 2]
     body := .sized [0x68, 0x69] },
   { gap := 0
     start := "HTTP/1.1 200 OK".toList
     lines := [.chunked "TRANSFER-encoding".toList " Chunked".toList]
     body := .chunked [⟨⟨"2".toList, some [0x78, 0x0D]⟩, [0x0A, 0x21]⟩] ⟨"00".toList, none⟩
       ["X: y".toList] }]

/-- The messages of the sample are well formed. -/
theorem exchange_wellFormed : ∀ o ∈ exchange, o.WellFormed := by
  have htwo : Text.Spells 10 ['0', '2'] 2 :=
    .more (.digit (show Text.digit? 10 '0' = some 0 by decide))
      (show Text.digit? 10 '2' = some 2 by decide)
  have hzero : Text.Spells 16 ['0', '0'] 0 :=
    .more (.digit (show Text.digit? 16 '0' = some 0 by decide))
      (show Text.digit? 16 '0' = some 0 by decide)
  have hsize : Text.Spells 16 ['2'] 2 := .digit (by decide)
  have hnormal : Header.normal " 02".toList = ['0', '2'] := by decide
  simp only [exchange, List.forall_mem_cons]
  refine ⟨?request, ?response, by simp⟩
  case request =>
    have hhost : (HeaderLine.other "Host: a".toList).WellFormed :=
      ⟨by decide, fun _ => by decide⟩
    have hlength : (HeaderLine.length "Content-Length".toList " 02".toList 2).WellFormed :=
      ⟨by decide, by decide, by decide, hnormal ▸ htwo, by decide⟩
    have hlines := List.forall_mem_cons.mpr ⟨hhost, List.forall_mem_singleton.mpr hlength⟩
    exact ⟨by decide, hlines, by decide, ⟨rfl, rfl⟩, trivial, by decide⟩
  case response =>
    have hcoding : (HeaderLine.chunked "TRANSFER-encoding".toList " Chunked".toList).WellFormed :=
      ⟨by decide, by decide, by decide, by decide⟩
    have hchunk : Chunk.WellFormed ⟨⟨"2".toList, some [0x78, 0x0D]⟩, [0x0A, 0x21]⟩ :=
      ⟨by decide, hsize, by simp, by decide⟩
    have hlast : SizeLine.States ⟨"00".toList, none⟩ 0 := ⟨hzero, by simp, by decide⟩
    have htrailer : IsLine "X: y".toList ∧
        (lineBytes "X: y".toList).length ≤ maxHeaderSize + 1 :=
      ⟨by decide, by decide⟩
    exact ⟨by decide, List.forall_mem_singleton.mpr hcoding, by decide, rfl,
      ⟨List.forall_mem_singleton.mpr hchunk, hlast, List.forall_mem_singleton.mpr htrailer⟩,
      by decide⟩

/-- The sample in two pushes. -/
theorem feed_exchange :
    empty.feed [(encode exchange 1).take 30, (encode exchange 1).drop 30] =
      .ok (empty, [[0x68, 0x69], [0x0A, 0x21]]) :=
  feed_encode exchange_wellFormed 1 (by simp)

end Reassembler

end FlowRelay.Http
