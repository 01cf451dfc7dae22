import Mathlib.Data.List.Forall2
import FlowRelay.Proofs.Http.Limits
import FlowRelay.Proofs.Text.Numeral

/-!
# FlowRelay.Proofs.Http.Numbers

Which numbers are accepted in the framing of a stream, and as which.

1. *Sizes* (`chunkSize?_eq_some_iff`): a chunk size line states what its hexadecimal digits denote.
2. *Lengths* (`Header.foldlM_addLine_lengths`): every length in a header section has to be a number,
   and the last one counts.
3. *Streams* (`push_framingNumbers`): so the numbers decide how a stream goes on, and whatever is
   not a number is refused.
4. *Signs* (`push_signedNumbers`): a number may also have a plus sign in front.
-/

namespace FlowRelay.Http

open Message (lineEnd headerEnd)

/-- A text is accepted as a number: digits that denote it, with blanks around them, and perhaps a
plus sign in front. -/
def Reads (base : Nat) (text : List Char) (n : Nat) : Prop :=
  Text.Shows base maxNumber [] text n ∨ Text.Shows base maxNumber ['+'] text n

variable {base n : Nat} {text : List Char}

/-- A trimmed text is read as a numeral if it is one between blanks. -/
theorem readNumeral_toOption (hbase : base ≤ 16) :
    (Text.readNumeral base maxNumber (Text.trim text)).toOption = some n ↔ Reads base text n := by
  rw [Reads, ← Text.readNumeral_trim_eq_ok_iff hbase]
  cases Text.readNumeral base maxNumber (Text.trim text) with
  | error e => exact ⟨nofun, nofun⟩
  | ok n' => simp [Except.toOption]

/-! ## Sizes -/

/-- What a chunk size line says in front of its extension, unless that is no text. -/
def sizeText? (line : List UInt8) : Option (List Char) :=
  Text.Utf8.decode? ((trimCr line).takeWhile (· ≠ 0x3B))

/-- **Sizes**: a line states the number that it shows in front of its extension. -/
theorem chunkSize?_eq_some_iff {line : List UInt8} :
    chunkSize? line = some n ↔ ∃ text ∈ sizeText? line, Reads 16 text n := by
  rw [chunkSize?, sizeText?]
  cases Text.Utf8.decode? ((trimCr line).takeWhile (· ≠ 0x3B)) with
  | none => simp
  | some text => simp [readNumeral_toOption]

/-- A line is refused as a chunk size if its text is no numeral. -/
theorem chunkSize?_eq_none {line : List UInt8}
    (h : ∀ text ∈ sizeText? line, ∀ n, ¬ Reads 16 text n) : chunkSize? line = none := by
  rw [Option.eq_none_iff_forall_not_mem]
  intro n hn
  obtain ⟨text, htext, hreads⟩ := chunkSize?_eq_some_iff.mp hn
  exact h text htext n hreads

/-! ## Lengths -/

namespace Header

/-- A line in front of its first colon and behind it. -/
def cut? (line : List Char) : Option (List Char × List Char) :=
  match line.span (· ≠ ':') with
  | (name, _ :: value) => some (name, value)
  | (_, []) => none

/-- The value of a line that states a length. -/
def lengthText? (line : List Char) : Option (List Char) :=
  (cut? line).bind fun (name, value) =>
    if normal name = "content-length".toList then some value else none

/-- The values of the lines of a header section that state a length. -/
def lengthTexts (bytes : List UInt8) : List (List Char) :=
  ((lines (Text.Utf8.decodeLossy bytes)).drop 1).filterMap lengthText?

variable {line value : List Char} {ls : List (List Char)}

theorem add_length (header : Header) (value : List Char) :
    header.add "content-length".toList value =
      (Text.readNumeral 10 maxNumber value).toOption.map fun n =>
        { header with contentLength := some n } := by
  have hother : "content-length".toList ≠ "transfer-encoding".toList := by decide
  rw [add, if_neg hother, if_pos rfl]
  cases Text.readNumeral 10 maxNumber value <;> rfl

theorem field?_eq (line : List Char) :
    field? line = (cut? line).map fun (name, value) => (normal name, normal value) := by
  unfold field? cut?
  rcases line.span (· ≠ ':') with ⟨name, _ | ⟨colon, value⟩⟩ <;> rfl

/-- A line that states a length sets the length of the header. -/
theorem addLine_of_lengthText? (h : lengthText? line = some value) (header : Header) :
    header.addLine line =
      (Text.readNumeral 10 maxNumber (Text.trim value)).toOption.map fun n =>
        { header with contentLength := some n } := by
  obtain ⟨⟨name, value'⟩, hcut, hvalue⟩ := Option.bind_eq_some_iff.mp h
  simp only [Option.ite_none_right_eq_some, Option.some.injEq] at hvalue
  obtain ⟨hname, rfl⟩ := hvalue
  rw [addLine, field?_eq, hcut, Option.map_some]
  simp only [hname, add_length]
  rw [normal, Text.readNumeral_lowerAscii]

/-- Any other line is accepted, and leaves the length as it is. -/
theorem addLine_of_not_length (h : lengthText? line = none) (header : Header) :
    ∃ header', header.addLine line = some header' ∧
      header'.contentLength = header.contentLength := by
  rw [addLine, field?_eq]
  cases hcut : cut? line with
  | none => exact ⟨header, rfl, rfl⟩
  | some field =>
      obtain ⟨name, value⟩ := field
      have hname : normal name ≠ "content-length".toList := by
        intro heq
        rw [lengthText?, hcut, Option.bind_some] at h
        simp only [if_pos heq] at h
        contradiction
      rw [Option.map_some]
      simp only [add, if_neg hname]
      split
      · exact ⟨_, rfl, rfl⟩
      · split <;> exact ⟨_, rfl, rfl⟩

/-- **Lengths**: lines are refused for a length that is no number.  Otherwise the last one of the
lengths that they state counts. -/
theorem foldlM_addLine_lengths (ls : List (List Char)) (header : Header) :
    (∃ value ∈ ls.filterMap lengthText?, (∀ n, ¬ Reads 10 value n) ∧
      ls.foldlM addLine header = none) ∨
    ∃ header' ns, ls.foldlM addLine header = some header' ∧
      List.Forall₂ (Reads 10) (ls.filterMap lengthText?) ns ∧
      header'.contentLength = ns.getLast?.or header.contentLength := by
  induction ls generalizing header with
  | nil => exact .inr ⟨header, [], rfl, .nil, rfl⟩
  | cons line ls ih =>
      rw [List.foldlM_cons]
      cases hline : lengthText? line with
      | none =>
          obtain ⟨header₁, hadd, hsame⟩ := addLine_of_not_length hline header
          rw [List.filterMap_cons_none hline, hadd, ← hsame]
          exact ih header₁
      | some value =>
          rw [List.filterMap_cons_some hline, addLine_of_lengthText? hline]
          cases hvalue : (Text.readNumeral 10 maxNumber (Text.trim value)).toOption with
          | none =>
              refine .inl ⟨value, List.mem_cons_self, fun n hreads => ?_, rfl⟩
              rw [← readNumeral_toOption (by decide), hvalue] at hreads
              contradiction
          | some n =>
              have hreads := (readNumeral_toOption (by decide)).mp hvalue
              rcases ih { header with contentLength := some n } with
                ⟨value', hmem, hnone, hfold⟩ | ⟨header', ns, hfold, hns, hlast⟩
              · exact .inl ⟨value', List.mem_cons_of_mem _ hmem, hnone, hfold⟩
              · refine .inr ⟨header', n :: ns, hfold, .cons hreads hns, ?_⟩
                rw [hlast, List.getLast?_cons, Option.some_or]
                cases ns.getLast? <;> rfl

/-- A section with a length that is no number is refused. -/
theorem ofSection?_eq_none {bytes : List UInt8} (hvalue : value ∈ lengthTexts bytes)
    (hnone : ∀ n, ¬ Reads 10 value n) : ofSection? bytes = none := by
  rcases foldlM_addLine_lengths ((lines (Text.Utf8.decodeLossy bytes)).drop 1) empty with
    ⟨-, -, -, hfold⟩ | ⟨header, ns, -, hns, -⟩
  · exact hfold
  · obtain ⟨i, hi, rfl⟩ := List.mem_iff_getElem.mp hvalue
    exact absurd (hns.get hi (hns.length_eq ▸ hi)) (hnone _)

/-- A section whose lengths are numbers is understood, and the last one counts. -/
theorem exists_ofSection? {bytes : List UInt8}
    (h : ∀ value ∈ lengthTexts bytes, ∃ n, Reads 10 value n) :
    ∃ header ns, ofSection? bytes = some header ∧
      List.Forall₂ (Reads 10) (lengthTexts bytes) ns ∧ header.contentLength = ns.getLast? := by
  rcases foldlM_addLine_lengths ((lines (Text.Utf8.decodeLossy bytes)).drop 1) empty with
    ⟨value, hvalue, hnone, -⟩ | ⟨header, ns, hfold, hns, hlast⟩
  · obtain ⟨n, hreads⟩ := h value hvalue
    exact absurd hreads (hnone n)
  · exact ⟨header, ns, hfold, hns, hlast.trans (Option.or_none ..)⟩

end Header

/-! ## Units -/

/-- Bytes are one header section, up to its end. -/
def IsSection (bytes : List UInt8) : Prop :=
  ¬ lineEnd <+: bytes ∧
    ∃ lines, bytes = lines ++ headerEnd ∧ Bytes.find? headerEnd bytes = some lines.length

namespace Message

variable {m : Message} {line bytes : List UInt8}

/-- A chunk size line is taken up to its line feed. -/
theorem scanUnit_sizeLine (hm : m.framing = .chunkSize) (hline : 0x0A ∉ line)
    (behind : List UInt8) : m.scanUnit (line ++ 0x0A :: behind) =
      (chunkSize? line).elim (.refuse .invalidChunkSize) (m.enterChunk · behind) := by
  have hfind : Bytes.find? [0x0A] (line ++ 0x0A :: behind) = some line.length := by
    rw [find?_append_of_notMem hline, Bytes.find?_cons]
    simp
  simp only [scanUnit, hm, scanChunkSize, upTo, hfind, List.take_left]
  rw [show line ++ 0x0A :: behind = (line ++ [0x0A]) ++ behind by simp, List.drop_left' (by simp)]
  cases chunkSize? line <;> rfl

/-- A header section is taken up to its end. -/
theorem scanUnit_section (hm : m.framing = .headers) (h : IsSection bytes) (behind : List UInt8) :
    m.scanUnit (bytes ++ behind) =
      (Header.ofSection? bytes).elim (.refuse .invalidContentLength) (m.enter · behind) := by
  obtain ⟨hapart, lines, rfl, hfind⟩ := h
  have hlength : lineEnd.length ≤ (lines ++ headerEnd).length := by
    simp only [headerEnd, List.length_append]
    omega
  have hstart : lineEnd.isPrefixOf (lines ++ headerEnd ++ behind) = false := by
    rw [isPrefixOf_append (.inr hlength), Bool.eq_false_iff, ne_eq, List.isPrefixOf_iff_prefix]
    exact hapart
  simp only [scanUnit, hm, scanHeaders, hstart, Bool.false_eq_true, if_false, upTo,
    Bytes.find?_append_of_some hfind]
  rw [List.append_assoc, List.take_left, ← List.append_assoc, List.drop_left' (by simp)]
  cases Header.ofSection? (lines ++ headerEnd) <;> rfl

end Message

/-! ## Streams -/

namespace Reassembler

variable {r r₀ : Reassembler} {front x : List UInt8} {bodies : List (List UInt8)}

/-- Behind bytes that are taken, a unit that is refused refuses the piece. -/
theorem push_append_of_refuse {e : FramingError} (hfront : r₀.push? front = .ok (r, bodies))
    (hunit : r.message.scanUnit (r.held ++ x) = .refuse e) :
    r₀.push (front ++ x) = (empty, .error e) := by
  refine push_of_error ?_
  rw [push?_append hfront, push?, Message.scan_of_refuse hunit]
  rfl

/-- Behind bytes that are taken, a unit that is taken leads to what it leads to. -/
theorem push_append_of_next {m : Message} (hfront : r₀.push? front = .ok (r, bodies))
    (hunit : r.message.scanUnit (r.held ++ x) = .next m [] none) :
    r₀.push (front ++ x) = (⟨m, []⟩, .ok bodies) := by
  refine push_of_ok ?_
  rw [push?_append hfront, push?, Message.scan_of_next hunit, Message.scan_nil]
  simp [Except.map]

/-- What a push that succeeds leaves is within the limits. -/
theorem bounded_of_push? (h : r₀.Bounded) (hfront : r₀.push? front = .ok (r, bodies)) :
    r.Bounded := by
  have hpush := (bounded_push h front).1
  rwa [push_of_ok hfront] at hpush

/-- How a stream goes on behind a chunk size line that states a size. -/
def sized (r : Reassembler) (n : Nat) (bodies : List (List UInt8)) :
    Reassembler × Except FramingError (List (List UInt8)) :=
  if n = 0 then (⟨{ r.message with framing := .trailers }, []⟩, .ok bodies)
  else if r.message.body.length + n ≤ maxBodySize then
    (⟨{ r.message with framing := .chunkData n }, []⟩, .ok bodies)
  else (empty, .error .bodyTooLarge)

/-- How a stream goes on behind a header section whose last length, if any, is so many bytes. -/
def headed (header : Header) (n : Nat) (bodies : List (List UInt8)) :
    Reassembler × Except FramingError (List (List UInt8)) :=
  if header.chunked then (⟨⟨.chunkSize, [], header.gzip⟩, []⟩, .ok bodies)
  else if n = 0 then (empty, .ok bodies)
  else if n ≤ maxBodySize then (⟨⟨.fixed n, [], header.gzip⟩, []⟩, .ok bodies)
  else (empty, .error .bodyTooLarge)

/-- A size line is pushed as the chunk that it announces. -/
theorem push_enterChunk {n : Nat} (hfront : r₀.push? front = .ok (r, bodies))
    (hunit : r.message.scanUnit (r.held ++ x) = r.message.enterChunk n []) :
    r₀.push (front ++ x) = r.sized n bodies := by
  unfold Message.enterChunk at hunit
  unfold sized
  split at hunit
  · next hzero =>
      rw [if_pos hzero]
      exact push_append_of_next hfront hunit
  · next hzero =>
      rw [if_neg hzero]
      split at hunit
      · next hlarge =>
          rw [if_neg (by omega)]
          exact push_append_of_refuse hfront hunit
      · next hfits =>
          rw [if_pos (by omega)]
          exact push_append_of_next hfront hunit

/-- A header section is pushed as the body that it announces. -/
theorem push_enter {header : Header} (hfront : r₀.push? front = .ok (r, bodies))
    (hbody : r.message.body = [])
    (hunit : r.message.scanUnit (r.held ++ x) = r.message.enter header []) :
    r₀.push (front ++ x) = headed header (header.contentLength.getD 0) bodies := by
  unfold Message.enter at hunit
  unfold headed
  split at hunit
  · next hchunked =>
      rw [if_pos hchunked, push_append_of_next hfront hunit, hbody]
  · next hplain =>
      rw [if_neg hplain]
      have hnothing : Message.finish { r.message with gzip := header.gzip } [] =
          .next .empty [] none := by
        rw [Message.finish, hbody]
        rfl
      split at hunit
      · next hlength =>
          rw [hlength, Option.getD_none, if_pos rfl]
          exact push_append_of_next hfront (hunit.trans hnothing)
      · next hlength =>
          rw [hlength, Option.getD_some, if_pos rfl]
          exact push_append_of_next hfront (hunit.trans hnothing)
      · next n hzero hlength =>
          rw [hlength, Option.getD_some, if_neg hzero]
          split at hunit
          · next hlarge =>
              rw [if_neg (by omega)]
              exact push_append_of_refuse hfront hunit
          · next hfits =>
              rw [if_pos (by omega), push_append_of_next hfront hunit, hbody]

section

variable {uses : List Use} {part : List UInt8}
  (hfront : (useAll uses).push? front = .ok (r, bodies))

include hfront

/-- The next unit is a chunk size line. -/
theorem scanUnit_held_sizeLine (hframing : r.message.framing = .chunkSize) (hpart : 0x0A ∉ part)
    (behind : List UInt8) : r.message.scanUnit (r.held ++ (part ++ 0x0A :: behind)) =
      (chunkSize? (r.held ++ part)).elim (.refuse .invalidChunkSize)
        (r.message.enterChunk · behind) := by
  have hincomplete := (bounded_of_push? (bounded_useAll uses) hfront).incomplete
  rw [hframing] at hincomplete
  have hheld : 0x0A ∉ r.held := hincomplete
  rw [← List.append_assoc]
  exact Message.scanUnit_sizeLine hframing (by simp [hheld, hpart]) behind

/-- **Streams**: let the bytes of a stream be taken up to any point of a piece.  If there the rest
of a chunk size line is next, the line decides by the number that it shows how the stream goes on,
and is refused if it shows none.  If the rest of a header section is next, it decides by the last
of the numbers that its lengths show, and is refused if one of them shows none. -/
theorem push_framingNumbers :
    (∀ part, r.message.framing = .chunkSize → 0x0A ∉ part →
      (∀ text ∈ sizeText? (r.held ++ part), ∀ n, Reads 16 text n →
        (useAll uses).push (front ++ (part ++ [0x0A])) = r.sized n bodies) ∧
      ((∀ text ∈ sizeText? (r.held ++ part), ∀ n, ¬ Reads 16 text n) → ∀ behind,
        (useAll uses).push (front ++ (part ++ 0x0A :: behind)) =
          (empty, .error .invalidChunkSize))) ∧
    ∀ part, r.message.framing = .headers → IsSection (r.held ++ part) →
      ((∀ value ∈ Header.lengthTexts (r.held ++ part), ∃ n, Reads 10 value n) →
        ∃ header ns, Header.ofSection? (r.held ++ part) = some header ∧
          List.Forall₂ (Reads 10) (Header.lengthTexts (r.held ++ part)) ns ∧
          (useAll uses).push (front ++ part) = headed header (ns.getLast?.getD 0) bodies) ∧
      ∀ value ∈ Header.lengthTexts (r.held ++ part), (∀ n, ¬ Reads 10 value n) → ∀ behind,
        (useAll uses).push (front ++ (part ++ behind)) =
          (empty, .error .invalidContentLength) := by
  refine ⟨fun part hframing hpart => ⟨fun text htext n hreads => ?_, fun hnone behind => ?_⟩,
    fun part hframing hsection => ⟨fun hall => ?_, fun value hvalue hnone behind => ?_⟩⟩
  · have hsize := chunkSize?_eq_some_iff.mpr ⟨text, htext, hreads⟩
    refine push_enterChunk hfront ?_
    rw [scanUnit_held_sizeLine hfront hframing hpart, hsize, Option.elim_some]
  · refine push_append_of_refuse hfront ?_
    rw [scanUnit_held_sizeLine hfront hframing hpart, chunkSize?_eq_none hnone, Option.elim_none]
  · obtain ⟨header, ns, hheader, hns, hlast⟩ := Header.exists_ofSection? hall
    refine ⟨header, ns, hheader, hns, ?_⟩
    have hbody := ((bounded_of_push? (bounded_useAll uses) hfront).message.fresh hframing).1
    rw [← hlast]
    refine push_enter hfront hbody ?_
    have hunit := Message.scanUnit_section hframing hsection []
    rwa [List.append_nil, hheader, Option.elim_some] at hunit
  · refine push_append_of_refuse hfront ?_
    rw [← List.append_assoc, Message.scanUnit_section hframing hsection,
      Header.ofSection?_eq_none hvalue hnone, Option.elim_none]

end

/-! ## Samples -/

/-- The header section of a response with a length in it. -/
def sizedHead (length : String) : List UInt8 :=
  lineBytes "HTTP/1.1 200 OK".toList ++
    (lineBytes ("Content-Length:".toList ++ length.toList) ++ lineEnd)

/-- The chunk "ok" behind a line, and the last chunk. -/
def chunkOf (line : String) : List UInt8 :=
  lineBytes line.toList ++ ([0x6F, 0x6B] ++ (lineEnd ++ (lineBytes ['0'] ++ lineEnd)))

/-- A sign in front of a chunk size is read over. -/
theorem push_signedSize :
    empty.push (chunkedHead ++ chunkOf "+2") = (empty, .ok [[0x6F, 0x6B]]) := by
  have hsize : Message.scanUnit ⟨.chunkSize, [], false⟩ (chunkOf "+2") =
      .next ⟨.chunkData 2, [], false⟩
        ([0x6F, 0x6B] ++ (lineEnd ++ (lineBytes ['0'] ++ lineEnd))) none := by decide +kernel
  have hdata : Message.scanUnit ⟨.chunkData 2, [], false⟩
      ([0x6F, 0x6B] ++ (lineEnd ++ (lineBytes ['0'] ++ lineEnd))) =
      .next ⟨.chunkEnd 2, [0x6B, 0x6F], false⟩ (lineEnd ++ (lineBytes ['0'] ++ lineEnd)) none := by
    decide +kernel
  have hend : Message.scanUnit ⟨.chunkEnd 2, [0x6B, 0x6F], false⟩
      (lineEnd ++ (lineBytes ['0'] ++ lineEnd)) =
      .next ⟨.chunkSize, [0x6B, 0x6F], false⟩ (lineBytes ['0'] ++ lineEnd) none := by
    decide +kernel
  have hzero : Message.scanUnit ⟨.chunkSize, [0x6B, 0x6F], false⟩ (lineBytes ['0'] ++ lineEnd) =
      .next ⟨.trailers, [0x6B, 0x6F], false⟩ lineEnd none := by decide +kernel
  have hlast : Message.scanUnit ⟨.trailers, [0x6B, 0x6F], false⟩ lineEnd =
      .next .empty [] (some [0x6F, 0x6B]) := by decide +kernel
  apply push_of_ok
  rw [push?_append push?_chunkedHead, push?, List.nil_append, Message.scan_of_next hsize,
    Message.scan_of_next hdata, Message.scan_of_next hend, Message.scan_of_next hzero,
    Message.scan_of_next hlast, Message.scan_nil]
  rfl

/-- A sign in front of a content length is read over. -/
theorem push_signedLength :
    empty.push (sizedHead " +2" ++ [0x6F, 0x6B]) = (empty, .ok [[0x6F, 0x6B]]) := by
  have hhead : Message.empty.scanUnit (sizedHead " +2" ++ [0x6F, 0x6B]) =
      .next ⟨.fixed 2, [], false⟩ [0x6F, 0x6B] none := by decide +kernel
  have hbody : Message.scanUnit ⟨.fixed 2, [], false⟩ [0x6F, 0x6B] =
      .next .empty [] (some [0x6F, 0x6B]) := by decide +kernel
  apply push_of_ok
  rw [push?_empty_eq, Message.scan_of_next hhead, Message.scan_of_next hbody, Message.scan_nil]
  rfl

/-- **Signs**: a size and a length are accepted with a plus sign in front, although it is no part of
a number that only digits show. -/
theorem push_signedNumbers :
    (sizeText? (Text.ascii "+2\r".toList) = some "+2".toList ∧
      (¬ ∃ n, Text.Shows 16 maxNumber [] "+2".toList n) ∧
      (empty.push (chunkedHead ++ chunkOf "+2")).2 = .ok [[0x6F, 0x6B]]) ∧
    (¬ ∃ n, Text.Shows 10 maxNumber [] " +2".toList n) ∧
      (empty.push (sizedHead " +2" ++ [0x6F, 0x6B])).2 = .ok [[0x6F, 0x6B]] := by
  refine ⟨⟨by decide, fun ⟨n, hn⟩ => ?_, by rw [push_signedSize]⟩, fun ⟨n, hn⟩ => ?_,
    by rw [push_signedLength]⟩
  · exact hn.plus_notMem (by decide) (by decide)
  · exact hn.plus_notMem (by decide) (by decide)

/-- A size with an extension is accepted, one with a prefix is refused, and so is a length with a
minus sign. -/
theorem framingNumbers_of_sizes :
    (useAll []).push? chunkedHead = .ok (⟨⟨.chunkSize, [], false⟩, []⟩, []) ∧
      (useAll []).push (chunkedHead ++ (Text.ascii "1A ;x\r".toList ++ [0x0A])) =
        (⟨⟨.chunkData 26, [], false⟩, []⟩, .ok []) ∧
      (useAll []).push (chunkedHead ++ (Text.ascii "0x1A\r".toList ++ 0x0A :: [0x6F])) =
        (empty, .error .invalidChunkSize) ∧
      (useAll []).push (sizedHead " -2" ++ [0x6F]) = (empty, .error .invalidContentLength) := by
  have hfront : (useAll []).push? chunkedHead = .ok (⟨⟨.chunkSize, [], false⟩, []⟩, []) :=
    push?_chunkedHead
  have hdenotes : Text.Denotes 16 "1A".toList 26 := ⟨[1, 10], by simp, by simp, by decide, rfl⟩
  have haccepted : Reads 16 "1A ".toList 26 :=
    .inl ⟨[], "1A".toList, [' '], rfl, nofun, List.forall_mem_singleton.mpr rfl, hdenotes,
      by decide⟩
  refine ⟨hfront, ?_, ?_, ?_⟩
  · have hline : 0x0A ∉ Text.ascii "1A ;x\r".toList := by decide +kernel
    have htext : sizeText? (Text.ascii "1A ;x\r".toList) = some "1A ".toList := by decide
    exact ((push_framingNumbers hfront).1 _ rfl hline).1 _ htext 26 haccepted
  · have hline : 0x0A ∉ Text.ascii "0x1A\r".toList := by decide +kernel
    refine ((push_framingNumbers hfront).1 _ rfl hline).2 (fun text htext n hreads => ?_) _
    have hprefixed : sizeText? (Text.ascii "0x1A\r".toList) = some "0x1A".toList := by decide
    rw [List.nil_append, hprefixed] at htext
    cases htext
    have hrefused : (Text.readNumeral 16 maxNumber (Text.trim "0x1A".toList)).toOption = none := by
      decide
    rw [← readNumeral_toOption (by decide), hrefused] at hreads
    contradiction
  · have hsection : IsSection (sizedHead " -2") :=
      ⟨by decide, (sizedHead " -2").take 35, by decide +kernel, by decide +kernel⟩
    have hnothing : (useAll []).push? [] = .ok (empty, []) := push?_nil
    have hvalue : " -2".toList ∈ Header.lengthTexts (sizedHead " -2") := by decide +kernel
    refine ((push_framingNumbers hnothing).2 _ rfl hsection).2 _ hvalue (fun n hreads => ?_) _
    have hrefused : (Text.readNumeral 10 maxNumber (Text.trim " -2".toList)).toOption = none := by
      decide
    rw [← readNumeral_toOption (by decide), hrefused] at hreads
    contradiction

end Reassembler

end FlowRelay.Http
