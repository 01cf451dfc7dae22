import FlowRelay.Proofs.Http.Bounds
import Mathlib.Data.List.Induction

/-!
# FlowRelay.Proofs.Http.Limits

What becomes of a header section or of a line with more bytes than the limit for it.

1. *Divisions* (`feed_eq_push?`, `exists_feed_error`): a stream in pieces is taken as it is at once,
   as long as the bytes up to the end of each piece are taken.
2. *Marks* (`Framing.ending?`): a unit that ends with a mark is waited for while the mark is not in
   sight, up to the limit; once it is there, the unit is taken whatever its size.
3. *Limits* (`feed_oversized`): so a unit beyond its limit is refused exactly if a piece ends where
   more bytes than the limit are there and the mark is not.  In one piece it is not refused.
-/

namespace FlowRelay.Http

open Message (lineEnd headerEnd)

/-! ## Divisions -/

namespace Reassembler

variable {r r' : Reassembler} {xs ys pieces : List (List UInt8)} {piece : List UInt8}
  {bodies : List (List UInt8)} {e : FramingError}

theorem feed_cons_of_ok (h : r.push? piece = .ok (r', bodies)) (pieces : List (List UInt8)) :
    r.feed (piece :: pieces) =
      (r'.feed pieces).map fun (r, more) => (r, bodies ++ more) := by
  rw [feed, push_of_ok h]

theorem feed_cons_of_error (h : r.push? piece = .error e) (pieces : List (List UInt8)) :
    r.feed (piece :: pieces) = .error e := by
  rw [feed, push_of_error h]

/-- Behind pieces that are taken, others are fed as if they came first. -/
theorem feed_append_of_ok (h : r.feed xs = .ok (r', bodies)) (ys : List (List UInt8)) :
    r.feed (xs ++ ys) = (r'.feed ys).map fun (r, more) => (r, bodies ++ more) := by
  induction xs generalizing r bodies with
  | nil =>
      cases h
      cases hys : r'.feed ys <;> simp [Except.map, hys]
  | cons piece xs ih =>
      cases hpiece : r.push? piece with
      | error e =>
          rw [feed_cons_of_error hpiece] at h
          contradiction
      | ok taken =>
          obtain ⟨r₁, first⟩ := taken
          rw [feed_cons_of_ok hpiece] at h
          rw [List.cons_append, feed_cons_of_ok hpiece]
          cases hrest : r₁.feed xs with
          | error e =>
              rw [hrest] at h
              contradiction
          | ok taken =>
              obtain ⟨r₂, more⟩ := taken
              rw [hrest] at h
              cases h
              rw [ih hrest]
              cases r'.feed ys <;> simp [Except.map]

/-- What refuses the first pieces refuses all of them. -/
theorem feed_append_of_error (h : r.feed xs = .error e) (ys : List (List UInt8)) :
    r.feed (xs ++ ys) = .error e := by
  obtain ⟨front, piece, back, r', bodies, rfl, hfront, hpiece⟩ := exists_refused h
  rw [List.append_assoc, feed_append_of_ok hfront, List.cons_append, feed, hpiece]
  rfl

/-- **Divisions**: a stream in pieces is taken or refused as it is at once, as long as the bytes up
to the end of each piece but the last are taken at once. -/
theorem feed_eq_push? (h : ∀ cut, cut <+: pieces → cut ≠ pieces →
      ∃ taken, empty.push? cut.flatten = .ok taken) :
    empty.feed pieces = empty.push? pieces.flatten := by
  induction pieces using List.reverseRecOn with
  | nil => exact push?_nil.symm
  | append_singleton xs piece ih =>
      obtain ⟨⟨r, bodies⟩, hxs⟩ := h xs (List.prefix_append _ _) (by simp)
      have hfed : empty.feed xs = .ok (r, bodies) := by
        rw [ih fun cut hcut hne => h cut (hcut.trans (List.prefix_append _ _)) ?_, hxs]
        rintro rfl
        have hle := hcut.length_le
        simp only [List.length_append, List.length_singleton] at hle
        omega
      rw [feed_append_of_ok hfed, List.flatten_append, List.flatten_singleton, push?_append hxs]
      cases hpiece : r.push? piece with
      | error e => simp only [feed, push_of_error hpiece]
      | ok taken =>
          simp only [feed, push_of_ok hpiece]
          simp [Except.map]

/-- A stream is refused in pieces if the bytes up to the end of a piece are refused at once. -/
theorem exists_feed_error {cut : List (List UInt8)} (hcut : cut <+: pieces)
    (h : empty.push? cut.flatten = .error e) : ∃ e', empty.feed pieces = .error e' := by
  obtain ⟨rest, rfl⟩ := hcut
  cases hfeed : empty.feed cut with
  | error e' => exact ⟨e', feed_append_of_error hfeed rest⟩
  | ok taken =>
      have hwhole := push?_flatten push?_nil hfeed
      rw [List.nil_append, h] at hwhole
      contradiction

end Reassembler

/-! ## Units that end with a mark -/

/-- The mark that ends a header section or a line, and the error if it is out of sight for too
long. -/
def Framing.ending? : Framing → Option (List UInt8 × FramingError)
  | .headers => some (headerEnd, .headerTooLarge)
  | .chunkSize => some ([0x0A], .lineTooLong)
  | .trailers => some ([0x0A], .trailerTooLarge)
  | .fixed _ | .chunkData _ | .chunkEnd _ => none

/-- A unit that is there is taken or refused for what it says, and nothing behind it is touched. -/
def Scan.Proceeds (behind : List UInt8) : Scan → Prop
  | .wait => False
  | .refuse e => e.isOverrun = false
  | .next _ rest _ => rest = behind

namespace Message

variable {m : Message} {mark : List UInt8} {overrun : FramingError}

theorem enter_proceeds (m : Message) (header : Header) (behind : List UInt8) :
    (m.enter header behind).Proceeds behind := by
  unfold enter finish
  grind [Scan.Proceeds, FramingError.isOverrun]

theorem enterChunk_proceeds (m : Message) (size : Nat) (behind : List UInt8) :
    (m.enterChunk size behind).Proceeds behind := by
  unfold enterChunk
  grind [Scan.Proceeds, FramingError.isOverrun]

/-- A unit that ends with a mark is waited for within its limit.  With its mark it is taken or
refused for what it says. -/
theorem exists_upTo (h : m.framing.ending? = some (mark, overrun)) :
    ∃ next, (∀ line behind, (next line behind).Proceeds behind) ∧
      ∀ bytes, (m.framing = .headers → ¬ lineEnd <+: bytes) →
        m.scanUnit bytes = upTo mark m.framing.room overrun bytes next := by
  obtain ⟨framing, body, gzip⟩ := m
  cases framing with
  | headers =>
      cases h
      have hscan (bytes : List UInt8) (hapart : ¬ lineEnd <+: bytes) :
          scanUnit ⟨.headers, body, gzip⟩ bytes =
            upTo headerEnd maxHeaderSize .headerTooLarge bytes _ :=
        if_neg fun hp => hapart (List.isPrefixOf_iff_prefix.mp hp)
      refine ⟨_, fun lines behind => ?_, fun bytes hapart => hscan bytes (hapart rfl)⟩
      split
      · rfl
      · exact enter_proceeds _ _ behind
  | chunkSize =>
      cases h
      refine ⟨_, fun line behind => ?_, fun bytes _ => by simp only [scanUnit, scanChunkSize]; rfl⟩
      split
      · rfl
      · exact enterChunk_proceeds _ _ behind
  | trailers =>
      cases h
      refine ⟨fun line behind =>
        if (trimCr line).isEmpty then finish ⟨.trailers, body, gzip⟩ behind
        else .next ⟨.trailers, body, gzip⟩ behind none, fun line behind => ?_, fun bytes _ => rfl⟩
      dsimp only
      split <;> rfl
  | fixed | chunkData | chunkEnd => contradiction

end Message

/-! ## Limits -/

/-- Behind its front the stream comes to a header section or a line, with more bytes in front of its
mark than the limit. -/
structure Oversized (front line mark : List UInt8) (m : Message) (overrun : FramingError) :
    Prop where
  /-- The bytes in front leave nothing over. -/
  reached : ∃ bodies, Reassembler.empty.push? front = .ok (⟨m, []⟩, bodies)
  ending : m.framing.ending? = some (mark, overrun)
  /-- An empty line in front of a header section is no part of it. -/
  apart : m.framing = .headers → ¬ lineEnd <+: line ++ mark
  /-- The mark does not end any earlier. -/
  first : Bytes.find? mark (line ++ mark) = some line.length
  large : m.framing.room < line.length

/-- So many bytes of the stream end within the unit behind a front: more bytes of it than the limit
are there, and its end is not. -/
def EndsWithin (front line mark : List UInt8) (limit n : Nat) : Prop :=
  front.length + limit < n ∧ n < front.length + (line ++ mark).length

namespace Oversized

variable {front line mark part behind : List UInt8} {m : Message} {overrun e : FramingError}

/-- Bytes that end within the unit do not contain its mark. -/
theorem find?_part (h : Oversized front line mark m overrun) (hpart : part <+: line ++ mark)
    (hlt : part.length < (line ++ mark).length) : Bytes.find? mark part = none := by
  cases hfind : Bytes.find? mark part with
  | none => rfl
  | some n =>
      obtain ⟨more, hmore⟩ := hpart
      have hwhole := Bytes.find?_append_of_some hfind more
      rw [hmore, h.first] at hwhole
      cases hwhole
      have hle := Bytes.add_length_le_of_find? hfind
      rw [List.length_append] at hlt
      omega

theorem push?_append_eq (h : Oversized front line mark m overrun) (x : List UInt8) :
    ∃ bodies, Reassembler.empty.push? (front ++ x) =
      (m.scan x []).map fun (r, found) => (r, bodies ++ found.reverse) := by
  obtain ⟨bodies, hreached⟩ := h.reached
  refine ⟨bodies, ?_⟩
  rw [Reassembler.push?_append hreached, Reassembler.push?]
  cases hscan : m.scan x [] <;> simp [Except.map, hscan]

/-- A part of the unit without its end comes to this at once. -/
theorem scanUnit_part (h : Oversized front line mark m overrun) (hpart : part <+: line ++ mark)
    (hlt : part.length < (line ++ mark).length) :
    m.scanUnit part = if part.length > m.framing.room then .refuse overrun else .wait := by
  obtain ⟨next, -, hscan⟩ := Message.exists_upTo h.ending
  rw [hscan part fun hheaders hpre => h.apart hheaders (hpre.trans hpart), Message.upTo,
    h.find?_part hpart hlt]

/-- Within the limit the rest of the unit is waited for. -/
theorem push?_of_le (h : Oversized front line mark m overrun) (hpart : part <+: line ++ mark)
    (hle : part.length ≤ m.framing.room) :
    ∃ taken, Reassembler.empty.push? (front ++ part) = .ok taken := by
  have hlarge := h.large
  have hunit := h.scanUnit_part hpart (by rw [List.length_append]; omega)
  rw [if_neg (by omega)] at hunit
  obtain ⟨bodies, hpush⟩ := h.push?_append_eq part
  rw [hpush, Message.scan_of_wait hunit]
  exact ⟨_, rfl⟩

/-- Beyond the limit the unit is refused while its end is not there. -/
theorem push?_of_lt (h : Oversized front line mark m overrun) (hpart : part <+: line ++ mark)
    (hlimit : m.framing.room < part.length) (hlt : part.length < (line ++ mark).length) :
    Reassembler.empty.push? (front ++ part) = .error overrun := by
  have hunit := h.scanUnit_part hpart hlt
  rw [if_pos hlimit] at hunit
  obtain ⟨bodies, hpush⟩ := h.push?_append_eq part
  rw [hpush, Message.scan_of_refuse hunit]
  rfl

/-- With its end the unit is not refused for its size. -/
theorem not_overrun (h : Oversized front line mark m overrun)
    (he : Reassembler.empty.push? (front ++ (line ++ mark)) = .error e) :
    e.isOverrun = false := by
  obtain ⟨next, hproceeds, hscan⟩ := Message.exists_upTo h.ending
  have hunit : m.scanUnit (line ++ mark) = next line [] := by
    rw [hscan _ h.apart, Message.upTo, h.first]
    simp
  have hline := hproceeds line []
  obtain ⟨bodies, hpush⟩ := h.push?_append_eq (line ++ mark)
  rw [hpush] at he
  cases hnext : next line [] with
  | wait =>
      rw [hnext] at hline
      exact hline.elim
  | refuse e' =>
      rw [Message.scan_of_refuse (hunit.trans hnext)] at he
      rw [hnext] at hline
      cases he
      exact hline
  | next m' rest body? =>
      rw [hnext] at hline
      obtain rfl : rest = [] := hline
      rw [Message.scan_of_next (hunit.trans hnext), Message.scan_nil] at he
      contradiction

end Oversized

namespace Reassembler

variable {front line mark behind : List UInt8} {m : Message} {overrun : FramingError}
  {pieces : List (List UInt8)}

/-- Of the pieces that make up so many bytes there are first ones that do. -/
theorem exists_first_cut {n : Nat} (h : n ≤ pieces.flatten.length) :
    ∃ cut, cut <+: pieces ∧ n ≤ cut.flatten.length ∧
      ∀ c, c <+: cut → c ≠ cut → c.flatten.length < n := by
  induction pieces using List.reverseRecOn with
  | nil =>
      refine ⟨[], List.prefix_rfl, h, fun c hc hne => ?_⟩
      exact absurd (List.prefix_nil.mp hc) hne
  | append_singleton xs piece ih =>
      by_cases hxs : n ≤ xs.flatten.length
      · obtain ⟨cut, hcut, hrest⟩ := ih hxs
        exact ⟨cut, hcut.trans (List.prefix_append _ _), hrest⟩
      · refine ⟨_, List.prefix_rfl, h, fun c hc hne => ?_⟩
        obtain ⟨more, rfl⟩ := (List.prefix_concat_iff.mp hc).resolve_left hne
        simp only [List.flatten_append, List.length_append] at hxs
        omega

/-- The bytes up to the end of a piece that ends behind the front, but not behind the unit. -/
theorem exists_part {cut : List (List UInt8)} (hcut : cut <+: pieces)
    (hpieces : pieces.flatten = front ++ (line ++ mark) ++ behind)
    (hfront : front.length ≤ cut.flatten.length)
    (hunit : cut.flatten.length ≤ front.length + (line ++ mark).length) :
    ∃ part, cut.flatten = front ++ part ∧ part <+: line ++ mark := by
  have hstream : cut.flatten <+: front ++ (line ++ mark) ++ behind := by
    obtain ⟨rest, rfl⟩ := hcut
    rw [← hpieces, List.flatten_append]
    exact List.prefix_append _ _
  have hwhole : cut.flatten <+: front ++ (line ++ mark) :=
    List.prefix_of_prefix_length_le hstream (List.prefix_append _ _) (by simpa using hunit)
  obtain ⟨part, hpart⟩ :=
    List.prefix_of_prefix_length_le (List.prefix_append front (line ++ mark)) hwhole hfront
  refine ⟨part, hpart.symm, ?_⟩
  rw [← hpart] at hwhole
  exact (List.prefix_append_right_inj front).mp hwhole

/-- **Limits**: a header section or a line beyond its limit is refused if a piece of the stream ends
where more bytes than the limit are there and the end of the unit is not.  If no piece does, and
nothing in front is refused, the pieces up to the end of the unit come to what their bytes come to
at once; and at once the unit is not refused for its size. -/
theorem feed_oversized (h : Oversized front line mark m overrun)
    (hpieces : pieces.flatten = front ++ (line ++ mark) ++ behind) :
    ((∃ cut, cut <+: pieces ∧ EndsWithin front line mark m.framing.room cut.flatten.length) →
      ∃ e, empty.feed pieces = .error e) ∧
    ((¬ ∃ cut, cut <+: pieces ∧ EndsWithin front line mark m.framing.room cut.flatten.length) →
      (∀ cut, cut <+: pieces → cut.flatten.length ≤ front.length →
        ∃ taken, empty.push? cut.flatten = .ok taken) →
      ∃ cut, cut <+: pieces ∧ front ++ (line ++ mark) <+: cut.flatten ∧
        empty.feed cut = empty.push? cut.flatten) ∧
    ∀ e, empty.push? (front ++ (line ++ mark)) = .error e → e.isOverrun = false := by
  refine ⟨?_, fun hnone hfront => ?_, fun e => h.not_overrun⟩
  · rintro ⟨cut, hcut, hlimit, hend⟩
    obtain ⟨part, hbytes, hpart⟩ := exists_part hcut hpieces (by omega) (by omega)
    rw [hbytes, List.length_append] at hlimit hend
    refine exists_feed_error hcut (e := overrun) ?_
    rw [hbytes]
    exact h.push?_of_lt hpart (by omega) (by omega)
  · have hreach : front.length + (line ++ mark).length ≤ pieces.flatten.length := by
      simp only [hpieces, List.length_append]
      omega
    obtain ⟨cut, hcut, hcovers, hbefore⟩ := exists_first_cut hreach
    refine ⟨cut, hcut, ?_, feed_eq_push? fun c hc hne => ?_⟩
    · obtain ⟨rest, rfl⟩ := hcut
      rw [List.flatten_append] at hpieces
      have hwhole : front ++ (line ++ mark) <+: cut.flatten ++ rest.flatten := by
        rw [hpieces]
        exact List.prefix_append _ _
      exact List.prefix_of_prefix_length_le hwhole (List.prefix_append _ _) (by simpa using hcovers)
    · have hlt := hbefore c hc hne
      have hwithin : ¬ EndsWithin front line mark m.framing.room c.flatten.length :=
        fun hends => hnone ⟨c, hc.trans hcut, hends⟩
      by_cases hle : c.flatten.length ≤ front.length
      · exact hfront c (hc.trans hcut) hle
      · obtain ⟨part, hbytes, hpart⟩ := exists_part (hc.trans hcut) hpieces (by omega) (by omega)
        rw [hbytes]
        refine h.push?_of_le hpart ?_
        rw [EndsWithin, hbytes, List.length_append] at hwithin
        rw [hbytes, List.length_append] at hlt
        omega

/-! ## A sample -/

/-- The header section of a chunked response. -/
def chunkedHead : List UInt8 :=
  lineBytes "HTTP/1.1 200 OK".toList ++
    (lineBytes "Transfer-Encoding: chunked".toList ++ lineEnd)

/-- The size of the last chunk, in more digits than a line may have bytes. -/
def longSize : List UInt8 := List.replicate (maxLineSize + 1) 0x30

theorem push?_chunkedHead :
    empty.push? chunkedHead = .ok (⟨⟨.chunkSize, [], false⟩, []⟩, []) := by
  have hunit : Message.empty.scanUnit chunkedHead =
      .next ⟨.chunkSize, [], false⟩ [] none := by decide +kernel
  rw [push?_empty_eq, Message.scan_of_next hunit, Message.scan_nil]
  rfl

theorem oversized_longSize :
    Oversized chunkedHead longSize [0x0A] ⟨.chunkSize, [], false⟩ .lineTooLong where
  reached := ⟨[], push?_chunkedHead⟩
  ending := rfl
  apart := nofun
  first := find?_singleton (by simp [longSize])
  large := by simp [longSize, Framing.room]

theorem scanUnit_longSize :
    Message.scanUnit ⟨.chunkSize, [], false⟩ (longSize ++ [0x0A]) =
      .next ⟨.trailers, [], false⟩ [] none := by
  have hend : Bytes.find? [0x0A] (longSize ++ [0x0A]) = some longSize.length :=
    oversized_longSize.first
  have hsize : chunkSize? longSize = some 0 := by decide +kernel
  simp [Message.scanUnit, Message.scanChunkSize, Message.upTo, hend, hsize, Message.enterChunk]

/-- A size line with one byte too many is refused if its end comes in a piece of its own. -/
theorem feed_longSize_apart :
    Oversized chunkedHead longSize [0x0A] ⟨.chunkSize, [], false⟩ .lineTooLong ∧
      ∃ e, empty.feed [chunkedHead ++ longSize, [0x0A]] = .error e := by
  have hpieces : [chunkedHead ++ longSize, [0x0A]].flatten =
      chunkedHead ++ (longSize ++ [0x0A]) ++ [] := by simp
  refine ⟨oversized_longSize, (feed_oversized oversized_longSize hpieces).1
    ⟨[chunkedHead ++ longSize], ⟨[[0x0A]], rfl⟩, ?_⟩⟩
  simp [EndsWithin, Framing.room, longSize]

/-- In one piece with its end the line is taken, as the size of the last chunk. -/
theorem feed_longSize_together :
    Oversized chunkedHead longSize [0x0A] ⟨.chunkSize, [], false⟩ .lineTooLong ∧
      empty.feed [chunkedHead ++ (longSize ++ [0x0A])] =
        .ok (⟨⟨.trailers, [], false⟩, []⟩, []) := by
  refine ⟨oversized_longSize, ?_⟩
  obtain ⟨bodies, hreached⟩ := oversized_longSize.reached
  have hnothing : bodies = [] := by
    have hunit : Message.empty.scanUnit chunkedHead =
        .next ⟨.chunkSize, [], false⟩ [] none := by decide +kernel
    rw [push?_empty_eq, Message.scan_of_next hunit, Message.scan_nil] at hreached
    cases hreached
    rfl
  have hpush : empty.push? (chunkedHead ++ (longSize ++ [0x0A])) =
      .ok (⟨⟨.trailers, [], false⟩, []⟩, []) := by
    rw [push?_append hreached, push?, List.nil_append, Message.scan_of_next scanUnit_longSize,
      Message.scan_nil, hnothing]
    rfl
  rw [feed_cons_of_ok hpush]
  rfl

end Reassembler

end FlowRelay.Http
