import FlowRelay.Proofs.Http.Malformed

/-!
# FlowRelay.Proofs.Http.Bounds

What a reassembler keeps and what it hands out is bounded, whatever the stream is.

1. *What is kept of a message* (`Message.Bounded`): a body that has room for the bytes announced.
2. *What is held back* (`Reassembler.Bounded`): the front of one unit, within the limit for it.
3. *Units and scans* (`scanUnit_within`, `bounded_of_scan`): both bounds are kept unit by unit, and
   a scan that ends waits for a unit.
4. *Bodies* (`Message.finished`): the messages that a scan ends, with their bodies as they arrived.
   No body is larger than a body may be, also if the stream is refused behind it.
5. *Uses* (`bounded_of_uses`): all this holds after any sequence of pushes and resets.
-/

namespace FlowRelay

/-- A mark that is not found occurs nowhere. -/
theorem Bytes.find?_eq_none_iff {mark bytes : List UInt8} (hmark : mark ≠ []) :
    Bytes.find? mark bytes = none ↔ ¬ mark <:+: bytes := by
  induction bytes with
  | nil => simp [hmark]
  | cons b rest ih =>
      rw [Bytes.find?_cons, List.infix_cons_iff, not_or, ← List.isPrefixOf_iff_prefix]
      by_cases hp : mark.isPrefixOf (b :: rest)
      · simp [hp]
      · simp [hp, ih]

namespace Http

open Message (lineEnd headerEnd)

/-! ## Bounds -/

namespace Framing

/-- The most bytes that may be held back of a unit. -/
def room : Framing → Nat
  | .headers | .trailers => maxHeaderSize
  | .chunkSize => maxLineSize
  | .fixed _ | .chunkData _ | .chunkEnd _ => 0

/-- The bytes contain a unit to take: an empty line in front or a header section, a line, or
whatever there is of a stretch. -/
def Complete (bytes : List UInt8) : Framing → Prop
  | .headers => lineEnd <+: bytes ∨ headerEnd <:+: bytes
  | .chunkSize | .trailers => 0x0A ∈ bytes
  | .fixed _ | .chunkData _ | .chunkEnd _ => bytes ≠ []

/-- How many bytes are announced and still to come of a body or of a chunk. -/
def announced : Framing → Nat
  | .fixed left | .chunkData left => left
  | .headers | .chunkSize | .chunkEnd _ | .trailers => 0

/-- How many bytes are still to come of the line end behind a chunk. -/
def trailing? : Framing → Option Nat
  | .chunkData _ => some lineEnd.length
  | .chunkEnd left => some left
  | .headers | .fixed _ | .chunkSize | .trailers => none

end Framing

/-- What is kept of a message is bounded. -/
structure Message.Bounded (m : Message) : Prop where
  /-- The bytes announced have room in the body. -/
  body_le : m.body.length + m.framing.announced ≤ maxBodySize
  /-- Nothing is left of the message before. -/
  fresh : m.framing = .headers → m.body = [] ∧ m.gzip = false
  /-- A body has bytes to come until it is delivered. -/
  fixed_pos : ∀ left, m.framing = .fixed left → 0 < left
  /-- A chunk has bytes to come until its line end is read. -/
  trailing : ∀ left, m.framing.trailing? = some left → left = 1 ∨ left = 2

/-- What a reassembler keeps is bounded. -/
structure Reassembler.Bounded (r : Reassembler) : Prop where
  message : r.message.Bounded
  /-- The bytes held back are within the limit for the current unit. -/
  held_le : r.held.length ≤ r.message.framing.room
  /-- No unit is held back that could have been taken. -/
  incomplete : ¬ r.message.framing.Complete r.held

/-- What is delivered of a message that ends: nothing if its body is empty, else the body,
decompressed if it is compressed or looks like it. -/
def Message.delivered? (m : Message) : Option (List UInt8) := decoded m.gzip m.body.reverse

/-- A unit that ends no message keeps the bounds: what is waited with is the front of a unit, and
what is gone on with is bounded. -/
def Scan.Within (framing : Framing) (bytes : List UInt8) : Scan → Prop
  | .wait => bytes.length ≤ framing.room ∧ ¬ framing.Complete bytes
  | .refuse _ => True
  | .next m _ body? => m.Bounded ∧ body? = none

namespace Message

variable {m m' f : Message} {bytes rest : List UInt8} {body? : Option (List UInt8)}
  {framing : Framing}

theorem bounded_empty : empty.Bounded where
  body_le := by simp [empty, Framing.announced]
  fresh := fun _ => ⟨rfl, rfl⟩
  fixed_pos := by simp [empty]
  trailing := by simp [empty, Framing.trailing?]

/-! ## Where a unit ends -/

/-- A unit that ends with a mark is waited for while the mark is nowhere in sight. -/
theorem upTo_within {mark : List UInt8} {limit : Nat} {overrun : FramingError}
    {next : List UInt8 → List UInt8 → Scan} (hmark : mark ≠ [])
    (hwait : bytes.length ≤ limit → ¬ mark <:+: bytes →
      bytes.length ≤ framing.room ∧ ¬ framing.Complete bytes)
    (hnext : ∀ n, Bytes.find? mark bytes = some n →
      (next (bytes.take n) (bytes.drop (n + mark.length))).Within framing bytes) :
    (upTo mark limit overrun bytes next).Within framing bytes := by
  unfold upTo
  cases hn : Bytes.find? mark bytes with
  | none =>
      simp only
      split
      · trivial
      · next hle => exact hwait (Nat.le_of_not_lt hle) ((Bytes.find?_eq_none_iff hmark).mp hn)
  | some n => exact hnext n hn

/-- The line that a mark of one byte ends is not in sight. -/
theorem not_complete_line {limit : Nat} (hle : bytes.length ≤ limit) (h : ¬ [0x0A] <:+: bytes) :
    bytes.length ≤ limit ∧ ¬ (0x0A : UInt8) ∈ bytes := by
  refine ⟨hle, fun hmem => h ?_⟩
  obtain ⟨line, rest, rfl⟩ := List.append_of_mem hmem
  exact ⟨line, rest, by simp⟩

/-- A stretch is waited for with nothing. -/
theorem stretch_within {left : Nat} {whole : List UInt8 → List UInt8 → Scan}
    {part : List UInt8 → Nat → Message} (hwait : ¬ framing.Complete [])
    (hwhole : left ≤ bytes.length →
      (whole (bytes.take left) (bytes.drop left)).Within framing bytes)
    (hpart : 0 < bytes.length → bytes.length < left →
      (part bytes (left - bytes.length)).Bounded) :
    (stretch left bytes whole part).Within framing bytes := by
  unfold stretch
  by_cases hbytes : bytes = []
  · rw [if_pos hbytes, hbytes]
    exact ⟨Nat.zero_le _, hwait⟩
  · rw [if_neg hbytes]
    by_cases hle : left ≤ bytes.length
    · rw [if_pos hle]
      exact hwhole hle
    · rw [if_neg hle]
      exact ⟨hpart (List.length_pos_iff.mpr hbytes) (Nat.lt_of_not_le hle), rfl⟩

/-! ## Going on behind a unit -/

/-- A header section announces no more than a body may have. -/
theorem enter_within {header : Header} (h : m.body = []) :
    (m.enter header rest).Within framing bytes := by
  have hfinish : (finish { m with gzip := header.gzip } rest).Within framing bytes :=
    ⟨bounded_empty, by simp [h, decoded]⟩
  unfold enter
  by_cases hchunked : header.chunked
  · simp only [hchunked, if_true]
    refine ⟨⟨by simp [h, Framing.announced], ?_, ?_, ?_⟩, rfl⟩
    all_goals
      intros
      contradiction
  · simp only [hchunked, Bool.false_eq_true, if_false]
    rcases header.contentLength with _ | _ | n
    · exact hfinish
    · exact hfinish
    · by_cases hle : n + 1 > maxBodySize
      · simp only [hle, if_true]
        trivial
      · simp only [hle, if_false]
        refine ⟨⟨?_, ?_, ?_, ?_⟩, rfl⟩
        · simp only [h, Framing.announced, List.length_nil]
          omega
        · intro hheaders
          contradiction
        · rintro left ⟨⟩
          exact Nat.succ_pos n
        · intro left htrailing
          contradiction

/-- A chunk is announced only if it has room in the body. -/
theorem enterChunk_within {size : Nat} (h : m.body.length ≤ maxBodySize) :
    (m.enterChunk size rest).Within framing bytes := by
  unfold enterChunk
  split
  · exact ⟨⟨h, nofun, nofun, nofun⟩, rfl⟩
  · split
    · trivial
    · next hle =>
        refine ⟨⟨Nat.le_of_not_lt hle, nofun, nofun, ?_⟩, rfl⟩
        rintro left ⟨⟩
        exact .inr rfl

/-! ## Ends of messages -/

/-- The message with a body that the next unit ends, its body as it arrived. -/
def finished? (m : Message) (bytes : List UInt8) : Option Message :=
  match m.framing with
  | .fixed left => if left ≤ bytes.length then some (m.gather (bytes.take left)) else none
  | .trailers =>
    match Bytes.find? [0x0A] bytes with
    | none => none
    | some n => if (trimCr (bytes.take n)).isEmpty then some m else none
  | .headers | .chunkSize | .chunkData _ | .chunkEnd _ => none

/-- The unit is the end of that message, whose body has as many bytes as were announced. -/
theorem scanUnit_of_finished? (hm : m.Bounded) (hf : m.finished? bytes = some f) :
    (∃ rest, m.scanUnit bytes = f.finish rest) ∧ f.body.length ≤ maxBodySize := by
  have hbody := hm.body_le
  unfold finished? at hf
  unfold scanUnit
  split at hf
  · next left hframing =>
      have hpos := hm.fixed_pos left hframing
      rw [hframing, Framing.announced] at hbody
      split at hf
      · next hle =>
          cases hf
          have hbytes : bytes ≠ [] := List.ne_nil_of_length_pos (Nat.lt_of_lt_of_le hpos hle)
          refine ⟨⟨bytes.drop left, ?_⟩, ?_⟩
          · simp only [hframing, scanFixed, stretch, hbytes, hle, if_true, if_false]
          · simp only [gather, List.length_append, List.length_reverse, List.length_take]
            omega
      · contradiction
  · next hframing =>
      split at hf
      · contradiction
      · next n hn =>
          split at hf
          · next hline =>
              cases hf
              refine ⟨⟨bytes.drop (n + 1), ?_⟩, by omega⟩
              simp only [hframing, scanTrailers, upTo, hn, hline, if_true, List.length_singleton]
          · contradiction
  all_goals contradiction

/-! ## Units -/

/-- The scan of a header section stays within the limits. -/
theorem scanHeaders_within (hm : m.Bounded) (hbody : m.body = []) :
    (m.scanHeaders bytes).Within .headers bytes := by
  unfold scanHeaders
  by_cases hp : lineEnd.isPrefixOf bytes
  · rw [if_pos hp]
    exact ⟨hm, rfl⟩
  · rw [if_neg hp]
    rw [List.isPrefixOf_iff_prefix] at hp
    refine upTo_within (by decide) (fun hle hmark => ⟨hle, not_or.mpr ⟨hp, hmark⟩⟩) fun n _ => ?_
    split
    · trivial
    · exact enter_within hbody

/-- The scan of a body of fixed length stays within the limits. -/
theorem scanFixed_within {left : Nat} (hbody : m.body.length + left ≤ maxBodySize)
    (hlt : bytes.length < left) : (m.scanFixed left bytes).Within (.fixed left) bytes := by
  refine stretch_within (by simp [Framing.Complete]) (fun hle => absurd hle (by omega))
    fun _ _ => ⟨?_, nofun, ?_, nofun⟩
  · simp only [gather, Framing.announced, List.length_append, List.length_reverse]
    omega
  · rintro _ ⟨⟩
    omega

/-- The scan of a chunk size line stays within the limits. -/
theorem scanChunkSize_within (hbody : m.body.length ≤ maxBodySize) :
    (m.scanChunkSize bytes).Within .chunkSize bytes := by
  refine upTo_within (by decide) not_complete_line fun n _ => ?_
  split
  · trivial
  · exact enterChunk_within hbody

/-- The scan of chunk data stays within the limits. -/
theorem scanChunkData_within {left : Nat} (hbody : m.body.length + left ≤ maxBodySize) :
    (m.scanChunkData left bytes).Within (.chunkData left) bytes := by
  refine stretch_within (by simp [Framing.Complete]) (fun hle => ⟨⟨?_, nofun, nofun, ?_⟩, rfl⟩)
    fun hpos hlt => ⟨?_, nofun, nofun, ?_⟩
  · simp only [gather, Framing.announced, List.length_append, List.length_reverse,
      List.length_take]
    omega
  · rintro _ ⟨⟩
    exact .inr rfl
  · simp only [gather, Framing.announced, List.length_append, List.length_reverse]
    omega
  · rintro _ ⟨⟩
    exact .inr rfl

/-- The scan of the line end behind a chunk stays within the limits. -/
theorem scanChunkEnd_within {left : Nat} (hbody : m.body.length ≤ maxBodySize)
    (hleft : left = 1 ∨ left = 2) :
    (m.scanChunkEnd left bytes).Within (.chunkEnd left) bytes := by
  refine stretch_within (by simp [Framing.Complete])
    (fun hle => ⟨⟨hbody, nofun, nofun, nofun⟩, rfl⟩)
    fun hpos hlt => ⟨hbody, nofun, nofun, ?_⟩
  rintro _ ⟨⟩
  omega

/-- The scan of trailers stays within the limits. -/
theorem scanTrailers_within (hm : m.Bounded)
    (hline : ∀ n, Bytes.find? [0x0A] bytes = some n → ¬ (trimCr (bytes.take n)).isEmpty) :
    (m.scanTrailers bytes).Within .trailers bytes := by
  refine upTo_within (by decide) not_complete_line fun n hn => ?_
  rw [if_neg (hline n hn)]
  exact ⟨hm, rfl⟩

/-- **Units**: a unit that ends no message keeps the bounds. -/
theorem scanUnit_within (hm : m.Bounded) (hnone : m.finished? bytes = none) :
    (m.scanUnit bytes).Within m.framing bytes := by
  have hbody := hm.body_le
  unfold scanUnit
  unfold finished? at hnone
  cases hframing : m.framing with
  | headers => exact scanHeaders_within hm (hm.fresh hframing).1
  | fixed left =>
      rw [hframing, Framing.announced] at hbody
      simp only [hframing, ite_eq_right_iff, reduceCtorEq, imp_false] at hnone
      exact scanFixed_within hbody (Nat.lt_of_not_le hnone)
  | chunkSize => exact scanChunkSize_within (by omega)
  | chunkData left =>
      rw [hframing, Framing.announced] at hbody
      exact scanChunkData_within hbody
  | chunkEnd left =>
      exact scanChunkEnd_within (by omega) (hm.trailing left (by rw [hframing]; rfl))
  | trailers =>
      refine scanTrailers_within hm fun n hn => ?_
      simpa [hframing, hn] using hnone

/-- What is waited with is the front of a unit. -/
theorem held_of_wait (hm : m.Bounded) (h : m.scanUnit bytes = .wait) :
    bytes.length ≤ m.framing.room ∧ ¬ m.framing.Complete bytes := by
  cases hf : m.finished? bytes with
  | none =>
      have hwithin := scanUnit_within hm hf
      rwa [h] at hwithin
  | some f =>
      obtain ⟨⟨rest, hunit⟩, -⟩ := scanUnit_of_finished? hm hf
      rw [h] at hunit
      contradiction

/-- What is gone on with is bounded, and what is delivered is the body of the message that ends. -/
theorem bounded_of_next (hm : m.Bounded) (h : m.scanUnit bytes = .next m' rest body?) :
    m'.Bounded ∧ body? = (m.finished? bytes).bind delivered? := by
  cases hf : m.finished? bytes with
  | none =>
      have hwithin := scanUnit_within hm hf
      rwa [h] at hwithin
  | some f =>
      obtain ⟨⟨rest, hunit⟩, -⟩ := scanUnit_of_finished? hm hf
      rw [h] at hunit
      cases hunit
      exact ⟨bounded_empty, rfl⟩

/-! ## Scans -/

/-- The messages that a scan ends, with their bodies as they arrived.  Those in front of malformed
framing are among them. -/
def finished (m : Message) (bytes : List UInt8) : List Message :=
  match _h : m.scanUnit bytes with
  | .wait | .refuse _ => []
  | .next m' rest _ => (m.finished? bytes).toList ++ finished m' rest
termination_by m.workload bytes
decreasing_by exact workload_lt_of_scanUnit ‹_›

/-- The messages that are finished are that of the next unit and those behind it. -/
theorem finished_of_next (h : m.scanUnit bytes = .next m' rest body?) :
    m.finished bytes = (m.finished? bytes).toList ++ m'.finished rest := by
  rw [finished]
  split <;> simp_all

theorem finished_of_wait (h : m.scanUnit bytes = .wait) : m.finished bytes = [] := by
  rw [finished]
  split <;> simp_all

theorem finished_of_refuse {e : FramingError} (h : m.scanUnit bytes = .refuse e) :
    m.finished bytes = [] := by
  rw [finished]
  split <;> simp_all

/-- No message that a scan ends has a larger body than a body may be. -/
theorem length_le_of_mem_finished (hm : m.Bounded) (hf : f ∈ m.finished bytes) :
    f.body.length ≤ maxBodySize := by
  induction m, bytes using finished.induct with
  | case1 m bytes hunit =>
      rw [finished_of_wait hunit] at hf
      contradiction
  | case2 m bytes e hunit =>
      rw [finished_of_refuse hunit] at hf
      contradiction
  | case3 m bytes m' rest body? hunit ih =>
      rw [finished_of_next hunit, List.mem_append] at hf
      cases hf with
      | inl hfirst => exact (scanUnit_of_finished? hm (Option.mem_toList.mp hfirst)).2
      | inr hrest => exact ih (bounded_of_next hm hunit).1 hrest

/-- **Scans**: a scan that is not refused keeps the bounds, and delivers the bodies of the messages
that it ends. -/
theorem bounded_of_scan (hm : m.Bounded) {before bodies : List (List UInt8)} {r : Reassembler}
    (h : m.scan bytes before = .ok (r, bodies)) :
    r.Bounded ∧
      bodies = ((m.finished bytes).filterMap delivered?).reverse ++ before := by
  induction m, bytes, before using scan.induct with
  | case1 m bytes before hunit =>
      obtain ⟨hle, hincomplete⟩ := held_of_wait hm hunit
      rw [scan_of_wait hunit] at h
      cases h
      rw [finished_of_wait hunit]
      exact ⟨⟨hm, hle, hincomplete⟩, rfl⟩
  | case2 m bytes before e hunit =>
      rw [scan_of_refuse hunit] at h
      contradiction
  | case3 m bytes before m' rest body? hunit ih =>
      obtain ⟨hnext, hbody⟩ := bounded_of_next hm hunit
      rw [scan_of_next hunit] at h
      obtain ⟨hbounded, hbodies⟩ := ih hnext h
      refine ⟨hbounded, ?_⟩
      rw [hbodies, hbody, finished_of_next hunit]
      cases m.finished? bytes with
      | none => simp
      | some f => cases hf : f.delivered? <;> simp [hf]

end Message

namespace Reassembler

variable {r : Reassembler}

/-! ## Pushes and resets -/

theorem bounded_empty : empty.Bounded where
  message := Message.bounded_empty
  held_le := Nat.zero_le _
  incomplete := by simp [empty, Message.empty, Framing.Complete, Message.lineEnd, Message.headerEnd]

/-- The messages that a push ends, with their bodies as they arrived. -/
def finished (r : Reassembler) (data : List UInt8) : List Message :=
  r.message.finished (r.held ++ data)

/-- A push keeps the bounds, and delivers the bodies that it ends unless it is refused. -/
theorem bounded_push (h : r.Bounded) (data : List UInt8) :
    (r.push data).1.Bounded ∧ ∀ bodies, (r.push data).2 = .ok bodies →
      bodies = (r.finished data).filterMap Message.delivered? := by
  unfold push push?
  cases hscan : r.message.scan (r.held ++ data) [] with
  | error e => exact ⟨bounded_empty, nofun⟩
  | ok taken =>
      obtain ⟨r', bodies⟩ := taken
      obtain ⟨hbounded, hbodies⟩ := Message.bounded_of_scan h.message hscan
      refine ⟨hbounded, ?_⟩
      rintro _ ⟨⟩
      rw [hbodies, List.append_nil, List.reverse_reverse]
      rfl

/-- What can be done with a reassembler. -/
inductive Use where
  | push (data : List UInt8)
  /-- Discard what there is of a message. -/
  | reset
  deriving DecidableEq, Repr

/-- The reassembler behind a use, whatever comes of it. -/
def use (r : Reassembler) : Use → Reassembler
  | .push data => (r.push data).1
  | .reset => empty

/-- A new reassembler behind uses one after the other. -/
def useAll (uses : List Use) : Reassembler := uses.foldl use empty

/-- Whatever is done to a reassembler, it stays within the limits. -/
theorem bounded_useAll (uses : List Use) : (useAll uses).Bounded := by
  suffices ∀ r : Reassembler, r.Bounded → (uses.foldl use r).Bounded from this empty bounded_empty
  induction uses with
  | nil => exact fun _ h => h
  | cons u uses ih =>
      intro r h
      refine ih (r.use u) ?_
      cases u with
      | push data => exact (bounded_push h data).1
      | reset => exact bounded_empty

/-- **Uses**: after any pushes and resets a further push leaves the reassembler bounded.  The bodies
that it ends are no larger than a body may be, and unless the push is refused these are the bodies
that are delivered. -/
theorem bounded_of_uses (uses : List Use) (data : List UInt8) :
    ((useAll uses).push data).1.Bounded ∧
      (∀ f ∈ (useAll uses).finished data, f.body.length ≤ maxBodySize) ∧
      ∀ bodies, ((useAll uses).push data).2 = .ok bodies →
        bodies = ((useAll uses).finished data).filterMap Message.delivered? := by
  have hbefore := bounded_useAll uses
  obtain ⟨hafter, hbodies⟩ := bounded_push hbefore data
  exact ⟨hafter, fun f hf => Message.length_le_of_mem_finished hbefore.message hf, hbodies⟩

end Reassembler

end Http

end FlowRelay
