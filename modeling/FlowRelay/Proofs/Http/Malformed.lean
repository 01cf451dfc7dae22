import FlowRelay.Proofs.Http.Decoding

/-!
# FlowRelay.Proofs.Http.Malformed

What becomes of complete messages in front of malformed framing.

1. *Late bodies* (`Message.late_bytes`): before its last byte a message delivers nothing, so a
   front of a stream delivers the bodies of the messages that end in it (`scan_front`).
2. *Where a stream is refused* (`exists_refused`): a stream with malformed framing in it is refused
   in one of its pieces, however it is divided.
3. *What is delivered* (`feed_malformed`): the bodies of the messages that end in front of the
   refused piece, and not the bodies of those that end in it.
4. *What is lost* (`collect_malformed_together`): a complete message in front of malformed framing,
   if both come in one piece.
-/

namespace FlowRelay.Http

open Message (lineEnd)

/-! ## Fronts of a stream -/

/-- The messages that end within so many bytes of the stream. -/
def ended : List Outgoing → Nat → List Outgoing
  | [], _ => []
  | o :: messages, n => if o.bytes.length ≤ n then o :: ended messages (n - o.bytes.length) else []

theorem ended_prefix (messages : List Outgoing) (n : Nat) : ended messages n <+: messages := by
  induction messages generalizing n with
  | nil => exact List.prefix_rfl
  | cons o messages ih =>
      rw [ended]
      split
      · exact (List.prefix_cons_inj o).mpr (ih _)
      · exact List.nil_prefix

/-- All messages end within a front only if all their bytes are in it. -/
theorem le_of_ended {messages : List Outgoing} {n : Nat} (h : ended messages n = messages) :
    (messages.flatMap (·.bytes)).length ≤ n := by
  induction messages generalizing n with
  | nil => exact Nat.zero_le n
  | cons o messages ih =>
      rw [ended] at h
      split at h
      · injection h with _ hrest
        have hle := ih hrest
        rw [List.flatMap_cons, List.length_append]
        omega
      · contradiction

namespace Message

variable {m m₁ m' : Message} {x y a : List UInt8} {found : List (List UInt8)}
  {body? : Option (List UInt8)}

/-! ## Late bodies -/

/-- A front of bytes that are taken delivers a part of what they deliver. -/
theorem Takes.bodies_prefix (h : m.Takes x m' found) (ha : a <+: x) :
    ∃ r before, m.scan a [] = .ok (r, before.reverse) ∧ before <+: found := by
  obtain ⟨⟨r, taken⟩, htaken⟩ := h.scan_prefix a ha
  obtain ⟨b, rfl⟩ := ha
  have hwhole := h.scan_eq
  rw [scan_append htaken, scan_eq_map] at hwhole
  cases hbehind : r.message.scan (r.held ++ b) [] with
  | error e =>
      rw [hbehind] at hwhole
      contradiction
  | ok taken' =>
      obtain ⟨r', more⟩ := taken'
      rw [hbehind] at hwhole
      injection hwhole with hwhole
      injection hwhole with _ hfound
      have hparts : found = taken.reverse ++ more.reverse := by
        rw [← List.reverse_append, hfound, List.reverse_reverse]
      exact ⟨r, taken.reverse, by rw [htaken, List.reverse_reverse], more.reverse, hparts.symm⟩

/-- A front of one unit delivers nothing, unless it is the whole unit. -/
theorem scan_of_front (hunit : m.scanUnit x = .next m' [] body?) (ha : a <+: x) (hne : a ≠ x)
    {taken : Reassembler × List (List UInt8)} (htaken : m.scan a [] = .ok taken) :
    taken.2 = [] := by
  obtain ⟨b, rfl⟩ := ha
  cases hfront : m.scanUnit a with
  | wait =>
      rw [scan_of_wait hfront] at htaken
      injection htaken with htaken
      rw [← htaken]
  | refuse e =>
      rw [scan_of_refuse hfront] at htaken
      contradiction
  | next m₁ rest body₁? =>
      cases scanUnit_append (show (m.scanUnit a).isSettled by rw [hfront]; rfl) with
      | inl hstays =>
          -- A unit that ends in the front leaves the bytes behind the front over.
          have hleft := hstays b
          rw [hunit, hfront] at hleft
          injection hleft with _ hrest _
          obtain ⟨-, hb⟩ := List.append_eq_nil_iff.mp hrest.symm
          rw [hb, List.append_nil] at hne
          contradiction
      | inr hgoes =>
          obtain ⟨m₂, hpart, -⟩ := hgoes
          rw [scan_of_next hpart, scan_nil] at htaken
          injection htaken with htaken
          rw [← htaken]
          rfl

/-- A message with a body ends with the unit that completes the body. -/
theorem exists_last_unit {o : Outgoing} (h : o.WellFormed) (hdata : o.body.data ≠ []) :
    ∃ front m₁ last, o.bytes = front ++ last ∧ empty.Takes front m₁ [] ∧
      m₁.scanUnit last = .next empty [] o.received? := by
  have hframed := h.framedBy
  have hwell := h.body
  have hmax := h.data_le
  have hgap := takes_emptyLines o.gap
  rw [← decoded_eq]
  cases hbody : o.body with
  | absent =>
      rw [hbody] at hdata
      exact absurd rfl hdata
  | sized data =>
      rw [hbody] at hframed hmax hdata
      have hne : data ≠ [] := hdata
      have hlength : data.length ≠ 0 := by simpa using hne
      have henter : empty.enter o.header [] =
          .next ⟨.fixed data.length, [], o.isGzip⟩ [] none := by
        rw [Outgoing.header, hframed.1, hframed.2]
        exact enter_sized hlength hmax
      refine ⟨_, _, data, ?_, hgap.append (takes_head h henter), ?_⟩
      · rw [Outgoing.bytes, hbody, List.append_assoc]
        rfl
      · have hscan : scanUnit ⟨.fixed data.length, [], o.isGzip⟩ data =
            stretch data.length data
              (fun got => finish ⟨.fixed data.length, got.reverse ++ [], o.isGzip⟩)
              fun got left => ⟨.fixed left, got.reverse ++ [], o.isGzip⟩ := rfl
        rw [hscan, stretch, if_neg hne, if_pos le_rfl, List.take_length, List.drop_length]
        simp [finish, Body.data]
  | chunked chunks last trailers =>
      rw [hbody] at hframed hwell hmax
      obtain ⟨hchunks, hlast, htrailers⟩ := hwell
      have henter : empty.enter o.header [] = .next ⟨.chunkSize, [], o.isGzip⟩ [] none := by
        rw [Outgoing.header, show o.lines.any (·.isChunked) = true from hframed]
        rfl
      have hchunks : Takes ⟨.chunkSize, [], o.isGzip⟩ (chunks.flatMap (·.bytes))
          ⟨.chunkSize, (chunks.flatMap (·.data)).reverse ++ [], o.isGzip⟩ [] :=
        takes_chunks hchunks (by rw [List.length_nil, Nat.zero_add]; exact hmax)
      rw [List.append_nil] at hchunks
      have hzero := takes_sizeLine hlast (Nat.zero_le _)
        (show enterChunk ⟨.chunkSize, (chunks.flatMap (·.data)).reverse, o.isGzip⟩ 0 [] =
          .next ⟨.trailers, (chunks.flatMap (·.data)).reverse, o.isGzip⟩ [] none from rfl)
      have hfront := hgap.append ((takes_head h henter).append
        (hchunks.append (hzero.append (takes_trailers htrailers))))
      refine ⟨_, _, lineEnd, ?_, hfront, ?_⟩
      · rw [Outgoing.bytes, hbody]
        simp only [Body.bytes, List.append_assoc]
      · have hscan : scanUnit ⟨.trailers, (chunks.flatMap (·.data)).reverse, o.isGzip⟩ lineEnd =
            finish ⟨.trailers, (chunks.flatMap (·.data)).reverse, o.isGzip⟩ [] := rfl
        simp [hscan, finish, Body.data]

/-- **Late bodies**: before its last byte, a message with a body delivers nothing. -/
theorem late_bytes {o : Outgoing} (h : o.WellFormed) (hdata : o.body.data ≠ [])
    (ha : a <+: o.bytes) (hne : a ≠ o.bytes) : ∃ r, empty.scan a [] = .ok (r, []) := by
  obtain ⟨front, m₁, last, hbytes, hfront, hlast⟩ := exists_last_unit h hdata
  have hwhole := takes_bytes h
  obtain ⟨taken, htaken⟩ := hwhole.scan_prefix a ha
  obtain ⟨b, hb⟩ := ha
  rw [hbytes] at hb hne
  cases List.append_eq_append_iff.mp hb with
  | inl hinside =>
      obtain ⟨c, hc, -⟩ := hinside
      obtain ⟨r, before, hscan, hbefore⟩ := hfront.bodies_prefix ⟨c, hc.symm⟩
      obtain rfl := List.prefix_nil.mp hbefore
      exact ⟨r, hscan⟩
  | inr hbehind =>
      obtain ⟨c, rfl, hc⟩ := hbehind
      rw [hfront.scan_append_eq] at htaken ⊢
      cases hunit : m₁.scan c [] with
      | error e =>
          rw [hunit] at htaken
          contradiction
      | ok taken' =>
          have hpart : c ≠ last := fun heq => hne (by rw [heq])
          have hnone := scan_of_front hlast ⟨b, hc.symm⟩ hpart hunit
          exact ⟨taken'.1, by simp [Except.map, hnone]⟩

/-- **Fronts**: a front of a list of messages delivers the bodies of those that end in it. -/
theorem scan_front {messages : List Outgoing}
    (h : ∀ o ∈ messages, o.WellFormed ∧ o.body.data ≠ []) (ha : a <+: messages.flatMap (·.bytes)) :
    ∃ r, empty.scan a [] =
      .ok (r, ((ended messages a.length).filterMap (·.received?)).reverse) := by
  induction messages generalizing a with
  | nil =>
      obtain rfl := List.prefix_nil.mp ha
      exact ⟨_, scan_nil empty []⟩
  | cons o messages ih =>
      obtain ⟨hwell, hdata⟩ := h o List.mem_cons_self
      rw [List.flatMap_cons] at ha
      rw [ended]
      by_cases hle : o.bytes.length ≤ a.length
      · obtain ⟨c, rfl⟩ := (List.prefix_of_prefix_length_le (List.prefix_append _ _) ha hle)
        obtain ⟨r, hr⟩ := ih (fun o ho => h o (List.mem_cons_of_mem _ ho))
          ((List.prefix_append_right_inj _).mp ha)
        have hlength : (o.bytes ++ c).length - o.bytes.length = c.length := by
          rw [List.length_append]
          omega
        rw [if_pos hle, hlength, (takes_bytes hwell).scan_append_eq, hr]
        refine ⟨r, ?_⟩
        cases hreceived : o.received? <;> simp [Except.map, hreceived]
      · have hfront : a <+: o.bytes :=
          List.prefix_of_prefix_length_le ha (List.prefix_append _ _) (by omega)
        have hne : a ≠ o.bytes := fun heq => hle (by rw [heq])
        rw [if_neg hle]
        exact late_bytes hwell hdata hfront hne

end Message

namespace Reassembler

variable {r r' : Reassembler} {pieces : List (List UInt8)} {bodies : List (List UInt8)}
  {e : FramingError}

/-! ## Where a stream is refused -/

/-- Pieces that are taken one after the other are taken at once. -/
theorem push?_flatten {before : List UInt8} {found : List (List UInt8)}
    (hbefore : empty.push? before = .ok (r, found)) (h : r.feed pieces = .ok (r', bodies)) :
    empty.push? (before ++ pieces.flatten) = .ok (r', found ++ bodies) := by
  induction pieces generalizing before r found bodies with
  | nil =>
      cases h
      rw [List.flatten_nil, List.append_nil, List.append_nil, hbefore]
  | cons piece pieces ih =>
      have happend := push?_append hbefore piece
      cases hpiece : r.push? piece with
      | error e =>
          rw [feed, push_of_error hpiece] at h
          contradiction
      | ok taken =>
          obtain ⟨r₁, first⟩ := taken
          rw [feed, push_of_ok hpiece] at h
          rw [hpiece] at happend
          cases hrest : r₁.feed pieces with
          | error e =>
              simp only [hrest] at h
              contradiction
          | ok taken =>
              obtain ⟨r₂, more⟩ := taken
              simp only [hrest] at h
              cases h
              have hall := ih happend hrest
              rwa [List.append_assoc, List.append_assoc] at hall

/-- Feeding stops at the first piece that is refused. -/
theorem exists_refused (h : r.feed pieces = .error e) :
    ∃ front piece back r' bodies, pieces = front ++ piece :: back ∧
      r.feed front = .ok (r', bodies) ∧ r'.push piece = (empty, .error e) := by
  induction pieces generalizing r with
  | nil => contradiction
  | cons piece pieces ih =>
      cases hpiece : r.push? piece with
      | error e' =>
          rw [feed, push_of_error hpiece] at h
          cases h
          exact ⟨[], piece, pieces, r, [], rfl, rfl, push_of_error hpiece⟩
      | ok taken =>
          obtain ⟨r₁, first⟩ := taken
          rw [feed, push_of_ok hpiece] at h
          cases hrest : r₁.feed pieces with
          | ok taken =>
              simp only [hrest] at h
              contradiction
          | error e' =>
              simp only [hrest] at h
              cases h
              obtain ⟨front, piece', back, r₂, more, rfl, hfront, hrefused⟩ := ih hrest
              refine ⟨piece :: front, piece', back, r₂, first ++ more, rfl, ?_, hrefused⟩
              rw [feed, push_of_ok hpiece]
              simp only [hfront]
              rfl

/-! ## What is delivered -/

/-- The bodies that a caller gets who goes on pushing behind a piece that is refused, which itself
gives none. -/
def collect (r : Reassembler) : List (List UInt8) → List (List UInt8)
  | [] => []
  | piece :: pieces =>
    match r.push piece with
    | (r, .error _) => collect r pieces
    | (r, .ok bodies) => bodies ++ collect r pieces

/-- Behind a refused piece everything starts anew. -/
theorem collect_of_refused {front back : List (List UInt8)} {piece : List UInt8}
    (hfront : r.feed front = .ok (r', bodies)) (hpiece : r'.push piece = (empty, .error e)) :
    r.collect (front ++ piece :: back) = bodies ++ empty.collect back := by
  induction front generalizing r bodies with
  | nil =>
      cases hfront
      rw [List.nil_append, collect, hpiece]
      rfl
  | cons first front ih =>
      obtain ⟨r₁, result, hfirst⟩ : ∃ r₁ result, r.push first = (r₁, result) := ⟨_, _, rfl⟩
      cases result with
      | error e =>
          simp only [feed, hfirst] at hfront
          contradiction
      | ok found =>
          simp only [feed, hfirst] at hfront
          simp only [List.cons_append, collect, hfirst]
          cases hrest : r₁.feed front with
          | error e =>
              rw [hrest] at hfront
              contradiction
          | ok taken =>
              rw [hrest] at hfront
              cases hfront
              rw [List.append_assoc, ← ih hrest]

/-- Every message with a body counts among the bodies. -/
theorem length_received {messages : List Outgoing} (h : ∀ o ∈ messages, o.body.data ≠ []) :
    (messages.filterMap (·.received?)).length = messages.length := by
  rw [List.filterMap_length_eq_length]
  intro o ho
  rw [Outgoing.received?, if_neg (h o ho)]
  split <;> rfl

theorem push?_empty_eq (x : List UInt8) :
    empty.push? x = (Message.empty.scan x []).map fun (r, found) => (r, found.reverse) := rfl

theorem push?_nil : empty.push? [] = .ok (empty, []) := by
  rw [push?_empty_eq, Message.scan_nil]
  rfl

theorem push?_of_push_error {x : List UInt8} (h : (r.push x).2 = .error e) :
    r.push? x = .error e := by
  cases hpush : r.push? x with
  | error e' =>
      rw [push_of_error hpush] at h
      cases h
      rfl
  | ok taken =>
      rw [push_of_ok hpush] at h
      contradiction

section

variable {messages : List Outgoing} (h : ∀ o ∈ messages, o.WellFormed ∧ o.body.data ≠ [])

include h

theorem takes_messages : Message.empty.Takes (messages.flatMap (·.bytes)) Message.empty
    (messages.filterMap (·.received?)) := by
  have htakes := Message.takes_encode (fun o ho => (h o ho).1) 0
  rwa [encode, show Outgoing.emptyLines 0 = [] from rfl, List.append_nil] at htakes

/-- What stands behind complete messages is pushed as if it came first. -/
theorem push?_messages (x : List UInt8) : empty.push? (messages.flatMap (·.bytes) ++ x) =
    (empty.push? x).map fun (r, more) => (r, messages.filterMap (·.received?) ++ more) := by
  have hall : empty.push? (messages.flatMap (·.bytes)) =
      .ok (empty, messages.filterMap (·.received?)) := by
    rw [push?_empty_eq, (takes_messages h).scan_eq, Except.map]
    simp only [List.reverse_reverse]
    rfl
  exact push?_append hall x

/-- A front of complete messages is taken, and delivers the bodies of those that end in it. -/
theorem push?_front {a : List UInt8} (ha : a <+: messages.flatMap (·.bytes)) :
    ∃ r, empty.push? a = .ok (r, (ended messages a.length).filterMap (·.received?)) := by
  obtain ⟨r, hr⟩ := Message.scan_front h ha
  exact ⟨r, by simp only [push?_empty_eq, hr, Except.map, List.reverse_reverse]⟩

/-- All bodies are delivered by a front of the stream exactly if all messages end in it. -/
theorem received_prefix_iff {a more : List UInt8}
    (ha : a <+: messages.flatMap (·.bytes) ++ more) (htaken : empty.push? a = .ok (r, bodies)) :
    messages.filterMap (·.received?) <+: bodies ↔
      (messages.flatMap (·.bytes)).length ≤ a.length := by
  constructor
  · intro hall
    by_contra hlt
    have hfront : a <+: messages.flatMap (·.bytes) :=
      List.prefix_of_prefix_length_le ha (List.prefix_append _ _) (by omega)
    obtain ⟨r', hended⟩ := push?_front h hfront
    rw [htaken] at hended
    cases hended
    have hsub := ended_prefix messages a.length
    have hle := hall.length_le
    rw [length_received fun o ho => (h o ho).2,
      length_received fun o ho => (h o (hsub.subset ho)).2] at hle
    have hsame := hsub.eq_of_length (Nat.le_antisymm hsub.length_le hle)
    exact hlt (le_of_ended hsame)
  · intro hle
    obtain ⟨behind, rfl⟩ :=
      List.prefix_of_prefix_length_le (List.prefix_append _ more) ha hle
    rw [push?_messages h] at htaken
    cases hbehind : empty.push? behind with
    | error e =>
        rw [hbehind] at htaken
        contradiction
    | ok taken =>
        rw [hbehind] at htaken
        cases htaken
        exact List.prefix_append _ _

/-- **Malformed framing**: behind complete messages it leads to a piece that is refused, however the
stream is divided.  Delivered are the bodies of the messages that end in front of this piece.  So
all of them are delivered exactly if no message ends in the piece that is refused. -/
theorem feed_malformed {bad : List UInt8} (hbad : (empty.push bad).2 = .error e)
    (hpieces : pieces.flatten = messages.flatMap (·.bytes) ++ bad) :
    ∃ front piece back r bodies e', pieces = front ++ piece :: back ∧
      empty.feed front = .ok (r, bodies) ∧ r.push piece = (empty, .error e') ∧
      empty.collect pieces = bodies ++ empty.collect back ∧
      (messages.flatMap (·.bytes)).length < (front.flatten ++ piece).length ∧
      (front.flatten.length ≤ (messages.flatMap (·.bytes)).length →
        bodies = (ended messages front.flatten.length).filterMap (·.received?)) ∧
      (messages.filterMap (·.received?) <+: bodies ↔
        (messages.flatMap (·.bytes)).length ≤ front.flatten.length) := by
  -- A stream that is taken in pieces is taken at once, and at once this one is refused.
  have hrefused : ∃ e', empty.feed pieces = .error e' := by
    cases hfeed : empty.feed pieces with
    | error e' => exact ⟨e', rfl⟩
    | ok taken =>
        have hwhole := push?_flatten push?_nil hfeed
        rw [List.nil_append, hpieces, push?_messages h, push?_of_push_error hbad] at hwhole
        contradiction
  obtain ⟨e', hrefused⟩ := hrefused
  obtain ⟨front, piece, back, r, bodies, rfl, hfront, hpiece⟩ := exists_refused hrefused
  have htaken : empty.push? front.flatten = .ok (r, bodies) := push?_flatten push?_nil hfront
  have hstream : front.flatten ++ piece <+: messages.flatMap (·.bytes) ++ bad := by
    rw [← hpieces]
    exact ⟨back.flatten, by simp⟩
  refine ⟨front, piece, back, r, bodies, e', rfl, hfront, hpiece,
    collect_of_refused hfront hpiece, ?_, fun hle => ?_,
    received_prefix_iff h ((List.prefix_append _ _).trans hstream) htaken⟩
  · -- Within the messages the piece would have been taken.
    by_contra hle
    obtain ⟨r', hr'⟩ := push?_front h
      (List.prefix_of_prefix_length_le hstream (List.prefix_append _ _) (by omega))
    rw [push?_append htaken, push?_of_push_error (by rw [hpiece])] at hr'
    contradiction
  · obtain ⟨r', hr'⟩ := push?_front h (List.prefix_of_prefix_length_le
      ((List.prefix_append _ _).trans hstream) (List.prefix_append _ _) hle)
    rw [htaken] at hr'
    cases hr'
    rfl

end

/-! ## What is lost -/

/-- A response with a body of two bytes. -/
def reply : Outgoing where
  gap := 0
  start := "HTTP/1.1 200 OK".toList
  lines := [.length "Content-Length".toList " 2".toList 2]
  body := .sized [0x6F, 0x6B]

/-- A header section that states a length which is no number. -/
def malformed : List UInt8 :=
  lineBytes "HTTP/1.1 200 OK".toList ++ (lineBytes "Content-Length: many".toList ++ lineEnd)

theorem reply_wellFormed : reply.WellFormed := by
  have htwo : Text.Spells 10 (Header.normal " 2".toList) 2 := by
    rw [show Header.normal " 2".toList = ['2'] by decide]
    exact .digit (by decide)
  have hlength : (HeaderLine.length "Content-Length".toList " 2".toList 2).WellFormed :=
    ⟨by decide, by decide, by decide, htwo, by decide⟩
  exact ⟨by decide, List.forall_mem_singleton.mpr hlength, by decide, ⟨rfl, rfl⟩, trivial,
    by decide⟩

theorem push_malformed : empty.push malformed = (empty, .error .invalidContentLength) := by
  have hunit : Message.empty.scanUnit malformed = .refuse .invalidContentLength := by
    decide +kernel
  apply push_of_error
  rw [push?_empty_eq, Message.scan_of_refuse hunit]
  rfl

theorem push_reply : empty.push reply.bytes = (empty, .ok [[0x6F, 0x6B]]) := by
  have hhead : Message.empty.scanUnit reply.bytes =
      .next ⟨.fixed 2, [], false⟩ [0x6F, 0x6B] none := by decide +kernel
  have hbody : Message.scanUnit ⟨.fixed 2, [], false⟩ [0x6F, 0x6B] =
      .next .empty [] (some [0x6F, 0x6B]) := by decide +kernel
  apply push_of_ok
  rw [push?_empty_eq, Message.scan_of_next hhead, Message.scan_of_next hbody, Message.scan_nil]
  rfl

/-- Malformed framing that comes in one piece with a complete message takes the body of the message
with it.  In a piece of its own it does not. -/
theorem collect_malformed_together :
    (∀ o ∈ [reply], o.WellFormed ∧ o.body.data ≠ []) ∧
    (empty.push malformed).2 = .error .invalidContentLength ∧
    [reply].filterMap (·.received?) = [[0x6F, 0x6B]] ∧
    empty.collect [[reply].flatMap (·.bytes) ++ malformed] = [] ∧
    empty.collect [[reply].flatMap (·.bytes), malformed] = [[0x6F, 0x6B]] := by
  have hbytes : [reply].flatMap (·.bytes) = reply.bytes := List.flatMap_singleton ..
  have htogether : empty.push (reply.bytes ++ malformed) =
      (empty, .error .invalidContentLength) := by
    apply push_of_error
    rw [push?_append (push?_of_push push_reply), push?_of_push_error (by rw [push_malformed])]
    rfl
  refine ⟨?_, by rw [push_malformed], by decide +kernel, ?_, ?_⟩
  · rw [List.forall_mem_singleton]
    exact ⟨reply_wellFormed, by decide⟩
  · rw [hbytes, collect, htogether]
    rfl
  · rw [hbytes, collect, push_reply]
    simp only
    rw [collect, push_malformed]
    rfl

/-- A body whose last bytes come in one piece with malformed framing is not delivered. -/
theorem collect_malformed_reply :
    empty.collect [reply.bytes.take 39, reply.bytes.drop 39 ++ malformed] = [] := by
  have hwell : ∀ o ∈ [reply], o.WellFormed ∧ o.body.data ≠ [] :=
    List.forall_mem_singleton.mpr ⟨reply_wellFormed, by decide⟩
  have hbad : (empty.push malformed).2 = .error .invalidContentLength := by rw [push_malformed]
  have hpieces : [reply.bytes.take 39, reply.bytes.drop 39 ++ malformed].flatten =
      [reply].flatMap (·.bytes) ++ malformed := by
    rw [List.flatten_cons, List.flatten_singleton, ← List.append_assoc, List.take_append_drop,
      List.flatMap_singleton]
  obtain ⟨front, piece, back, r, bodies, e, hsplit, -, -, hcollect, hreach, hbodies, -⟩ :=
    feed_malformed hwell hbad hpieces
  rw [hcollect]
  rcases front with _ | ⟨first, _ | ⟨second, front⟩⟩
  · -- The first piece alone does not reach the malformed bytes.
    injection hsplit with hpiece _
    rw [← hpiece] at hreach
    exact absurd hreach (by decide +kernel)
  · injection hsplit with hfirst hsplit
    injection hsplit with _ hback
    rw [← hfirst] at hbodies
    rw [← hback, hbodies (by decide +kernel)]
    decide +kernel
  · injection hsplit with _ hsplit
    injection hsplit with _ hsplit
    simp at hsplit

end Reassembler

end FlowRelay.Http
