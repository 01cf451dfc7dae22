import Mathlib.Data.List.Infix
import FlowRelay.Proofs.Tcp.Conversation

/-!
# FlowRelay.Proofs.Tcp.SequenceSpace

The sequence numbers of the packets to the device, and the stream that it reassembles from them.

1. *Spans* (`Reply.span`): data takes up its length, a SYN and a FIN take up one number each.
2. *Receivers* (`Receiver.takeAll`): a device that takes nothing out of order reassembles a stream.
3. *Utterances* (`Turn.utterance`): an open session says at most one packet in a turn, numbered by
   its sequence, which then moves on by the span of the packet.
4. *Numbering* (`Numbered.turn`): so every packet carries the next number that was not used, except
   for the RST of a connect that failed.
5. *Runs* (`run_sequenceSpace`): what that means for each kind of packet, and that the stream is
   what was read from the outbound socket.
-/

namespace FlowRelay.Tcp

open Packet

/-! ## Spans -/

/-- How many sequence numbers a packet takes up. -/
def Reply.span (r : Reply) : Nat :=
  match r.kind with
  | .synAck | .fin => 1
  | .data => r.payload.length
  | .ack | .rst | .other => 0

/-- How many sequence numbers packets take up. -/
def span : List Reply → Nat
  | [] => 0
  | r :: rest => r.span + span rest

/-- The next sequence number that packets leave unused. -/
def nextSequence (isn : UInt32) (replies : List Reply) : UInt32 := isn + UInt32.ofNat (span replies)

/-- The payloads of the data among packets. -/
def dataOf (replies : List Reply) : List (List UInt8) :=
  (replies.filter (·.kind = .data)).map Reply.payload

/-- The number of bytes of the data among packets. -/
def volume (replies : List Reply) : Nat := (dataOf replies).flatten.length

/-- Whether the device has been told the end of the stream. -/
def isFinished (replies : List Reply) : Bool := replies.any (·.kind = .fin)

section

variable {isn : UInt32} {replies more : List Reply} {r : Reply}

/-- Replies take up the numbers of each of them. -/
theorem span_append (xs ys : List Reply) : span (xs ++ ys) = span xs + span ys := by
  induction xs with
  | nil => exact (Nat.zero_add _).symm
  | cons r xs ih => rw [List.cons_append, span, span, ih, Nat.add_assoc]

theorem nextSequence_nil (isn : UInt32) : nextSequence isn [] = isn := UInt32.add_zero isn

/-- The next number is counted on from reply to reply. -/
theorem nextSequence_append (isn : UInt32) (xs ys : List Reply) :
    nextSequence isn (xs ++ ys) = nextSequence (nextSequence isn xs) ys := by
  rw [nextSequence, span_append, UInt32.ofNat_add, ← UInt32.add_assoc]
  rfl

theorem nextSequence_singleton (isn : UInt32) (r : Reply) :
    nextSequence isn [r] = isn + UInt32.ofNat r.span := rfl

/-- The data of replies is that of each of them. -/
theorem dataOf_append (xs ys : List Reply) : dataOf (xs ++ ys) = dataOf xs ++ dataOf ys := by
  rw [dataOf, List.filter_append, List.map_append]
  rfl

/-- A reply with data has a payload. -/
theorem Reply.payload_ne_nil (r : Reply) (h : r.kind = .data) : r.payload ≠ [] := by
  intro hnone
  simp only [kind, hnone, ne_eq, not_true_eq_false, if_false] at h
  split at h
  · contradiction
  · split at h
    · contradiction
    · split at h
      · contradiction
      · split at h <;> contradiction

/-- Only data has a payload. -/
theorem Reply.payload_eq_nil (r : Reply) (hdata : r.kind ≠ .data) (hother : r.kind ≠ .other) :
    r.payload = [] := by
  by_contra hsome
  simp only [kind, hsome, ne_eq, not_false_eq_true, if_true] at hdata hother
  split at hdata
  · contradiction
  · next hflags => exact hother (if_neg hflags)

/-- A reply of any other kind brings no data. -/
theorem dataOf_of_ne {r : Reply} (h : r.kind ≠ .data) : dataOf [r] = [] := by
  simp [dataOf, h]

theorem dataOf_of_eq {r : Reply} (h : r.kind = .data) : dataOf [r] = [r.payload] := by
  simp [dataOf, h]

/-- A stream is finished when a FIN was sent. -/
theorem isFinished_iff (replies : List Reply) :
    isFinished replies = true ↔ .fin ∈ replies.map Reply.kind := by
  simp [isFinished]

theorem isFinished_append (xs ys : List Reply) :
    isFinished (xs ++ ys) = (isFinished xs || isFinished ys) := List.any_append

/-- The numbers that packets take up are those of the handshake, of the data and of the end. -/
theorem span_eq (replies : List Reply) :
    span replies = (replies.map Reply.kind).count .synAck + volume replies +
      (replies.map Reply.kind).count .fin := by
  induction replies with
  | nil => rfl
  | cons r rest ih =>
      have hvolume : volume (r :: rest) =
          (if r.kind = .data then r.payload.length else 0) + volume rest := by
        by_cases hdata : r.kind = .data <;> simp [volume, dataOf, hdata]
      rw [span, ih, hvolume]
      cases hkind : r.kind <;> simp [Reply.span, hkind] <;> omega

end

/-! ## Receivers -/

/-- A device that reassembles a stream. -/
structure Receiver where
  /-- The number that it expects next. -/
  next : UInt32
  stream : List UInt8
  ended : Bool

namespace Receiver

/-- Take a packet.  Nothing that takes up numbers is taken out of order, or behind the end. -/
def take (d : Receiver) (r : Reply) : Option Receiver :=
  if r.span = 0 then some d
  else if r.sequence = d.next ∧ d.ended = false then
    some
      { next := d.next + UInt32.ofNat r.span, stream := d.stream ++ r.payload
        ended := r.kind = .fin }
  else none

/-- Take packets in order. -/
def takeAll (d : Receiver) : List Reply → Option Receiver
  | [] => some d
  | r :: rest => (d.take r).bind (·.takeAll rest)

/-- A device that expects the packets of a connection with this initial sequence number. -/
def start (isn : UInt32) : Receiver := { next := isn, stream := [], ended := false }

/-- What carries the next number, or takes up none, is taken. -/
theorem take_of_next {d : Receiver} {r : Reply}
    (h : r.span ≠ 0 → r.sequence = d.next ∧ d.ended = false) :
    d.take r = some
      { next := nextSequence d.next [r], stream := d.stream ++ (dataOf [r]).flatten
        ended := d.ended || isFinished [r] } := by
  rw [take, nextSequence_singleton]
  by_cases hspan : r.span = 0
  · have hdata : r.kind ≠ .data := fun hkind => by
      have hpayload := r.payload_ne_nil hkind
      simp [Reply.span, hkind, hpayload] at hspan
    have hfin : r.kind ≠ .fin := fun hkind => by simp [Reply.span, hkind] at hspan
    have hnone : isFinished [r] = false := by simp [isFinished, hfin]
    rw [if_pos hspan, hspan, dataOf_of_ne hdata, hnone, List.flatten_nil, List.append_nil,
      Bool.or_false]
    exact congrArg some (congrArg (Receiver.mk · d.stream d.ended) (UInt32.add_zero _).symm)
  · obtain ⟨hnext, hended⟩ := h hspan
    have hstream : r.payload = (dataOf [r]).flatten := by
      by_cases hdata : r.kind = .data
      · rw [dataOf_of_eq hdata, List.flatten_singleton]
      · rw [dataOf_of_ne hdata, List.flatten_nil]
        refine r.payload_eq_nil hdata fun hother => ?_
        simp [Reply.span, hother] at hspan
    have hended' : decide (r.kind = .fin) = isFinished [r] := by simp [isFinished]
    rw [if_neg hspan, if_pos ⟨hnext, hended⟩, hended, hended', ← hstream, Bool.false_or]

/-- The receiver takes a further reply behind all others. -/
theorem takeAll_concat (d : Receiver) (replies : List Reply) (r : Reply) :
    d.takeAll (replies ++ [r]) = (d.takeAll replies).bind (·.take r) := by
  induction replies generalizing d with
  | nil =>
      rw [List.nil_append, takeAll, takeAll, Option.bind_some]
      exact Option.bind_fun_some _
  | cons r' rest ih =>
      rw [List.cons_append, takeAll, takeAll, Option.bind_assoc]
      exact congrArg _ (funext fun d => ih d)

/-- **Reassembly**: packets that carry the next number each, where they take up any, and of which
none takes up numbers behind the end, are all taken. -/
theorem takeAll_start {isn : UInt32} {replies : List Reply}
    (h : ∀ before r after, replies = before ++ r :: after → r.span ≠ 0 →
      r.sequence = nextSequence isn before ∧ isFinished before = false) :
    (start isn).takeAll replies = some
      { next := nextSequence isn replies, stream := (dataOf replies).flatten
        ended := isFinished replies } := by
  induction replies using List.reverseRecOn with
  | nil =>
      rw [nextSequence_nil]
      rfl
  | append_singleton replies r ih =>
      have hfront : ∀ before r' after, replies = before ++ r' :: after → r'.span ≠ 0 →
          r'.sequence = nextSequence isn before ∧ isFinished before = false := by
        rintro before r' after rfl
        exact h before r' (after ++ [r]) (by simp)
      rw [takeAll_concat, ih hfront, Option.bind_some, take_of_next (h replies r [] rfl),
        nextSequence_append, dataOf_append, List.flatten_append, isFinished_append]

end Receiver

/-! ## Utterances -/

/-- What a deed yields to be sent as data. -/
def Deed.yields : Deed → Option (List UInt8)
  | .received (.ok data) => if data = [] then none else some data
  | _ => none

/-- Why a connect failed. -/
def Deed.fault : Deed → Option Fault
  | .connected (.error x) => some x
  | _ => none

/-- What was read while the end of the stream was still open. -/
def Deed.heard (deed : Deed) (finished : Bool) : List (List UInt8) :=
  if finished then [] else deed.yields.toList

/-- How an open session speaks in a turn. -/
structure Utterance (σ : Session) (deed : Deed) (more : List Reply) (σ' : Session) : Prop where
  length : more.length ≤ 1
  /-- A packet carries the sequence of the session.  Only a failed connect changes it before. -/
  sequence : ∀ r ∈ more, r.sequence =
    if σ.status = .synSent ∧ r.kind = .rst ∧ deed.fault ≠ none then 0 else σ.sequence
  next : σ'.closed = false → σ'.sequence = nextSequence σ.sequence more
  /-- What was read is what is sent, unless that closes the session. -/
  data : dataOf more <+: deed.heard (σ.status = .lastAck)
  whole : σ'.closed = false ∨ isFinished more = true →
    dataOf more = deed.heard (σ.status = .lastAck)
  fault : deed.fault ≠ none → σ'.closed = true ∨ σ.status ≠ .synSent

namespace Utterance

variable {σ σ' : Session} {deed : Deed} {more : List Reply} {r : Reply}

/-- A turn that closes the session in silence. -/
theorem mute (hclosed : σ'.closed = true) : Utterance σ deed [] σ' where
  length := Nat.zero_le 1
  sequence _ hr := absurd hr List.not_mem_nil
  next hopen := absurd (hclosed.symm.trans hopen) Bool.false_ne_true.symm
  data := List.nil_prefix
  whole h := by
    cases h with
    | inl hopen => exact absurd (hclosed.symm.trans hopen) Bool.false_ne_true.symm
    | inr hfin => contradiction
  fault _ := .inl hclosed

/-- A turn that goes on in silence. -/
theorem silence (hnext : σ'.sequence = σ.sequence)
    (hheard : deed.heard (σ.status = .lastAck) = [])
    (hfault : deed.fault = none ∨ σ.status ≠ .synSent) : Utterance σ deed [] σ' where
  length := Nat.zero_le 1
  sequence _ hr := absurd hr List.not_mem_nil
  next _ := hnext.trans (nextSequence_nil _).symm
  data := List.nil_prefix
  whole _ := hheard.symm
  fault hsome := .inr (hfault.resolve_left hsome)

/-- One packet is said. -/
theorem speech (hseq : r.sequence = σ.sequence) (hfault : deed.fault = none)
    (hnext : σ'.closed = true ∨ σ'.sequence = σ.sequence + UInt32.ofNat r.span)
    (hheard : deed.heard (σ.status = .lastAck) = dataOf [r]) : Utterance σ deed [r] σ' where
  length := Nat.le_refl 1
  sequence r' hr' := by
    rw [List.mem_singleton.mp hr', hseq, hfault]
    simp
  next hopen := hnext.resolve_left fun hclosed =>
    absurd (hclosed.symm.trans hopen) Bool.false_ne_true.symm
  data := hheard ▸ List.prefix_refl _
  whole _ := hheard.symm
  fault h := absurd hfault h

/-- A reset says a RST or nothing. -/
theorem reset (hreset : σ.Resets more) (hclosed : σ'.closed = true) (hfault : deed.fault = none)
    (hyields : deed.yields = none) : Utterance σ deed more σ' := by
  cases hreset with
  | inl hnone =>
      rw [hnone]
      exact mute hclosed
  | inr hrst =>
      have hheard : deed.heard (σ.status = .lastAck) = [] := by
        rw [Deed.heard, hyields]
        exact ite_self _
      rw [hrst.2]
      exact speech rfl hfault (.inl hclosed) hheard

end Utterance

/-- **Utterances**: in every turn an open session says at most one packet, which carries its
sequence, and moves on by what the packet takes up. -/
theorem Turn.utterance {σ σ' : Session} {deed : Deed} {more : List Reply} {handed : List UInt8}
    (h : Turn σ deed more handed σ') (hopen : σ.closed = false) : Utterance σ deed more σ' := by
  have hnone : Deed.heard .other (σ.status = .lastAck) = [] := ite_self _
  cases h with
  | elsewhere | abandoned | repeated | ignored | noted | queued | tookNothing | took |
    wroteNothing | passed => exact .silence rfl hnone (.inl rfl)
  | evicted | aborted | connectMute | readMute | wroteMute => exact .mute rfl
  | refused _ _ _ _ hreset => exact .reset hreset rfl rfl rfl
  | connectLate hlate => exact .silence rfl hnone (.inr (hlate.resolve_left (by simp [hopen])))
  | connectFailed _ hstatus hreset =>
      cases hreset with
      | inl hsilent =>
          rw [hsilent]
          exact .mute rfl
      | inr hrst =>
          rw [hrst.2]
          exact
            { length := Nat.le_refl 1
              sequence := fun r hr => by
                rw [List.mem_singleton.mp hr, if_pos ⟨hstatus, rfl, by simp [Deed.fault]⟩]
                rfl
              next := fun hopen => absurd hopen Bool.false_ne_true.symm
              data := List.nil_prefix
              whole := fun _ => hnone.symm
              fault := fun _ => .inl rfl }
  | connected _ _ => exact .speech rfl rfl (.inr rfl) hnone
  | readLate _ hlate =>
      have hlast := hlate.resolve_left (by simp [hopen])
      exact .silence rfl (by simp [Deed.heard, hlast]) (.inl rfl)
  | readFailed _ _ _ hreset => exact .reset hreset rfl rfl rfl
  | ended _ _ _ => exact .speech rfl rfl (.inr rfl) (ite_self _)
  | read _ _ hlast hdata =>
      have hkind := Session.kind_data (σ := σ) hdata
      refine .speech rfl rfl (.inr ?_) ?_
      · rw [Reply.span, hkind]
        rfl
      · rw [dataOf_of_eq hkind]
        simp [Deed.heard, Deed.yields, hlast, hdata, Session.reply]
  | wroteLate _ _ _ hclosed => simp [hopen] at hclosed
  | writeFailed _ _ _ hreset =>
      cases hreset with
      | inl hsilent =>
          rw [hsilent]
          exact .mute rfl
      | inr hreset => exact .reset hreset.2 rfl rfl rfl
  | acknowledged _ _ _ _ _ _ => exact .speech rfl rfl (.inr (UInt32.add_zero _).symm) hnone
  | answered _ _ _ _ _ _ => exact .speech rfl rfl (.inr rfl) hnone
  | completed _ _ _ _ _ _ => exact .speech rfl rfl (.inl rfl) hnone

/-! ## Numbering -/

/-- Every packet carries the next unused number, but for the RST of a failed connect, and the data
among them is what was read. -/
structure Numbered (isn : UInt32) (faults : List Fault) (reads : List (List UInt8)) (σ : Session)
    (replies : List Reply) : Prop where
  course : Course σ replies
  sequence : ∀ before r after, replies = before ++ r :: after → r.sequence =
    if before = [] ∧ r.kind = .rst ∧ faults ≠ [] then 0 else nextSequence isn before
  next : σ.closed = false → σ.sequence = nextSequence isn replies
  failed : faults ≠ [] → σ.closed = true ∨ σ.status ≠ .synSent
  data : dataOf replies <+: reads
  whole : σ.closed = false ∨ isFinished replies = true → dataOf replies = reads

/-- What is behind the handshake stays behind it. -/
theorem Turn.ne_synSent {σ σ' : Session} {deed : Deed} {more : List Reply} {handed : List UInt8}
    (h : Turn σ deed more handed σ') (hstatus : σ.status ≠ .synSent) : σ'.status ≠ .synSent := by
  have hpos (status : Status) : status.rank = 0 ↔ status = .synSent := by
    cases status <;> decide
  intro hsent
  have hrank := h.rank_le
  rw [(hpos _).mpr hsent] at hrank
  exact hstatus ((hpos _).mp (Nat.le_zero.mp hrank))

/-- A writer is started on the way out of the first status only, and for an open session. -/
theorem Turn.writes_le {σ σ' : Session} {deed : Deed} {more : List Reply} {handed : List UInt8}
    (h : Turn σ deed more handed σ') : σ'.writes ≤ σ.writes ∨
      σ.closed = false ∧ σ.status = .synSent ∧ σ'.status ≠ .synSent ∧
        σ'.writes = σ.writes + 1 := by
  cases h with
  | connected hopen hstatus => exact .inr ⟨hopen, hstatus, nofun, rfl⟩
  | abandoned _ _ hwrites => exact .inl hwrites
  | wroteLate | writeFailed | wroteMute => exact .inl (Nat.sub_le _ _)
  | _ => exact .inl (Nat.le_refl _)

namespace Numbered

variable {isn : UInt32} {faults : List Fault} {reads : List (List UInt8)} {σ σ' : Session}
  {replies more : List Reply} {deed : Deed} {handed : List UInt8}

/-- A connection is born with its numbers in order. -/
theorem born (isn theirs : UInt32) (closed : Bool) :
    Numbered isn [] [] (.born isn theirs closed) [] where
  course := .born isn theirs closed
  sequence _ _ _ h := absurd h.symm (List.append_ne_nil_of_right_ne_nil _ nofun)
  next _ := (nextSequence_nil isn).symm
  failed := nofun
  data := List.prefix_refl _
  whole _ := rfl

/-- The end of the stream has been told once the last acknowledgement is awaited. -/
theorem isFinished_eq (h : Numbered isn faults reads σ replies) :
    isFinished replies = decide (σ.status = .lastAck) := by
  rw [Bool.eq_iff_iff, isFinished_iff, h.course.spoken.fin_mem_iff, decide_eq_true_iff]

/-- A closed session says nothing more, and what is read is lost. -/
theorem turn_of_closed (h : Numbered isn faults reads σ replies)
    (hturn : Turn σ deed more handed σ') (hclosed : σ.closed = true) :
    Numbered isn faults (reads ++ deed.heard (isFinished replies)) σ' (replies ++ more) := by
  have hcourse := h.course.turn hturn
  obtain ⟨hclosed', rfl⟩ := hturn.of_closed hclosed
  rw [List.append_nil] at hcourse ⊢
  refine ⟨hcourse, h.sequence, ?_, fun _ => .inl hclosed', ?_, fun hwhole => ?_⟩
  · simp [hclosed']
  · exact h.data.trans (List.prefix_append _ _)
  · have hfin := hwhole.resolve_left (by simp [hclosed'])
    rw [hfin, Deed.heard, if_pos rfl, List.append_nil]
    exact h.whole (.inr hfin)

/-- In an open session no RST was said, so that nothing depends on how the connect ends. -/
theorem sequence_of_open (h : Numbered isn faults reads σ replies) (hopen : σ.closed = false)
    {before after : List Reply} {r : Reply} (hreplies : replies = before ++ r :: after)
    (faults' : List Fault) : r.sequence =
      if before = [] ∧ r.kind = .rst ∧ faults' ≠ [] then 0 else nextSequence isn before := by
  have hfirst : ¬ (before = [] ∧ r.kind = .rst) := by
    rintro ⟨rfl, hrst⟩
    have hspoken := h.course.spoken
    rw [hopen, hreplies] at hspoken
    have hsynAck := hspoken.eq_synAck rfl
    rw [hrst] at hsynAck
    contradiction
  have hseq := h.sequence before r after hreplies
  rw [if_neg fun hall => hfirst ⟨hall.1, hall.2.1⟩] at hseq
  rw [if_neg fun hall => hfirst ⟨hall.1, hall.2.1⟩, hseq]

/-- An open session says its next packet with the next number. -/
theorem turn_of_open (h : Numbered isn faults reads σ replies)
    (hturn : Turn σ deed more handed σ') (hopen : σ.closed = false) :
    Numbered isn (faults ++ deed.fault.toList) (reads ++ deed.heard (isFinished replies)) σ'
      (replies ++ more) := by
  have hsay := hturn.utterance hopen
  have hnext := h.next hopen
  have hdata := h.whole (.inl hopen)
  rw [h.isFinished_eq]
  refine ⟨h.course.turn hturn, fun before r after hreplies => ?_, fun hopen' => ?_, fun hfail => ?_,
    ?_, fun hwhole => ?_⟩
  · cases more with
    | nil =>
        rw [List.append_nil] at hreplies
        exact h.sequence_of_open hopen hreplies _
    | cons r' rest =>
        cases List.length_eq_zero_iff.mp (Nat.le_zero.mp (Nat.le_of_succ_le_succ hsay.length))
        rcases List.eq_nil_or_concat after with rfl | ⟨after, last, rfl⟩
        · -- The packet is the new one.
          obtain ⟨rfl, hr⟩ := List.append_inj' hreplies rfl
          injection hr with hr
          subst hr
          have hstatus : replies = [] ↔ σ.status = .synSent := by
            have hspoken := h.course.spoken
            rw [hopen] at hspoken
            rw [← hspoken.eq_nil_iff, List.map_eq_nil_iff]
          rw [hsay.sequence r' List.mem_cons_self, ← hnext]
          refine if_congr ?_ rfl rfl
          rw [hstatus]
          refine and_congr_right fun hsent => and_congr_right fun _ => ?_
          have hnone : faults = [] := by
            by_contra hfaults
            cases h.failed hfaults with
            | inl hclosed => simp [hopen] at hclosed
            | inr hpast => exact hpast hsent
          rw [hnone]
          cases deed.fault <;> simp
        · rw [List.concat_eq_append, ← List.cons_append, ← List.append_assoc] at hreplies
          exact h.sequence_of_open hopen (List.append_inj' hreplies rfl).1 _
  · rw [hsay.next hopen', hnext, nextSequence_append]
  · by_cases hpast : σ.status = .synSent
    · refine .inl ((hsay.fault fun hnone => ?_).resolve_right (by simp [hpast]))
      rw [hnone, Option.toList_none, List.append_nil] at hfail
      cases h.failed hfail with
      | inl hclosed => simp [hopen] at hclosed
      | inr hsent => exact hsent hpast
    · exact .inr (hturn.ne_synSent hpast)
  · rw [dataOf_append, hdata]
    exact (List.prefix_append_right_inj _).mpr hsay.data
  · rw [dataOf_append, hdata]
    congr 1
    by_cases hlast : σ.status = .lastAck
    · have hprefix := hsay.data
      simp only [hlast, decide_true, Deed.heard, if_true] at hprefix ⊢
      exact List.prefix_nil.mp hprefix
    · refine hsay.whole (hwhole.imp id fun hfin => ?_)
      rw [isFinished_append, h.isFinished_eq, decide_eq_false hlast, Bool.false_or] at hfin
      exact hfin

/-- **Numbering**: every turn keeps the numbers. -/
theorem turn (h : Numbered isn faults reads σ replies) (hturn : Turn σ deed more handed σ') :
    Numbered isn (faults ++ if σ.closed then [] else deed.fault.toList)
      (reads ++ deed.heard (isFinished replies)) σ' (replies ++ more) := by
  cases hclosed : σ.closed with
  | false => exact h.turn_of_open hturn hclosed
  | true =>
      rw [if_pos rfl, List.append_nil]
      exact h.turn_of_closed hturn hclosed

end Numbered

/-! ## Sequence spaces -/

/-- The sequence numbers of everything that was sent on a connection with an initial sequence
number, on which connects failed and data was read. -/
structure SequenceSpace (isn : UInt32) (faults : List Fault) (reads : List (List UInt8))
    (replies : List Reply) : Prop where
  /-- There is nothing but what the rules below are about. -/
  known : ∀ r ∈ replies, r.kind ≠ .other
  synAck : ∀ before r after, replies = before ++ r :: after → r.kind = .synAck → r.sequence = isn
  data : ∀ before r after, replies = before ++ r :: after → r.kind = .data →
    r.sequence = isn + 1 + UInt32.ofNat (volume before) ∧
      reads[(dataOf before).length]? = some r.payload
  fin : ∀ before r after, replies = before ++ r :: after → r.kind = .fin →
    r.sequence = isn + 1 + UInt32.ofNat (volume replies) ∧ dataOf after = []
  ack : ∀ before r after, replies = before ++ r :: after → r.kind = .ack →
    r.sequence = nextSequence isn before
  rst : ∀ before r after, replies = before ++ r :: after → r.kind = .rst →
    r.sequence =
      if .synAck ∈ before.map Reply.kind then nextSequence isn before
      else if faults = [] then isn else 0
  /-- The device takes everything, and what it reassembles is what was read. -/
  stream : ∃ next stream,
    (Receiver.start isn).takeAll replies = some ⟨next, stream, isFinished replies⟩ ∧
      stream <+: reads.flatten ∧ (isFinished replies = true → stream = reads.flatten)

namespace Numbered

variable {isn : UInt32} {faults : List Fault} {reads : List (List UInt8)} {σ : Session}
  {replies before after : List Reply} {r : Reply}

/-- The kinds of the replies form a conversation. -/
theorem isConversation (h : Numbered isn faults reads σ replies) :
    IsConversation (replies.map Reply.kind) := h.course.spoken.isConversation

theorem map_kind (hreplies : replies = before ++ r :: after) :
    replies.map Reply.kind = before.map Reply.kind ++ r.kind :: after.map Reply.kind := by
  rw [hreplies, List.map_append, List.map_cons]

/-- Behind the handshake every packet carries the next number. -/
theorem sequence_of_kind (h : Numbered isn faults reads σ replies)
    (hreplies : replies = before ++ r :: after) (hkind : r.kind ≠ .rst) :
    r.sequence = nextSequence isn before := by
  rw [h.sequence before r after hreplies, if_neg fun hall => hkind hall.2.1]

/-- What takes up numbers behind the handshake follows all data in front of it. -/
theorem nextSequence_eq (h : Numbered isn faults reads σ replies)
    (hreplies : replies = before ++ r :: after) (hkind : r.kind = .data ∨ r.kind = .fin) :
    nextSequence isn before = isn + 1 + UInt32.ofNat (volume before) := by
  have hkinds := map_kind hreplies
  have hack : r.kind ≠ .ack := by rcases hkind with hkind | hkind <;> rw [hkind] <;> nofun
  have hcount : (before.map Reply.kind).count .synAck = 1 := by
    rcases h.isConversation.front_cases hkinds with ⟨-, hfirst⟩ | ⟨hone, -⟩
    · rcases hkind with hkind | hkind <;> rw [hkind] at hfirst <;> simp at hfirst
    · exact hone
  have hfin := List.count_eq_zero.mpr (h.isConversation.fin_notMem hkinds hack)
  rw [nextSequence, span_eq, hcount, hfin, Nat.add_zero, UInt32.ofNat_add, UInt32.add_assoc]
  rfl

/-- **Sequence spaces**: what the numbering means for each kind of packet. -/
theorem sequenceSpace (h : Numbered isn faults reads σ replies) :
    SequenceSpace isn faults reads replies where
  known r hr := h.isConversation.ne_other _ (List.mem_map_of_mem hr)
  synAck before r after hreplies hkind := by
    have hfirst : before = [] := by
      rcases h.isConversation.front_cases (map_kind hreplies) with ⟨hnil, -⟩ | ⟨-, hne⟩
      · exact List.map_eq_nil_iff.mp hnil
      · exact absurd hkind hne
    rw [h.sequence_of_kind hreplies (by rw [hkind]; nofun), hfirst, nextSequence_nil]
  data before r after hreplies hkind := by
    refine ⟨?_, ?_⟩
    · rw [h.sequence_of_kind hreplies (by rw [hkind]; nofun),
        h.nextSequence_eq hreplies (.inl hkind)]
    · obtain ⟨lost, hlost⟩ := h.data
      have hdata : dataOf replies = dataOf before ++ r.payload :: dataOf after := by
        rw [hreplies, List.append_cons, dataOf_append, dataOf_append, dataOf_of_eq hkind,
          List.append_assoc]
        rfl
      rw [← hlost, hdata, List.append_assoc, List.getElem?_append_right (Nat.le_refl _),
        Nat.sub_self]
      rfl
  fin before r after hreplies hkind := by
    have hkinds := map_kind hreplies
    rw [hkind] at hkinds
    have hafter : dataOf after = [] := by
      rw [dataOf, List.map_eq_nil_iff, List.filter_eq_nil_iff]
      intro r' hr'
      rw [(h.isConversation.of_fin hkinds).2 _ (List.mem_map_of_mem hr')]
      nofun
    have hvolume : volume replies = volume before := by
      have hnone : dataOf [r] = [] := dataOf_of_ne (by rw [hkind]; nofun)
      rw [volume, hreplies, List.append_cons, dataOf_append, dataOf_append, hafter, hnone,
        List.append_nil, List.append_nil]
      rfl
    refine ⟨?_, hafter⟩
    rw [h.sequence_of_kind hreplies (by rw [hkind]; nofun),
      h.nextSequence_eq hreplies (.inr hkind), hvolume]
  ack before r after hreplies hkind :=
    h.sequence_of_kind hreplies (by rw [hkind]; nofun)
  rst before r after hreplies hkind := by
    rw [h.sequence before r after hreplies]
    rcases h.isConversation.front_cases (map_kind hreplies) with ⟨hnil, -⟩ | ⟨hone, -⟩
    · rw [List.map_eq_nil_iff.mp hnil, nextSequence_nil]
      by_cases hfaults : faults = [] <;> simp [hkind, hfaults]
    · have hmem : .synAck ∈ before.map Reply.kind := List.count_pos_iff.mp (by omega)
      have hsome : before ≠ [] := by
        rintro rfl
        contradiction
      rw [if_pos hmem, if_neg fun hall => hsome hall.1]
  stream := by
    refine ⟨_, _, Receiver.takeAll_start fun before r after hreplies hspan => ?_,
      h.data.flatten, fun hfin => by rw [h.whole (.inr hfin)]⟩
    have hrst : r.kind ≠ .rst := fun hkind => hspan (by rw [Reply.span, hkind])
    have hack : r.kind ≠ .ack := fun hkind => hspan (by rw [Reply.span, hkind])
    refine ⟨h.sequence_of_kind hreplies hrst, ?_⟩
    rw [← Bool.not_eq_true, isFinished_iff]
    exact h.isConversation.fin_notMem (map_kind hreplies) hack

end Numbered

/-! ## Runs -/

namespace Engine

variable {e : Engine} {id : Nat}

/-- Whether the device has been sent a FIN on a connection. -/
def finSent (e : Engine) (id : Nat) : Bool := (e.sent id).any (·.map Reply.kind = some .fin)

/-- What is read on a connection in front of the FIN. -/
def readNote (id : Nat) (e : Engine) (event : Event) : Option (List UInt8) :=
  if e.finSent id then none else (e.deed id event).yields

/-- Why the connect of an open connection failed. -/
def faultNote (id : Nat) (e : Engine) (event : Event) : Option Fault :=
  if e.store.isOpen id then (e.deed id event).fault else none

section

variable {σ : Session} {replies : List Reply} {handed : List UInt8}

/-- A FIN was sent if one of the replies is a FIN. -/
theorem Stands.finSent_eq (h : e.Stands id σ replies handed) :
    e.finSent id = isFinished replies := by
  rw [finSent, h.sent_eq, List.any_map]
  simp [isFinished, Function.comp_def]

/-- What is read while a connection stands somewhere is what its deed brings. -/
theorem Stands.readNote_eq (h : e.Stands id σ replies handed) (event : Event) :
    (readNote id e event).toList = (e.deed id event).heard (isFinished replies) := by
  rw [readNote, h.finSent_eq, Deed.heard]
  split <;> rfl

/-- What fails while a connection stands somewhere is what its deed says. -/
theorem Stands.faultNote_eq (h : e.Stands id σ replies handed) (event : Event) :
    (faultNote id e event).toList = if σ.closed then [] else (e.deed id event).fault.toList := by
  rw [faultNote, h.isOpen_eq]
  cases σ.closed <;> rfl

end

/-- The packets of a connection that was opened are numbered at every point of a run. -/
theorem Opens.numbered {config : Config} {inspecting : Bool}
    {before : List (Surroundings × Event)} {s : Surroundings} {initial : UInt32} {d : Datagram}
    (h : ((empty config inspecting).run before).Opens s initial d id)
    (after : List (Surroundings × Event)) :
    let e := ((empty config inspecting).run before).step s (.segment initial d)
    ∃ σ replies handed, (e.run after).Stands id σ replies handed ∧
      Numbered initial (observe (faultNote id) e after) (observe (readNote id) e after) σ
        replies := by
  intro e
  obtain ⟨tcp, closed, -, hborn⟩ := h.stands
  refine hborn.run_induction (motive := fun after σ replies _ =>
      Numbered initial (observe (faultNote id) e after) (observe (readNote id) e after) σ replies)
    (.born initial tcp.sequence closed) ?_ after
  intro steps s event σ replies handed more data σ' hstands hturn hnumbered
  rw [observe_concat, observe_concat, hstands.readNote_eq, hstands.faultNote_eq]
  exact hnumbered.turn hturn

/-- **Sequence space**: at every point of every run the packets of a connection are numbered from
its initial sequence number on, without gap and without overlap, and their data is what was read. -/
theorem run_sequenceSpace {config : Config} {inspecting : Bool}
    {before : List (Surroundings × Event)} {s : Surroundings} {initial : UInt32} {d : Datagram}
    (h : ((empty config inspecting).run before).Opens s initial d id)
    (after : List (Surroundings × Event)) :
    let e := ((empty config inspecting).run before).step s (.segment initial d)
    let faults := observe (faultNote id) e after
    let reads := observe (readNote id) e after
    ∃ replies, (e.run after).sent id = replies.map some ∧
      SequenceSpace initial faults reads replies ∧
      ((e.run after).store.isOpen id = true → dataOf replies = reads) := by
  intro e faults reads
  obtain ⟨σ, replies, handed, hstands, hnumbered⟩ := h.numbered after
  refine ⟨replies, hstands.sent_eq, hnumbered.sequenceSpace, fun hopen => ?_⟩
  refine hnumbered.whole (.inl ?_)
  rw [hstands.isOpen_eq] at hopen
  simpa using hopen

/-- The sequence space of a connection that reads two bytes and the end of the stream. -/
theorem sequenceSpace_of_two_bytes :
    ((empty Sample.config false).run []).Opens Sample.surroundings 100
        (Sample.datagram Flag.syn 7 []) 0 ∧
      let e := ((empty Sample.config false).run []).step Sample.surroundings
        (.segment 100 (Sample.datagram Flag.syn 7 []))
      let after := [.connected 0 Sample.target (.ok ()), .received 0 (.ok [1, 2]),
        .received 0 (.ok [])].map fun event => (Sample.surroundings, event)
      observe (readNote 0) e after = [[1, 2]] ∧
        ∃ replies, (e.run after).sent 0 = replies.map some ∧
          SequenceSpace 100 (observe (faultNote 0) e after) (observe (readNote 0) e after) replies ∧
          ((e.run after).store.isOpen 0 = true →
            dataOf replies = observe (readNote 0) e after) := by
  have hopens : ((empty Sample.config false).run []).Opens Sample.surroundings 100
      (Sample.datagram Flag.syn 7 []) 0 := ⟨rfl, Option.isSome_iff_ne_none.mp rfl⟩
  exact ⟨hopens, by decide +kernel, run_sequenceSpace hopens _⟩

end Engine

end FlowRelay.Tcp
