import FlowRelay.Proofs.Tcp.Acknowledgement

/-!
# FlowRelay.Proofs.Tcp.Retransmission

What becomes of segments that a device sends again.  Nothing compares their numbers with what was
written before.

1. *Visits* (`Visits`): the places in its stream of the segments that a device sends, new ones in
   order and any others again.
2. *Acknowledgements* (`Consecutive.reached_visits`): what is told to such a device is the end of
   the segment that was written last.
3. *Runs* (`run_retransmission`): a segment is written as often as it arrives, and an
   acknowledgement goes back only to one that was sent again.
-/

namespace FlowRelay.Tcp

open Packet

/-! ## Visits -/

/-- Places in a stream of which so many are known: each is the next one or one that is known. -/
def Visits : Nat → List Nat → Prop
  | _, [] => True
  | known, k :: visits => k ≤ known ∧ Visits (max known (k + 1)) visits

instance Visits.decidable : (known : Nat) → (visits : List Nat) → Decidable (Visits known visits)
  | _, [] => isTrue trivial
  | known, k :: visits =>
    have := Visits.decidable (max known (k + 1)) visits
    inferInstanceAs (Decidable (k ≤ known ∧ Visits (max known (k + 1)) visits))

/-- The place behind the last visit. -/
def place (visits : List Nat) : Nat := (visits.getLast?.map (· + 1)).getD 0

/-- The place behind the furthest visit. -/
def furthest : List Nat → Nat
  | [] => 0
  | k :: visits => max (k + 1) (furthest visits)

section

variable {known k : Nat} {visits front : List Nat}

@[simp] theorem place_concat (visits : List Nat) (k : Nat) : place (visits ++ [k]) = k + 1 := by
  simp [place]

theorem furthest_append (xs ys : List Nat) :
    furthest (xs ++ ys) = max (furthest xs) (furthest ys) := by
  induction xs with
  | nil => simp [furthest]
  | cons x xs ih => simp [furthest, ih, Nat.max_assoc]

theorem place_le_furthest (visits : List Nat) : place visits ≤ furthest visits := by
  cases List.eq_nil_or_concat visits with
  | inl hnil =>
      rw [hnil]
      exact Nat.le_refl 0
  | inr hlast =>
      obtain ⟨front, k, rfl⟩ := hlast
      rw [List.concat_eq_append, place_concat, furthest_append]
      exact Nat.le_max_right _ _

namespace Visits

theorem of_append {more : List Nat} (h : Visits known (visits ++ more)) : Visits known visits := by
  induction visits generalizing known with
  | nil => trivial
  | cons k visits ih => exact ⟨h.1, ih h.2⟩

/-- No place is left out. -/
theorem mem (h : Visits known visits) (hknown : known ≤ k) (hk : k < furthest visits) :
    k ∈ visits := by
  induction visits generalizing known with
  | nil => contradiction
  | cons x visits ih =>
      obtain ⟨hx, hrest⟩ := h
      by_cases heq : k = x
      · exact heq ▸ List.mem_cons_self
      · simp only [furthest] at hk
        exact List.mem_cons_of_mem _ (ih hrest (by omega) (by omega))

theorem take (h : Visits known visits) (n : Nat) : Visits known (visits.take n) := by
  rw [← List.take_append_drop n visits] at h
  exact h.of_append

/-- Everything in front of the place behind the last visit was visited. -/
theorem mem_of_lt_place (h : Visits 0 visits) (hk : k < place visits) : k ∈ visits :=
  h.mem (Nat.zero_le k) (Nat.lt_of_lt_of_le hk (place_le_furthest visits))

/-- The last visit is behind an earlier one only where it is made again. -/
theorem place_le (h : Visits 0 visits) (hfront : front <+: visits) :
    place front ≤ place visits ∨ ∃ before k, visits = before ++ [k] ∧ k ∈ before := by
  obtain ⟨later, rfl⟩ := hfront
  cases List.eq_nil_or_concat later with
  | inl hnil =>
      left
      rw [hnil, List.append_nil]
  | inr hlast =>
      obtain ⟨between, k, rfl⟩ := hlast
      rw [List.concat_eq_append, ← List.append_assoc] at h ⊢
      rw [place_concat]
      by_cases hk : k < furthest (front ++ between)
      · exact .inr ⟨_, k, rfl, h.of_append.mem (Nat.zero_le k) hk⟩
      · have hplace := place_le_furthest front
        rw [furthest_append] at hk
        left
        omega

end Visits

end

/-! ## Acknowledgements -/

/-- Segments of a stream that come in the order of some visits reach the place behind the last. -/
theorem Consecutive.reached_visits {next : UInt32} {stream gs : List Segment} {visits : List Nat}
    (h : Consecutive next stream) (hgs : gs.map some = visits.map (stream[·]?)) :
    reached next gs = next + UInt32.ofNat (covered (stream.take (place visits))) := by
  cases List.eq_nil_or_concat visits with
  | inl hnil =>
      rw [hnil, List.map_nil, List.map_eq_nil_iff] at hgs
      rw [hnil, hgs]
      exact (UInt32.add_zero next).symm
  | inr hlast =>
      obtain ⟨front, k, rfl⟩ := hlast
      rw [List.concat_eq_append] at hgs ⊢
      rw [List.map_append, List.map_eq_append_iff] at hgs
      obtain ⟨before, last, rfl, -, hlast⟩ := hgs
      obtain ⟨g, hg⟩ : ∃ g, last = [g] := by
        have hlength := congrArg List.length hlast
        exact List.length_eq_one_iff.mp (by simpa using hlength)
      rw [hg, List.map_singleton, List.map_singleton, List.cons.injEq] at hlast
      obtain ⟨hk, hsome⟩ := List.getElem?_eq_some_iff.mp hlast.1.symm
      have hsplit : stream.take k ++ g :: stream.drop (k + 1) = stream := by
        rw [← hsome, List.cons_getElem_drop_succ, List.take_append_drop]
      have htake : stream.take (k + 1) = stream.take k ++ [g] := by
        rw [List.take_succ_eq_append_getElem hk, hsome]
      rw [← hsplit] at h
      rw [hg, reached_concat, place_concat, htake]
      exact h.stop_eq

/-! ## Runs -/

namespace Engine

variable {e : Engine} {id : Nat}

/-- The device sends its stream in order on a connection, and any segments of it again. -/
structure Repeating (e : Engine) (id : Nat) (isn : UInt32) (stream : List Segment)
    (visits : List Nat) (steps : List (Surroundings × Event)) : Prop where
  regular : e.Regular id isn steps
  order : Consecutive (isn + 1) stream
  known : Visits 0 visits
  arrivals : ((observe (streamNote id) e steps).map Arrival.segment).map some =
    visits.map (stream[·]?)

/-- A part of the front of what such a device sends comes in the order of the first visits. -/
theorem Repeating.map_some {isn : UInt32} {stream gs : List Segment} {visits : List Nat}
    {steps : List (Surroundings × Event)} (h : e.Repeating id isn stream visits steps)
    (hgs : gs <+: (observe (streamNote id) e steps).map Arrival.segment) :
    gs.map some = (visits.take gs.length).map (stream[·]?) := by
  have htake := List.prefix_iff_eq_take.mp hgs
  rw [List.map_take, ← h.arrivals, ← List.map_take, ← htake]

/-- **Retransmission**: whatever segments of its stream the device sends again, the outbound socket
gets the segments in the order of their arrival, each as often as it arrives, and on an open
connection none is lost.  Every packet acknowledges the stream up to the segment that was written
last, all of which is written; so an acknowledgement is behind an earlier one only where a segment
that was sent again was written. -/
theorem run_retransmission {config : Config} {inspecting : Bool}
    {before : List (Surroundings × Event)} {s : Surroundings} {initial : UInt32} {d : Datagram}
    {tcp : Packet.Tcp} (h : ((empty config inspecting).run before).Opens s initial d id)
    (htcp : d.headers.tcp? = some tcp) {after : List (Surroundings × Event)}
    {stream : List Segment} {visits : List Nat}
    (hrepeating : (((empty config inspecting).run before).step s (.segment initial d)).Repeating id
      tcp.sequence stream visits after) :
    let e := ((empty config inspecting).run before).step s (.segment initial d)
    let arrived := (observe (streamNote id) e after).map Arrival.segment
    let written := observe (writtenNote id) e
    written after <+: arrived ∧
      payloads (written after) <+: (e.run after).handedTo id ∧
      (e.run after).handedTo id <+: payloads arrived ∧
      (∀ c, (e.run after).store.connection? id = some c → c.closed = false →
        arrived = written after ++ c.writer.segments.filter Segment.isStream) ∧
      e.sent id = [] ∧
      ∀ xs s event ys, after = xs ++ (s, event) :: ys →
        let visited := visits.take (written (xs ++ [(s, event)])).length
        ∃ more : List Reply,
          (e.run (xs ++ [(s, event)])).sent id = (e.run xs).sent id ++ more.map some ∧
          (∀ r ∈ more, r.acknowledgement =
            tcp.sequence + 1 + UInt32.ofNat (covered (stream.take (place visited)))) ∧
          (∀ k < place visited, k ∈ visited) ∧
          ∀ front, front <+: visited →
            place front ≤ place visited ∨
              ∃ earlier k, visited = earlier ++ [k] ∧ k ∈ earlier := by
  intro e arrived written
  obtain ⟨σ, replies, handed, hstands, hledger⟩ := h.ledger_of_regular htcp after
  have hbooks := hledger hrepeating.regular
  have hbehind : payloads (written after) <+: (e.run after).handedTo id := by
    rw [hstands.handedTo_eq]
    exact hbooks.behind
  have hahead : (e.run after).handedTo id <+: payloads arrived := by
    rw [hstands.handedTo_eq]
    exact hbooks.ahead
  have hqueue : ∀ c, (e.run after).store.connection? id = some c → c.closed = false →
      arrived = written after ++ c.writer.segments.filter Segment.isStream := by
    intro c hc hopen
    obtain ⟨c', reads, writes, hc', rfl⟩ := hstands.connection?
    cases hc'.symm.trans hc
    exact hbooks.queue hopen
  have hsilent : e.sent id = [] := by
    obtain ⟨_, _, -, hborn⟩ := h.stands
    exact hborn.sent_eq
  refine ⟨hbooks.inOrder, hbehind, hahead, hqueue, hsilent, ?_⟩
  intro xs s event ys hafter visited
  rw [hafter, List.append_cons] at hrepeating
  have hregular := hrepeating.regular.of_append
  obtain ⟨σ, replies, handed, hstands, hledger⟩ := h.ledger_of_regular htcp xs
  obtain ⟨more, data, σ', hturn, hstep⟩ := hstands.step s event
  obtain ⟨hbooks, hspeaks⟩ :=
    hstands.ledger_of_regular (hledger hregular.of_append) hturn hregular
  have hsent : (e.run (xs ++ [(s, event)])).sent id = (e.run xs).sent id ++ more.map some := by
    rw [run_concat, hstep.sent_eq, hstands.sent_eq, List.map_append]
  have hfront : written (xs ++ [(s, event)]) <+:
      (observe (streamNote id) e (xs ++ [(s, event)] ++ ys)).map Arrival.segment := by
    rw [observe_append, List.map_append]
    exact hbooks.inOrder.trans (List.prefix_append _ _)
  have hacks : ∀ r ∈ more, r.acknowledgement =
      tcp.sequence + 1 + UInt32.ofNat (covered (stream.take (place visited))) := by
    intro r hr
    rw [hspeaks r hr]
    exact hrepeating.order.reached_visits (hrepeating.map_some hfront)
  have hvisited : Visits 0 visited := hrepeating.known.take _
  exact ⟨more, hsent, hacks, fun k hk => hvisited.mem_of_lt_place hk,
    fun front hfront => hvisited.place_le hfront⟩

/-! ## A run -/

namespace Sample

/-- Two segments of the device. -/
def stream : List Segment := [⟨8, [1, 2, 3], false⟩, ⟨11, [4, 5], false⟩]

/-- A device that sends the first of its segments again once both are written. -/
def repeating : List (Surroundings × Event) :=
  [.connected 0 target (.ok ()), .segment 0 (datagram Flag.ack 8 []),
    .segment 0 (datagram Flag.ack 8 [1, 2, 3]), .wrote 0 (.ok ()),
    .segment 0 (datagram Flag.ack 11 [4, 5]), .wrote 0 (.ok ()),
    .segment 0 (datagram Flag.ack 8 [1, 2, 3]), .wrote 0 (.ok ())].map
      fun event => (surroundings, event)

theorem opens : ((empty config false).run []).Opens surroundings 100 (datagram Flag.syn 7 []) 0 :=
  ⟨rfl, Option.isSome_iff_ne_none.mp rfl⟩

theorem repeats : (((empty config false).run []).step surroundings
    (.segment 100 (datagram Flag.syn 7 []))).Repeating 0 7 stream [0, 1, 0] repeating := by
  have hsyns : observe (synNote 0) (((empty config false).run []).step surroundings
      (.segment 100 (datagram Flag.syn 7 []))) repeating = [] := by decide +kernel
  refine ⟨⟨fun x hx => ?_, by decide +kernel⟩, by decide +kernel, by decide, by decide +kernel⟩
  rw [hsyns] at hx
  exact absurd hx List.not_mem_nil

end Sample

/-- The first of two segments is sent again on a connection on which both are written. -/
theorem retransmission_of_first_segment :
    let e := ((empty Sample.config false).run []).step Sample.surroundings
      (.segment 100 (Sample.datagram Flag.syn 7 []))
    let after := Sample.repeating
    let arrived := (observe (streamNote 0) e after).map Arrival.segment
    let written := observe (writtenNote 0) e
    ((empty Sample.config false).run []).Opens Sample.surroundings 100
        (Sample.datagram Flag.syn 7 []) 0 ∧
      e.Repeating 0 7 Sample.stream [0, 1, 0] after ∧
      written after <+: arrived ∧
      payloads (written after) <+: (e.run after).handedTo 0 ∧
      (e.run after).handedTo 0 <+: payloads arrived ∧
      (∀ c, (e.run after).store.connection? 0 = some c → c.closed = false →
        arrived = written after ++ c.writer.segments.filter Segment.isStream) ∧
      e.sent 0 = [] ∧
      ∀ xs s event ys, after = xs ++ (s, event) :: ys →
        let visited := [0, 1, 0].take (written (xs ++ [(s, event)])).length
        ∃ more : List Reply,
          (e.run (xs ++ [(s, event)])).sent 0 = (e.run xs).sent 0 ++ more.map some ∧
          (∀ r ∈ more, r.acknowledgement =
            7 + 1 + UInt32.ofNat (covered (Sample.stream.take (place visited)))) ∧
          (∀ k < place visited, k ∈ visited) ∧
          ∀ front, front <+: visited →
            place front ≤ place visited ∨
              ∃ earlier k, visited = earlier ++ [k] ∧ k ∈ earlier := by
  intro e after arrived written
  exact ⟨Sample.opens, Sample.repeats, run_retransmission Sample.opens rfl Sample.repeats⟩

/-- A segment that is sent again on an established connection is written again, and the
acknowledgements go back to it. -/
theorem written_twice :
    let e := ((empty Sample.config false).run []).step Sample.surroundings
      (.segment 100 (Sample.datagram Flag.syn 7 []))
    ((empty Sample.config false).run []).Opens Sample.surroundings 100
        (Sample.datagram Flag.syn 7 []) 0 ∧
      e.Repeating 0 7 Sample.stream [0, 1, 0] Sample.repeating ∧
      ((e.run (Sample.repeating.take 2)).store.connection? 0).map (·.status) =
        some .established ∧
      (e.run Sample.repeating).handedTo 0 = [1, 2, 3, 4, 5, 1, 2, 3] ∧
      ¬ (e.run Sample.repeating).handedTo 0 <+: payloads Sample.stream ∧
      ((e.run Sample.repeating).sent 0).map (·.map (·.acknowledgement)) =
        [some 8, some 11, some 13, some 11] := by
  intro e
  have hhanded : (e.run Sample.repeating).handedTo 0 = [1, 2, 3, 4, 5, 1, 2, 3] := by
    decide +kernel
  refine ⟨Sample.opens, Sample.repeats, ?_, hhanded, ?_, ?_⟩
  · decide +kernel
  · rw [hhanded]
    decide
  · decide +kernel

end Engine

end FlowRelay.Tcp
