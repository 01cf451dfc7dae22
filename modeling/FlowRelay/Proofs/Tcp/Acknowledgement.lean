import FlowRelay.Proofs.Tcp.Ledger

/-!
# FlowRelay.Proofs.Tcp.Acknowledgement

What a device that keeps its data in order is acknowledged, and what the outbound socket gets of its
stream.

1. *Streams* (`Consecutive`): the segments of such a device follow each other, and a number tells
   how many of them are covered.
2. *Runs* (`run_acknowledgement`): so nothing is acknowledged that was not written.
-/

namespace FlowRelay.Tcp

open Packet

/-! ## Streams -/

/-- Segments follow each other from a number on, and nothing follows the end of the stream. -/
def Consecutive : UInt32 → List Segment → Prop
  | _, [] => True
  | next, g :: rest => g.sequence = next ∧ (g.fin = true → rest = []) ∧ Consecutive g.stop rest

instance Consecutive.decidable : (next : UInt32) → (gs : List Segment) →
    Decidable (Consecutive next gs)
  | _, [] => isTrue trivial
  | next, g :: rest =>
    have := Consecutive.decidable g.stop rest
    inferInstanceAs (Decidable (g.sequence = next ∧ (g.fin = true → rest = []) ∧
      Consecutive g.stop rest))

/-- How many numbers segments cover: one for each byte, and one for the end of the stream. -/
def covered (gs : List Segment) : Nat :=
  (payloads gs).length + if gs.any Segment.fin then 1 else 0

section

variable {next : UInt32} {xs ys : List Segment} {g : Segment}

theorem covered_concat (h : xs.any Segment.fin = false) (g : Segment) :
    covered (xs ++ [g]) = covered xs + g.payload.length + if g.fin then 1 else 0 := by
  simp only [covered, payloads_append, List.any_append, h, List.length_append]
  simp [payloads]

theorem Consecutive.sequence_eq (h : Consecutive next (xs ++ g :: ys)) :
    g.sequence = next + UInt32.ofNat (covered xs) ∧ xs.any Segment.fin = false := by
  induction xs generalizing next with
  | nil => exact ⟨h.1.trans (UInt32.add_zero next).symm, rfl⟩
  | cons x xs ih =>
      obtain ⟨hsequence, hlast, hrest⟩ := h
      have hfin : x.fin = false := by
        by_contra hfin
        have hnone := hlast (by simpa using hfin)
        exact absurd hnone (List.append_ne_nil_of_right_ne_nil _ nofun)
      obtain ⟨hg, hany⟩ := ih hrest
      have hcovered : covered (x :: xs) = x.payload.length + covered xs := by
        simp [covered, payloads, hfin, Nat.add_assoc]
      refine ⟨?_, by simp [hfin, hany]⟩
      rw [hg, hcovered, Segment.stop, hfin, hsequence, UInt32.ofNat_add, ← UInt32.add_assoc]
      simp

theorem Consecutive.of_append (h : Consecutive next (xs ++ ys)) : Consecutive next xs := by
  induction xs generalizing next with
  | nil => exact trivial
  | cons x xs ih =>
      obtain ⟨hsequence, hlast, hrest⟩ := h
      exact ⟨hsequence, fun hfin => (List.append_eq_nil_iff.mp (hlast hfin)).1, ih hrest⟩

/-- A segment ends behind everything that it and those in front of it cover. -/
theorem Consecutive.stop_eq (h : Consecutive next (xs ++ g :: ys)) :
    g.stop = next + UInt32.ofNat (covered (xs ++ [g])) := by
  obtain ⟨hsequence, hfin⟩ := h.sequence_eq
  rw [covered_concat hfin, Segment.stop, hsequence, UInt32.ofNat_add, UInt32.ofNat_add,
    ← UInt32.add_assoc, ← UInt32.add_assoc]
  congr 1
  split <;> rfl

/-- What segments that follow each other reach is what they cover. -/
theorem Consecutive.reached_eq (h : Consecutive next xs) :
    reached next xs = next + UInt32.ofNat (covered xs) := by
  cases List.eq_nil_or_concat xs with
  | inl hnil =>
      rw [hnil]
      exact (UInt32.add_zero next).symm
  | inr hlast =>
      obtain ⟨gs, g, rfl⟩ := hlast
      rw [List.concat_eq_append] at h ⊢
      rw [reached_concat, h.stop_eq]

end

/-! ## Runs -/

namespace Engine

variable {e : Engine} {id : Nat}

/-- The device keeps its data on a connection in order. -/
structure Orderly (e : Engine) (id : Nat) (isn : UInt32) (steps : List (Surroundings × Event)) :
    Prop where
  /-- A SYN that comes again repeats the initial sequence number. -/
  syns : ∀ x ∈ observe (synNote id) e steps, x = isn
  acks : ∀ a ∈ observe (streamNote id) e steps, a.tcp.isAck = true
  order : Consecutive (isn + 1) ((observe (streamNote id) e steps).map Arrival.segment)

theorem Orderly.regular {isn : UInt32} {steps : List (Surroundings × Event)}
    (h : e.Orderly id isn steps) : e.Regular id isn steps := ⟨h.syns, h.acks⟩

theorem Orderly.of_append {isn : UInt32} {xs ys : List (Surroundings × Event)}
    (h : e.Orderly id isn (xs ++ ys)) : e.Orderly id isn xs := by
  obtain ⟨hsyns, hacks, horder⟩ := h
  rw [observe_append] at hsyns hacks horder
  rw [List.map_append] at horder
  exact ⟨fun x hx => hsyns x (List.mem_append_left _ hx),
    fun a ha => hacks a (List.mem_append_left _ ha), horder.of_append⟩

/-- A step keeps the ledger of an orderly device, and its packets acknowledge what is written. -/
theorem Stands.ledger {isn : UInt32} {steps : List (Surroundings × Event)} {s : Surroundings}
    {event : Event} {σ σ' : Session} {replies more : List Reply} {handed data : List UInt8}
    (h : (e.run steps).Stands id σ replies handed)
    (hledger : Ledger isn ((observe (streamNote id) e steps).map Arrival.segment)
      (observe (writtenNote id) e steps) σ handed)
    (hturn : Turn σ ((e.run steps).deed id event) more data σ')
    (horderly : e.Orderly id isn (steps ++ [(s, event)])) :
    Ledger isn ((observe (streamNote id) e (steps ++ [(s, event)])).map Arrival.segment)
      (observe (writtenNote id) e (steps ++ [(s, event)])) σ' (handed ++ data) ∧
      ∀ r ∈ more, r.acknowledgement = isn + 1 +
        UInt32.ofNat (covered (observe (writtenNote id) e (steps ++ [(s, event)]))) := by
  obtain ⟨hbooks, hspeaks⟩ := h.ledger_of_regular hledger hturn horderly.regular
  have horder := horderly.order
  refine ⟨hbooks, fun r hr => ?_⟩
  obtain ⟨later, hlater⟩ := hbooks.inOrder
  rw [← hlater] at horder
  rw [hspeaks r hr, horder.of_append.reached_eq]

/-- A connection that an orderly device opened has its ledger at every point of a run. -/
theorem Opens.ledger {config : Config} {inspecting : Bool}
    {before : List (Surroundings × Event)} {s : Surroundings} {initial : UInt32} {d : Datagram}
    {tcp : Packet.Tcp} (h : ((empty config inspecting).run before).Opens s initial d id)
    (htcp : d.headers.tcp? = some tcp) (after : List (Surroundings × Event)) :
    let e := ((empty config inspecting).run before).step s (.segment initial d)
    ∃ σ replies handed, (e.run after).Stands id σ replies handed ∧
      (e.Orderly id tcp.sequence after →
        Ledger tcp.sequence ((observe (streamNote id) e after).map Arrival.segment)
          (observe (writtenNote id) e after) σ handed) := by
  intro e
  obtain ⟨σ, replies, handed, hstands, hledger⟩ := h.ledger_of_regular htcp after
  exact ⟨σ, replies, handed, hstands, fun horderly => hledger horderly.regular⟩

/-- **Acknowledgement**: if the device keeps its data in order, then what the outbound socket got is
at every point of every run a part from the front of what arrived, with every segment in it whose
write is completed; and every packet acknowledges the segments whose writes are completed when it is
sent, and nothing behind them. -/
theorem run_acknowledgement {config : Config} {inspecting : Bool}
    {before : List (Surroundings × Event)} {s : Surroundings} {initial : UInt32} {d : Datagram}
    {tcp : Packet.Tcp} (h : ((empty config inspecting).run before).Opens s initial d id)
    (htcp : d.headers.tcp? = some tcp) {after : List (Surroundings × Event)}
    (horderly : (((empty config inspecting).run before).step s (.segment initial d)).Orderly id
      tcp.sequence after) :
    let e := ((empty config inspecting).run before).step s (.segment initial d)
    let arrived := (observe (streamNote id) e after).map Arrival.segment
    let written := observe (writtenNote id) e
    written after <+: arrived ∧
      payloads (written after) <+: (e.run after).handedTo id ∧
      (e.run after).handedTo id <+: payloads arrived ∧
      e.sent id = [] ∧
      ∀ xs s event ys, after = xs ++ (s, event) :: ys →
        ∃ more : List Reply,
          (e.run (xs ++ [(s, event)])).sent id = (e.run xs).sent id ++ more.map some ∧
            ∀ r ∈ more, r.acknowledgement =
              tcp.sequence + 1 + UInt32.ofNat (covered (written (xs ++ [(s, event)]))) := by
  intro e arrived written
  obtain ⟨σ, replies, handed, hstands, hledger⟩ := h.ledger htcp after
  have hbooks := hledger horderly
  have hhanded := hstands.handedTo_eq
  refine ⟨hbooks.inOrder, ?_, ?_, ?_, fun xs s event ys hafter => ?_⟩
  · exact hhanded ▸ hbooks.behind
  · exact hhanded ▸ hbooks.ahead
  · obtain ⟨_, _, -, hborn⟩ := h.stands
    exact hborn.sent_eq
  · rw [hafter, List.append_cons] at horderly
    have hfront := horderly.of_append
    obtain ⟨σ, replies, handed, hstands, hledger⟩ := h.ledger htcp xs
    obtain ⟨more, data, σ', hturn, hstep⟩ := hstands.step s event
    refine ⟨more, ?_, (hstands.ledger (hledger hfront.of_append) hturn hfront).2⟩
    rw [run_concat, hstep.sent_eq, hstands.sent_eq, List.map_append]

/-- The acknowledgement of a device whose first segment is written, and whose second one is not: its
write fails after one byte. -/
theorem acknowledgement_of_failed_write :
    let e := ((empty Sample.config false).run []).step Sample.surroundings
      (.segment 100 (Sample.datagram Flag.syn 7 []))
    let after := [.segment 0 (Sample.datagram Flag.syn 7 []),
      .connected 0 Sample.target (.ok ()),
      .segment 0 (Sample.datagram Flag.ack 8 [1, 2, 3]), .took 0 2,
      .segment 0 (Sample.datagram (Flag.fin ||| Flag.ack) 11 [4, 5]), .wrote 0 (.ok ()),
      .took 0 1, .wrote 0 (.error .writeTimedOut)].map fun event => (Sample.surroundings, event)
    let arrived := (observe (streamNote 0) e after).map Arrival.segment
    let written := observe (writtenNote 0) e
    ((empty Sample.config false).run []).Opens Sample.surroundings 100
        (Sample.datagram Flag.syn 7 []) 0 ∧
      e.Orderly 0 7 after ∧
      arrived = [⟨8, [1, 2, 3], false⟩, ⟨11, [4, 5], true⟩] ∧
      written after = [⟨8, [1, 2, 3], false⟩] ∧
      written after <+: arrived ∧
      payloads (written after) <+: (e.run after).handedTo 0 ∧
      (e.run after).handedTo 0 <+: payloads arrived ∧
      e.sent 0 = [] ∧
      ∀ xs s event ys, after = xs ++ (s, event) :: ys →
        ∃ more : List Reply,
          (e.run (xs ++ [(s, event)])).sent 0 = (e.run xs).sent 0 ++ more.map some ∧
            ∀ r ∈ more, r.acknowledgement =
              7 + 1 + UInt32.ofNat (covered (written (xs ++ [(s, event)]))) := by
  intro e after arrived written
  have hopens : ((empty Sample.config false).run []).Opens Sample.surroundings 100
      (Sample.datagram Flag.syn 7 []) 0 := ⟨rfl, Option.isSome_iff_ne_none.mp rfl⟩
  have hsyns : observe (synNote 0) e after = [7] := by decide +kernel
  have horderly : e.Orderly 0 7 after := by
    refine ⟨fun x hx => ?_, by decide +kernel, by decide +kernel⟩
    rw [hsyns] at hx
    exact List.mem_singleton.mp hx
  exact ⟨hopens, horderly, by decide +kernel, by decide +kernel,
    run_acknowledgement hopens rfl horderly⟩

end Engine

end FlowRelay.Tcp
