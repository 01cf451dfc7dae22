import Mathlib.Data.List.Infix
import FlowRelay.Proofs.Tcp.Run

/-!
# FlowRelay.Proofs.Tcp.Ledger

What arrives from a device, what is written of it, and what the device is told about that, whatever
numbers its segments have.

1. *Arrivals and writes* (`Deed.stream?`, `Deed.written?`): the segments of the stream of the
   device, as they arrive and as their writes are completed.
2. *Ledgers* (`Ledger`): of the segments that arrived, the written ones come first and the waiting
   ones behind them; the acknowledgement is the end of the segment that was written last.
3. *Turns* (`Ledger.turn`, `Ledger.speaks`): every turn keeps the ledger, and every packet carries
   the acknowledgement that the ledger tells.
4. *Runs* (`Opens.ledger_of_regular`): so a connection has its ledger at every point of a run.
-/

namespace FlowRelay.Tcp

open Packet

/-! ## Segments of a stream -/

/-- Whether a segment carries data or the end of the stream. -/
def Segment.isStream (g : Segment) : Bool := !g.payload.isEmpty || g.fin

/-- The data of segments. -/
def payloads (gs : List Segment) : List UInt8 := gs.flatMap Segment.payload

/-- The number behind the last of the segments that are written, or the one that the first of them
is to have. -/
def reached (next : UInt32) (gs : List Segment) : UInt32 := (gs.getLast?.map Segment.stop).getD next

section

variable {g : Segment}

@[simp] theorem reached_nil (next : UInt32) : reached next [] = next := rfl

@[simp] theorem reached_concat (next : UInt32) (gs : List Segment) (g : Segment) :
    reached next (gs ++ [g]) = g.stop := by
  simp [reached]

theorem payloads_append (xs ys : List Segment) :
    payloads (xs ++ ys) = payloads xs ++ payloads ys := List.flatMap_append

/-- A segment that is no part of the stream brings no data. -/
theorem payload_eq_nil_of_isStream (h : g.isStream = false) : g.payload = [] := by
  simp only [Segment.isStream, Bool.or_eq_false_iff, Bool.not_eq_false', List.isEmpty_iff] at h
  exact h.1

/-- What carries no data adds none. -/
theorem payloads_filter (gs : List Segment) :
    payloads (gs.filter Segment.isStream) = payloads gs := by
  induction gs with
  | nil => rfl
  | cons g gs ih =>
      rw [List.filter_cons]
      split
      · exact congrArg (g.payload ++ ·) ih
      · next hbare =>
          have hnone := payload_eq_nil_of_isStream (Bool.eq_false_iff.mpr hbare)
          rw [ih, payloads, payloads, List.flatMap_cons, hnone]
          rfl

end

/-! ## Arrivals and writes -/

/-- A segment of the device as it arrives. -/
structure Arrival where
  tcp : Packet.Tcp
  payload : List UInt8

/-- What is queued of an arrival. -/
def Arrival.segment (a : Arrival) : Segment := ⟨a.tcp.sequence, a.payload, a.tcp.isFin⟩

/-- Whether the handshake with the device is still open. -/
def Status.isOpening : Status → Bool
  | .synSent | .synReceived => true
  | .established | .closeWait | .lastAck => false

namespace Deed

/-- The segment of the device that belongs to its stream. -/
def stream? : Deed → Option Arrival
  | .arrival tcp payload =>
    if !tcp.isRst && !tcp.isSyn && (Arrival.segment ⟨tcp, payload⟩).isStream then
      some ⟨tcp, payload⟩
    else none
  | _ => none

/-- What a deed adds to the stream of the device. -/
def offered (deed : Deed) : List Segment := deed.stream?.toList.map Arrival.segment

/-- The number of a SYN that comes again during the handshake. -/
def syn? (status : Status) : Deed → Option UInt32
  | .arrival tcp _ =>
    if tcp.isSyn && !tcp.isRst && status.isOpening then some tcp.sequence else none
  | _ => none

instance (g : Segment) (result : Except Fault Unit) : Decidable (g.isWritten result) :=
  inferInstanceAs (Decidable (_ ∨ _))

/-- The segment of the stream whose write is completed, among those that wait. -/
def written? (waiting : List Segment) : Deed → Option Segment
  | .wrote result => waiting.head?.filter fun g => g.isStream && g.isWritten result
  | _ => none

section

variable {tcp : Packet.Tcp} {payload : List UInt8} {result : Except Fault Unit} {g : Segment}
  {rest waiting : List Segment}

/-- A segment that neither resets nor opens anything is offered if it is part of the stream. -/
theorem offered_arrival (hrst : tcp.isRst = false) (hsyn : tcp.isSyn = false) :
    (arrival tcp payload).offered =
      [Arrival.segment ⟨tcp, payload⟩].filter Segment.isStream := by
  cases hstream : (Arrival.segment ⟨tcp, payload⟩).isStream <;>
    simp [offered, stream?, hrst, hsyn, hstream]

theorem offered_of_isSyn (hsyn : tcp.isSyn = true) : (arrival tcp payload).offered = [] := by
  simp [offered, stream?, hsyn]

/-- A segment that is written counts if it is part of the stream. -/
theorem toList_written? (hwaiting : waiting = g :: rest) (hwritten : g.isWritten result) :
    ((wrote result).written? waiting).toList = [g].filter Segment.isStream := by
  rw [hwaiting]
  cases hstream : g.isStream <;> simp [written?, hstream, hwritten]

/-- A segment that is not written does not count. -/
theorem written?_of_not (hwaiting : waiting = g :: rest) (hwritten : ¬ g.isWritten result) :
    (wrote result).written? waiting = none := by
  rw [hwaiting]
  simp [written?, hwritten]

end

end Deed

/-- Taking notice of an ACK ends the handshake, or it leaves the status as it is. -/
theorem Session.status_heed (σ : Session) (tcp : Packet.Tcp) :
    (σ.heed tcp).status.isOpening = false ∨ (σ.heed tcp).status = σ.status := by
  simp only [heed]
  split
  · exact .inl rfl
  · exact .inr rfl

/-! ## Ledgers -/

/-- What the outbound socket has taken of the first segment that waits. -/
def Session.begun (σ : Session) : List UInt8 :=
  match σ.waiting with
  | [] => []
  | g :: _ => g.payload.take σ.taken

/-- How the segments that arrived and those that are written account for a session, and for the data
that its outbound socket has taken. -/
structure Ledger (isn : UInt32) (arrived written : List Segment) (σ : Session)
    (handed : List UInt8) : Prop where
  /-- A session gets its only writer when its connect ends. -/
  idle : σ.status = .synSent → σ.writes = 0
  writer : σ.writes ≤ 1
  opening : σ.status.isOpening = true → σ.waiting = [] ∧ written = []
  fresh : σ.waiting = [] → σ.taken = 0
  /-- What arrived on an open session is written, or it waits. -/
  queue : σ.closed = false → arrived = written ++ σ.waiting.filter Segment.isStream
  /-- A writer goes on in order, also when its session is closed. -/
  order : σ.writes ≠ 0 → written ++ σ.waiting.filter Segment.isStream <+: arrived
  progress : σ.writes ≠ 0 → handed = payloads written ++ σ.begun
  inOrder : written <+: arrived
  behind : payloads written <+: handed
  ahead : handed <+: payloads arrived
  /-- What the device is told is where the segment that was written last ends. -/
  acknowledgement : σ.closed = false → σ.acknowledgement = reached (isn + 1) written

namespace Ledger

variable {isn : UInt32} {arrived written more extra : List Segment} {σ σ' : Session}
  {handed data : List UInt8} {deed : Deed} {replies : List Reply} {g : Segment}
  {rest : List Segment}

theorem born (initial theirs : UInt32) (closed : Bool) :
    Ledger theirs [] [] (.born initial theirs closed) [] where
  idle _ := rfl
  writer := Nat.zero_le 1
  opening _ := ⟨rfl, rfl⟩
  fresh _ := rfl
  queue _ := rfl
  order h := absurd rfl h
  progress h := absurd rfl h
  inOrder := List.prefix_refl _
  behind := List.prefix_refl _
  ahead := List.prefix_refl _
  acknowledgement _ := rfl

/-- A session with waiting segments is past its handshake. -/
theorem not_isOpening (h : Ledger isn arrived written σ handed)
    (hwaiting : σ.waiting = g :: rest) : σ.status.isOpening = false := by
  by_contra hopening
  have hnone := (h.opening (by simpa using hopening)).1
  rw [hnone] at hwaiting
  contradiction

/-- During the handshake nothing has arrived on an open session. -/
theorem nil_of_isOpening (h : Ledger isn arrived written σ handed) (hopen : σ.closed = false)
    (hopening : σ.status.isOpening = true) : arrived = [] ∧ handed = [] := by
  obtain ⟨hwaiting, hwritten⟩ := h.opening hopening
  have harrived := h.queue hopen
  rw [hwaiting, hwritten] at harrived
  have hahead := h.ahead
  rw [harrived] at hahead
  exact ⟨harrived, List.prefix_nil.mp hahead⟩

/-- What the writer has begun belongs to what waits. -/
theorem prefix_of_begun (σ : Session) :
    σ.begun <+: payloads (σ.waiting.filter Segment.isStream) := by
  rw [payloads_filter, Session.begun]
  split
  · exact List.nil_prefix
  · next g rest hwaiting =>
      rw [hwaiting]
      exact (List.take_prefix _ _).trans (List.prefix_append _ _)

/-- While there is a writer, its progress tells what the outbound socket has got. -/
theorem ahead_of_progress (horder : written ++ σ.waiting.filter Segment.isStream <+: arrived)
    (hprogress : handed = payloads written ++ σ.begun) : handed <+: payloads arrived := by
  have hpayloads : payloads (written ++ σ.waiting.filter Segment.isStream) <+: payloads arrived :=
    horder.flatMap Segment.payload
  rw [hprogress]
  refine List.IsPrefix.trans ?_ hpayloads
  rw [payloads_append]
  exact (List.prefix_append_right_inj _).mpr (prefix_of_begun σ)

/-! ### Turns -/

/-- A turn that leaves the queue alone keeps the ledger.  Something may arrive that closes the
session. -/
theorem keep (h : Ledger isn arrived written σ handed) (hwaiting : σ'.waiting = σ.waiting)
    (htaken : σ'.taken = σ.taken) (hwrites : σ'.writes ≤ σ.writes)
    (hstatus : σ'.status.isOpening = false ∨ σ'.status = σ.status)
    (hkept : σ'.closed = true ∨
      σ'.closed = σ.closed ∧ extra = [] ∧ σ'.acknowledgement = σ.acknowledgement) :
    Ledger isn (arrived ++ extra) (written ++ []) σ' (handed ++ []) := by
  have hsame (hopening : σ'.status.isOpening = true) : σ'.status = σ.status :=
    hstatus.resolve_left fun hpast => absurd (hpast.symm.trans hopening) Bool.false_ne_true
  have hsilent (hopen : σ'.closed = false) :
      σ.closed = false ∧ extra = [] ∧ σ'.acknowledgement = σ.acknowledgement := by
    obtain ⟨hclosed, hrest⟩ := hkept.resolve_left fun hclosed =>
      absurd (hclosed.symm.trans hopen) Bool.false_ne_true.symm
    exact ⟨hclosed ▸ hopen, hrest⟩
  have hsome (hwriter : σ'.writes ≠ 0) : σ.writes ≠ 0 := by omega
  rw [List.append_nil, List.append_nil]
  refine ⟨fun hsent => ?_, Nat.le_trans hwrites h.writer, fun hopening => ?_, fun hnone => ?_,
    fun hopen' => ?_, fun hwriter => ?_, fun hwriter => ?_, ?_, h.behind, ?_, fun hopen' => ?_⟩
  · have hstatus := hsame (by rw [hsent]; rfl)
    rw [hsent] at hstatus
    have hidle := h.idle hstatus.symm
    omega
  · rw [hwaiting]
    exact h.opening (hsame hopening ▸ hopening)
  · rw [htaken]
    exact h.fresh (hwaiting ▸ hnone)
  · obtain ⟨hopen, rfl, -⟩ := hsilent hopen'
    rw [List.append_nil, hwaiting]
    exact h.queue hopen
  · rw [hwaiting]
    exact (h.order (hsome hwriter)).trans (List.prefix_append _ _)
  · rw [h.progress (hsome hwriter), Session.begun, Session.begun, hwaiting, htaken]
  · exact h.inOrder.trans (List.prefix_append _ _)
  · rw [payloads_append]
    exact h.ahead.trans (List.prefix_append _ _)
  · obtain ⟨hopen, -, hack⟩ := hsilent hopen'
    rw [hack]
    exact h.acknowledgement hopen

/-- The writer is done with the first segment. -/
theorem leave (h : Ledger isn arrived written σ handed) (hwrite : 0 < σ.writes)
    (hwaiting : σ.waiting = g :: rest)
    (hrest : σ'.waiting = rest) (htaken : σ'.taken = 0) (hwrites : σ'.writes ≤ σ.writes)
    (hstatus : σ'.status.isOpening = false ∨ σ'.status = σ.status)
    (hkept : σ'.closed = true ∨ σ.closed = false ∧
      σ'.acknowledgement = if g.isStream then g.stop else σ.acknowledgement) :
    Ledger isn (arrived ++ []) (written ++ [g].filter Segment.isStream) σ'
      (handed ++ g.payload.drop σ.taken) := by
  have hpast (hopening : σ'.status.isOpening = true) : False := by
    have hpast : σ'.status.isOpening = false := by
      cases hstatus with
      | inl hpast => exact hpast
      | inr hsame => rw [hsame, h.not_isOpening hwaiting]
    exact Bool.false_ne_true (hpast.symm.trans hopening)
  have hgoing (hopen : σ'.closed = false) : σ.closed = false ∧
      σ'.acknowledgement = if g.isStream then g.stop else σ.acknowledgement :=
    hkept.resolve_left fun hclosed => Bool.false_ne_true.symm (hclosed.symm.trans hopen)
  have hsplit : written ++ σ.waiting.filter Segment.isStream =
      written ++ [g].filter Segment.isStream ++ rest.filter Segment.isStream := by
    rw [hwaiting, List.append_assoc, ← List.filter_append]
    rfl
  have hdone : handed ++ g.payload.drop σ.taken =
      payloads (written ++ [g].filter Segment.isStream) := by
    have hpayload : payloads [g] = g.payload := List.append_nil _
    rw [h.progress (by omega), payloads_append, payloads_filter, hpayload, List.append_assoc,
      Session.begun, hwaiting, List.take_append_drop]
  have hbegun : σ'.begun = [] := by
    rw [Session.begun, htaken]
    split <;> rfl
  have horder' : written ++ [g].filter Segment.isStream ++ rest.filter Segment.isStream <+:
      arrived := hsplit ▸ h.order (by omega)
  have hwritten : written ++ [g].filter Segment.isStream <+: arrived :=
    (List.prefix_append _ _).trans horder'
  rw [List.append_nil]
  refine ⟨fun hsent => (hpast (by rw [hsent]; rfl)).elim, Nat.le_trans hwrites h.writer,
    fun hopening => (hpast hopening).elim, fun _ => htaken, fun hopen' => ?_, fun _ => ?_,
    fun _ => ?_, hwritten, ?_, ?_, fun hopen' => ?_⟩
  · rw [h.queue (hgoing hopen').1, hsplit, hrest]
  · rw [hrest]
    exact horder'
  · rw [hdone, hbegun, List.append_nil]
  · exact hdone ▸ List.prefix_refl _
  · rw [hdone]
    exact hwritten.flatMap Segment.payload
  · obtain ⟨hopen, hack⟩ := hgoing hopen'
    rw [hack]
    cases hstream : g.isStream with
    | true =>
        rw [if_pos rfl, List.filter_cons_of_pos hstream, List.filter_nil, reached_concat]
    | false =>
        rw [if_neg Bool.false_ne_true, List.filter_cons_of_neg (by simp [hstream]),
          List.filter_nil, List.append_nil]
        exact h.acknowledgement hopen

/-- A SYN that comes again is acknowledged as the first one was. -/
theorem repeated (h : Ledger isn arrived written σ handed) (hopening : σ.status.isOpening = true)
    {tcp : Packet.Tcp} (hsyn : tcp.sequence = isn) :
    Ledger isn arrived written { σ.hear tcp with acknowledgement := tcp.sequence + 1 } handed := by
  refine { h with acknowledgement := fun _ => ?_ }
  obtain ⟨-, rfl⟩ := h.opening hopening
  exact congrArg (· + 1) hsyn

/-- A segment joins the queue.  Only an ACK that completes the handshake can be the first. -/
theorem queued (h : Ledger isn arrived written σ handed) (hopen : σ.closed = false)
    {tcp : Packet.Tcp} (hpast : (σ.heed tcp).status.isOpening = false) (g : Segment) :
    Ledger isn (arrived ++ [g].filter Segment.isStream) written
      { σ.heed tcp with waiting := σ.waiting ++ [g] } handed := by
  have hqueue : arrived ++ [g].filter Segment.isStream =
      written ++ (σ.waiting ++ [g]).filter Segment.isStream := by
    rw [List.filter_append, ← List.append_assoc, ← h.queue hopen]
  refine ⟨fun hsent => ?_, h.writer, fun hopening => ?_, fun hnone => ?_, fun _ => hqueue,
    fun hwriter => ?_, fun hwriter => ?_, ?_, h.behind, ?_, h.acknowledgement⟩
  · have hpast' := hpast
    rw [show (σ.heed tcp).status = .synSent from hsent] at hpast'
    contradiction
  · rw [show (σ.heed tcp).status.isOpening = true from hopening] at hpast
    contradiction
  · exact absurd hnone (List.append_ne_nil_of_right_ne_nil _ nofun)
  · rw [hqueue]
  · rw [h.progress hwriter]
    congr 1
    cases hwaiting : σ.waiting with
    | nil =>
        have htaken : (σ.heed tcp).taken = 0 := h.fresh hwaiting
        simp [Session.begun, hwaiting, htaken]
    | cons g' rest =>
        simp only [Session.begun, hwaiting]
        rfl
  · exact h.inOrder.trans (List.prefix_append _ _)
  · rw [payloads_append]
    exact h.ahead.trans (List.prefix_append _ _)

/-- The handshake gives a session its writer. -/
theorem connected (h : Ledger isn arrived written σ handed) (hopen : σ.closed = false)
    (hstatus : σ.status = .synSent) (reads : Nat) (sequence : UInt32) :
    Ledger isn arrived written
      { σ with
        status := .synReceived, sequence, waiting := [], reads, writes := σ.writes + 1 }
      handed := by
  have hopening : σ.status.isOpening = true := by
    rw [hstatus]
    rfl
  obtain ⟨hwaiting, hwritten⟩ := h.opening hopening
  obtain ⟨harrived, hhanded⟩ := h.nil_of_isOpening hopen hopening
  refine ⟨nofun, ?_, fun _ => ⟨rfl, hwritten⟩, fun _ => h.fresh hwaiting, fun _ => ?_, fun _ => ?_,
    fun _ => ?_, h.inOrder, h.behind, h.ahead, h.acknowledgement⟩
  · have hidle := h.idle hstatus
    simp only [hidle, Nat.zero_add, Nat.le_refl]
  · rw [harrived, hwritten]
    rfl
  · rw [harrived, hwritten]
    exact List.prefix_refl _
  · rw [hhanded, hwritten]
    rfl

/-- The outbound socket takes a part of the first segment that waits. -/
theorem took (h : Ledger isn arrived written σ handed) (hwrite : 0 < σ.writes)
    (hwaiting : σ.waiting = g :: rest) (count : Nat) :
    Ledger isn arrived written { σ with taken := σ.taken + count }
      (handed ++ (g.payload.drop σ.taken).take count) := by
  have hprogress : handed ++ (g.payload.drop σ.taken).take count =
      payloads written ++ Session.begun { σ with taken := σ.taken + count } := by
    rw [h.progress (by omega), List.append_assoc]
    simp only [Session.begun, hwaiting, List.take_add]
  have horder := h.order (by omega)
  refine ⟨h.idle, h.writer, h.opening, fun hnone => ?_, h.queue, h.order, fun _ => hprogress,
    h.inOrder, ?_, ?_, h.acknowledgement⟩
  · have hwaiting' : σ.waiting = [] := hnone
    rw [hwaiting] at hwaiting'
    contradiction
  · rw [hprogress]
    exact List.prefix_append _ _
  · exact ahead_of_progress (σ := { σ with taken := σ.taken + count }) horder hprogress

/-- A failed write is the last of its session. -/
theorem writeFailed (h : Ledger isn arrived written σ handed) (hwrite : 0 < σ.writes)
    (hwaiting : σ.waiting = g :: rest) :
    Ledger isn arrived written { σ.leave rest with writes := σ.writes - 1, closed := true }
      handed := by
  have hpast := h.not_isOpening hwaiting
  have hlast : σ.writes - 1 = 0 := by
    have hwriter := h.writer
    omega
  have hclosed : true ≠ false := Bool.false_ne_true.symm
  refine ⟨fun hsent => ?_, ?_, fun hopening => ?_, fun _ => rfl, fun hopen => absurd hopen hclosed,
    fun hwriter => ?_, fun hwriter => ?_, h.inOrder, h.behind, h.ahead,
    fun hopen => absurd hopen hclosed⟩
  · rw [show σ.status = .synSent from hsent] at hpast
    contradiction
  · exact Nat.le_trans (Nat.sub_le _ 1) h.writer
  · rw [show σ.status.isOpening = true from hopening] at hpast
    contradiction
  · exact absurd hlast hwriter
  · exact absurd hlast hwriter

/-- **Turns**: what arrives and what is written in a turn accounts for the session behind it. -/
theorem turn (h : Ledger isn arrived written σ handed) (hturn : Turn σ deed replies data σ')
    (hsyn : ∀ x, deed.syn? σ.status = some x → x = isn)
    (hack : ∀ a, deed.stream? = some a → a.tcp.isAck = true) :
    Ledger isn (arrived ++ deed.offered) (written ++ (deed.written? σ.waiting).toList) σ'
      (handed ++ data) := by
  cases hturn with
  | elsewhere => exact h.keep rfl rfl (Nat.le_refl _) (.inr rfl) (.inr ⟨rfl, rfl, rfl⟩)
  | evicted => exact h.keep rfl rfl (Nat.le_refl _) (.inr rfl) (.inl rfl)
  | abandoned _ _ hwrites => exact h.keep rfl rfl hwrites (.inr rfl) (.inr ⟨rfl, rfl, rfl⟩)
  | aborted _ _ => exact h.keep rfl rfl (Nat.le_refl _) (.inr rfl) (.inl rfl)
  | @repeated tcp payload hopen hrst hisSyn hstatus =>
      have hopening : σ.status.isOpening = true := by
        rcases hstatus with hstatus | hstatus <;> rw [hstatus] <;> rfl
      have hsequence := hsyn tcp.sequence (by simp [Deed.syn?, hisSyn, hrst, hopening])
      rw [Deed.offered_of_isSyn hisSyn]
      simp only [Deed.written?, Option.toList_none, List.append_nil]
      exact h.repeated hopening hsequence
  | @ignored tcp payload hopen hrst hisSyn hfin hnoAck =>
      refine h.keep rfl rfl (Nat.le_refl _) (.inr rfl) (.inr ⟨rfl, ?_, rfl⟩)
      rw [Deed.offered]
      cases hstream : (Deed.arrival tcp payload).stream? with
      | none => rfl
      | some a =>
          have hisAck := hack a hstream
          simp only [Deed.stream?] at hstream
          split at hstream
          · injection hstream with hstream
            rw [← hstream, hnoAck] at hisAck
            contradiction
          · contradiction
  | @noted tcp hopen hrst hisSyn hfin _ _ _ =>
      refine h.keep rfl rfl (Nat.le_refl _) (σ.status_heed tcp) (.inr ⟨rfl, ?_, rfl⟩)
      simp [Deed.offered, Deed.stream?, Arrival.segment, Segment.isStream, hfin]
  | @queued tcp payload hopen hrst hisSyn hflag hsent _ =>
      have hisAck : tcp.isAck = true := by
        cases hflag with
        | inl hfin =>
            refine hack ⟨tcp, payload⟩ ?_
            simp [Deed.stream?, Arrival.segment, Segment.isStream, hrst, hisSyn, hfin]
        | inr hisAck => exact hisAck
      have hpast : (σ.heed tcp).status.isOpening = false := by
        cases hstatus : σ.status <;> simp_all [Session.heed, Status.isOpening]
      rw [Deed.offered_arrival hrst hisSyn]
      simp only [Deed.written?, Option.toList_none, List.append_nil]
      exact h.queued hopen hpast _
  | @refused tcp _ _ _ _ _ _ _ =>
      exact h.keep rfl rfl (Nat.le_refl _) (σ.status_heed tcp) (.inl rfl)
  | connectLate _ => exact h.keep rfl rfl (Nat.le_refl _) (.inr rfl) (.inr ⟨rfl, rfl, rfl⟩)
  | connectFailed _ _ _ => exact h.keep rfl rfl (Nat.le_refl _) (.inr rfl) (.inl rfl)
  | connectMute _ _ => exact h.keep rfl rfl (Nat.le_refl _) (.inr rfl) (.inl rfl)
  | connected hopen hstatus =>
      simp only [Deed.offered, Deed.stream?, Deed.written?, Option.toList_none, List.map_nil,
        List.append_nil]
      exact h.connected hopen hstatus _ _
  | readLate _ _ => exact h.keep rfl rfl (Nat.le_refl _) (.inr rfl) (.inr ⟨rfl, rfl, rfl⟩)
  | readFailed _ _ _ _ => exact h.keep rfl rfl (Nat.le_refl _) (.inr rfl) (.inl rfl)
  | readMute _ _ _ => exact h.keep rfl rfl (Nat.le_refl _) (.inr rfl) (.inl rfl)
  | ended _ _ _ => exact h.keep rfl rfl (Nat.le_refl _) (.inl rfl) (.inr ⟨rfl, rfl, rfl⟩)
  | read _ _ _ _ => exact h.keep rfl rfl (Nat.le_refl _) (.inr rfl) (.inr ⟨rfl, rfl, rfl⟩)
  | tookNothing _ => exact h.keep rfl rfl (Nat.le_refl _) (.inr rfl) (.inr ⟨rfl, rfl, rfl⟩)
  | took hwrite hwaiting =>
      simp only [Deed.offered, Deed.stream?, Deed.written?, Option.toList_none, List.map_nil,
        List.append_nil]
      exact h.took hwrite hwaiting _
  | wroteNothing hnone =>
      rw [hnone]
      exact h.keep rfl rfl (Nat.le_refl _) (.inr rfl) (.inr ⟨rfl, rfl, rfl⟩)
  | wroteLate hwrite hwaiting hwritten hclosed =>
      rw [Deed.toList_written? hwaiting hwritten]
      exact h.leave hwrite hwaiting rfl rfl (Nat.sub_le _ 1) (.inr rfl) (.inl hclosed)
  | writeFailed hwrite hwaiting hwritten _ =>
      rw [Deed.written?_of_not hwaiting hwritten]
      simp only [Deed.offered, Deed.stream?, Option.toList_none, List.map_nil, List.append_nil]
      exact h.writeFailed hwrite hwaiting
  | wroteMute hwrite hwaiting hwritten _ _ =>
      rw [Deed.toList_written? hwaiting hwritten]
      exact h.leave hwrite hwaiting rfl rfl (Nat.sub_le _ 1) (.inr rfl) (.inl rfl)
  | acknowledged hwrite hwaiting hwritten hopen hdata _ =>
      rw [Deed.toList_written? hwaiting hwritten]
      refine h.leave hwrite hwaiting rfl rfl (Nat.le_refl _) (.inr rfl) (.inr ⟨hopen, ?_⟩)
      rw [if_pos (by simp [Segment.isStream, hdata])]
      rfl
  | answered hwrite hwaiting hwritten hopen hfin _ =>
      rw [Deed.toList_written? hwaiting hwritten]
      refine h.leave hwrite hwaiting rfl rfl (Nat.le_refl _) (.inl rfl) (.inr ⟨hopen, ?_⟩)
      rw [if_pos (by simp [Segment.isStream, hfin])]
      rfl
  | completed hwrite hwaiting hwritten _ _ _ =>
      rw [Deed.toList_written? hwaiting hwritten]
      exact h.leave hwrite hwaiting rfl rfl (Nat.le_refl _) (.inr rfl) (.inl rfl)
  | @passed _ g _ hwrite hwaiting hopen hdata hfin =>
      have hbare : g.isStream = false := by simp [Segment.isStream, hdata, hfin]
      have hnone : g.payload.drop σ.taken = [] := by rw [hdata, List.drop_nil]
      rw [Deed.toList_written? hwaiting (.inl hdata), ← hnone]
      exact h.leave hwrite hwaiting rfl rfl (Nat.le_refl _) (.inr rfl)
        (.inr ⟨hopen, by rw [hbare]; rfl⟩)

/-- A reset carries the acknowledgement of its session. -/
theorem acknowledgement_of_reset (h : Ledger isn arrived written σ handed)
    (hopen : σ.closed = false) (hreset : σ.Resets replies) :
    ∀ r ∈ replies, r.acknowledgement = reached (isn + 1) written := by
  intro r hr
  cases hreset with
  | inl hnone =>
      rw [hnone] at hr
      contradiction
  | inr hrst =>
      rw [hrst.2] at hr
      rw [List.mem_singleton.mp hr]
      exact h.acknowledgement hopen

/-- A packet about a written segment acknowledges it. -/
theorem acknowledgement_of_write (hwaiting : σ.waiting = g :: rest) {result : Except Fault Unit}
    (hwritten : g.isWritten result) (hstream : g.isStream = true) {r : Reply}
    (hr : r.acknowledgement = g.stop) :
    r.acknowledgement =
      reached (isn + 1) (written ++ ((Deed.wrote result).written? σ.waiting).toList) := by
  rw [Deed.toList_written? hwaiting hwritten, List.filter_cons_of_pos hstream, List.filter_nil,
    reached_concat, hr]

/-- **Packets**: every packet acknowledges what is written when it is sent. -/
theorem speaks (h : Ledger isn arrived written σ handed) (hturn : Turn σ deed replies data σ') :
    ∀ r ∈ replies,
      r.acknowledgement = reached (isn + 1) (written ++ (deed.written? σ.waiting).toList) := by
  have hplain {replies : List Reply} (hopen : σ.closed = false) (hreset : σ.Resets replies) :
      ∀ r ∈ replies, r.acknowledgement = reached (isn + 1) (written ++ []) := by
    rw [List.append_nil]
    exact h.acknowledgement_of_reset hopen hreset
  have hown (hopen : σ.closed = false) :
      σ.acknowledgement = reached (isn + 1) (written ++ []) := by
    rw [List.append_nil]
    exact h.acknowledgement hopen
  intro r hr
  cases hturn with
  | refused hopen _ _ _ hreset => exact hplain hopen hreset r hr
  | connectFailed hopen _ hreset =>
      cases hreset with
      | inl hnone =>
          rw [hnone] at hr
          contradiction
      | inr hrst =>
          rw [hrst.2] at hr
          rw [List.mem_singleton.mp hr]
          exact hown hopen
  | connected hopen _ =>
      rw [List.mem_singleton.mp hr]
      exact hown hopen
  | readFailed _ hopen _ hreset => exact hplain hopen hreset r hr
  | ended _ hopen _ =>
      rw [List.mem_singleton.mp hr]
      exact hown hopen
  | read _ hopen _ _ =>
      rw [List.mem_singleton.mp hr]
      exact hown hopen
  | writeFailed _ hwaiting hwritten hreset =>
      rw [Deed.written?_of_not hwaiting hwritten]
      cases hreset with
      | inl hnone =>
          rw [hnone] at hr
          contradiction
      | inr hreset => exact hplain hreset.1 hreset.2 r hr
  | acknowledged _ hwaiting hwritten _ hdata _ =>
      refine acknowledgement_of_write hwaiting hwritten ?_ ?_
      · simp [Segment.isStream, hdata]
      · rw [List.mem_singleton.mp hr]
        rfl
  | answered _ hwaiting hwritten _ hfin _ =>
      refine acknowledgement_of_write hwaiting hwritten ?_ ?_
      · simp [Segment.isStream, hfin]
      · rw [List.mem_singleton.mp hr]
        rfl
  | completed _ hwaiting hwritten _ hfin _ =>
      refine acknowledgement_of_write hwaiting hwritten ?_ ?_
      · simp [Segment.isStream, hfin]
      · rw [List.mem_singleton.mp hr]
        rfl
  | _ => contradiction

end Ledger

/-! ## Runs -/

namespace Engine

variable {e : Engine} {id : Nat}

/-- The segments of the device that belong to its stream, as they arrive on a connection. -/
def streamNote (id : Nat) (e : Engine) (event : Event) : Option Arrival :=
  (e.deed id event).stream?

/-- The numbers of the SYNs that come again during the handshake of a connection. -/
def synNote (id : Nat) (e : Engine) (event : Event) : Option UInt32 :=
  (e.store.connection? id).bind fun c => (e.deed id event).syn? c.status

/-- The segments of its stream whose writes to the outbound socket of a connection are completed. -/
def writtenNote (id : Nat) (e : Engine) (event : Event) : Option Segment :=
  (e.store.connection? id).bind fun c => (e.deed id event).written? c.writer.segments

/-- The device acknowledges what it gets together with its data, and stays by its initial number. -/
structure Regular (e : Engine) (id : Nat) (isn : UInt32) (steps : List (Surroundings × Event)) :
    Prop where
  /-- A SYN that comes again repeats the initial sequence number. -/
  syns : ∀ x ∈ observe (synNote id) e steps, x = isn
  acks : ∀ a ∈ observe (streamNote id) e steps, a.tcp.isAck = true

/-- What is regular was regular before. -/
theorem Regular.of_append {isn : UInt32} {xs ys : List (Surroundings × Event)}
    (h : e.Regular id isn (xs ++ ys)) : e.Regular id isn xs := by
  obtain ⟨hsyns, hacks⟩ := h
  rw [observe_append] at hsyns hacks
  exact ⟨fun x hx => hsyns x (List.mem_append_left _ hx),
    fun a ha => hacks a (List.mem_append_left _ ha)⟩

section

variable {σ : Session} {replies : List Reply} {handed : List UInt8}

theorem Stands.synNote_eq (h : e.Stands id σ replies handed) (event : Event) :
    synNote id e event = (e.deed id event).syn? σ.status := by
  obtain ⟨c, reads, writes, hc, rfl⟩ := h.connection?
  rw [synNote, hc, Option.bind_some]
  rfl

/-- What is written while a connection stands somewhere is what its deed writes. -/
theorem Stands.writtenNote_eq (h : e.Stands id σ replies handed) (event : Event) :
    writtenNote id e event = (e.deed id event).written? σ.waiting := by
  obtain ⟨c, reads, writes, hc, rfl⟩ := h.connection?
  rw [writtenNote, hc, Option.bind_some]
  rfl

end

/-- A step keeps the ledger, and its packets acknowledge what is written. -/
theorem Stands.ledger_of_regular {isn : UInt32} {steps : List (Surroundings × Event)}
    {s : Surroundings} {event : Event} {σ σ' : Session} {replies more : List Reply}
    {handed data : List UInt8} (h : (e.run steps).Stands id σ replies handed)
    (hledger : Ledger isn ((observe (streamNote id) e steps).map Arrival.segment)
      (observe (writtenNote id) e steps) σ handed)
    (hturn : Turn σ ((e.run steps).deed id event) more data σ')
    (hregular : e.Regular id isn (steps ++ [(s, event)])) :
    Ledger isn ((observe (streamNote id) e (steps ++ [(s, event)])).map Arrival.segment)
      (observe (writtenNote id) e (steps ++ [(s, event)])) σ' (handed ++ data) ∧
      ∀ r ∈ more, r.acknowledgement =
        reached (isn + 1) (observe (writtenNote id) e (steps ++ [(s, event)])) := by
  obtain ⟨hsyns, hacks⟩ := hregular
  rw [observe_concat] at hsyns hacks
  rw [h.synNote_eq] at hsyns
  have hsyn : ∀ x, ((e.run steps).deed id event).syn? σ.status = some x → x = isn :=
    fun x hx => hsyns x (List.mem_append_right _ (by simp [hx]))
  have hack : ∀ a, ((e.run steps).deed id event).stream? = some a → a.tcp.isAck = true :=
    fun a ha => hacks a (List.mem_append_right _ (by simp [streamNote, ha]))
  rw [observe_concat, observe_concat, h.writtenNote_eq, List.map_append]
  exact ⟨hledger.turn hturn hsyn hack, hledger.speaks hturn⟩

/-- A connection that a regular device opened has its ledger at every point of a run. -/
theorem Opens.ledger_of_regular {config : Config} {inspecting : Bool}
    {before : List (Surroundings × Event)} {s : Surroundings} {initial : UInt32} {d : Datagram}
    {tcp : Packet.Tcp} (h : ((empty config inspecting).run before).Opens s initial d id)
    (htcp : d.headers.tcp? = some tcp) (after : List (Surroundings × Event)) :
    let e := ((empty config inspecting).run before).step s (.segment initial d)
    ∃ σ replies handed, (e.run after).Stands id σ replies handed ∧
      (e.Regular id tcp.sequence after →
        Ledger tcp.sequence ((observe (streamNote id) e after).map Arrival.segment)
          (observe (writtenNote id) e after) σ handed) := by
  intro e
  obtain ⟨tcp', closed, htcp', hborn⟩ := h.stands
  cases htcp.symm.trans htcp'
  refine hborn.run_induction (motive := fun after σ _ handed => e.Regular id tcp.sequence after →
      Ledger tcp.sequence ((observe (streamNote id) e after).map Arrival.segment)
        (observe (writtenNote id) e after) σ handed)
    (fun _ => .born initial tcp.sequence closed) ?_ after
  intro steps s event σ replies handed more data σ' hstands hturn hledger hregular
  exact (hstands.ledger_of_regular (hledger hregular.of_append) hturn hregular).1

end Engine

end FlowRelay.Tcp
