import FlowRelay.Proofs.Tcp.Ledger
import FlowRelay.Proofs.Tcp.Moves
import FlowRelay.Proofs.Tcp.SequenceSpace

/-!
# FlowRelay.Proofs.Tcp.Pieces

The two streams of a connection in the pieces in which they pass through the engine.

1. *Pieces* (`Session.piece?`): what is read to be sent to the device, and what is written of the
   data of the device, as long as the connection is open.
2. *Accounts* (`Account.turn`): pieces are what the device is sent and what is written, but that one
   piece may be read in vain when the connection closes, and one written when it is closed.
3. *Runs* (`run_account`): a connection keeps such an account at every point of a run.
-/

namespace FlowRelay.Tcp

open Packet

/-! ## Pieces -/

/-- The payload whose write is completed, among the segments that wait. -/
def Deed.payload? (waiting : List Segment) (deed : Deed) : Option (List UInt8) :=
  ((deed.written? waiting).map Segment.payload).filter (!·.isEmpty)

/-- The data of a direction that passes through an open session. -/
def Session.piece? (σ : Session) (deed : Deed) (direction : Http.Direction) :
    Option (List UInt8) :=
  if σ.closed then none
  else
    match direction with
    | .request => deed.payload? σ.waiting
    | .response => if σ.status = .lastAck then none else deed.yields

section

variable {σ σ' : Session} {deed : Deed} {more : List Reply} {handed : List UInt8}

/-- A segment without data has no payload to be written, and a write that fails writes none. -/
theorem Deed.payload?_wrote {waiting rest : List Segment} {g : Segment}
    (hwaiting : waiting = g :: rest) (result : Except Fault Unit) :
    (wrote result).payload? waiting =
      if g.payload.isEmpty ∨ result ≠ .ok () then none else some g.payload := by
  rw [hwaiting]
  by_cases hdata : g.payload = []
  · cases hstream : g.isStream <;> simp [payload?, written?, Segment.isWritten, hdata, hstream]
  · by_cases hresult : result = .ok () <;>
      simp [payload?, written?, Segment.isWritten, Segment.isStream, hdata, hresult]

theorem Session.piece?_of_closed (hclosed : σ.closed = true) (deed : Deed)
    (direction : Http.Direction) : σ.piece? deed direction = none := if_pos hclosed

/-- A piece of the request passes when it is written. -/
theorem Session.piece?_request (hopen : σ.closed = false) (deed : Deed) :
    σ.piece? deed .request = deed.payload? σ.waiting := if_neg (by simp [hopen])

/-- A piece of the response passes when it is read. -/
theorem Session.toList_piece?_response (hopen : σ.closed = false) (deed : Deed) :
    (σ.piece? deed .response).toList = deed.heard (σ.status = .lastAck) := by
  have hpiece : σ.piece? deed .response =
      if σ.status = .lastAck then none else deed.yields := if_neg (by simp [hopen])
  rw [hpiece, Deed.heard]
  by_cases hlast : σ.status = .lastAck
  · simp [hlast]
  · simp [hlast]

/-! ## Writers -/

/-- A connection has one writer at most, and gets it when its connect ends. -/
structure Session.Writes (σ : Session) : Prop where
  idle : σ.status = .synSent → σ.writes = 0
  le_one : σ.writes ≤ 1

/-- No turn brings a second writer, or one in front of the handshake. -/
theorem Turn.writes (h : Turn σ deed more handed σ') (hwrites : σ.Writes) : σ'.Writes := by
  rcases h.writes_le with hle | ⟨-, hstatus, hbehind, hone⟩
  · refine ⟨fun hsent => ?_, Nat.le_trans hle hwrites.le_one⟩
    have hstatus : σ.status = .synSent := by
      by_contra hbehind
      exact h.ne_synSent hbehind hsent
    exact Nat.le_zero.mp (hwrites.idle hstatus ▸ hle)
  · have hnone := hwrites.idle hstatus
    exact ⟨fun hsent => absurd hsent hbehind, by omega⟩

/-- A write that is completed on a closed session is the last of its writer. -/
theorem Turn.writes_of_payload? (h : Turn σ deed more handed σ') (hclosed : σ.closed = true)
    (hsome : deed.payload? σ.waiting ≠ none) : σ.writes ≠ 0 ∧ σ'.writes = σ.writes - 1 := by
  cases h with
  | wroteLate hwrite => exact ⟨by omega, rfl⟩
  | writeFailed hwrite => exact ⟨by omega, rfl⟩
  | wroteNothing hnone => simp [Deed.payload?, Deed.written?, hnone] at hsome
  | wroteMute _ _ _ hopen => simp [hopen] at hclosed
  | acknowledged _ _ _ hopen => simp [hopen] at hclosed
  | answered _ _ _ hopen => simp [hopen] at hclosed
  | completed _ _ _ hopen => simp [hopen] at hclosed
  | passed _ _ hopen => simp [hopen] at hclosed
  | _ => exact absurd rfl hsome

end

/-! ## Accounts -/

/-- How the pieces of a connection, which is open or not, account for the data that the device is
sent and for the payloads that are written. -/
structure Account (closed : Bool) (replies : List Reply) (written : List (List UInt8))
    (pieces : Http.Direction → List (List UInt8)) : Prop where
  /-- One piece more may be read, which cannot be sent. -/
  responses : ∃ lost, pieces .response = dataOf replies ++ lost ∧ lost.length ≤ 1 ∧
    (closed = false → lost = [])
  /-- One payload more may be written, when the connection is closed already. -/
  requests : ∃ late, written = pieces .request ++ late ∧ late.length ≤ 1 ∧
    (closed = false → late = [])

/-- An account of a session, which can have a late payload only behind its writer. -/
structure Session.Accounts (σ : Session) (replies : List Reply) (written : List (List UInt8))
    (pieces : Http.Direction → List (List UInt8)) : Prop
    extends Account σ.closed replies written pieces where
  writes : σ.Writes
  writing : σ.writes ≠ 0 → written = pieces .request

namespace Session.Accounts

variable {σ σ' : Session} {deed : Deed} {replies more : List Reply} {handed : List UInt8}
  {written : List (List UInt8)} {pieces : Http.Direction → List (List UInt8)}

theorem born (initial theirs : UInt32) (closed : Bool) :
    (Session.born initial theirs closed).Accounts [] [] fun _ => [] where
  responses := ⟨[], rfl, Nat.zero_le 1, fun _ => rfl⟩
  requests := ⟨[], rfl, Nat.zero_le 1, fun _ => rfl⟩
  writes := ⟨fun _ => rfl, Nat.zero_le 1⟩
  writing _ := rfl

/-- What an open session reads it sends, unless that closes it, and what it writes is a piece. -/
theorem turn_of_open (h : σ.Accounts replies written pieces)
    (hturn : Turn σ deed more handed σ') (hopen : σ.closed = false) :
    σ'.Accounts (replies ++ more) (written ++ (deed.payload? σ.waiting).toList)
      fun direction => pieces direction ++ (σ.piece? deed direction).toList := by
  have hsay := hturn.utterance hopen
  obtain ⟨lost, hresponses, -, hlost⟩ := h.responses
  obtain ⟨late, hrequests, -, hlate⟩ := h.requests
  cases hlost hopen
  cases hlate hopen
  rw [List.append_nil] at hresponses hrequests
  have hwritten : written ++ (deed.payload? σ.waiting).toList =
      pieces .request ++ (σ.piece? deed .request).toList := by
    rw [Session.piece?_request hopen, hrequests]
  have hheard := Session.toList_piece?_response hopen deed
  refine ⟨⟨?_, [], ?_, Nat.zero_le 1, fun _ => rfl⟩, hturn.writes h.writes, fun _ => hwritten⟩
  · obtain ⟨unsent, hunsent⟩ := hsay.data
    refine ⟨unsent, ?_, ?_, fun hopen' => ?_⟩
    · rw [hresponses, hheard, ← hunsent, dataOf_append, List.append_assoc]
    · have hone : (σ.piece? deed .response).toList.length ≤ 1 := Option.length_toList_le
      rw [hheard, ← hunsent, List.length_append] at hone
      omega
    · have hwhole := hsay.whole (.inl hopen')
      rw [← hwhole] at hunsent
      exact List.append_right_eq_self.mp hunsent
  · rw [List.append_nil, hwritten]

/-- Nothing passes through a closed session any more, but its writer may end with a payload. -/
theorem turn_of_closed (h : σ.Accounts replies written pieces)
    (hturn : Turn σ deed more handed σ') (hclosed : σ.closed = true) :
    σ'.Accounts (replies ++ more) (written ++ (deed.payload? σ.waiting).toList)
      fun direction => pieces direction ++ (σ.piece? deed direction).toList := by
  obtain ⟨hclosed', rfl⟩ := hturn.of_closed hclosed
  have hsame (direction : Http.Direction) :
      pieces direction ++ (σ.piece? deed direction).toList = pieces direction := by
    rw [Session.piece?_of_closed hclosed, Option.toList_none, List.append_nil]
  simp only [hsame, List.append_nil]
  have hshut {late : List (List UInt8)} (hopen : σ'.closed = false) : late = [] := by
    simp [hclosed'] at hopen
  obtain ⟨lost, hresponses, hone, -⟩ := h.responses
  cases hpayload : deed.payload? σ.waiting with
  | none =>
      obtain ⟨late, hrequests, hone', -⟩ := h.requests
      rw [Option.toList_none, List.append_nil]
      refine ⟨⟨⟨lost, hresponses, hone, hshut⟩, late, hrequests, hone', hshut⟩,
        hturn.writes h.writes, fun hwriter => h.writing ?_⟩
      rcases hturn.writes_le with hle | ⟨hopen, -⟩
      · omega
      · simp [hclosed] at hopen
  | some payload =>
      obtain ⟨hwriter, hlast⟩ := hturn.writes_of_payload? hclosed (by simp [hpayload])
      have hle := h.writes.le_one
      refine ⟨⟨⟨lost, hresponses, hone, hshut⟩, [payload], ?_, Nat.le_refl 1, hshut⟩,
        hturn.writes h.writes, fun hwriter' => absurd hlast (by omega)⟩
      rw [h.writing hwriter]
      rfl

/-- **Turns**: every turn keeps the account. -/
theorem turn (h : σ.Accounts replies written pieces) (hturn : Turn σ deed more handed σ') :
    σ'.Accounts (replies ++ more) (written ++ (deed.payload? σ.waiting).toList)
      fun direction => pieces direction ++ (σ.piece? deed direction).toList := by
  cases hclosed : σ.closed with
  | false => exact h.turn_of_open hturn hclosed
  | true => exact h.turn_of_closed hturn hclosed

end Session.Accounts

/-! ## Runs -/

namespace Engine

variable {α : Type} {id : Nat}

/-- The data of a direction that passes through a connection while it is open. -/
def pieceNote (id : Nat) (direction : Http.Direction) (e : Engine) (event : Event) :
    Option (List UInt8) :=
  (e.store.connection? id).bind fun c =>
    (Session.of c (e.view id).reads (e.view id).writes).piece? (e.deed id event) direction

/-- The payloads whose writes to the outbound socket of a connection are completed. -/
def payloadNote (id : Nat) (e : Engine) (event : Event) : Option (List UInt8) :=
  (e.store.connection? id).bind fun c => (e.deed id event).payload? c.writer.segments

theorem pieceNote_of_none (direction : Http.Direction) (e : Engine) (event : Event)
    (hnone : e.store.connection? id = none) : pieceNote id direction e event = none := by
  rw [pieceNote, hnone]
  rfl

theorem payloadNote_of_none (e : Engine) (event : Event)
    (hnone : e.store.connection? id = none) : payloadNote id e event = none := by
  rw [payloadNote, hnone]
  rfl

/-- The piece that passes at a step is that of its deed. -/
theorem Stands.pieceNote_eq {e : Engine} {σ : Session} {replies : List Reply}
    {handed : List UInt8} (h : e.Stands id σ replies handed) (direction : Http.Direction)
    (event : Event) : pieceNote id direction e event = σ.piece? (e.deed id event) direction := by
  obtain ⟨c, reads, writes, hview, rfl⟩ := h
  have hc : e.store.connection? id = some c := congrArg View.connection hview
  rw [pieceNote, hc, hview, Option.bind_some]

theorem Stands.payloadNote_eq {e : Engine} {σ : Session} {replies : List Reply}
    {handed : List UInt8} (h : e.Stands id σ replies handed) (event : Event) :
    payloadNote id e event = (e.deed id event).payload? σ.waiting := by
  obtain ⟨c, reads, writes, hc, rfl⟩ := h.connection?
  rw [payloadNote, hc, Option.bind_some]
  rfl

/-- Nothing is noted of a connection that does not exist. -/
theorem observe_of_none {note : Engine → Event → Option α}
    (hnote : ∀ e event, e.store.connection? id = none → note e event = none) (config : Config)
    (inspecting : Bool) (steps : List (Surroundings × Event))
    (hnone : ((empty config inspecting).run steps).store.connection? id = none) :
    observe note (empty config inspecting) steps = [] := by
  induction steps using List.reverseRecOn with
  | nil => rfl
  | append_singleton steps x ih =>
      obtain ⟨s, event⟩ := x
      rw [run_concat] at hnone
      have hbefore : ((empty config inspecting).run steps).store.connection? id = none := by
        by_contra hsome
        obtain ⟨c, hc⟩ := Option.ne_none_iff_exists'.mp hsome
        obtain ⟨c', hc', -⟩ := (coherent_run config inspecting steps).connection?_step hc s event
        exact Option.some_ne_none c' (hc'.symm.trans hnone)
      rw [observe_concat, ih hbefore, hnote _ event hbefore]
      rfl

/-- What is noted of a connection is noted behind the segment that opens it. -/
theorem Opens.observe_eq {config : Config} {inspecting : Bool}
    {before : List (Surroundings × Event)} {s : Surroundings} {initial : UInt32} {d : Datagram}
    (h : ((empty config inspecting).run before).Opens s initial d id)
    {note : Engine → Event → Option α}
    (hnote : ∀ e event, e.store.connection? id = none → note e event = none)
    (after : List (Surroundings × Event)) :
    observe note (empty config inspecting) (before ++ (s, .segment initial d) :: after) =
      observe note (((empty config inspecting).run before).step s (.segment initial d)) after := by
  rw [observe_append, observe_of_none hnote config inspecting before h.1, observe, hnote _ _ h.1]
  rfl

/-- **Accounts**: at every point of a run the pieces of a connection account for what the device
is sent on it and for what is written. -/
theorem run_account (config : Config) (inspecting : Bool) (steps : List (Surroundings × Event))
    {c : Connection} (hc : ((empty config inspecting).run steps).store.connection? id = some c) :
    ∃ replies, ((empty config inspecting).run steps).sent id = replies.map some ∧
      Account c.closed replies (observe (payloadNote id) (empty config inspecting) steps)
        fun direction => observe (pieceNote id direction) (empty config inspecting) steps := by
  have hsome : ((empty config inspecting).run steps).store.connection? id ≠ none := by
    rw [hc]
    nofun
  obtain ⟨before, s, initial, d, after, rfl, hopens⟩ := exists_opens config inspecting steps hsome
  have hpayloads := hopens.observe_eq payloadNote_of_none after
  have hpieces (direction : Http.Direction) := hopens.observe_eq (pieceNote_of_none direction) after
  obtain ⟨tcp, closed, -, hborn⟩ := hopens.stands
  obtain ⟨σ, replies, handed, hstands, haccounts⟩ := hborn.run_induction
    (motive := fun after σ replies _ => σ.Accounts replies
      (observe (payloadNote id)
        (((empty config inspecting).run before).step s (.segment initial d)) after)
      fun direction => observe (pieceNote id direction)
        (((empty config inspecting).run before).step s (.segment initial d)) after)
    (.born initial tcp.sequence closed)
    (fun hstands hturn haccounts => by
      simp only [observe_concat, hstands.payloadNote_eq, hstands.pieceNote_eq]
      exact haccounts.turn hturn) after
  have hrun : (empty config inspecting).run (before ++ (s, .segment initial d) :: after) =
      (((empty config inspecting).run before).step s (.segment initial d)).run after :=
    run_append _ _ _
  rw [hrun] at hc ⊢
  obtain ⟨c', reads, writes, hc', rfl⟩ := hstands.connection?
  cases hc.symm.trans hc'
  refine ⟨replies, hstands.sent_eq, ?_⟩
  simp only [hpayloads, hpieces]
  exact haccounts.toAccount

end Engine

end FlowRelay.Tcp
