import FlowRelay.Proofs.Tcp.View

/-!
# FlowRelay.Proofs.Tcp.Turn

What one step of the engine can do to one connection.

1. *Sessions* (`Session`): what decides about a connection, without its accounts.
2. *Deeds* (`Deed`): what a step is about, as far as one connection is concerned.
3. *Turns* (`Turn`): every way in which a step can change a session, what it sends and what it hands
   to the outbound socket.  A step that is about another connection can only close this one.
-/

namespace FlowRelay.Tcp

open Packet

/-! ## Sessions -/

theorem Connection.close_close (c : Connection) : c.close.close = c.close := by
  simp only [Connection.close]
  split
  · rfl
  · cases c.writer <;> rfl

@[simp] theorem WriterQueue.segments_release (q : WriterQueue) :
    q.release.segments = q.segments := by
  cases q <;> rfl

theorem WriterQueue.segments_dropFirst (q : WriterQueue) :
    q.dropFirst.segments = q.segments.drop 1 := by
  cases q <;> rfl

/-- What decides about a connection. -/
structure Session where
  status : Status
  sequence : UInt32
  acknowledgement : UInt32
  /-- The acknowledgement that came last from the device. -/
  theirs : UInt32
  /-- The segments of the device that are still to be written. -/
  waiting : List Segment
  /-- How many bytes of the first of them the outbound socket has taken already. -/
  taken : Nat
  closed : Bool
  /-- How many reads are under way. -/
  reads : Nat
  /-- How many writers there are. -/
  writes : Nat

namespace Session

variable {σ : Session}

/-- The session of a connection with so much work under way. -/
def of (c : Connection) (reads writes : Nat) : Session :=
  { status := c.status, sequence := c.sequence, acknowledgement := c.acknowledgement
    theirs := c.theirAcknowledgement, waiting := c.writer.segments, taken := c.taken
    closed := c.closed, reads, writes }

/-- The connection is closed. -/
def shut (σ : Session) : Session := { σ with closed := true }

/-- A packet that the session sends. -/
def reply (σ : Session) (flags : UInt8) (payload : List UInt8) : Reply :=
  ⟨flags, σ.sequence, σ.acknowledgement, payload⟩

/-- What a reset may send: a RST, unless a side is closed already, or nothing. -/
def Resets (σ : Session) (replies : List Reply) : Prop :=
  replies = [] ∨
    σ.status.isClosing = false ∧ replies = [σ.reply (Flag.rst ||| Flag.ack) []]

/-- The acknowledgement of a segment is noted. -/
def hear (σ : Session) (tcp : Packet.Tcp) : Session :=
  { σ with theirs := if tcp.isAck then tcp.acknowledgement else σ.theirs }

/-- An ACK completes the handshake. -/
def heed (σ : Session) (tcp : Packet.Tcp) : Session :=
  { σ.hear tcp with
    status := if σ.status = .synReceived ∧ tcp.isAck then .established else σ.status }

/-- The first segment is out of the queue, and these are left. -/
def leave (σ : Session) (rest : List Segment) : Session := { σ with waiting := rest, taken := 0 }

/-- A segment is acknowledged. -/
def acknowledge (σ : Session) (g : Segment) : Session := { σ with acknowledgement := g.stop }

/-- Closing a connection shuts its session, and leaves its queue as it is. -/
theorem of_close (c : Connection) (reads writes : Nat) :
    Session.of c.close reads writes = (Session.of c reads writes).shut := by
  simp only [Session.of, Session.shut, Connection.close]
  split
  · rfl
  · rw [WriterQueue.segments_release]

theorem heed_eq_hear {σ : Session} (tcp : Packet.Tcp) (h : σ.status ≠ .synReceived) :
    σ.heed tcp = σ.hear tcp := by
  simp only [heed, h, false_and, if_false]
  rfl

/-- Taking notice of an ACK does not lead in front of the handshake. -/
theorem eq_synSent_of_heed {σ : Session} {tcp : Packet.Tcp}
    (h : (σ.heed tcp).status = .synSent) : σ.status = .synSent := by
  simp only [heed] at h
  split at h
  · contradiction
  · exact h

/-- Taking notice of an ACK closes no side. -/
theorem isClosing_heed (σ : Session) (tcp : Packet.Tcp) :
    (σ.heed tcp).status.isClosing = σ.status.isClosing := by
  simp only [heed]
  split
  · next h =>
      rw [h.1]
      rfl
  · rfl

/-- The session of a new connection. -/
def born (initial theirs : UInt32) (closed : Bool) : Session :=
  { status := .synSent, sequence := initial, acknowledgement := theirs + 1, theirs := 0
    waiting := [], taken := 0, closed, reads := 0, writes := 0 }

end Session

/-- Whether a segment is written when its write ends so.  Without data there is nothing to write. -/
def Segment.isWritten (g : Segment) (result : Except Fault Unit) : Prop :=
  g.payload = [] ∨ result = .ok ()

/-! ## Turns -/

/-- What a step is about, as far as one connection is concerned. -/
inductive Deed where
  /-- Something else. -/
  | other
  /-- A segment of the device arrives on the open connection. -/
  | arrival (tcp : Packet.Tcp) (payload : List UInt8)
  | connected (result : Except Fault Unit)
  | received (result : Except Fault (List UInt8))
  | took (count : Nat)
  | wrote (result : Except Fault Unit)

/-- What a step may make of a session: the packets that it sends, the data that it hands to the
outbound socket, and the session behind it. -/
inductive Turn (σ : Session) : Deed → List Reply → List UInt8 → Session → Prop
  | elsewhere : Turn σ .other [] [] σ
  /-- The connection is evicted, or closed with all others. -/
  | evicted : Turn σ .other [] [] σ.shut
  /-- Work on a closed connection is given up. -/
  | abandoned {reads writes : Nat} (hclosed : σ.closed = true) (hreads : reads ≤ σ.reads)
      (hwrites : writes ≤ σ.writes) : Turn σ .other [] [] { σ with reads, writes }
  -- Segments of the device.
  | aborted {tcp : Packet.Tcp} {payload : List UInt8} (hopen : σ.closed = false)
      (hrst : tcp.isRst = true) : Turn σ (.arrival tcp payload) [] [] (σ.hear tcp).shut
  | repeated {tcp : Packet.Tcp} {payload : List UInt8} (hopen : σ.closed = false)
      (hrst : tcp.isRst = false) (hsyn : tcp.isSyn = true)
      (hstatus : σ.status = .synSent ∨ σ.status = .synReceived) :
      Turn σ (.arrival tcp payload) [] []
        { σ.hear tcp with acknowledgement := tcp.sequence + 1 }
  | ignored {tcp : Packet.Tcp} {payload : List UInt8} (hopen : σ.closed = false)
      (hrst : tcp.isRst = false) (hsyn : tcp.isSyn = false) (hfin : tcp.isFin = false)
      (hack : tcp.isAck = false) : Turn σ (.arrival tcp payload) [] [] (σ.hear tcp)
  | noted {tcp : Packet.Tcp} (hopen : σ.closed = false)
      (hrst : tcp.isRst = false) (hsyn : tcp.isSyn = false) (hfin : tcp.isFin = false)
      (hack : tcp.isAck = true) (hsent : σ.status ≠ .synSent) (hlast : σ.status ≠ .lastAck) :
      Turn σ (.arrival tcp []) [] [] (σ.heed tcp)
  | queued {tcp : Packet.Tcp} {payload : List UInt8} (hopen : σ.closed = false)
      (hrst : tcp.isRst = false) (hsyn : tcp.isSyn = false)
      (hflag : tcp.isFin = true ∨ tcp.isAck = true) (hsent : σ.status ≠ .synSent)
      (hmatter : payload ≠ [] ∨ tcp.isFin = true ∨ σ.status = .lastAck) :
      Turn σ (.arrival tcp payload) [] []
        { σ.heed tcp with waiting := σ.waiting ++ [⟨tcp.sequence, payload, tcp.isFin⟩] }
  /-- A SYN behind the handshake, a segment in front of it, or one that finds no writer. -/
  | refused {tcp : Packet.Tcp} {payload : List UInt8} {replies : List Reply}
      (hopen : σ.closed = false) (hrst : tcp.isRst = false)
      (hsyn : tcp.isSyn = true → σ.status ≠ .synSent ∧ σ.status ≠ .synReceived)
      (hflag : tcp.isSyn = true ∨ tcp.isFin = true ∨ tcp.isAck = true)
      (hreset : σ.Resets replies) :
      Turn σ (.arrival tcp payload) replies [] (σ.heed tcp).shut
  -- Connects.
  | connectLate {result : Except Fault Unit}
      (hlate : σ.closed = true ∨ σ.status ≠ .synSent) : Turn σ (.connected result) [] [] σ
  | connectFailed {x : Fault} {replies : List Reply} (hopen : σ.closed = false)
      (hstatus : σ.status = .synSent) (hreset : { σ with sequence := 0 }.Resets replies) :
      Turn σ (.connected (.error x)) replies [] { σ with sequence := 0, closed := true }
  /-- The SYN with an ACK could not be sent. -/
  | connectMute (hopen : σ.closed = false) (hstatus : σ.status = .synSent) :
      Turn σ (.connected (.ok ())) [] [] σ.shut
  | connected {reads : Nat} (hopen : σ.closed = false) (hstatus : σ.status = .synSent) :
      Turn σ (.connected (.ok ())) [σ.reply (Flag.syn ||| Flag.ack) []] []
        { σ with
          status := .synReceived, sequence := σ.sequence + 1, waiting := [], reads
          writes := σ.writes + 1 }
  -- Reads.
  | readLate {result : Except Fault (List UInt8)} (hread : 0 < σ.reads)
      (hlate : σ.closed = true ∨ σ.status = .lastAck) :
      Turn σ (.received result) [] [] { σ with reads := σ.reads - 1 }
  | readFailed {x : Fault} {replies : List Reply} (hread : 0 < σ.reads)
      (hopen : σ.closed = false) (hlast : σ.status ≠ .lastAck) (hreset : σ.Resets replies) :
      Turn σ (.received (.error x)) replies [] { σ with reads := σ.reads - 1, closed := true }
  /-- What was read could not be sent, or the end of the stream came too late to be told. -/
  | readMute {data : List UInt8} (hread : 0 < σ.reads) (hopen : σ.closed = false)
      (hlast : σ.status ≠ .lastAck) :
      Turn σ (.received (.ok data)) [] [] { σ with reads := σ.reads - 1, closed := true }
  | ended (hread : 0 < σ.reads) (hopen : σ.closed = false) (hlast : σ.status ≠ .lastAck) :
      Turn σ (.received (.ok [])) [σ.reply (Flag.fin ||| Flag.ack) []] []
        { σ with status := .lastAck, sequence := σ.sequence + 1, reads := σ.reads - 1 }
  | read {data : List UInt8} {reads : Nat} (hread : 0 < σ.reads) (hopen : σ.closed = false)
      (hlast : σ.status ≠ .lastAck) (hdata : data ≠ []) :
      Turn σ (.received (.ok data)) [σ.reply (Flag.psh ||| Flag.ack) data] []
        { σ with sequence := σ.sequence + UInt32.ofNat data.length, reads }
  -- Writes.
  | tookNothing {count : Nat} (hnone : σ.waiting = []) : Turn σ (.took count) [] [] σ
  | took {count : Nat} {g : Segment} {rest : List Segment} (hwrite : 0 < σ.writes)
      (hwaiting : σ.waiting = g :: rest) :
      Turn σ (.took count) [] ((g.payload.drop σ.taken).take count)
        { σ with taken := σ.taken + count }
  | wroteNothing {result : Except Fault Unit} (hnone : σ.waiting = []) :
      Turn σ (.wrote result) [] [] σ
  | wroteLate {result : Except Fault Unit} {g : Segment} {rest : List Segment}
      (hwrite : 0 < σ.writes) (hwaiting : σ.waiting = g :: rest) (hwritten : g.isWritten result)
      (hclosed : σ.closed = true) :
      Turn σ (.wrote result) [] (g.payload.drop σ.taken)
        { σ.leave rest with writes := σ.writes - 1 }
  /-- A write failed.  An open connection is reset. -/
  | writeFailed {result : Except Fault Unit} {g : Segment} {rest : List Segment}
      {replies : List Reply} (hwrite : 0 < σ.writes) (hwaiting : σ.waiting = g :: rest)
      (hwritten : ¬ g.isWritten result)
      (hreset : replies = [] ∨ σ.closed = false ∧ σ.Resets replies) :
      Turn σ (.wrote result) replies []
        { σ.leave rest with writes := σ.writes - 1, closed := true }
  /-- A written segment could not be acknowledged. -/
  | wroteMute {result : Except Fault Unit} {g : Segment} {rest : List Segment}
      (hwrite : 0 < σ.writes) (hwaiting : σ.waiting = g :: rest) (hwritten : g.isWritten result)
      (hopen : σ.closed = false) (hmatter : g.payload ≠ [] ∨ g.fin = true) :
      Turn σ (.wrote result) [] (g.payload.drop σ.taken)
        { (σ.leave rest).acknowledge g with writes := σ.writes - 1, closed := true }
  | acknowledged {result : Except Fault Unit} {g : Segment} {rest : List Segment}
      (hwrite : 0 < σ.writes) (hwaiting : σ.waiting = g :: rest) (hwritten : g.isWritten result)
      (hopen : σ.closed = false) (hdata : g.payload ≠ []) (hfin : g.fin = false) :
      Turn σ (.wrote result) [(σ.acknowledge g).reply Flag.ack []] (g.payload.drop σ.taken)
        ((σ.leave rest).acknowledge g)
  | answered {result : Except Fault Unit} {g : Segment} {rest : List Segment}
      (hwrite : 0 < σ.writes) (hwaiting : σ.waiting = g :: rest) (hwritten : g.isWritten result)
      (hopen : σ.closed = false) (hfin : g.fin = true) (hlast : σ.status ≠ .lastAck) :
      Turn σ (.wrote result) [(σ.acknowledge g).reply (Flag.fin ||| Flag.ack) []]
        (g.payload.drop σ.taken)
        { (σ.leave rest).acknowledge g with status := .lastAck, sequence := σ.sequence + 1 }
  | completed {result : Except Fault Unit} {g : Segment} {rest : List Segment}
      (hwrite : 0 < σ.writes) (hwaiting : σ.waiting = g :: rest) (hwritten : g.isWritten result)
      (hopen : σ.closed = false) (hfin : g.fin = true) (hlast : σ.status = .lastAck) :
      Turn σ (.wrote result) [(σ.acknowledge g).reply Flag.ack []] (g.payload.drop σ.taken)
        ((σ.leave rest).acknowledge g).shut
  /-- A bare ACK is done with.  The last one closes the connection. -/
  | passed {result : Except Fault Unit} {g : Segment} {rest : List Segment}
      (hwrite : 0 < σ.writes) (hwaiting : σ.waiting = g :: rest) (hopen : σ.closed = false)
      (hdata : g.payload = []) (hfin : g.fin = false) :
      Turn σ (.wrote result) [] []
        { σ.leave rest with
          closed := decide (σ.status = .lastAck ∧ σ.theirs = σ.sequence) }

/-- One view of a connection turns into another. -/
def Engine.View.Turns (v : Engine.View) (deed : Deed) (v' : Engine.View) : Prop :=
  ∃ c c' reads writes replies handed,
    v.connection = some c ∧ v' = v.after c' reads writes replies handed ∧
    Turn (.of c v.reads v.writes) deed replies handed (.of c' reads writes)

namespace Engine

/-- What a step is about, as far as a connection is concerned. -/
def deed (e : Engine) (id : Nat) : Event → Deed
  | .segment _ d =>
    match d.headers.tcp? with
    | none => .other
    | some tcp =>
      if e.store.table.peek? ⟨d.destination, d.source.port⟩ = some id ∧ e.store.isOpen id then
        .arrival tcp d.payload
      else .other
  | .connected i target result =>
    if i = id ∧ e.tasks.contains (.connect i target) then .connected result else .other
  | .received i result =>
    if i = id ∧ e.tasks.contains (.read i) then .received (result.map (·.take e.readRoom))
    else .other
  | .took i count => if i = id ∧ e.tasks.contains (.write i) then .took count else .other
  | .wrote i result => if i = id ∧ e.tasks.contains (.write i) then .wrote result else .other
  | .abandoned _ | .closeAll => .other

end Engine

end FlowRelay.Tcp
