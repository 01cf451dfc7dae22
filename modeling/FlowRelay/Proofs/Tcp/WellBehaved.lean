import FlowRelay.Proofs.Tcp.Closing
import FlowRelay.Proofs.Tcp.Progress

/-!
# FlowRelay.Proofs.Tcp.WellBehaved

Sessions in which everybody keeps to the rules and nothing fails.

1. *Scripts* (`Script`): what happens in a well behaved session, each step up to the point where
   nothing is under way but the next read.  The SYN may come again until the device has acknowledged
   something; data of the device, data of the server and bare acknowledgements follow each other in
   any order; and either side begins to close.
2. *Points* (`Reaches`): how a session stands, with one lemma for each of its steps.
3. *Acts* (`Rests.run`): after any acts the session stands where its acts have brought it.
4. *The session* (`run_wellBehaved`): the server gets exactly what the device sent, the device gets
   exactly one packet for each thing that calls for one, and the connection is gone in the end.
-/

namespace FlowRelay.Tcp

open Packet

/-- What a packet to the device carries besides its numbers. -/
def Reply.content (r : Reply) : UInt8 × List UInt8 := (r.flags, r.payload)

namespace Engine

/-! ## Scripts -/

/-- A segment of the device and the surroundings in which it arrives, with the initial sequence
number of the connection that it may open. -/
structure Incoming where
  surroundings : Surroundings
  initial : UInt32
  datagram : Datagram

namespace Incoming

def step (x : Incoming) : Surroundings × Event := (x.surroundings, .segment x.initial x.datagram)

/-- A segment of a flow that is no reset, arrives where everything works and is of some kind. -/
def Is (x : Incoming) (k : Flow.Key) (kind : Packet.Tcp → List UInt8 → Prop) : Prop :=
  x.surroundings.Works ∧ ∃ tcp, Carries x.datagram k tcp ∧ tcp.isRst = false ∧
    kind tcp x.datagram.payload

end Incoming

/-- A SYN that opens a connection. -/
def IsOpening (tcp : Packet.Tcp) (_ : List UInt8) : Prop := tcp.isSyn = true ∧ tcp.isAck = false

def IsSyn (tcp : Packet.Tcp) (_ : List UInt8) : Prop := tcp.isSyn = true

/-- An acknowledgement and nothing else. -/
def IsBareAck (tcp : Packet.Tcp) (payload : List UInt8) : Prop :=
  tcp.isSyn = false ∧ tcp.isFin = false ∧ tcp.isAck = true ∧ payload = []

def IsData (tcp : Packet.Tcp) (payload : List UInt8) : Prop :=
  tcp.isSyn = false ∧ tcp.isFin = false ∧ tcp.isAck = true ∧ payload ≠ []

/-- A FIN without data. -/
def IsFin (tcp : Packet.Tcp) (payload : List UInt8) : Prop :=
  tcp.isSyn = false ∧ tcp.isFin = true ∧ payload = []

/-- One thing that happens between the handshake and the end of a session. -/
inductive Act where
  /-- The SYN of the device comes again. -/
  | syn (x : Incoming)
  /-- The device acknowledges something. -/
  | ack (x : Incoming)
  /-- The device sends data, which the outbound socket takes, perhaps in parts. -/
  | data (x : Incoming) (parts : List (Surroundings × Nat)) (written : Surroundings)
  /-- The server sends data, which is read at once. -/
  | chunk (s : Surroundings) (bytes : List UInt8)

namespace Act

def steps (id : Nat) : Act → List (Surroundings × Event)
  | .syn x => [x.step]
  | .ack x => [x.step]
  | .data x parts written =>
      x.step :: parts.map (fun (s, count) => (s, .took id count)) ++ [(written, .wrote id (.ok ()))]
  | .chunk s bytes => [(s, .received id (.ok bytes))]

/-- What is on its way to the server. -/
def upload : Act → List UInt8
  | .data x _ _ => x.datagram.payload
  | _ => []

/-- What is on its way to the device. -/
def download : Act → List UInt8
  | .chunk _ bytes => bytes
  | _ => []

/-- What the device is to be sent. -/
def answer : Act → Option (UInt8 × List UInt8)
  | .data .. => some (Flag.ack, [])
  | .chunk _ bytes => some (Flag.psh ||| Flag.ack, bytes)
  | _ => none

/-- When something was read. -/
def readAt : Act → Option Instant
  | .chunk s _ => some s.now
  | _ => none

/-- Whether the device acknowledges something, which completes the handshake. -/
def greets : Act → Bool
  | .ack _ | .data .. => true
  | _ => false

/-- What may happen, where packets are this large, before or after the first acknowledgement. -/
def Allowed (k : Flow.Key) (mtu : Nat) (greeted : Bool) : Act → Prop
  | .syn x => greeted = false ∧ x.Is k IsSyn
  | .ack x => x.Is k IsBareAck
  | .data x _ written => x.Is k IsData ∧ written.Works
  | .chunk s bytes => s.Works ∧ bytes ≠ [] ∧ bytes.length ≤ mtu - Headers.tcpPayloadOffset

/-- What may happen one after the other. -/
def AllAllowed (k : Flow.Key) (mtu : Nat) : Bool → List Act → Prop
  | _, [] => True
  | greeted, act :: acts =>
      act.Allowed k mtu greeted ∧ AllAllowed k mtu (greeted || act.greets) acts

end Act

/-- How a session ends. -/
inductive Ending where
  /-- The device sends a FIN, which is written, and acknowledges that of the relay, which is noted
  by the writer. -/
  | device (fin : Incoming) (written : Surroundings) (last : Incoming) (noted : Surroundings)
  /-- The server closes its stream, and the device sends a FIN, which is written. -/
  | server (eof : Surroundings) (fin : Incoming) (written : Surroundings)

namespace Ending

def steps (id : Nat) : Ending → List (Surroundings × Event)
  | .device fin written last noted =>
      [fin.step, (written, .wrote id (.ok ())), last.step, (noted, .wrote id (.ok ()))]
  | .server eof fin written =>
      [(eof, .received id (.ok [])), fin.step, (written, .wrote id (.ok ()))]

/-- What the device is to be sent. -/
def answers : Ending → List (UInt8 × List UInt8)
  | .device .. => [(Flag.fin ||| Flag.ack, [])]
  | .server .. => [(Flag.fin ||| Flag.ack, []), (Flag.ack, [])]

/-- What may happen if the FIN of the relay is the number in front of this one and something was
read at that time.  The device acknowledges the FIN; the server closes its stream early enough. -/
def Allowed (k : Flow.Key) (eofIdle : Nat) (stop : UInt32) (lastRead : Instant) : Ending → Prop
  | .device fin written last _ =>
      fin.Is k IsFin ∧ written.Works ∧
        last.Is k fun tcp payload => IsBareAck tcp payload ∧ tcp.acknowledgement = stop
  | .server eof fin written =>
      eof.Works ∧ lastRead.elapsedMore eof.now eofIdle = false ∧ fin.Is k IsFin ∧ written.Works

end Ending

/-- What happens in a session. -/
structure Script where
  opening : Incoming
  /-- The SYN comes again while the outbound socket is being connected. -/
  again : List Incoming
  connecting : Surroundings
  acts : List Act
  ending : Ending
  /-- Where the work that is left over is given up. -/
  resting : Surroundings

namespace Script

def steps (script : Script) (id : Nat) (k : Flow.Key) : List (Surroundings × Event) :=
  script.opening.step :: script.again.map Incoming.step ++
    (script.connecting,
      .connected id (script.opening.surroundings.proxy.resolve k.destination) (.ok ())) ::
    script.acts.flatMap (Act.steps id) ++ script.ending.steps id ++
    [(script.resting, .abandoned (.read id)), (script.resting, .abandoned (.write id))]

/-- What the device is to be sent. -/
def answers (script : Script) : List (UInt8 × List UInt8) :=
  (Flag.syn ||| Flag.ack, []) :: script.acts.filterMap Act.answer ++ script.ending.answers

/-- The number behind the SYN of the relay and what was read, where so much was done. -/
def sequence (opening : Incoming) (acts : List Act) : UInt32 :=
  opening.initial + 1 + UInt32.ofNat (acts.flatMap Act.download).length

/-- When something was read for the last time, or the connection was opened. -/
def lastRead (opening : Incoming) (acts : List Act) : Instant :=
  (acts.filterMap Act.readAt).getLast?.getD opening.surroundings.now

/-- Everybody keeps to the rules and nothing fails. -/
structure WellBehaved (script : Script) (k : Flow.Key) (config : Config) : Prop where
  opening : script.opening.Is k IsOpening
  socket : script.opening.surroundings.socket = .ok ()
  again : ∀ x ∈ script.again, x.Is k IsSyn
  connecting : script.connecting.Works
  acts : Act.AllAllowed k config.mtu false script.acts
  ending : script.ending.Allowed k config.eofIdle (sequence script.opening script.acts + 1)
    (lastRead script.opening script.acts)

end Script

/-! ## Points -/

/-- How a session stands between the handshake and its end. -/
structure Point where
  status : Status
  sequence : UInt32
  lastRead : Instant
  waiting : List Segment
  taken : Nat
  reads : Nat
  contents : List (UInt8 × List UInt8)
  handed : List UInt8

/-- A connection of a flow is open and as a point says. -/
structure Point.Fits (p : Point) (k : Flow.Key) (c : Connection) : Prop where
  key : c.key = k
  closed : c.closed = false
  status : c.status = p.status
  sequence : c.sequence = p.sequence
  lastRead : c.lastRead = p.lastRead
  writer : c.writer = .attached p.waiting
  taken : c.taken = p.taken

variable {start e : Engine} {k : Flow.Key} {p : Point} {s : Surroundings} {x : Incoming}
  {g : Segment} {rest : List Segment} {data : List UInt8}

/-- The connection that comes next is at a point. -/
structure Reaches (start e : Engine) (k : Flow.Key) (p : Point) : Prop where
  coherent : e.Coherent
  tells : ∃ c replies, start.Tells e start.store.connections.length c p.reads 1 replies p.handed ∧
    replies.map Reply.content = p.contents ∧ p.Fits k c

/-- The connection that comes next is closed and gone, after these packets and with this data. -/
structure Ends (start e : Engine) (k : Flow.Key) (contents : List (UInt8 × List UInt8))
    (handed : List UInt8) : Prop where
  tells : ∃ c reads replies,
    start.Tells e start.store.connections.length c reads 1 replies handed ∧
      replies.map Reply.content = contents ∧ c.closed = true ∧ reads ≤ 1
  gone : e.store.table.contains k = false

/-- A write that closes the connection takes it out of the table. -/
theorem Ends.of_closed (h : e.Coherent) {c c' : Connection} {reads : Nat} {replies : List Reply}
    {contents : List (UInt8 × List UInt8)} {handed : List UInt8}
    (hc : e.store.connection? start.store.connections.length = some c) (hkey : c.key = k)
    (hopen : c.closed = false) {result : Except Fault Unit}
    (htells : start.Tells (e.step s (.wrote start.store.connections.length result))
      start.store.connections.length c' reads 1 replies handed)
    (hcontents : replies.map Reply.content = contents) (hclosed : c'.closed = true)
    (hreads : reads ≤ 1) :
    start.Ends (e.step s (.wrote start.store.connections.length result)) k contents handed := by
  refine ⟨⟨c', reads, replies, htells, hcontents, hclosed, hreads⟩, ?_⟩
  rw [← hkey]
  refine h.gone_of_closed hc hopen nofun ?_
  rw [Flow.Store.isClosed, htells.connection?]
  exact hclosed

namespace Reaches

/-! ### Segments of the device -/

/-- A segment that arrives is handled by the connection. -/
theorem arrive {kind : Packet.Tcp → List UInt8 → Prop} (h : start.Reaches e k p)
    (hx : x.Is k kind) :
    ∃ c replies e' tcp, start.Tells e' start.store.connections.length c p.reads 1 replies p.handed ∧
      replies.map Reply.content = p.contents ∧ p.Fits k c ∧
      tcp.isRst = false ∧ kind tcp x.datagram.payload ∧
      e.step x.surroundings (.segment x.initial x.datagram) =
        e'.carryOut start.store.connections.length
          (c.segmentActs start.config x.surroundings true tcp x.datagram.payload) := by
  obtain ⟨c, replies, htells, hcontents, hfits⟩ := h.tells
  obtain ⟨-, tcp, hcarries, hrst, hkind⟩ := hx
  rw [← hfits.key] at hcarries
  obtain ⟨e', writing, -, hwriting, htells', hstep⟩ :=
    htells.arrive h.coherent hfits.closed hcarries x.surroundings x.initial
  rw [hwriting Nat.one_pos] at hstep
  exact ⟨c, replies, e', tcp, htells', hcontents, hfits, hrst, hkind, hstep⟩

/-- A SYN that comes again is noted. -/
theorem syn (h : start.Reaches e k p) (hx : x.Is k IsSyn) (hstatus : p.status = .synReceived) :
    start.Reaches (e.step x.surroundings (.segment x.initial x.datagram)) k p := by
  obtain ⟨c, replies, e', tcp, htells, hcontents, hfits, hrst, hsyn, hstep⟩ := h.arrive hx
  rw [segmentActs_of_isSyn hrst hsyn (.inr (hfits.status.trans hstatus))] at hstep
  have hnoted := (htells.advance (·.hear x.surroundings.now tcp)).advance (·.resume tcp)
  rw [hstep]
  exact ⟨hstep ▸ h.coherent.step _ _, _, replies, hnoted, hcontents, hfits.key, hfits.closed,
    hfits.status, hfits.sequence, hfits.lastRead, hfits.writer, hfits.taken⟩

/-- A bare acknowledgement completes the handshake. -/
theorem ack (h : start.Reaches e k p) (hx : x.Is k IsBareAck)
    (hstatus : p.status = .synReceived ∨ p.status = .established) :
    start.Reaches (e.step x.surroundings (.segment x.initial x.datagram)) k
      { p with status := .established } := by
  obtain ⟨c, replies, e', tcp, htells, hcontents, hfits, hrst, ⟨hsyn, hfin, hack, hnone⟩, hstep⟩ :=
    h.arrive hx
  rw [← hfits.status] at hstatus
  have hnoted := htells.noted hrst hsyn hfin hack (fun hsent => by simp [hsent] at hstatus)
    (fun hlast => by simp [hlast] at hstatus) x.surroundings true
  rw [← hnone, ← hstep] at hnoted
  refine ⟨h.coherent.step _ _, _, replies, hnoted, hcontents, hfits.key, hfits.closed, ?_,
    hfits.sequence, hfits.lastRead, hfits.writer, hfits.taken⟩
  change (if c.status = .synReceived ∧ tcp.isAck then .established else c.status) = .established
  rcases hstatus with hstatus | hstatus
  · simp [hstatus, hack]
  · simp [hstatus]

/-- Data and a FIN are queued. -/
theorem queue {kind : Packet.Tcp → List UInt8 → Prop} (h : start.Reaches e k p) (hx : x.Is k kind)
    (hkind : ∀ tcp payload, kind tcp payload →
      tcp.isSyn = false ∧ (tcp.isFin = true ∨ tcp.isAck = true ∧ payload ≠ []))
    (hstatus : p.status ≠ .synSent) :
    ∃ tcp, kind tcp x.datagram.payload ∧
      start.Reaches (e.step x.surroundings (.segment x.initial x.datagram)) k
        { p with
          status := if p.status = .synReceived ∧ tcp.isAck then .established else p.status
          waiting := p.waiting ++ [⟨tcp.sequence, x.datagram.payload, tcp.isFin⟩] } := by
  obtain ⟨c, replies, e', tcp, htells, hcontents, hfits, hrst, hthis, hstep⟩ := h.arrive hx
  obtain ⟨hsyn, hflag⟩ := hkind _ _ hthis
  have hqueued := htells.queued x.datagram.payload hfits.writer hrst hsyn
    (hflag.imp_right And.left) (hfits.status ▸ hstatus)
    (hflag.elim (fun hfin => .inr (.inl hfin)) fun hdata => .inl hdata.2) x.surroundings
  rw [← hstep] at hqueued
  refine ⟨tcp, hthis, h.coherent.step _ _, _, replies, hqueued, hcontents, hfits.key, hfits.closed,
    ?_, hfits.sequence, hfits.lastRead, rfl, hfits.taken⟩
  rw [← hfits.status]
  rfl

/-! ### Writing -/

/-- A part of the first segment in the queue is taken. -/
theorem took (h : start.Reaches e k p) (hwaiting : p.waiting = g :: rest) (s : Surroundings)
    (count : Nat) :
    start.Reaches (e.step s (.took start.store.connections.length count)) k
      { p with
        taken := p.taken + count
        handed := p.handed ++ (g.payload.drop p.taken).take count } := by
  obtain ⟨c, replies, htells, hcontents, hfits⟩ := h.tells
  have htook := htells.took (hfits.writer.trans (congrArg _ hwaiting)) s count
  rw [hfits.taken] at htook
  exact ⟨h.coherent.step _ _, _, replies, htook, hcontents, hfits.key, hfits.closed, hfits.status,
    hfits.sequence, hfits.lastRead, hfits.writer, congrArg (· + count) hfits.taken⟩

/-- The parts of a segment that are taken are a front of it, and the rest is still to be written. -/
theorem parts (h : start.Reaches e k p) (hwaiting : p.waiting = g :: rest)
    (parts : List (Surroundings × Nat)) :
    ∃ taken handed, handed ++ g.payload.drop taken = p.handed ++ g.payload.drop p.taken ∧
      start.Reaches
        (e.run (parts.map fun (s, count) => (s, .took start.store.connections.length count))) k
        { p with taken, handed } := by
  induction parts generalizing e p with
  | nil => exact ⟨p.taken, p.handed, rfl, h⟩
  | cons part parts ih =>
      obtain ⟨s, count⟩ := part
      obtain ⟨taken, handed, hsame, hreaches⟩ := ih (h.took hwaiting s count) hwaiting
      refine ⟨taken, handed, hsame.trans ?_, hreaches⟩
      rw [List.append_assoc, ← List.drop_drop, List.take_append_drop]

/-- Data that is written is acknowledged. -/
theorem wrote_data (h : start.Reaches e k p) (hroom : Headers.tcpPayloadOffset ≤ start.config.mtu)
    (hs : s.Works) (hwaiting : p.waiting = g :: rest) (hdata : g.payload ≠ [])
    (hfin : g.fin = false) :
    start.Reaches (e.step s (.wrote start.store.connections.length (.ok ()))) k
      { p with
        waiting := rest, taken := 0, contents := p.contents ++ [(Flag.ack, [])]
        handed := p.handed ++ g.payload.drop p.taken } := by
  obtain ⟨c, replies, htells, hcontents, hfits⟩ := h.tells
  obtain ⟨t, ht⟩ := (h.coherent.addressed _ c htells.connection?).isTcp
  obtain ⟨_, _, hacked⟩ := htells.wrote_data (hfits.writer.trans (congrArg _ hwaiting))
    hfits.closed ht hroom hs hdata hfin
  rw [hfits.taken] at hacked
  refine ⟨h.coherent.step _ _, _, _, hacked, ?_, hfits.key, hfits.closed, hfits.status,
    hfits.sequence, hfits.lastRead, rfl, rfl⟩
  rw [List.map_append, hcontents]
  rfl

/-- A FIN that is written is answered by a FIN. -/
theorem wrote_fin (h : start.Reaches e k p) (hroom : Headers.tcpPayloadOffset ≤ start.config.mtu)
    (hs : s.Works) (hwaiting : p.waiting = g :: rest) (hdata : g.payload = [])
    (hfin : g.fin = true) (hlast : p.status ≠ .lastAck) :
    start.Reaches (e.step s (.wrote start.store.connections.length (.ok ()))) k
      { p with
        status := .lastAck, sequence := p.sequence + 1, waiting := rest, taken := 0
        contents := p.contents ++ [(Flag.fin ||| Flag.ack, [])] } := by
  obtain ⟨c, replies, htells, hcontents, hfits⟩ := h.tells
  obtain ⟨t, ht⟩ := (h.coherent.addressed _ c htells.connection?).isTcp
  obtain ⟨_, _, hfinished⟩ := htells.wrote_fin (hfits.writer.trans (congrArg _ hwaiting))
    hfits.closed ht hroom hs hfin (hfits.status ▸ hlast)
  rw [hdata, List.drop_nil, List.append_nil] at hfinished
  refine ⟨h.coherent.step _ _, _, _, hfinished, ?_, hfits.key, hfits.closed, rfl,
    congrArg (· + 1) hfits.sequence, hfits.lastRead, rfl, rfl⟩
  rw [List.map_append, hcontents]
  rfl

/-! ### The network side -/

/-- Data that is read is sent to the device. -/
theorem chunk (h : start.Reaches e k { p with reads := 1 }) (hmtu : start.config.mtu ≤ 65535)
    (hs : s.Works) (hlast : p.status ≠ .lastAck) (hdata : data ≠ [])
    (hlength : data.length ≤ start.config.mtu - Headers.tcpPayloadOffset) :
    start.Reaches (e.step s (.received start.store.connections.length (.ok data))) k
      { p with
        sequence := p.sequence + UInt32.ofNat data.length, lastRead := s.now, reads := 1
        contents := p.contents ++ [(Flag.psh ||| Flag.ack, data)] } := by
  obtain ⟨c, replies, htells, hcontents, hfits⟩ := h.tells
  obtain ⟨t, ht⟩ := (h.coherent.addressed _ c htells.connection?).isTcp
  have hread := htells.received ht hmtu hs hfits.closed (hfits.status ▸ hlast) hdata hlength
  refine ⟨h.coherent.step _ _, _, _, hread, ?_, hfits.key, hfits.closed, hfits.status,
    congrArg (· + UInt32.ofNat data.length) hfits.sequence, rfl, hfits.writer, hfits.taken⟩
  rw [List.map_append, hcontents]
  rfl

/-- The end of the stream is told to the device. -/
theorem eof (h : start.Reaches e k { p with reads := 1 })
    (hroom : Headers.tcpPayloadOffset ≤ start.config.mtu) (hs : s.Works)
    (hlast : p.status ≠ .lastAck)
    (hearly : p.lastRead.elapsedMore s.now start.config.eofIdle = false) :
    start.Reaches (e.step s (.received start.store.connections.length (.ok []))) k
      { p with
        status := .lastAck, sequence := p.sequence + 1, reads := 0
        contents := p.contents ++ [(Flag.fin ||| Flag.ack, [])] } := by
  obtain ⟨c, replies, htells, hcontents, hfits⟩ := h.tells
  obtain ⟨t, ht⟩ := (h.coherent.addressed _ c htells.connection?).isTcp
  have hended := htells.ended ht hroom hs hfits.closed (hfits.status ▸ hlast)
    (hfits.lastRead ▸ hearly)
  refine ⟨h.coherent.step _ _, _, _, hended, ?_, hfits.key, hfits.closed, rfl,
    congrArg (· + 1) hfits.sequence, hfits.lastRead, hfits.writer, hfits.taken⟩
  rw [List.map_append, hcontents]
  rfl

/-! ### The end -/

/-- A FIN that is written behind the FIN of the relay is acknowledged and ends the session. -/
theorem wrote_finLast (h : start.Reaches e k p)
    (hroom : Headers.tcpPayloadOffset ≤ start.config.mtu) (hs : s.Works)
    (hwaiting : p.waiting = g :: rest) (hdata : g.payload = []) (hfin : g.fin = true)
    (hlast : p.status = .lastAck) (hreads : p.reads ≤ 1) :
    start.Ends (e.step s (.wrote start.store.connections.length (.ok ()))) k
      (p.contents ++ [(Flag.ack, [])]) p.handed := by
  obtain ⟨c, replies, htells, hcontents, hfits⟩ := h.tells
  obtain ⟨t, ht⟩ := (h.coherent.addressed _ c htells.connection?).isTcp
  obtain ⟨_, hacked, hclosed⟩ := htells.wrote_finLast (hfits.writer.trans (congrArg _ hwaiting))
    hfits.closed ht hroom hs hfin (hfits.status.trans hlast)
  rw [hdata, List.drop_nil, List.append_nil] at hacked
  refine .of_closed h.coherent htells.connection? hfits.key hfits.closed hacked ?_ hclosed hreads
  rw [List.map_append, hcontents]
  rfl

/-- The acknowledgement of the FIN of the relay ends the session. -/
theorem last (h : start.Reaches e k p) (hwaiting : p.waiting = []) (hlast : p.status = .lastAck)
    (hreads : p.reads ≤ 1)
    (hx : x.Is k fun tcp payload => IsBareAck tcp payload ∧ tcp.acknowledgement = p.sequence)
    (s : Surroundings) :
    start.Ends ((e.step x.surroundings (.segment x.initial x.datagram)).step s
      (.wrote start.store.connections.length (.ok ()))) k p.contents p.handed := by
  obtain ⟨c, replies, e', tcp, htells, hcontents, hfits, hrst,
    ⟨⟨hsyn, hfin, hack, hnone⟩, htheirs⟩, hstep⟩ := h.arrive hx
  have hstatus : c.status = .lastAck := hfits.status.trans hlast
  have hqueued := htells.queued x.datagram.payload hfits.writer hrst hsyn (.inr hack)
    (by simp [hstatus]) (.inr (.inr hstatus)) x.surroundings
  rw [hwaiting, List.nil_append, ← hstep] at hqueued
  have hheed : (c.heed x.surroundings.now tcp).status = .lastAck ∧
      (c.heed x.surroundings.now tcp).theirAcknowledgement = c.sequence := by
    simp [Connection.heed, Connection.advance, Connection.progress, Progress.settle, Progress.hear,
      hstatus, hack, htheirs, hfits.sequence]
  obtain ⟨_, hended, hclosed⟩ := hqueued.wrote_last rfl hfits.closed s hnone hfin hheed.1 hheed.2
  exact .of_closed (h.coherent.step _ _) hqueued.connection? hfits.key hfits.closed hended
    hcontents hclosed hreads

end Reaches

/-! ## Acts -/

/-- How a session stands when the handshake was begun and so much was done. -/
def Point.after (opening : Incoming) (done : List Act) : Point where
  status := if done.any Act.greets then .established else .synReceived
  sequence := Script.sequence opening done
  lastRead := Script.lastRead opening done
  waiting := []
  taken := 0
  reads := 1
  contents := (Flag.syn ||| Flag.ack, []) :: done.filterMap Act.answer
  handed := done.flatMap Act.upload

theorem Point.status_after (opening : Incoming) (done : List Act) :
    (Point.after opening done).status = .synReceived ∨
      (Point.after opening done).status = .established := by
  cases hgreeted : done.any Act.greets with
  | false => exact .inl (by simp [Point.after, hgreeted])
  | true => exact .inr (by simp [Point.after, hgreeted])

/-- What everybody does within the rules brings the session to where it belongs. -/
theorem Reaches.act {opening : Incoming} {done : List Act}
    (h : start.Reaches e k (.after opening done)) {act : Act}
    (hallowed : act.Allowed k start.config.mtu (done.any Act.greets))
    (hroom : Headers.tcpPayloadOffset ≤ start.config.mtu) (hmtu : start.config.mtu ≤ 65535) :
    start.Reaches (e.run (act.steps start.store.connections.length)) k
      (.after opening (done ++ [act])) := by
  have hstatus := Point.status_after opening done
  have hsent : (Point.after opening done).status ≠ .synSent := by
    rcases hstatus with hstatus | hstatus <;> simp [hstatus]
  have hlast : (Point.after opening done).status ≠ .lastAck := by
    rcases hstatus with hstatus | hstatus <;> simp [hstatus]
  cases act with
  | syn x =>
      obtain ⟨hgreeted, hx⟩ := hallowed
      have hend := h.syn hx (by simp [Point.after, hgreeted])
      have hsame : Point.after opening (done ++ [.syn x]) = .after opening done := by
        simp [Point.after, Script.sequence, Script.lastRead, Act.greets, Act.download, Act.readAt,
          Act.answer, Act.upload]
      rw [hsame]
      exact hend
  | ack x =>
      have hend := h.ack hallowed hstatus
      have hsame : Point.after opening (done ++ [.ack x]) =
          { Point.after opening done with status := .established } := by
        simp [Point.after, Script.sequence, Script.lastRead, Act.greets, Act.download, Act.readAt,
          Act.answer, Act.upload]
      rw [hsame]
      exact hend
  | data x parts written =>
      obtain ⟨hx, hworks⟩ := hallowed
      obtain ⟨tcp, ⟨-, hfin, hack, hdata⟩, hqueued⟩ := h.queue hx
        (fun _ _ hkind => ⟨hkind.1, .inr hkind.2.2⟩) hsent
      obtain ⟨taken, handed, hsame, hparts⟩ := hqueued.parts rfl parts
      have hend := hparts.wrote_data hroom hworks rfl hdata hfin
      have hpoint : Point.after opening (done ++ [.data x parts written]) =
          { Point.after opening done with
            status := .established
            contents := (Point.after opening done).contents ++ [(Flag.ack, [])]
            handed := (Point.after opening done).handed ++ x.datagram.payload } := by
        simp [Point.after, Script.sequence, Script.lastRead, Act.greets, Act.download, Act.readAt,
          Act.answer, Act.upload]
      have hsteps : e.run ((Act.data x parts written).steps start.store.connections.length) =
          ((e.step x.surroundings (.segment x.initial x.datagram)).run
            (parts.map fun (s, count) => (s, .took start.store.connections.length count))).step
              written (.wrote start.store.connections.length (.ok ())) := run_concat _ _ _ _
      rw [hpoint, hsteps]
      have hstatus' : (if (Point.after opening done).status = .synReceived ∧ tcp.isAck = true then
          Status.established else (Point.after opening done).status) = .established := by
        rcases hstatus with hstatus | hstatus <;> simp [hstatus, hack]
      simp only [hstatus', hsame] at hend
      exact hend
  | chunk s bytes =>
      obtain ⟨hs, hdata, hlength⟩ := hallowed
      have hend := h.chunk hmtu hs hlast hdata hlength
      have hpoint : Point.after opening (done ++ [.chunk s bytes]) =
          { Point.after opening done with
            sequence := (Point.after opening done).sequence + UInt32.ofNat bytes.length
            lastRead := s.now, reads := 1
            contents :=
              (Point.after opening done).contents ++ [(Flag.psh ||| Flag.ack, bytes)] } := by
        simp [Point.after, Script.sequence, Script.lastRead, Act.greets, Act.download, Act.readAt,
          Act.answer, Act.upload, UInt32.ofNat_add, UInt32.add_assoc]
      rw [hpoint]
      exact hend

/-- **Acts**: whatever everybody does within the rules, the session stands where it belongs. -/
theorem Reaches.acts {opening : Incoming} {done acts : List Act}
    (h : start.Reaches e k (.after opening done))
    (hallowed : Act.AllAllowed k start.config.mtu (done.any Act.greets) acts)
    (hroom : Headers.tcpPayloadOffset ≤ start.config.mtu) (hmtu : start.config.mtu ≤ 65535) :
    start.Reaches (e.run (acts.flatMap (Act.steps start.store.connections.length))) k
      (.after opening (done ++ acts)) := by
  induction acts generalizing e done with
  | nil =>
      rw [List.append_nil]
      exact h
  | cons act acts ih =>
      obtain ⟨hact, hacts⟩ := hallowed
      have hnext := h.act hact hroom hmtu
      have hgreeted : (done ++ [act]).any Act.greets = (done.any Act.greets || act.greets) := by
        simp
      rw [← hgreeted] at hacts
      have hend := ih hnext hacts
      rw [List.append_assoc, List.singleton_append] at hend
      rw [List.flatMap_cons, run_append]
      exact hend

/-- **The end**: either side may begin to close. -/
theorem Reaches.ending {opening : Incoming} {acts : List Act}
    (h : start.Reaches e k (.after opening acts)) {ending : Ending}
    (hallowed : ending.Allowed k start.config.eofIdle (Script.sequence opening acts + 1)
      (Script.lastRead opening acts))
    (hroom : Headers.tcpPayloadOffset ≤ start.config.mtu) :
    start.Ends (e.run (ending.steps start.store.connections.length)) k
      ((Flag.syn ||| Flag.ack, []) :: acts.filterMap Act.answer ++ ending.answers)
      (acts.flatMap Act.upload) := by
  have hstatus := Point.status_after opening acts
  have hlast : (Point.after opening acts).status ≠ .lastAck := by
    rcases hstatus with hstatus | hstatus <;> simp [hstatus]
  have hsent : (Point.after opening acts).status ≠ .synSent := by
    rcases hstatus with hstatus | hstatus <;> simp [hstatus]
  cases ending with
  | device fin written last noted =>
      obtain ⟨hfin, hwritten, hx⟩ := hallowed
      obtain ⟨tcp, ⟨-, hisFin, hnone⟩, hqueued⟩ := h.queue hfin
        (fun _ _ hkind => ⟨hkind.1, .inl hkind.2.1⟩) hsent
      have hclosing := hqueued.wrote_fin hroom hwritten rfl hnone hisFin ?_
      · exact hclosing.last rfl rfl (Nat.le_refl 1) hx noted
      · split
        · nofun
        · exact hlast
  | server eof fin written =>
      obtain ⟨heof, hearly, hfin, hwritten⟩ := hallowed
      have hclosing := h.eof hroom heof hlast hearly
      obtain ⟨tcp, ⟨-, hisFin, hnone⟩, hqueued⟩ := hclosing.queue hfin
        (fun _ _ hkind => ⟨hkind.1, .inl hkind.2.1⟩) nofun
      have hend := hqueued.wrote_finLast hroom hwritten rfl hnone hisFin rfl (Nat.zero_le 1)
      rw [List.append_assoc] at hend
      exact hend

/-! ## The handshake -/

/-- A connection that has just been made is not to go early. -/
theorem mayGoEarly_make (key : Flow.Key) (template : Headers) (initial theirSequence : UInt32)
    (inspector : Option Http.Inspector) (now : Instant) (idle : Nat) :
    (Connection.make key template initial theirSequence inspector now).mayGoEarly now idle =
      false := now.elapsedMore_self idle

/-- The connection that comes next waits for its outbound socket. -/
structure Waits (start e : Engine) (k : Flow.Key) (opening : Incoming) : Prop where
  coherent : e.Coherent
  tells : ∃ c, start.Tells e start.store.connections.length c 0 0 [] [] ∧ c.key = k ∧
    c.closed = false ∧ c.status = .synSent ∧ c.sequence = opening.initial ∧
    c.lastRead = opening.surroundings.now ∧ c.taken = 0
  task : Task.connect start.store.connections.length
    (opening.surroundings.proxy.resolve k.destination) ∈ e.tasks

/-- A SYN of a flow that has no connection opens one. -/
theorem Coherent.waits (h : e.Coherent) (hnew : e.store.table.contains k = false)
    (hx : x.Is k IsOpening) (hsocket : x.surroundings.socket = .ok ()) :
    e.Waits (e.step x.surroundings (.segment x.initial x.datagram)) k x := by
  obtain ⟨hworks, tcp, ⟨htcp, hkey⟩, hrst, hsyn, hack⟩ := hx
  have hnone : e.store.table.peek? k = none := by
    rwa [Table.contains, Option.isSome_eq_false_iff, Option.isNone_iff_eq_none] at hnew
  let c : Connection := .make k x.datagram.headers.swap x.initial tcp.sequence (e.inspectorOf k)
    x.surroundings.now
  have hstep : e.step x.surroundings (.segment x.initial x.datagram) =
      { e with store := (e.store.openNew x.surroundings.now e.config.tcpIdle c).1 }.begin
        (.connect e.store.connections.length (x.surroundings.proxy.resolve k.destination)) := by
    subst hkey
    simp only [step_eq, plan, htcp, hnone, hsyn, hack, hrst, hsocket, Bool.not_false, Bool.and_self,
      if_true, follow, begun, hworks.multiplexer]
    rfl
  have hearly : Flow.Tracked.mayGoEarly c x.surroundings.now e.config.tcpIdle = false :=
    mayGoEarly_make _ _ _ _ _ _ _
  have hstays := h.accurate.connection?_openNew rfl hearly
  have hunborn : e.view e.store.connections.length = .unborn :=
    h.view_of_none (List.getElem?_length _)
  have hview : (e.step x.surroundings (.segment x.initial x.datagram)).view
      e.store.connections.length = ⟨some c, 0, 0, [], []⟩ := by
    rw [hstep, view_begin_connect]
    refine (View.mk.injEq ..).mpr ⟨hstays, ?_⟩
    exact ⟨congrArg View.reads hunborn, congrArg View.writes hunborn, congrArg View.sent hunborn,
      congrArg View.handed hunborn⟩
  refine ⟨h.step _ _, ⟨_, ⟨hview, ?_, ?_⟩, rfl, rfl, rfl, rfl, rfl, rfl⟩, ?_⟩
  · rw [hstep]
    exact .of_outbox_eq rfl _
  · rw [hstep]
    rfl
  · rw [hstep]
    exact List.mem_append_right _ (List.mem_singleton.mpr rfl)

namespace Waits

variable {opening : Incoming}

/-- A SYN that comes again is noted. -/
theorem syn (h : start.Waits e k opening) (hx : x.Is k IsSyn) :
    start.Waits (e.step x.surroundings (.segment x.initial x.datagram)) k opening := by
  obtain ⟨c, htells, hkey, hclosed, hstatus, hkept⟩ := h.tells
  obtain ⟨-, tcp, hcarries, hrst, (hsyn : tcp.isSyn = true)⟩ := hx
  rw [← hkey] at hcarries
  obtain ⟨e', writing, htasks, -, htells', hstep⟩ :=
    htells.arrive h.coherent hclosed hcarries x.surroundings x.initial
  rw [segmentActs_of_isSyn hrst hsyn (.inl hstatus)] at hstep
  refine ⟨h.coherent.step _ _, ⟨(c.advance (·.hear x.surroundings.now tcp)).advance (·.resume tcp),
    ?_, hkey, hclosed, hstatus, hkept⟩, ?_⟩
  · rw [hstep]
    exact (htells'.advance _).advance _
  · rw [hstep]
    exact htasks ▸ h.task

theorem again (h : start.Waits e k opening) {again : List Incoming}
    (hagain : ∀ x ∈ again, x.Is k IsSyn) :
    start.Waits (e.run (again.map Incoming.step)) k opening := by
  induction again generalizing e with
  | nil => exact h
  | cons x again ih =>
      obtain ⟨hx, hagain⟩ := List.forall_mem_cons.mp hagain
      exact ih (h.syn hx) hagain

/-- The handshake begins once the outbound socket is connected. -/
theorem connected (h : start.Waits e k opening)
    (hroom : Headers.tcpPayloadOffset ≤ start.config.mtu) (hs : s.Works) :
    start.Reaches (e.step s (.connected start.store.connections.length
      (opening.surroundings.proxy.resolve k.destination) (.ok ()))) k (.after opening []) := by
  obtain ⟨c, htells, hkey, hclosed, hstatus, hsequence, hread, htaken⟩ := h.tells
  obtain ⟨t, ht⟩ := (h.coherent.addressed _ c htells.connection?).isTcp
  have hconnected := htells.connected ht hroom hs hclosed hstatus h.task
  refine ⟨h.coherent.step _ _, _, _, hconnected, rfl, hkey, hclosed, rfl, ?_, hread, rfl, htaken⟩
  change c.sequence + 1 = _
  simp [Point.after, Script.sequence, hsequence]

end Waits

/-! ## The session -/

/-- Behind the end the work that is left over is given up. -/
theorem Ends.givenUp {contents : List (UInt8 × List UInt8)} {handed : List UInt8}
    (h : start.Ends e k contents handed) (s : Surroundings) :
    let e' := e.run [(s, .abandoned (.read start.store.connections.length)),
      (s, .abandoned (.write start.store.connections.length))]
    ∃ c replies, start.Tells e' start.store.connections.length c 0 0 replies handed ∧
      replies.map Reply.content = contents ∧ c.closed = true ∧
      e'.store.table.contains k = false := by
  obtain ⟨c, reads, replies, htells, hcontents, hclosed, hreads⟩ := h.tells
  have hread := htells.finishRead
  have hstep : e.step s (.abandoned (.read start.store.connections.length)) = _ :=
    htells.step_abandoned hclosed s .read
  rw [← hstep, Nat.sub_eq_zero_of_le hreads] at hread
  have hwrite := hread.finishWrite
  have hstep' : (e.step s (.abandoned (.read start.store.connections.length))).step s
      (.abandoned (.write start.store.connections.length)) = _ :=
    hread.step_abandoned hclosed s .write
  rw [← hstep'] at hwrite
  refine ⟨c, replies, hwrite, hcontents, hclosed, ?_⟩
  have hstore : ((e.step s (.abandoned (.read start.store.connections.length))).step s
      (.abandoned (.write start.store.connections.length))).store = e.store := by
    rw [hstep', hstep]
    rfl
  exact hstore ▸ h.gone

namespace Script

/-- A session is its opening, its handshake, its acts, its end and its rest. -/
theorem run_steps (script : Script) (e : Engine) (id : Nat) (k : Flow.Key) :
    e.run (script.steps id k) =
      (((((e.step script.opening.surroundings
        (.segment script.opening.initial script.opening.datagram)).run
          (script.again.map Incoming.step)).step script.connecting
            (.connected id (script.opening.surroundings.proxy.resolve k.destination) (.ok ()))).run
              (script.acts.flatMap (Act.steps id))).run (script.ending.steps id)).run
                [(script.resting, .abandoned (.read id)),
                  (script.resting, .abandoned (.write id))] := by
  simp only [steps, run_append]
  rfl

/-- Nothing that the device is to be sent is a RST. -/
theorem not_rst_of_mem_answers (script : Script) :
    ∀ content ∈ script.answers, content.1 &&& Flag.rst = 0 := by
  intro content hmem
  rcases List.mem_append.mp hmem with hacts | hending
  · rcases List.mem_cons.mp hacts with rfl | hact
    · decide
    · obtain ⟨act, -, hanswer⟩ := List.mem_filterMap.mp hact
      cases act with
      | syn | ack => contradiction
      | data =>
          cases hanswer
          decide
      | chunk s bytes =>
          cases hanswer
          exact (by decide : (Flag.psh ||| Flag.ack) &&& Flag.rst = 0)
  · cases hcase : script.ending with
    | device fin written last noted =>
        rw [hcase] at hending
        cases List.mem_singleton.mp hending
        decide
    | server eof fin written =>
        rw [hcase] at hending
        rcases List.mem_pair.mp hending with rfl | rfl
        · decide
        · decide

end Script

/-- **A well behaved session**: the server gets what the device sent, the device gets one SYN with
an ACK, one ACK for each of its segments with data, one segment for each piece of data of the
server, one FIN and, if the server closed first, one last ACK; no RST is sent, and in the end the
connection is closed, out of the table and without work. -/
theorem run_wellBehaved (config : Config) (inspecting : Bool)
    (before : List (Surroundings × Event)) (hroom : Headers.tcpPayloadOffset ≤ config.mtu)
    (hmtu : config.mtu ≤ 65535) (k : Flow.Key)
    (hnew : ((empty config inspecting).run before).store.table.contains k = false)
    (script : Script) (h : script.WellBehaved k config) :
    let e := (empty config inspecting).run before
    let id := e.store.connections.length
    let e' := e.run (script.steps id k)
    e'.handedTo id = script.acts.flatMap Act.upload ∧
      (∃ replies, e.Sends e' id replies ∧ replies.map Reply.content = script.answers ∧
        ∀ r ∈ replies, r.flags &&& Flag.rst = 0) ∧
      e'.store.isClosed id = true ∧ e'.store.table.contains k = false ∧
      (e'.view id).reads = 0 ∧ (e'.view id).writes = 0 := by
  intro e id e'
  have hcoherent : e.Coherent := coherent_run config inspecting before
  have hconfig : e.config = config := config_run config inspecting before
  have hacts : Act.AllAllowed k e.config.mtu false script.acts := hconfig ▸ h.acts
  have hending : script.ending.Allowed k e.config.eofIdle
      (Script.sequence script.opening script.acts + 1)
      (Script.lastRead script.opening script.acts) := hconfig ▸ h.ending
  have hroom' : Headers.tcpPayloadOffset ≤ e.config.mtu := hconfig ▸ hroom
  have hgreeted := ((hcoherent.waits hnew h.opening h.socket).again h.again).connected hroom'
    h.connecting
  have hdone := hgreeted.acts hacts hroom' (hconfig ▸ hmtu)
  rw [List.nil_append] at hdone
  have hends := hdone.ending hending hroom'
  obtain ⟨c, replies, htells, hcontents, hclosed, hgone⟩ := hends.givenUp script.resting
  change replies.map Reply.content = script.answers at hcontents
  rw [← script.run_steps] at htells hgone
  refine ⟨congrArg View.handed htells.shows, ⟨replies, htells.sends, hcontents, ?_⟩, ?_, hgone,
    congrArg View.reads htells.shows, congrArg View.writes htells.shows⟩
  · intro r hr
    have hmem : r.content ∈ script.answers := hcontents ▸ List.mem_map_of_mem hr
    exact script.not_rst_of_mem_answers _ hmem
  · rw [Flow.Store.isClosed, htells.connection?]
    exact hclosed

/-! ## Samples -/

namespace Sample

def incoming (d : Datagram) : Incoming := ⟨surroundings, 100, d⟩

/-- A session with everything that may happen before its end: the SYN comes three times, and data of
the device, which is taken in parts, is followed by data of the server. -/
def script (ending : Ending) : Script where
  opening := incoming (datagram Flag.syn 7 [])
  again := [incoming (datagram Flag.syn 7 [])]
  connecting := surroundings
  acts := [.syn (incoming (datagram Flag.syn 7 [])), .ack (incoming (answer Flag.ack 8 101 [])),
    .data (incoming (answer (Flag.psh ||| Flag.ack) 8 101 [1, 2, 3])) [(surroundings, 2)]
      surroundings,
    .chunk surroundings [4, 5]]
  ending
  resting := surroundings

/-- The device closes the session. -/
def deviceEnding : Ending :=
  .device (incoming (answer (Flag.fin ||| Flag.ack) 11 103 [])) surroundings
    (incoming (answer Flag.ack 12 104 [])) surroundings

/-- The server closes the session. -/
def serverEnding : Ending :=
  .server surroundings (incoming (answer (Flag.fin ||| Flag.ack) 11 104 [])) surroundings

theorem works : surroundings.Works := ⟨rfl, rfl⟩

/-- A segment of the device is of some kind if its header and its payload are. -/
theorem is_answer {kind : Packet.Tcp → List UInt8 → Prop} {d : Datagram} {tcp : Packet.Tcp}
    (htcp : d.headers.tcp? = some tcp) (hkey : (⟨d.destination, d.source.port⟩ : Flow.Key) = flow)
    (hrst : tcp.isRst = false) (hkind : kind tcp d.payload) : (incoming d).Is flow kind :=
  ⟨works, tcp, ⟨htcp, hkey⟩, hrst, hkind⟩

theorem script_wellBehaved {ending : Ending} (h : ending.Allowed flow config.eofIdle 104 0) :
    (script ending).WellBehaved flow config where
  opening := is_answer rfl rfl (by decide) ⟨by decide, by decide⟩
  socket := rfl
  again := by
    intro x hx
    cases List.mem_singleton.mp hx
    exact is_answer rfl rfl (by decide) (by decide : _ = true)
  connecting := works
  acts :=
    ⟨⟨rfl, is_answer rfl rfl (by decide) (by decide : _ = true)⟩,
      is_answer rfl rfl (by decide) ⟨by decide, by decide, by decide, rfl⟩,
      ⟨is_answer rfl rfl (by decide) ⟨by decide, by decide, by decide, by decide⟩, works⟩,
      ⟨works, by decide, by decide⟩, trivial⟩
  ending := h

end Sample

/-- The sample session, closed by the device and by the server. -/
theorem wellBehaved_of_sample :
    let e := (empty Sample.config false).run []
    let byDevice := e.run ((Sample.script Sample.deviceEnding).steps 0 Sample.flow)
    let byServer := e.run ((Sample.script Sample.serverEnding).steps 0 Sample.flow)
    (Sample.script Sample.deviceEnding).WellBehaved Sample.flow Sample.config ∧
      (Sample.script Sample.serverEnding).WellBehaved Sample.flow Sample.config ∧
      byDevice.handedTo 0 = [1, 2, 3] ∧ byDevice.store.isClosed 0 = true ∧
      byServer.handedTo 0 = [1, 2, 3] ∧ byServer.store.isClosed 0 = true := by
  intro e byDevice byServer
  have hdevice : (Sample.script Sample.deviceEnding).WellBehaved Sample.flow Sample.config :=
    Sample.script_wellBehaved ⟨Sample.is_answer rfl rfl (by decide) ⟨by decide, by decide, rfl⟩,
      Sample.works,
      Sample.is_answer rfl rfl (by decide) ⟨⟨by decide, by decide, by decide, rfl⟩, rfl⟩⟩
  have hserver : (Sample.script Sample.serverEnding).WellBehaved Sample.flow Sample.config :=
    Sample.script_wellBehaved ⟨Sample.works, by decide,
      Sample.is_answer rfl rfl (by decide) ⟨by decide, by decide, rfl⟩, Sample.works⟩
  obtain ⟨hdata, -, hclosed, -⟩ := run_wellBehaved Sample.config false [] (by decide) (by decide)
    Sample.flow rfl _ hdevice
  obtain ⟨hdata', -, hclosed', -⟩ := run_wellBehaved Sample.config false [] (by decide) (by decide)
    Sample.flow rfl _ hserver
  exact ⟨hdevice, hserver, hdata, hclosed, hdata', hclosed'⟩

end Engine

end FlowRelay.Tcp
