import FlowRelay.Proofs.Tcp.Sending

/-!
# FlowRelay.Proofs.Tcp.Progress

What steps make of a connection where nothing fails.

1. *Acts* (`Tells`): what became of a connection since the engine was seen last, which packets
   were sent on it, and that no others were sent.
2. *The device side*: segments are noted or queued.
3. *The network side*: the outbound socket connects, and what is read from it is sent.
4. *Writing*: segments are written in order and acknowledged, and the last one closes the
   connection.
-/

namespace FlowRelay

/-- Somebody takes packets for the device, and somebody drives connects and reads. -/
structure Surroundings.Works (s : Surroundings) : Prop where
  device : s.deviceOpen = true
  multiplexer : s.multiplexerOpen = true

/-- The connection takes notice of an ACK, which may complete its handshake. -/
def Tcp.Connection.heed (c : Connection) (now : Instant) (tcp : Packet.Tcp) : Connection :=
  (c.advance (·.hear now tcp)).advance (·.settle tcp)

namespace Tcp.Engine

open Packet

variable {start e : Engine} {s : Surroundings} {id : Nat} {c c' : Connection} {t tcp : Packet.Tcp}
  {reads writes reads' writes' : Nat} {replies : List Reply}
  {handed handed' data : List UInt8} {g : Segment} {rest segments : List Segment}

/-! ## Acts -/

/-- A connection that was not there in the beginning is this one now, with so much work under way;
it was sent these packets, and no others were sent to the device. -/
structure Tells (start e : Engine) (id : Nat) (c : Connection) (reads writes : Nat)
    (replies : List Reply) (handed : List UInt8) : Prop where
  shows : (e.view id).Shows .unborn c reads writes replies handed
  sends : start.Sends e id replies
  config : e.config = start.config

namespace Tells

/-- The connection is there. -/
theorem connection? (h : start.Tells e id c reads writes replies handed) :
    e.store.connection? id = some c := congrArg View.connection h.shows

/-- An act that sends nothing. -/
theorem perform (h : start.Tells e id c reads writes replies handed) {a : Act}
    (ha : a.isSilent = true)
    (hshows : ((e.view id).perform e.config a).Shows .unborn c' reads' writes' replies handed') :
    start.Tells (e.perform id a) id c' reads' writes' replies handed' := by
  refine ⟨?_, h.sends.silent ?_, (config_perform e id a).trans h.config⟩
  · rw [view_perform]
    exact hshows
  · rw [outbox_perform, a.packet?_of_silent ha]
    exact List.append_nil _

/-- Progress of the connection. -/
theorem advance (h : start.Tells e id c reads writes replies handed) (f : Progress → Progress) :
    start.Tells (e.perform id (.advance f)) id (c.advance f) reads writes replies handed :=
  h.perform rfl (h.shows.advance _ f)

theorem terminate (h : start.Tells e id c reads writes replies handed) :
    start.Tells (e.perform id .terminate) id c.close reads writes replies handed :=
  h.perform rfl (h.shows.terminate _)

theorem inspect (h : start.Tells e id c reads writes replies handed)
    (direction : Http.Direction) (data : List UInt8) :
    start.Tells (e.perform id (.inspect direction data)) id (c.inspected direction data) reads
      writes replies handed := h.perform rfl (h.shows.inspect _ direction data)

/-- Data is handed to the outbound socket. -/
theorem hand (h : start.Tells e id c reads writes replies handed) (data : List UInt8) :
    start.Tells (e.perform id (.hand data)) id c reads writes replies (handed ++ data) :=
  h.perform rfl (h.shows.hand _ data)

theorem beginWrite (h : start.Tells e id c reads writes replies handed) :
    start.Tells (e.perform id (.begin .write)) id c reads (writes + 1) replies handed :=
  h.perform rfl (h.shows.beginWrite _)

theorem finishRead (h : start.Tells e id c reads writes replies handed) :
    start.Tells (e.perform id (.finish .read)) id c (reads - 1) writes replies handed :=
  h.perform rfl (h.shows.finishRead _)

theorem finishWrite (h : start.Tells e id c reads writes replies handed) :
    start.Tells (e.perform id (.finish .write)) id c reads (writes - 1) replies handed :=
  h.perform rfl (h.shows.finishWrite _)

theorem finishConnect (h : start.Tells e id c reads writes replies handed)
    (target : Net.Endpoint) :
    start.Tells (e.perform id (.finish (.connect target))) id c reads writes replies handed :=
  h.perform rfl h.shows

/-- The next read is begun. -/
theorem nextRead (h : start.Tells e id c reads writes replies handed) (hs : s.Works) :
    start.Tells (e.carryOut id (begun s .read)) id c (reads + 1) writes replies handed := by
  rw [begun, if_pos hs.multiplexer]
  exact h.perform rfl (h.shows.beginRead _)

/-- A response that there is room for is heard, and what follows it happens. -/
theorem tell (h : start.Tells e id c' reads writes replies handed)
    (ht : c.template.transport = .tcp t) (payload : List UInt8)
    (hroom : Headers.tcpPayloadOffset + payload.length ≤ start.config.mtu)
    (hlength : Headers.tcpPayloadOffset + payload.length ≤ 65535) (hs : s.Works) {flags : UInt8}
    (told mute : List Act)
    (hsame : c'.packet? start.config flags payload = c.packet? start.config flags payload) :
    ∃ e', e.carryOut id (c.tell start.config s flags payload told mute) = e'.carryOut id told ∧
      start.Tells e' id c' reads writes
        (replies ++ [⟨flags, c.sequence, c.acknowledgement, payload⟩]) handed := by
  obtain ⟨packet, hpacket⟩ := exists_packet_of_room ht payload hroom hlength flags
  have hheard := (heard_of_room ht payload hroom hlength s flags).trans hs.device
  have hread := Connection.ofBytes?_packet hpacket
  rw [← hsame] at hpacket
  refine ⟨e.perform id (.say flags payload), ?_, ?_, ?_, ?_⟩
  · rw [Connection.tell, if_pos hheard]
    rfl
  · rw [view_perform, h.config]
    exact h.shows.say hpacket hread
  · refine h.sends.trans (.carryOut h.connection? [.say flags payload] ?_)
    rw [h.config]
    simp [Connection.packets, Act.packet?, hpacket, hread]
  · exact (config_perform e id _).trans h.config

/-- Work for a closed connection is given up. -/
theorem step_abandoned (h : start.Tells e id c reads writes replies handed)
    (hclosed : c.closed = true) (s : Surroundings) (work : Work) :
    e.step s (.abandoned (work.task id)) = e.perform id (.finish work) := by
  refine if_pos ?_
  rw [work.connection_task, Flow.Store.isClosed, h.connection?]
  exact hclosed

/-! ## The device side -/

/-- A segment of its flow is handled by an open connection. -/
theorem arrive (h : start.Tells e id c reads writes replies handed) (hcoherent : e.Coherent)
    (hopen : c.closed = false) {d : Datagram} (hd : Carries d c.key tcp) (s : Surroundings)
    (initial : UInt32) :
    ∃ e' writing, e'.tasks = e.tasks ∧ (0 < writes → writing = true) ∧
      start.Tells e' id c reads writes replies handed ∧
      e.step s (.segment initial d) =
        e'.carryOut id (c.segmentActs start.config s writing tcp d.payload) := by
  refine ⟨{ e with store := (e.store.find? c.key).1 }, e.tasks.contains (.write id), rfl, ?_,
    ⟨h.shows, h.sends.silent rfl, h.config⟩, ?_⟩
  · intro hwrites
    have hcount : e.tasks.count (.write id) = writes := congrArg View.writes h.shows
    rw [← hcount] at hwrites
    exact List.contains_iff_mem.mpr (List.count_pos_iff.mp hwrites)
  · rw [← h.config]
    exact hcoherent.step_segment h.connection? hopen hd s initial

end Tells

/-- A SYN that comes again during the handshake is noted. -/
theorem segmentActs_of_isSyn (hrst : tcp.isRst = false) (hsyn : tcp.isSyn = true)
    (hstatus : c.status = .synSent ∨ c.status = .synReceived) (config : Config)
    (s : Surroundings) (writing : Bool) (payload : List UInt8) :
    c.segmentActs config s writing tcp payload =
      [.advance (·.hear s.now tcp), .advance (·.resume tcp)] := by
  unfold Connection.segmentActs
  rw [if_neg (by simp [hrst]), if_pos hsyn, if_pos hstatus]

/-- A segment that neither resets nor opens anything is heeded, and it is queued unless it is an ACK
without data that is not awaited. -/
theorem segmentActs_of_heed (hrst : tcp.isRst = false) (hsyn : tcp.isSyn = false)
    (hflag : tcp.isFin = true ∨ tcp.isAck = true) (hstatus : c.status ≠ .synSent)
    (config : Config) (s : Surroundings) (writing : Bool) (payload : List UInt8) :
    c.segmentActs config s writing tcp payload =
      .advance (·.hear s.now tcp) :: .advance (·.settle tcp) ::
        if payload.isEmpty && !tcp.isFin && c.status ≠ .lastAck then []
        else
          (c.advance (·.settle tcp)).enqueueActs config s writing
            ⟨tcp.sequence, payload, tcp.isFin⟩ := by
  have hnoted : ¬ ((!tcp.isFin && !tcp.isAck) = true) := by
    cases hflag with
    | inl hfin => simp [hfin]
    | inr hack => simp [hack]
  unfold Connection.segmentActs
  rw [if_neg (by simp [hrst]), if_neg (by simp [hsyn]), if_neg hnoted, if_neg hstatus]

namespace Tells

/-- An ACK without data is noted, unless the last acknowledgement is awaited. -/
theorem noted (h : start.Tells e id c reads writes replies handed) (hrst : tcp.isRst = false)
    (hsyn : tcp.isSyn = false) (hfin : tcp.isFin = false) (hack : tcp.isAck = true)
    (hstatus : c.status ≠ .synSent) (hlast : c.status ≠ .lastAck) (s : Surroundings)
    (writing : Bool) :
    start.Tells (e.carryOut id (c.segmentActs start.config s writing tcp [])) id
      (c.heed s.now tcp) reads writes replies handed := by
  rw [segmentActs_of_heed hrst hsyn (.inr hack) hstatus, if_pos (by simp [hfin, hlast])]
  exact (h.advance _).advance _

/-- Data, a FIN and the last acknowledgement are queued. -/
theorem queued (h : start.Tells e id c reads writes replies handed) (payload : List UInt8)
    (hwriter : c.writer = .attached segments) (hrst : tcp.isRst = false)
    (hsyn : tcp.isSyn = false) (hflag : tcp.isFin = true ∨ tcp.isAck = true)
    (hstatus : c.status ≠ .synSent)
    (hmatter : payload ≠ [] ∨ tcp.isFin = true ∨ c.status = .lastAck) (s : Surroundings) :
    start.Tells (e.carryOut id (c.segmentActs start.config s true tcp payload)) id
      { c.heed s.now tcp with
        writer := .attached (segments ++ [⟨tcp.sequence, payload, tcp.isFin⟩]) }
      reads writes replies handed := by
  have hbare : ¬ ((payload.isEmpty && !tcp.isFin && decide (c.status ≠ .lastAck)) = true) := by
    rcases hmatter with hdata | hfin | hlast
    · simp [hdata]
    · simp [hfin]
    · simp [hlast]
  have hwriter' : (c.advance (·.settle tcp)).writer = .attached segments := hwriter
  rw [segmentActs_of_heed hrst hsyn hflag hstatus, if_neg hbare, Connection.enqueueActs, hwriter']
  exact ((h.advance _).advance _).advance (·.enqueue segments ⟨tcp.sequence, payload, tcp.isFin⟩)

/-! ## The network side -/

/-- The device is sent its handshake once the outbound socket is connected. -/
theorem connected (h : start.Tells e id c reads writes replies handed)
    (ht : c.template.transport = .tcp t) (hroom : Headers.tcpPayloadOffset ≤ start.config.mtu)
    (hs : s.Works) (hopen : c.closed = false) (hstatus : c.status = .synSent)
    {target : Net.Endpoint} (htask : Task.connect id target ∈ e.tasks) :
    start.Tells (e.step s (.connected id target (.ok ()))) id (c.advance (·.greet s.now))
      (reads + 1) (writes + 1)
      (replies ++ [⟨Flag.syn ||| Flag.ack, c.sequence, c.acknowledgement, []⟩]) handed := by
  have hstep : e.step s (.connected id target (.ok ())) =
      (e.perform id (.finish (.connect target))).carryOut id
        (c.tell start.config s (Flag.syn ||| Flag.ack) []
          (.advance (·.greet s.now) :: .begin .write :: begun s .read) [.terminate]) := by
    simp only [step_eq, plan, List.contains_iff_mem, htask, if_true, follow,
      actsFor_of_some h.connection?, h.config, Connection.connectedActs]
    rw [if_neg (by simp [hopen, hstatus])]
    rfl
  obtain ⟨e', htold, h'⟩ := (h.finishConnect target).tell ht [] hroom (by decide) hs _ _ rfl
  rw [hstep, htold]
  exact ((h'.advance (·.greet s.now)).beginWrite).nextRead hs

/-- A read that is under way ends. -/
theorem step_received (h : start.Tells e id c (reads + 1) writes replies handed)
    (s : Surroundings) (result : Except Fault (List UInt8)) :
    e.step s (.received id result) =
      (e.perform id (.finish .read)).carryOut id
        (c.receivedActs start.config s (result.map (·.take e.readRoom))) := by
  have hcount : e.tasks.count (.read id) = reads + 1 := congrArg View.reads h.shows
  have htask : e.tasks.contains (.read id) = true :=
    List.contains_iff_mem.mpr (List.count_pos_iff.mp (by omega))
  simp only [step_eq, plan, htask, if_true, follow, actsFor_of_some h.connection?, h.config]
  rfl

/-- What is read is sent to the device, and the next read is begun. -/
theorem received (h : start.Tells e id c (reads + 1) writes replies handed)
    (ht : c.template.transport = .tcp t) (hmtu : start.config.mtu ≤ 65535) (hs : s.Works)
    (hopen : c.closed = false) (hlast : c.status ≠ .lastAck) (hdata : data ≠ [])
    (hlength : data.length ≤ start.config.mtu - Headers.tcpPayloadOffset) :
    start.Tells (e.step s (.received id (.ok data))) id
      ((c.inspected .response data).advance (·.read s.now data)) (reads + 1) writes
      (replies ++ [⟨Flag.psh ||| Flag.ack, c.sequence, c.acknowledgement, data⟩]) handed := by
  have hfits : data.length ≤ e.readRoom := by
    rw [readRoom, h.config]
    exact hlength
  have hpos := List.length_pos_iff.mpr hdata
  have hacts : c.receivedActs start.config s (.ok data) =
      .inspect .response data :: c.tell start.config s (Flag.psh ||| Flag.ack) data
        (.advance (·.read s.now data) :: begun s .read) [.terminate] := by
    unfold Connection.receivedActs
    rw [if_neg (by simp [hopen, hlast])]
    cases data with
    | nil => contradiction
    | cons b rest => rfl
  obtain ⟨e', htold, h'⟩ := (h.finishRead.inspect .response data).tell ht data
    (by omega) (by omega) hs _ _ rfl
  rw [h.step_received, Except.map, List.take_of_length_le hfits, hacts, carryOut_cons, htold]
  exact (h'.advance (·.read s.now data)).nextRead hs

/-- The end of the stream is told to the device, unless it comes too late. -/
theorem ended (h : start.Tells e id c (reads + 1) writes replies handed)
    (ht : c.template.transport = .tcp t) (hroom : Headers.tcpPayloadOffset ≤ start.config.mtu)
    (hs : s.Works) (hopen : c.closed = false) (hlast : c.status ≠ .lastAck)
    (hearly : c.lastRead.elapsedMore s.now start.config.eofIdle = false) :
    start.Tells (e.step s (.received id (.ok []))) id (c.advance Progress.close) reads writes
      (replies ++ [⟨Flag.fin ||| Flag.ack, c.sequence, c.acknowledgement, []⟩]) handed := by
  have hacts : c.receivedActs start.config s (.ok []) =
      c.tell start.config s (Flag.fin ||| Flag.ack) [] [.advance Progress.close] [.terminate] := by
    unfold Connection.receivedActs
    rw [if_neg (by simp [hopen, hlast])]
    exact if_neg (by simp [hearly])
  obtain ⟨e', htold, h'⟩ := h.finishRead.tell ht [] hroom (by decide) hs _ _ rfl
  rw [h.step_received, Except.map, List.take_nil, hacts, htold]
  exact h'.advance Progress.close

/-! ## Writing -/

/-- There is a writer. -/
theorem contains_write (h : start.Tells e id c reads (writes + 1) replies handed) :
    e.tasks.contains (.write id) = true := by
  have hcount : e.tasks.count (.write id) = writes + 1 := congrArg View.writes h.shows
  exact List.contains_iff_mem.mpr (List.count_pos_iff.mp (by omega))

/-- A part of the first segment in the queue is taken. -/
theorem took (h : start.Tells e id c reads (writes + 1) replies handed)
    (hwriter : c.writer = .attached (g :: rest)) (s : Surroundings) (count : Nat) :
    start.Tells (e.step s (.took id count)) id (c.advance (·.take count)) reads (writes + 1)
      replies (handed ++ (g.payload.drop c.taken).take count) := by
  simp only [step_eq, plan, h.contains_write, if_true, follow, actsFor_of_some h.connection?,
    Connection.tookActs, hwriter, WriterQueue.segments]
  exact (h.advance (·.take count)).hand _

/-- What is counted about a written segment besides its acknowledgement. -/
theorem count (h : start.Tells e id c reads writes replies handed) (g : Segment) :
    ∃ bytesWritten inspector, start.Tells (e.carryOut id (Connection.countActs g)) id
      { c with bytesWritten, inspector } reads writes replies handed := by
  unfold Connection.countActs
  split
  · exact ⟨c.bytesWritten, c.inspector, h⟩
  · exact ⟨_, _, (h.advance (·.count g)).inspect .request g.payload⟩

/-- The first segment in the queue is written, handed over and counted.  Then it is acknowledged, or
whatever else it calls for is done. -/
theorem written (h : start.Tells e id c reads (writes + 1) replies handed)
    (hwriter : c.writer = .attached (g :: rest)) (hopen : c.closed = false) (s : Surroundings)
    {acts : List Act} (hacts : c.completeActs start.config s g = Connection.countActs g ++ acts) :
    ∃ e' bytesWritten inspector, e.step s (.wrote id (.ok ())) = e'.carryOut id acts ∧
      start.Tells e' id
        { c with writer := .attached rest, taken := 0, bytesWritten, inspector } reads (writes + 1)
        replies (handed ++ g.payload.drop c.taken) := by
  have hleft := (h.advance Progress.leave).hand (g.payload.drop c.taken)
  have hdropped : c.advance Progress.leave = { c with writer := .attached rest, taken := 0 } := by
    have hqueue : c.writer.dropFirst = .attached rest := by
      rw [hwriter]
      rfl
    exact congrArg (fun writer => { c with writer, taken := 0 }) hqueue
  rw [hdropped] at hleft
  obtain ⟨bytesWritten, inspector, hcounted⟩ := hleft.count g
  refine ⟨_, bytesWritten, inspector, ?_, hcounted⟩
  simp only [step_eq, plan, h.contains_write, if_true, follow, actsFor_of_some h.connection?,
    Connection.wroteActs, hwriter, WriterQueue.segments, ite_self, hopen, h.config, hacts,
    Bool.false_eq_true, if_false, carryOut_cons, carryOut_append]

/-- A written segment is acknowledged by a response. -/
theorem acknowledge (h : start.Tells e id c' reads writes replies handed)
    (ht : c.template.transport = .tcp t) (hroom : Headers.tcpPayloadOffset ≤ start.config.mtu)
    (hs : s.Works) {flags : UInt8} (told : List Act)
    (hsame : (c'.advance (·.acknowledge g)).packet? start.config flags [] =
      (c.advance (·.acknowledge g)).packet? start.config flags []) :
    ∃ e', e.carryOut id (c.acknowledgeActs start.config s g flags told) = e'.carryOut id told ∧
      start.Tells e' id (c'.advance (·.acknowledge g)) reads writes
        (replies ++ [⟨flags, c.sequence, g.stop, []⟩]) handed := by
  have hkept : (c.advance (·.acknowledge g)).template.transport = .tcp t := ht
  exact (h.advance (·.acknowledge g)).tell hkept [] hroom (by decide) hs told _ hsame

/-- Data that is written is acknowledged. -/
theorem wrote_data (h : start.Tells e id c reads (writes + 1) replies handed)
    (hwriter : c.writer = .attached (g :: rest)) (hopen : c.closed = false)
    (ht : c.template.transport = .tcp t) (hroom : Headers.tcpPayloadOffset ≤ start.config.mtu)
    (hs : s.Works) (hdata : g.payload ≠ []) (hfin : g.fin = false) :
    ∃ bytesWritten inspector, start.Tells (e.step s (.wrote id (.ok ()))) id
      { c with
        writer := .attached rest, taken := 0, bytesWritten, inspector, acknowledgement := g.stop }
      reads (writes + 1) (replies ++ [⟨Flag.ack, c.sequence, g.stop, []⟩])
      (handed ++ g.payload.drop c.taken) := by
  have hacts : c.completeActs start.config s g =
      Connection.countActs g ++ c.acknowledgeActs start.config s g Flag.ack [] := by
    unfold Connection.completeActs
    rw [if_neg (by simp [hfin]), if_pos (by simp [hdata])]
  obtain ⟨e', bytesWritten, inspector, hstep, hwritten⟩ := h.written hwriter hopen s hacts
  obtain ⟨e'', htold, hend⟩ := hwritten.acknowledge ht hroom hs [] rfl
  rw [hstep, htold]
  exact ⟨bytesWritten, inspector, hend⟩

/-- A FIN that is written is answered by a FIN. -/
theorem wrote_fin (h : start.Tells e id c reads (writes + 1) replies handed)
    (hwriter : c.writer = .attached (g :: rest)) (hopen : c.closed = false)
    (ht : c.template.transport = .tcp t) (hroom : Headers.tcpPayloadOffset ≤ start.config.mtu)
    (hs : s.Works) (hfin : g.fin = true) (hlast : c.status ≠ .lastAck) :
    ∃ bytesWritten inspector, start.Tells (e.step s (.wrote id (.ok ()))) id
      { c with
        writer := .attached rest, taken := 0, bytesWritten, inspector, acknowledgement := g.stop
        sequence := c.sequence + 1, status := .lastAck }
      reads (writes + 1) (replies ++ [⟨Flag.fin ||| Flag.ack, c.sequence, g.stop, []⟩])
      (handed ++ g.payload.drop c.taken) := by
  have hacts : c.completeActs start.config s g = Connection.countActs g ++
      c.acknowledgeActs start.config s g (Flag.fin ||| Flag.ack) [.advance Progress.close] := by
    unfold Connection.completeActs
    rw [if_pos hfin, if_neg hlast]
  obtain ⟨e', bytesWritten, inspector, hstep, hwritten⟩ := h.written hwriter hopen s hacts
  obtain ⟨e'', htold, hend⟩ := hwritten.acknowledge ht hroom hs [.advance Progress.close] rfl
  rw [hstep, htold]
  exact ⟨bytesWritten, inspector, hend.advance Progress.close⟩

/-- A FIN that is written behind the FIN of the relay is acknowledged and closes the connection. -/
theorem wrote_finLast (h : start.Tells e id c reads (writes + 1) replies handed)
    (hwriter : c.writer = .attached (g :: rest)) (hopen : c.closed = false)
    (ht : c.template.transport = .tcp t) (hroom : Headers.tcpPayloadOffset ≤ start.config.mtu)
    (hs : s.Works) (hfin : g.fin = true) (hlast : c.status = .lastAck) :
    ∃ c', start.Tells (e.step s (.wrote id (.ok ()))) id c' reads (writes + 1)
        (replies ++ [⟨Flag.ack, c.sequence, g.stop, []⟩]) (handed ++ g.payload.drop c.taken) ∧
      c'.closed = true := by
  have hacts : c.completeActs start.config s g =
      Connection.countActs g ++ c.acknowledgeActs start.config s g Flag.ack [.terminate] := by
    unfold Connection.completeActs
    rw [if_pos hfin, if_pos hlast]
  obtain ⟨e', bytesWritten, inspector, hstep, hwritten⟩ := h.written hwriter hopen s hacts
  obtain ⟨e'', htold, hend⟩ := hwritten.acknowledge ht hroom hs [.terminate] rfl
  rw [hstep, htold]
  exact ⟨_, hend.terminate, rfl⟩

/-- The last acknowledgement closes the connection. -/
theorem wrote_last (h : start.Tells e id c reads (writes + 1) replies handed)
    (hwriter : c.writer = .attached (g :: rest)) (hopen : c.closed = false) (s : Surroundings)
    (hdata : g.payload = []) (hfin : g.fin = false) (hlast : c.status = .lastAck)
    (htheirs : c.theirAcknowledgement = c.sequence) :
    ∃ c', start.Tells (e.step s (.wrote id (.ok ()))) id c' reads (writes + 1) replies handed ∧
      c'.closed = true := by
  have hacts : c.completeActs start.config s g = Connection.countActs g ++ [.terminate] := by
    unfold Connection.completeActs
    rw [if_neg (by simp [hfin]), if_neg (by simp [hdata]), if_pos ⟨hlast, htheirs⟩]
  obtain ⟨e', bytesWritten, inspector, hstep, hwritten⟩ := h.written hwriter hopen s hacts
  rw [hdata, List.drop_nil, List.append_nil] at hwritten
  rw [hstep]
  exact ⟨_, hwritten.terminate, rfl⟩

end Tells

end Tcp.Engine

end FlowRelay
