import FlowRelay.Proofs.Tcp.Act

/-!
# FlowRelay.Proofs.Tcp.Plan

What a step of the engine is going to do, and that it does so.

1. *Progress*: the ways in which connections make progress.
2. *Acts of a connection* (`Connection.connectedActs` and so on): what is done when work for a
   connection ends, or when a segment for it arrives.  It depends on the connection, the settings
   and the surroundings alone.
3. *Operations* (`connected_eq` and so on): each operation of the engine carries out these acts.
4. *Plans* (`Engine.plan`): what a step is going to do.  Every step follows its plan (`step_eq`).
-/

namespace FlowRelay.Tcp

open Packet

/-! ## Progress -/

namespace Progress

/-- The outbound socket could not be connected. -/
def restart (p : Progress) : Progress := { p with sequence := 0 }

/-- The SYN with an ACK is sent. -/
def greet (p : Progress) (now : Instant) : Progress :=
  { p with
    sequence := p.sequence + 1, status := .synReceived, lastActive := now
    writer := .attached [] }

/-- The FIN is sent. -/
def close (p : Progress) : Progress := { p with sequence := p.sequence + 1, status := .lastAck }

/-- What was read is sent. -/
def read (p : Progress) (now : Instant) (data : List UInt8) : Progress :=
  { p with
    sequence := p.sequence + UInt32.ofNat data.length
    bytesRead := p.bytesRead + data.length, lastRead := now, lastActive := now }

/-- The outbound socket has taken bytes of the first segment in the queue. -/
def take (p : Progress) (count : Nat) : Progress := { p with taken := p.taken + count }

/-- The first segment leaves the queue. -/
def leave (p : Progress) : Progress := { p with writer := p.writer.dropFirst, taken := 0 }

/-- A segment that was written is counted. -/
def count (p : Progress) (g : Segment) : Progress :=
  { p with bytesWritten := p.bytesWritten + g.payload.length }

/-- A segment that was written is acknowledged. -/
def acknowledge (p : Progress) (g : Segment) : Progress := { p with acknowledgement := g.stop }

/-- A segment arrives. -/
def hear (p : Progress) (now : Instant) (tcp : Packet.Tcp) : Progress :=
  { p with
    lastActive := now
    theirAcknowledgement := if tcp.isAck then tcp.acknowledgement else p.theirAcknowledgement }

/-- A SYN comes again during the handshake. -/
def resume (p : Progress) (syn : Packet.Tcp) : Progress :=
  { p with acknowledgement := syn.sequence + 1 }

/-- An ACK completes the handshake. -/
def settle (p : Progress) (tcp : Packet.Tcp) : Progress :=
  { p with status := if p.status = .synReceived ∧ tcp.isAck then .established else p.status }

/-- A segment is queued behind others. -/
def enqueue (p : Progress) (segments : List Segment) (g : Segment) : Progress :=
  { p with writer := .attached (segments ++ [g]) }

end Progress

/-! ## Acts of a connection -/

/-- Work is begun, if somebody drives it. -/
def begun (s : Surroundings) (w : Work) : List Act := if s.multiplexerOpen then [.begin w] else []

theorem all_isSilent_begun (s : Surroundings) (w : Work) :
    (begun s w).all Act.isSilent = true := by
  unfold begun
  split <;> rfl

namespace Connection

/-- A response is sent and followed by these acts, or it is not heard, and others follow. -/
def tell (c : Connection) (config : Config) (s : Surroundings) (flags : UInt8)
    (payload : List UInt8) (told mute : List Act) : List Act :=
  if c.heard config s flags payload then .say flags payload :: told else mute

/-- The connection is closed with a RST, unless one of its sides is closed already. -/
def resetActs (c : Connection) (config : Config) (s : Surroundings) : List Act :=
  if c.status.isClosing then [.terminate]
  else c.tell config s (Flag.rst ||| Flag.ack) [] [.terminate] [.terminate]

/-- A reset closes the connection, whether its RST is heard or not. -/
theorem after_resetActs (c c' : Connection) (config : Config) (s : Surroundings) :
    c'.after (c.resetActs config s) = c'.close := by
  unfold resetActs tell
  split
  · rfl
  · split <;> rfl

/-- What is done when the outbound socket is connected, or could not be. -/
def connectedActs (c : Connection) (config : Config) (s : Surroundings)
    (result : Except Fault Unit) : List Act :=
  if c.closed || c.status ≠ .synSent then []
  else
    match result with
    | .error _ => .advance Progress.restart :: (c.advance Progress.restart).resetActs config s
    | .ok () =>
      c.tell config s (Flag.syn ||| Flag.ack) []
        (.advance (·.greet s.now) :: .begin .write :: begun s .read) [.terminate]

/-- What is done when a read has ended with so much data. -/
def receivedActs (c : Connection) (config : Config) (s : Surroundings)
    (result : Except Fault (List UInt8)) : List Act :=
  if c.closed || c.status = .lastAck then []
  else
    match result with
    | .error _ => c.resetActs config s
    | .ok [] =>
      if c.lastRead.elapsedMore s.now config.eofIdle then [.terminate]
      else c.tell config s (Flag.fin ||| Flag.ack) [] [.advance Progress.close] [.terminate]
    | .ok data =>
      .inspect .response data ::
        c.tell config s (Flag.psh ||| Flag.ack) data (.advance (·.read s.now data) :: begun s .read)
          [.terminate]

/-- What is done when the outbound socket has taken bytes of the first segment in the queue. -/
def tookActs (c : Connection) (count : Nat) : List Act :=
  match c.writer.segments with
  | [] => []
  | g :: _ => [.advance (·.take count), .hand ((g.payload.drop c.taken).take count)]

theorem all_isSilent_tookActs (c : Connection) (count : Nat) :
    (c.tookActs count).all Act.isSilent = true := by
  unfold tookActs
  split <;> rfl

/-- Data that was written is counted and shown. -/
def countActs (g : Segment) : List Act :=
  if g.payload.isEmpty then [] else [.advance (·.count g), .inspect .request g.payload]

/-- Counting changes the inspector and the count alone. -/
theorem after_countActs (c : Connection) (g : Segment) :
    ∃ inspector bytesWritten, c.after (countActs g) = { c with inspector, bytesWritten } := by
  unfold countActs
  split <;> exact ⟨_, _, rfl⟩

theorem all_isSilent_countActs (g : Segment) : (countActs g).all Act.isSilent = true := by
  unfold countActs
  split <;> rfl

/-- A written segment is acknowledged by a response; these acts follow if that is heard.  The
writer ends otherwise. -/
def acknowledgeActs (c : Connection) (config : Config) (s : Surroundings) (g : Segment)
    (flags : UInt8) (told : List Act) : List Act :=
  .advance (·.acknowledge g) ::
    (c.advance (·.acknowledge g)).tell config s flags [] told [.terminate, .finish .write]

/-- What is done for a segment that has been written to the outbound socket. -/
def completeActs (c : Connection) (config : Config) (s : Surroundings) (g : Segment) : List Act :=
  countActs g ++
    if g.fin then
      if c.status = .lastAck then c.acknowledgeActs config s g Flag.ack [.terminate]
      else c.acknowledgeActs config s g (Flag.fin ||| Flag.ack) [.advance Progress.close]
    else if !g.payload.isEmpty then c.acknowledgeActs config s g Flag.ack []
    else if c.status = .lastAck ∧ c.theirAcknowledgement = c.sequence then [.terminate]
    else []

/-- What is done when the first segment in the queue is written, or could not be. -/
def wroteActs (c : Connection) (config : Config) (s : Surroundings) (result : Except Fault Unit) :
    List Act :=
  match c.writer.segments with
  | [] => []
  | g :: _ =>
    .advance Progress.leave ::
      match if g.payload.isEmpty then .ok () else result with
      | .error _ => (if c.closed then [] else c.resetActs config s) ++ [.finish .write]
      | .ok () =>
        .hand (g.payload.drop c.taken) ::
          if c.closed then [.finish .write] else c.completeActs config s g

/-- What is done with a segment that is to be written.  `writes` tells whether there is a writer. -/
def enqueueActs (c : Connection) (config : Config) (s : Surroundings) (writes : Bool)
    (g : Segment) : List Act :=
  match c.writer with
  | .attached segments =>
    if writes then [.advance (·.enqueue segments g)] else c.resetActs config s
  | .absent | .released _ => c.resetActs config s

/-- What is done for a segment of the device.  `writes` tells whether there is a writer. -/
def segmentActs (c : Connection) (config : Config) (s : Surroundings) (writes : Bool)
    (tcp : Packet.Tcp) (payload : List UInt8) : List Act :=
  .advance (·.hear s.now tcp) ::
    if tcp.isRst then [.terminate]
    else if tcp.isSyn then
      if c.status = .synSent ∨ c.status = .synReceived then [.advance (·.resume tcp)]
      else c.resetActs config s
    else if !tcp.isFin && !tcp.isAck then []
    else if c.status = .synSent then c.resetActs config s
    else
      .advance (·.settle tcp) ::
        if payload.isEmpty && !tcp.isFin && c.status ≠ .lastAck then []
        else
          (c.advance (·.settle tcp)).enqueueActs config s writes
            ⟨tcp.sequence, payload, tcp.isFin⟩

end Connection

namespace Engine

variable {e : Engine} {s : Surroundings} {id : Nat} {c : Connection}

/-! ## Operations -/

/-- `register` begins work. -/
theorem register_eq (e : Engine) (s : Surroundings) (id : Nat) (w : Work) :
    (e.register s (w.task id)).1 = e.carryOut id (begun s w) := by
  unfold begun register
  cases s.multiplexerOpen <;> rfl

/-- Work that is begun changes no connection. -/
theorem store_carryOut_begun (e : Engine) (s : Surroundings) (id : Nat) (w : Work) :
    (e.carryOut id (begun s w)).store = e.store := by
  unfold begun
  split <;> rfl

/-- Progress of a connection as it is in the store. -/
theorem update_eq_perform (hc : e.store.connection? id = some c) {f : Connection → Connection}
    {g : Progress → Progress} (h : f c = c.advance g) :
    e.update id f = e.perform id (.advance g) :=
  congrArg (fun store => { e with store })
    (Flow.Store.update_congr hc (g := (·.advance g)) h)

/-- `reset` carries out `resetActs`. -/
theorem reset_eq (hc : e.store.connection? id = some c) (s : Surroundings) :
    e.reset s id = e.carryOut id (c.resetActs e.config s) := by
  obtain ⟨x, hsend⟩ := send_eq hc s (Flag.rst ||| Flag.ack)
  simp only [reset, hc, hsend, Connection.resetActs, Connection.tell]
  split
  · rfl
  · split <;> rfl

/-- `connected` carries out `connectedActs`. -/
theorem connected_eq (hc : e.store.connection? id = some c) (s : Surroundings)
    (result : Except Fault Unit) :
    e.connected s id result = e.carryOut id (c.connectedActs e.config s result) := by
  unfold connected Connection.connectedActs
  simp only [hc]
  split
  · rfl
  · cases result with
    | error x =>
        have hrestart := connection?_perform e id (.advance Progress.restart)
        rw [hc] at hrestart
        exact reset_eq hrestart s
    | ok _ =>
        obtain ⟨x, hsend⟩ := send_eq hc s (Flag.syn ||| Flag.ack)
        simp only [hsend, Connection.tell]
        cases c.heard e.config s (Flag.syn ||| Flag.ack) [] with
        | false => rfl
        | true => exact register_eq _ s id .read

/-- `received` carries out `receivedActs` for the data that there is room for. -/
theorem received_eq (hc : e.store.connection? id = some c) (s : Surroundings)
    (result : Except Fault (List UInt8)) :
    e.received s id result =
      e.carryOut id (c.receivedActs e.config s (result.map (·.take e.readRoom))) := by
  unfold received Connection.receivedActs
  simp only [hc]
  split
  · rfl
  · cases hread : result.map (·.take e.readRoom) with
    | error x => exact reset_eq hc s
    | ok data =>
        cases data with
        | nil =>
            obtain ⟨x, hsend⟩ := send_eq hc s (Flag.fin ||| Flag.ack)
            simp only [hsend, Connection.tell]
            split
            · rfl
            · cases c.heard e.config s (Flag.fin ||| Flag.ack) [] <;> rfl
        | cons b rest =>
            have hshown := connection?_perform e id (.inspect .response (b :: rest))
            rw [hc] at hshown
            have hroom : (b :: rest).length ≤
                (e.perform id (.inspect .response (b :: rest))).readRoom := by
              rw [readRoom, config_perform]
              exact length_le_readRoom hread
            obtain ⟨x, hemit⟩ := emit_written hshown s (Flag.psh ||| Flag.ack) hroom
            rw [config_perform] at hemit
            -- Inspection leaves the numbers of the connection and the buffers as they are.
            have hsent : (e.inspect id .response (b :: rest)).emit s id
                (c.template.writeTcpResponse
                  (Bytes.overwrite e.blank Headers.tcpPayloadOffset (b :: rest))
                  (Flag.psh ||| Flag.ack) c.sequence c.acknowledgement (b :: rest).length) =
                if c.heard e.config s (Flag.psh ||| Flag.ack) (b :: rest) then
                  ((e.inspect id .response (b :: rest)).say id (Flag.psh ||| Flag.ack) (b :: rest),
                    .ok ())
                else (e.inspect id .response (b :: rest), .error x) := hemit
            simp only [blank_inspect, Connection.tell, hsent]
            cases c.heard e.config s (Flag.psh ||| Flag.ack) (b :: rest) with
            | false => rfl
            | true => exact register_eq _ s id .read

/-- `took` carries out `tookActs`. -/
theorem took_eq (hc : e.store.connection? id = some c) (count : Nat) :
    e.took id count = e.carryOut id (c.tookActs count) := by
  unfold took Connection.tookActs
  simp only [hc]
  cases c.writer.segments <;> rfl

/-- What the writer makes of a segment that is written. -/
def afterComplete (id : Nat) : Engine × Except Fault Unit → Engine
  | (e, .ok ()) => e
  | (e, .error _) => (e.terminate id).finishTask (.write id)

/-- `complete` carries out `completeActs`, and the writer ends if that fails. -/
theorem complete_eq (hc : e.store.connection? id = some c) (s : Surroundings) (g : Segment) :
    afterComplete id (e.complete s id g) = e.carryOut id (c.completeActs e.config s g) := by
  have hcount : (if g.payload.isEmpty then e else
      (e.update id fun c =>
        { c with bytesWritten := c.bytesWritten + g.payload.length }).inspect id .request
          g.payload) = e.carryOut id (Connection.countActs g) := by
    unfold Connection.countActs
    split <;> rfl
  obtain ⟨inspector, bytesWritten, hafter⟩ := c.after_countActs g
  have hc' := connection?_carryOut hc (Connection.countActs g)
  rw [hafter] at hc'
  have hconfig := config_carryOut e id (Connection.countActs g)
  unfold complete Connection.completeActs
  simp only [hcount, carryOut_append]
  generalize e.carryOut id (Connection.countActs g) = e' at hc' hconfig ⊢
  rw [← hconfig]
  obtain ⟨c', hacknowledged, hstatus, htheirs, hsequence, hheard⟩ : ∃ c',
      (e'.update id fun c => { c with acknowledgement := g.stop }).store.connection? id = some c' ∧
        c'.status = c.status ∧ c'.theirAcknowledgement = c.theirAcknowledgement ∧
        c'.sequence = c.sequence ∧
        ∀ flags, c'.heard e'.config s flags [] =
          (c.advance (·.acknowledge g)).heard e'.config s flags [] :=
    ⟨_, (connection?_perform e' id (.advance (·.acknowledge g))).trans (congrArg _ hc'), rfl, rfl,
      rfl, fun _ => rfl⟩
  obtain ⟨x, hack⟩ := send_eq hacknowledged s Flag.ack
  obtain ⟨y, hanswer⟩ := send_eq hacknowledged s (Flag.fin ||| Flag.ack)
  have hsame : (e'.update id fun c => { c with acknowledgement := g.stop }).config = e'.config :=
    rfl
  simp only [hacknowledged, hack, hanswer, hstatus, htheirs, hsequence, hsame, hheard,
    Connection.acknowledgeActs, Connection.tell]
  split
  · split
    · cases (c.advance (·.acknowledge g)).heard e'.config s Flag.ack [] <;> rfl
    · cases (c.advance (·.acknowledge g)).heard e'.config s (Flag.fin ||| Flag.ack) [] <;> rfl
  · split
    · cases (c.advance (·.acknowledge g)).heard e'.config s Flag.ack [] <;> rfl
    · split <;> rfl

/-- `wrote` carries out `wroteActs`. -/
theorem wrote_eq (hc : e.store.connection? id = some c) (s : Surroundings)
    (result : Except Fault Unit) :
    e.wrote s id result = e.carryOut id (c.wroteActs e.config s result) := by
  unfold wrote Connection.wroteActs
  simp only [hc]
  cases c.writer.segments with
  | nil => rfl
  | cons g rest =>
      have hleft := connection?_perform e id (.advance Progress.leave)
      rw [hc] at hleft
      simp only
      generalize (if g.payload.isEmpty then .ok () else result) = written
      cases written with
      | error x =>
          simp only
          rw [carryOut_cons, carryOut_append]
          cases hclosed : c.closed with
          | true => rfl
          | false => exact congrArg (finishTask · (.write id)) (reset_eq hleft s)
      | ok _ =>
          simp only
          rw [carryOut_cons, carryOut_cons]
          cases hclosed : c.closed with
          | true => rfl
          | false =>
              have hhanded := connection?_perform (e.perform id (.advance Progress.leave)) id
                (.hand (g.payload.drop c.taken))
              rw [hleft] at hhanded
              have hcomplete := complete_eq hhanded s g
              rw [config_perform, config_perform] at hcomplete
              exact hcomplete

/-- `enqueue` carries out `enqueueActs`. -/
theorem enqueue_eq (hc : e.store.connection? id = some c) (s : Surroundings) (g : Segment) :
    (e.enqueue s id c g).1 =
      e.carryOut id (c.enqueueActs e.config s (e.tasks.contains (.write id)) g) := by
  unfold enqueue Connection.enqueueActs
  cases c.writer with
  | attached segments =>
      simp only
      split
      · rfl
      · exact reset_eq hc s
  | absent | released segments => exact reset_eq hc s

/-- `handleSegment` carries out `segmentActs`. -/
theorem handleSegment_eq (hc : e.store.connection? id = some c) (s : Surroundings)
    (tcp : Packet.Tcp) (payload : List UInt8) :
    (e.handleSegment s id c tcp payload).1 =
      e.carryOut id
        (c.segmentActs e.config s (e.tasks.contains (.write id)) tcp payload) := by
  have hhear := update_eq_perform hc (g := (·.hear s.now tcp)) (f := fun _ =>
    { c with
      lastActive := s.now
      theirAcknowledgement :=
        if tcp.isAck then tcp.acknowledgement else c.theirAcknowledgement }) rfl
  have hheard := connection?_perform e id (.advance (·.hear s.now tcp))
  rw [hc, Option.map_some] at hheard
  have hsettle := update_eq_perform hheard (g := (·.settle tcp)) (f := fun c' =>
    { c' with
      status := if c.status = .synReceived ∧ tcp.isAck then .established else c.status }) rfl
  have hsettled := connection?_perform (e.perform id (.advance (·.hear s.now tcp))) id
    (.advance (·.settle tcp))
  rw [hheard, Option.map_some] at hsettled
  unfold handleSegment Connection.segmentActs
  simp only [hhear, hsettle, carryOut_cons]
  split
  · rfl
  split
  · cases c.status <;> first | rfl | exact reset_eq hheard s
  split
  · rfl
  split
  · exact reset_eq hheard s
  split
  · rfl
  · exact enqueue_eq hsettled s _

/-- A segment is handled without an error if there is a writer for it. -/
theorem handleSegment_ok (h : c.status ≠ .synSent →
      (∃ segments, c.writer = .attached segments) ∧ e.tasks.contains (.write id) = true)
    (s : Surroundings) (tcp : Packet.Tcp) (payload : List UInt8) :
    (e.handleSegment s id c tcp payload).2 = .ok () := by
  unfold handleSegment
  simp only
  split
  · rfl
  split
  · cases c.status <;> rfl
  split
  · rfl
  split
  · rfl
  next hstatus =>
  split
  · rfl
  · obtain ⟨⟨segments, hwriter⟩, htask⟩ := h hstatus
    have hwrites : (e.update id fun _ => c).tasks.contains (.write id) = true := htask
    simp only [enqueue, hwriter]
    exact congrArg Prod.snd (if_pos hwrites)

/-! ## Plans -/

/-- What a step is going to do. -/
inductive Plan where
  | idle
  /-- Something for a connection. -/
  | act (id : Nat) (acts : List Act)
  /-- A flow is found in the table, and something is done for its connection. -/
  | find (key : Flow.Key) (id : Nat) (acts : List Act)
  /-- A connection is opened, and its outbound socket connects. -/
  | accept (c : Connection) (target : Net.Endpoint)
  /-- A SYN is answered by a RST, if that is written and somebody takes it. -/
  | refuse (packet? : Option (List UInt8))
  | closeAll

/-- The RST that refuses a SYN, if somebody takes it. -/
def rejection? (config : Config) (s : Surroundings) (headers : Headers) (syn : Packet.Tcp) :
    Option (List UInt8) :=
  taken? s <| headers.swap.writeTcpResponse (List.replicate config.mtu 0) (Flag.rst ||| Flag.ack) 0
    (syn.sequence + 1) 0

/-- What is done for a connection, if it exists. -/
def actsFor (e : Engine) (id : Nat) (acts : Connection → List Act) : List Act :=
  (e.store.connection? id).elim [] acts

/-- What a step is going to do. -/
def plan (e : Engine) (s : Surroundings) : Event → Plan
  | .segment initial d =>
    match d.headers.tcp? with
    | none => .idle
    | some tcp =>
      let key : Flow.Key := ⟨d.destination, d.source.port⟩
      match e.store.table.peek? key with
      | some id =>
        .find key id <| e.actsFor id fun c =>
          if c.closed then []
          else c.segmentActs e.config s (e.tasks.contains (.write id)) tcp d.payload
      | none =>
        if tcp.isSyn && !tcp.isAck && !tcp.isRst then
          match s.socket with
          | .error _ => .refuse (rejection? e.config s d.headers tcp)
          | .ok () =>
            .accept (.make key d.headers.swap initial tcp.sequence (e.inspectorOf key) s.now)
              (s.proxy.resolve key.destination)
        else .idle
  | .connected id target result =>
    if e.tasks.contains (.connect id target) then
      .act id (.finish (.connect target) :: e.actsFor id (·.connectedActs e.config s result))
    else .idle
  | .received id result =>
    if e.tasks.contains (.read id) then
      .act id (.finish .read ::
        e.actsFor id (·.receivedActs e.config s (result.map (·.take e.readRoom))))
    else .idle
  | .took id count =>
    if e.tasks.contains (.write id) then .act id (e.actsFor id (·.tookActs count)) else .idle
  | .wrote id result =>
    if e.tasks.contains (.write id) then
      .act id (e.actsFor id (·.wroteActs e.config s result))
    else .idle
  | .abandoned task =>
    if e.store.isClosed task.connection then .act task.connection [.finish task.work] else .idle
  | .closeAll => .closeAll

/-- The engine after a plan. -/
def follow (e : Engine) (s : Surroundings) : Plan → Engine
  | .idle => e
  | .act id acts => e.carryOut id acts
  | .find key id acts => { e with store := (e.store.find? key).1 }.carryOut id acts
  | .accept c target =>
    { e with store := (e.store.openNew s.now e.config.tcpIdle c).1 }.carryOut
      e.store.connections.length (begun s (.connect target))
  | .refuse packet? => packet?.elim e (e.post none)
  | .closeAll => e.closeAll.1

/-- Refusing a SYN changes no connection. -/
theorem store_refuse (e : Engine) (s : Surroundings) (packet? : Option (List UInt8)) :
    (e.follow s (.refuse packet?)).store = e.store := by
  cases packet? <;> rfl

theorem actsFor_of_some (hc : e.store.connection? id = some c) (acts : Connection → List Act) :
    e.actsFor id acts = acts c := by
  rw [actsFor, hc, Option.elim_some]

/-- What an operation makes of a connection is what is done for it. -/
theorem eq_carryOut_actsFor {e' : Engine} {acts : Connection → List Act}
    (hnone : e.store.connection? id = none → e' = e)
    (hsome : ∀ c, e.store.connection? id = some c → e' = e.carryOut id (acts c)) :
    e' = e.carryOut id (e.actsFor id acts) := by
  unfold actsFor
  cases hc : e.store.connection? id with
  | none => exact hnone hc
  | some c => exact hsome c hc

/-- `handle` follows the plan for the packet. -/
theorem handle_eq (e : Engine) (s : Surroundings) (initial : UInt32) (d : Datagram) :
    (e.handle s initial d).1 = e.follow s (e.plan s (.segment initial d)) := by
  simp only [handle, plan]
  cases d.headers.tcp? with
  | none => rfl
  | some tcp =>
      simp only [Flow.Store.find?, Table.snd_get?]
      cases e.store.table.peek? ⟨d.destination, d.source.port⟩ with
      | none =>
          simp only
          split
          · cases hsocket : s.socket with
            | error fault => exact (openConnection_of_error hsocket ..).trans (fst_emit ..)
            | ok _ =>
                rw [openConnection_eq hsocket]
                exact register_eq _ s _ (.connect _)
          · rfl
      | some id =>
          have hsame (table : Table Flow.Key Nat) :
              { e.store with table }.connection? id = e.store.connection? id := rfl
          simp only [hsame, actsFor]
          cases hc : e.store.connection? id with
          | none => rfl
          | some c =>
              simp only [Option.elim_some]
              cases hclosed : c.closed with
              | true => rfl
              | false =>
                  simp only [Bool.false_eq_true, if_false]
                  exact handleSegment_eq (e := { e with store := (e.store.find? _).1 }) hc s tcp
                    d.payload

/-- **Steps**: every step follows its plan. -/
theorem step_eq (e : Engine) (s : Surroundings) (event : Event) :
    e.step s event = e.follow s (e.plan s event) := by
  cases event with
  | segment initial d => exact handle_eq e s initial d
  | connected id target result =>
      simp only [step, plan]
      split
      · refine eq_carryOut_actsFor (e := e.finishTask (.connect id target)) (fun hnone => ?_)
          fun c hc => connected_eq hc s result
        rw [connected, hnone]
      · rfl
  | received id result =>
      simp only [step, plan]
      split
      · refine eq_carryOut_actsFor (e := e.finishTask (.read id)) (fun hnone => ?_)
          fun c hc => received_eq hc s result
        rw [received, hnone]
      · rfl
  | took id count =>
      simp only [step, plan]
      split
      · refine eq_carryOut_actsFor (fun hnone => ?_) fun c hc => took_eq hc count
        rw [took, hnone]
      · rfl
  | wrote id result =>
      simp only [step, plan]
      split
      · refine eq_carryOut_actsFor (fun hnone => ?_) fun c hc => wrote_eq hc s result
        rw [wrote, hnone]
      · rfl
  | abandoned task =>
      simp only [step, plan]
      split
      · exact congrArg e.finishTask task.task_work.symm
      · rfl
  | closeAll => rfl

/-- What may be done about a packet of the device: it is passed over, something is done for the
connection of its flow, or a SYN of a flow without a connection is accepted or refused. -/
inductive Plan.ForSegment (e : Engine) (s : Surroundings) (initial : UInt32) (d : Datagram) :
    Plan → Prop
  | idle : ForSegment e s initial d .idle
  | find {tcp : Packet.Tcp} {id : Nat} (htcp : d.headers.tcp? = some tcp)
      (hpeek : e.store.table.peek? ⟨d.destination, d.source.port⟩ = some id) :
      ForSegment e s initial d (.find ⟨d.destination, d.source.port⟩ id (e.actsFor id fun c =>
        if c.closed then []
        else c.segmentActs e.config s (e.tasks.contains (.write id)) tcp d.payload))
  | accept {tcp : Packet.Tcp} (htcp : d.headers.tcp? = some tcp)
      (hsyn : (tcp.isSyn && !tcp.isAck && !tcp.isRst) = true)
      (hnone : e.store.table.peek? ⟨d.destination, d.source.port⟩ = none)
      (hsocket : s.socket = .ok ()) :
      ForSegment e s initial d (.accept
        (.make ⟨d.destination, d.source.port⟩ d.headers.swap initial tcp.sequence
          (e.inspectorOf ⟨d.destination, d.source.port⟩) s.now)
        (s.proxy.resolve d.destination))
  | refuse {tcp : Packet.Tcp} {fault : Fault} (htcp : d.headers.tcp? = some tcp)
      (hsyn : (tcp.isSyn && !tcp.isAck && !tcp.isRst) = true)
      (hnone : e.store.table.peek? ⟨d.destination, d.source.port⟩ = none)
      (hsocket : s.socket = .error fault) :
      ForSegment e s initial d (.refuse (rejection? e.config s d.headers tcp))

/-- The plan for a packet of the device is one for its segment. -/
theorem plan_segment (e : Engine) (s : Surroundings) (initial : UInt32) (d : Datagram) :
    (e.plan s (.segment initial d)).ForSegment e s initial d := by
  simp only [plan]
  cases htcp : d.headers.tcp? with
  | none => exact .idle
  | some tcp =>
      simp only
      cases hpeek : e.store.table.peek? ⟨d.destination, d.source.port⟩ with
      | some id => exact .find htcp hpeek
      | none =>
          simp only
          split
          · next hsyn =>
              cases hsocket : s.socket with
              | error fault => exact .refuse htcp hsyn hpeek hsocket
              | ok _ => exact .accept htcp hsyn hpeek hsocket
          · exact .idle

end Engine

end FlowRelay.Tcp
