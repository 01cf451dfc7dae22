import FlowRelay.Proofs.Tcp.Plan
import FlowRelay.Proofs.Tcp.Turn

/-!
# FlowRelay.Proofs.Tcp.Step

Every step of the engine is a turn for every connection.

1. *Acts*: what is done for a connection is a turn of it (`_turns`), and nothing shows in the
   others, but that an accepted connection may close them.
2. *Steps* (`step_turns`): so every step is a turn for every connection that exists before.
3. *Births* (`step_unborn`): a connection comes into being without packets and without work.
-/

namespace FlowRelay.Tcp

open Packet

namespace Engine

/-! ## The connection that a step is about -/

section

variable {e : Engine} {s : Surroundings} {i id : Nat} {c c' : Connection} {v v' : View}
  {reads writes : Nat} {replies : List Reply} {handed : List UInt8} {config : Config}

namespace View.Shows

/-- What a view shows since is a turn if the sessions before and behind make one. -/
theorem turns {deed : Deed} {σ : Session} (h : v'.Shows v c' reads writes replies handed)
    (hc : v.connection = some c) (hσ : Session.of c' reads writes = σ)
    (turn : Turn (.of c v.reads v.writes) deed replies handed σ) : v.Turns deed v' :=
  ⟨c, c', reads, writes, replies, handed, hc, h, hσ ▸ turn⟩

/-- A response is sent, and what follows it happens, or what happens if it is not heard.  The
connection may have made progress since, but for its numbers. -/
theorem tell (h : v'.Shows v c' reads writes replies handed) (config : Config)
    (s : Surroundings) (flags : UInt8) (payload : List UInt8) (told mute : List Act)
    (hsame : c'.packet? config flags payload = c.packet? config flags payload) :
    (∃ v'' : View, v'.carryOut config (c.tell config s flags payload told mute) =
          v''.carryOut config told ∧
        v''.Shows v c' reads writes
          (replies ++ [⟨flags, c.sequence, c.acknowledgement, payload⟩]) handed) ∨
      v'.carryOut config (c.tell config s flags payload told mute) = v'.carryOut config mute := by
  unfold Connection.tell
  cases hheard : c.heard config s flags payload with
  | false => exact .inr rfl
  | true =>
      obtain ⟨packet, hpacket⟩ := Connection.exists_packet_of_heard hheard
      exact .inl ⟨_, rfl, h.say (hsame.trans hpacket) (Connection.ofBytes?_packet hpacket)⟩

/-- A reset takes the connection out of the table; the device is told so by a RST, or not at all
where a side is closed already or nobody takes the packet. -/
theorem reset (h : v'.Shows v c' reads writes replies handed) (config : Config)
    (s : Surroundings)
    (hsame : c'.packet? config (Flag.rst ||| Flag.ack) [] =
      c.packet? config (Flag.rst ||| Flag.ack) []) :
    ∃ more, (more = [] ∨ c.status.isClosing = false ∧
        more = [⟨Flag.rst ||| Flag.ack, c.sequence, c.acknowledgement, []⟩]) ∧
      (v'.carryOut config (c.resetActs config s)).Shows v c'.close reads writes (replies ++ more)
        handed := by
  have hsilent : (v'.carryOut config [.terminate]).Shows v c'.close reads writes (replies ++ [])
      handed := by
    rw [List.append_nil]
    exact h.terminate config
  unfold Connection.resetActs
  cases hclosing : c.status.isClosing with
  | true => exact ⟨[], .inl rfl, hsilent⟩
  | false =>
      simp only [Bool.false_eq_true, if_false]
      rcases View.Shows.tell h config s (Flag.rst ||| Flag.ack) [] [.terminate] [.terminate]
        hsame with ⟨v'', htold, h'⟩ | hmute
      · rw [htold]
        exact ⟨_, .inr ⟨trivial, rfl⟩, h'.terminate config⟩
      · rw [hmute]
        exact ⟨[], .inl rfl, hsilent⟩

/-- The next read is begun, or nobody drives it. -/
theorem nextRead (h : v'.Shows v c' reads writes replies handed) (config : Config)
    (s : Surroundings) :
    ∃ reads, (v'.carryOut config (begun s .read)).Shows v c' reads writes replies handed := by
  unfold begun
  split
  · exact ⟨_, h.beginRead config⟩
  · exact ⟨_, h⟩

end View.Shows

/-- The end of a connect is a turn. -/
theorem connected_turns (hc : v.connection = some c) (config : Config) (s : Surroundings)
    (result : Except Fault Unit) :
    v.Turns (.connected result) (v.carryOut config (c.connectedActs config s result)) := by
  have hstart := View.Shows.start hc
  unfold Connection.connectedActs
  by_cases hlate : c.closed = true ∨ c.status ≠ .synSent
  · rw [if_pos (by simpa using hlate)]
    exact hstart.turns hc rfl (.connectLate hlate)
  · have hopen : c.closed = false := by simp_all
    have hstatus : c.status = .synSent := by simp_all
    rw [if_neg (by simp [hopen, hstatus])]
    cases result with
    | error x =>
        have hrestart := hstart.advance config Progress.restart
        obtain ⟨replies, hreset, hend⟩ := hrestart.reset config s rfl
        exact hend.turns hc (Session.of_close _ _ _) (.connectFailed hopen hstatus hreset)
    | ok _ =>
        simp only
        rcases hstart.tell config s (Flag.syn ||| Flag.ack) [] _ _ rfl with ⟨v', htold, h⟩ | hmute
        · rw [htold]
          obtain ⟨reads, hend⟩ :=
            ((h.advance config (·.greet s.now)).beginWrite config).nextRead config s
          exact hend.turns hc rfl (.connected hopen hstatus)
        · rw [hmute]
          exact (hstart.terminate config).turns hc (Session.of_close _ _ _)
            (.connectMute hopen hstatus)

/-- The end of a read is a turn. -/
theorem received_turns (hc : v.connection = some c) (hread : 0 < v.reads)
    (hstart : v'.Shows v c (v.reads - 1) v.writes [] []) (config : Config) (s : Surroundings)
    (result : Except Fault (List UInt8)) :
    v.Turns (.received result) (v'.carryOut config (c.receivedActs config s result)) := by
  unfold Connection.receivedActs
  by_cases hlate : c.closed = true ∨ c.status = .lastAck
  · rw [if_pos (by simpa using hlate)]
    exact hstart.turns hc rfl (.readLate hread hlate)
  · have hopen : c.closed = false := by simp_all
    have hlast : c.status ≠ .lastAck := by simp_all
    rw [if_neg (by simp [hopen, hlast])]
    cases result with
    | error x =>
        obtain ⟨replies, hreset, hend⟩ := hstart.reset config s rfl
        exact hend.turns hc (Session.of_close _ _ _) (.readFailed hread hopen hlast hreset)
    | ok data =>
        cases data with
        | nil =>
            have hmute : v.Turns (.received (.ok [])) (v'.carryOut config [.terminate]) :=
              (hstart.terminate config).turns hc (Session.of_close _ _ _)
                (.readMute hread hopen hlast)
            simp only
            split
            · exact hmute
            · rcases hstart.tell config s (Flag.fin ||| Flag.ack) [] _ _ rfl with
                ⟨v'', htold, h⟩ | hnot
              · rw [htold]
                exact (h.advance config Progress.close).turns hc rfl (.ended hread hopen hlast)
              · rw [hnot]
                exact hmute
        | cons b rest =>
            have hshown := hstart.inspect config .response (b :: rest)
            rw [View.carryOut_cons]
            rcases hshown.tell (c := c) config s (Flag.psh ||| Flag.ack) (b :: rest) _ _ rfl with
              ⟨v'', htold, h⟩ | hnot
            · rw [htold]
              obtain ⟨reads, hend⟩ :=
                (h.advance config (·.read s.now (b :: rest))).nextRead config s
              exact hend.turns hc rfl (.read hread hopen hlast (List.cons_ne_nil b rest))
            · rw [hnot]
              exact (hshown.terminate config).turns hc (Session.of_close _ _ _)
                (.readMute hread hopen hlast)

/-- A part of a segment that is taken is a turn. -/
theorem took_turns (hc : v.connection = some c) (hwrite : 0 < v.writes) (config : Config)
    (count : Nat) : v.Turns (.took count) (v.carryOut config (c.tookActs count)) := by
  have hstart := View.Shows.start hc
  unfold Connection.tookActs
  cases hsegments : c.writer.segments with
  | nil => exact hstart.turns hc rfl (.tookNothing hsegments)
  | cons g rest =>
      exact ((hstart.advance config (·.take count)).hand config _).turns hc rfl
        (.took hwrite hsegments)

/-- The session without its first segment. -/
theorem Session.of_leave {g : Segment} {rest : List Segment}
    (hwaiting : c.writer.segments = g :: rest) (reads writes : Nat) :
    Session.of (c.advance Progress.leave) reads writes =
      (Session.of c reads writes).leave rest := by
  have hsegments : c.writer.dropFirst.segments = rest := by
    rw [WriterQueue.segments_dropFirst, hwaiting]
    rfl
  exact congrArg (fun waiting => { Session.of c reads writes with waiting, taken := 0 }) hsegments

/-- A written segment is acknowledged, or the connection is closed and its writer ends. -/
theorem View.Shows.acknowledge (h : v'.Shows v c' reads writes [] handed) (config : Config)
    (s : Surroundings) (g : Segment) (flags : UInt8) (told : List Act)
    (hsame : (c'.advance (·.acknowledge g)).packet? config flags [] =
      (c.advance (·.acknowledge g)).packet? config flags []) :
    (∃ v'' : View, v'.carryOut config (c.acknowledgeActs config s g flags told) =
          v''.carryOut config told ∧
        v''.Shows v (c'.advance (·.acknowledge g)) reads writes
          [⟨flags, c.sequence, g.stop, []⟩] handed) ∨
      (v'.carryOut config (c.acknowledgeActs config s g flags told)).Shows v
        (c'.advance (·.acknowledge g)).close reads (writes - 1) [] handed := by
  have hacknowledged := h.advance config (·.acknowledge g)
  rcases hacknowledged.tell config s flags [] told [.terminate, .finish .write] hsame with
    ⟨v'', htold, hshows⟩ | hmute
  · exact .inl ⟨v'', htold, hshows⟩
  · refine .inr ?_
    change View.Shows ((v'.perform config _).carryOut config _) _ _ _ _ _ _
    rw [hmute]
    exact (hacknowledged.terminate config).finishWrite config

/-- What a written segment calls for is a turn. -/
theorem complete_turns {g : Segment} {rest : List Segment} {result : Except Fault Unit}
    (hc : v.connection = some c) (hwrite : 0 < v.writes)
    (hwaiting : c.writer.segments = g :: rest) (hwritten : g.isWritten result)
    (hopen : c.closed = false)
    (hstart : v'.Shows v (c.advance Progress.leave) v.reads v.writes [] (g.payload.drop c.taken))
    (config : Config) (s : Surroundings) :
    v.Turns (.wrote result) (v'.carryOut config (c.completeActs config s g)) := by
  obtain ⟨c', hcount, hleft, hsame⟩ : ∃ c',
      (v'.carryOut config (Connection.countActs g)).Shows v c' v.reads v.writes []
        (g.payload.drop c.taken) ∧
      (∀ writes, Session.of c' v.reads writes = (Session.of c v.reads writes).leave rest) ∧
      ∀ flags, (c'.advance (·.acknowledge g)).packet? config flags [] =
        (c.advance (·.acknowledge g)).packet? config flags [] := by
    have hleft := Session.of_leave hwaiting v.reads
    unfold Connection.countActs
    split
    · exact ⟨_, hstart, hleft, fun _ => rfl⟩
    · exact ⟨_, (hstart.advance config (·.count g)).inspect config .request g.payload, hleft,
        fun _ => rfl⟩
  have hshut (writes : Nat) :
      Session.of (c'.advance (·.acknowledge g)).close v.reads writes =
        { ((Session.of c v.reads v.writes).leave rest).acknowledge g with
          writes, closed := true } :=
    (Session.of_close _ _ _).trans (congrArg (fun σ => (σ.acknowledge g).shut) (hleft writes))
  have hack (flags : UInt8) (told : List Act) :=
    hcount.acknowledge config s g flags told (hsame flags)
  unfold Connection.completeActs
  rw [View.carryOut_append]
  cases hfin : g.fin with
  | true =>
      simp only [if_true]
      by_cases hlast : c.status = .lastAck
      · rw [if_pos hlast]
        rcases hack Flag.ack [.terminate] with ⟨v'', htold, h⟩ | hend
        · rw [htold]
          exact (h.terminate config).turns hc (hshut _)
            (.completed hwrite hwaiting hwritten hopen hfin hlast)
        · exact hend.turns hc (hshut _) (.wroteMute hwrite hwaiting hwritten hopen (.inr hfin))
      · rw [if_neg hlast]
        rcases hack (Flag.fin ||| Flag.ack) [.advance Progress.close] with ⟨v'', htold, h⟩ | hend
        · rw [htold]
          exact (h.advance config Progress.close).turns hc
            (congrArg (fun σ =>
              { σ.acknowledge g with status := .lastAck, sequence := σ.sequence + 1 }) (hleft _))
            (.answered hwrite hwaiting hwritten hopen hfin hlast)
        · exact hend.turns hc (hshut _) (.wroteMute hwrite hwaiting hwritten hopen (.inr hfin))
  | false =>
      simp only [Bool.false_eq_true, if_false]
      by_cases hdata : g.payload = []
      · rw [if_neg (by simp [hdata])]
        have hnone : g.payload.drop c.taken = [] := by rw [hdata, List.drop_nil]
        rw [hnone] at hcount
        by_cases hlast : c.status = .lastAck ∧ c.theirAcknowledgement = c.sequence
        · rw [if_pos hlast]
          refine (hcount.terminate config).turns hc ?_ (.passed hwrite hwaiting hopen hdata hfin)
          rw [Session.of_close, hleft]
          simp only [Session.of, Session.leave, Session.shut, hlast, and_self, decide_true]
        · rw [if_neg hlast]
          refine hcount.turns hc ?_ (.passed hwrite hwaiting hopen hdata hfin)
          rw [hleft]
          simp only [Session.of, Session.leave, hlast, hopen, decide_false]
      · rw [if_pos (by simp [hdata])]
        rcases hack Flag.ack [] with ⟨v'', htold, h⟩ | hend
        · rw [htold]
          exact h.turns hc (congrArg (·.acknowledge g) (hleft v.writes))
            (.acknowledged hwrite hwaiting hwritten hopen hdata hfin)
        · exact hend.turns hc (hshut _) (.wroteMute hwrite hwaiting hwritten hopen (.inl hdata))

/-- The end of a write is a turn. -/
theorem wrote_turns (hc : v.connection = some c) (hwrite : 0 < v.writes) (config : Config)
    (s : Surroundings) (result : Except Fault Unit) :
    v.Turns (.wrote result) (v.carryOut config (c.wroteActs config s result)) := by
  have hstart := View.Shows.start hc
  unfold Connection.wroteActs
  cases hwaiting : c.writer.segments with
  | nil => exact hstart.turns hc rfl (.wroteNothing hwaiting)
  | cons g rest =>
      have hleft := Session.of_leave hwaiting v.reads
      have hleave := hstart.advance config Progress.leave
      simp only
      rw [View.carryOut_cons]
      cases hresult : if g.payload.isEmpty then .ok () else result with
      | error x =>
          have hwritten : ¬ g.isWritten result := by
            rintro (hdata | rfl)
            · simp [hdata] at hresult
            · split at hresult <;> contradiction
          simp only
          rw [View.carryOut_append]
          cases hclosed : c.closed with
          | true =>
              refine (hleave.finishWrite config).turns hc ?_
                (.writeFailed hwrite hwaiting hwritten (.inl rfl))
              rw [hleft]
              simp only [Session.of, Session.leave, hclosed]
          | false =>
              obtain ⟨replies, hreset, hend⟩ := hleave.reset (c := c) config s rfl
              refine (hend.finishWrite config).turns hc ?_
                (.writeFailed hwrite hwaiting hwritten (.inr ⟨hclosed, hreset⟩))
              rw [Session.of_close, hleft]
              rfl
      | ok _ =>
          have hwritten : g.isWritten result := by
            by_cases hdata : g.payload = []
            · exact .inl hdata
            · rw [if_neg (by simpa using hdata)] at hresult
              exact .inr hresult
          have hhand := hleave.hand config (g.payload.drop c.taken)
          simp only
          rw [View.carryOut_cons]
          cases hclosed : c.closed with
          | true =>
              exact (hhand.finishWrite config).turns hc (hleft _)
                (.wroteLate hwrite hwaiting hwritten hclosed)
          | false => exact complete_turns hc hwrite hwaiting hwritten hclosed hhand config s

/-- A segment is queued, or the connection is reset. -/
theorem View.Shows.enqueue (h : v'.Shows v c' reads writes [] handed) (config : Config)
    (s : Surroundings) (writes' : Bool) (g : Segment)
    (hsame : c'.packet? config (Flag.rst ||| Flag.ack) [] =
      c.packet? config (Flag.rst ||| Flag.ack) []) :
    (∃ segments, c.writer = .attached segments ∧
      (v'.carryOut config (c.enqueueActs config s writes' g)).Shows v
        (c'.advance (·.enqueue segments g)) reads writes [] handed) ∨
    ∃ replies, (replies = [] ∨ c.status.isClosing = false ∧
        replies = [⟨Flag.rst ||| Flag.ack, c.sequence, c.acknowledgement, []⟩]) ∧
      (v'.carryOut config (c.enqueueActs config s writes' g)).Shows v c'.close reads writes replies
        handed := by
  unfold Connection.enqueueActs
  cases hwriter : c.writer with
  | absent | released => exact .inr (h.reset config s hsame)
  | attached segments =>
      simp only
      split
      · exact .inl ⟨segments, rfl, h.advance config _⟩
      · exact .inr (h.reset config s hsame)

/-- A segment that arrives is a turn. -/
theorem arrival_turns (hc : v.connection = some c) (hopen : c.closed = false) (config : Config)
    (s : Surroundings) (writes : Bool) (tcp : Packet.Tcp) (payload : List UInt8) :
    v.Turns (.arrival tcp payload)
      (v.carryOut config (c.segmentActs config s writes tcp payload)) := by
  have hheard := (View.Shows.start hc).advance config (·.hear s.now tcp)
  unfold Connection.segmentActs
  rw [View.carryOut_cons]
  cases hrst : tcp.isRst with
  | true =>
      exact (hheard.terminate config).turns hc (Session.of_close _ _ _) (.aborted hopen hrst)
  | false =>
      simp only [Bool.false_eq_true, if_false]
      cases hsyn : tcp.isSyn with
      | true =>
          simp only [if_true]
          by_cases hstatus : c.status = .synSent ∨ c.status = .synReceived
          · rw [if_pos hstatus]
            exact (hheard.advance config (·.resume tcp)).turns hc rfl
              (.repeated hopen hrst hsyn hstatus)
          · rw [if_neg hstatus]
            obtain ⟨replies, hreset, hend⟩ := hheard.reset (c := c) config s rfl
            have hturn : Turn (.of c v.reads v.writes) (.arrival tcp payload)
                replies [] ((Session.of c _ _).heed tcp).shut :=
              .refused hopen hrst (fun _ => not_or.mp hstatus) (.inl hsyn) hreset
            rw [Session.heed_eq_hear tcp fun h => hstatus (.inr h)] at hturn
            exact hend.turns hc (Session.of_close _ _ _) hturn
      | false =>
          simp only [Bool.false_eq_true, if_false]
          by_cases hflag : tcp.isFin = true ∨ tcp.isAck = true
          · rw [if_neg (by cases hflag <;> simp_all)]
            by_cases hsent : c.status = .synSent
            · rw [if_pos hsent]
              obtain ⟨replies, hreset, hend⟩ := hheard.reset (c := c) config s rfl
              refine hend.turns hc ?_ (.refused hopen hrst (by simp [hsyn]) (.inr hflag) hreset)
              rw [Session.of_close, Session.heed_eq_hear tcp (by simp [Session.of, hsent])]
              rfl
            · have hsettled := hheard.advance config (·.settle tcp)
              rw [if_neg hsent, View.carryOut_cons]
              by_cases hbare : payload = [] ∧ tcp.isFin = false ∧ c.status ≠ .lastAck
              · obtain ⟨rfl, hfin, hlast⟩ := hbare
                have hack : tcp.isAck = true := by simpa [hfin] using hflag
                rw [if_pos (by simp [hfin, hlast])]
                exact hsettled.turns hc rfl (.noted hopen hrst hsyn hfin hack hsent hlast)
              · rw [if_neg (by simpa using hbare)]
                have hmatter : payload ≠ [] ∨ tcp.isFin = true ∨ c.status = .lastAck := by grind
                rcases hsettled.enqueue (c := c.advance (·.settle tcp)) config s writes
                    ⟨tcp.sequence, payload, tcp.isFin⟩ rfl with
                  ⟨segments, hsegments, hend⟩ | ⟨replies, hreset, hend⟩
                · have hwaiting : c.writer.segments = segments := congrArg _ hsegments
                  refine hend.turns hc ?_ (.queued hopen hrst hsyn hflag hsent hmatter)
                  rw [← hwaiting]
                  rfl
                · refine hend.turns hc (Session.of_close _ _ _)
                    (.refused hopen hrst (by simp [hsyn]) (.inr hflag) ?_)
                  rw [Session.Resets, ← Session.isClosing_heed (.of c v.reads v.writes) tcp]
                  exact hreset
          · obtain ⟨hfin, hack⟩ : tcp.isFin = false ∧ tcp.isAck = false := by simpa using hflag
            rw [if_pos (by simp [hfin, hack])]
            exact hheard.turns hc rfl (.ignored hopen hrst hsyn hfin hack)

/-! ## Any connection -/

/-- Connections that have left the table are closed, and nothing else happens. -/
theorem view_closeAllOf (e : Engine) (store : Flow.Store Connection) (ids : List Nat) (id : Nat) :
    { e with store := store.closeAllOf ids }.view id = { e with store }.view id ∨
      { e with store := store.closeAllOf ids }.view id =
        { { e with store }.view id with
          connection := ({ e with store }.view id).connection.map Connection.close } := by
  have hclose := Flow.Store.connection?_closeAllOf Connection.close_close store ids id
  by_cases h : id ∈ ids
  · right
    rw [if_pos h] at hclose
    simp only [view, hclose]
    rfl
  · left
    rw [if_neg h] at hclose
    simp only [view, hclose]
    rfl

/-- A step about something else can only close a connection. -/
theorem other_turns {v : View} (hc : e.store.connection? id = some c)
    (h : v = e.view id ∨
      v = { e.view id with connection := (e.view id).connection.map Connection.close }) :
    (e.view id).Turns .other v := by
  have hv : (e.view id).connection = some c := hc
  cases h with
  | inl hsame =>
      refine ⟨c, c, _, _, [], [], hc, hsame.trans ?_, .elsewhere⟩
      simp [View.after, ← hv]
  | inr hclosed =>
      refine ⟨c, c.close, (e.view id).reads, (e.view id).writes, [], [], hc, hclosed.trans ?_, ?_⟩
      · simp [View.after, hv]
      · rw [Session.of_close]
        exact .evicted

/-- A new connection may push others out of the table, and even itself. -/
theorem view_openNew (e : Engine) (now : Instant) (idle : Nat) (c : Connection) (id : Nat) :
    { e with store := (e.store.openNew now idle c).1 }.view id =
        { e with store := (e.store.add c).1 }.view id ∨
      { e with store := (e.store.openNew now idle c).1 }.view id =
        { { e with store := (e.store.add c).1 }.view id with
          connection :=
            ({ e with store := (e.store.add c).1 }.view id).connection.map Connection.close } := by
  obtain ⟨table, ids, hput⟩ := Flow.Store.put_eq_closeAllOf (e.store.add c).1 now idle
    (e.store.add c).2
  have hopen : (e.store.openNew now idle c).1 =
      { (e.store.add c).1 with table }.closeAllOf ids := hput
  rw [hopen]
  exact view_closeAllOf e { (e.store.add c).1 with table } ids id

/-- A connection that comes does not show in the others. -/
theorem view_add_of_ne (h : i ≠ e.store.connections.length) (c : Connection) :
    { e with store := (e.store.add c).1 }.view i = e.view i := by
  have hadd : (e.store.add c).1.connection? i = e.store.connection? i := by
    simp only [Flow.Store.add, Flow.Store.connection?, List.getElem?_append]
    split
    · rfl
    · rw [List.getElem?_eq_none_iff.mpr (by simp; omega),
        List.getElem?_eq_none_iff.mpr (by omega)]
  simp only [view, hadd]
  rfl

/-- A connect that is begun does not show. -/
theorem view_carryOut_begun_connect (e : Engine) (s : Surroundings) (i : Nat)
    (target : Net.Endpoint) (id : Nat) :
    (e.carryOut i (begun s (.connect target))).view id = e.view id := by
  unfold begun
  split
  · exact view_begin_connect e i id target
  · rfl

/-- The RST that refuses a SYN shows in no connection. -/
theorem view_refuse (e : Engine) (s : Surroundings) (packet? : Option (List UInt8)) (id : Nat) :
    (e.follow s (.refuse packet?)).view id = e.view id := by
  cases packet? with
  | none => rfl
  | some packet => exact view_post_of_ne (by simp) packet

/-- A connection that is accepted may close others, and nothing is sent on them. -/
theorem view_accept (hc : e.store.connection? id = some c) (s : Surroundings) (c' : Connection)
    (target : Net.Endpoint) :
    (e.follow s (.accept c' target)).view id = e.view id ∨
      (e.follow s (.accept c' target)).view id =
        { e.view id with connection := (e.view id).connection.map Connection.close } := by
  have hview := view_openNew e s.now e.config.tcpIdle c' id
  rw [view_add_of_ne (Nat.ne_of_lt (List.getElem?_eq_some_iff.mp hc).1)] at hview
  rw [follow, view_carryOut_begun_connect]
  exact hview

/-- Acts are a turn for their connection alone. -/
theorem act_turns {p : Prop} [Decidable p] {acts : List Act} {deed : Deed}
    (hc : e.store.connection? id = some c) (s : Surroundings)
    (hself : i = id → p → (e.view id).Turns deed ((e.view id).carryOut e.config acts)) :
    (e.view id).Turns (if i = id ∧ p then deed else .other)
      ((e.follow s (if p then .act i acts else .idle)).view id) := by
  by_cases hp : p
  · rw [if_pos hp, follow]
    by_cases hi : i = id
    · rw [if_pos ⟨hi, hp⟩, hi, view_carryOut]
      exact hself hi hp
    · rw [if_neg fun h => hi h.1]
      exact other_turns hc (.inl (view_carryOut_of_ne hi e acts))
  · rw [if_neg hp, if_neg fun h => hp h.2]
    exact other_turns hc (.inl rfl)

/-- Work that is given up is no deed of a connection. -/
theorem abandoned_turns (hc : e.store.connection? id = some c) (s : Surroundings) (task : Task) :
    (e.view id).Turns .other ((e.follow s (e.plan s (.abandoned task))).view id) := by
  have hstart := View.Shows.start (v := e.view id) hc
  simp only [plan]
  split
  · next hclosed =>
      by_cases h : task.connection = id
      · subst h
        have hc' : c.closed = true := by
          unfold Flow.Store.isClosed at hclosed
          rw [hc] at hclosed
          exact hclosed
        rw [follow, view_carryOut]
        cases task with
        | connect i target => exact other_turns hc (.inl rfl)
        | read i =>
            exact (hstart.finishRead e.config).turns hc rfl
              (.abandoned hc' (Nat.sub_le _ 1) (Nat.le_refl _))
        | write i =>
            exact (hstart.finishWrite e.config).turns hc rfl
              (.abandoned hc' (Nat.le_refl _) (Nat.sub_le _ 1))
      · exact other_turns hc (.inl (view_carryOut_of_ne h e _))
  · exact other_turns hc (.inl rfl)

/-- A packet of the device is a turn for the connection that it is for, and for all others. -/
theorem segment_turns (hc : e.store.connection? id = some c) (s : Surroundings)
    (initial : UInt32) (d : Datagram) :
    (e.view id).Turns (e.deed id (.segment initial d))
      ((e.follow s (e.plan s (.segment initial d))).view id) := by
  simp only [plan, deed]
  cases htcp : d.headers.tcp? with
  | none => exact other_turns hc (.inl rfl)
  | some tcp =>
      simp only
      cases hfound : e.store.table.peek? ⟨d.destination, d.source.port⟩ with
      | none =>
          rw [if_neg (by simp)]
          simp only
          split
          · split
            · exact other_turns hc (.inl (view_refuse e s _ id))
            · exact other_turns hc (view_accept hc s _ _)
          · exact other_turns hc (.inl rfl)
      | some i =>
          simp only [Option.some.injEq, follow]
          -- That the entry was used shows in no connection.
          have hsame : { e with store := (e.store.find?
              ⟨d.destination, d.source.port⟩).1 }.view id = e.view id := rfl
          by_cases hi : i = id
          · subst hi
            have hopen : e.store.isOpen i = !c.closed := by
              rw [Flow.Store.isOpen, hc]
              rfl
            rw [view_carryOut, hsame, hopen, actsFor, hc, Option.elim_some]
            cases hclosed : c.closed with
            | true =>
                rw [if_neg (by simp)]
                exact other_turns hc (.inl rfl)
            | false =>
                rw [if_pos (by simp)]
                exact arrival_turns hc hclosed e.config s _ tcp d.payload
          · rw [if_neg fun h => hi h.1, view_carryOut_of_ne hi, hsame]
            exact other_turns hc (.inl rfl)

/-- **Steps**: every step is a turn for every connection that exists before. -/
theorem step_turns (hc : e.store.connection? id = some c) (s : Surroundings) (event : Event) :
    (e.view id).Turns (e.deed id event) ((e.step s event).view id) := by
  have hactsFor := actsFor_of_some hc
  rw [step_eq]
  cases event with
  | segment initial d => exact segment_turns hc s initial d
  | connected i target result =>
      refine act_turns hc s fun hi _ => ?_
      rw [hi, hactsFor]
      exact connected_turns hc e.config s result
  | received i result =>
      refine act_turns hc s fun hi htask => ?_
      rw [hi, hactsFor]
      rw [hi] at htask
      have hread : 0 < (e.view id).reads := List.count_pos_iff.mpr (by simpa using htask)
      exact received_turns hc hread ((View.Shows.start hc).finishRead e.config) e.config s _
  | took i count =>
      refine act_turns hc s fun hi htask => ?_
      rw [hi, hactsFor]
      rw [hi] at htask
      exact took_turns hc (List.count_pos_iff.mpr (by simpa using htask)) e.config count
  | wrote i result =>
      refine act_turns hc s fun hi htask => ?_
      rw [hi, hactsFor]
      rw [hi] at htask
      exact wrote_turns hc (List.count_pos_iff.mpr (by simpa using htask)) e.config s result
  | abandoned task => exact abandoned_turns hc s task
  | closeAll => exact other_turns hc (view_closeAllOf e _ _ id)

/-- A connection stands at a session, after so many packets and so much data. -/
def Stands (e : Engine) (id : Nat) (σ : Session) (replies : List Reply) (handed : List UInt8) :
    Prop :=
  ∃ c reads writes, e.view id = ⟨some c, reads, writes, replies.map some, handed⟩ ∧
    Session.of c reads writes = σ

section

variable {σ : Session} {replies : List Reply} {handed : List UInt8}

/-- The packets that were sent are those that the connection stands behind. -/
theorem Stands.sent_eq (h : e.Stands id σ replies handed) : e.sent id = replies.map some := by
  obtain ⟨c, reads, writes, hview, -⟩ := h
  exact congrArg View.sent hview

theorem Stands.handedTo_eq (h : e.Stands id σ replies handed) : e.handedTo id = handed := by
  obtain ⟨c, reads, writes, hview, -⟩ := h
  exact congrArg View.handed hview

/-- A connection that stands somewhere is there. -/
theorem Stands.connection? (h : e.Stands id σ replies handed) :
    ∃ c reads writes, e.store.connection? id = some c ∧ σ = .of c reads writes := by
  obtain ⟨c, reads, writes, hview, rfl⟩ := h
  exact ⟨c, reads, writes, congrArg View.connection hview, rfl⟩

theorem Stands.isOpen_eq (h : e.Stands id σ replies handed) : e.store.isOpen id = !σ.closed := by
  obtain ⟨c, reads, writes, hc, rfl⟩ := h.connection?
  rw [Flow.Store.isOpen, hc]
  rfl

end

/-- A connection goes on from where it stands by a turn. -/
theorem Stands.step {σ : Session} {replies : List Reply} {handed : List UInt8}
    (h : e.Stands id σ replies handed) (s : Surroundings) (event : Event) :
    ∃ more data σ', Turn σ (e.deed id event) more data σ' ∧
      (e.step s event).Stands id σ' (replies ++ more) (handed ++ data) := by
  obtain ⟨c, reads, writes, hview, rfl⟩ := h
  obtain ⟨c, c', reads', writes', more, data, hc, hafter, hturn⟩ :=
    step_turns (congrArg View.connection hview) s event
  rw [hview] at hc hafter hturn
  injection hc with hc
  subst hc
  refine ⟨more, data, _, hturn, c', reads', writes', ?_, rfl⟩
  rw [hafter, View.after, List.map_append]

/-! ## Births -/

/-- There is nothing to see of a connection that has not come yet. -/
def View.unborn : View := ⟨none, 0, 0, [], []⟩

/-- The next connection that comes is the next one that is not born. -/
theorem view_add_of_unborn (h : e.view id = .unborn) (c : Connection) :
    { e with store := (e.store.add c).1 }.view id = .unborn ∨
      e.store.connections.length = id ∧
        { e with store := (e.store.add c).1 }.view id = ⟨some c, 0, 0, [], []⟩ := by
  have hnone : e.store.connections[id]? = none := congrArg View.connection h
  have hle := List.getElem?_eq_none_iff.mp hnone
  have hview : { e with store := (e.store.add c).1 }.view id =
      { e.view id with connection := (e.store.add c).1.connection? id } := rfl
  rw [hview, h]
  simp only [Flow.Store.add, Flow.Store.connection?]
  by_cases hid : e.store.connections.length = id
  · subst hid
    exact .inr ⟨rfl, by simp [View.unborn]⟩
  · left
    rw [List.getElem?_append_right hle, List.getElem?_eq_none_iff.mpr (by simp; omega)]
    rfl

/-- A connection that is accepted is born, and it may be closed at once. -/
theorem accept_unborn (h : e.view id = .unborn) (s : Surroundings) {c : Connection}
    {initial theirs : UInt32} (hc : Session.of c 0 0 = .born initial theirs false)
    (target : Net.Endpoint) :
    (e.follow s (.accept c target)).view id = .unborn ∨
      ∃ closed, (e.follow s (.accept c target)).Stands id (.born initial theirs closed) [] [] := by
  have hview : (e.follow s (.accept c target)).view id =
      { e with store := (e.store.openNew s.now e.config.tcpIdle c).1 }.view id :=
    view_carryOut_begun_connect _ s _ target id
  simp only [Stands, hview]
  cases view_add_of_unborn h c with
  | inl hunborn =>
      left
      cases view_openNew e s.now e.config.tcpIdle c id with
      | inl hsame => rw [hsame, hunborn]
      | inr hclosed =>
          rw [hclosed, hunborn]
          rfl
  | inr hborn =>
      right
      cases view_openNew e s.now e.config.tcpIdle c id with
      | inl hsame => exact ⟨false, c, 0, 0, by rw [hsame, hborn.2]; rfl, hc⟩
      | inr hclosed =>
          refine ⟨true, c.close, 0, 0, by rw [hclosed, hborn.2]; rfl, ?_⟩
          rw [Session.of_close, hc]
          rfl

/-- Acts for a connection that has not come are only that its connect has ended. -/
theorem act_unborn {p : Prop} [Decidable p] {acts : List Act} (h : e.view id = .unborn)
    (s : Surroundings) (hself : i = id → p → View.unborn.carryOut e.config acts = .unborn) :
    (e.follow s (if p then .act i acts else .idle)).view id = .unborn := by
  split
  · next hp =>
      rw [follow]
      by_cases hi : i = id
      · rw [hi, view_carryOut, h]
        exact hself hi hp
      · rw [view_carryOut_of_ne hi, h]
  · exact h

/-- No work is under way for a connection that is not born. -/
theorem count_of_unborn (h : e.view id = .unborn) :
    Task.read id ∉ e.tasks ∧ Task.write id ∉ e.tasks :=
  ⟨List.count_eq_zero.mp (congrArg View.reads h), List.count_eq_zero.mp (congrArg View.writes h)⟩

/-- **Births**: a connection comes for a SYN of the device, without packets and without work. -/
theorem step_unborn (h : e.view id = .unborn) (s : Surroundings) (event : Event) :
    (e.step s event).view id = .unborn ∨
      ∃ initial d tcp closed, event = .segment initial d ∧ d.headers.tcp? = some tcp ∧
        (e.step s event).Stands id (.born initial tcp.sequence closed) [] [] := by
  have hnone : e.store.connection? id = none := congrArg View.connection h
  obtain ⟨hread, hwrite⟩ := count_of_unborn h
  rw [step_eq]
  cases event with
  | segment initial d =>
      have hplan := e.plan_segment s initial d
      generalize e.plan s (.segment initial d) = p at hplan
      cases hplan with
      | idle => exact .inl h
      | @find tcp i htcp hpeek =>
          left
          simp only [follow]
          by_cases hi : i = id
          · rw [hi, actsFor, hnone]
            exact h
          · rw [view_carryOut_of_ne hi]
            exact h
      | @accept tcp htcp hsyn hunknown hsocket =>
          have hfresh : Session.of (.make ⟨d.destination, d.source.port⟩ d.headers.swap initial
              tcp.sequence (e.inspectorOf ⟨d.destination, d.source.port⟩) s.now) 0 0 =
              .born initial tcp.sequence false := rfl
          rcases accept_unborn h s hfresh (s.proxy.resolve d.destination) with
            hunborn | ⟨closed, hborn⟩
          · exact .inl hunborn
          · exact .inr ⟨initial, d, tcp, closed, rfl, htcp, hborn⟩
      | refuse htcp hsyn hunknown hsocket => exact .inl ((view_refuse e s _ id).trans h)
  | connected i target result =>
      refine .inl (act_unborn h s fun hi _ => ?_)
      rw [hi, actsFor, hnone]
      rfl
  | received i result =>
      exact .inl (act_unborn h s fun hi htask => absurd (hi ▸ by simpa using htask) hread)
  | took i count =>
      exact .inl (act_unborn h s fun hi htask => absurd (hi ▸ by simpa using htask) hwrite)
  | wrote i result =>
      exact .inl (act_unborn h s fun hi htask => absurd (hi ▸ by simpa using htask) hwrite)
  | abandoned task =>
      refine .inl (act_unborn h s fun hi hclosed => ?_)
      rw [hi, Flow.Store.isClosed, hnone] at hclosed
      contradiction
  | closeAll =>
      left
      cases view_closeAllOf e { e.store with table := e.store.table.clear.1 }
          (e.store.table.clear.2.map Prod.snd) id with
      | inl hsame => exact hsame.trans h
      | inr hclosed =>
          refine hclosed.trans ?_
          have hsame : { e with store := { e.store with table := e.store.table.clear.1 } }.view id =
            .unborn := h
          rw [hsame]
          rfl

end

end Engine

end FlowRelay.Tcp
