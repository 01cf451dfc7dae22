import FlowRelay.Proofs.Tcp.Conversation
import FlowRelay.Proofs.Tcp.Ledger
import FlowRelay.Proofs.Tcp.Sending

/-!
# FlowRelay.Proofs.Tcp.Closing

How connections come to their end.

1. *Closing* (`Closes`): a connection is closed and its flow has no entry in the table any more,
   after certain packets and no others.  A reset closes it, with a RST unless it is closing already.
2. *The last acknowledgement* (`Awaits`): a segment that acknowledges the FIN and waits to be
   written ends the connection when it is written.
3. *Rows* (`run_closing`): the closing rows of the table of states, for every open connection of
   every run.
-/

namespace FlowRelay.Tcp

open Packet

namespace Engine

variable {e e' : Engine} {s : Surroundings} {id : Nat} {c : Connection}

/-! ## Closing -/

/-- A connection is closed and its flow has no entry, after the device was sent these packets. -/
structure Closes (e e' : Engine) (id : Nat) (key : Flow.Key) (replies : List Reply) : Prop where
  sends : e.Sends e' id replies
  closed : e'.store.isClosed id = true
  gone : e'.store.table.contains key = false

/-- Acts that close a connection take the entry of its flow away. -/
theorem Coherent.closes_carryOut (h : e.Coherent) (hc : e.store.connection? id = some c)
    (hopen : c.closed = false) (acts : List Act) (hclosed : (c.after acts).closed = true)
    {replies : List Reply}
    (hread : (c.packets e.config acts).map Reply.ofBytes? = replies.map some) :
    e.Closes (e.carryOut id acts) id c.key replies := by
  have hafter := connection?_carryOut hc acts
  refine ⟨.carryOut hc acts hread, ?_, ?_⟩
  · rw [Flow.Store.isClosed, hafter]
    exact hclosed
  · have hcoherent := h.moves ((h.owns hc).carryOut acts)
    rw [Table.contains, Option.isSome_eq_false_iff, Option.isNone_iff_eq_none]
    cases hpeek : (e.carryOut id acts).store.table.peek? c.key with
    | none => rfl
    | some i =>
        obtain ⟨c', hc', hkey, hopen'⟩ := hcoherent.accurate.peek?_iff.mp hpeek
        by_cases hid : id = i
        · subst hid
          cases hafter.symm.trans hc'
          exact absurd (hopen'.symm.trans hclosed) Bool.false_ne_true
        · -- Another open connection of the flow would have been there before.
          have hold : e.store.connection? i = some c' :=
            (congrArg View.connection (view_carryOut_of_ne hid e acts)).symm.trans hc'
          exact absurd (h.accurate.eq_of_key hc hold hkey.symm hopen hopen') hid

/-- Whatever closes a connection takes the entry of its flow away, unless it opens another. -/
theorem Coherent.gone_of_closed (h : e.Coherent) (hc : e.store.connection? id = some c)
    (hopen : c.closed = false) {event : Event} (hevent : ∀ initial d, event ≠ .segment initial d)
    (hclosed : (e.step s event).store.isClosed id = true) :
    (e.step s event).store.table.contains c.key = false := by
  rw [Table.contains, Option.isSome_eq_false_iff, Option.isNone_iff_eq_none]
  cases hpeek : (e.step s event).store.table.peek? c.key with
  | none => rfl
  | some i =>
      obtain ⟨c', hc', hkey, hopen'⟩ := (h.step s event).accurate.peek?_iff.mp hpeek
      by_cases hid : id = i
      · subst hid
        rw [Flow.Store.isClosed, hc', Option.any_some] at hclosed
        exact absurd (hopen'.symm.trans hclosed) Bool.false_ne_true
      · cases hold : e.store.connection? i with
        | none =>
            cases step_unborn (h.view_of_none hold) s event with
            | inl hunborn =>
                have hnone := hc'.symm.trans (congrArg View.connection hunborn)
                exact absurd hnone (Option.some_ne_none c')
            | inr hborn =>
                obtain ⟨initial, d, -, -, hsegment, -⟩ := hborn
                exact absurd hsegment (hevent initial d)
        | some old =>
            -- It was open before, too, and there was no other open connection of the flow.
            obtain ⟨new, hnew, hsame, -⟩ := h.connection?_step hold s event
            cases hnew.symm.trans hc'
            have hopen'' : old.closed = false := by
              obtain ⟨_, _, _, _, _, _, hbefore, hafter, hturn⟩ := step_turns hold s event
              cases hold.symm.trans hbefore
              cases hc'.symm.trans (congrArg View.connection hafter)
              by_contra hwas
              have hwas' : old.closed = true := by simpa using hwas
              have hstays := (hturn.of_closed hwas').1
              exact Bool.false_ne_true (hopen'.symm.trans hstays)
            exact absurd (h.accurate.eq_of_key hc hold (hkey.symm.trans hsame) hopen hopen'') hid

/-- What a reset sends on a connection that is not closing, if somebody takes it. -/
def rst (s : Surroundings) (c : Connection) : List Reply :=
  if s.deviceOpen then [⟨Flag.rst ||| Flag.ack, c.sequence, c.acknowledgement, []⟩] else []

/-- A reset sends a RST where somebody takes it, unless the connection is closing.  The connection
may have made progress since, but for its numbers. -/
theorem packets_resetActs {t : Packet.Tcp} {config : Config} (ht : c.template.transport = .tcp t)
    (hroom : Headers.tcpPayloadOffset ≤ config.mtu) (s : Surroundings) (c' : Connection)
    (hsame : c'.packet? config (Flag.rst ||| Flag.ack) [] =
      c.packet? config (Flag.rst ||| Flag.ack) []) :
    (c'.packets config (c.resetActs config s)).map Reply.ofBytes? =
      (if c.status.isClosing then [] else rst s c).map some := by
  obtain ⟨packet, hpacket⟩ :=
    exists_packet_of_room ht [] hroom (by decide) (Flag.rst ||| Flag.ack)
  have hheard := heard_of_room ht [] hroom (by decide) s (Flag.rst ||| Flag.ack)
  have hread := Connection.ofBytes?_packet hpacket
  unfold Connection.resetActs Connection.tell rst
  rw [hheard]
  split
  · rfl
  · split
    · simp [Connection.packets, Act.packet?, hsame, hpacket, hread]
    · rfl

/-- A SYN behind the handshake resets its connection. -/
theorem Coherent.closes_syn (h : e.Coherent) (hc : e.store.connection? id = some c)
    (hopen : c.closed = false) (hroom : Headers.tcpPayloadOffset ≤ e.config.mtu)
    (hstatus : c.status ≠ .synSent ∧ c.status ≠ .synReceived) {d : Datagram} {tcp : Packet.Tcp}
    (hd : Carries d c.key tcp) (hsyn : tcp.isSyn = true) (hrst : tcp.isRst = false)
    (s : Surroundings) (initial : UInt32) :
    e.Closes (e.step s (.segment initial d)) id c.key
      (if c.status.isClosing then [] else rst s c) := by
  obtain ⟨t, ht⟩ := (h.addressed id c hc).isTcp
  have hacts (writes : Bool) : c.segmentActs e.config s writes tcp d.payload =
      .advance (·.hear s.now tcp) :: c.resetActs e.config s := by
    unfold Connection.segmentActs
    rw [if_neg (by simp [hrst]), if_pos hsyn, if_neg (by simp [hstatus])]
  rw [h.step_segment hc hopen hd, hacts]
  obtain ⟨hsends, hclosed, hgone⟩ := (h.move (.find (k := c.key))).closes_carryOut hc hopen
    (.advance (·.hear s.now tcp) :: c.resetActs e.config s)
    (congrArg Connection.closed (c.after_resetActs _ e.config s))
    (packets_resetActs ht hroom s (c.advance (·.hear s.now tcp)) rfl)
  exact ⟨hsends, hclosed, hgone⟩

/-- A read that fails resets its connection, unless the last acknowledgement is awaited. -/
theorem Coherent.closes_read (h : e.Coherent) (hc : e.store.connection? id = some c)
    (hopen : c.closed = false) (hroom : Headers.tcpPayloadOffset ≤ e.config.mtu)
    (hlast : c.status ≠ .lastAck) (htask : Task.read id ∈ e.tasks) (s : Surroundings) (x : Fault) :
    e.Closes (e.step s (.received id (.error x))) id c.key
      (if c.status.isClosing then [] else rst s c) := by
  obtain ⟨t, ht⟩ := (h.addressed id c hc).isTcp
  have hacts : c.receivedActs e.config s (.error x) = c.resetActs e.config s := by
    unfold Connection.receivedActs
    rw [if_neg (by simp [hopen, hlast])]
  have hstep : e.step s (.received id (.error x)) =
      e.carryOut id (.finish .read :: c.resetActs e.config s) := by
    simp only [step_eq, plan, List.contains_iff_mem, htask, if_true, actsFor_of_some hc, Except.map,
      hacts, follow]
  rw [hstep]
  exact h.closes_carryOut hc hopen (.finish .read :: c.resetActs e.config s)
    (congrArg Connection.closed (c.after_resetActs _ e.config s))
    (packets_resetActs ht hroom s c rfl)

/-- Where the last acknowledgement is awaited, a read that fails says nothing to the device. -/
theorem sends_failedRead (hc : e.store.connection? id = some c) (hlast : c.status = .lastAck)
    (s : Surroundings) (x : Fault) : e.Sends (e.step s (.received id (.error x))) id [] := by
  have hacts : c.receivedActs e.config s (.error x) = [] := by
    unfold Connection.receivedActs
    rw [if_pos (by simp [hlast])]
  simp only [step_eq, plan, actsFor_of_some hc, Except.map, hacts]
  split
  · exact .carryOut hc _ rfl
  · exact .of_outbox_eq rfl id

end Engine

/-! ## The last acknowledgement -/

namespace Deed

/-- The acknowledgement that arrives with a segment. -/
def ack? : Deed → Option UInt32
  | .arrival tcp _ => if tcp.isAck then some tcp.acknowledgement else none
  | _ => none

/-- The segment whose write is completed, among those that wait.  One without data counts, too. -/
def done? (waiting : List Segment) : Deed → Option Segment
  | .wrote result => waiting.head?.filter fun g => g.isWritten result
  | _ => none

end Deed

/-- A segment waits that ends the session when it is written, with so many segments in front of
it: it carries a FIN, or the FIN of the session is the last that the device has acknowledged. -/
structure Awaits (sequence : UInt32) (g : Segment) (ahead : Nat) (σ : Session) : Prop where
  status : σ.status = .lastAck
  sequence_eq : σ.sequence = sequence
  theirs : g.fin = true ∨ σ.theirs = sequence
  queue : ∃ front more, σ.waiting = front ++ g :: more ∧ front.length = ahead

namespace Awaits

variable {sequence : UInt32} {g : Segment} {ahead : Nat} {σ σ' : Session} {deed : Deed}
  {replies : List Reply} {handed : List UInt8}

/-- What leaves the queue and the numbers alone does not matter. -/
theorem keep (h : Awaits sequence g ahead σ) (hstatus : σ'.status = σ.status)
    (hsequence : σ'.sequence = σ.sequence) (htheirs : g.fin = true ∨ σ'.theirs = sequence)
    (hwaiting : ∃ more, σ'.waiting = σ.waiting ++ more) : Awaits sequence g ahead σ' := by
  obtain ⟨front, more, hqueue, hahead⟩ := h.queue
  obtain ⟨added, hwaiting⟩ := hwaiting
  refine ⟨hstatus.trans h.status, hsequence.trans h.sequence_eq, htheirs, front, more ++ added, ?_,
    hahead⟩
  rw [hwaiting, hqueue, List.append_assoc, List.cons_append]

/-- The first segment is written: it is the one that is awaited, or one in front of it. -/
theorem leave (h : Awaits sequence g ahead σ) {first : Segment} {rest : List Segment}
    (hwaiting : σ.waiting = first :: rest) (σ' : Session) (hstatus : σ'.status = σ.status)
    (hsequence : σ'.sequence = σ.sequence) (htheirs : σ'.theirs = σ.theirs)
    (hrest : σ'.waiting = rest) :
    first = g ∨ ∃ n, ahead = n + 1 ∧ Awaits sequence g n σ' := by
  obtain ⟨front, more, hqueue, hahead⟩ := h.queue
  rw [hwaiting] at hqueue
  cases front with
  | nil => exact .inl (List.cons.inj hqueue).1
  | cons _ front =>
      refine .inr ⟨front.length, hahead.symm, hstatus.trans h.status,
        hsequence.trans h.sequence_eq, ?_, front, more, ?_, rfl⟩
      · rw [htheirs]
        exact h.theirs
      · exact hrest.trans (List.cons.inj hqueue).2

/-- **The last acknowledgement**: every turn closes the session, or leaves the segment where it is,
or brings it nearer to being written. -/
theorem turn (h : Awaits sequence g ahead σ) (hend : g.fin = true ∨ g.payload = [])
    (hturn : Turn σ deed replies handed σ')
    (hack : g.fin = true ∨ ∀ a, deed.ack? = some a → a = sequence) :
    σ'.closed = true ∨ (deed.done? σ.waiting = none ∧ Awaits sequence g ahead σ') ∨
      ∃ n, ahead = n + 1 ∧ Awaits sequence g n σ' := by
  have hsame {σ' : Session} (hstatus : σ'.status = σ.status) (hsequence : σ'.sequence = σ.sequence)
      (htheirs : σ'.theirs = σ.theirs) (hwaiting : σ'.waiting = σ.waiting) :
      Awaits sequence g ahead σ' :=
    h.keep hstatus hsequence (htheirs ▸ h.theirs) ⟨[], by rw [hwaiting, List.append_nil]⟩
  have hnone : σ.waiting ≠ [] := by
    obtain ⟨front, more, hqueue, -⟩ := h.queue
    rw [hqueue]
    exact List.append_ne_nil_of_right_ne_nil _ nofun
  have hlast := h.status
  cases hturn with
  | elsewhere => exact .inr (.inl ⟨rfl, h⟩)
  | abandoned hclosed => exact .inl hclosed
  | ignored _ _ _ _ hbare =>
      refine .inr (.inl ⟨rfl, hsame rfl rfl ?_ rfl⟩)
      rw [Session.hear, hbare]
      rfl
  | @queued tcp _ _ _ _ _ _ _ =>
      rw [Session.heed_eq_hear tcp (by simp [hlast])]
      refine .inr (.inl ⟨rfl, h.keep rfl rfl ?_ ⟨_, rfl⟩⟩)
      cases htheirs : tcp.isAck with
      | false =>
          rw [Session.hear, htheirs]
          exact h.theirs
      | true =>
          refine hack.imp_right fun hall => ?_
          rw [Session.hear, htheirs]
          exact hall _ (by simp [Deed.ack?, htheirs])
  | readLate | connectLate | tookNothing | took =>
      exact .inr (.inl ⟨rfl, hsame rfl rfl rfl rfl⟩)
  | wroteLate _ _ _ hclosed => exact .inl hclosed
  | acknowledged _ hwaiting _ _ hdata hfin =>
      cases h.leave hwaiting ((σ.leave _).acknowledge _) rfl rfl rfl rfl with
      | inl hfirst =>
          subst hfirst
          cases hend with
          | inl hend => exact absurd (hfin.symm.trans hend) Bool.false_ne_true
          | inr hend => exact absurd hend hdata
      | inr hnext => exact .inr (.inr hnext)
  | @passed _ _ rest _ hwaiting _ _ hfin =>
      cases h.leave hwaiting
        { σ.leave rest with closed := decide (σ.status = .lastAck ∧ σ.theirs = σ.sequence) }
        rfl rfl rfl rfl with
      | inl hfirst =>
          subst hfirst
          have htheirs := h.theirs.resolve_left (by simp [hfin])
          exact .inl (decide_eq_true ⟨hlast, htheirs.trans h.sequence_eq.symm⟩)
      | inr hnext => exact .inr (.inr hnext)
  | evicted | aborted | refused | writeFailed | wroteMute | completed => exact .inl rfl
  | wroteNothing hempty => exact absurd hempty hnone
  | _ => simp_all

/-- A segment that acknowledges the FIN of a session is awaited behind those that wait, unless it
closes the session. -/
theorem of_arrival {tcp : Packet.Tcp} {payload : List UInt8}
    (hturn : Turn σ (.arrival tcp payload) replies handed σ') (hlast : σ.status = .lastAck)
    (hrst : tcp.isRst = false) (hsyn : tcp.isSyn = false) (hack : tcp.isAck = true)
    (htheirs : tcp.acknowledgement = σ.sequence) :
    σ'.closed = true ∨
      Awaits σ.sequence (Arrival.segment ⟨tcp, payload⟩) σ.waiting.length σ' := by
  cases hturn with
  | queued =>
      rw [Session.heed_eq_hear tcp (by simp [hlast])]
      refine .inr ⟨hlast, rfl, .inr ?_, σ.waiting, [], rfl, rfl⟩
      rw [Session.hear, hack, if_pos rfl, htheirs]
  | refused => exact .inl rfl
  | _ => simp_all

end Awaits

namespace Engine

variable {e : Engine} {id : Nat} {c : Connection} {σ : Session} {replies : List Reply}
  {handed : List UInt8}

/-- The acknowledgements that arrive on a connection. -/
def ackNote (id : Nat) (e : Engine) (event : Event) : Option UInt32 := (e.deed id event).ack?

/-- The segments of a connection whose writes are completed. -/
def doneNote (id : Nat) (e : Engine) (event : Event) : Option Segment :=
  (e.store.connection? id).bind fun c => (e.deed id event).done? c.writer.segments

theorem Stands.doneNote_eq (h : e.Stands id σ replies handed) (event : Event) :
    doneNote id e event = (e.deed id event).done? σ.waiting := by
  obtain ⟨c, reads, writes, hc, rfl⟩ := h.connection?
  rw [doneNote, hc, Option.bind_some]
  rfl

theorem Stands.isClosed_eq (h : e.Stands id σ replies handed) :
    e.store.isClosed id = σ.closed := by
  obtain ⟨c, reads, writes, hc, rfl⟩ := h.connection?
  rw [Flow.Store.isClosed, hc]
  rfl

/-- Once a segment that ends the session is written the connection is closed. -/
theorem Stands.isClosed_of_done {sequence : UInt32} {g : Segment} {ahead : Nat}
    (h : e.Stands id σ replies handed) (hawaits : Awaits sequence g ahead σ)
    (hend : g.fin = true ∨ g.payload = []) (steps : List (Surroundings × Event))
    (hacks : g.fin = true ∨ ∀ a ∈ observe (ackNote id) e steps, a = sequence)
    (hdone : ahead < (observe (doneNote id) e steps).length) :
    (e.run steps).store.isClosed id = true := by
  have hrun : ∃ σ' replies' handed', (e.run steps).Stands id σ' replies' handed' ∧
      ((g.fin = true ∨ ∀ a ∈ observe (ackNote id) e steps, a = sequence) →
        σ'.closed = true ∨ ∃ n, Awaits sequence g n σ' ∧
          n + (observe (doneNote id) e steps).length ≤ ahead) := by
    refine h.run_induction (motive := fun steps σ _ _ =>
      (g.fin = true ∨ ∀ a ∈ observe (ackNote id) e steps, a = sequence) →
        σ.closed = true ∨ ∃ n, Awaits sequence g n σ ∧
          n + (observe (doneNote id) e steps).length ≤ ahead)
      (fun _ => .inr ⟨ahead, hawaits, Nat.le_refl _⟩) ?_ steps
    intro steps s event σ replies handed more data σ' hstands hturn ih hacks
    rw [observe_concat] at hacks ⊢
    rw [hstands.doneNote_eq, List.length_append]
    have hbefore := ih (hacks.imp_right fun hall a ha => hall a (List.mem_append_left _ ha))
    have hnow : g.fin = true ∨ ∀ a, ((e.run steps).deed id event).ack? = some a → a = sequence :=
      hacks.imp_right fun hall a ha =>
        hall a (List.mem_append_right _ (by simp [ackNote, ha]))
    have hone : (((e.run steps).deed id event).done? σ.waiting).toList.length ≤ 1 := by
      cases ((e.run steps).deed id event).done? σ.waiting <;> simp
    rcases hbefore with hclosed | ⟨n, hawaits, hle⟩
    · exact .inl (hturn.of_closed hclosed).1
    · rcases hawaits.turn hend hturn hnow with hclosed | ⟨hnone, hkept⟩ | ⟨m, rfl, hnext⟩
      · exact .inl hclosed
      · refine .inr ⟨n, hkept, ?_⟩
        rw [hnone]
        exact hle
      · exact .inr ⟨m, hnext, by omega⟩
  obtain ⟨σ', replies', handed', hstands, hafter⟩ := hrun
  rw [hstands.isClosed_eq]
  refine (hafter hacks).resolve_right ?_
  rintro ⟨n, -, hle⟩
  omega

/-! ## Rows -/

/-- A connection of a run stands where its conversation has brought it. -/
theorem stands_course (config : Config) (inspecting : Bool) (steps : List (Surroundings × Event))
    (hc : ((empty config inspecting).run steps).store.connection? id = some c) :
    ∃ reads writes replies handed,
      ((empty config inspecting).run steps).Stands id (.of c reads writes) replies handed ∧
        Course (.of c reads writes) replies := by
  obtain ⟨before, s, initial, d, after, hsteps, hopens⟩ :=
    exists_opens config inspecting steps (by rw [hc]; nofun)
  have hrun : (empty config inspecting).run steps =
      (((empty config inspecting).run before).step s (.segment initial d)).run after := by
    rw [hsteps, run_append]
    rfl
  obtain ⟨σ, replies, handed, hstands, hcourse⟩ := hopens.course after
  rw [← hrun] at hstands
  obtain ⟨c', reads, writes, hview, rfl⟩ := hstands
  cases (congrArg View.connection hview).symm.trans hc
  exact ⟨reads, writes, replies, handed, ⟨c, reads, writes, hview, rfl⟩, hcourse⟩

/-- In the last status, a segment that acknowledges the FIN removes the connection once it is
written. -/
theorem Coherent.isClosed_of_acknowledged (h : e.Coherent) (hc : e.store.connection? id = some c)
    (hopen : c.closed = false) {reads writes : Nat}
    (hstands : e.Stands id (.of c reads writes) replies handed) (hlast : c.status = .lastAck)
    {d : Datagram} {tcp : Packet.Tcp} (hd : Carries d c.key tcp) (hack : tcp.isAck = true)
    (hrst : tcp.isRst = false) (hsyn : tcp.isSyn = false)
    (htheirs : tcp.acknowledgement = c.sequence) (hend : tcp.isFin = true ∨ d.payload = [])
    (s : Surroundings) (initial : UInt32) (rest : List (Surroundings × Event))
    (hacks : tcp.isFin = true ∨
      ∀ a ∈ observe (ackNote id) (e.step s (.segment initial d)) rest, a = c.sequence)
    (hdone : c.writer.segments.length <
      (observe (doneNote id) (e.step s (.segment initial d)) rest).length) :
    ((e.step s (.segment initial d)).run rest).store.isClosed id = true := by
  have hpeek : e.store.table.peek? c.key = some id := h.accurate.peek?_iff.mpr ⟨c, hc, rfl, hopen⟩
  have hdeed : e.deed id (.segment initial d) = .arrival tcp d.payload := by
    have hfound : e.store.isOpen id = true := by
      rw [hstands.isOpen_eq]
      exact congrArg _ hopen
    simp only [deed, hd.tcp?, hd.key, hpeek, hfound, and_self, if_true]
  obtain ⟨more, data, σ', hturn, hstep⟩ := hstands.step s (.segment initial d)
  rw [hdeed] at hturn
  cases Awaits.of_arrival hturn hlast hrst hsyn hack htheirs with
  | inl hclosed =>
      obtain ⟨σ'', _, _, hafter, -, hkept⟩ := hstep.run rest
      rw [hafter.isClosed_eq]
      exact (hkept hclosed).1
  | inr hawaits => exact hstep.isClosed_of_done hawaits hend rest hacks hdone

/-- **Closing rows**: for every open connection of every run, a SYN behind the handshake resets it,
with a RST where no FIN was sent and silently behind the FIN; a failed read resets it where no FIN
was sent, and says nothing behind the FIN; and there, a segment that acknowledges the FIN and is
bare or carries a FIN removes the connection once it is written, provided that a bare one is not
followed by another acknowledgement before. -/
theorem run_closing (config : Config) (inspecting : Bool) (steps : List (Surroundings × Event)) :
    let e := (empty config inspecting).run steps
    ∀ id c, e.store.connection? id = some c → c.closed = false →
      c.status ≠ .closeWait ∧
      (∀ s initial d tcp, Carries d c.key tcp → tcp.isSyn = true → tcp.isRst = false →
        (c.status = .established →
          e.Closes (e.step s (.segment initial d)) id c.key (rst s c)) ∧
        (c.status = .lastAck → e.Closes (e.step s (.segment initial d)) id c.key [])) ∧
      (∀ s x, Task.read id ∈ e.tasks → c.status ≠ .lastAck →
        e.Closes (e.step s (.received id (.error x))) id c.key (rst s c)) ∧
      (∀ s x, c.status = .lastAck → e.Sends (e.step s (.received id (.error x))) id []) ∧
      ∀ s initial d tcp, Carries d c.key tcp → c.status = .lastAck → tcp.isAck = true →
        tcp.isRst = false → tcp.isSyn = false → tcp.acknowledgement = c.sequence →
        (tcp.isFin = true ∨ d.payload = []) →
        let e' := e.step s (.segment initial d)
        ∀ rest, (tcp.isFin = true ∨ ∀ a ∈ observe (ackNote id) e' rest, a = c.sequence) →
          c.writer.segments.length < (observe (doneNote id) e' rest).length →
          (e'.run rest).store.isClosed id = true ∧
            (e'.run rest).store.table.peek? c.key ≠ some id := by
  intro e id c hc hopen
  have hcoherent : e.Coherent := coherent_run config inspecting steps
  obtain ⟨reads, writes, replies, handed, hstands, hcourse⟩ :=
    stands_course config inspecting steps hc
  have hspoken : Spoken c.status false (replies.map Reply.kind) := hopen ▸ hcourse.spoken
  have hroom (hstatus : c.status ≠ .synSent) : Headers.tcpPayloadOffset ≤ e.config.mtu := by
    have hsent : e.sent id ≠ [] := by
      rw [hstands.sent_eq]
      intro hnone
      exact hstatus (hspoken.eq_nil_iff.mp (by rw [List.map_eq_nil_iff.mp hnone]; rfl))
    exact (roomy_run config inspecting steps).of_sent hsent
  refine ⟨hspoken.ne_closeWait, ?_, ?_, fun s x hlast => sends_failedRead hc hlast s x, ?_⟩
  · intro s initial d tcp hd hsyn hrst
    refine ⟨fun hstatus => ?_, fun hstatus => ?_⟩
    · have hcloses := hcoherent.closes_syn hc hopen (hroom (by simp [hstatus])) (by simp [hstatus])
        hd hsyn hrst s initial
      rwa [hstatus] at hcloses
    · have hcloses := hcoherent.closes_syn hc hopen (hroom (by simp [hstatus])) (by simp [hstatus])
        hd hsyn hrst s initial
      rwa [hstatus] at hcloses
  · intro s x htask hlast
    have hread : 0 < reads := by
      have hcount : e.tasks.count (.read id) = reads := by
        obtain ⟨c', reads', writes', hview, hof⟩ := hstands
        exact (congrArg View.reads hview).trans (congrArg Session.reads hof)
      rw [← hcount]
      exact List.count_pos_iff.mpr htask
    have hclosing : c.status.isClosing = false := by
      have hwait := hspoken.ne_closeWait
      cases hstatus : c.status <;> simp_all [Status.isClosing]
    have hcloses := hcoherent.closes_read hc hopen (hroom (hcourse.ne_synSent_of_reads hread)) hlast
      htask s x
    rwa [hclosing] at hcloses
  · intro s initial d tcp hd hlast hack hrst hsyn htheirs hend e' rest hacks hdone
    have hclosed := hcoherent.isClosed_of_acknowledged hc hopen hstands hlast hd hack hrst hsyn
      htheirs hend s initial rest hacks hdone
    refine ⟨hclosed, fun hpeek => ?_⟩
    have hafter : (e'.run rest).Coherent := by
      have hrun : e'.run rest = (empty config inspecting).run
          (steps ++ (s, .segment initial d) :: rest) := by
        rw [run_append]
        rfl
      rw [hrun]
      exact coherent_run config inspecting _
    obtain ⟨c', hc', -, hopen'⟩ := hafter.accurate.peek?_iff.mp hpeek
    rw [Flow.Store.isClosed, hc', Option.any_some] at hclosed
    exact Bool.false_ne_true (hopen'.symm.trans hclosed)

/-! ## Samples -/

namespace Sample

/-- A segment of the device that acknowledges something. -/
def answer (flags : UInt8) (sequence acknowledgement : UInt32) (payload : List UInt8) :
    Datagram :=
  { datagram flags sequence payload with
    headers := .tcp ⟨⟨10, 0, 0, 2⟩, 5000⟩ target flags sequence acknowledgement }

/-- The flow of the segments of the device. -/
def flow : Flow.Key := ⟨target, 5000⟩

/-- A handshake of the device. -/
def greeting : List (Surroundings × Event) :=
  [(surroundings, .segment 100 (datagram Flag.syn 7 [])),
    (surroundings, .connected 0 target (.ok ())),
    (surroundings, .segment 0 (answer Flag.ack 8 101 []))]

/-- A handshake, and the FIN of the device behind it. -/
def closing : List (Surroundings × Event) :=
  greeting ++ [(surroundings, .segment 0 (answer (Flag.fin ||| Flag.ack) 8 101 [])),
    (surroundings, .wrote 0 (.ok ()))]

end Sample

/-- The rows at a connection behind its handshake, and at the same connection behind its FIN. -/
theorem closing_of_sample :
    let e := (empty Sample.config false).run Sample.greeting
    let e' := (empty Sample.config false).run Sample.closing
    let last := e'.step Sample.surroundings (.segment 0 (Sample.answer Flag.ack 9 102 []))
    let written := [(Sample.surroundings, .wrote 0 (.ok ()))]
    (∃ c, e.store.connection? 0 = some c ∧ c.closed = false ∧ c.status = .established ∧
      c.key = Sample.flow ∧
      e.Closes (e.step Sample.surroundings (.segment 0 (Sample.answer Flag.syn 7 0 []))) 0
        Sample.flow (rst Sample.surroundings c) ∧
      Task.read 0 ∈ e.tasks ∧
      e.Closes (e.step Sample.surroundings (.received 0 (.error .notConnected))) 0 Sample.flow
        (rst Sample.surroundings c)) ∧
    ∃ c, e'.store.connection? 0 = some c ∧ c.closed = false ∧ c.status = .lastAck ∧
      c.key = Sample.flow ∧ c.sequence = 102 ∧
      e'.Closes (e'.step Sample.surroundings (.segment 0 (Sample.answer Flag.syn 7 0 []))) 0
        Sample.flow [] ∧
      e'.Sends (e'.step Sample.surroundings (.received 0 (.error .notConnected))) 0 [] ∧
      (∀ a ∈ observe (ackNote 0) last written, a = c.sequence) ∧
      c.writer.segments.length < (observe (doneNote 0) last written).length ∧
      (last.run written).store.isClosed 0 = true ∧
      (last.run written).store.table.peek? Sample.flow ≠ some 0 := by
  intro e e' last written
  have hfacts : (e.store.connection? 0).map (fun c => (c.closed, c.status, c.key)) =
      some (false, .established, Sample.flow) := by decide +kernel
  have hfacts' : (e'.store.connection? 0).map
      (fun c => (c.closed, c.status, c.key, c.sequence, c.writer.segments)) =
      some (false, .lastAck, Sample.flow, 102, []) := by decide +kernel
  obtain ⟨c, hc, hfacts⟩ := Option.map_eq_some_iff.mp hfacts
  obtain ⟨c', hc', hfacts'⟩ := Option.map_eq_some_iff.mp hfacts'
  simp only [Prod.mk.injEq] at hfacts hfacts'
  obtain ⟨hopen, hstatus, hkey⟩ := hfacts
  obtain ⟨hopen', hstatus', hkey', hsequence', hsegments'⟩ := hfacts'
  have htask : Task.read 0 ∈ e.tasks := by decide +kernel
  have hacks : ∀ a ∈ observe (ackNote 0) last written, a = c'.sequence := by
    have hnone : observe (ackNote 0) last written = [] := by decide +kernel
    rw [hnone]
    nofun
  have hdone : c'.writer.segments.length < (observe (doneNote 0) last written).length := by
    rw [hsegments']
    decide +kernel
  obtain ⟨-, hsyn, hread, -⟩ := run_closing Sample.config false Sample.greeting 0 c hc hopen
  obtain ⟨-, hsyn', -, hsilent, hlast⟩ :=
    run_closing Sample.config false Sample.closing 0 c' hc' hopen'
  rw [hkey] at hsyn hread
  rw [hkey'] at hsyn' hlast
  refine ⟨⟨c, hc, hopen, hstatus, hkey, ?_, htask, ?_⟩,
    c', hc', hopen', hstatus', hkey', hsequence', ?_, hsilent _ _ hstatus', hacks, hdone, ?_⟩
  · exact (hsyn _ _ _ _ ⟨rfl, rfl⟩ (by decide) (by decide)).1 hstatus
  · exact hread _ _ htask (by simp [hstatus])
  · exact (hsyn' _ _ _ _ ⟨rfl, rfl⟩ (by decide) (by decide)).2 hstatus'
  · exact hlast _ _ _ _ ⟨rfl, rfl⟩ hstatus' (by decide) (by decide) (by decide) hsequence'.symm
      (.inr rfl) _ (.inr hacks) hdone

/-- Behind the FIN of a connection that is read from, a SYN is answered by no RST, a failed read
removes nothing, and neither does an acknowledgement of the FIN that comes with data, or one that
another acknowledgement follows before it is written. -/
theorem lastAck_exceptions :
    let e := (empty Sample.config false).run Sample.closing
    let s := Sample.surroundings
    let acknowledged := (s, Event.segment 0 (Sample.answer Flag.ack 9 102 []))
    let followed := (s, Event.segment 0 (Sample.answer Flag.ack 9 101 []))
    let data := (s, Event.segment 0 (Sample.answer (Flag.psh ||| Flag.ack) 9 102 [1]))
    let written := (s, Event.wrote 0 (.ok ()))
    ((e.store.connection? 0).map fun c => (c.closed, c.status, c.sequence)) =
        some (false, .lastAck, 102) ∧
      Task.read 0 ∈ e.tasks ∧
      (e.step s (.segment 0 (Sample.answer Flag.syn 7 0 []))).outbox = e.outbox ∧
      (e.step s (.received 0 (.error .notConnected))).store.table.peek? Sample.flow = some 0 ∧
      (e.run [data, written]).store.table.peek? Sample.flow = some 0 ∧
      (e.run [acknowledged, followed, written]).store.table.peek? Sample.flow = some 0 := by
  decide +kernel

end Engine

end FlowRelay.Tcp
