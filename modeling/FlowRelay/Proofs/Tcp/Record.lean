import FlowRelay.Proofs.Flow.Blind
import FlowRelay.Proofs.Http.Malformed
import FlowRelay.Proofs.Tcp.Pieces
import FlowRelay.Proofs.Tcp.Stale

/-!
# FlowRelay.Proofs.Tcp.Record

What there is of inspection in the engine, and how the engine goes on with it.

1. *Inspectors* (`Inspector.of`): a piece of one direction moves on the reassembler of that
   direction alone, and a reassembler goes on where it is behind the pieces so far (`behind`).
2. *Records* (`Record`): the inspectors of all connections and the bodies that were delivered.
3. *Acts* (`record_perform`): the engine touches its record only where it shows a piece to an
   inspector, or accepts a flow.
4. *Steps* (`records_step`): a step shows the piece that passes through the connection that it is
   about, if there is one, and nothing else.
-/

namespace FlowRelay

/-! ## Inspectors -/

namespace Http

namespace Inspector

/-- The reassembler of a direction. -/
def of (inspector : Inspector) : Direction → Reassembler
  | .request => inspector.request
  | .response => inspector.response

variable {inspector : Inspector} {direction other : Direction} {data : List UInt8}

/-- Data of one direction completes what the reassembler of that direction completes. -/
theorem snd_push : (inspector.push direction data).2 = ((inspector.of direction).push data).2 := by
  cases direction <;> rfl

/-- Data of one direction is pushed into the reassembler of that direction. -/
theorem of_push_self :
    (inspector.push direction data).1.of direction = ((inspector.of direction).push data).1 := by
  cases direction <;> rfl

/-- The directions do not touch each other. -/
theorem of_push_of_ne (h : direction ≠ other) :
    (inspector.push direction data).1.of other = inspector.of other := by
  cases direction <;> cases other <;> first | rfl | exact absurd rfl h

end Inspector

namespace Reassembler

/-- The reassembler behind pieces of a stream. -/
def behind (r : Reassembler) (pieces : List (List UInt8)) : Reassembler :=
  pieces.foldl (fun r piece => (r.push piece).1) r

theorem behind_append (r : Reassembler) (xs ys : List (List UInt8)) :
    r.behind (xs ++ ys) = (r.behind xs).behind ys := List.foldl_append

/-- What is delivered behind pieces depends on the reassembler behind them alone. -/
theorem collect_append (r : Reassembler) (xs ys : List (List UInt8)) :
    r.collect (xs ++ ys) = r.collect xs ++ (r.behind xs).collect ys := by
  induction xs generalizing r with
  | nil => rfl
  | cons x xs ih =>
      have hbehind : r.behind (x :: xs) = (r.push x).1.behind xs := rfl
      rw [List.cons_append, collect, collect, hbehind]
      rcases r.push x with ⟨r', refused | bodies⟩
      · exact ih r'
      · simp only [ih r', List.append_assoc]

/-- The bodies that one piece delivers. -/
theorem collect_singleton (r : Reassembler) (piece : List UInt8) :
    r.collect [piece] = match (r.push piece).2 with
      | .error _ => []
      | .ok bodies => bodies := by
  rw [collect]
  rcases r.push piece with ⟨r', refused | bodies⟩
  · rfl
  · exact List.append_nil bodies

end Reassembler

end Http

namespace Tcp

open Packet

/-! ## Records -/

/-- What there is of inspection: the flow and the inspector of every connection, and the bodies that
were delivered. -/
structure Record where
  flows : List (Flow.Key × Option Http.Inspector)
  delivered : List Http.Delivery

namespace Record

/-- A piece of a connection is shown to its inspector, if it has one. -/
def push (r : Record) (id : Nat) (direction : Http.Direction) (data : List UInt8) : Record :=
  match r.flows[id]? with
  | some (key, some inspector) =>
    { flows := r.flows.set id (key, some (inspector.push direction data).1)
      delivered := r.delivered ++ ((inspector.of direction).collect [data]).map fun body =>
        ⟨key, direction, body⟩ }
  | some (_, none) | none => r

/-- A flow is opened. -/
def add (r : Record) (key : Flow.Key) (inspector : Option Http.Inspector) : Record :=
  { r with flows := r.flows ++ [(key, inspector)] }

end Record

namespace Record

variable {r : Record} {key : Flow.Key} {inspector : Http.Inspector} {i id : Nat}
  {direction : Http.Direction} {data : List UInt8}

/-- A connection with an inspector shows it the data and delivers what that completes. -/
theorem push_of_some (h : r.flows[id]? = some (key, some inspector)) :
    r.push id direction data =
      { flows := r.flows.set id (key, some (inspector.push direction data).1)
        delivered := r.delivered ++ ((inspector.of direction).collect [data]).map fun body =>
          ⟨key, direction, body⟩ } := by
  rw [push, h]

/-- A connection without an inspector takes no notice of data. -/
theorem push_of_none (h : ∀ key inspector, r.flows[id]? ≠ some (key, some inspector)) :
    r.push id direction data = r := by
  rw [push]
  split
  · next hflow => exact absurd hflow (h _ _)
  · rfl
  · rfl

/-- What was delivered before stays in front. -/
theorem delivered_prefix_push (r : Record) (id : Nat) (direction : Http.Direction)
    (data : List UInt8) : r.delivered <+: (r.push id direction data).delivered := by
  rw [push]
  split
  · exact List.prefix_append _ _
  · exact List.prefix_rfl
  · exact List.prefix_rfl

/-- Data of one connection does not show in the others. -/
theorem getElem?_push_of_ne (h : id ≠ i) :
    (r.push id direction data).flows[i]? = r.flows[i]? := by
  rw [push]
  split
  · exact List.getElem?_set_ne h
  · rfl
  · rfl

end Record

/-- A deed that moves data in neither direction. -/
structure Deed.IsIdle (deed : Deed) : Prop where
  yields : deed.yields = none
  written : ∀ waiting, deed.payload? waiting = none

namespace Deed.IsIdle

theorem other : IsIdle .other := ⟨rfl, fun _ => rfl⟩

theorem arrival {tcp : Packet.Tcp} {payload : List UInt8} : IsIdle (.arrival tcp payload) :=
  ⟨rfl, fun _ => rfl⟩

theorem connected {result : Except Fault Unit} : IsIdle (.connected result) :=
  ⟨rfl, fun _ => rfl⟩

theorem took {count : Nat} : IsIdle (.took count) := ⟨rfl, fun _ => rfl⟩

end Deed.IsIdle

/-! ## What is shown -/

namespace Connection

variable {config : Config} {s : Surroundings} {told mute : List Act}

theorem shown_begun (s : Surroundings) (w : Work) : (begun s w).filterMap Act.shown? = [] := by
  unfold begun
  split <;> rfl

theorem shown_tell (c : Connection) (flags : UInt8) (payload : List UInt8)
    (htold : told.filterMap Act.shown? = []) (hmute : mute.filterMap Act.shown? = []) :
    (c.tell config s flags payload told mute).filterMap Act.shown? = [] := by
  unfold tell
  split
  · exact htold
  · exact hmute

/-- A reset shows nothing to the inspector. -/
theorem shown_resetActs (c : Connection) (config : Config) (s : Surroundings) :
    (c.resetActs config s).filterMap Act.shown? = [] := by
  unfold resetActs
  split
  · rfl
  · exact c.shown_tell _ _ rfl rfl

/-- The end of a connect shows nothing to the inspector. -/
theorem shown_connectedActs (c : Connection) (config : Config) (s : Surroundings)
    (result : Except Fault Unit) :
    (c.connectedActs config s result).filterMap Act.shown? = [] := by
  unfold connectedActs
  split
  · rfl
  · cases result with
    | error x => exact (c.advance Progress.restart).shown_resetActs config s
    | ok _ => exact c.shown_tell _ _ (shown_begun s .read) rfl

/-- The part of a segment that is taken is not shown yet. -/
theorem shown_tookActs (c : Connection) (count : Nat) :
    (c.tookActs count).filterMap Act.shown? = [] := by
  unfold tookActs
  split <;> rfl

theorem shown_enqueueActs (c : Connection) (config : Config) (s : Surroundings) (writes : Bool)
    (g : Segment) : (c.enqueueActs config s writes g).filterMap Act.shown? = [] := by
  unfold enqueueActs
  split
  · split
    · rfl
    · exact c.shown_resetActs config s
  · exact c.shown_resetActs config s
  · exact c.shown_resetActs config s

/-- A segment that arrives is not shown before it is written. -/
theorem shown_segmentActs (c : Connection) (config : Config) (s : Surroundings) (writes : Bool)
    (tcp : Packet.Tcp) (payload : List UInt8) :
    (c.segmentActs config s writes tcp payload).filterMap Act.shown? = [] := by
  have hreset := c.shown_resetActs config s
  have henqueue := (c.advance (·.settle tcp)).shown_enqueueActs config s writes
    ⟨tcp.sequence, payload, tcp.isFin⟩
  unfold segmentActs
  refine (List.filterMap_cons_none rfl).trans ?_
  split
  · rfl
  split
  · split
    · rfl
    · exact hreset
  split
  · rfl
  split
  · exact hreset
  refine (List.filterMap_cons_none rfl).trans ?_
  split
  · rfl
  · exact henqueue

/-- What is read is shown, while the connection is open and the device does not close it. -/
theorem shown_receivedActs (c : Connection) (config : Config) (s : Surroundings)
    (result : Except Fault (List UInt8)) (reads writes : Nat) :
    (c.receivedActs config s result).filterMap Act.shown? =
      ((Session.of c reads writes).piece? (.received result) .response).toList.map
        (Http.Direction.response, ·) := by
  unfold receivedActs
  by_cases hlate : c.closed = true ∨ c.status = .lastAck
  · have hnone : (Session.of c reads writes).piece? (.received result) .response = none := by
      rcases hlate with hclosed | hlast
      · exact Session.piece?_of_closed hclosed _ _
      · simp [Session.piece?, Session.of, hlast]
    rw [if_pos (by simpa using hlate), hnone]
    rfl
  · have hopen : c.closed = false := by simp_all
    have hlast : c.status ≠ .lastAck := by simp_all
    have hpiece : (Session.of c reads writes).piece? (.received result) .response =
        (Deed.received result).yields := by
      simp [Session.piece?, Session.of, hopen, hlast]
    rw [if_neg (by simp [hopen, hlast]), hpiece]
    cases result with
    | error x => exact c.shown_resetActs config s
    | ok data =>
        cases data with
        | nil =>
            simp only
            split
            · rfl
            · exact c.shown_tell _ _ rfl rfl
        | cons b rest =>
            exact congrArg ((Http.Direction.response, b :: rest) :: ·)
              (c.shown_tell _ (b :: rest) (shown_begun s .read) rfl)

/-- A written payload is shown before it is acknowledged. -/
theorem shown_completeActs (c : Connection) (config : Config) (s : Surroundings) (g : Segment) :
    (c.completeActs config s g).filterMap Act.shown? =
      if g.payload.isEmpty then [] else [(.request, g.payload)] := by
  have hcounted : (countActs g).filterMap Act.shown? =
      if g.payload.isEmpty then [] else [(.request, g.payload)] := by
    unfold countActs
    split <;> rfl
  have hacknowledge {flags : UInt8} {acts : List Act} (hacts : acts.filterMap Act.shown? = []) :
      (c.acknowledgeActs config s g flags acts).filterMap Act.shown? = [] :=
    (c.advance (·.acknowledge g)).shown_tell _ _ hacts rfl
  unfold completeActs
  rw [List.filterMap_append, hcounted]
  refine Eq.trans ?_ (List.append_nil _)
  congr 1
  split
  · split
    · exact hacknowledge rfl
    · exact hacknowledge rfl
  · split
    · exact hacknowledge rfl
    · split <;> rfl

/-- A written segment is shown as the piece of the request that it is, unless it comes too late. -/
theorem shown_wroteActs (c : Connection) (config : Config) (s : Surroundings)
    (result : Except Fault Unit) (reads writes : Nat) :
    (c.wroteActs config s result).filterMap Act.shown? =
      ((Session.of c reads writes).piece? (.wrote result) .request).toList.map
        (Http.Direction.request, ·) := by
  unfold wroteActs
  cases hwaiting : c.writer.segments with
  | nil =>
      have hnone : (Session.of c reads writes).piece? (.wrote result) .request = none := by
        simp [Session.piece?, Session.of, hwaiting, Deed.payload?, Deed.written?]
      rw [hnone]
      rfl
  | cons g rest =>
      simp only
      refine (List.filterMap_cons_none rfl).trans ?_
      cases hclosed : c.closed with
      | true =>
          rw [Session.piece?_of_closed hclosed]
          cases (if g.payload.isEmpty then .ok () else result) <;> rfl
      | false =>
          have hpayload : (Deed.wrote result).payload? (Session.of c reads writes).waiting = _ :=
            Deed.payload?_wrote hwaiting result
          rw [Session.piece?_request hclosed, hpayload]
          cases hwritten : if g.payload.isEmpty then .ok () else result with
          | error x =>
              have hfailed : ¬ g.payload.isEmpty = true ∧ result = .error x := by
                split at hwritten
                · contradiction
                · next hdata => exact ⟨hdata, hwritten⟩
              have hreset : (c.resetActs config s ++ [Act.finish .write]).filterMap Act.shown? =
                  [] := by
                rw [List.filterMap_append, c.shown_resetActs]
                rfl
              rw [if_pos (Or.inr fun hok => by cases hfailed.2.symm.trans hok)]
              exact hreset
          | ok _ =>
              refine (List.filterMap_cons_none rfl).trans ?_
              simp only [Bool.false_eq_true, if_false]
              rw [c.shown_completeActs]
              by_cases hdata : g.payload.isEmpty = true
              · rw [if_pos hdata, if_pos (Or.inl hdata)]
                rfl
              · rw [if_neg hdata] at hwritten
                rw [if_neg hdata, if_neg (by simp [hdata, hwritten])]
                rfl

end Connection

namespace Engine

variable {e : Engine} {s : Surroundings} {id : Nat} {c : Connection}

/-- What there is of inspection. -/
def record (e : Engine) : Record :=
  ⟨e.store.connections.map fun c => (c.key, c.inspector), e.delivered⟩

/-- There is a key and an inspector for every connection. -/
theorem getElem?_flows (e : Engine) (id : Nat) :
    e.record.flows[id]? = (e.store.connection? id).map fun c => (c.key, c.inspector) :=
  List.getElem?_map

/-! ## Acts -/

/-- What leaves key and inspector alone leaves the record. -/
theorem record_update {f : Connection → Connection} (e : Engine) (id : Nat)
    (h : ∀ c, ((f c).key, (f c).inspector) = (c.key, c.inspector)) :
    (e.update id f).record = e.record :=
  congrArg (Record.mk · e.delivered) (Flow.map_modify_of_eq h e.store.connections id)

/-- Closing a connection leaves the record. -/
theorem record_terminate (e : Engine) (id : Nat) : (e.terminate id).record = e.record := by
  unfold terminate Flow.Store.terminate
  cases e.store.connection? id with
  | none => rfl
  | some c => exact record_update e id (f := Connection.close) fun _ => rfl

/-- What is shown to an inspector is recorded. -/
theorem record_inspect (e : Engine) (id : Nat) (direction : Http.Direction)
    (data : List UInt8) :
    (e.inspect id direction data).record = e.record.push id direction data := by
  rw [Record.push, getElem?_flows]
  unfold inspect
  cases hc : e.store.connection? id with
  | none => rfl
  | some c =>
      cases hinspector : c.inspector with
      | none => simp [hinspector]
      | some inspector =>
          have hflows : (e.store.connections.modify id fun c =>
              { c with inspector := some (inspector.push direction data).1 }).map
                (fun c => (c.key, c.inspector)) =
              e.record.flows.set id (c.key, some (inspector.push direction data).1) := by
            have : Inhabited Connection := ⟨c⟩
            have hget : e.store.connections[id]? = some c := hc
            rw [List.modify_eq_set, hget, List.map_set]
            rfl
          have hbodies : (inspector.of direction).collect [data] =
              match (inspector.push direction data).2 with
              | .error _ => []
              | .ok bodies => bodies := by
            rw [Http.Reassembler.collect_singleton, Http.Inspector.snd_push]
          simp only [Option.map_some, hinspector, hbodies]
          cases (inspector.push direction data).2 with
          | error x =>
              rw [List.map_nil, List.append_nil]
              exact congrArg (Record.mk · e.delivered) hflows
          | ok bodies => exact congrArg (Record.mk · _) hflows

/-- Acts are recorded as far as they show data to the inspector. -/
theorem record_perform (e : Engine) (id : Nat) (a : Act) :
    (e.perform id a).record =
      a.shown?.elim e.record fun (direction, data) => e.record.push id direction data := by
  cases a with
  | inspect direction data => exact record_inspect e id direction data
  | advance f => exact record_update e id fun _ => rfl
  | terminate => exact record_terminate e id
  | say flags payload =>
      simp only [perform, say]
      split <;> rfl
  | hand payload =>
      simp only [perform, hand]
      split <;> rfl
  | begin | finish => rfl

/-- Acts record what they show, in order. -/
theorem record_carryOut (e : Engine) (id : Nat) (acts : List Act) :
    (e.carryOut id acts).record =
      (acts.filterMap Act.shown?).foldl (fun r (direction, data) => r.push id direction data)
        e.record := by
  induction acts generalizing e with
  | nil => rfl
  | cons a acts ih =>
      rw [carryOut_cons, ih, record_perform, List.filterMap_cons]
      cases a.shown? <;> rfl

/-- What is done for a connection shows nothing if nothing of it does. -/
theorem record_actsFor (e : Engine) (id : Nat) (xs : List Act)
    (hxs : xs.filterMap Act.shown? = []) {acts : Connection → List Act}
    (h : ∀ c, (acts c).filterMap Act.shown? = []) :
    (e.carryOut id (xs ++ e.actsFor id acts)).record = e.record := by
  rw [record_carryOut, List.filterMap_append, hxs, actsFor]
  cases e.store.connection? id with
  | none => rfl
  | some c =>
      rw [Option.elim_some, h c]
      rfl

/-- What is done for a connection shows the piece that passes through it. -/
theorem record_piece (e : Engine) (id : Nat) (xs : List Act) (hxs : xs.filterMap Act.shown? = [])
    {acts : Connection → List Act} {piece? : Connection → Option (List UInt8)}
    {direction : Http.Direction}
    (h : ∀ c, (acts c).filterMap Act.shown? = (piece? c).toList.map (direction, ·)) :
    (e.carryOut id (xs ++ e.actsFor id acts)).record =
      ((e.store.connection? id).bind piece?).elim e.record (e.record.push id direction) := by
  rw [record_carryOut, List.filterMap_append, hxs, actsFor]
  cases e.store.connection? id with
  | none => rfl
  | some c =>
      rw [Option.elim_some, h c, Option.bind_some]
      cases piece? c <;> rfl

/-- A flow that is accepted gets its inspector, and is the last one. -/
theorem record_accept (e : Engine) (s : Surroundings) (c : Connection) (target : Net.Endpoint) :
    (e.follow s (.accept c target)).record = e.record.add c.key c.inspector := by
  rw [follow, record_carryOut, Tcp.Connection.shown_begun]
  exact congrArg (Record.mk · e.delivered)
    (Flow.Store.map_openNew (fun _ => rfl) e.store s.now e.config.tcpIdle c)

/-- A packet of the device adds the flow that it opens, if it opens one. -/
theorem record_segment (e : Engine) (s : Surroundings) (initial : UInt32) (d : Datagram) :
    (e.step s (.segment initial d)).record = e.record ∨
      ∃ key, (e.step s (.segment initial d)).record = e.record.add key (e.inspectorOf key) := by
  rw [step_eq]
  have hplan := e.plan_segment s initial d
  generalize e.plan s (.segment initial d) = p at hplan
  cases hplan with
  | idle => exact .inl rfl
  | @find tcp id htcp hpeek =>
      left
      refine record_actsFor { e with store := (e.store.find? ⟨d.destination, d.source.port⟩).1 } id
        [] rfl fun c => ?_
      split
      · rfl
      · exact Tcp.Connection.shown_segmentActs ..
  | accept => exact .inr ⟨_, record_accept e s _ _⟩
  | refuse =>
      left
      rw [follow]
      cases rejection? e.config s d.headers _ <;> rfl

theorem record_closeAll (e : Engine) : e.closeAll.1.record = e.record :=
  congrArg (Record.mk · e.delivered)
    (Flow.Store.map_closeAllOf (fun _ => rfl) { e.store with table := e.store.table.clear.1 }
      (e.store.table.clear.2.map Prod.snd))

/-! ## Steps -/

/-- A deed that passes no data is noted as no piece. -/
theorem pieceNote_of_isIdle {event : Event} (h : (e.deed id event).IsIdle)
    (direction : Http.Direction) : pieceNote id direction e event = none := by
  rw [pieceNote, Option.bind_eq_none_iff]
  intro c _
  unfold Session.piece?
  split
  · rfl
  · cases direction with
    | request => exact h.written _
    | response =>
        simp only [h.yields]
        exact ite_self none

/-- Nothing passes through a connection in a step that is not about it. -/
theorem isIdle_of_ne {event : Event} (h : event.connection? ≠ some id) (e : Engine) :
    (e.deed id event).IsIdle := by
  cases event with
  | segment initial d =>
      simp only [deed]
      split
      · exact .other
      · split
        · exact .arrival
        · exact .other
  | connected i target result =>
      rw [deed, if_neg fun hi => h (congrArg some hi.1)]
      exact .other
  | received i result =>
      rw [deed, if_neg fun hi => h (congrArg some hi.1)]
      exact .other
  | took i count =>
      rw [deed, if_neg fun hi => h (congrArg some hi.1)]
      exact .other
  | wrote i result =>
      rw [deed, if_neg fun hi => h (congrArg some hi.1)]
      exact .other
  | abandoned task => exact .other
  | closeAll => exact .other

/-- What a step may do to the record. -/
inductive Records (e : Engine) (event : Event) (r : Record) : Prop
  | silent (hnone : ∀ id direction, pieceNote id direction e event = none)
      (hsame : r = e.record)
  | opened {key : Flow.Key} (hnone : ∀ id direction, pieceNote id direction e event = none)
      (hopen : r = e.record.add key (e.inspectorOf key))
  | shown {id : Nat} {direction : Http.Direction} {data : List UInt8}
      (hevent : event.connection? = some id)
      (hpiece : pieceNote id direction e event = some data)
      (hother : ∀ other, other ≠ direction → pieceNote id other e event = none)
      (hpush : r = e.record.push id direction data)

/-- Work that ends shows what passes in its direction. -/
theorem records_of_piece {event : Event} {direction : Http.Direction} {r : Record}
    (hevent : event.connection? = some id)
    (hother : ∀ other, other ≠ direction → pieceNote id other e event = none)
    (hr : r = (pieceNote id direction e event).elim e.record (e.record.push id direction)) :
    e.Records event r := by
  cases hpiece : pieceNote id direction e event with
  | some data =>
      rw [hpiece] at hr
      exact .shown hevent hpiece hother hr
  | none =>
      rw [hpiece] at hr
      refine .silent (fun i other => ?_) hr
      by_cases hi : event.connection? = some i
      · cases hevent.symm.trans hi
        by_cases hdirection : other = direction
        · rwa [hdirection]
        · exact hother other hdirection
      · exact pieceNote_of_isIdle (isIdle_of_ne hi e) other

/-- The end of a read records what was read. -/
theorem records_received (e : Engine) (s : Surroundings) (id : Nat)
    (result : Except Fault (List UInt8)) :
    e.Records (.received id result) (e.step s (.received id result)).record := by
  have hother : ∀ other, other ≠ .response →
      pieceNote id other e (.received id result) = none := by
    rintro (_ | _) hne
    · rw [pieceNote, Option.bind_eq_none_iff]
      intro c _
      simp only [deed, Session.piece?]
      split
      · rfl
      · split <;> rfl
    · exact absurd rfl hne
  refine records_of_piece rfl hother ?_
  by_cases htask : e.tasks.contains (.read id)
  · have hdeed : e.deed id (.received id result) = .received (result.map (·.take e.readRoom)) :=
      if_pos ⟨rfl, htask⟩
    rw [step_eq, plan, if_pos htask, pieceNote, hdeed]
    exact record_piece e id [.finish .read] rfl fun c => c.shown_receivedActs ..
  · have hidle : (e.deed id (.received id result)).IsIdle := by
      rw [deed, if_neg fun h => htask h.2]
      exact .other
    rw [step, if_neg htask, pieceNote_of_isIdle hidle]
    rfl

/-- The end of a write records what was written. -/
theorem records_wrote (e : Engine) (s : Surroundings) (id : Nat) (result : Except Fault Unit) :
    e.Records (.wrote id result) (e.step s (.wrote id result)).record := by
  have hother : ∀ other, other ≠ .request → pieceNote id other e (.wrote id result) = none := by
    rintro (_ | _) hne
    · exact absurd rfl hne
    · rw [pieceNote, Option.bind_eq_none_iff]
      intro c _
      simp only [deed, Session.piece?]
      split
      · rfl
      · split
        · rfl
        · split <;> rfl
  refine records_of_piece rfl hother ?_
  by_cases htask : e.tasks.contains (.write id)
  · have hdeed : e.deed id (.wrote id result) = .wrote result := if_pos ⟨rfl, htask⟩
    rw [step_eq, plan, if_pos htask, pieceNote, hdeed]
    exact record_piece e id [] rfl fun c => c.shown_wroteActs ..
  · have hidle : (e.deed id (.wrote id result)).IsIdle := by
      rw [deed, if_neg fun h => htask h.2]
      exact .other
    rw [step, if_neg htask, pieceNote_of_isIdle hidle]
    rfl

/-- **Steps**: a step shows the piece that passes through the connection that it is about, it opens
a flow, or nothing of inspection happens. -/
theorem records_step (e : Engine) (s : Surroundings) (event : Event) :
    e.Records event (e.step s event).record := by
  cases event with
  | segment initial d =>
      have hnone (id : Nat) := pieceNote_of_isIdle
        (isIdle_of_ne (show (Event.segment initial d).connection? ≠ some id from nofun) e)
      rcases record_segment e s initial d with hsame | ⟨key, hopen⟩
      · exact .silent hnone hsame
      · exact .opened hnone hopen
  | connected i target result =>
      refine .silent (fun id => pieceNote_of_isIdle ?_) ?_
      · simp only [deed]
        split
        · exact .connected
        · exact .other
      · rw [step_eq, plan]
        split
        · exact record_actsFor e i [.finish (.connect target)] rfl fun c =>
            c.shown_connectedActs e.config s result
        · rfl
  | received i result => exact records_received e s i result
  | took i count =>
      refine .silent (fun id => pieceNote_of_isIdle ?_) ?_
      · simp only [deed]
        split
        · exact .took
        · exact .other
      · rw [step_eq, plan]
        split
        · exact record_actsFor e i [] rfl fun c => c.shown_tookActs count
        · rfl
  | wrote i result => exact records_wrote e s i result
  | abandoned task =>
      refine .silent (fun id => pieceNote_of_isIdle .other) ?_
      simp only [step]
      split <;> rfl
  | closeAll => exact .silent (fun id => pieceNote_of_isIdle .other) (record_closeAll e)

end Engine

end Tcp

end FlowRelay
