import FlowRelay.Proofs.Tcp.Record
import FlowRelay.Proofs.Tcp.Transparency

/-!
# FlowRelay.Proofs.Tcp.Inspection

The bodies that a connection delivers are those that a reassembler makes of each of its streams.

1. *Deliveries* (`deliveries`): the bodies of a run, each with the connection that its step is
   about.
2. *Watches* (`Record.Watches`, `watches_step`): the inspector of a connection is where its pieces
   have led it, and the bodies that were delivered are those that the pieces gave.
3. *Runs* (`run_inspected`): so it is at every point of a run, and nothing but the bodies tells
   whether there is inspection.
4. *Beyond the streams* (`delivered_ne_passed`): a body may come of a piece that the device is never
   sent, and a payload that is written too late gives none.
-/

namespace FlowRelay.Tcp

open Packet

/-! ## Watches -/

namespace Record

variable {r : Record} {key : Flow.Key} {inspector : Http.Inspector} {id : Nat}
  {direction : Http.Direction} {data : List UInt8}

/-- The inspector of a connection is where the pieces that passed have led it, and the bodies that
were delivered are those that they gave. -/
structure Watches (r : Record) (inspected : Flow.Key → Bool) (id : Nat)
    (pieces : Http.Direction → List (List UInt8))
    (bodies : Http.Direction → List Http.Delivery) : Prop where
  unborn : r.flows[id]? = none → ∀ direction, pieces direction = [] ∧ bodies direction = []
  plain : ∀ key, r.flows[id]? = some (key, none) →
    inspected key = false ∧ ∀ direction, bodies direction = []
  watched : ∀ key inspector, r.flows[id]? = some (key, some inspector) →
    inspected key = true ∧ ∀ direction,
      inspector.of direction = Http.Reassembler.empty.behind (pieces direction) ∧
        bodies direction = (Http.Reassembler.empty.collect (pieces direction)).map fun body =>
          ⟨key, direction, body⟩

namespace Watches

variable {inspected : Flow.Key → Bool} {pieces pieces' : Http.Direction → List (List UInt8)}
  {bodies bodies' : Http.Direction → List Http.Delivery}

theorem of_flow {r' : Record} (h : r.Watches inspected id pieces bodies)
    (hflow : r'.flows[id]? = r.flows[id]?) : r'.Watches inspected id pieces bodies := by
  refine ⟨?_, ?_, ?_⟩ <;> rw [hflow]
  · exact h.unborn
  · exact h.plain
  · exact h.watched

/-- A flow that is opened starts with new reassemblers if it is inspected. -/
theorem add (h : r.Watches inspected id pieces bodies) (key : Flow.Key) :
    (r.add key (if inspected key then some .empty else none)).Watches inspected id pieces
      bodies := by
  rcases Nat.lt_trichotomy id r.flows.length with hlt | rfl | hgt
  · exact h.of_flow (List.getElem?_append_left hlt)
  · have hunborn := h.unborn (List.getElem?_eq_none (Nat.le_refl _))
    have hflow : (r.add key (if inspected key then some .empty else none)).flows[
        r.flows.length]? = some (key, if inspected key then some .empty else none) :=
      List.getElem?_concat_length
    refine ⟨fun _ => hunborn, fun key' hplain => ?_, fun key' inspector hwatched => ?_⟩
    · rw [hflow] at hplain
      cases hinspected : inspected key with
      | true => simp [hinspected] at hplain
      | false =>
          simp only [hinspected] at hplain
          cases hplain
          exact ⟨hinspected, fun direction => (hunborn direction).2⟩
    · rw [hflow] at hwatched
      cases hinspected : inspected key with
      | false => simp [hinspected] at hwatched
      | true =>
          simp only [hinspected] at hwatched
          cases hwatched
          refine ⟨hinspected, fun direction => ?_⟩
          rw [(hunborn direction).1, (hunborn direction).2]
          cases direction <;> exact ⟨rfl, rfl⟩
  · refine h.of_flow ?_
    rw [List.getElem?_eq_none (by simp [Record.add]; omega), List.getElem?_eq_none (by omega)]

/-- A piece leads the reassembler of its direction on, which gives the bodies that are delivered. -/
theorem push (h : r.Watches inspected id pieces bodies)
    (hflow : r.flows[id]? = some (key, some inspector))
    (hpiece : pieces' direction = pieces direction ++ [data])
    (hbody : bodies' direction = bodies direction ++
      ((inspector.of direction).collect [data]).map fun body => ⟨key, direction, body⟩)
    (hother : ∀ other, other ≠ direction →
      pieces' other = pieces other ∧ bodies' other = bodies other) :
    (r.push id direction data).Watches inspected id pieces' bodies' := by
  obtain ⟨hinspected, hsofar⟩ := h.watched key inspector hflow
  have hlt : id < r.flows.length := (List.getElem?_eq_some_iff.mp hflow).1
  have hflow' : (r.push id direction data).flows[id]? =
      some (key, some (inspector.push direction data).1) := by
    rw [push_of_some hflow]
    exact List.getElem?_set_self hlt
  refine ⟨fun hnone => ?_, fun key' hplain => ?_, fun key' inspector' hwatched => ?_⟩
  · rw [hflow'] at hnone
    contradiction
  · rw [hflow'] at hplain
    cases hplain
  · rw [hflow'] at hwatched
    cases hwatched
    refine ⟨hinspected, fun other => ?_⟩
    by_cases hdirection : other = direction
    · subst hdirection
      obtain ⟨hbehind, hbodies⟩ := hsofar other
      rw [hpiece, hbody, Http.Inspector.of_push_self, Http.Reassembler.behind_append,
        Http.Reassembler.collect_append, ← hbehind, hbodies, List.map_append]
      exact ⟨rfl, rfl⟩
    · obtain ⟨hpieces, hbodies⟩ := hother other hdirection
      rw [hpieces, hbodies, Http.Inspector.of_push_of_ne (Ne.symm hdirection)]
      exact hsofar other

/-- Nobody looks at the pieces of a flow that is not inspected. -/
theorem pass (h : r.Watches inspected id pieces bodies)
    (hplain : r.flows[id]? = some (key, none)) : r.Watches inspected id pieces' bodies where
  unborn hnone := by
    rw [hplain] at hnone
    contradiction
  plain := h.plain
  watched _ _ hwatched := by
    rw [hplain] at hwatched
    cases hwatched

end Watches

end Record

namespace Engine

variable {e : Engine} {s : Surroundings} {id : Nat}

/-! ## Deliveries -/

/-- What a step delivers, with the connection that the step is about. -/
def deliveryOf (e : Engine) (s : Surroundings) (event : Event) :
    List (Option Nat × Http.Delivery) :=
  ((e.step s event).delivered.drop e.delivered.length).map (event.connection?, ·)

/-- The bodies that the steps of a run deliver, each with the connection that its step is about. -/
def deliveries (e : Engine) : List (Surroundings × Event) → List (Option Nat × Http.Delivery)
  | [] => []
  | (s, event) :: rest => e.deliveryOf s event ++ (e.step s event).deliveries rest

theorem deliveries_append (e : Engine) (xs ys : List (Surroundings × Event)) :
    e.deliveries (xs ++ ys) = e.deliveries xs ++ (e.run xs).deliveries ys := by
  induction xs generalizing e with
  | nil => rfl
  | cons x rest ih =>
      obtain ⟨s, event⟩ := x
      rw [List.cons_append, deliveries, deliveries, ih, List.append_assoc]
      rfl

theorem deliveries_concat (e : Engine) (xs : List (Surroundings × Event)) (s : Surroundings)
    (event : Event) : e.deliveries (xs ++ [(s, event)]) = e.deliveries xs ++
      (e.run xs).deliveryOf s event := by
  rw [deliveries_append, deliveries, deliveries, List.append_nil]

/-- The bodies of a direction that were delivered for a connection. -/
def deliveredFor (id : Nat) (direction : Http.Direction)
    (bodies : List (Option Nat × Http.Delivery)) : List Http.Delivery :=
  (bodies.filter fun (i, d) => i = some id ∧ d.direction = direction).map Prod.snd

theorem deliveredFor_append (id : Nat) (direction : Http.Direction)
    (xs ys : List (Option Nat × Http.Delivery)) :
    deliveredFor id direction (xs ++ ys) =
      deliveredFor id direction xs ++ deliveredFor id direction ys := by
  simp [deliveredFor]

/-- Bodies of one direction that a step about a connection delivers. -/
theorem deliveredFor_of_step (id : Nat) {direction : Http.Direction}
    {bodies : List Http.Delivery} (h : ∀ d ∈ bodies, d.direction = direction)
    (other : Http.Direction) :
    deliveredFor id other (bodies.map (some id, ·)) = if direction = other then bodies else [] := by
  have hkept : ∀ d ∈ bodies, decide (some id = some id ∧ d.direction = other) =
      decide (direction = other) := fun d hd => by simp [h d hd]
  rw [deliveredFor, List.filter_map, List.map_map]
  refine (List.map_id _).trans ((List.filter_congr hkept).trans ?_)
  split
  · next hsame => simp [hsame]
  · next hne => simp [hne]

/-- A step delivers nothing for a connection that it is not about. -/
theorem deliveredFor_of_ne {event : Event} (h : event.connection? ≠ some id)
    (direction : Http.Direction) (e : Engine) (s : Surroundings) :
    deliveredFor id direction (e.deliveryOf s event) = [] := by
  rw [deliveredFor, List.map_eq_nil_iff, List.filter_eq_nil_iff]
  intro x hx
  obtain ⟨d, -, rfl⟩ := List.mem_map.mp hx
  simp [h]

theorem deliveryOf_of_same {e : Engine} {s : Surroundings} {event : Event}
    (h : (e.step s event).record.delivered = e.record.delivered) : e.deliveryOf s event = [] := by
  have hsame : (e.step s event).delivered = e.delivered := h
  rw [deliveryOf, hsame, List.drop_length]
  rfl

/-- A piece that passes through a connection is shown to its inspector, if it has one. -/
theorem watches_of_shown {inspected : Flow.Key → Bool}
    {pieces : Http.Direction → List (List UInt8)} {bodies : Http.Direction → List Http.Delivery}
    {event : Event} {direction : Http.Direction} {data : List UInt8}
    (h : e.record.Watches inspected id pieces bodies) (hevent : event.connection? = some id)
    (hpiece : pieceNote id direction e event = some data)
    (hother : ∀ other, other ≠ direction → pieceNote id other e event = none)
    (hpush : (e.step s event).record = e.record.push id direction data) :
    (e.step s event).record.Watches inspected id
      (fun direction => pieces direction ++ (pieceNote id direction e event).toList)
      (fun direction => bodies direction ++ deliveredFor id direction (e.deliveryOf s event)) := by
  cases hflow : e.record.flows[id]? with
  | none =>
      rw [getElem?_flows, Option.map_eq_none_iff] at hflow
      rw [pieceNote_of_none direction e event hflow] at hpiece
      contradiction
  | some flow =>
      obtain ⟨key, inspector?⟩ := flow
      cases inspector? with
      | none =>
          have hsame : (e.step s event).record = e.record := by
            rw [hpush, Record.push_of_none]
            intro key inspector hsome
            rw [hflow] at hsome
            cases hsome
          rw [deliveryOf_of_same (by rw [hsame]), hsame]
          simpa only [deliveredFor, List.filter_nil, List.map_nil, List.append_nil] using
            h.pass hflow
      | some inspector =>
          have hdelivered : (e.step s event).delivered = e.delivered ++
              ((inspector.of direction).collect [data]).map fun body => ⟨key, direction, body⟩ := by
            have hrecord := congrArg Record.delivered hpush
            rw [Record.push_of_some hflow] at hrecord
            exact hrecord
          have hdirection : ∀ d ∈ ((inspector.of direction).collect [data]).map fun body =>
              (⟨key, direction, body⟩ : Http.Delivery), d.direction = direction := by simp
          have hbodies := deliveredFor_of_step id hdirection
          rw [deliveryOf, hdelivered, List.drop_left, hevent, hpush]
          refine h.push hflow ?_ ?_ fun other hne => ?_
          · rw [hpiece]
            rfl
          · rw [hbodies, if_pos rfl]
          · rw [hother other hne, hbodies, if_neg (Ne.symm hne)]
            exact ⟨List.append_nil _, List.append_nil _⟩

/-- A step keeps the record of a connection in line with the pieces that pass through it. -/
theorem watches_step {inspected : Flow.Key → Bool}
    {pieces : Http.Direction → List (List UInt8)} {bodies : Http.Direction → List Http.Delivery}
    (h : e.record.Watches inspected id pieces bodies)
    (hinspector : ∀ key, e.inspectorOf key = if inspected key then some .empty else none)
    (s : Surroundings) (event : Event) :
    (e.step s event).record.Watches inspected id
      (fun direction => pieces direction ++ (pieceNote id direction e event).toList)
      (fun direction => bodies direction ++ deliveredFor id direction (e.deliveryOf s event)) := by
  have hnothing (direction : Http.Direction) : deliveredFor id direction [] = [] := rfl
  rcases records_step e s event with ⟨hnone, hsame⟩ | ⟨hnone, hopen⟩ |
    ⟨hevent, hpiece, hother, hpush⟩
  · rw [deliveryOf_of_same (by rw [hsame]), hsame]
    simpa only [hnone, hnothing, Option.toList_none, List.append_nil] using h
  · rw [deliveryOf_of_same (by rw [hopen]; rfl), hopen, hinspector]
    simpa only [hnone, hnothing, Option.toList_none, List.append_nil] using h.add _
  · next i direction data =>
    by_cases hi : i = id
    · subst hi
      exact watches_of_shown h hevent hpiece hother hpush
    · have hne : event.connection? ≠ some id := by
        rw [hevent]
        simpa using hi
      have hnone (direction : Http.Direction) := pieceNote_of_isIdle (isIdle_of_ne hne e) direction
      have hflow : (e.step s event).record.flows[id]? = e.record.flows[id]? := by
        rw [hpush]
        exact Record.getElem?_push_of_ne hi
      simpa only [hnone, deliveredFor_of_ne hne, Option.toList_none, List.append_nil] using
        h.of_flow hflow

theorem run_watches (config : Config) (inspecting : Bool) (steps : List (Surroundings × Event))
    (id : Nat) :
    ((empty config inspecting).run steps).record.Watches
      (fun key => inspecting && config.inspectPorts.contains key.destination.port) id
      (fun direction => observe (pieceNote id direction) (empty config inspecting) steps)
      fun direction => deliveredFor id direction ((empty config inspecting).deliveries steps) := by
  induction steps using List.reverseRecOn with
  | nil => exact ⟨fun _ _ => ⟨rfl, rfl⟩, nofun, nofun⟩
  | append_singleton steps x ih =>
      obtain ⟨s, event⟩ := x
      have hinspector (key : Flow.Key) : ((empty config inspecting).run steps).inspectorOf key =
          if inspecting && config.inspectPorts.contains key.destination.port then some .empty
          else none := by
        rw [inspectorOf, inspecting_run, config_run]
      simp only [run_concat, observe_concat, deliveries_concat, deliveredFor_append]
      exact watches_step ih hinspector s event

/-- No step takes a body back. -/
theorem delivered_step (e : Engine) (s : Surroundings) (event : Event) :
    (e.step s event).delivered = e.delivered ++ (e.deliveryOf s event).map Prod.snd := by
  have hprefix : e.record.delivered <+: (e.step s event).record.delivered := by
    rcases records_step e s event with ⟨-, hsame⟩ | ⟨-, hopen⟩ | ⟨-, -, -, hpush⟩
    · rw [hsame]
    · rw [hopen]
      exact List.prefix_rfl
    · rw [hpush]
      exact Record.delivered_prefix_push _ _ _ _
  obtain ⟨more, hmore⟩ : e.delivered <+: (e.step s event).delivered := hprefix
  rw [deliveryOf, ← hmore, List.drop_left, List.map_map]
  exact congrArg _ (List.map_id more).symm

/-- Every body is delivered in a step of the run. -/
theorem delivered_run (e : Engine) (steps : List (Surroundings × Event)) :
    (e.run steps).delivered = e.delivered ++ (e.deliveries steps).map Prod.snd := by
  induction steps generalizing e with
  | nil => exact (List.append_nil _).symm
  | cons x rest ih =>
      obtain ⟨s, event⟩ := x
      rw [deliveries, List.map_append, ← List.append_assoc, ← delivered_step]
      exact ih (e.step s event)

/-- In each direction an inspected connection delivers what a new reassembler returns for the pieces
that passed through it in that direction. -/
theorem deliveredFor_run (config : Config) (inspecting : Bool)
    (steps : List (Surroundings × Event)) {c : Connection}
    (hc : ((empty config inspecting).run steps).store.connection? id = some c)
    (direction : Http.Direction) :
    deliveredFor id direction ((empty config inspecting).deliveries steps) =
      if inspecting && config.inspectPorts.contains c.key.destination.port then
        (Http.Reassembler.empty.collect
          (observe (pieceNote id direction) (empty config inspecting) steps)).map fun body =>
            ⟨c.key, direction, body⟩
      else [] := by
  have hwatches := run_watches config inspecting steps id
  have hflow := (getElem?_flows _ id).trans (congrArg (Option.map _) hc)
  cases hinspector : c.inspector with
  | none =>
      rw [Option.map_some, hinspector] at hflow
      obtain ⟨hinspected, hbodies⟩ := hwatches.plain c.key hflow
      rw [hinspected, hbodies]
      rfl
  | some inspector =>
      rw [Option.map_some, hinspector] at hflow
      obtain ⟨hinspected, hbodies⟩ := hwatches.watched c.key inspector hflow
      rw [hinspected, (hbodies direction).2]
      rfl

/-- **Inspection**: whether there is inspection, and of which ports, shows neither to the device nor
to the network nor in the table.  Every body is delivered in a step of the run, and in each
direction an inspected connection delivers what a new reassembler returns for the pieces that passed
through it in that direction alone.  These are the data that the device is sent and the payloads
that are written, up to one of each when the connection closes. -/
theorem run_inspected (config : Config) (inspecting : Bool) (steps : List (Surroundings × Event)) :
    let e := (empty config inspecting).run steps
    let bodies := (empty config inspecting).deliveries steps
    (∀ ports inspecting',
      let e' := (empty { config with inspectPorts := ports } inspecting').run steps
      e'.outbox = e.outbox ∧ e'.handed = e.handed ∧ e'.store.table = e.store.table) ∧
    e.delivered = bodies.map Prod.snd ∧
    ∀ id c, e.store.connection? id = some c →
      (∀ direction, deliveredFor id direction bodies =
        if inspecting && config.inspectPorts.contains c.key.destination.port then
          (Http.Reassembler.empty.collect
            (observe (pieceNote id direction) (empty config inspecting) steps)).map fun body =>
              ⟨c.key, direction, body⟩
        else []) ∧
      ∃ replies, e.sent id = replies.map some ∧
        Account c.closed replies (observe (payloadNote id) (empty config inspecting) steps)
          fun direction => observe (pieceNote id direction) (empty config inspecting) steps := by
  intro e bodies
  refine ⟨fun ports inspecting' => ?_, delivered_run (empty config inspecting) steps,
    fun id c hc => ⟨deliveredFor_run config inspecting steps hc,
      run_account config inspecting steps hc⟩⟩
  have hplain := plain_run_of_plain (plain_empty config inspecting ports inspecting') steps
  have houtbox := congrArg outbox hplain
  have hhanded := congrArg handed hplain
  have htable := congrArg (·.store.table) hplain
  exact ⟨houtbox, hhanded, htable⟩

/-! ## Beyond the streams -/

namespace Sample

/-- Settings that inspect the flow of the samples. -/
def inspected : Config := { config with inspectPorts := [target.port] }

/-- A message with a body of one byte that fits into one read. -/
def message : List UInt8 :=
  Http.lineBytes "x".toList ++
    (Http.lineBytes "content-length:1".toList ++ (Http.Message.lineEnd ++ [0x41]))

/-- The message is read, and the device is sent it. -/
def heard : List (Surroundings × Event) :=
  [.segment 100 (datagram Flag.syn 7 []), .connected 0 target (.ok ()),
    .received 0 (.ok message)].map fun event => (surroundings, event)

/-- The message is read when nobody takes packets for the device any more. -/
def lost : List (Surroundings × Event) :=
  [(surroundings, .segment 100 (datagram Flag.syn 7 [])),
    (surroundings, .connected 0 target (.ok ())),
    ({ surroundings with deviceOpen := false }, .received 0 (.ok message))]

/-- The message is written when the device has aborted the connection. -/
def late : List (Surroundings × Event) :=
  [.segment 100 (datagram Flag.syn 7 []), .connected 0 target (.ok ()),
    .segment 0 (datagram Flag.ack 8 message), .segment 0 (datagram Flag.rst 8 []),
    .wrote 0 (.ok ())].map fun event => (surroundings, event)

theorem push_message : Http.Reassembler.empty.push message = (.empty, .ok [[0x41]]) := by
  have hhead : Http.Message.empty.scanUnit message = .next ⟨.fixed 1, [], false⟩ [0x41] none := by
    decide +kernel
  have hbody : Http.Message.scanUnit ⟨.fixed 1, [], false⟩ [0x41] =
      .next .empty [] (some [0x41]) := by decide +kernel
  apply Http.Reassembler.push_of_ok
  rw [Http.Reassembler.push?_empty_eq, Http.Message.scan_of_next hhead,
    Http.Message.scan_of_next hbody, Http.Message.scan_nil]
  rfl

theorem collect_message : Http.Reassembler.empty.collect [message] = [[0x41]] := by
  rw [Http.Reassembler.collect_singleton, push_message]

/-- Whether there is inspection does not matter for what the runs are. -/
theorem plain_run (steps : List (Surroundings × Event)) :
    ((empty inspected true).run steps).plain = ((empty config false).run steps).plain :=
  plain_run_of_plain (plain_empty config false [target.port] true) steps

/-- The connection of the samples is inspected. -/
theorem exists_inspected (steps : List (Surroundings × Event))
    (h : (((empty config false).run steps).store.connection? 0).map Connection.key =
      some ⟨target, 5000⟩) :
    ∃ c, ((empty inspected true).run steps).store.connection? 0 = some c ∧
      c.key = ⟨target, 5000⟩ ∧
      (true && inspected.inspectPorts.contains c.key.destination.port) = true := by
  obtain ⟨c, hc, hkey⟩ := Option.map_eq_some_iff.mp ((map_key_of_plain (plain_run steps) 0).trans h)
  refine ⟨c, hc, hkey, ?_⟩
  rw [hkey]
  rfl

end Sample

/-- The body of a message that is read and sent. -/
theorem inspected_of_message :
    let e := (empty Sample.inspected true).run Sample.heard
    ∃ c, e.store.connection? 0 = some c ∧ c.key = ⟨Sample.target, 5000⟩ ∧
      deliveredFor 0 .response ((empty Sample.inspected true).deliveries Sample.heard) =
        [⟨⟨Sample.target, 5000⟩, .response, [0x41]⟩] := by
  intro e
  obtain ⟨c, hc, hkey, hinspected⟩ := Sample.exists_inspected Sample.heard (by decide +kernel)
  obtain ⟨-, -, hbodies⟩ := run_inspected Sample.inspected true Sample.heard
  have hpieces : observe (pieceNote 0 .response) (empty Sample.inspected true) Sample.heard =
      [Sample.message] := by decide +kernel
  refine ⟨c, hc, hkey, ?_⟩
  rw [(hbodies 0 c hc).1 .response, if_pos hinspected, hpieces, Sample.collect_message, hkey]
  rfl

/-- A body is delivered of what is read although the device is not sent it, and none of a payload
that is written when its connection is closed: the bodies are not those of the data that is
forwarded. -/
theorem delivered_ne_passed :
    (¬ ∀ (config : Config) (inspecting : Bool) (steps : List (Surroundings × Event)) (id : Nat)
        (c : Connection) (replies : List Reply),
      ((empty config inspecting).run steps).store.connection? id = some c →
      (inspecting && config.inspectPorts.contains c.key.destination.port) = true →
      ((empty config inspecting).run steps).sent id = replies.map some →
      deliveredFor id .response ((empty config inspecting).deliveries steps) =
        (Http.Reassembler.empty.collect (dataOf replies)).map fun body =>
          ⟨c.key, .response, body⟩) ∧
    ¬ ∀ (config : Config) (inspecting : Bool) (steps : List (Surroundings × Event)) (id : Nat)
        (c : Connection),
      ((empty config inspecting).run steps).store.connection? id = some c →
      (inspecting && config.inspectPorts.contains c.key.destination.port) = true →
      deliveredFor id .request ((empty config inspecting).deliveries steps) =
        (Http.Reassembler.empty.collect
          (observe (payloadNote id) (empty config inspecting) steps)).map fun body =>
            ⟨c.key, .request, body⟩ := by
  refine ⟨fun hliteral => ?_, fun hliteral => ?_⟩
  · obtain ⟨c, hc, -, hinspected⟩ := Sample.exists_inspected Sample.lost (by decide +kernel)
    have hsent : ((empty Sample.inspected true).run Sample.lost).sent 0 =
        [(⟨Flag.syn ||| Flag.ack, 100, 8, []⟩ : Reply)].map some :=
      (sent_of_plain (Sample.plain_run Sample.lost) 0).trans (by decide +kernel)
    have hpieces : observe (pieceNote 0 .response) (empty Sample.inspected true) Sample.lost =
        [Sample.message] := by decide +kernel
    have hbodies := hliteral Sample.inspected true Sample.lost 0 c _ hc hinspected hsent
    rw [deliveredFor_run _ _ _ hc, if_pos hinspected, hpieces, Sample.collect_message] at hbodies
    exact List.cons_ne_nil _ _ hbodies
  · obtain ⟨c, hc, -, hinspected⟩ := Sample.exists_inspected Sample.late (by decide +kernel)
    have hpieces : observe (pieceNote 0 .request) (empty Sample.inspected true) Sample.late =
        [] := by decide +kernel
    have hpayloads : observe (payloadNote 0) (empty Sample.inspected true) Sample.late =
        [Sample.message] := by decide +kernel
    have hbodies := hliteral Sample.inspected true Sample.late 0 c hc hinspected
    rw [deliveredFor_run _ _ _ hc, if_pos hinspected, hpieces, hpayloads, Sample.collect_message]
      at hbodies
    exact List.cons_ne_nil _ _ hbodies.symm

end Engine

end FlowRelay.Tcp
