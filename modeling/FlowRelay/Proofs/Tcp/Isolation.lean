import FlowRelay.Proofs.Flow.Isolation
import FlowRelay.Proofs.Tcp.Moves

/-!
# FlowRelay.Proofs.Tcp.Isolation

What there is of one flow in the engine, and that no other flow matters to it.

1. *One flow* (`only`): the engine without the connections, the work, the packets, the data and the
   bodies of all other flows.
2. *Acts*: an act for a connection of the flow does there what it does where there is nothing else
   (`Owns.only_perform`), and one for another connection does not show (`Move.only`).
3. *Plans* (`Coherent.plan_only`): a step about the flow has the same plan where there is nothing
   else, with other numbers for the connections.
4. *Runs* (`isolates`): a run shows of a flow what the steps that are about the flow do alone.
-/

namespace FlowRelay.Tcp

open Packet

/-- The work for the connections that have a place, by their places. -/
def Task.place? (place : Nat → Option Nat) (task : Task) : Option Task :=
  (place task.connection).map task.work.task

/-- Work for a connection of the flow is found at its place. -/
theorem Work.place?_task {place : Nat → Option Nat} {id n : Nat} (h : place id = some n)
    (w : Work) : (w.task id).place? place = some (w.task n) := by
  rw [Task.place?, w.connection_task, h, w.work_task, Option.map_some]

/-- Work for a connection of another flow has no place. -/
theorem Work.place?_task_of_none {place : Nat → Option Nat} {id : Nat} (h : place id = none)
    (w : Work) : (w.task id).place? place = none := by
  rw [Task.place?, w.connection_task, h, Option.map_none]

/-- Where no two connections have the same place, no two tasks do. -/
theorem Work.eq_of_place? {place : Nat → Option Nat} {id n : Nat}
    (hplace : ∀ i, place i = some n → i = id) {w : Work} {task : Task}
    (h : task.place? place = some (w.task n)) : task = w.task id := by
  obtain ⟨n', hn', hsame⟩ := Option.map_eq_some_iff.mp h
  have hconnection := congrArg Task.connection hsame
  have hwork := congrArg Task.work hsame
  simp only [connection_task, work_task] at hconnection hwork
  rw [hconnection] at hn'
  rw [← task.task_work, hplace _ hn', hwork]

namespace Act

variable {a : Act} {id n : Nat} {place : Nat → Option Nat}

/-- An act does to the work of a flow what it does to all work. -/
theorem filterMap_work (hplace : place id = some n) (hinjective : ∀ i, place i = some n → i = id)
    (a : Act) (tasks : List Task) :
    (a.work id tasks).filterMap (Task.place? place) =
      a.work n (tasks.filterMap (Task.place? place)) := by
  cases a with
  | begin w =>
      simp only [work, List.filterMap_append, List.filterMap_cons, w.place?_task hplace,
        List.filterMap_nil]
  | finish w =>
      exact filterMap_erase_of_some (w.place?_task hplace) (fun _ => Work.eq_of_place? hinjective)
        tasks
  | advance | terminate | say | inspect | hand => rfl

/-- Acts for a connection of another flow begin and end no work of the flow. -/
theorem filterMap_work_of_none (hplace : place id = none) (a : Act) (tasks : List Task) :
    (a.work id tasks).filterMap (Task.place? place) = tasks.filterMap (Task.place? place) := by
  cases a with
  | begin w =>
      simp only [work, List.filterMap_append, List.filterMap_cons, w.place?_task_of_none hplace,
        List.filterMap_nil, List.append_nil]
  | finish w => exact filterMap_erase_of_none (w.place?_task_of_none hplace) tasks
  | advance | terminate | say | inspect | hand => rfl

/-- Data that an act hands over is found at the place of its connection. -/
theorem among_handed (hplace : place id = some n) (a : Act) :
    Handed.among place (a.handed id) = a.handed n := by
  cases a with
  | hand payload =>
      simp only [handed]
      split
      · rfl
      · simp [Handed.among, hplace]
  | advance | terminate | say | inspect | begin | finish => rfl

/-- Data that an act for another flow hands over does not show. -/
theorem among_handed_of_none (hplace : place id = none) (a : Act) :
    Handed.among place (a.handed id) = [] := by
  cases a with
  | hand payload =>
      simp only [handed]
      split
      · rfl
      · simp [Handed.among, hplace]
  | advance | terminate | say | inspect | begin | finish => rfl

/-- The packet that an act sends for a connection belongs to its flow. -/
theorem flow?_packet? {c : Connection} {config : Config} {k : Flow.Key} {packet : List UInt8}
    (hanswers : c.template.Answers k) (h : a.packet? config (some c) = some packet) :
    Packet.flow? packet = some k := by
  cases a with
  | say flags payload =>
      obtain ⟨-, n, hok, rfl⟩ := Connection.packet?_eq_some h
      exact hanswers.flow?_writeTcpResponse hok
  | advance | terminate | inspect | hand | begin | finish => contradiction

/-- The bodies that an act delivers for a connection belong to its flow. -/
theorem key_of_mem_delivered {c : Connection} {x : Http.Delivery}
    (h : x ∈ a.delivered (some c)) : x.key = c.key := by
  cases a with
  | inspect direction data =>
      obtain ⟨body, -, rfl⟩ := List.mem_map.mp h
      rfl
  | advance | terminate | say | hand | begin | finish => contradiction

end Act

attribute [ext] Engine

namespace Engine

variable {e e' : Engine} {s : Surroundings} {k k' : Flow.Key} {id n : Nat} {c : Connection}

/-! ## One flow -/

/-- The engine without everything of other flows.  Connections are known by their places among those
of the flow. -/
def only (e : Engine) (k : Flow.Key) : Engine where
  config := e.config
  inspecting := e.inspecting
  store := e.store.only k
  tasks := e.tasks.filterMap (Task.place? (e.store.place k))
  outbox := Outgoing.among (e.store.place k) k e.outbox
  handed := Handed.among (e.store.place k) e.handed
  delivered := e.delivered.filter (·.key = k)

theorem only_empty (config : Config) (inspecting : Bool) (k : Flow.Key) :
    (empty config inspecting).only k = empty config inspecting := rfl

/-- The connections, and what the device and the outbound sockets were told. -/
def trace (e : Engine) : Flow.Trace Connection := ⟨e.store, e.outbox, e.handed⟩

/-- What there is of a flow in one engine is all there is in another one. -/
structure Matches (e : Engine) (k : Flow.Key) (t : Engine) : Prop
    extends e.trace.Matches k t.trace where
  bodies : e.delivered.filter (·.key = k) = t.delivered
  work : e.tasks.filterMap (Task.place? (e.store.place k)) = t.tasks

/-- An engine matches what there is of the flow in it. -/
theorem matches_only (e : Engine) (k : Flow.Key) : e.Matches k (e.only k) where
  toMatches := e.trace.matches_only k
  bodies := rfl
  work := rfl

/-- Where the places stay, only the store changes. -/
theorem only_withStore {store : Flow.Store Connection}
    (hplace : store.place k = e.store.place k) :
    { e with store }.only k = { e.only k with store := store.only k } := by
  simp only [only, hplace]

/-- Connections that come do not change what there is of the others. -/
theorem Coherent.only_withStore (h : e.Coherent) {store : Flow.Store Connection}
    (hplace : ∀ id < e.store.connections.length, store.place k id = e.store.place k id) :
    { e with store }.only k = { e.only k with store := store.only k } := by
  have htasks : e.tasks.filterMap (Task.place? (store.place k)) =
      e.tasks.filterMap (Task.place? (e.store.place k)) :=
    List.filterMap_congr fun task htask => by
      rw [Task.place?, Task.place?, hplace _ (h.tasks task htask)]
  have houtbox := Outgoing.among_congr (k := k) fun p hp id hid => hplace id (h.outbox p hp id hid)
  have hhanded := Handed.among_congr fun x hx => hplace _ (h.handed x hx)
  simp only [only, htasks, houtbox, hhanded]

/-! ## Acts -/

theorem Owns.place (h : e.Owns k id) : e.store.place k id = some (e.store.rank k id) := by
  obtain ⟨c, hc, hkey, -⟩ := h
  exact Flow.Store.place_of_key hc hkey

/-- A connection of another flow has no place. -/
theorem Owns.place_of_ne (h : e.Owns k' id) (hne : k' ≠ k) : e.store.place k id = none := by
  obtain ⟨c, hc, hkey, -⟩ := h
  exact Flow.Store.place_of_key_ne hc (show c.key ≠ k from hkey ▸ hne)

/-- The packets that an act sends for a connection of the flow count, with its place. -/
theorem Owns.among_packet? (h : e.Owns k id) (a : Act) :
    Outgoing.among (e.store.place k) k
        ((a.packet? e.config (e.store.connection? id)).toList.map (⟨some id, ·⟩)) =
      (a.packet? e.config (e.store.connection? id)).toList.map
        (⟨some (e.store.rank k id), ·⟩) := by
  have hplace := h.place
  obtain ⟨c, hc, rfl, haddressed⟩ := h
  rw [hc]
  cases hpacket : a.packet? e.config (some c) with
  | none => rfl
  | some packet =>
      have hpost := Outgoing.among_post (Act.flow?_packet? haddressed.answers hpacket)
        (e.store.place c.key) [] (some id)
      rw [Option.bind_some, hplace] at hpost
      exact hpost

/-- Acts for a connection of another flow send no packets of the flow. -/
theorem Owns.among_packet?_of_ne (h : e.Owns k' id) (hne : k' ≠ k) (a : Act) :
    Outgoing.among (e.store.place k) k
      ((a.packet? e.config (e.store.connection? id)).toList.map (⟨some id, ·⟩)) = [] := by
  obtain ⟨c, hc, rfl, haddressed⟩ := h
  rw [hc]
  cases hpacket : a.packet? e.config (some c) with
  | none => rfl
  | some packet =>
      have hflow := Act.flow?_packet? haddressed.answers hpacket
      have hnothing : Outgoing.among (e.store.place k) k ([] ++ [⟨some id, packet⟩]) = [] :=
        Outgoing.among_post_of_ne hflow hne (some id)
      exact hnothing

/-- The bodies that an act delivers for a connection of the flow belong to the flow. -/
theorem Owns.key_delivered (h : e.Owns k id) {a : Act} {x : Http.Delivery}
    (hx : x ∈ a.delivered (e.store.connection? id)) : x.key = k := by
  obtain ⟨c, hc, hkey, -⟩ := h
  rw [hc] at hx
  exact (Act.key_of_mem_delivered hx).trans hkey

/-- Acts leave the keys as they are. -/
theorem keys_perform (e : Engine) (id : Nat) (a : Act) :
    (e.perform id a).store.keys = e.store.keys := by
  rw [store_perform]
  split
  · exact Flow.Store.keys_terminate _ _
  · exact Flow.Store.keys_update fun c _ => a.key_change c

/-- A connection of the flow is found at its place. -/
theorem Owns.connection?_only (h : e.Owns k id) :
    (e.only k).store.connection? (e.store.rank k id) = e.store.connection? id :=
  Flow.Store.connection?_only h.place

/-- Work for a connection of the flow is under way where there is nothing else, too. -/
theorem Owns.contains_only (h : e.Owns k id) (w : Work) :
    (e.only k).tasks.contains (w.task (e.store.rank k id)) = e.tasks.contains (w.task id) :=
  contains_filterMap (w.place?_task h.place)
    (fun _ => Work.eq_of_place? fun _ hi => Flow.Store.place_injective hi h.place) e.tasks

/-- What is done for a connection of the flow is done where there is nothing else, too. -/
theorem Owns.only_perform (h : e.Owns k id) (a : Act) :
    (e.perform id a).only k = (e.only k).perform (e.store.rank k id) a := by
  have hplaces := Flow.Store.place_congr (k := k) (keys_perform e id a)
  have hinjective (i : Nat) (hi : e.store.place k i = some (e.store.rank k id)) : i = id :=
    Flow.Store.place_injective hi h.place
  have hstore : (e.perform id a).store.only k =
      ((e.only k).perform (e.store.rank k id) a).store := by
    rw [store_perform, store_perform]
    split
    · exact Flow.Store.only_terminate h.place
    · exact Flow.Store.only_update h.place fun c _ => a.key_change c
  have htasks : (e.perform id a).tasks.filterMap (Task.place? (e.store.place k)) =
      ((e.only k).perform (e.store.rank k id) a).tasks := by
    rw [tasks_perform, tasks_perform]
    exact a.filterMap_work h.place hinjective e.tasks
  have hhanded : Handed.among (e.store.place k) (e.perform id a).handed =
      ((e.only k).perform (e.store.rank k id) a).handed := by
    rw [handed_perform, handed_perform, Handed.among_append, a.among_handed h.place]
    rfl
  have houtbox : Outgoing.among (e.store.place k) k (e.perform id a).outbox =
      ((e.only k).perform (e.store.rank k id) a).outbox := by
    rw [outbox_perform, outbox_perform, Outgoing.among_append, h.connection?_only]
    exact congrArg (_ ++ ·) (h.among_packet? a)
  have hdelivered : (e.perform id a).delivered.filter (·.key = k) =
      ((e.only k).perform (e.store.rank k id) a).delivered := by
    rw [delivered_perform, delivered_perform, List.filter_append, h.connection?_only]
    exact congrArg (_ ++ ·)
      (List.filter_eq_self.mpr fun x hx => decide_eq_true (h.key_delivered hx))
  refine Engine.ext ?_ ?_ hstore ?_ ?_ ?_ hdelivered
  · exact (config_perform e id a).trans (config_perform (e.only k) _ a).symm
  · exact (inspecting_perform e id a).trans (inspecting_perform (e.only k) _ a).symm
  · rw [only, hplaces]
    exact htasks
  · rw [only, hplaces]
    exact houtbox
  · rw [only, hplaces]
    exact hhanded

/-- What is done for a connection of another flow does not show. -/
theorem Owns.only_perform_of_ne (h : e.Owns k' id) (hne : k' ≠ k) (a : Act) :
    (e.perform id a).only k = e.only k := by
  have hplaces := Flow.Store.place_congr (k := k) (keys_perform e id a)
  have hnone := h.place_of_ne hne
  refine Engine.ext (config_perform e id a) (inspecting_perform e id a) ?_ ?_ ?_ ?_ ?_
  · change (e.perform id a).store.only k = e.store.only k
    rw [store_perform]
    split
    · exact Flow.Store.only_terminate_of_ne hnone
    · exact Flow.Store.only_update_of_ne hnone fun c _ => a.key_change c
  · rw [only, hplaces, tasks_perform]
    exact a.filterMap_work_of_none hnone e.tasks
  · rw [only, hplaces, outbox_perform, Outgoing.among_append, h.among_packet?_of_ne hne,
      List.append_nil]
    rfl
  · rw [only, hplaces, handed_perform, Handed.among_append, a.among_handed_of_none hnone,
      List.append_nil]
    rfl
  · have hnothing : (a.delivered (e.store.connection? id)).filter (·.key = k) = [] :=
      List.filter_eq_nil_iff.mpr fun x hx hkey =>
        hne ((h.key_delivered hx).symm.trans (of_decide_eq_true hkey))
    rw [only, delivered_perform, List.filter_append, hnothing, List.append_nil]
    rfl

/-- What is done for a connection of the flow one after the other is done where there is nothing
else, too. -/
theorem Owns.only_carryOut (h : e.Owns k id) (acts : List Act) :
    (e.carryOut id acts).only k = (e.only k).carryOut (e.store.rank k id) acts := by
  induction acts generalizing e with
  | nil => rfl
  | cons a acts ih =>
      have hrank : (e.perform id a).store.rank k id = e.store.rank k id := by
        rw [Flow.Store.rank, Flow.Store.rank, keys_perform]
      rw [carryOut_cons, ih (h.move (.act a h)), hrank, h.only_perform]
      rfl

/-! ## Other flows -/

/-- A move takes at most the room that the connections it brings have. -/
theorem Move.growth (h : Move k e e') : e.store.Growth e'.store := by
  cases h with
  | act a howns =>
      rw [store_perform]
      split
      · exact .terminate _ _
      · exact .update _ _ _
  | find => exact .find? _ _
  | openNew now idle _ _ _ => exact .openNew _ _ _ _
  | refuse => exact .refl _

/-- Moves take at most the room that the connections they bring have. -/
theorem Moves.growth (h : Moves k e e') : e.store.Growth e'.store := by
  induction h with
  | refl => exact .refl _
  | tail _ hmove ih => exact ih.trans hmove.growth

/-- A change that is made for another flow does not show. -/
theorem Move.only (h : Move k' e e') (hne : k' ≠ k) (hcoherent : e.Coherent)
    (hroom : e.store.Room e'.store) : e'.only k = e.only k := by
  cases h with
  | act a howns => exact howns.only_perform_of_ne hne a
  | find =>
      have hkeys : (e.store.find? k').1.keys = e.store.keys := rfl
      refine (Engine.only_withStore (Flow.Store.place_congr hkeys)).trans ?_
      rw [Flow.Store.only_find?]
      rfl
  | @openNew c now idle hkey hopen haddressed =>
      have hkey' : Flow.Tracked.key c ≠ k := hkey.trans_ne hne
      have hplace := (Flow.Store.place_congr (Flow.Store.keys_openNew e.store now idle c)).trans
        (Flow.Store.place_add_of_ne hkey' e.store)
      refine (Engine.only_withStore hplace).trans ?_
      rw [Flow.Store.only_openNew_of_ne hcoherent.accurate hkey' ?_]
      · rfl
      · have hlength := Flow.Store.length_openNew e.store now idle c
        have hbound : e.store.table.size + (e.store.openNew now idle c).1.connections.length ≤
            e.store.table.capacity + e.store.connections.length := hroom
        omega
  | refuse hflow hroom => simp only [Engine.only, Engine.post, Outgoing.among_post_of_ne hflow hne]

/-- Moves for another flow do not show. -/
theorem Moves.only (h : Moves k' e e') (hne : k' ≠ k) (hcoherent : e.Coherent)
    (hroom : e.store.Room e'.store) : e'.only k = e.only k := by
  induction h with
  | refl => rfl
  | tail hmoves hmove ih =>
      have hbefore : Moves k' e _ := hmoves
      rw [hmove.only hne (hcoherent.moves hbefore) (hbefore.growth.room_right hroom),
        ih (hmove.growth.room_left hroom)]

/-! ## Plans -/

/-- The same plan where connections have other numbers. -/
def Plan.renumber (number : Nat → Nat) : Plan → Plan
  | .act id acts => .act (number id) acts
  | .find key id acts => .find key (number id) acts
  | .idle => .idle
  | .accept c target => .accept c target
  | .refuse packet? => .refuse packet?
  | .closeAll => .closeAll

/-- The same step where connections have other numbers. -/
def Event.renumber (number : Nat → Nat) : Event → Event
  | .segment initial d => .segment initial d
  | .connected id target result => .connected (number id) target result
  | .received id result => .received (number id) result
  | .took id count => .took (number id) count
  | .wrote id result => .wrote (number id) result
  | .abandoned task => .abandoned (task.work.task (number task.connection))
  | .closeAll => .closeAll

/-- What is to be done for a connection of the flow is to be done where there is nothing else,
too. -/
theorem Owns.actsFor_only (h : e.Owns k id) (acts : Connection → List Act) :
    (e.only k).actsFor (e.store.rank k id) acts = e.actsFor id acts := by
  rw [actsFor, actsFor, h.connection?_only]

/-- The plan for a packet of the flow is the same where there is nothing but the flow. -/
theorem Coherent.plan_only_segment (h : e.Coherent) (s : Surroundings) (initial : UInt32)
    (d : Datagram) :
    (e.only ⟨d.destination, d.source.port⟩).plan s (.segment initial d) =
      (e.plan s (.segment initial d)).renumber (e.store.rank ⟨d.destination, d.source.port⟩) := by
  have hpeek := Flow.Store.peek?_only e.store ⟨d.destination, d.source.port⟩
  change (e.only _).store.table.peek? _ = _ at hpeek
  simp only [plan]
  cases d.headers.tcp? with
  | none => rfl
  | some tcp =>
      simp only [hpeek]
      cases hfound : e.store.table.peek? ⟨d.destination, d.source.port⟩ with
      | none =>
          simp only [Option.bind_none]
          split
          · cases s.socket <;> rfl
          · rfl
      | some id =>
          have howns := h.owns_of_peek? hfound
          have hwriter := howns.contains_only .write
          simp only [Work.task] at hwriter
          simp only [Option.bind_some, howns.place, hwriter, howns.actsFor_only]
          rfl

/-- **Plans**: a step about the flow has the same plan where there is nothing else. -/
theorem Coherent.plan_only (h : e.Coherent) (s : Surroundings) {event : Event}
    (hflow : e.flow? event = some k) :
    (e.only k).plan s (event.renumber (e.store.rank k)) =
      (e.plan s event).renumber (e.store.rank k) := by
  have howned {id : Nat} (hkey : (e.store.connection? id).map Connection.key = some k) :
      e.Owns k id := by
    obtain ⟨c, hc, rfl⟩ := Option.map_eq_some_iff.mp hkey
    exact h.owns hc
  cases event with
  | segment initial d =>
      cases hflow
      exact h.plan_only_segment s initial d
  | connected id target result =>
      have howns := howned hflow
      have hcontains := howns.contains_only (.connect target)
      simp only [Work.task] at hcontains
      simp only [plan, Event.renumber, hcontains, howns.actsFor_only]
      split <;> rfl
  | received id result =>
      have howns := howned hflow
      have hcontains := howns.contains_only .read
      simp only [Work.task] at hcontains
      simp only [plan, Event.renumber, hcontains, howns.actsFor_only]
      split <;> rfl
  | took id count =>
      have howns := howned hflow
      have hcontains := howns.contains_only .write
      simp only [Work.task] at hcontains
      simp only [plan, Event.renumber, hcontains, howns.actsFor_only]
      split <;> rfl
  | wrote id result =>
      have howns := howned hflow
      have hcontains := howns.contains_only .write
      simp only [Work.task] at hcontains
      simp only [plan, Event.renumber, hcontains, howns.actsFor_only]
      split <;> rfl
  | abandoned task =>
      have howns := howned hflow
      have hclosed : (e.only k).store.isClosed (e.store.rank k task.connection) =
          e.store.isClosed task.connection := by
        rw [Flow.Store.isClosed, Flow.Store.isClosed, howns.connection?_only]
      simp only [plan, Event.renumber, Work.connection_task, Work.work_task, hclosed]
      split <;> rfl
  | closeAll => contradiction

/-! ## Steps -/

/-- The connection that a flow is found to have is found where there is nothing else, too. -/
theorem Owns.only_find (h : e.Owns k id) (acts : List Act) :
    ({ e with store := (e.store.find? k).1 }.carryOut id acts).only k =
      { e.only k with store := ((e.only k).store.find? k).1 }.carryOut (e.store.rank k id)
        acts := by
  have hkeys : (e.store.find? k).1.keys = e.store.keys := rfl
  have hfind : { e with store := (e.store.find? k).1 }.only k =
      { e.only k with store := ((e.only k).store.find? k).1 } := by
    refine (Engine.only_withStore (Flow.Store.place_congr hkeys)).trans ?_
    rw [Flow.Store.only_find?]
    exact congrArg (fun store => ({ e.only k with store } : Engine))
      (Flow.Store.find?_only e.store k).symm
  rw [(h.move .find).only_carryOut acts, hfind]
  rfl

/-- The first connection in use of a flow comes where there is nothing else, too. -/
theorem Coherent.only_openNew (h : e.Coherent) (hkey : c.key = k)
    (hnone : e.store.table.peek? k = none) (now : Instant) (idle : Nat)
    (hroom : e.store.Room (e.store.openNew now idle c).1) :
    { e with store := (e.store.openNew now idle c).1 }.only k =
      { e.only k with store := ((e.only k).store.openNew now idle c).1 } := by
  have hlength := Flow.Store.length_openNew e.store now idle c
  have hbound : e.store.table.size + 1 ≤ e.store.table.capacity := by
    unfold Flow.Store.Room at hroom
    omega
  refine (h.only_withStore fun i hi => ?_).trans ?_
  · rw [Flow.Store.place_congr (Flow.Store.keys_openNew e.store now idle c)]
    exact Flow.Store.place_add_of_lt hi c k
  · rw [Flow.Store.only_openNew h.accurate hkey hbound hnone]
    rfl

/-- What follows the acceptance of a connection does not depend on other flows. -/
theorem Coherent.only_accept (h : e.Coherent) (s : Surroundings) (target : Net.Endpoint)
    (hkey : c.key = k) (haddressed : c.Addressed) (hnone : e.store.table.peek? k = none)
    (hroom : e.store.Room (e.follow s (.accept c target)).store) :
    (e.follow s (.accept c target)).only k = (e.only k).follow s (.accept c target) := by
  rw [follow, store_carryOut_begun] at hroom
  have hopen := h.only_openNew hkey hnone s.now e.config.tcpIdle hroom
  have howns := owns_openNew (e := e) hkey haddressed s.now e.config.tcpIdle
  have hrank : (e.store.openNew s.now e.config.tcpIdle c).1.rank k
      e.store.connections.length = (e.only k).store.connections.length := by
    have hkeys := Flow.Store.keys_openNew e.store s.now e.config.tcpIdle c
    have hplace := congrFun (Flow.Store.place_congr (k := k) hkeys) e.store.connections.length
    exact Option.some.inj
      (howns.place.symm.trans (hplace.trans (Flow.Store.place_add_self hkey e.store)))
  have hbegun := howns.only_carryOut (begun s (.connect target))
  rw [hopen] at hbegun
  refine hbegun.trans ?_
  rw [hrank]
  rfl

/-- What follows the refusal of a SYN does not depend on other flows. -/
theorem only_refuse {packet? : Option (List UInt8)}
    (hflow : ∀ packet ∈ packet?, Packet.flow? packet = some k) (e : Engine) (s : Surroundings) :
    (e.follow s (.refuse packet?)).only k = (e.only k).follow s (.refuse packet?) := by
  cases packet? with
  | none => rfl
  | some packet =>
      have hpost := Outgoing.among_post (hflow packet rfl) (e.store.place k) e.outbox none
      simp only [follow, Option.elim_some, post, Engine.only, hpost]
      rfl

/-- **Steps**: what a step about a flow does to the flow, it also does where there is nothing
else. -/
theorem Coherent.only_step (h : e.Coherent) (s : Surroundings) {event : Event}
    (hflow : e.flow? event = some k) (hroom : e.store.Room (e.step s event).store) :
    (e.step s event).only k = (e.only k).step s (event.renumber (e.store.rank k)) := by
  rw [step_eq] at hroom
  rw [step_eq, step_eq, h.plan_only s hflow]
  have habout := h.about_plan s hflow
  generalize e.plan s event = p at habout hroom
  cases habout with
  | idle => rfl
  | act howns => exact howns.only_carryOut _
  | find hpeek => exact (h.owns_of_peek? hpeek).only_find _
  | accept hkey hopen haddressed hnone =>
      exact h.only_accept s _ hkey haddressed hnone hroom
  | refuse hpacket => exact only_refuse (fun packet h => (hpacket packet h).1) e s

/-- A step about something else does not show. -/
theorem Coherent.only_step_of_ne (h : e.Coherent) (s : Surroundings) {event : Event}
    (hflow : e.flow? event ≠ some k) (hall : event ≠ .closeAll)
    (hroom : e.store.Room (e.step s event).store) : (e.step s event).only k = e.only k := by
  cases hother : e.flow? event with
  | some k' => exact (h.step_moves s hother).only (fun hsame => hflow (hsame ▸ hother)) h hroom
  | none => rw [(h.step_of_flow?_none s hother).resolve_left hall]

/-- Closing every connection closes those of the flow. -/
theorem Coherent.only_closeAll (h : e.Coherent) (k : Flow.Key) :
    e.closeAll.1.only k = (e.only k).closeAll.1 := by
  have hkeys : e.store.closeAll.1.keys = e.store.keys :=
    Flow.Store.keys_closeAllOf { e.store with table := e.store.table.clear.1 } _
  refine (Engine.only_withStore (Flow.Store.place_congr hkeys)).trans ?_
  rw [Flow.Store.only_closeAll h.accurate]
  rfl

/-! ## Runs -/

/-- The steps of the engine, each with its own surroundings. -/
def machine : Flow.Machine Engine (Surroundings × Event) Connection where
  store := store
  step e x := e.step x.1 x.2
  flow? e x := e.flow? x.2
  isSweep x := x.2 matches .closeAll
  renumber number x := (x.1, x.2.renumber number)

/-- **Isolation**: no other flow matters to a flow. -/
theorem isolates (k : Flow.Key) : machine.Isolates Coherent (only · k) k where
  stays e x h := h.step x.1 x.2
  own e x h hconcerns hroom := by
    obtain ⟨s, event⟩ := x
    cases event with
    | closeAll => exact h.only_closeAll k
    | segment | connected | received | took | wrote | abandoned =>
        exact h.only_step s (of_decide_eq_true hconcerns) hroom
  others e x h hconcerns hroom := by
    obtain ⟨s, event⟩ := x
    cases event with
    | closeAll => contradiction
    | segment | connected | received | took | wrote | abandoned =>
        exact h.only_step_of_ne s (of_decide_eq_false hconcerns) nofun hroom

end Engine

end FlowRelay.Tcp
