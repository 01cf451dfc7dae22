import FlowRelay.Proofs.Flow.Isolation
import FlowRelay.Proofs.Udp.Moves

/-!
# FlowRelay.Proofs.Udp.Isolation

What there is of one flow in the engine, and that no other flow matters to it: the same as for TCP,
with less to do.

1. *One flow* (`only`): the engine without the connections, the reads, the packets and the datagrams
   of all other flows.
2. *Other flows* (`Move.only`): no change that is made for another flow shows there.
3. *The flow itself* (`Mirrors`): what the engine does for a connection of the flow it also does
   where there is nothing else.
4. *Runs* (`isolates`): a run shows of a flow what the steps that are about the flow do alone.
-/

namespace FlowRelay.Udp

open Packet

/-- The reads of the connections that have a place, by their places. -/
def Task.place? (place : Nat → Option Nat) (task : Task) : Option Task :=
  (place task.connection).map Task.mk

namespace Engine

variable {e e' e₁ : Engine} {s : Surroundings} {k k' : Flow.Key} {id n : Nat} {c : Connection}

/-! ## One flow -/

/-- The engine without everything of other flows.  Connections are known by their places among those
of the flow. -/
def only (e : Engine) (k : Flow.Key) : Engine where
  config := e.config
  store := e.store.only k
  tasks := e.tasks.filterMap (Task.place? (e.store.place k))
  outbox := Outgoing.among (e.store.place k) k e.outbox
  handed := Handed.among (e.store.place k) e.handed

theorem only_empty (config : Config) (k : Flow.Key) : (empty config).only k = empty config := rfl

/-- The connections, and what the device and the outbound sockets were told. -/
def trace (e : Engine) : Flow.Trace Connection := ⟨e.store, e.outbox, e.handed⟩

/-- What there is of a flow in one engine is all there is in another one. -/
structure Matches (e : Engine) (k : Flow.Key) (t : Engine) : Prop
    extends e.trace.Matches k t.trace where
  work : e.tasks.filterMap (Task.place? (e.store.place k)) = t.tasks

/-- An engine matches what there is of the flow in it. -/
theorem matches_only (e : Engine) (k : Flow.Key) : e.Matches k (e.only k) where
  toMatches := e.trace.matches_only k
  work := rfl

/-- Where the places stay, only the store changes. -/
theorem only_withStore {store : Flow.Store Connection}
    (hplace : store.place k = e.store.place k) :
    { e with store }.only k = { e.only k with store := store.only k } := by
  simp only [only, hplace]

/-- Connections that come do not change what there is of the others. -/
theorem Coherent.only_withStore (h : e.Coherent) {store : Flow.Store Connection}
    (hplace : ∀ id < e.store.connections.length, store.place k id = e.store.place k id) :
    { e with store }.only k = { e.only k with store := store.only k } := by
  have htasks : e.tasks.filterMap (Task.place? (store.place k)) =
      e.tasks.filterMap (Task.place? (e.store.place k)) :=
    List.filterMap_congr fun task htask => by
      rw [Task.place?, Task.place?, hplace _ (h.tasks task htask)]
  have houtbox := Outgoing.among_congr (k := k) fun p hp id hid => hplace id (h.outbox p hp id hid)
  have hhanded := Handed.among_congr fun x hx => hplace _ (h.handed x hx)
  simp only [only, htasks, houtbox, hhanded]

/-! ## Other flows -/

/-- A connection of another flow has no place. -/
theorem Owns.place_of_ne (h : e.Owns k' id) (hne : k' ≠ k) : e.store.place k id = none := by
  obtain ⟨c, hc, hkey, -⟩ := h
  exact Flow.Store.place_of_key_ne hc (show c.key ≠ k from hkey ▸ hne)

/-- A move takes at most the room that the connections it brings have. -/
theorem Move.growth (h : Move k e e') : e.store.Growth e'.store := by
  cases h with
  | update howns hkeeps => exact .update _ _ _
  | terminate howns => exact .terminate _ _
  | find => exact .find? _ _
  | openNew now idle _ _ _ => exact .openNew _ _ _ _
  | _ => exact .refl _

/-- Moves take at most the room that the connections they bring have. -/
theorem Moves.growth (h : Moves k e e') : e.store.Growth e'.store := by
  induction h with
  | refl => exact .refl _
  | tail _ hmove ih => exact ih.trans hmove.growth

/-- A change that is made for another flow does not show. -/
theorem Move.only (h : Move k' e e') (hne : k' ≠ k) (hcoherent : e.Coherent)
    (hroom : e.store.Room e'.store) : e'.only k = e.only k := by
  cases h with
  | @update id f howns hkeeps =>
      have hkeys : (e.store.update id f).keys = e.store.keys :=
        Flow.Store.keys_update fun c _ => hkeeps.key c
      refine (Engine.only_withStore (Flow.Store.place_congr hkeys)).trans ?_
      rw [Flow.Store.only_update_of_ne (howns.place_of_ne hne) fun c _ => hkeeps.key c]
      rfl
  | @terminate id howns =>
      have hkeys := Flow.Store.keys_terminate e.store id
      refine (Engine.only_withStore (Flow.Store.place_congr hkeys)).trans ?_
      rw [Flow.Store.only_terminate_of_ne (howns.place_of_ne hne)]
      rfl
  | find =>
      have hkeys : (e.store.find? k').1.keys = e.store.keys := rfl
      refine (Engine.only_withStore (Flow.Store.place_congr hkeys)).trans ?_
      rw [Flow.Store.only_find?]
      rfl
  | @openNew c now idle hkey hopen haddressed =>
      have hkey' : Flow.Tracked.key c ≠ k := hkey.trans_ne hne
      have hplace := (Flow.Store.place_congr (Flow.Store.keys_openNew e.store now idle c)).trans
        (Flow.Store.place_add_of_ne hkey' e.store)
      refine (Engine.only_withStore hplace).trans ?_
      rw [Flow.Store.only_openNew_of_ne hcoherent.accurate hkey' ?_]
      · rfl
      · have hlength := Flow.Store.length_openNew e.store now idle c
        have hbound : e.store.table.size + (e.store.openNew now idle c).1.connections.length ≤
            e.store.table.capacity + e.store.connections.length := hroom
        omega
  | post howns hanswers hok =>
      have hflow := hanswers.flow?_writeUdpResponse hok
      simp only [Engine.only, Engine.post, Outgoing.among_post_of_ne hflow hne]
  | @begin id howns =>
      have hnone : Task.place? (e.store.place k) ⟨id⟩ = none := by
        rw [Task.place?, howns.place_of_ne hne, Option.map_none]
      simp only [Engine.only, Engine.begin, List.filterMap_append, List.filterMap_cons, hnone,
        List.filterMap_nil, List.append_nil]
  | @finishTask id howns =>
      have hnone : Task.place? (e.store.place k) ⟨id⟩ = none := by
        rw [Task.place?, howns.place_of_ne hne, Option.map_none]
      simp only [Engine.only, Engine.finishTask, filterMap_erase_of_none hnone]
  | hand howns =>
      simp only [Engine.only, Engine.hand, Handed.among_hand_of_none (howns.place_of_ne hne)]

/-- Moves for another flow do not show. -/
theorem Moves.only (h : Moves k' e e') (hne : k' ≠ k) (hcoherent : e.Coherent)
    (hroom : e.store.Room e'.store) : e'.only k = e.only k := by
  induction h with
  | refl => rfl
  | tail hmoves hmove ih =>
      have hbefore : Moves k' e _ := hmoves
      rw [hmove.only hne (hcoherent.moves hbefore) (hbefore.growth.room_right hroom),
        ih (hmove.growth.room_left hroom)]

/-! ## The flow itself -/

/-- One engine is what there is of a flow in another, and there is a connection of the flow that has
a number in both. -/
structure Mirrors (k : Flow.Key) (e e₁ : Engine) (id n : Nat) : Prop where
  only : e.only k = e₁
  place : e.store.place k id = some n
  answers : ∀ c, e.store.connection? id = some c → c.template.Answers k

namespace Mirrors

/-- A mirrored connection is the same on both sides. -/
theorem connection? (h : Mirrors k e e₁ id n) :
    e₁.store.connection? n = e.store.connection? id := by
  rw [← h.only]
  exact Flow.Store.connection?_only h.place

theorem config (h : Mirrors k e e₁ id n) : e₁.config = e.config := by
  rw [← h.only]
  rfl

/-- A change on both sides. -/
theorem update (h : Mirrors k e e₁ id n) {f : Connection → Connection} (hkeeps : Keeps f) :
    Mirrors k (e.update id f) (e₁.update n f) id n := by
  have hkeys : (e.store.update id f).keys = e.store.keys :=
    Flow.Store.keys_update fun c _ => hkeeps.key c
  have hplace := Flow.Store.place_congr (k := k) hkeys
  refine ⟨?_, (congrFun hplace id).trans h.place, fun c hc => ?_⟩
  · refine (Engine.only_withStore hplace).trans ?_
    rw [Flow.Store.only_update h.place fun c _ => hkeeps.key c, h.only, ← h.only]
    rfl
  · have hupdate : (e.store.update id f).connection? id = some c := hc
    rw [Flow.Store.connection?_update_self] at hupdate
    obtain ⟨c', hc', rfl⟩ := Option.map_eq_some_iff.mp hupdate
    rw [hkeeps.template]
    exact h.answers c' hc'

/-- Termination on both sides. -/
theorem terminate (h : Mirrors k e e₁ id n) : (e.terminate id).only k = e₁.terminate n := by
  have hplace := Flow.Store.place_congr (k := k) (Flow.Store.keys_terminate e.store id)
  refine (Engine.only_withStore hplace).trans ?_
  rw [Flow.Store.only_terminate h.place, h.only, ← h.only]
  rfl

/-- A task for the connection has the place of the connection. -/
theorem place? (h : Mirrors k e e₁ id n) :
    Task.place? (e.store.place k) ⟨id⟩ = some ⟨n⟩ := by
  rw [Task.place?, h.place, Option.map_some]

/-- The tasks of different connections have different places. -/
theorem place?_injective (h : Mirrors k e e₁ id n) (task : Task)
    (hsame : task.place? (e.store.place k) = some ⟨n⟩) : task = ⟨id⟩ := by
  obtain ⟨n', hn', hsame⟩ := Option.map_eq_some_iff.mp hsame
  cases hsame
  exact congrArg Task.mk (Flow.Store.place_injective hn' h.place)

theorem begin (h : Mirrors k e e₁ id n) : Mirrors k (e.begin id) (e₁.begin n) id n := by
  refine ⟨?_, h.place, h.answers⟩
  rw [← h.only]
  simp only [Engine.only, Engine.begin, List.filterMap_append, List.filterMap_cons, h.place?,
    List.filterMap_nil]

theorem finishTask (h : Mirrors k e e₁ id n) :
    Mirrors k (e.finishTask id) (e₁.finishTask n) id n := by
  refine ⟨?_, h.place, h.answers⟩
  rw [← h.only]
  simp only [Engine.only, Engine.finishTask, filterMap_erase_of_some h.place? h.place?_injective]

/-- A read is under way on both sides or on neither. -/
theorem contains (h : Mirrors k e e₁ id n) : e₁.tasks.contains ⟨n⟩ = e.tasks.contains ⟨id⟩ := by
  rw [← h.only]
  exact contains_filterMap h.place? h.place?_injective e.tasks

/-- Data is handed over on both sides. -/
theorem hand (h : Mirrors k e e₁ id n) (payload : List UInt8) :
    Mirrors k (e.hand id payload) (e₁.hand n payload) id n := by
  refine ⟨?_, h.place, h.answers⟩
  rw [← h.only]
  simp only [Engine.only, Engine.hand, Handed.among_hand h.place]

/-- A packet that answers the flow is sent on both sides. -/
theorem emit (h : Mirrors k e e₁ id n) {template : Headers} (hanswers : template.Answers k)
    (s : Surroundings) (buffer : List UInt8) (length : Nat) :
    Mirrors k (e.emit s id (template.writeUdpResponse buffer length))
      (e₁.emit s n (template.writeUdpResponse buffer length)) id n := by
  unfold Engine.emit
  cases hok : (template.writeUdpResponse buffer length).result with
  | error x => exact h
  | ok m =>
      have hpost := Outgoing.among_post (hanswers.flow?_writeUdpResponse hok) (e.store.place k)
        e.outbox (some id)
      simp only
      split
      · refine ⟨?_, h.place, h.answers⟩
        rw [← h.only]
        simp only [Engine.only, hpost, Option.bind_some, h.place]
      · exact h

/-- Data is forwarded on both sides. -/
theorem forward (h : Mirrors k e e₁ id n) (s : Surroundings) (calls : SocketCalls)
    (payload : List UInt8) :
    (e.forward s calls id payload).only k = e₁.forward s calls n payload := by
  unfold Engine.forward
  split
  · exact h.terminate
  · have hupdate := h.update (f := fun c =>
      { c with lastActive := s.now, bytesWritten := c.bytesWritten + payload.length })
      ⟨fun _ => rfl, fun _ => rfl, fun _ => rfl, fun _ => rfl⟩
    exact (hupdate.hand payload).only

/-- A read ends on both sides. -/
theorem received (h : Mirrors k e e₁ id n) (s : Surroundings)
    (result : Except Fault (List UInt8)) :
    (e.received s id result).only k = e₁.received s n result := by
  have hroom : e₁.readRoom = e.readRoom := by rw [readRoom, readRoom, h.config]
  unfold Engine.received
  rw [h.connection?, h.config, hroom]
  cases hc : e.store.connection? id with
  | none => exact h.only
  | some c =>
      simp only
      split
      · exact h.only
      · split
        · exact h.terminate
        · next data _ =>
            have hemit := h.emit (h.answers c hc) s
              (Bytes.overwrite (List.replicate e.config.mtu 0) Headers.udpPayloadOffset data)
              data.length
            have hupdate := hemit.update (f := fun c =>
              { c with lastActive := s.now, bytesRead := c.bytesRead + data.length })
              ⟨fun _ => rfl, fun _ => rfl, fun _ => rfl, fun _ => rfl⟩
            exact hupdate.begin.only

end Mirrors

/-! ## Steps -/

/-- A connection of the flow mirrors itself. -/
theorem Coherent.mirrors (h : e.Coherent) (hc : e.store.connection? id = some c) :
    Mirrors c.key e (e.only c.key) id (e.store.rank c.key id) := by
  refine ⟨rfl, Flow.Store.place_of_key hc rfl, fun c' hc' => ?_⟩
  cases hc.symm.trans hc'
  exact (h.addressed id c hc).answers

/-- The connection that a flow is found to have mirrors itself. -/
theorem Coherent.mirrors_find? (h : e.Coherent) (hpeek : e.store.table.peek? k = some id) :
    ∃ n, (e.only k).store.table.peek? k = some n ∧
      Mirrors k { e with store := (e.store.find? k).1 }
        { e.only k with store := ((e.only k).store.find? k).1 } id n := by
  obtain ⟨c, hc, rfl, -⟩ := h.accurate.peek?_iff.mp hpeek
  obtain ⟨-, hplace, hanswers⟩ := h.mirrors hc
  have hkeys : (e.store.find? c.key).1.keys = e.store.keys := rfl
  refine ⟨_, (Flow.Store.peek?_only _ _).trans (by rw [hpeek]; exact hplace), ?_, hplace, hanswers⟩
  refine (Engine.only_withStore (Flow.Store.place_congr hkeys)).trans ?_
  rw [Flow.Store.only_find?]
  exact congrArg (fun store => ({ e.only c.key with store } : Engine))
    (Flow.Store.find?_only e.store c.key).symm

/-- The first connection in use of a flow comes where there is nothing else, too. -/
theorem Coherent.mirrors_openNew (h : e.Coherent) (hkey : c.key = k)
    (hanswers : c.template.Answers k) (hnone : e.store.table.peek? k = none) (now : Instant)
    (idle : Nat)
    (hroom : e.store.Room (e.store.openNew now idle c).1) :
    Mirrors k { e with store := (e.store.openNew now idle c).1 }
      { e.only k with store := ((e.only k).store.openNew now idle c).1 }
      (e.store.openNew now idle c).2 ((e.only k).store.openNew now idle c).2 := by
  have hlength := Flow.Store.length_openNew e.store now idle c
  have hbound : e.store.table.size + 1 ≤ e.store.table.capacity := by
    unfold Flow.Store.Room at hroom
    omega
  have hplace := Flow.Store.place_congr (k := k) (Flow.Store.keys_openNew e.store now idle c)
  refine ⟨?_, ?_, fun c' hc' => ?_⟩
  · refine (h.only_withStore fun i hi => ?_).trans ?_
    · rw [hplace]
      exact Flow.Store.place_add_of_lt hi c k
    · rw [Flow.Store.only_openNew h.accurate hkey hbound hnone]
      rfl
  · exact (congrFun hplace _).trans (Flow.Store.place_add_self hkey e.store)
  · have hsame : c' = c ∨ c' = c.close := by
      rcases Flow.Store.connection?_openNew (fun _ => rfl) e.store now idle c with hsame | hclosed
      · exact .inl (Option.some.inj (hc'.symm.trans hsame))
      · exact .inr (Option.some.inj (hc'.symm.trans hclosed))
    rcases hsame with rfl | rfl
    · exact hanswers
    · exact hanswers

/-- Opening the connection of a flow fails here as it does there, or succeeds in both. -/
theorem Coherent.openConnection_only (h : e.Coherent) {headers : Headers}
    (hanswers : headers.swap.Answers k) (hnone : e.store.table.peek? k = none) (s : Surroundings)
    (calls : SocketCalls) (hroom : e.store.Room (e.openConnection s calls k headers).1.store) :
    (∃ e' e₁' x, e.openConnection s calls k headers = (e', .error x) ∧
      (e.only k).openConnection s calls k headers = (e₁', .error x) ∧ e'.only k = e₁') ∨
    ∃ e' e₁' id n, e.openConnection s calls k headers = (e', .ok id) ∧
      (e.only k).openConnection s calls k headers = (e₁', .ok n) ∧ Mirrors k e' e₁' id n := by
  have hconfig : (e.only k).config = e.config := rfl
  simp only [openConnection, hconfig] at hroom ⊢
  cases hsocket : s.socket with
  | error x => exact .inl ⟨_, _, x, rfl, rfl, rfl⟩
  | ok _ =>
      cases hconnect : calls.connect (s.proxy.resolve k.destination) with
      | error x => exact .inl ⟨_, _, x, rfl, rfl, rfl⟩
      | ok _ =>
          simp only [hsocket, hconnect] at hroom ⊢
          have hmirrors := h.mirrors_openNew
            (c := .make k (s.proxy.resolve k.destination) headers.swap s.now) rfl hanswers hnone
            s.now e.config.udpIdle (by split at hroom <;> exact hroom)
          split
          · exact .inr ⟨_, _, _, _, rfl, rfl, hmirrors.begin⟩
          · exact .inl ⟨_, _, _, rfl, rfl, hmirrors.only⟩

/-- A datagram of the flow is handled in the same way where there is nothing but the flow. -/
theorem Coherent.only_handle (h : e.Coherent) (s : Surroundings) (calls : SocketCalls)
    (d : Datagram) (hroom : e.store.Room (e.handle s calls d).store) :
    (e.handle s calls d).only ⟨d.destination, d.source.port⟩ =
      (e.only ⟨d.destination, d.source.port⟩).handle s calls d := by
  unfold Engine.handle at hroom ⊢
  cases hudp : d.headers.udp? with
  | none => rfl
  | some udp =>
      simp only [hudp, Flow.Store.find?, Table.snd_get?] at hroom ⊢
      cases hpeek : e.store.table.peek? ⟨d.destination, d.source.port⟩ with
      | none =>
          have hpeek₁ : (e.only ⟨d.destination, d.source.port⟩).store.table.peek?
              ⟨d.destination, d.source.port⟩ = none :=
            (Flow.Store.peek?_only _ _).trans (by rw [hpeek]; rfl)
          simp only [hpeek, hpeek₁] at hroom ⊢
          obtain ⟨-, howns⟩ := openConnection_moves hudp e s calls
          have hanswers : d.headers.swap.Answers ⟨d.destination, d.source.port⟩ :=
            d.headers.answers_swap
          have hopen := h.openConnection_only hanswers hpeek s calls
          cases heq : e.openConnection s calls ⟨d.destination, d.source.port⟩ d.headers with
          | mk e' result =>
              rw [heq] at hroom howns hopen
              cases result with
              | error x =>
                  rcases hopen hroom with
                    ⟨_, e₁', x, hfail, hfail₁, hsame⟩ | ⟨_, _, _, _, hok, -, -⟩
                  · cases hfail
                    rw [hfail₁]
                    exact hsame
                  · cases hok
              | ok id =>
                  -- Handing the datagram over brings no connection.
                  have hgrowth := ((howns id rfl).forward s calls d.payload).growth
                  rcases hopen (hgrowth.room_left hroom) with
                    ⟨_, _, _, hfail, -, -⟩ | ⟨_, e₁', _, n, hok, hok₁, hmirrors⟩
                  · cases hfail
                  · cases hok
                    rw [hok₁]
                    exact hmirrors.forward s calls d.payload
      | some id =>
          obtain ⟨n, hpeek₁, hmirrors⟩ := h.mirrors_find? hpeek
          simp only [hpeek₁]
          exact hmirrors.forward s calls d.payload

/-- The same step where connections have other numbers. -/
def Event.renumber (number : Nat → Nat) : Event → Event
  | .datagram calls d => .datagram calls d
  | .received id result => .received (number id) result
  | .abandoned id => .abandoned (number id)
  | .closeAll => .closeAll

/-- **Steps**: what a step about a flow does to the flow, it also does where there is nothing
else. -/
theorem Coherent.only_step (h : e.Coherent) (s : Surroundings) {event : Event}
    (hflow : e.flow? event = some k) (hroom : e.store.Room (e.step s event).store) :
    (e.step s event).only k = (e.only k).step s (event.renumber (e.store.rank k)) := by
  have howned {id : Nat} (hkey : (e.store.connection? id).map Connection.key = some k) :
      Mirrors k e (e.only k) id (e.store.rank k id) := by
    obtain ⟨c, hc, rfl⟩ := Option.map_eq_some_iff.mp hkey
    exact h.mirrors hc
  cases event with
  | datagram calls d =>
      cases hflow
      exact h.only_handle s calls d hroom
  | received id result =>
      have hmirrors := howned hflow
      simp only [Engine.step, Event.renumber, hmirrors.contains]
      split
      · exact hmirrors.finishTask.received s result
      · rfl
  | abandoned id =>
      have hmirrors := howned hflow
      have hclosed : (e.only k).store.isClosed (e.store.rank k id) = e.store.isClosed id := by
        rw [Flow.Store.isClosed, Flow.Store.isClosed, hmirrors.connection?]
      simp only [Engine.step, Event.renumber, hclosed]
      split
      · exact hmirrors.finishTask.only
      · rfl
  | closeAll => contradiction

/-- Closing every connection closes those of the flow. -/
theorem Coherent.only_closeAll (h : e.Coherent) (k : Flow.Key) :
    e.closeAll.1.only k = (e.only k).closeAll.1 := by
  have hkeys : e.store.closeAll.1.keys = e.store.keys :=
    Flow.Store.keys_closeAllOf { e.store with table := e.store.table.clear.1 } _
  refine (Engine.only_withStore (Flow.Store.place_congr hkeys)).trans ?_
  rw [Flow.Store.only_closeAll h.accurate]
  rfl

/-- A step about something else does not show. -/
theorem Coherent.only_step_of_ne (h : e.Coherent) (s : Surroundings) {event : Event}
    (hflow : e.flow? event ≠ some k) (hall : event ≠ .closeAll)
    (hroom : e.store.Room (e.step s event).store) : (e.step s event).only k = e.only k := by
  cases hother : e.flow? event with
  | some k' => exact (h.step_moves s hother).only (fun hsame => hflow (hsame ▸ hother)) h hroom
  | none => rw [(h.step_of_flow?_none s hother).resolve_left hall]

/-! ## Runs -/

/-- The steps of the engine, each with its own surroundings. -/
def machine : Flow.Machine Engine (Surroundings × Event) Connection where
  store := store
  step e x := e.step x.1 x.2
  flow? e x := e.flow? x.2
  isSweep x := x.2 matches .closeAll
  renumber number x := (x.1, x.2.renumber number)

/-- **Isolation**: no other flow matters to a flow. -/
theorem isolates (k : Flow.Key) : machine.Isolates Coherent (only · k) k where
  stays e x h := h.step x.1 x.2
  own e x h hconcerns hroom := by
    obtain ⟨s, event⟩ := x
    cases event with
    | closeAll => exact h.only_closeAll k
    | datagram | received | abandoned =>
        exact h.only_step s (of_decide_eq_true hconcerns) hroom
  others e x h hconcerns hroom := by
    obtain ⟨s, event⟩ := x
    cases event with
    | closeAll => contradiction
    | datagram | received | abandoned =>
        exact h.only_step_of_ne s (of_decide_eq_false hconcerns) nofun hroom

end Engine

end FlowRelay.Udp
