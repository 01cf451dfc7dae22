import Mathlib.Data.List.Induction
import Mathlib.Logic.Relation
import FlowRelay.Proofs.Flow.Listing
import FlowRelay.Proofs.Packet.Response
import FlowRelay.Udp.Dispatch

/-!
# FlowRelay.Proofs.Udp.Moves

Runs of the UDP engine, and the small changes that its steps are made of, each for one flow.

1. *Runs* (`run`): steps one after the other, each with its own surroundings.
2. *Moves* (`Move`): a connection of the flow changes, leaves or comes, a packet is sent to the
   device, a read begins or ends, a datagram is handed over.
3. *Coherence* (`Coherent`): the table lists the open connections, connections are addressed by
   their flows, and everything in the engine is about a connection that exists.
4. *Steps* (`Coherent.step_moves`): a step about a flow is made of moves for it.  A datagram of the
   device is accepted first, and sent where that says (`handle_eq`).
-/

namespace FlowRelay.Udp

open Packet

instance : Flow.LawfulTracked Connection where
  key_close _ := rfl
  isClosed_close _ := rfl
  close_close _ := rfl

/-- The template of a connection addresses packets of its flow. -/
structure Connection.Addressed (c : Connection) : Prop where
  isUdp : ∃ u, c.template.transport = .udp u
  answers : c.template.Answers c.key

/-- A change of a connection that leaves it to its flow, and open or closed as it is. -/
structure Keeps (f : Connection → Connection) : Prop where
  key : ∀ c, (f c).key = c.key
  target : ∀ c, (f c).target = c.target
  template : ∀ c, (f c).template = c.template
  closed : ∀ c, (f c).closed = c.closed

section

variable {c : Connection}

theorem Connection.Addressed.close (h : c.Addressed) : c.close.Addressed := ⟨h.isUdp, h.answers⟩

/-- Whatever has the key and the template of an addressed connection is addressed. -/
theorem Connection.Addressed.congr {c' : Connection} (h : c.Addressed) (hkey : c'.key = c.key)
    (htemplate : c'.template = c.template) : c'.Addressed := by
  refine ⟨?_, ?_⟩
  · rw [htemplate]
    exact h.isUdp
  · rw [htemplate, hkey]
    exact h.answers

/-- Changes that keep key and template keep a connection addressed. -/
theorem Connection.Addressed.keep (h : c.Addressed) {f : Connection → Connection}
    (hkeeps : Keeps f) : (f c).Addressed := h.congr (hkeeps.key c) (hkeeps.template c)

end

namespace Engine

variable {e e' : Engine} {s : Surroundings} {k : Flow.Key} {id i : Nat} {c : Connection}

/-! ## Runs -/

/-- Take steps one after the other. -/
def run (e : Engine) (steps : List (Surroundings × Event)) : Engine :=
  steps.foldl (fun e (s, event) => e.step s event) e

theorem run_append (e : Engine) (xs ys : List (Surroundings × Event)) :
    e.run (xs ++ ys) = (e.run xs).run ys := List.foldl_append

@[simp] theorem run_concat (e : Engine) (xs : List (Surroundings × Event)) (s : Surroundings)
    (event : Event) : e.run (xs ++ [(s, event)]) = (e.run xs).step s event := by
  rw [run_append]
  rfl

/-! ## Moves -/

/-- There is a connection with this number, it belongs to a flow, and it is addressed by it. -/
def Owns (e : Engine) (k : Flow.Key) (id : Nat) : Prop :=
  ∃ c, e.store.connection? id = some c ∧ c.key = k ∧ c.Addressed

/-- The engine after a packet was sent. -/
def post (e : Engine) (id : Nat) (buffer : List UInt8) : Engine :=
  { e with outbox := e.outbox ++ [⟨some id, buffer⟩] }

/-- The engine after a read was begun. -/
def begin (e : Engine) (id : Nat) : Engine := { e with tasks := e.tasks ++ [⟨id⟩] }

/-- The engine after a datagram was handed over. -/
def hand (e : Engine) (id : Nat) (payload : List UInt8) : Engine :=
  { e with handed := e.handed ++ [⟨id, payload⟩] }

/-- The small changes that are made for a flow. -/
inductive Move (k : Flow.Key) (e : Engine) : Engine → Prop
  | update {id : Nat} {f : Connection → Connection} (howns : e.Owns k id) (hkeeps : Keeps f) :
      Move k e (e.update id f)
  | terminate {id : Nat} (howns : e.Owns k id) : Move k e (e.terminate id)
  | find : Move k e { e with store := (e.store.find? k).1 }
  | openNew {c : Connection} (now : Instant) (idle : Nat) (hkey : c.key = k)
      (hopen : c.closed = false) (haddressed : c.Addressed) :
      Move k e { e with store := (e.store.openNew now idle c).1 }
  /-- A packet that answers the flow was written into a buffer. -/
  | post {id : Nat} {h : Headers} {buffer : List UInt8} {length n : Nat} (howns : e.Owns k id)
      (hanswers : h.Answers k) (hok : (h.writeUdpResponse buffer length).result = .ok n) :
      Move k e (e.post id ((h.writeUdpResponse buffer length).buffer.take n))
  | begin {id : Nat} (howns : e.Owns k id) : Move k e (e.begin id)
  | finishTask {id : Nat} (howns : e.Owns k id) : Move k e (e.finishTask id)
  | hand {id : Nat} {payload : List UInt8} (howns : e.Owns k id) : Move k e (e.hand id payload)

/-- Any number of small changes for a flow. -/
abbrev Moves (k : Flow.Key) : Engine → Engine → Prop := Relation.ReflTransGen (Move k)

/-! ## What stays -/

/-- A connection is never forgotten, and stays with its flow and its template. -/
theorem Move.connection? (h : Move k e e') (hc : e.store.connection? i = some c) :
    ∃ c', e'.store.connection? i = some c' ∧ c'.key = c.key ∧ c'.template = c.template := by
  cases h with
  | @update id f howns hkeeps =>
      by_cases hid : id = i
      · subst hid
        refine ⟨f c, ?_, hkeeps.key c, hkeeps.template c⟩
        exact (Flow.Store.connection?_update_self _ _ _).trans (congrArg _ hc)
      · exact ⟨c, (Flow.Store.connection?_update_of_ne hid _).trans hc, rfl, rfl⟩
  | @terminate id howns =>
      unfold Engine.terminate Flow.Store.terminate
      split
      · exact ⟨c, hc, rfl, rfl⟩
      · next c' hc' =>
          by_cases hid : id = i
          · subst hid
            refine ⟨c.close, ?_, rfl, rfl⟩
            exact (Flow.Store.connection?_update_self _ _ _).trans (congrArg _ hc)
          · refine ⟨c, ?_, rfl, rfl⟩
            exact (Flow.Store.connection?_update_of_ne hid _).trans hc
  | @openNew c' now idle _ _ _ =>
      cases Flow.Store.connection?_openNew_of_some (fun _ => rfl) hc now idle c' with
      | inl hsame => exact ⟨c, hsame, rfl, rfl⟩
      | inr hclosed => exact ⟨c.close, hclosed, rfl, rfl⟩
  | find | post | begin | finishTask | hand => exact ⟨c, hc, rfl, rfl⟩

/-- A connection stays with its socket. -/
theorem Move.target {c' : Connection} (h : Move k e e') (hc : e.store.connection? i = some c)
    (hc' : e'.store.connection? i = some c') : c'.target = c.target := by
  cases h with
  | @update id f howns hkeeps =>
      by_cases hid : id = i
      · subst hid
        have hnew := (Flow.Store.connection?_update_self e.store id f).trans (congrArg _ hc)
        cases hc'.symm.trans hnew
        exact hkeeps.target c
      · cases hc'.symm.trans ((Flow.Store.connection?_update_of_ne hid f).trans hc)
        rfl
  | @terminate id howns =>
      unfold Engine.terminate Flow.Store.terminate at hc'
      split at hc'
      · cases hc'.symm.trans hc
        rfl
      · by_cases hid : id = i
        · subst hid
          have hnew := (Flow.Store.connection?_update_self e.store id Flow.Tracked.close).trans
            (congrArg _ hc)
          cases hc'.symm.trans hnew
          rfl
        · cases hc'.symm.trans ((Flow.Store.connection?_update_of_ne hid _).trans hc)
          rfl
  | @openNew c₁ now idle _ _ _ =>
      cases Flow.Store.connection?_openNew_of_some (fun _ => rfl) hc now idle c₁ with
      | inl hsame =>
          cases hc'.symm.trans hsame
          rfl
      | inr hclosed =>
          cases hc'.symm.trans hclosed
          rfl
  | find | post | begin | finishTask | hand =>
      cases hc'.symm.trans hc
      rfl

/-- The settings stay. -/
theorem Move.config (h : Move k e e') : e'.config = e.config := by
  cases h <;> rfl

/-- The room in the table stays. -/
theorem Move.capacity (h : Move k e e') : e'.store.table.capacity = e.store.table.capacity := by
  cases h with
  | terminate howns => exact e.store.capacity_terminate _
  | find => exact e.store.capacity_find? k
  | openNew _ _ _ _ _ => exact e.store.capacity_openNew _ _ _
  | _ => rfl

theorem Owns.move (h : e.Owns k id) {k' : Flow.Key} (hmove : Move k' e e') : e'.Owns k id := by
  obtain ⟨c, hc, hkey, haddressed⟩ := h
  obtain ⟨c', hc', hkey', htemplate⟩ := hmove.connection? hc
  exact ⟨c', hc', hkey'.trans hkey, haddressed.congr hkey' htemplate⟩

/-- Moves of any flow leave it to its flow whose connection it is. -/
theorem Owns.moves (h : e.Owns k id) {k' : Flow.Key} (hmoves : Moves k' e e') : e'.Owns k id := by
  induction hmoves with
  | refl => exact h
  | tail _ hmove ih => exact ih.move hmove

/-- Moves leave a connection its key and its template. -/
theorem Moves.connection? (h : Moves k e e') (hc : e.store.connection? i = some c) :
    ∃ c', e'.store.connection? i = some c' ∧ c'.key = c.key ∧ c'.template = c.template := by
  induction h with
  | refl => exact ⟨c, hc, rfl, rfl⟩
  | tail _ hmove ih =>
      obtain ⟨c₁, hc₁, hkey₁, htemplate₁⟩ := ih
      obtain ⟨c', hc', hkey, htemplate⟩ := hmove.connection? hc₁
      exact ⟨c', hc', hkey.trans hkey₁, htemplate.trans htemplate₁⟩

/-- Moves leave a connection its target. -/
theorem Moves.target {c' : Connection} (h : Moves k e e') (hc : e.store.connection? i = some c)
    (hc' : e'.store.connection? i = some c') : c'.target = c.target := by
  induction h generalizing c' with
  | refl =>
      cases hc.symm.trans hc'
      rfl
  | tail hmoves hmove ih =>
      obtain ⟨c₁, hc₁, -⟩ := Moves.connection? hmoves hc
      exact (hmove.target hc₁ hc').trans (ih hc₁)

theorem Moves.config (h : Moves k e e') : e'.config = e.config := by
  induction h with
  | refl => rfl
  | tail _ hmove ih => exact hmove.config.trans ih

/-- Moves leave the room in the table as it is. -/
theorem Moves.capacity (h : Moves k e e') :
    e'.store.table.capacity = e.store.table.capacity := by
  induction h with
  | refl => rfl
  | tail _ hmove ih => exact hmove.capacity.trans ih

/-! ## Operations -/

theorem Owns.finishTask (h : e.Owns k id) : Moves k e (e.finishTask id) := .single (.finishTask h)

/-- Forwarding data of a flow is made of moves for it. -/
theorem Owns.forward (h : e.Owns k id) (s : Surroundings) (calls : SocketCalls)
    (payload : List UInt8) : Moves k e (e.forward s calls id payload) := by
  unfold Engine.forward
  split
  · exact .single (.terminate h)
  · have hupdate : Moves k e _ := .single (.update (f := fun c =>
      { c with lastActive := s.now, bytesWritten := c.bytesWritten + payload.length }) h
        ⟨fun _ => rfl, fun _ => rfl, fun _ => rfl, fun _ => rfl⟩)
    exact hupdate.tail (.hand (h.moves hupdate))

/-- What a connection of a flow is sent by answers the flow. -/
theorem Owns.answers (h : e.Owns k id) (hc : e.store.connection? id = some c) :
    c.template.Answers k := by
  obtain ⟨c', hc', rfl, haddressed⟩ := h
  rw [hc'] at hc
  cases hc
  exact haddressed.answers

/-- Sending a packet that answers a flow is made of moves for it. -/
theorem Owns.emit (h : e.Owns k id) {template : Headers} (hanswers : template.Answers k)
    (s : Surroundings) (buffer : List UInt8) (length : Nat) :
    Moves k e (e.emit s id (template.writeUdpResponse buffer length)) := by
  unfold Engine.emit
  split
  · exact .refl
  · next n hok =>
      split
      · exact .single (.post h hanswers hok)
      · exact .refl

/-- The end of a read is made of moves for the flow of the connection. -/
theorem Owns.received (h : e.Owns k id) (s : Surroundings)
    (result : Except Fault (List UInt8)) : Moves k e (e.received s id result) := by
  unfold Engine.received
  split
  · exact .refl
  · next c hc =>
      split
      · exact .refl
      · split
        · exact .single (.terminate h)
        · next data _ =>
            have hemit := h.emit (h.answers hc) s
              (Bytes.overwrite (List.replicate e.config.mtu 0) Headers.udpPayloadOffset data)
              data.length
            have hupdate := hemit.tail (.update (f := fun c =>
              { c with lastActive := s.now, bytesRead := c.bytesRead + data.length })
                (h.moves hemit) ⟨fun _ => rfl, fun _ => rfl, fun _ => rfl, fun _ => rfl⟩)
            exact hupdate.tail (.begin (h.moves hupdate))

/-- A connection that comes is owned by its flow, even if it has to leave at once. -/
theorem owns_openNew (hkey : c.key = k) (haddressed : c.Addressed) (now : Instant) (idle : Nat) :
    { e with store := (e.store.openNew now idle c).1 }.Owns k (e.store.openNew now idle c).2 := by
  cases Flow.Store.connection?_openNew (fun _ => rfl) e.store now idle c with
  | inl hsame => exact ⟨c, hsame, hkey, haddressed⟩
  | inr hclosed => exact ⟨c.close, hclosed, hkey, haddressed.close⟩

/-- The template of a connection that a datagram opens answers the flow of the datagram. -/
theorem addressed_make {d : Datagram} {udp : Packet.Udp} (hudp : d.headers.udp? = some udp)
    (target : Net.Endpoint) (now : Instant) :
    (Connection.make ⟨d.destination, d.source.port⟩ target d.headers.swap now).Addressed where
  isUdp := ⟨udp.swap, congrArg Transport.swap (Headers.udp?_eq_some.mp hudp)⟩
  answers := d.headers.answers_swap

/-- A connection that was opened is owned by its flow. -/
theorem openConnection_moves {d : Datagram} {udp : Packet.Udp} (hudp : d.headers.udp? = some udp)
    (e : Engine) (s : Surroundings) (calls : SocketCalls) :
    let opened := e.openConnection s calls ⟨d.destination, d.source.port⟩ d.headers
    Moves ⟨d.destination, d.source.port⟩ e opened.1 ∧
      ∀ id, opened.2 = .ok id → opened.1.Owns ⟨d.destination, d.source.port⟩ id := by
  simp only [openConnection]
  split
  · exact ⟨.refl, nofun⟩
  · exact ⟨.refl, nofun⟩
  · have haddressed := addressed_make hudp (s.proxy.resolve d.destination) s.now
    have hopen : Moves ⟨d.destination, d.source.port⟩ e _ :=
      .single (.openNew s.now e.config.udpIdle rfl rfl haddressed)
    have howns := owns_openNew (e := e) rfl haddressed s.now e.config.udpIdle
    split
    · refine ⟨hopen.tail (.begin howns), fun id hid => ?_⟩
      cases hid
      exact howns.move (.begin howns)
    · exact ⟨hopen, nofun⟩

/-! ## Coherence -/

/-- The table lists the open connections, each connection is addressed by its flow, and all work,
packets and data are about connections that exist. -/
structure Coherent (e : Engine) : Prop where
  accurate : e.store.Accurate
  addressed : e.store.Each Connection.Addressed
  tasks : ∀ task ∈ e.tasks, task.connection < e.store.connections.length
  outbox : ∀ p ∈ e.outbox, ∀ id ∈ p.connection, id < e.store.connections.length
  handed : ∀ h ∈ e.handed, h.connection < e.store.connections.length

/-- A connection that is owned is there. -/
theorem Owns.lt (h : e.Owns k id) : id < e.store.connections.length := by
  obtain ⟨c, hc, -⟩ := h
  exact (List.getElem?_eq_some_iff.mp hc).1

/-- Connections only become more. -/
theorem Move.length_le (h : Move k e e') :
    e.store.connections.length ≤ e'.store.connections.length := by
  by_contra hlt
  obtain ⟨c, hc⟩ : ∃ c, e.store.connection? e'.store.connections.length = some c :=
    ⟨_, List.getElem?_eq_getElem (by omega)⟩
  obtain ⟨c', hc', -⟩ := h.connection? hc
  exact absurd (List.getElem?_eq_some_iff.mp hc').1 (Nat.lt_irrefl _)

namespace Coherent

theorem empty (config : Config) : (Engine.empty config).Coherent where
  accurate := .empty config.capacity
  addressed _ _ hc := absurd hc nofun
  tasks := nofun
  outbox := nofun
  handed := nofun

/-- A connection is owned by its flow. -/
theorem owns (h : e.Coherent) (hc : e.store.connection? id = some c) : e.Owns c.key id :=
  ⟨c, hc, rfl, h.addressed id c hc⟩

/-- A connection that is found under a key belongs to that flow. -/
theorem owns_of_peek? (h : e.Coherent) (hpeek : e.store.table.peek? k = some id) :
    e.Owns k id := by
  obtain ⟨c, hc, rfl, -⟩ := h.accurate.peek?_iff.mp hpeek
  exact h.owns hc

/-- A move keeps the engine coherent. -/
theorem move (h : e.Coherent) (hmove : Move k e e') : e'.Coherent := by
  have hle := hmove.length_le
  have htasks := fun task ht => Nat.lt_of_lt_of_le (h.tasks task ht) hle
  have houtbox := fun p hp id hid => Nat.lt_of_lt_of_le (h.outbox p hp id hid) hle
  have hhanded := fun x hx => Nat.lt_of_lt_of_le (h.handed x hx) hle
  cases hmove with
  | @update id f howns hkeeps =>
      have haccurate := h.accurate.update id (f := f) fun c _ =>
        ⟨hkeeps.key c, hkeeps.closed c⟩
      exact ⟨haccurate, h.addressed.update (fun _ hc => hc.keep hkeeps) _, htasks, houtbox,
        hhanded⟩
  | terminate howns =>
      exact ⟨h.accurate.terminate _, h.addressed.terminate (fun _ hc => hc.close) _, htasks,
        houtbox, hhanded⟩
  | find => exact ⟨h.accurate.find? k, h.addressed, htasks, houtbox, hhanded⟩
  | openNew now idle hkey hopen haddressed =>
      exact ⟨h.accurate.openNew _ _ hopen,
        h.addressed.openNew (fun _ hc => hc.close) haddressed _ _, htasks, houtbox, hhanded⟩
  | post howns hanswers hok =>
      refine ⟨h.accurate, h.addressed, htasks, fun p hp id hid => ?_, hhanded⟩
      cases List.mem_append.mp hp with
      | inl hold => exact houtbox p hold id hid
      | inr hnew =>
          rw [List.mem_singleton.mp hnew] at hid
          exact Option.some.inj hid ▸ howns.lt
  | begin howns =>
      refine ⟨h.accurate, h.addressed, fun task ht => ?_, houtbox, hhanded⟩
      cases List.mem_append.mp ht with
      | inl hold => exact htasks task hold
      | inr hnew => exact List.mem_singleton.mp hnew ▸ howns.lt
  | finishTask howns =>
      exact ⟨h.accurate, h.addressed, fun task ht => htasks task (List.mem_of_mem_erase ht),
        houtbox, hhanded⟩
  | hand howns =>
      refine ⟨h.accurate, h.addressed, htasks, houtbox, fun x hx => ?_⟩
      cases List.mem_append.mp hx with
      | inl hold => exact hhanded x hold
      | inr hnew => exact List.mem_singleton.mp hnew ▸ howns.lt

theorem moves (h : e.Coherent) (hmoves : Moves k e e') : e'.Coherent := by
  induction hmoves with
  | refl => exact h
  | tail _ hmove ih => exact ih.move hmove

/-- Closing everything keeps the engine coherent. -/
theorem closeAll (h : e.Coherent) : e.closeAll.1.Coherent := by
  have hlength : e.closeAll.1.store.connections.length = e.store.connections.length :=
    Flow.Store.length_closeAllOf _ _
  refine ⟨h.accurate.closeAll, ?_, ?_, ?_, ?_⟩
  · exact Flow.Store.Each.closeAllOf (s := { e.store with table := e.store.table.clear.1 })
      h.addressed (fun _ hc => hc.close) _
  · rw [hlength]
    exact h.tasks
  · rw [hlength]
    exact h.outbox
  · rw [hlength]
    exact h.handed

end Coherent

/-! ## Steps -/

/-- The flow that a step is about. -/
def flow? (e : Engine) : Event → Option Flow.Key
  | .datagram _ d => some ⟨d.destination, d.source.port⟩
  | .received id _ | .abandoned id => (e.store.connection? id).map Connection.key
  | .closeAll => none

/-- A datagram is accepted, and sent where that says. -/
theorem handle_eq (e : Engine) (s : Surroundings) (calls : SocketCalls) (d : Datagram) :
    e.handle s calls d =
      match e.accept s calls d with
      | (e, some id) => e.forward s calls id d.payload
      | (e, none) => e := by
  unfold handle accept
  cases d.headers.udp? with
  | none => rfl
  | some _ =>
      simp only
      rcases e.store.find? ⟨d.destination, d.source.port⟩ with ⟨store, _ | id⟩
      · rcases e.openConnection s calls ⟨d.destination, d.source.port⟩ d.headers with ⟨e', x | id⟩
        · rfl
        · rfl
      · rfl

/-- A datagram is accepted by moves for its flow, and is to be sent on a connection of it. -/
theorem Coherent.accept_moves (h : e.Coherent) (s : Surroundings) (calls : SocketCalls)
    (d : Datagram) :
    Moves ⟨d.destination, d.source.port⟩ e (e.accept s calls d).1 ∧
      ∀ id, (e.accept s calls d).2 = some id →
        (e.accept s calls d).1.Owns ⟨d.destination, d.source.port⟩ id := by
  have hfind : Moves ⟨d.destination, d.source.port⟩ e _ := .single .find
  unfold accept
  split
  · exact ⟨.refl, nofun⟩
  · next udp hudp =>
      simp only [Flow.Store.find?, Table.snd_get?] at hfind ⊢
      cases hpeek : e.store.table.peek? ⟨d.destination, d.source.port⟩ with
      | none =>
          obtain ⟨hopen, howns⟩ := openConnection_moves hudp e s calls
          simp only
          split
          · next e' id heq =>
              rw [heq] at hopen howns
              refine ⟨hopen, fun i hi => ?_⟩
              cases hi
              exact howns _ rfl
          · next e' x heq =>
              rw [heq] at hopen
              exact ⟨hopen, nofun⟩
      | some id =>
          refine ⟨hfind, fun i hi => ?_⟩
          cases hi
          exact (h.owns_of_peek? hpeek).moves hfind

/-- A datagram is handled by moves for its flow. -/
theorem Coherent.handle (h : e.Coherent) (s : Surroundings) (calls : SocketCalls) (d : Datagram) :
    Moves ⟨d.destination, d.source.port⟩ e (e.handle s calls d) := by
  obtain ⟨haccept, howns⟩ := h.accept_moves s calls d
  rw [handle_eq]
  split
  · next heq =>
      rw [heq] at haccept howns
      exact haccept.trans ((howns _ rfl).forward s calls d.payload)
  · next heq =>
      rw [heq] at haccept
      exact haccept

/-- **Steps**: a step about a flow is made of moves for that flow. -/
theorem Coherent.step_moves (h : e.Coherent) (s : Surroundings) {event : Event}
    (hflow : e.flow? event = some k) : Moves k e (e.step s event) := by
  have howned {id : Nat} (hkey : (e.store.connection? id).map Connection.key = some k) :
      e.Owns k id := by
    obtain ⟨c, hc, rfl⟩ := Option.map_eq_some_iff.mp hkey
    exact h.owns hc
  cases event with
  | datagram calls d =>
      cases hflow
      exact h.handle s calls d
  | received id result =>
      have howns := howned hflow
      simp only [step]
      split
      · exact howns.finishTask.trans ((howns.moves howns.finishTask).received s result)
      · exact .refl
  | abandoned id =>
      simp only [step]
      split
      · exact (howned hflow).finishTask
      · exact .refl
  | closeAll => contradiction

/-- A step about no flow closes every connection, or does nothing. -/
theorem Coherent.step_of_flow?_none (h : e.Coherent) (s : Surroundings) {event : Event}
    (hflow : e.flow? event = none) : event = .closeAll ∨ e.step s event = e := by
  cases event with
  | datagram calls d => contradiction
  | received id result =>
      refine .inr (if_neg fun htask => ?_)
      have hlt : id < e.store.connections.length := h.tasks ⟨id⟩ (by simpa using htask)
      rw [flow?, Option.map_eq_none_iff, Flow.Store.connection?, List.getElem?_eq_none_iff] at hflow
      omega
  | abandoned id =>
      refine .inr (if_neg ?_)
      rw [Flow.Store.isClosed, Option.map_eq_none_iff.mp hflow]
      simp
  | closeAll => exact .inl rfl

/-- A step makes moves of one flow, closes every connection, or does nothing. -/
theorem Coherent.step_cases (h : e.Coherent) (s : Surroundings) (event : Event) :
    (∃ k, Moves k e (e.step s event)) ∨ e.step s event = e.closeAll.1 ∨ e.step s event = e := by
  cases hflow : e.flow? event with
  | some k => exact .inl ⟨k, h.step_moves s hflow⟩
  | none =>
      refine .inr ((h.step_of_flow?_none s hflow).imp_left fun hall => ?_)
      rw [hall]
      rfl

/-- Steps keep the engine coherent. -/
theorem Coherent.step (h : e.Coherent) (s : Surroundings) (event : Event) :
    (e.step s event).Coherent := by
  rcases h.step_cases s event with ⟨k, hmoves⟩ | hall | hsame
  · exact h.moves hmoves
  · rw [hall]
    exact h.closeAll
  · rwa [hsame]

/-- No step takes a connection away from its flow, or its template from it. -/
theorem Coherent.connection?_step (h : e.Coherent) (hc : e.store.connection? i = some c)
    (s : Surroundings) (event : Event) :
    ∃ c', (e.step s event).store.connection? i = some c' ∧ c'.key = c.key ∧
      c'.template = c.template := by
  rcases h.step_cases s event with ⟨k, hmoves⟩ | hall | hsame
  · exact hmoves.connection? hc
  · rw [hall]
    have hclosed := Flow.Store.connection?_closeAllOf (fun _ => rfl)
      { e.store with table := e.store.table.clear.1 } (e.store.table.clear.2.map Prod.snd) i
    have hstays : { e.store with table := e.store.table.clear.1 }.connection? i = some c := hc
    rw [hstays] at hclosed
    split at hclosed
    · exact ⟨c.close, hclosed, rfl, rfl⟩
    · exact ⟨c, hclosed, rfl, rfl⟩
  · rw [hsame]
    exact ⟨c, hc, rfl, rfl⟩

/-- Every run leads to a coherent engine. -/
theorem coherent_run (config : Config) (steps : List (Surroundings × Event)) :
    ((Engine.empty config).run steps).Coherent := by
  induction steps using List.reverseRecOn with
  | nil => exact .empty config
  | append_singleton steps x ih =>
      rw [run_concat]
      exact ih.step x.1 x.2

theorem Coherent.config_step (h : e.Coherent) (s : Surroundings) (event : Event) :
    (e.step s event).config = e.config := by
  rcases h.step_cases s event with ⟨k, hmoves⟩ | hall | hsame
  · exact hmoves.config
  · rw [hall]
    rfl
  · rw [hsame]

/-- The settings stay throughout a run. -/
theorem config_run (config : Config) (steps : List (Surroundings × Event)) :
    ((Engine.empty config).run steps).config = config := by
  induction steps using List.reverseRecOn with
  | nil => rfl
  | append_singleton steps x ih =>
      rw [run_concat]
      exact ((coherent_run config steps).config_step x.1 x.2).trans ih

theorem Coherent.capacity_step (h : e.Coherent) (s : Surroundings) (event : Event) :
    (e.step s event).store.table.capacity = e.store.table.capacity := by
  rcases h.step_cases s event with ⟨k, hmoves⟩ | hall | hsame
  · exact hmoves.capacity
  · rw [hall]
    exact e.store.capacity_closeAll
  · rw [hsame]

/-- The room in the table stays throughout a run. -/
theorem capacity_run (config : Config) (steps : List (Surroundings × Event)) :
    ((Engine.empty config).run steps).store.table.capacity = max config.capacity 1 := by
  induction steps using List.reverseRecOn with
  | nil => rfl
  | append_singleton steps x ih =>
      rw [run_concat]
      exact ((coherent_run config steps).capacity_step x.1 x.2).trans ih

/-- **Open connections**: after every run the table lists exactly the open connections. -/
theorem openListed_run (config : Config) (steps : List (Surroundings × Event)) :
    ((Engine.empty config).run steps).store.OpenListed (max config.capacity 1) := by
  rw [← capacity_run config steps]
  exact (coherent_run config steps).accurate.openListed

end Engine

end FlowRelay.Udp
