import Mathlib.Logic.Relation
import FlowRelay.Proofs.Flow.Listing
import FlowRelay.Proofs.Tcp.Run

/-!
# FlowRelay.Proofs.Tcp.Moves

The small changes that the steps of the engine are made of, each for one flow.

1. *Moves* (`Move`): an act is done for a connection of the flow, the flow is looked up, a
   connection comes to it, or it is answered without one.
2. *Plans* (`Plan.About`): what a step about the flow is going to do is made of moves for it.
3. *Coherence* (`Coherent`): the table lists the open connections, connections are addressed by
   their flows, and everything in the engine is about a connection that exists.
-/

namespace FlowRelay.Tcp

open Packet

instance : Flow.LawfulTracked Connection where
  key_close _ := rfl
  isClosed_close _ := rfl
  close_close := Connection.close_close

/-- The template of a connection addresses packets of its flow. -/
structure Connection.Addressed (c : Connection) : Prop where
  isTcp : ∃ t, c.template.transport = .tcp t
  answers : c.template.Answers c.key

theorem Connection.Addressed.close {c : Connection} (h : c.Addressed) : c.close.Addressed :=
  ⟨h.isTcp, h.answers⟩

/-- Acts keep a connection addressed. -/
theorem Connection.Addressed.change {c : Connection} (h : c.Addressed) (a : Act) :
    (a.change c).Addressed := by
  refine ⟨?_, ?_⟩
  · rw [a.template_change]
    exact h.isTcp
  · rw [a.template_change, a.key_change]
    exact h.answers

namespace Engine

variable {e e' : Engine} {s : Surroundings} {k : Flow.Key} {id i : Nat} {c : Connection}

/-! ## Moves -/

/-- There is a connection with this number, it belongs to a flow, and it is addressed by it. -/
def Owns (e : Engine) (k : Flow.Key) (id : Nat) : Prop :=
  ∃ c, e.store.connection? id = some c ∧ c.key = k ∧ c.Addressed

/-- The small changes that are made for a flow. -/
inductive Move (k : Flow.Key) (e : Engine) : Engine → Prop
  | act {id : Nat} (a : Act) (howns : e.Owns k id) : Move k e (e.perform id a)
  | find : Move k e { e with store := (e.store.find? k).1 }
  | openNew {c : Connection} (now : Instant) (idle : Nat) (hkey : c.key = k)
      (hopen : c.closed = false) (haddressed : c.Addressed) :
      Move k e { e with store := (e.store.openNew now idle c).1 }
  /-- A packet without data answers the flow, though it belongs to no connection. -/
  | refuse {packet : List UInt8} (hflow : Packet.flow? packet = some k)
      (hroom : Headers.tcpPayloadOffset ≤ e.config.mtu) : Move k e (e.post none packet)

/-- Any number of small changes for a flow. -/
abbrev Moves (k : Flow.Key) : Engine → Engine → Prop := Relation.ReflTransGen (Move k)

/-! ## What stays -/

/-- A connection is never forgotten, and stays with its flow and its template. -/
theorem Move.connection? (h : Move k e e') (hc : e.store.connection? i = some c) :
    ∃ c', e'.store.connection? i = some c' ∧ c'.key = c.key ∧ c'.template = c.template := by
  cases h with
  | @act id a howns =>
      by_cases hid : id = i
      · subst hid
        refine ⟨a.change c, ?_, a.key_change c, a.template_change c⟩
        rw [connection?_perform, hc, Option.map_some]
      · exact ⟨c, (connection?_perform_of_ne hid e a).trans hc, rfl, rfl⟩
  | @openNew c' now idle _ _ _ =>
      cases Flow.Store.connection?_openNew_of_some Connection.close_close hc now idle c' with
      | inl hsame => exact ⟨c, hsame, rfl, rfl⟩
      | inr hclosed => exact ⟨c.close, hclosed, rfl, rfl⟩
  | find | refuse => exact ⟨c, hc, rfl, rfl⟩

theorem Move.config (h : Move k e e') : e'.config = e.config := by
  cases h with
  | act a howns => exact config_perform e _ a
  | _ => rfl

theorem Move.inspecting (h : Move k e e') : e'.inspecting = e.inspecting := by
  cases h with
  | act a howns => exact inspecting_perform e _ a
  | _ => rfl

/-- The room in the table stays. -/
theorem Move.capacity (h : Move k e e') : e'.store.table.capacity = e.store.table.capacity := by
  cases h with
  | act a howns =>
      rw [store_perform]
      split
      · exact e.store.capacity_terminate _
      · rfl
  | find => exact e.store.capacity_find? k
  | openNew _ _ _ _ _ => exact e.store.capacity_openNew _ _ _
  | refuse => rfl

theorem Owns.move (h : e.Owns k id) {k' : Flow.Key} (hmove : Move k' e e') : e'.Owns k id := by
  obtain ⟨c, hc, hkey, haddressed⟩ := h
  obtain ⟨c', hc', hkey', htemplate⟩ := hmove.connection? hc
  refine ⟨c', hc', hkey'.trans hkey, ?_, ?_⟩
  · rw [htemplate]
    exact haddressed.isTcp
  · rw [htemplate, hkey']
    exact haddressed.answers

/-- Moves of any flow leave it to its flow whose connection it is. -/
theorem Owns.moves (h : e.Owns k id) {k' : Flow.Key} (hmoves : Moves k' e e') : e'.Owns k id := by
  induction hmoves with
  | refl => exact h
  | tail _ hmove ih => exact ih.move hmove

/-- Moves leave a connection its key and its template. -/
theorem Moves.connection? (h : Moves k e e') (hc : e.store.connection? i = some c) :
    ∃ c', e'.store.connection? i = some c' ∧ c'.key = c.key ∧ c'.template = c.template := by
  induction h with
  | refl => exact ⟨c, hc, rfl, rfl⟩
  | tail _ hmove ih =>
      obtain ⟨c', hc', hkey, htemplate⟩ := ih
      obtain ⟨c'', hc'', hkey', htemplate'⟩ := hmove.connection? hc'
      exact ⟨c'', hc'', hkey'.trans hkey, htemplate'.trans htemplate⟩

theorem Moves.config (h : Moves k e e') : e'.config = e.config := by
  induction h with
  | refl => rfl
  | tail _ hmove ih => exact hmove.config.trans ih

theorem Moves.inspecting (h : Moves k e e') : e'.inspecting = e.inspecting := by
  induction h with
  | refl => rfl
  | tail _ hmove ih => exact hmove.inspecting.trans ih

/-- Moves leave the room in the table as it is. -/
theorem Moves.capacity (h : Moves k e e') :
    e'.store.table.capacity = e.store.table.capacity := by
  induction h with
  | refl => rfl
  | tail _ hmove ih => exact hmove.capacity.trans ih

/-! ## Plans -/

/-- Acts for a connection of a flow are moves for the flow. -/
theorem Owns.carryOut (h : e.Owns k id) (acts : List Act) : Moves k e (e.carryOut id acts) := by
  induction acts generalizing e with
  | nil => exact .refl
  | cons a acts ih =>
      have hmove := Move.act a h
      exact (Relation.ReflTransGen.single hmove).trans (ih (h.move hmove))

/-- A connection that comes is owned by its flow, even if it has to leave at once. -/
theorem owns_openNew (hkey : c.key = k) (haddressed : c.Addressed) (now : Instant) (idle : Nat) :
    { e with store := (e.store.openNew now idle c).1 }.Owns k e.store.connections.length := by
  cases Flow.Store.connection?_openNew Connection.close_close e.store now idle c with
  | inl hsame => exact ⟨c, hsame, hkey, haddressed⟩
  | inr hclosed => exact ⟨c.close, hclosed, hkey, haddressed.isTcp, haddressed.answers⟩

/-- The template of a connection that a segment opens answers the flow of the segment. -/
theorem addressed_make {d : Datagram} {tcp : Packet.Tcp} (htcp : d.headers.tcp? = some tcp)
    (initial : UInt32) (inspector : Option Http.Inspector) (now : Instant) :
    (Connection.make ⟨d.destination, d.source.port⟩ d.headers.swap initial tcp.sequence inspector
      now).Addressed where
  isTcp := ⟨tcp.swap, congrArg Transport.swap (Headers.tcp?_eq_some.mp htcp)⟩
  answers := d.headers.answers_swap

/-- A connection is accepted for its flow. -/
theorem accept_moves (hkey : c.key = k) (hopen : c.closed = false) (haddressed : c.Addressed)
    (e : Engine) (s : Surroundings) (target : Net.Endpoint) :
    Moves k e (e.follow s (.accept c target)) := by
  have hnew : Moves k e _ := .single (.openNew s.now e.config.tcpIdle hkey hopen haddressed)
  refine hnew.trans ?_
  exact (owns_openNew hkey haddressed _ _).carryOut _

/-- The RST that refuses a SYN is a packet of the flow of the SYN, and a buffer has room for it. -/
theorem rejection?_eq_some {headers : Headers} (hanswers : headers.swap.Answers k)
    {config : Config} {syn : Packet.Tcp} {packet : List UInt8}
    (h : rejection? config s headers syn = some packet) :
    Packet.flow? packet = some k ∧ Headers.tcpPayloadOffset ≤ config.mtu := by
  obtain ⟨n, hok, rfl⟩ := taken?_eq_some h
  have hroom := (Headers.writeTcpResponse_ok hok).2.1
  rw [List.length_replicate] at hroom
  exact ⟨hanswers.flow?_writeTcpResponse hok, hroom⟩

/-- A SYN is refused for its flow. -/
theorem refuse_moves {packet? : Option (List UInt8)} (hpacket : ∀ packet ∈ packet?,
      Packet.flow? packet = some k ∧ Headers.tcpPayloadOffset ≤ e.config.mtu)
    (s : Surroundings) : Moves k e (e.follow s (.refuse packet?)) := by
  cases packet? with
  | none => exact .refl
  | some packet =>
      obtain ⟨hflow, hroom⟩ := hpacket packet rfl
      exact .single (.refuse hflow hroom)

/-! ## Coherence -/

/-- The table lists the open connections, each connection is addressed by its flow, and all work,
packets and data are about connections that exist. -/
structure Coherent (e : Engine) : Prop where
  accurate : e.store.Accurate
  addressed : e.store.Each Connection.Addressed
  tasks : ∀ task ∈ e.tasks, task.connection < e.store.connections.length
  outbox : ∀ p ∈ e.outbox, ∀ id ∈ p.connection, id < e.store.connections.length
  handed : ∀ h ∈ e.handed, h.connection < e.store.connections.length

/-- A connection that is owned is there. -/
theorem Owns.lt (h : e.Owns k id) : id < e.store.connections.length := by
  obtain ⟨c, hc, -⟩ := h
  exact (List.getElem?_eq_some_iff.mp hc).1

/-- Connections only become more. -/
theorem Move.length_le (h : Move k e e') :
    e.store.connections.length ≤ e'.store.connections.length := by
  by_contra hlt
  obtain ⟨c, hc⟩ : ∃ c, e.store.connection? e'.store.connections.length = some c :=
    ⟨_, List.getElem?_eq_getElem (by omega)⟩
  obtain ⟨c', hc', -⟩ := h.connection? hc
  exact absurd (List.getElem?_eq_some_iff.mp hc').1 (Nat.lt_irrefl _)

namespace Coherent

theorem empty (config : Config) (inspecting : Bool) :
    (Engine.empty config inspecting).Coherent where
  accurate := .empty config.capacity
  addressed _ _ hc := absurd hc nofun
  tasks := nofun
  outbox := nofun
  handed := nofun

/-- A connection is owned by its flow. -/
theorem owns (h : e.Coherent) (hc : e.store.connection? id = some c) : e.Owns c.key id :=
  ⟨c, hc, rfl, h.addressed id c hc⟩

/-- A move keeps the engine coherent. -/
theorem move (h : e.Coherent) (hmove : Move k e e') : e'.Coherent := by
  have hle := hmove.length_le
  have htasks := fun task ht => Nat.lt_of_lt_of_le (h.tasks task ht) hle
  have houtbox := fun p hp id hid => Nat.lt_of_lt_of_le (h.outbox p hp id hid) hle
  have hhanded := fun x hx => Nat.lt_of_lt_of_le (h.handed x hx) hle
  cases hmove with
  | @act id a howns =>
      have hlt := Nat.lt_of_lt_of_le howns.lt hle
      refine ⟨?_, ?_, fun task ht => ?_, fun p hp i hi => ?_, fun x hx => ?_⟩
      · rw [store_perform]
        split
        · exact h.accurate.terminate id
        · next hstays =>
            exact h.accurate.update id fun c _ =>
              ⟨a.key_change c, a.closed_change (Bool.not_eq_true _ ▸ hstays) c⟩
      · rw [store_perform]
        split
        · exact h.addressed.terminate (fun _ hc => hc.close) id
        · exact h.addressed.update (fun _ hc => hc.change a) id
      · rw [tasks_perform] at ht
        exact (Act.mem_work ht).elim (htasks task) fun hid => hid ▸ hlt
      · rw [outbox_perform] at hp
        rcases List.mem_append.mp hp with hold | hnew
        · exact houtbox p hold i hi
        · obtain ⟨packet, -, rfl⟩ := List.mem_map.mp hnew
          exact Option.some.inj hi ▸ hlt
      · rw [handed_perform] at hx
        rcases List.mem_append.mp hx with hold | hnew
        · exact hhanded x hold
        · exact Act.connection_of_mem_handed hnew ▸ hlt
  | find => exact ⟨h.accurate.find? k, h.addressed, htasks, houtbox, hhanded⟩
  | openNew now idle hkey hopen haddressed =>
      exact ⟨h.accurate.openNew _ _ hopen,
        h.addressed.openNew (fun _ hc => hc.close) haddressed _ _, htasks, houtbox, hhanded⟩
  | refuse hflow hroom =>
      refine ⟨h.accurate, h.addressed, htasks, fun p hp id hid => ?_, hhanded⟩
      rcases List.mem_append.mp hp with hold | hnew
      · exact houtbox p hold id hid
      · rw [List.mem_singleton.mp hnew] at hid
        contradiction

theorem moves (h : e.Coherent) (hmoves : Moves k e e') : e'.Coherent := by
  induction hmoves with
  | refl => exact h
  | tail _ hmove ih => exact ih.move hmove

/-- Closing everything keeps the engine coherent. -/
theorem closeAll (h : e.Coherent) : e.closeAll.1.Coherent := by
  have hlength : e.closeAll.1.store.connections.length = e.store.connections.length :=
    Flow.Store.length_closeAllOf _ _
  refine ⟨h.accurate.closeAll, ?_, ?_, ?_, ?_⟩
  · exact Flow.Store.Each.closeAllOf (s := { e.store with table := e.store.table.clear.1 })
      h.addressed (fun _ hc => hc.close) _
  · rw [hlength]
    exact h.tasks
  · rw [hlength]
    exact h.outbox
  · rw [hlength]
    exact h.handed

end Coherent

/-! ## Steps -/

/-- The flow that a step is about. -/
def flow? (e : Engine) : Event → Option Flow.Key
  | .segment _ d => some ⟨d.destination, d.source.port⟩
  | .connected id _ _ | .received id _ | .took id _ | .wrote id _ =>
    (e.store.connection? id).map Connection.key
  | .abandoned task => (e.store.connection? task.connection).map Connection.key
  | .closeAll => none

/-- A connection that is found under a key belongs to that flow. -/
theorem Coherent.owns_of_peek? (h : e.Coherent) (hpeek : e.store.table.peek? k = some id) :
    e.Owns k id := by
  obtain ⟨c, hc, rfl, -⟩ := h.accurate.peek?_iff.mp hpeek
  exact h.owns hc

/-- A plan is about a flow: what is done is done for a connection of the flow, for one that comes to
it, or to answer it. -/
inductive Plan.About (e : Engine) (k : Flow.Key) : Plan → Prop
  | idle : About e k .idle
  | act {id : Nat} {acts : List Act} (howns : e.Owns k id) : About e k (.act id acts)
  | find {id : Nat} {acts : List Act} (hpeek : e.store.table.peek? k = some id) :
      About e k (.find k id acts)
  | accept {c : Connection} {target : Net.Endpoint} (hkey : c.key = k) (hopen : c.closed = false)
      (haddressed : c.Addressed) (hnone : e.store.table.peek? k = none) :
      About e k (.accept c target)
  | refuse {packet? : Option (List UInt8)} (hpacket : ∀ packet ∈ packet?,
        Packet.flow? packet = some k ∧ Headers.tcpPayloadOffset ≤ e.config.mtu) :
      About e k (.refuse packet?)

/-- What is going to be done about a packet is about its flow. -/
theorem about_segment (e : Engine) (s : Surroundings) (initial : UInt32) (d : Datagram) :
    (e.plan s (.segment initial d)).About e ⟨d.destination, d.source.port⟩ := by
  have hplan := e.plan_segment s initial d
  generalize e.plan s (.segment initial d) = p at hplan
  cases hplan with
  | idle => exact .idle
  | find htcp hpeek => exact .find hpeek
  | accept htcp hsyn hnone hsocket =>
      exact .accept rfl rfl (addressed_make htcp initial _ s.now) hnone
  | refuse htcp hsyn hnone hsocket =>
      exact .refuse fun packet hpacket => rejection?_eq_some d.headers.answers_swap hpacket

/-- The plan of a step about a flow is about that flow. -/
theorem Coherent.about_plan (h : e.Coherent) (s : Surroundings) {event : Event}
    (hflow : e.flow? event = some k) : (e.plan s event).About e k := by
  have hact {id : Nat} (hkey : (e.store.connection? id).map Connection.key = some k) (p : Prop)
      [Decidable p] (acts : List Act) : (if p then Plan.act id acts else .idle).About e k := by
    obtain ⟨c, hc, rfl⟩ := Option.map_eq_some_iff.mp hkey
    split
    · exact .act (h.owns hc)
    · exact .idle
  cases event with
  | segment initial d =>
      cases hflow
      exact about_segment e s initial d
  | connected id target result => exact hact hflow _ _
  | received id result => exact hact hflow _ _
  | took id count => exact hact hflow _ _
  | wrote id result => exact hact hflow _ _
  | abandoned task => exact hact hflow _ _
  | closeAll => contradiction

/-- What follows a plan about a flow is made of moves for that flow. -/
theorem Coherent.follow_moves (h : e.Coherent) (s : Surroundings) {p : Plan} (hp : p.About e k) :
    Moves k e (e.follow s p) := by
  cases hp with
  | idle => exact .refl
  | act howns => exact howns.carryOut _
  | find hpeek =>
      have hfind : Moves k e _ := .single .find
      exact hfind.trans (((h.owns_of_peek? hpeek).moves hfind).carryOut _)
  | accept hkey hopen haddressed hnone => exact accept_moves hkey hopen haddressed e s _
  | refuse hpacket => exact refuse_moves hpacket s

/-- **Steps**: a step about a flow is made of moves for that flow. -/
theorem Coherent.step_moves (h : e.Coherent) (s : Surroundings) {event : Event}
    (hflow : e.flow? event = some k) : Moves k e (e.step s event) := by
  rw [step_eq]
  exact h.follow_moves s (h.about_plan s hflow)

/-- A packet of the device carries a segment of a flow. -/
structure Carries (d : Datagram) (k : Flow.Key) (tcp : Packet.Tcp) : Prop where
  tcp? : d.headers.tcp? = some tcp
  key : (⟨d.destination, d.source.port⟩ : Flow.Key) = k

/-- A segment of a flow is handled by the open connection of the flow. -/
theorem Coherent.step_segment (h : e.Coherent) (hc : e.store.connection? id = some c)
    (hopen : c.closed = false) {d : Datagram} {tcp : Packet.Tcp} (hd : Carries d c.key tcp)
    (s : Surroundings) (initial : UInt32) :
    e.step s (.segment initial d) =
      { e with store := (e.store.find? c.key).1 }.carryOut id
        (c.segmentActs e.config s (e.tasks.contains (.write id)) tcp d.payload) := by
  have hpeek : e.store.table.peek? c.key = some id := h.accurate.peek?_iff.mpr ⟨c, hc, rfl, hopen⟩
  simp only [step_eq, plan, hd.tcp?, hd.key, hpeek, follow, actsFor_of_some hc, hopen,
    Bool.false_eq_true, if_false]

/-- A step about no flow closes every connection, or does nothing. -/
theorem Coherent.step_of_flow?_none (h : e.Coherent) (s : Surroundings) {event : Event}
    (hflow : e.flow? event = none) : event = .closeAll ∨ e.step s event = e := by
  have hidle (task : Task)
      (hnone : (e.store.connection? task.connection).map Connection.key = none) :
      task ∉ e.tasks := by
    intro htask
    have hlt := h.tasks task htask
    rw [Option.map_eq_none_iff, Flow.Store.connection?, List.getElem?_eq_none_iff] at hnone
    omega
  cases event with
  | segment initial d => contradiction
  | connected id target result =>
      exact .inr (if_neg (by simpa using hidle (.connect id target) hflow))
  | received id result => exact .inr (if_neg (by simpa using hidle (.read id) hflow))
  | took id count => exact .inr (if_neg (by simpa using hidle (.write id) hflow))
  | wrote id result => exact .inr (if_neg (by simpa using hidle (.write id) hflow))
  | abandoned task =>
      refine .inr (if_neg ?_)
      rw [Flow.Store.isClosed, Option.map_eq_none_iff.mp hflow]
      simp
  | closeAll => exact .inl rfl

/-- A step makes moves of one flow, closes every connection, or does nothing. -/
theorem Coherent.step_cases (h : e.Coherent) (s : Surroundings) (event : Event) :
    (∃ k, Moves k e (e.step s event)) ∨ e.step s event = e.closeAll.1 ∨ e.step s event = e := by
  cases hflow : e.flow? event with
  | some k => exact .inl ⟨k, h.step_moves s hflow⟩
  | none =>
      refine .inr ((h.step_of_flow?_none s hflow).imp_left fun hall => ?_)
      rw [hall]
      rfl

/-- Steps keep the engine coherent. -/
theorem Coherent.step (h : e.Coherent) (s : Surroundings) (event : Event) :
    (e.step s event).Coherent := by
  rcases h.step_cases s event with ⟨k, hmoves⟩ | hall | hsame
  · exact h.moves hmoves
  · rw [hall]
    exact h.closeAll
  · rwa [hsame]

/-- No step takes a connection away from its flow, or its template from it. -/
theorem Coherent.connection?_step (h : e.Coherent) (hc : e.store.connection? i = some c)
    (s : Surroundings) (event : Event) :
    ∃ c', (e.step s event).store.connection? i = some c' ∧ c'.key = c.key ∧
      c'.template = c.template := by
  rcases h.step_cases s event with ⟨k, hmoves⟩ | hall | hsame
  · exact hmoves.connection? hc
  · rw [hall]
    have hclosed := Flow.Store.connection?_closeAllOf Connection.close_close
      { e.store with table := e.store.table.clear.1 } (e.store.table.clear.2.map Prod.snd) i
    have hstays : { e.store with table := e.store.table.clear.1 }.connection? i = some c := hc
    rw [hstays] at hclosed
    by_cases hi : i ∈ e.store.table.clear.2.map Prod.snd
    · rw [if_pos hi] at hclosed
      exact ⟨c.close, hclosed, rfl, rfl⟩
    · rw [if_neg hi] at hclosed
      exact ⟨c, hclosed, rfl, rfl⟩
  · rw [hsame]
    exact ⟨c, hc, rfl, rfl⟩

/-- There is nothing to see of a connection that has not come. -/
theorem Coherent.view_of_none (h : e.Coherent) (hnone : e.store.connection? i = none) :
    e.view i = .unborn := by
  have hge : e.store.connections.length ≤ i := List.getElem?_eq_none_iff.mp hnone
  have hidle (task : Task) (htask : task.connection = i) : e.tasks.count task = 0 := by
    refine List.count_eq_zero.mpr fun hmem => ?_
    have hlt := h.tasks task hmem
    omega
  have hsent : e.sent i = [] := by
    refine List.map_eq_nil_iff.mpr (List.filter_eq_nil_iff.mpr fun p hp => ?_)
    simp only [decide_eq_true_eq]
    intro hconnection
    have hlt := h.outbox p hp i hconnection
    omega
  have hhanded : e.handedTo i = [] := by
    have hnothing : e.handed.filter (·.connection = i) = [] := by
      refine List.filter_eq_nil_iff.mpr fun x hx => ?_
      simp only [decide_eq_true_eq]
      intro hconnection
      have hlt := h.handed x hx
      omega
    rw [handedTo, hnothing]
    rfl
  simp only [view, hnone, hidle (.read i) rfl, hidle (.write i) rfl, hsent, hhanded]
  rfl

/-- Every run leads to a coherent engine. -/
theorem coherent_run (config : Config) (inspecting : Bool) (steps : List (Surroundings × Event)) :
    ((Engine.empty config inspecting).run steps).Coherent := by
  induction steps using List.reverseRecOn with
  | nil => exact .empty config inspecting
  | append_singleton steps x ih =>
      rw [run_concat]
      exact ih.step x.1 x.2

theorem Coherent.config_step (h : e.Coherent) (s : Surroundings) (event : Event) :
    (e.step s event).config = e.config := by
  rcases h.step_cases s event with ⟨k, hmoves⟩ | hall | hsame
  · exact hmoves.config
  · rw [hall]
    rfl
  · rw [hsame]

/-- The settings stay throughout a run. -/
theorem config_run (config : Config) (inspecting : Bool) (steps : List (Surroundings × Event)) :
    ((Engine.empty config inspecting).run steps).config = config := by
  induction steps using List.reverseRecOn with
  | nil => rfl
  | append_singleton steps x ih =>
      rw [run_concat]
      exact ((coherent_run config inspecting steps).config_step x.1 x.2).trans ih

theorem Coherent.inspecting_step (h : e.Coherent) (s : Surroundings) (event : Event) :
    (e.step s event).inspecting = e.inspecting := by
  rcases h.step_cases s event with ⟨k, hmoves⟩ | hall | hsame
  · exact hmoves.inspecting
  · rw [hall]
    rfl
  · rw [hsame]

/-- Inspection stays on or off throughout a run. -/
theorem inspecting_run (config : Config) (inspecting : Bool)
    (steps : List (Surroundings × Event)) :
    ((Engine.empty config inspecting).run steps).inspecting = inspecting := by
  induction steps using List.reverseRecOn with
  | nil => rfl
  | append_singleton steps x ih =>
      rw [run_concat]
      exact ((coherent_run config inspecting steps).inspecting_step x.1 x.2).trans ih

theorem Coherent.capacity_step (h : e.Coherent) (s : Surroundings) (event : Event) :
    (e.step s event).store.table.capacity = e.store.table.capacity := by
  rcases h.step_cases s event with ⟨k, hmoves⟩ | hall | hsame
  · exact hmoves.capacity
  · rw [hall]
    exact e.store.capacity_closeAll
  · rw [hsame]

/-- The room in the table stays throughout a run. -/
theorem capacity_run (config : Config) (inspecting : Bool) (steps : List (Surroundings × Event)) :
    ((Engine.empty config inspecting).run steps).store.table.capacity = max config.capacity 1 := by
  induction steps using List.reverseRecOn with
  | nil => rfl
  | append_singleton steps x ih =>
      rw [run_concat]
      exact ((coherent_run config inspecting steps).capacity_step x.1 x.2).trans ih

/-- **Open connections**: after every run the table lists exactly the open connections. -/
theorem openListed_run (config : Config) (inspecting : Bool) (steps : List (Surroundings × Event)) :
    ((Engine.empty config inspecting).run steps).store.OpenListed (max config.capacity 1) := by
  rw [← capacity_run config inspecting steps]
  exact (coherent_run config inspecting steps).accurate.openListed

end Engine

end FlowRelay.Tcp
