import FlowRelay.Proofs.Tcp.Moves
import FlowRelay.Proofs.Tcp.SequenceSpace

/-!
# FlowRelay.Proofs.Tcp.Service

Every open connection is being served: the work that its status calls for is under way, once each.

1. *Service* (`Serves`): while the outbound socket connects there is one connect and no writer,
   behind that there is one writer with its queue and, up to the end of the stream, one read.
2. *Acts* (`Leaves`): what is done for a connection keeps it served, or closes it.  Acts leave the
   work for all others as it is.
3. *Steps* (`Coherent.tended_step`): so does every step, if somebody drives connects and reads.
4. *Writers* (`writersStarted`): a writer is started on the way out of the first status only.
5. *Runs* (`run_service`): what follows for every connection at every point of a run.
-/

namespace FlowRelay.Tcp

open Packet

/-! ## Service -/

/-- The tasks among these that are for a connection. -/
def workFor (tasks : List Task) (id : Nat) : List Task := tasks.filter (·.connection = id)

/-- What is under way for an open connection, by how far it has come. -/
inductive Serves (id : Nat) : Status → WriterQueue → List Task → Prop
  /-- The outbound socket is connecting, and nobody writes to it yet. -/
  | connecting (target : Net.Endpoint) : Serves id .synSent .absent [.connect id target]
  /-- The outbound socket is written to and read from. -/
  | relaying {status : Status} (segments : List Segment)
      (hstatus : status = .synReceived ∨ status = .established) :
      Serves id status (.attached segments) [.write id, .read id]
  /-- The end of the stream was read, and what is left is written. -/
  | ending (segments : List Segment) : Serves id .lastAck (.attached segments) [.write id]
  /-- The device ended its side, and a read that was under way has not ended yet. -/
  | endingRead (segments : List Segment) :
      Serves id .lastAck (.attached segments) [.write id, .read id]

namespace Serves

variable {id : Nat} {status : Status} {q : WriterQueue} {work : List Task}

/-- No work is done twice for a connection that is served. -/
theorem nodup (h : Serves id status q work) : work.Nodup := by
  cases h <;> simp

/-- A connect is under way only in front of the handshake. -/
theorem of_connect {target : Net.Endpoint} (h : Serves id status q work)
    (htask : Task.connect id target ∈ work) : work = [.connect id target] ∧ status = .synSent := by
  cases h <;> simp_all

/-- A read goes on up to the end of the stream. -/
theorem of_read (h : Serves id status q work) (htask : Task.read id ∈ work)
    (hlast : status ≠ .lastAck) : work = [.write id, .read id] ∧
      (status = .synReceived ∨ status = .established) ∧ ∃ segments, q = .attached segments := by
  cases h with
  | connecting target => simp at htask
  | relaying segments hstatus => exact ⟨rfl, hstatus, segments, rfl⟩
  | ending segments | endingRead segments => contradiction

/-- A read that ends behind the end of the stream is not followed by another. -/
theorem erase_read (h : Serves id .lastAck q work) :
    Serves id .lastAck q (work.erase (.read id)) := by
  cases h with
  | relaying segments hstatus => simp at hstatus
  | ending segments => exact .ending segments
  | endingRead segments =>
      have herase : [Task.write id, Task.read id].erase (.read id) = [.write id] := by simp
      rw [herase]
      exact .ending segments

/-- Behind the first status there is a queue, and a writer at work on it. -/
theorem exists_writer (h : Serves id status q work) (hstatus : status ≠ .synSent) :
    Task.write id ∈ work ∧ ∃ segments, q = .attached segments := by
  cases h with
  | connecting target => contradiction
  | relaying segments _ | ending segments | endingRead segments =>
      exact ⟨by simp, segments, rfl⟩

/-- A writer is at work only behind the first status. -/
theorem ne_synSent_of_write (h : Serves id status q work) (htask : Task.write id ∈ work) :
    status ≠ .synSent := by
  rintro rfl
  cases h <;> simp_all

/-- The device completes the handshake. -/
theorem establish (h : Serves id status q work) (hstatus : status = .synReceived) :
    Serves id .established q work := by
  cases h with
  | relaying segments _ => exact .relaying segments (.inr rfl)
  | connecting target | ending segments | endingRead segments => contradiction

/-- What is in the queue does not matter. -/
theorem requeue {segments : List Segment} (h : Serves id status (.attached segments) work)
    (segments' : List Segment) : Serves id status (.attached segments') work := by
  cases h with
  | relaying _ hstatus => exact .relaying segments' hstatus
  | ending _ => exact .ending segments'
  | endingRead _ => exact .endingRead segments'

/-- The end of a side leaves the writer at work, and a read that is under way. -/
theorem answer (h : Serves id status q work) (hstatus : status ≠ .synSent) :
    Serves id .lastAck q work := by
  cases h with
  | connecting target => contradiction
  | relaying segments _ | endingRead segments => exact .endingRead segments
  | ending segments => exact .ending segments

end Serves

/-- No task for the connection is under way twice, and it is served while it is open. -/
structure Served (id : Nat) (c : Connection) (work : List Task) : Prop where
  nodup : work.Nodup
  serves : c.closed = false → Serves id c.status c.writer work

namespace Served

variable {id : Nat} {c c' : Connection} {work work' : List Task}

/-- A connection that is served as its status says is served. -/
theorem of_serves (h : Serves id c.status c.writer work) : Served id c work := ⟨h.nodup, fun _ => h⟩

/-- Nothing is asked for a connection that is closed, but that work is not begun. -/
theorem shut (h : Served id c work) (hclosed : c'.closed = true) (hsub : work'.Sublist work) :
    Served id c' work' where
  nodup := h.nodup.sublist hsub
  serves hopen := absurd (hclosed.symm.trans hopen) nofun

/-- Only the status, the queue and whether the connection is closed matter. -/
theorem keep (h : Served id c work) (hstatus : c'.status = c.status)
    (hwriter : c'.writer = c.writer) (hclosed : c'.closed = c.closed) : Served id c' work where
  nodup := h.nodup
  serves hopen := by
    rw [hstatus, hwriter]
    exact h.serves (hclosed ▸ hopen)

end Served

section

variable {tasks : List Task} {task : Task} {id : Nat}

@[simp] theorem mem_workFor : task ∈ workFor tasks id ↔ task ∈ tasks ∧ task.connection = id := by
  simp [workFor]

theorem workFor_append (tasks more : List Task) (id : Nat) :
    workFor (tasks ++ more) id = workFor tasks id ++ workFor more id := List.filter_append ..

theorem workFor_eq_self {more : List Task} (h : ∀ task ∈ more, task.connection = id) :
    workFor more id = more := List.filter_eq_self.mpr (by simpa using h)

theorem workFor_eq_nil {more : List Task} (h : ∀ task ∈ more, task.connection ≠ id) :
    workFor more id = [] := List.filter_eq_nil_iff.mpr (by simpa using h)

/-- Work that ends is taken out of the work for its connection. -/
theorem workFor_erase (tasks : List Task) (task : Task) (id : Nat) :
    workFor (tasks.erase task) id = (workFor tasks id).erase task := (List.erase_filter ..).symm

theorem workFor_erase_of_ne (h : task.connection ≠ id) (tasks : List Task) :
    workFor (tasks.erase task) id = workFor tasks id := by
  rw [workFor_erase, List.erase_of_not_mem fun hmem => h (mem_workFor.mp hmem).2]

end

/-! ## What acts leave -/

/-- The work under way for a connection after acts for it. -/
def workAfter (id : Nat) (acts : List Act) (work : List Task) : List Task :=
  acts.foldl (fun work a => a.work id work) work

/-- Acts for a connection begin and end work for it alone. -/
theorem Act.workFor_work (a : Act) (id : Nat) (tasks : List Task) :
    workFor (a.work id tasks) id = a.work id (workFor tasks id) := by
  cases a with
  | begin w =>
      refine (workFor_append _ _ _).trans (congrArg (workFor tasks id ++ ·) ?_)
      exact workFor_eq_self (List.forall_mem_singleton.mpr (w.connection_task id))
  | finish w => exact workFor_erase tasks (w.task id) id
  | advance | terminate | say | inspect | hand => rfl

/-- Acts for one connection leave the work for the others as it is. -/
theorem Act.workFor_work_of_ne {i id : Nat} (h : id ≠ i) (a : Act) (tasks : List Task) :
    workFor (a.work id tasks) i = workFor tasks i := by
  cases a with
  | begin w =>
      have hnone : workFor [w.task id] i = [] :=
        workFor_eq_nil (List.forall_mem_singleton.mpr (by rwa [w.connection_task]))
      exact (workFor_append _ _ _).trans (by rw [hnone, List.append_nil])
  | finish w => exact workFor_erase_of_ne (by rwa [w.connection_task]) tasks
  | advance | terminate | say | inspect | hand => rfl

/-- Acts leave a connection served. -/
def Leaves (id : Nat) (c : Connection) (work : List Task) (acts : List Act) : Prop :=
  Served id (c.after acts) (workAfter id acts work)

namespace Leaves

variable {id : Nat} {c c' : Connection} {config : Config} {s : Surroundings} {work : List Task}
  {told mute xs ys : List Act}

/-- What is left after two lists of acts is what the second leaves of what the first has left. -/
theorem append (h : Leaves id (c.after xs) (workAfter id xs work) ys) :
    Leaves id c work (xs ++ ys) := by
  rw [Leaves, Connection.after, workAfter, List.foldl_append, List.foldl_append]
  exact h

/-- Whether a response is heard or not, it begins no work. -/
theorem tell {flags : UInt8} {payload : List UInt8} (htold : Leaves id c' work told)
    (hmute : Leaves id c' work mute) :
    Leaves id c' work (c.tell config s flags payload told mute) := by
  unfold Connection.tell
  split
  · exact htold
  · exact hmute

theorem terminate (hnodup : work.Nodup) : Leaves id c work [.terminate] := ⟨hnodup, nofun⟩

/-- A reset begins and ends no work. -/
theorem workAfter_resetActs (c : Connection) (config : Config) (s : Surroundings) (id : Nat)
    (work : List Task) : workAfter id (c.resetActs config s) work = work := by
  unfold Connection.resetActs Connection.tell
  split
  · rfl
  · split <;> rfl

/-- A reset closes the connection, so that nothing more has to be done for it. -/
theorem reset (hnodup : work.Nodup) : Leaves id c' work (c.resetActs config s) := by
  unfold Connection.resetActs
  split
  · exact terminate hnodup
  · exact tell (terminate hnodup) (terminate hnodup)

/-- The connect was the only work, so behind it there are a writer and a read, or nothing. -/
theorem connected {target : Net.Endpoint} (h : Served id c work)
    (htask : .connect id target ∈ work) (hs : s.multiplexerOpen = true) (config : Config)
    (result : Except Fault Unit) :
    Leaves id c work (.finish (.connect target) :: c.connectedActs config s result) := by
  have hsub : (work.erase (.connect id target)).Sublist work := List.erase_sublist
  have hnodup := h.nodup.sublist hsub
  change Leaves id c (work.erase (.connect id target)) (c.connectedActs config s result)
  unfold Connection.connectedActs
  cases hclosed : c.closed with
  | true =>
      rw [if_pos (by simp)]
      exact h.shut hclosed hsub
  | false =>
      obtain ⟨hwork, hstatus⟩ := (h.serves hclosed).of_connect htask
      rw [if_neg (by simp [hstatus])]
      cases result with
      | error x => exact reset hnodup
      | ok _ =>
          refine tell ?_ (terminate hnodup)
          rw [hwork, List.erase_cons_head, begun, if_pos hs]
          exact .of_serves (.relaying [] (.inl rfl))

/-- The read was the only one, so only the writer is left at work, until the next read is begun. -/
theorem received (h : Served id c work) (htask : .read id ∈ work)
    (hs : s.multiplexerOpen = true) (config : Config) (result : Except Fault (List UInt8)) :
    Leaves id c work (.finish .read :: c.receivedActs config s result) := by
  have hsub : (work.erase (.read id)).Sublist work := List.erase_sublist
  have hnodup := h.nodup.sublist hsub
  change Leaves id c (work.erase (.read id)) (c.receivedActs config s result)
  unfold Connection.receivedActs
  cases hclosed : c.closed with
  | true =>
      rw [if_pos (by simp)]
      exact h.shut hclosed hsub
  | false =>
      have hserves := h.serves hclosed
      by_cases hlast : c.status = .lastAck
      · rw [if_pos (by simp [hlast])]
        refine .of_serves ?_
        change Serves id c.status c.writer (work.erase (.read id))
        rw [hlast] at hserves ⊢
        exact hserves.erase_read
      · rw [if_neg (by simp [hlast])]
        obtain ⟨hwork, hstatus, segments, hwriter⟩ := hserves.of_read htask hlast
        have hwrite : work.erase (.read id) = [.write id] := by
          rw [hwork]
          simp
        cases result with
        | error x => exact reset hnodup
        | ok data =>
            cases data with
            | nil =>
                simp only
                split
                · exact terminate hnodup
                · refine tell (.of_serves ?_) (terminate hnodup)
                  change Serves id .lastAck c.writer (work.erase (.read id))
                  rw [hwrite, hwriter]
                  exact .ending segments
            | cons b rest =>
                change Leaves id (c.inspected .response (b :: rest)) _ _
                refine tell ?_ (terminate hnodup)
                rw [hwrite, begun, if_pos hs]
                refine .of_serves ?_
                change Serves id c.status c.writer [.write id, .read id]
                rw [hwriter]
                exact .relaying segments hstatus

/-- Taking a part of a segment leaves the connection served. -/
theorem took (h : Served id c work) (count : Nat) : Leaves id c work (c.tookActs count) := by
  unfold Connection.tookActs
  split
  · exact h
  · exact h.keep rfl rfl rfl

/-- Completing a write closes the connection, or leaves it with the work that it calls for. -/
theorem complete (h : Served id c work) (hopen : c.closed = false) (hstatus : c.status ≠ .synSent)
    (config : Config) (s : Surroundings) (g : Segment) :
    Leaves id c work (c.completeActs config s g) := by
  have hserves := h.serves hopen
  have hsub : (work.erase (.write id)).Sublist work := List.erase_sublist
  obtain ⟨inspector, bytesWritten, hafter⟩ := c.after_countActs g
  have hwork : workAfter id (Connection.countActs g) work = work := by
    unfold Connection.countActs
    split <;> rfl
  unfold Connection.completeActs
  refine append ?_
  rw [hafter, hwork]
  have hack {flags : UInt8} {told : List Act}
      (htold : Leaves id (({ c with inspector, bytesWritten } : Connection).advance
        (·.acknowledge g)) work told) :
      Leaves id { c with inspector, bytesWritten } work
        (c.acknowledgeActs config s g flags told) := by
    change Leaves id
      (({ c with inspector, bytesWritten } : Connection).advance (·.acknowledge g)) work _
    exact tell htold ⟨h.nodup.sublist hsub, nofun⟩
  split
  · split
    · exact hack (terminate h.nodup)
    · exact hack (.of_serves (hserves.answer hstatus))
  · split
    · exact hack (h.keep rfl rfl rfl)
    · split
      · exact terminate h.nodup
      · exact h.keep rfl rfl rfl

/-- A write that ends leaves the connection served. -/
theorem wrote (h : Served id c work) (htask : .write id ∈ work) (config : Config)
    (s : Surroundings) (result : Except Fault Unit) :
    Leaves id c work (c.wroteActs config s result) := by
  have hnodup := h.nodup.sublist (List.erase_sublist (a := Task.write id))
  unfold Connection.wroteActs
  split
  · exact h
  · next g rest hwaiting =>
      change Leaves id (c.advance Progress.leave) work _
      cases hclosed : c.closed with
      | true =>
          split <;> exact h.shut hclosed List.erase_sublist
      | false =>
          simp only [Bool.false_eq_true, if_false]
          split
          · -- The reset has closed the connection before its writer ends.
            refine append ⟨?_, fun hopen => ?_⟩
            · rw [workAfter_resetActs]
              exact hnodup
            · rw [Connection.after_resetActs] at hopen
              contradiction
          · have hserves := h.serves hclosed
            have hstatus : c.status ≠ .synSent := hserves.ne_synSent_of_write htask
            obtain ⟨-, segments, hwriter⟩ := hserves.exists_writer hstatus
            rw [hwriter] at hserves
            have hleft : Served id (c.advance Progress.leave) work := by
              refine .of_serves ?_
              change Serves id c.status c.writer.dropFirst work
              rw [hwriter]
              exact hserves.requeue _
            exact complete (c := c.advance Progress.leave) hleft hclosed hstatus config s g

/-- Behind the first status a segment finds a writer. -/
theorem segment (h : Served id c work) (hopen : c.closed = false) {writes : Bool}
    (hwrites : .write id ∈ work → writes = true) (config : Config) (s : Surroundings)
    (tcp : Packet.Tcp) (payload : List UInt8) :
    Leaves id c work (c.segmentActs config s writes tcp payload) := by
  have hserves := h.serves hopen
  have hheard : Served id (c.advance (·.hear s.now tcp)) work := h.keep rfl rfl rfl
  unfold Connection.segmentActs
  change Leaves id (c.advance (·.hear s.now tcp)) work _
  split
  · exact terminate h.nodup
  split
  · split
    · exact h.keep rfl rfl rfl
    · exact reset h.nodup
  split
  · exact hheard
  split
  · exact reset h.nodup
  next hstatus =>
  have hsettled : Serves id (c.advance (·.settle tcp)).status c.writer work := by
    change Serves id (if c.status = .synReceived ∧ tcp.isAck then .established else c.status) _ _
    split
    · next hack => exact hserves.establish hack.1
    · exact hserves
  split
  · exact .of_serves hsettled
  · obtain ⟨hwriter, segments, hattached⟩ := hserves.exists_writer hstatus
    rw [hattached] at hsettled
    have hqueue : (c.advance (·.settle tcp)).writer = .attached segments := hattached
    unfold Connection.enqueueActs
    rw [hqueue, hwrites hwriter]
    exact .of_serves (hsettled.requeue _)

end Leaves

namespace Engine

variable {e e' : Engine} {s : Surroundings} {i id : Nat} {c : Connection} {tasks : List Task}

/-- The work under way for a connection. -/
def work (e : Engine) (id : Nat) : List Task := workFor e.tasks id

/-- If there is a connection with this number, the work that it calls for is under way. -/
def Tended (e : Engine) (id : Nat) : Prop :=
  ∀ c, e.store.connection? id = some c → Served id c (e.work id)

/-- What acts leave of the work for their connection is `workAfter`. -/
theorem work_carryOut (e : Engine) (id : Nat) (acts : List Act) :
    (e.carryOut id acts).work id = workAfter id acts (e.work id) := by
  induction acts generalizing e with
  | nil => rfl
  | cons a acts ih =>
      have hone : (e.perform id a).work id = a.work id (e.work id) := by
        rw [work, tasks_perform, a.workFor_work]
        rfl
      rw [carryOut_cons, ih, hone]
      rfl

/-- Acts for one connection leave the work for the others as it is. -/
theorem work_carryOut_of_ne (h : id ≠ i) (e : Engine) (acts : List Act) :
    (e.carryOut id acts).work i = e.work i :=
  carryOut_induction (motive := fun e' => e'.work i = e.work i) rfl
    (fun e' a hwork => by
      rw [← hwork, work, tasks_perform, a.workFor_work_of_ne h]
      rfl) acts

/-! ## Steps -/

/-- A connection that stays as it is, or is closed, is served as before. -/
theorem Tended.stay (h : e.Tended id)
    (hview : e'.view id = e.view id ∨
      e'.view id = { e.view id with connection := (e.view id).connection.map Connection.close })
    (hwork : e'.work id = e.work id) : e'.Tended id := by
  intro c hc
  rw [hwork]
  cases hview with
  | inl hsame =>
      have hconnection : e'.store.connection? id = e.store.connection? id :=
        congrArg View.connection hsame
      exact h c (hconnection.symm.trans hc)
  | inr hclosed =>
      have hconnection : e'.store.connection? id =
          (e.store.connection? id).map Connection.close := congrArg View.connection hclosed
      obtain ⟨c', hc', rfl⟩ := Option.map_eq_some_iff.mp (hconnection.symm.trans hc)
      exact (h c' hc').shut rfl (.refl _)

/-- Acts that leave their connection served leave every connection served. -/
theorem tended_carryOut (hc : e.store.connection? id = some c) {acts : List Act}
    (h : Leaves id c (e.work id) acts) (hall : ∀ i, e.Tended i) (i : Nat) :
    (e.carryOut id acts).Tended i := by
  by_cases hi : id = i
  · subst hi
    intro c' hc'
    rw [connection?_carryOut hc] at hc'
    cases hc'
    rw [work_carryOut]
    exact h
  · exact (hall i).stay (.inl (view_carryOut_of_ne hi e acts)) (work_carryOut_of_ne hi e acts)

/-- No work is under way for a connection that has not come. -/
theorem Coherent.work_of_none (h : e.Coherent) (hnone : e.store.connection? id = none) :
    e.work id = [] := by
  have hge : e.store.connections.length ≤ id := List.getElem?_eq_none_iff.mp hnone
  refine workFor_eq_nil fun task htask hid => ?_
  have hlt := h.tasks task htask
  omega

/-- Work is under way for connections that exist. -/
theorem Coherent.exists_connection (h : e.Coherent) {task : Task} (htask : task ∈ e.tasks) :
    ∃ c, e.store.connection? task.connection = some c :=
  ⟨_, List.getElem?_eq_getElem (h.tasks task htask)⟩

/-- A connection that is accepted is served, if somebody drives its connect. -/
theorem Coherent.tended_accept (h : e.Coherent) (hall : ∀ i, e.Tended i)
    (hs : s.multiplexerOpen = true) (target : Net.Endpoint)
    (hc : ∀ id, Served id c [.connect id target]) (i : Nat) :
    (e.follow s (.accept c target)).Tended i := by
  rw [follow]
  by_cases hi : i = e.store.connections.length
  · subst hi
    -- The connect is all the work that there is for the new connection.
    have hnone : e.work e.store.connections.length = [] :=
      h.work_of_none (List.getElem?_eq_none_iff.mpr (Nat.le_refl _))
    have hwork : workAfter e.store.connections.length (begun s (.connect target))
        (e.work e.store.connections.length) = [.connect e.store.connections.length target] := by
      rw [begun, if_pos hs, hnone]
      rfl
    intro c' hc'
    rw [store_carryOut_begun] at hc'
    rw [work_carryOut]
    change Served _ c' (workAfter _ _ (e.work _))
    rw [hwork]
    cases Flow.Store.connection?_openNew Connection.close_close e.store s.now
        e.config.tcpIdle c with
    | inl hnew =>
        cases hnew.symm.trans hc'
        exact hc _
    | inr hclosed =>
        cases hclosed.symm.trans hc'
        exact (hc _).shut rfl (.refl _)
  · have hview := view_openNew e s.now e.config.tcpIdle c i
    rw [view_add_of_ne hi] at hview
    have hother := Ne.symm hi
    refine (hall i).stay ?_ (work_carryOut_of_ne hother _ _)
    rwa [view_carryOut_of_ne hother]

/-- A packet of the device leaves every connection tended. -/
theorem Coherent.tended_segment (h : e.Coherent) (hall : ∀ i, e.Tended i)
    (hs : s.multiplexerOpen = true) (initial : UInt32) (d : Datagram) (i : Nat) :
    (e.follow s (e.plan s (.segment initial d))).Tended i := by
  have hplan := e.plan_segment s initial d
  generalize e.plan s (.segment initial d) = p at hplan
  cases hplan with
  | idle => exact hall i
  | @find tcp id htcp hpeek =>
      obtain ⟨c, hc, -, hopen⟩ := h.accurate.peek?_iff.mp hpeek
      have hserved := hall id c hc
      change c.closed = false at hopen
      rw [follow, actsFor_of_some hc]
      simp only [hopen, Bool.false_eq_true, if_false]
      -- Finding the flow shows in no connection.
      refine tended_carryOut (e := { e with store := (e.store.find? _).1 }) hc ?_ hall i
      refine .segment hserved hopen (fun hwrite => ?_) _ s tcp d.payload
      simpa using (mem_workFor.mp hwrite).1
  | accept htcp hsyn hnone hsocket =>
      exact h.tended_accept hall hs _ (fun _ => .of_serves (.connecting _)) i
  | refuse htcp hsyn hnone hsocket =>
      rw [follow]
      cases rejection? e.config s d.headers _ with
      | none => exact hall i
      | some packet => exact hall i

/-- Work that ends leaves every connection served. -/
theorem Coherent.tended_act (h : e.Coherent) (hall : ∀ i, e.Tended i) (id : Nat) (w : Work)
    {acts : List Act}
    (hacts : ∀ c, e.store.connection? id = some c → w.task id ∈ e.work id →
      Leaves id c (e.work id) acts) (i : Nat) :
    (e.follow s (if e.tasks.contains (w.task id) then .act id acts else .idle)).Tended i := by
  split
  · next htask =>
      have hmem : w.task id ∈ e.tasks := by simpa using htask
      obtain ⟨c, hc⟩ := h.exists_connection hmem
      rw [w.connection_task] at hc
      have hwork : w.task id ∈ e.work id := mem_workFor.mpr ⟨hmem, w.connection_task id⟩
      exact tended_carryOut hc (hacts c hc hwork) hall i
  · exact hall i

/-- Every step leaves every connection served, if somebody drives connects and reads. -/
theorem Coherent.tended_step (h : e.Coherent) (hall : ∀ i, e.Tended i)
    (hs : s.multiplexerOpen = true) (event : Event) (i : Nat) : (e.step s event).Tended i := by
  rw [step_eq]
  cases event with
  | segment initial d => exact h.tended_segment hall hs initial d i
  | connected id target result =>
      refine h.tended_act hall id (.connect target) (fun c hc htask => ?_) i
      rw [actsFor_of_some hc]
      exact .connected (hall id c hc) htask hs e.config result
  | received id result =>
      refine h.tended_act hall id .read (fun c hc htask => ?_) i
      rw [actsFor_of_some hc]
      exact .received (hall id c hc) htask hs e.config _
  | took id count =>
      refine h.tended_act hall id .write (fun c hc htask => ?_) i
      rw [actsFor_of_some hc]
      exact .took (hall id c hc) count
  | wrote id result =>
      refine h.tended_act hall id .write (fun c hc htask => ?_) i
      rw [actsFor_of_some hc]
      exact .wrote (hall id c hc) htask e.config s result
  | abandoned task =>
      simp only [plan]
      split
      · next hclosed =>
          obtain ⟨c, hc, hshut⟩ := Flow.Store.isClosed_iff.mp hclosed
          have hended : Leaves task.connection c (e.work task.connection) [.finish task.work] :=
            (hall _ c hc).shut (show (c.after [.finish task.work]).closed = true from hshut)
              List.erase_sublist
          exact tended_carryOut hc hended hall i
      · exact hall i
  | closeAll =>
      exact (hall i).stay (view_closeAllOf e { e.store with table := e.store.table.clear.1 }
        (e.store.table.clear.2.map Prod.snd) i) rfl

/-- **Service**: every run in which somebody drives connects and reads leaves every connection
served. -/
theorem tended_run (config : Config) (inspecting : Bool) {steps : List (Surroundings × Event)}
    (hs : ∀ step ∈ steps, step.1.multiplexerOpen = true) (id : Nat) :
    ((empty config inspecting).run steps).Tended id := by
  induction steps using List.reverseRecOn generalizing id with
  | nil => exact fun c hc => absurd hc nofun
  | append_singleton steps x ih =>
      obtain ⟨s, event⟩ := x
      rw [run_concat]
      exact (coherent_run config inspecting steps).tended_step
        (ih fun step hstep => hs step (List.mem_append_left _ hstep))
        (hs (s, event) (by simp)) event id

end Engine

/-! ## Writers -/

namespace Engine

variable {e : Engine} {s : Surroundings} {id : Nat} {config : Config} {inspecting : Bool}
  {steps : List (Surroundings × Event)}

/-- How many writers of a connection are started along a run. -/
def writersStarted (id : Nat) (e : Engine) : List (Surroundings × Event) → Nat
  | [] => 0
  | (s, event) :: rest =>
    (e.step s event).tasks.count (.write id) - e.tasks.count (.write id) +
      writersStarted id (e.step s event) rest

/-- The writers that are started in a run are those that its steps start. -/
theorem writersStarted_concat (id : Nat) (e : Engine) (steps : List (Surroundings × Event))
    (s : Surroundings) (event : Event) :
    writersStarted id e (steps ++ [(s, event)]) = writersStarted id e steps +
      (((e.run steps).step s event).tasks.count (.write id) -
        (e.run steps).tasks.count (.write id)) := by
  induction steps generalizing e with
  | nil => exact (Nat.zero_add _).symm
  | cons x rest ih =>
      obtain ⟨s', event'⟩ := x
      rw [List.cons_append, writersStarted, writersStarted, ih, Nat.add_assoc]
      rfl

/-- There are as many writers as the session says. -/
theorem Stands.count_write {σ : Session} {replies : List Reply} {handed : List UInt8}
    (h : e.Stands id σ replies handed) : e.tasks.count (.write id) = σ.writes := by
  obtain ⟨c, reads, writes, hview, rfl⟩ := h
  exact congrArg View.writes hview

/-- **Writers**: no run starts two writers of a connection, and none in front of its handshake. -/
theorem writersStarted_le (config : Config) (inspecting : Bool)
    (steps : List (Surroundings × Event)) (id : Nat) :
    (((empty config inspecting).run steps).view id = .unborn ∧
        writersStarted id (empty config inspecting) steps = 0) ∨
      ∃ σ replies handed, ((empty config inspecting).run steps).Stands id σ replies handed ∧
        writersStarted id (empty config inspecting) steps ≤ 1 ∧
        (σ.status = .synSent → writersStarted id (empty config inspecting) steps = 0) := by
  induction steps using List.reverseRecOn with
  | nil => exact .inl ⟨rfl, rfl⟩
  | append_singleton steps x ih =>
      obtain ⟨s, event⟩ := x
      rw [run_concat, writersStarted_concat]
      cases ih with
      | inl hunborn =>
          obtain ⟨hunborn, hzero⟩ := hunborn
          have hbefore := List.count_eq_zero.mpr (count_of_unborn hunborn).2
          rw [hbefore, hzero]
          cases step_unborn hunborn s event with
          | inl hstill =>
              have hnow := List.count_eq_zero.mpr (count_of_unborn hstill).2
              exact .inl ⟨hstill, by rw [hnow]⟩
          | inr hborn =>
              obtain ⟨initial, d, tcp, closed, -, -, hstands⟩ := hborn
              have hnow := hstands.count_write
              rw [hnow]
              exact .inr ⟨_, _, _, hstands, Nat.zero_le 1, fun _ => rfl⟩
      | inr hstands =>
          obtain ⟨σ, replies, handed, hstands, hle, hfirst⟩ := hstands
          obtain ⟨more, data, σ', hturn, hnext⟩ := hstands.step s event
          rw [hstands.count_write, hnext.count_write]
          refine .inr ⟨σ', _, _, hnext, ?_⟩
          cases hturn.writes_le with
          | inl hless =>
              rw [Nat.sub_eq_zero_of_le hless]
              refine ⟨hle, fun hstatus => hfirst ?_⟩
              by_contra hbehind
              exact hturn.ne_synSent hbehind hstatus
          | inr hstart =>
              obtain ⟨-, hstatus, hbehind, hwrites⟩ := hstart
              rw [hfirst hstatus, hwrites]
              exact ⟨by omega, fun hstatus' => absurd hstatus' hbehind⟩

/-! ## What is read -/

/-- Nothing is read on a connection that has not come. -/
theorem readNote_of_unborn (h : e.view id = .unborn) (event : Event) :
    readNote id e event = none := by
  have hread := (count_of_unborn h).1
  unfold readNote deed
  split
  · rfl
  · cases event with
    | segment initial d =>
        simp only
        split
        · rfl
        · split <;> rfl
    | received i result =>
        have hnot : ¬ (i = id ∧ e.tasks.contains (.read i) = true) := by
          rintro ⟨rfl, htask⟩
          exact hread (by simpa using htask)
        simp only
        rw [if_neg hnot]
        rfl
    | connected | took | wrote =>
        simp only
        split <;> rfl
    | abandoned | closeAll => rfl

/-- Nothing is read on a connection that never comes. -/
theorem observe_readNote_of_none
    (hnone : ((empty config inspecting).run steps).store.connection? id = none) :
    observe (readNote id) (empty config inspecting) steps = [] := by
  induction steps using List.reverseRecOn with
  | nil => rfl
  | append_singleton steps x ih =>
      obtain ⟨s, event⟩ := x
      rw [run_concat] at hnone
      cases hbefore : ((empty config inspecting).run steps).store.connection? id with
      | none =>
          have hunborn := view_of_none config inspecting steps hbefore
          rw [observe_concat, ih hbefore, readNote_of_unborn hunborn]
          rfl
      | some c =>
          obtain ⟨c', hc', -⟩ := (coherent_run config inspecting steps).connection?_step hbefore s
            event
          exact absurd (hnone.symm.trans hc') nofun

/-- **Order**: the data that the device is sent on a connection is what was read, in order. -/
theorem run_inOrder (config : Config) (inspecting : Bool) (steps : List (Surroundings × Event))
    (id : Nat) :
    let e := (empty config inspecting).run steps
    let reads := observe (readNote id) (empty config inspecting) steps
    ∃ replies, e.sent id = replies.map some ∧ dataOf replies <+: reads ∧
      (e.store.isOpen id = true → dataOf replies = reads) := by
  intro e reads
  by_cases hnone : e.store.connection? id = none
  · have hreads : reads = [] := observe_readNote_of_none hnone
    have hsent : e.sent id = [] :=
      congrArg View.sent (view_of_none config inspecting steps hnone)
    exact ⟨[], hsent, List.nil_prefix, fun _ => hreads.symm⟩
  · obtain ⟨before, s, initial, d, after, hsteps, hopens⟩ :=
      exists_opens config inspecting steps hnone
    obtain ⟨σ, replies, handed, hstands, hnumbered⟩ := hopens.numbered after
    have he : e =
        (((empty config inspecting).run before).step s (.segment initial d)).run after := by
      simp only [e, hsteps, run_append]
      rfl
    have hreads : reads = observe (readNote id)
        (((empty config inspecting).run before).step s (.segment initial d)) after := by
      have hunborn := view_of_none config inspecting before hopens.1
      simp only [reads, hsteps, observe_append, observe, observe_readNote_of_none hopens.1,
        readNote_of_unborn hunborn]
      rfl
    rw [he, hreads]
    refine ⟨replies, hstands.sent_eq, hnumbered.data, fun hopen => hnumbered.whole (.inl ?_)⟩
    rw [hstands.isOpen_eq] at hopen
    simpa using hopen

/-! ## Runs -/

/-- A packet for a connection in the table is handled without an error. -/
theorem Tended.handle_eq_ok (h : e.Tended id) {d : Datagram}
    (hpeek : e.store.table.peek? ⟨d.destination, d.source.port⟩ = some id) (s : Surroundings)
    (initial : UInt32) : (e.handle s initial d).2 = .ok () := by
  unfold handle
  cases d.headers.tcp? with
  | none => rfl
  | some tcp =>
      simp only [Flow.Store.find?, Table.snd_get?, hpeek]
      split
      · rfl
      · next c hc =>
          split
          · rfl
          · next hopen =>
              refine handleSegment_ok (fun hstatus => ?_) s tcp d.payload
              have hserves := (h c hc).serves (Bool.not_eq_true _ ▸ hopen)
              obtain ⟨hwrite, hwriter⟩ := hserves.exists_writer hstatus
              exact ⟨hwriter, by simpa using (mem_workFor.mp hwrite).1⟩

/-- **Service**: at every point of a run in which somebody drives connects and reads, the work that
an open connection calls for is under way, once each.  So no more than one writer of a connection is
ever started, what is read is sent to the device in order, and a packet for a connection in the
table is handled without an error. -/
theorem run_service (config : Config) (inspecting : Bool) {steps : List (Surroundings × Event)}
    (hs : ∀ step ∈ steps, step.1.multiplexerOpen = true) (id : Nat) :
    let e := (empty config inspecting).run steps
    let reads := observe (readNote id) (empty config inspecting) steps
    (∀ c, e.store.connection? id = some c → c.closed = false →
      Serves id c.status c.writer (e.work id)) ∧
    (e.tasks.count (.read id) ≤ 1 ∧ e.tasks.count (.write id) ≤ 1) ∧
    writersStarted id (empty config inspecting) steps ≤ 1 ∧
    (∃ replies, e.sent id = replies.map some ∧ dataOf replies <+: reads ∧
      (e.store.isOpen id = true → dataOf replies = reads)) ∧
    ∀ s initial d, e.store.table.peek? ⟨d.destination, d.source.port⟩ = some id →
      (e.handle s initial d).2 = .ok () := by
  intro e reads
  have hcoherent := coherent_run config inspecting steps
  have htended := tended_run config inspecting hs id
  have hnodup : (e.work id).Nodup := by
    cases hc : e.store.connection? id with
    | none => exact hcoherent.work_of_none hc ▸ List.nodup_nil
    | some c => exact (htended c hc).nodup
  have hcount {task : Task} (htask : task.connection = id) : e.tasks.count task ≤ 1 := by
    rw [← List.count_filter (p := (·.connection = id)) (by simpa using htask)]
    exact List.nodup_iff_count_le_one.mp hnodup task
  refine ⟨fun c hc hopen => (htended c hc).serves hopen, ⟨hcount rfl, hcount rfl⟩, ?_,
    run_inOrder config inspecting steps id, fun s initial d hpeek =>
      htended.handle_eq_ok hpeek s initial⟩
  cases writersStarted_le config inspecting steps id with
  | inl hunborn => exact hunborn.2.trans_le (Nat.zero_le 1)
  | inr hstands =>
      obtain ⟨_, _, _, -, hle, -⟩ := hstands
      exact hle

/-- A connection that is opened, accepted and read from once. -/
def Sample.relayed : List (Surroundings × Event) :=
  [.segment 100 (Sample.datagram Flag.syn 7 []), .connected 0 Sample.target (.ok ()),
    .segment 0 (Sample.datagram Flag.ack 8 []), .received 0 (.ok [1, 2])].map
      fun event => (Sample.surroundings, event)

/-- The service of a sample session that is read from once. -/
theorem service_of_relayed :
    (∀ step ∈ Sample.relayed, step.1.multiplexerOpen = true) ∧
      let e := (empty Sample.config false).run Sample.relayed
      let reads := observe (readNote 0) (empty Sample.config false) Sample.relayed
      (e.work 0 = [.write 0, .read 0] ∧ reads = [[1, 2]] ∧
        writersStarted 0 (empty Sample.config false) Sample.relayed = 1) ∧
      (∀ c, e.store.connection? 0 = some c → c.closed = false →
        Serves 0 c.status c.writer (e.work 0)) ∧
      (e.tasks.count (.read 0) ≤ 1 ∧ e.tasks.count (.write 0) ≤ 1) ∧
      writersStarted 0 (empty Sample.config false) Sample.relayed ≤ 1 ∧
      (∃ replies, e.sent 0 = replies.map some ∧ dataOf replies <+: reads ∧
        (e.store.isOpen 0 = true → dataOf replies = reads)) ∧
      ∀ s initial d, e.store.table.peek? ⟨d.destination, d.source.port⟩ = some 0 →
        (e.handle s initial d).2 = .ok () := by
  have hs : ∀ step ∈ Sample.relayed, step.1.multiplexerOpen = true := by
    simp [Sample.relayed, Sample.surroundings]
  exact ⟨hs, by decide +kernel, run_service Sample.config false hs 0⟩

end Engine

end FlowRelay.Tcp
