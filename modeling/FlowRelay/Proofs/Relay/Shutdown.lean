import FlowRelay.Proofs.Device.Demultiplexing
import FlowRelay.Proofs.Device.Flushing
import FlowRelay.Proofs.Relay.Isolation
import FlowRelay.Proofs.Tcp.Completion
import FlowRelay.Proofs.Udp.Stale
import FlowRelay.Relay.Running

/-!
# FlowRelay.Proofs.Relay.Shutdown

How a run ends.  The sweep at the end closes the connections one by one, and ends of TCP work may
come in between and long after.  They find nothing to open, because only the dispatchers open
connections, and both have ended before the sweep begins.

1. *Events* (`Turn`): what each event can do, and as long as whom.
2. *Order* (`Onward`): the stop signal stays raised, and who has ended has ended for good.
3. *Reader* (`Reads`): its result is what the device has answered.
4. *Late events* (`Turn.late`): once everybody has ended only ends of TCP work are left.
5. *Phases* (`Kept`): the engines are coherent up to the sweep, and swept as far as it has come from
   then on.
6. *No deadlock* (`canReach_outcome`): every run can be brought to its end.
7. *Returned runs* (`run_returned`): a run that has returned leaves nothing open, and what happens
   later opens nothing.
-/

namespace FlowRelay.Relay

open Packet (Datagram)

variable {r r' : Relay} {s : Surroundings} {event : Event}

/-! ## What events do -/

/-- How a read ends that an event is about. -/
def Event.reading? : Event → Option Device.Reading
  | .read reading => some reading
  | _ => none

/-- What an event can do. -/
inductive Turn (r : Relay) (s : Surroundings) : Event → Relay → Prop
  | nothing {event : Event} (hreading : event.reading? = none ∨ r.reader.isSome = true) :
      Turn r s event r
  | read (reading : Device.Reading) (hrunning : r.reader = none) :
      Turn r s (.read reading)
        { r with
          pump := (r.pump.read reading).1, readings := r.readings ++ [reading]
          reader := reading.fatal?.map .error }
  | raise : Turn r s .raise { r with pump := { r.pump with stopped := true } }
  | stopReading (hrunning : r.reader = none) :
      Turn r s .stopReading { r with pump := r.pump.stop, reader := some (.ok ()) }
  | write (act : Device.Writer.Act) :
      Turn r s (.write act) { r with writer := r.writer.step r.pump.stopped act }
  | segment (initial : UInt32) (d : Datagram) (pump : Device.Pump)
      (hpump : pump.stopped = r.pump.stopped) (hworking : .tcpDispatcher ∉ r.gone) :
      Turn r s (.segment initial) ({ r with pump }.stepTcp s (.segment initial d))
  | datagram (calls : Udp.SocketCalls) (d : Datagram) (pump : Device.Pump)
      (hpump : pump.stopped = r.pump.stopped) (hworking : .udpDispatcher ∉ r.gone) :
      Turn r s (.datagram calls) ({ r with pump }.stepUdp s (.accept calls d))
  | sent (calls : Udp.SocketCalls) (x : Udp.Sending) (hsending : x ∈ r.sends) :
      Turn r s (.sent calls) (r.stepUdp s (.sent x calls))
  | tcp (own : Tcp.Engine.Event) (hcompletion : own.isCompletion = true) :
      Turn r s (.tcp own) (r.stepTcp s own)
  | udp (own : Udp.Engine.Event) (hworking : .udpMultiplexer ∉ r.gone) :
      Turn r s (.udp own) (r.stepUdp s (.own own))
  | leave (worker : Worker) (pump : Device.Pump) (hpump : pump.stopped = r.pump.stopped)
      (hsends : worker = .udpDispatcher → r.sends = []) :
      Turn r s (.leave worker) { r with gone := worker :: r.gone, pump }
  | sweep : Turn r s .sweep r.sweep

/-- Every step of the relay is a turn. -/
theorem turn_step (r : Relay) (s : Surroundings) (event : Event) :
    r.Turn s event (r.step s event) := by
  cases event with
  | read reading =>
      simp only [step, readOnce]
      split
      · next hreader => exact .nothing (.inr (by simp [hreader]))
      · next hreader =>
          rw [Device.Pump.snd_read]
          exact .read reading hreader
  | raise => exact .raise
  | stopReading =>
      simp only [step, stopReading]
      split
      · next hreader _ => exact .stopReading hreader
      · exact .nothing (.inl rfl)
  | write act =>
      simp only [step]
      split
      · exact .write act
      · exact .nothing (.inl rfl)
  | segment initial =>
      simp only [step, handleNext]
      split
      · next d pump hgone htake =>
          exact .segment initial d pump (Device.Pump.stopped_take? htake) (by simpa using hgone)
      · exact .nothing (.inl rfl)
  | datagram calls =>
      simp only [step, acceptNext]
      split
      · next d pump hgone _ htake =>
          exact .datagram calls d pump (Device.Pump.stopped_take? htake) (by simpa using hgone)
      · exact .nothing (.inl rfl)
  | sent calls =>
      simp only [step, sendFirst]
      split
      · next hsends => exact .sent calls _ (by simp [hsends])
      · exact .nothing (.inl rfl)
  | tcp own =>
      simp only [step, completeTcp]
      split
      · next hcompletion => exact .tcp own hcompletion
      · exact .nothing (.inl rfl)
  | udp own =>
      simp only [step, completeUdp]
      split
      · next hgone => exact .udp _ (by simpa using hgone)
      · next hgone => exact .udp _ (by simpa using hgone)
      · exact .nothing (.inl rfl)
  | leave worker =>
      simp only [step, leave]
      split
      · exact .nothing (.inl rfl)
      · cases worker with
        | tcpDispatcher => exact .leave _ _ (Device.Pump.stopped_shut _ _) nofun
        | udpDispatcher =>
            dsimp only
            split
            · next hsends =>
                exact .leave _ _ (Device.Pump.stopped_shut _ _) fun _ => by simpa using hsends
            · exact .nothing (.inl rfl)
        | tcpMultiplexer | udpMultiplexer => exact .leave _ r.pump rfl nofun
  | sweep => exact .sweep

/-- A sweep is about connections and buffers only. -/
theorem sweep_eq (r : Relay) : ∃ tcp udp phase pool,
    r.sweep = { r with tcp, udp, phase, pump := { r.pump with pool } } := by
  unfold sweep
  split
  · split <;> exact ⟨_, _, _, _, rfl⟩
  all_goals exact ⟨_, _, _, _, rfl⟩

/-! ## Order -/

/-- A relay is joined when its reader, its writer and its workers have all ended. -/
theorem isJoined_iff : r.isJoined = true ↔
    r.reader.isSome = true ∧ r.writer.hasEnded = true ∧ ∀ worker : Worker, worker ∈ r.gone := by
  have hall : (∀ worker : Worker, worker ∈ r.gone) ↔
      Worker.tcpDispatcher ∈ r.gone ∧ Worker.tcpMultiplexer ∈ r.gone ∧
        Worker.udpDispatcher ∈ r.gone ∧ Worker.udpMultiplexer ∈ r.gone :=
    ⟨fun h => ⟨h _, h _, h _, h _⟩, fun ⟨h₁, h₂, h₃, h₄⟩ worker => by cases worker <;> assumption⟩
  simp [isJoined, hall, and_assoc]

/-- The stop signal stays raised, and who has ended has ended for good. -/
structure Onward (r r' : Relay) : Prop where
  stopped : r.pump.stopped = true → r'.pump.stopped = true
  reader : r.reader.isSome = true → r'.reader = r.reader
  writer : r.writer.hasEnded = true → r'.writer.hasEnded = true
  gone : r.gone ⊆ r'.gone

theorem Onward.refl (r : Relay) : r.Onward r := ⟨id, fun _ => rfl, id, List.Subset.refl _⟩

/-- What is joined stays joined. -/
theorem Onward.isJoined (h : r.Onward r') (hjoined : r.isJoined = true) : r'.isJoined = true := by
  obtain ⟨hreader, hwriter, hgone⟩ := isJoined_iff.mp hjoined
  exact isJoined_iff.mpr
    ⟨h.reader hreader ▸ hreader, h.writer hwriter, fun worker => h.gone (hgone worker)⟩

/-- No turn takes anything back that has ended. -/
theorem Turn.onward (h : r.Turn s event r') : r.Onward r' := by
  cases h with
  | nothing hreading => exact .refl r
  | read reading hrunning =>
      refine { Onward.refl r with stopped := fun hstopped => ?_, reader := fun hsome => ?_ }
      · exact (Device.Pump.stopped_read _ _).trans (by simp [hstopped])
      · simp [hrunning] at hsome
  | raise => exact { Onward.refl r with stopped := fun _ => rfl }
  | stopReading hrunning =>
      refine { Onward.refl r with stopped := fun _ => rfl, reader := fun hsome => ?_ }
      simp [hrunning] at hsome
  | write act =>
      exact { Onward.refl r with writer := fun hended => Device.Writer.hasEnded_step hended act }
  | segment initial d pump hpump | datagram calls d pump hpump =>
      exact ⟨hpump.trans, fun _ => rfl, fun hended => Device.Writer.hasEnded_run hended _,
        List.Subset.refl _⟩
  | sent | tcp | udp =>
      exact ⟨id, fun _ => rfl, fun hended => Device.Writer.hasEnded_run hended _,
        List.Subset.refl _⟩
  | leave worker pump hpump => exact ⟨hpump.trans, fun _ => rfl, id, List.subset_cons_self _ _⟩
  | sweep =>
      obtain ⟨tcp, udp, phase, pool, heq⟩ := r.sweep_eq
      rw [heq]
      exact ⟨id, fun _ => rfl, id, List.Subset.refl _⟩

/-! ## The reader -/

/-- The device as it answers to the reads of a run. -/
def script (steps : List (Surroundings × Event)) : List Device.Reading :=
  steps.filterMap fun (_, event) => event.reading?

/-- The reader has read what the device has answered, and has ended as that says. -/
structure Reads (r : Relay) (script : List Device.Reading) : Prop where
  stopped : r.reader.isSome = true → r.pump.stopped = true
  fault : ∀ fault, r.reader = some (.error fault) ↔
    r.readings.findSome? Device.Reading.fatal? = some fault
  readings : r.readings <+: script
  running : r.reader = none → r.readings = script

namespace Reads

variable {script : List Device.Reading}

/-- An event that is not about the reader. -/
theorem rest (h : r.Reads script) (honward : r.Onward r') (hreader : r'.reader = r.reader)
    (hreadings : r'.readings = r.readings) : r'.Reads script where
  stopped hsome := honward.stopped (h.stopped (hreader ▸ hsome))
  fault := by
    rw [hreader, hreadings]
    exact h.fault
  readings := hreadings ▸ h.readings
  running hnone := hreadings.trans (h.running (hreader.symm.trans hnone))

/-- While the reader works no read has failed for good. -/
theorem findSome?_eq_none (h : r.Reads script) (hrunning : r.reader = none) :
    r.readings.findSome? Device.Reading.fatal? = none := by
  refine Option.eq_none_iff_forall_ne_some.mpr fun fault hfault => ?_
  have hreader := (h.fault fault).mpr hfault
  rw [hrunning] at hreader
  contradiction

/-- A reading that is taken is the next one of the script. -/
theorem read (h : r.Reads script) (hrunning : r.reader = none) (reading : Device.Reading) :
    Reads
      { r with
        pump := (r.pump.read reading).1, readings := r.readings ++ [reading]
        reader := reading.fatal?.map .error }
      (script ++ [reading]) where
  stopped hsome := by
    rw [Option.isSome_map] at hsome
    exact (Device.Pump.stopped_read _ _).trans (by simp [hsome])
  fault fault := by
    have hfirst : (r.readings ++ [reading]).findSome? Device.Reading.fatal? = reading.fatal? := by
      rw [List.findSome?_append, h.findSome?_eq_none hrunning, Option.none_or,
        List.findSome?_singleton]
    rw [hfirst]
    cases reading.fatal? <;> simp
  readings := h.running hrunning ▸ List.prefix_refl _
  running _ := congrArg (· ++ [reading]) (h.running hrunning)

/-- A turn reads what its event brings. -/
theorem turn (h : r.Reads script) (hturn : r.Turn s event r') :
    r'.Reads (script ++ event.reading?.toList) := by
  have honward := hturn.onward
  cases hturn with
  | nothing hreading =>
      rcases hreading with hnone | hsome
      · simpa [hnone] using h
      · refine { h with readings := h.readings.trans (List.prefix_append _ _), running := ?_ }
        intro hrunning
        simp [hrunning] at hsome
  | read reading hrunning => exact h.read hrunning reading
  | stopReading hrunning =>
      refine ⟨fun _ => rfl, fun fault => ?_, ?_, nofun⟩
      · rw [h.findSome?_eq_none hrunning]
        simp
      · exact h.readings.trans (List.prefix_append _ _)
  | sweep =>
      obtain ⟨tcp, udp, phase, pool, heq⟩ := r.sweep_eq
      rw [heq] at honward ⊢
      simpa [Event.reading?] using h.rest honward rfl rfl
  | _ => simpa [Event.reading?] using h.rest honward rfl rfl

end Reads

/-! ## Engines -/

/-- A UDP dispatcher that has ended has nothing on its way. -/
def HasSent (r : Relay) : Prop := .udpDispatcher ∈ r.gone → r.sends = []

/-- Turns put nothing on its way behind the end of the UDP dispatcher. -/
theorem HasSent.turn (h : r.HasSent) (hturn : r.Turn s event r') : r'.HasSent := by
  cases hturn with
  | datagram calls d pump hpump hworking => exact fun hgone => absurd hgone hworking
  | sent calls x hsending =>
      intro hgone
      rw [h hgone] at hsending
      contradiction
  | leave worker pump hpump hsends =>
      intro hgone
      rcases List.mem_cons.mp hgone with hnow | hbefore
      · exact hsends hnow.symm
      · exact h hbefore
  | sweep =>
      obtain ⟨tcp, udp, phase, pool, heq⟩ := r.sweep_eq
      rw [heq]
      exact h
  | _ => exact h

theorem tcp_stepTcp (r : Relay) (s : Surroundings) (event : Tcp.Engine.Event) :
    (r.stepTcp s event).tcp = r.tcp.step (r.around s .tcpMultiplexer) event := rfl

theorem dispatch_stepUdp (r : Relay) (s : Surroundings) (event : Udp.Dispatch.Event) :
    (r.stepUdp s event).dispatch = r.dispatch.step (r.around s .udpMultiplexer) event := rfl

/-- What the engines do keeps them coherent. -/
theorem Turn.coherent (h : r.Turn s event r') (hsweep : event ≠ .sweep)
    (htcp : r.tcp.Coherent) (hudp : r.dispatch.Coherent) :
    r'.tcp.Coherent ∧ r'.dispatch.Coherent := by
  cases h with
  | segment | tcp =>
      rw [tcp_stepTcp]
      exact ⟨htcp.step _ _, hudp⟩
  | datagram | sent | udp =>
      rw [dispatch_stepUdp]
      exact ⟨htcp, Udp.Dispatch.Coherent.step hudp _ _⟩
  | sweep => contradiction
  | _ => exact ⟨htcp, hudp⟩

/-- **Late events**: once everybody has ended only ends of TCP work are left, and the sweep. -/
theorem Turn.late (h : r.Turn s event r') (hsweep : event ≠ .sweep) (hjoined : r.isJoined = true)
    (hsent : r.HasSent) : r.tcp.store.Dwindles r'.tcp.store ∧ r'.dispatch = r.dispatch := by
  obtain ⟨-, -, hgone⟩ := isJoined_iff.mp hjoined
  cases h with
  | segment initial d pump hpump hworking => exact absurd (hgone _) hworking
  | datagram calls d pump hpump hworking => exact absurd (hgone _) hworking
  | udp own hworking => exact absurd (hgone _) hworking
  | sent calls x hsending =>
      rw [hsent (hgone _)] at hsending
      contradiction
  | tcp own hcompletion =>
      rw [tcp_stepTcp]
      exact ⟨Tcp.Engine.dwindles_step _ _ hcompletion, rfl⟩
  | sweep => contradiction
  | _ => exact ⟨.refl _, rfl⟩

/-- Only the sweep changes the phase. -/
theorem Turn.phase (h : r.Turn s event r') (hsweep : event ≠ .sweep) : r'.phase = r.phase := by
  cases h with
  | sweep => contradiction
  | _ => rfl

/-! ## Phases -/

/-- What holds of the connections in each phase of a run. -/
def Kept (r : Relay) : Prop :=
  match r.phase with
  | .working => r.tcp.Coherent ∧ r.dispatch.Coherent
  | .closingTcp left => r.isJoined = true ∧ r.tcp.store.Swept left ∧ r.dispatch.Coherent
  | .closingUdp left => r.isJoined = true ∧ r.tcp.store.Swept [] ∧ r.udp.store.Swept left
  | .returned => r.isJoined = true ∧ r.tcp.store.Swept [] ∧ r.udp.store.Swept []

/-- The sweep ends no task. -/
theorem isJoined_sweep (r : Relay) : r.sweep.isJoined = r.isJoined := by
  obtain ⟨tcp, udp, phase, pool, heq⟩ := r.sweep_eq
  rw [heq]
  rfl

/-- The sweep keeps what it has closed already. -/
theorem Kept.sweep (h : r.Kept) : r.sweep.Kept := by
  have hjoined := r.isJoined_sweep
  unfold Relay.sweep at hjoined ⊢
  unfold Kept at h
  cases hphase : r.phase with
  | working =>
      simp only [hphase] at h hjoined ⊢
      split
      · next hall =>
          rw [if_pos hall] at hjoined
          exact ⟨hjoined.trans hall, h.1.accurate.swept, h.2⟩
      · simpa only [Kept, hphase] using h
  | closingTcp left =>
      simp only [hphase] at h hjoined ⊢
      obtain ⟨hall, htcp, hudp⟩ := h
      cases left with
      | nil => exact ⟨hjoined.trans hall, htcp, hudp.engine.accurate.swept⟩
      | cons id left => exact ⟨hjoined.trans hall, htcp.close, hudp⟩
  | closingUdp left =>
      simp only [hphase] at h hjoined ⊢
      obtain ⟨hall, htcp, hudp⟩ := h
      cases left with
      | nil => exact ⟨hjoined.trans hall, htcp, hudp⟩
      | cons id left => exact ⟨hjoined.trans hall, htcp, hudp.close⟩
  | returned => simpa only [Kept, hphase] using h

/-- Turns keep what was closed already. -/
theorem Kept.turn (h : r.Kept) (hturn : r.Turn s event r') (hsent : r.HasSent) : r'.Kept := by
  by_cases hsweep : event = .sweep
  · subst hsweep
    cases hturn with
    | nothing => exact h
    | sweep => exact h.sweep
  have hphase := hturn.phase hsweep
  have honward := hturn.onward
  unfold Kept at h ⊢
  rw [hphase]
  split at h
  · exact hturn.coherent hsweep h.1 h.2
  · obtain ⟨hjoined, htcp, hudp⟩ := h
    obtain ⟨hdwindles, hsame⟩ := hturn.late hsweep hjoined hsent
    exact ⟨honward.isJoined hjoined, htcp.dwindle hdwindles, hsame ▸ hudp⟩
  all_goals
    obtain ⟨hjoined, htcp, hudp⟩ := h
    obtain ⟨hdwindles, hsame⟩ := hturn.late hsweep hjoined hsent
    have hudp' : r'.udp = r.udp := congrArg Udp.Dispatch.engine hsame
    exact ⟨honward.isJoined hjoined, htcp.dwindle hdwindles, hudp' ▸ hudp⟩

/-! ## Runs -/

theorem run_append (r : Relay) (xs ys : List (Surroundings × Event)) :
    r.run (xs ++ ys) = (r.run xs).run ys := List.foldl_append

@[simp] theorem run_concat (r : Relay) (xs : List (Surroundings × Event)) (s : Surroundings)
    (event : Event) : r.run (xs ++ [(s, event)]) = (r.run xs).step s event := by
  rw [run_append]
  rfl

/-- What holds of a relay whose device answers as given. -/
structure Sound (r : Relay) (script : List Device.Reading) : Prop where
  reads : r.Reads script
  hasSent : r.HasSent
  kept : r.Kept

theorem sound_start (config : Config) (inspecting : Bool) : (start config inspecting).Sound [] where
  reads := ⟨nofun, fun fault => by simp [start], List.nil_prefix, fun _ => rfl⟩
  hasSent := nofun
  kept := ⟨.empty config inspecting, ⟨.empty config, nofun⟩⟩

/-- A step keeps what holds of a relay. -/
theorem Sound.step {script : List Device.Reading} (h : r.Sound script) (s : Surroundings)
    (event : Event) : (r.step s event).Sound (script ++ event.reading?.toList) :=
  have hturn := r.turn_step s event
  ⟨h.reads.turn hturn, h.hasSent.turn hturn, h.kept.turn hturn h.hasSent⟩

/-- What holds of a relay holds at the end of every run. -/
theorem sound_run (config : Config) (inspecting : Bool) (steps : List (Surroundings × Event)) :
    ((start config inspecting).run steps).Sound (script steps) := by
  induction steps using List.reverseRecOn with
  | nil => exact sound_start config inspecting
  | append_singleton steps x ih =>
      obtain ⟨s, event⟩ := x
      have hscript : script (steps ++ [(s, event)]) = script steps ++ event.reading?.toList := by
        rw [script, List.filterMap_append]
        cases hreading : event.reading? <;> simp [script, hreading]
      rw [run_concat, hscript]
      exact ih.step s event

/-! ## Runs that can return -/

theorem Onward.trans {r'' : Relay} (h : r.Onward r') (h' : r'.Onward r'') : r.Onward r'' where
  stopped hstopped := h'.stopped (h.stopped hstopped)
  reader hsome := (h'.reader (h.reader hsome ▸ hsome)).trans (h.reader hsome)
  writer hended := h'.writer (h.writer hended)
  gone := fun _ hworker => h'.gone (h.gone hworker)

/-- Nothing that has ended begins again in a run. -/
theorem onward_run (r : Relay) (steps : List (Surroundings × Event)) : r.Onward (r.run steps) := by
  induction steps generalizing r with
  | nil => exact .refl r
  | cons x rest ih => exact (r.turn_step x.1 x.2).onward.trans (ih (r.step x.1 x.2))

/-- Some events lead to a relay of a kind. -/
def CanReach (r : Relay) (s : Surroundings) (p : Relay → Prop) : Prop :=
  ∃ events : List Event, p (r.run (events.map (s, ·)))

namespace CanReach

variable {p q : Relay → Prop}

theorem refl (h : p r) : r.CanReach s p := ⟨[], h⟩

theorem step (event : Event) (h : (r.step s event).CanReach s p) : r.CanReach s p := by
  obtain ⟨events, h⟩ := h
  exact ⟨event :: events, h⟩

/-- What can be reached in two stages can be reached. -/
theorem trans (h : r.CanReach s p) (h' : ∀ r', r.Onward r' → p r' → r'.CanReach s q) :
    r.CanReach s q := by
  obtain ⟨events, h⟩ := h
  obtain ⟨more, hmore⟩ := h' _ (r.onward_run _) h
  refine ⟨events ++ more, ?_⟩
  rwa [List.map_append, run_append]

end CanReach

/-- The reader can be brought to its end, and the stop flag is raised then. -/
theorem canReach_stopped (r : Relay) (s : Surroundings) :
    r.CanReach s fun r => r.reader.isSome = true ∧ r.pump.stopped = true := by
  refine .step .raise (.step .stopReading (.refl ?_))
  cases hreader : r.reader <;> simp [step, stopReading, hreader, Device.Pump.stop]

/-- Whatever is on its way can be sent. -/
theorem canReach_sent (r : Relay) (s : Surroundings) : r.CanReach s fun r => r.sends = [] := by
  generalize hsends : r.sends = sends
  induction sends generalizing r with
  | nil => exact .refl hsends
  | cons x rest ih =>
      have hstep : (r.sendFirst s ⟨fun _ => .ok (), .ok ()⟩).sends = rest := by
        simp [sendFirst, hsends, stepUdp, queueAll, dispatch, Udp.Dispatch.step]
      exact .step (.sent ⟨fun _ => .ok (), .ok ()⟩) (ih _ hstep)

/-- A worker who may end ends when he finds the stop signal. -/
theorem mem_gone_leave (worker : Worker) (hstopped : r.pump.stopped = true)
    (hsends : r.sends = []) :
    worker ∈ (r.leave worker).gone ∧ (r.leave worker).sends = [] := by
  unfold leave
  split
  · next hkept => exact ⟨by simpa [hstopped] using hkept, hsends⟩
  · cases worker <;> simp [hsends]

/-- Workers can be brought to their end once the flag is raised and nothing is on its way. -/
theorem canReach_gone (s : Surroundings) (workers : List Worker) (hstopped : r.pump.stopped = true)
    (hsends : r.sends = []) : r.CanReach s fun r => ∀ worker ∈ workers, worker ∈ r.gone := by
  induction workers generalizing r with
  | nil => exact .refl nofun
  | cons worker rest ih =>
      obtain ⟨hgone, hsends'⟩ := mem_gone_leave worker hstopped hsends
      have honward := (r.turn_step s (.leave worker)).onward
      obtain ⟨events, hrest⟩ := ih (honward.stopped hstopped) hsends'
      have hlater := (r.leave worker).onward_run (events.map (s, ·))
      exact .step (.leave worker) ⟨events, List.forall_mem_cons.mpr ⟨hlater.gone hgone, hrest⟩⟩

/-- The writer can write what is queued, and end. -/
theorem canReach_hasEnded (s : Surroundings) (h : r.pump.stopped = true) :
    r.CanReach s fun r => r.writer.hasEnded = true := by
  generalize hleft : r.writer.left = left
  induction left using Nat.strong_induction_on generalizing r with
  | _ left ih =>
      have hadvance (act : Device.Writer.Act) (hown : act.isOwn = true)
          (hact : r.writer.Advances true act) : r.CanReach s fun r => r.writer.hasEnded = true := by
        have hstep : r.step s (.write act) = { r with writer := r.writer.step true act } := by
          simp only [step, hown, h, if_true]
        refine .step (.write act) ?_
        rw [hstep]
        exact ih _ (hleft ▸ hact) h rfl
      by_cases hended : r.writer.stage = .ended
      · exact .refl (by rw [Device.Writer.hasEnded, hended])
      · rcases Device.Writer.exists_advances hended with ⟨act, hmem, hact⟩ | hanswer
        · refine hadvance act ?_ hact
          simp only [List.mem_cons, List.not_mem_nil, or_false] at hmem
          rcases hmem with rfl | rfl | rfl <;> rfl
        · exact hadvance (.answer (.ok 0)) rfl (hanswer _)

/-- All tasks can be brought to their end. -/
theorem canReach_isJoined (r : Relay) (s : Surroundings) :
    r.CanReach s fun r => r.isJoined = true := by
  refine (r.canReach_stopped s).trans fun r₁ _ ⟨hreader, hstopped⟩ => ?_
  refine (r₁.canReach_sent s).trans fun r₂ honward₂ hsends => ?_
  have hstopped₂ := honward₂.stopped hstopped
  refine (canReach_gone s [.tcpDispatcher, .tcpMultiplexer, .udpDispatcher, .udpMultiplexer]
    hstopped₂ hsends).trans fun r₃ honward₃ hgone => ?_
  refine (canReach_hasEnded s (honward₃.stopped hstopped₂)).trans fun r₄ honward₄ hended => ?_
  have honward := (honward₂.trans honward₃).trans honward₄
  refine .refl (isJoined_iff.mpr ⟨honward.reader hreader ▸ hreader, hended, fun worker => ?_⟩)
  exact honward₄.gone (hgone worker (by cases worker <;> simp))

/-- The sweep of the UDP table comes to its end. -/
theorem canReach_of_closingUdp (s : Surroundings) {left : List Nat}
    (h : r.phase = .closingUdp left) : r.CanReach s fun r => r.phase = .returned := by
  induction left generalizing r with
  | nil => exact .step .sweep (.refl (by simp [step, sweep, h]))
  | cons id left ih => exact .step .sweep (ih (by simp [step, sweep, h]))

/-- The sweep of the TCP table comes to its end, and that of the UDP table follows. -/
theorem canReach_of_closingTcp (s : Surroundings) {left : List Nat}
    (h : r.phase = .closingTcp left) : r.CanReach s fun r => r.phase = .returned := by
  induction left generalizing r with
  | nil =>
      have hnext : (r.step s .sweep).phase =
          .closingUdp (r.udp.store.table.clear.2.map Prod.snd) := by
        simp [step, sweep, h]
      exact .step .sweep (canReach_of_closingUdp s hnext)
  | cons id left ih => exact .step .sweep (ih (by simp [step, sweep, h]))

/-- A relay whose tasks have ended can return. -/
theorem canReach_returned (s : Surroundings) (h : r.isJoined = true) :
    r.CanReach s fun r => r.phase = .returned := by
  cases hphase : r.phase with
  | working =>
      have hnext : (r.step s .sweep).phase =
          .closingTcp (r.tcp.store.table.clear.2.map Prod.snd) := by
        simp [step, sweep, hphase, h]
      exact .step .sweep (canReach_of_closingTcp s hnext)
  | closingTcp left => exact canReach_of_closingTcp s hphase
  | closingUdp left => exact canReach_of_closingUdp s hphase
  | returned => exact .refl hphase

/-- **No deadlock**: every run can be brought to its end, whatever has happened before. -/
theorem canReach_outcome (r : Relay) (s : Surroundings) :
    r.CanReach s fun r => r.outcome.isSome = true := by
  refine (r.canReach_isJoined s).trans fun r₁ _ hjoined => ?_
  refine (canReach_returned s hjoined).trans fun r₂ honward hphase => .refl ?_
  rw [outcome, hphase]
  exact (isJoined_iff.mp (honward.isJoined hjoined)).1

/-! ## Returned runs -/

/-- What happens later may still complete TCP work, and does nothing else to connections. -/
structure Quiet (r r' : Relay) : Prop where
  outcome : r'.outcome = r.outcome
  phase : r'.phase = .returned
  tcp : r.tcp.store.Dwindles r'.tcp.store
  udp : r'.udp = r.udp

/-- A step of a relay that has returned is quiet. -/
theorem Sound.quiet_step {script : List Device.Reading} (h : r.Sound script)
    (hphase : r.phase = .returned) (s : Surroundings) (event : Event) :
    r.Quiet (r.step s event) := by
  by_cases hsweep : event = .sweep
  · have hsame : r.step s event = r := by simp [hsweep, Relay.step, Relay.sweep, hphase]
    rw [hsame]
    exact ⟨rfl, hphase, .refl _, rfl⟩
  · have hturn := r.turn_step s event
    have hkept := h.kept
    simp only [Kept, hphase] at hkept
    have hreader := hturn.onward.reader (isJoined_iff.mp hkept.1).1
    have hphase' := (hturn.phase hsweep).trans hphase
    obtain ⟨htcp, hudp⟩ := hturn.late hsweep hkept.1 h.hasSent
    refine ⟨?_, hphase', htcp, congrArg Udp.Dispatch.engine hudp⟩
    simp only [outcome, hphase, hphase', hreader]

/-- Whatever happens to a relay that has returned is quiet. -/
theorem Sound.quiet_run {script : List Device.Reading} (h : r.Sound script)
    (hphase : r.phase = .returned) (steps : List (Surroundings × Event)) :
    r.Quiet (r.run steps) := by
  induction steps generalizing r script with
  | nil => exact ⟨rfl, hphase, .refl _, rfl⟩
  | cons x rest ih =>
      obtain ⟨s, event⟩ := x
      have hstep := h.quiet_step hphase s event
      have hrest := ih (h.step s event) hstep.phase
      exact ⟨hrest.outcome.trans hstep.outcome, hrest.phase, hstep.tcp.trans hrest.tcp,
        hrest.udp.trans hstep.udp⟩

/-- Both tables are empty, and every connection that ever came is closed. -/
structure Closed (r : Relay) : Prop where
  tcpTable : r.tcp.store.table.entries = []
  udpTable : r.udp.store.table.entries = []
  tcp : ∀ id c, r.tcp.store.connection? id = some c → c.closed = true
  udp : ∀ id c, r.udp.store.connection? id = some c → c.closed = true

/-- A store that was swept is closed. -/
theorem Closed.of_swept (htcp : r.tcp.store.Swept []) (hudp : r.udp.store.Swept []) : r.Closed :=
  ⟨htcp.entries_eq, hudp.entries_eq, fun _ _ => htcp.isClosed_of_nil,
    fun _ _ => hudp.isClosed_of_nil⟩

/-- **Returned runs**: every run can be brought to its end.  When it returns, whatever the device
did and whoever stopped it, both tables are empty, every connection is closed and the stop signal is
raised.  The result is the fault that the device failed with, if it failed.  Whatever happens later
opens no connection, lists none and leaves the result. -/
theorem run_returned (config : Config) (inspecting : Bool)
    (before : List (Surroundings × Event)) :
    let r := (start config inspecting).run before
    (∀ s, r.CanReach s fun r => r.outcome.isSome = true) ∧
    ∀ result, r.outcome = some result →
      r.Closed ∧ r.pump.stopped = true ∧ r.readings <+: script before ∧
        (∀ fault, result = .error fault ↔
          r.readings.findSome? Device.Reading.fatal? = some fault) ∧
        ∀ after,
          let r' := r.run after
          r'.Closed ∧ r'.outcome = some result ∧
            r'.tcp.store.connections.length = r.tcp.store.connections.length ∧
            r'.udp.store.connections.length = r.udp.store.connections.length := by
  intro r
  refine ⟨r.canReach_outcome, fun result hresult => ?_⟩
  have hsound : r.Sound (script before) := sound_run config inspecting before
  obtain ⟨hphase, hreader⟩ : r.phase = .returned ∧ r.reader = some result := by
    unfold outcome at hresult
    split at hresult
    · next hphase => exact ⟨hphase, hresult⟩
    all_goals contradiction
  have hkept := hsound.kept
  simp only [Kept, hphase] at hkept
  obtain ⟨-, htcp, hudp⟩ := hkept
  refine ⟨.of_swept htcp hudp, hsound.reads.stopped (by simp [hreader]), hsound.reads.readings,
    fun fault => ?_, fun after => ?_⟩
  · rw [← hsound.reads.fault, hreader, Option.some_inj]
  · have hquiet := hsound.quiet_run hphase after
    refine ⟨.of_swept (htcp.dwindle hquiet.tcp) (hquiet.udp ▸ hudp),
      hquiet.outcome.trans hresult, hquiet.tcp.length_eq, by rw [hquiet.udp]⟩

namespace Returned.Sample

open Packet
open Tcp.Engine.Sample (surroundings target)

/-- A SYN and a datagram are read and handled, and the device fails. -/
def work : List Event :=
  [.read (.data ((Headers.tcp ⟨⟨10, 0, 0, 2⟩, 5000⟩ target Flag.syn 7 0).bytes [])), .segment 100,
    .read (.data ((Headers.udp ⟨⟨10, 0, 0, 2⟩, 5000⟩ target).bytes [1, 2])),
    .datagram Engines.Sample.calls, .sent Engines.Sample.calls,
    .read (.failed (.outside .other "gone"))]

/-- Everybody ends, and both connections are closed. -/
def steps : List (Surroundings × Event) :=
  (work ++ leaving ++ flushing [] ++ List.replicate 5 Event.sweep).map (surroundings, ·)

/-- The connect of the TCP connection ends when the run has returned. -/
def late : List (Surroundings × Event) := [(surroundings, .tcp (.connected 0 target (.ok ())))]

end Returned.Sample

open Returned.Sample in
/-- A device fails while a connect and a read are under way. -/
theorem returned_of_sample :
    let r := (start Tcp.Engine.Sample.config false).run Returned.Sample.steps
    r.outcome = some (.error (.outside .other "gone")) ∧ r.Closed ∧ r.pump.stopped = true ∧
      r.tcp.store.connections.length = 1 ∧ r.udp.store.connections.length = 1 ∧
      r.tcp.tasks = [.connect 0 Tcp.Engine.Sample.target] ∧
      (r.run late).Closed ∧ (r.run late).tcp.tasks = [] := by
  intro r
  have hresult : r.outcome = some (.error (.outside .other "gone")) := by decide +kernel
  obtain ⟨hclosed, hstopped, -, -, hafter⟩ :=
    (run_returned Tcp.Engine.Sample.config false Returned.Sample.steps).2 _ hresult
  exact ⟨hresult, hclosed, hstopped, by decide +kernel, by decide +kernel, by decide +kernel,
    (hafter late).1, by decide +kernel⟩

end FlowRelay.Relay
