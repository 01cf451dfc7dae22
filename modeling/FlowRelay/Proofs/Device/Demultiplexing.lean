import FlowRelay.Device.Pump
import FlowRelay.Proofs.Packet.RoundTrip
import FlowRelay.Proofs.Pool.Blank
import Mathlib.Logic.Function.Basic

/-!
# FlowRelay.Proofs.Device.Demultiplexing

What a reader of the device passes on, while the engines take packets and give buffers back as they
like.

1. *Reads* (`Pump.read_eq`): a read puts the datagram itself, without a trace of what was in the
   buffer before, into the queue of its protocol, and counts it.
2. *Payloads* (`payload_of_packet?`): the payload of a packet is where the headers in the datagram
   say.
3. *Demultiplexing* (`Intake.run_demultiplexes`): so each engine gets the datagrams of its protocol,
   in order and once each, and the reading fails exactly if a read fails for good, which is the last
   one then.
4. *Reading alone* (`Intake.run_map_read_stop`): without engines in between these are the runs of a
   pump.
-/

namespace FlowRelay

/-! ## Buffers -/

namespace Pool

/-- The number of buffers that were handed out so far. -/
def acquired (p : Pool) : Nat := p.allocations + p.reuses

theorem acquired_acquire (p : Pool) : p.acquire.1.acquired = p.acquired + 1 := by
  unfold acquire acquired
  split <;> simp only <;> omega

end Pool

namespace Device

open Packet

/-! ## Readings -/

namespace Reading

/-- The fault that ends the reading. -/
def fatal? : Reading → Option Fault
  | data _ => none
  | failed fault => if Pump.isRetried fault then none else some fault

/-- The datagram that is read into a buffer of the given size.  An empty read brings none. -/
def datagram? (size : Nat) : Reading → Option (List UInt8)
  | data bytes => if (bytes.take size).isEmpty then none else some (bytes.take size)
  | failed _ => none

end Reading

/-- The datagrams that come with the given readings. -/
def received (size : Nat) (readings : List Reading) : List (List UInt8) :=
  readings.filterMap (Reading.datagram? size)

/-- The packet of a protocol that a datagram is. -/
def packet? (protocol : Protocol) (datagram : List UInt8) : Option Datagram :=
  match Datagram.parse datagram with
  | .error _ => none
  | .ok d => if d.headers.protocol = protocol then some d else none

/-- A further reading adds the datagram that it brings. -/
theorem received_append_singleton (size : Nat) (readings : List Reading) (reading : Reading) :
    received size (readings ++ [reading]) =
      received size readings ++ (reading.datagram? size).toList := by
  rw [received, List.filterMap_append]
  cases h : reading.datagram? size <;> simp [received, h]

/-- A further reading adds what its datagram is mapped to. -/
theorem filterMap_received_append_singleton (f : List UInt8 → Option α) (size : Nat)
    (readings : List Reading) (reading : Reading) :
    (received size (readings ++ [reading])).filterMap f =
      (received size readings).filterMap f ++ ((reading.datagram? size).bind f).toList := by
  rw [received_append_singleton, List.filterMap_append]
  congr 1
  cases h : reading.datagram? size with
  | none => rfl
  | some datagram => cases hf : f datagram <;> simp [hf]

/-! ## Reads -/

namespace Pump

variable {p : Pump} {queue tcp udp : List Datagram}

/-- What is read into a buffer is what the buffer is cut to, whatever was in it. -/
theorem take_overwrite (buffer bytes : List UInt8) :
    (Bytes.overwrite buffer 0 (bytes.take (min bytes.length buffer.length))).take
      (min bytes.length buffer.length) = bytes.take buffer.length := by
  rw [Bytes.overwrite, List.take_zero, List.nil_append, List.take_append_of_le_length (by simp),
    List.take_take, Nat.min_self, List.take_eq_take_iff]
  omega

/-- A datagram is handed to the engine of its protocol only, or else its buffer goes back. -/
theorem route_eq (htcp : p.tcp = some tcp) (hudp : p.udp = some udp) (datagram : List UInt8) :
    ∃ pool, (pool = p.pool ∨ pool = p.pool.release datagram) ∧
      p.route datagram =
        { p with
          pool
          tcp := some (tcp ++ (packet? .tcp datagram).toList)
          udp := some (udp ++ (packet? .udp datagram).toList) } := by
  cases hparse : Datagram.parse datagram with
  | error e =>
      refine ⟨p.pool.release datagram, .inr rfl, ?_⟩
      simp [route, packet?, hparse, htcp, hudp]
  | ok d =>
      refine ⟨p.pool, .inl rfl, ?_⟩
      cases hprotocol : d.headers.protocol <;> simp [route, packet?, hparse, htcp, hudp, hprotocol]

/-- **Reads**: a read takes one buffer, counts the datagram that it brings, if any, and puts the
datagram into the queue of its protocol. -/
theorem read_eq (hpool : p.pool.Clean) (htcp : p.tcp = some tcp) (hudp : p.udp = some udp)
    (reading : Reading) :
    ∃ pool : Pool, pool.Clean ∧ pool.bufferSize = p.pool.bufferSize ∧
      pool.acquired = p.pool.acquired + 1 ∧
      p.read reading =
        ({ pool
           traffic := (reading.datagram? p.pool.bufferSize).elim p.traffic
              fun datagram => p.traffic.add datagram.length
           tcp := some (tcp ++ ((reading.datagram? p.pool.bufferSize).bind (packet? .tcp)).toList)
           udp := some (udp ++ ((reading.datagram? p.pool.bufferSize).bind (packet? .udp)).toList)
           stopped := p.stopped || reading.fatal?.isSome }, reading.fatal?) := by
  have hclean := hpool.acquire
  have hsize := p.pool.bufferSize_use .acquire
  have hacquired := p.pool.acquired_acquire
  have hblank : p.pool.acquire.2.length = p.pool.bufferSize := by
    rw [hpool.snd_acquire, Pool.blank, List.length_replicate]
  cases reading with
  | failed fault =>
      refine ⟨p.pool.acquire.1.release p.pool.acquire.2, hclean.release _, hsize, hacquired, ?_⟩
      cases hretried : isRetried fault <;>
        simp [read, Reading.datagram?, Reading.fatal?, hretried, htcp, hudp]
  | data bytes =>
      have hcount : min bytes.length p.pool.acquire.2.length =
          (bytes.take p.pool.bufferSize).length := by
        rw [List.length_take, hblank, Nat.min_comm]
      have hfilled := take_overwrite p.pool.acquire.2 bytes
      rw [hcount, hblank] at hfilled
      by_cases hempty : bytes.take p.pool.bufferSize = []
      · refine ⟨p.pool.acquire.1.release (Bytes.overwrite p.pool.acquire.2 0 []),
          hclean.release _, hsize, hacquired, ?_⟩
        simp only [read, hcount, hempty, List.length_nil, if_true]
        simp [Reading.datagram?, Reading.fatal?, hempty, htcp, hudp]
      · have hpositive : (bytes.take p.pool.bufferSize).length ≠ 0 := by
          simpa [List.length_eq_zero_iff] using hempty
        have hdatagram : (Reading.data bytes).datagram? p.pool.bufferSize =
            some (bytes.take p.pool.bufferSize) := by
          simp [Reading.datagram?, hempty]
        obtain ⟨pool, hrouted, hroute⟩ := route_eq (p := { p with
            pool := p.pool.acquire.1
            traffic := p.traffic.add (bytes.take p.pool.bufferSize).length })
          htcp hudp (bytes.take p.pool.bufferSize)
        refine ⟨pool, ?_⟩
        simp only [read, hcount, if_neg hpositive, hfilled, hroute, hdatagram]
        have hrest : pool.Clean ∧ pool.bufferSize = p.pool.bufferSize ∧
            pool.acquired = p.pool.acquired + 1 := by
          rcases hrouted with rfl | rfl
          · exact ⟨hclean, hsize, hacquired⟩
          · exact ⟨hclean.release _, hsize, hacquired⟩
        obtain ⟨hclean', hsize', hacquired'⟩ := hrest
        exact ⟨hclean', hsize', hacquired', by simp [Reading.fatal?]⟩

/-- A read ends the reading exactly if it fails for good. -/
theorem snd_read (p : Pump) (reading : Reading) : (p.read reading).2 = reading.fatal? := by
  cases reading with
  | failed fault =>
      unfold read Reading.fatal?
      dsimp only
      split <;> rfl
  | data bytes =>
      unfold read Reading.fatal?
      dsimp only
      split <;> rfl

/-- Routing a packet neither raises nor lowers the flag. -/
theorem stopped_route (p : Pump) (buffer : List UInt8) : (p.route buffer).stopped = p.stopped := by
  unfold route
  dsimp only
  split
  · rfl
  · split <;> split <;> rfl

/-- A read raises the stop signal exactly if it fails for good. -/
theorem stopped_read (p : Pump) (reading : Reading) :
    (p.read reading).1.stopped = (p.stopped || reading.fatal?.isSome) := by
  cases reading with
  | failed fault =>
      unfold read Reading.fatal?
      dsimp only
      split <;> simp
  | data bytes =>
      unfold read Reading.fatal?
      dsimp only
      split
      · simp
      · simp [stopped_route]

theorem stopped_take? {p' : Pump} {protocol : Protocol} {d : Datagram}
    (h : p.take? protocol = some (d, p')) : p'.stopped = p.stopped := by
  unfold take? at h
  split at h
  · cases h
    cases protocol <;> rfl
  · contradiction
  · contradiction

theorem stopped_shut (p : Pump) (protocol : Protocol) :
    (p.shut protocol).stopped = p.stopped := by
  cases protocol <;> rfl

end Pump

/-! ## Payloads -/

/-- The payload of a datagram, by the lengths in its headers. -/
def payloadIn (datagram : List UInt8) (protocol : Protocol) : List UInt8 :=
  let segment := Bytes.slice datagram (Ipv4.lengthAt datagram)
    (Ipv4.ofBytes datagram).totalLength.toNat
  match protocol with
  | .tcp => segment.drop (Tcp.lengthAt segment)
  | .udp => Bytes.slice segment Udp.headerLength (Udp.ofBytes segment).length.toNat

/-- A slice of a slice is a slice of the whole. -/
theorem slice_slice {bytes : List UInt8} {start stop i j : Nat} (h : start + j ≤ stop) :
    Bytes.slice (Bytes.slice bytes start stop) i j = Bytes.slice bytes (start + i) (start + j) := by
  have hwidth : min (j - i) (stop - start - i) = start + j - (start + i) := by omega
  rw [Bytes.slice, Bytes.slice, Bytes.slice, List.drop_take, List.drop_drop, List.take_take, hwidth]

/-- The payload of a segment is where its header says. -/
theorem slice_of_parseTransport {number : UInt8} {segment : List UInt8} {t : Transport}
    {span : Span} (h : Headers.parseTransport number segment = .ok (t, span)) :
    Bytes.slice segment span.start span.stop =
      match t.protocol with
      | .tcp => segment.drop (Tcp.lengthAt segment)
      | .udp => Bytes.slice segment Udp.headerLength (Udp.ofBytes segment).length.toNat := by
  unfold Headers.parseTransport at h
  split at h
  · contradiction
  · split at h
    · contradiction
    · dsimp only at h
      split at h
      · contradiction
      · cases h
        simp only [Transport.protocol, Bytes.slice]
        exact List.take_of_length_le (by simp)
  · split at h
    · contradiction
    · dsimp only at h
      split at h
      · contradiction
      · cases h
        rfl

/-- Headers that are read are those of the segment within the total length. -/
theorem exists_parseTransport {bytes : List UInt8} {h : Headers} {span : Span}
    (hok : Headers.parse bytes = .ok (h, span)) :
    ∃ inner : Span,
      Headers.parseTransport h.network.protocol (Bytes.slice bytes (Ipv4.lengthAt bytes)
        (Ipv4.ofBytes bytes).totalLength.toNat) = .ok (h.transport, inner) ∧
      span = ⟨Ipv4.lengthAt bytes + inner.start, Ipv4.lengthAt bytes + inner.stop⟩ ∧
      Ipv4.lengthAt bytes ≤ (Ipv4.ofBytes bytes).totalLength.toNat := by
  unfold Headers.parse at hok
  dsimp only at hok
  iterate 5
    split at hok
    · contradiction
  split at hok
  · contradiction
  · next hlength _ t inner htransport =>
      cases hok
      refine ⟨inner, htransport, rfl, ?_⟩
      omega

/-- **Payloads**: a packet is the datagram itself, with its payload where the headers say. -/
theorem payload_of_packet? {protocol : Protocol} {datagram : List UInt8} {d : Datagram}
    (h : packet? protocol datagram = some d) :
    d.buffer = datagram ∧ d.payload = payloadIn datagram protocol := by
  unfold packet? Datagram.parse at h
  cases hheaders : Headers.parse datagram with
  | error e => simp [hheaders, Except.map] at h
  | ok read =>
      obtain ⟨headers, span⟩ := read
      simp only [hheaders, Except.map] at h
      split at h
      · next hprotocol =>
          cases h
          subst hprotocol
          refine ⟨rfl, ?_⟩
          obtain ⟨inner, htransport, rfl, hlength⟩ := exists_parseTransport hheaders
          obtain ⟨-, -, hstop⟩ := Headers.parseTransport_ok htransport
          have hinside := Nat.le_trans hstop (List.length_take_le _ _)
          have hend : Ipv4.lengthAt datagram + inner.stop ≤
              (Ipv4.ofBytes datagram).totalLength.toNat := by omega
          rw [Datagram.payload, ← slice_slice hend, slice_of_parseTransport htransport]
          rfl
      · contradiction

/-- The payloads of the packets of a protocol are those in the datagrams that are such packets. -/
theorem map_payload_filterMap (protocol : Protocol) (datagrams : List (List UInt8)) :
    (datagrams.filterMap (packet? protocol)).map Datagram.payload =
      (datagrams.filter fun datagram => (packet? protocol datagram).isSome).map
        (payloadIn · protocol) := by
  induction datagrams with
  | nil => rfl
  | cons datagram rest ih =>
      cases hpacket : packet? protocol datagram with
      | none => simpa [hpacket] using ih
      | some d => simpa [hpacket, (payload_of_packet? hpacket).2] using ih

/-! ## Reading while the engines work -/

/-- What happens around a reader of the device. -/
inductive Move where
  | read (reading : Reading)
  /-- An engine takes the packet that has waited longest. -/
  | take (protocol : Protocol)
  /-- A buffer comes back, with whatever became of its content. -/
  | release (used : List UInt8)
  /-- The stop signal ends the read that is under way. -/
  | stop

/-- The readings that are heard of, up to the end of the reading. -/
def heard : List Move → List Reading
  | [] => []
  | .read reading :: rest => reading :: if reading.fatal?.isSome then [] else heard rest
  | .stop :: _ => []
  | .take _ :: rest | .release _ :: rest => heard rest

/-- A reader, the packets that the engines have taken from it, and how the reading ended. -/
structure Intake where
  pump : Pump
  taken : Protocol → List Datagram
  result : Option (Except Fault Unit)

namespace Intake

variable {s : Intake} {size : Nat} {readings : List Reading}

/-- Nothing has been read yet. -/
def empty (mtu : Nat) : Intake := ⟨.empty mtu, fun _ => [], none⟩

/-- One move.  Behind the end of the reading nothing is read. -/
def step (s : Intake) : Move → Intake
  | .read reading =>
    match s.result with
    | some _ => s
    | none =>
      let (pump, fault?) := s.pump.read reading
      { s with pump, result := fault?.map .error }
  | .take protocol =>
    match s.pump.queue protocol with
    | some (d :: rest) =>
      { s with
        pump := s.pump.withQueue protocol (some rest)
        taken := Function.update s.taken protocol (s.taken protocol ++ [d]) }
    | _ => s
  | .release used => { s with pump := { s.pump with pool := s.pump.pool.release used } }
  | .stop =>
    match s.result with
    | some _ => s
    | none => { s with pump := s.pump.stop, result := some (.ok ()) }

/-- Many moves. -/
def run (s : Intake) (moves : List Move) : Intake := moves.foldl step s

theorem run_cons (s : Intake) (move : Move) (moves : List Move) :
    s.run (move :: moves) = (s.step move).run moves := rfl

/-- Taking a datagram does not end the intake. -/
theorem result_step_take (s : Intake) (protocol : Protocol) :
    (s.step (.take protocol)).result = s.result := by
  unfold step
  dsimp only
  split <;> rfl

/-- A reading ends the intake if it is fatal. -/
theorem result_step_read (h : s.result = none) (reading : Reading) :
    (s.step (.read reading)).result = reading.fatal?.map .error := by
  simp only [step, h, Pump.snd_read]

/-- The end of the reading is final. -/
theorem result_step_of_ended (h : s.result ≠ none) (move : Move) :
    (s.step move).result = s.result := by
  obtain ⟨result, hresult⟩ := Option.ne_none_iff_exists'.mp h
  cases move with
  | read | stop => simp only [step, hresult]
  | take protocol => exact result_step_take s protocol
  | release used => rfl

/-- The state of a reader that has heard of the given readings. -/
structure Agrees (s : Intake) (size : Nat) (readings : List Reading) : Prop where
  clean : s.pump.pool.Clean
  bufferSize_eq : s.pump.pool.bufferSize = size
  /-- An engine has taken, or still finds in its queue, the packets of its protocol. -/
  exists_waiting : ∀ protocol, ∃ waiting, s.pump.queue protocol = some waiting ∧
    s.taken protocol ++ waiting = (received size readings).filterMap (packet? protocol)
  traffic_eq : s.pump.traffic = .ofSizes ((received size readings).map List.length)
  failed_iff : ∀ fault,
    s.result = some (.error fault) ↔ readings.findSome? Reading.fatal? = some fault
  stopped_iff : s.pump.stopped = true ↔ s.result ≠ none
  /-- Each read took a buffer, and nothing else did. -/
  acquired_eq : s.result ≠ some (.ok ()) → s.pump.pool.acquired = readings.length

namespace Agrees

theorem empty (mtu : Nat) : (Intake.empty mtu).Agrees mtu [] where
  clean := .empty mtu
  bufferSize_eq := rfl
  exists_waiting protocol := ⟨[], by cases protocol <;> exact ⟨rfl, rfl⟩⟩
  traffic_eq := rfl
  failed_iff := by simp [Intake.empty]
  stopped_iff := by simp [Intake.empty, Pump.empty]
  acquired_eq _ := rfl

/-- A reading is routed, and the intake agrees with one reading more. -/
theorem read (h : s.Agrees size readings) (hrunning : s.result = none) (reading : Reading) :
    (s.step (.read reading)).Agrees size (readings ++ [reading]) := by
  obtain ⟨tcp, htcp, htcp'⟩ := h.exists_waiting .tcp
  obtain ⟨udp, hudp, hudp'⟩ := h.exists_waiting .udp
  obtain ⟨pool, hclean, hsize, hacquired, hread⟩ := Pump.read_eq h.clean htcp hudp reading
  rw [h.bufferSize_eq] at hsize hread
  have hnone : readings.findSome? Reading.fatal? = none := by
    cases hfind : readings.findSome? Reading.fatal? with
    | none => rfl
    | some fault =>
        have := (h.failed_iff fault).mpr hfind
        rw [hrunning] at this
        contradiction
  simp only [step, hrunning, hread]
  refine ⟨hclean, hsize, fun protocol => ?_, ?_, fun fault => ?_, ?_, fun _ => ?_⟩
  · rw [filterMap_received_append_singleton]
    cases protocol with
    | tcp => exact ⟨_, rfl, by rw [← List.append_assoc, htcp']⟩
    | udp => exact ⟨_, rfl, by rw [← List.append_assoc, hudp']⟩
  · rw [received_append_singleton, List.map_append, h.traffic_eq]
    cases reading.datagram? size <;> simp
  · rw [List.findSome?_append, hnone]
    cases hfatal : reading.fatal? <;> simp [hfatal]
  · have hstopped : s.pump.stopped = false := by
      simpa [hrunning] using h.stopped_iff
    cases reading.fatal? <;> simp [hstopped]
  · rw [hacquired, h.acquired_eq (by simp [hrunning]), List.length_append, List.length_singleton]

/-- A datagram that is taken leaves its queue and is among those taken. -/
theorem take (h : s.Agrees size readings) (protocol : Protocol) :
    (s.step (.take protocol)).Agrees size readings := by
  obtain ⟨waiting, hwaiting, htaken⟩ := h.exists_waiting protocol
  cases waiting with
  | nil =>
      simp only [step, hwaiting]
      exact h
  | cons d rest =>
      simp only [step, hwaiting]
      have hpump : (s.pump.withQueue protocol (some rest)).pool = s.pump.pool ∧
          (s.pump.withQueue protocol (some rest)).traffic = s.pump.traffic ∧
          (s.pump.withQueue protocol (some rest)).stopped = s.pump.stopped := by
        cases protocol <;> exact ⟨rfl, rfl, rfl⟩
      obtain ⟨hpool, htraffic, hstopped⟩ := hpump
      constructor
      · exact hpool ▸ h.clean
      · exact hpool ▸ h.bufferSize_eq
      · intro other
        by_cases hother : other = protocol
        · subst hother
          refine ⟨rest, by cases other <;> rfl, ?_⟩
          simp only [Function.update_self, List.append_assoc, List.singleton_append, htaken]
        · obtain ⟨waiting', hwaiting', htaken'⟩ := h.exists_waiting other
          refine ⟨waiting', ?_, by simp only [Function.update_of_ne hother, htaken']⟩
          cases other <;> cases protocol <;> first | exact hwaiting' | exact absurd rfl hother
      · exact htraffic.trans h.traffic_eq
      · exact h.failed_iff
      · exact hstopped ▸ h.stopped_iff
      · exact hpool ▸ h.acquired_eq

theorem release (h : s.Agrees size readings) (used : List UInt8) :
    (s.step (.release used)).Agrees size readings :=
  { h with clean := h.clean.release used }

/-- A stop ends the intake without an error. -/
theorem stop (h : s.Agrees size readings) (hrunning : s.result = none) :
    (s.step .stop).Agrees size readings := by
  have hnone := h.failed_iff
  simp only [hrunning] at hnone
  simp only [step, hrunning]
  exact
    { clean := h.clean.acquire.release s.pump.pool.acquire.2
      bufferSize_eq := (s.pump.pool.bufferSize_use .acquire).trans h.bufferSize_eq
      exists_waiting := fun protocol => by
        cases protocol with
        | tcp => exact h.exists_waiting .tcp
        | udp => exact h.exists_waiting .udp
      traffic_eq := h.traffic_eq
      failed_iff := fun fault => by simpa using hnone fault
      stopped_iff := by simp [Pump.stop]
      acquired_eq := fun hne => absurd rfl hne }

/-- Behind the end of the reading nothing is heard of any more. -/
theorem run_of_ended (h : s.Agrees size readings) (hended : s.result ≠ none) (moves : List Move) :
    (s.run moves).Agrees size readings := by
  induction moves generalizing s with
  | nil => exact h
  | cons move rest ih =>
      refine ih ?_ (by rwa [result_step_of_ended hended])
      obtain ⟨result, hresult⟩ := Option.ne_none_iff_exists'.mp hended
      cases move with
      | read | stop =>
          simp only [step, hresult]
          exact h
      | take protocol => exact h.take protocol
      | release used => exact h.release used

/-- What is heard of adds to what was. -/
theorem run (h : s.Agrees size readings) (hrunning : s.result = none) (moves : List Move) :
    (s.run moves).Agrees size (readings ++ heard moves) := by
  induction moves generalizing s readings with
  | nil => rwa [heard, List.append_nil]
  | cons move rest ih =>
      cases move with
      | read reading =>
          have hstep := h.read hrunning reading
          have hresult := result_step_read hrunning reading
          rw [heard, run_cons]
          cases hfatal : reading.fatal? with
          | none =>
              rw [hfatal] at hresult
              simpa [hfatal] using ih hstep hresult
          | some fault =>
              rw [hfatal] at hresult
              simpa [hfatal] using hstep.run_of_ended (by simp [hresult]) rest
      | take protocol => exact ih (h.take protocol) (by rw [result_step_take, hrunning])
      | release used => exact ih (h.release used) hrunning
      | stop =>
          rw [heard, List.append_nil]
          exact (h.stop hrunning).run_of_ended (by simp [step, hrunning]) rest

end Agrees

/-- A stop that comes with no failure is one from outside. -/
theorem mem_of_result_run {moves : List Move} (h : (s.run moves).result = some (.ok ())) :
    s.result = some (.ok ()) ∨ .stop ∈ moves := by
  induction moves generalizing s with
  | nil => exact .inl h
  | cons move rest ih =>
      rcases ih h with hstep | hrest
      · by_cases hended : s.result = none
        · cases move with
          | read reading => simp [result_step_read hended] at hstep
          | take protocol => exact .inl (by rwa [result_step_take] at hstep)
          | release used => exact .inl hstep
          | stop => exact .inr List.mem_cons_self
        · rw [result_step_of_ended hended] at hstep
          exact .inl hstep
      · exact .inr (List.mem_cons_of_mem move hrest)

/-- What has ended stays ended in the same way. -/
theorem result_run_of_ended (h : s.result ≠ none) (moves : List Move) :
    (s.run moves).result = s.result := by
  induction moves generalizing s with
  | nil => rfl
  | cons move rest ih =>
      have hstep := result_step_of_ended h move
      rw [run_cons, ih (by rwa [hstep]), hstep]

/-- A stop is the end, if it was not reached before. -/
theorem result_run_of_mem {moves : List Move} (h : .stop ∈ moves) :
    (s.run moves).result ≠ none := by
  obtain ⟨front, back, rfl⟩ := List.append_of_mem h
  have hstop : ((s.run front).step .stop).result ≠ none := by
    cases hfront : (s.run front).result <;> simp [step, hfront]
  have hrun : s.run (front ++ .stop :: back) = ((s.run front).step .stop).run back := by
    simp only [run, List.foldl_append, List.foldl_cons]
  rwa [hrun, result_run_of_ended hstop]

/-- Nothing is read behind the end. -/
theorem run_map_read_of_ended (h : s.result ≠ none) (readings : List Reading) :
    s.run (readings.map .read) = s := by
  obtain ⟨result, hresult⟩ := Option.ne_none_iff_exists'.mp h
  induction readings with
  | nil => rfl
  | cons reading rest ih =>
      rw [List.map_cons, run_cons]
      simpa only [step, hresult] using ih

/-- Reading without engines, up to the end of the readings. -/
theorem run_map_read (p : Pump) (taken : Protocol → List Datagram) (readings : List Reading) :
    run ⟨p, taken, none⟩ (readings.map .read) =
      ⟨(p.readAll readings).1, taken, (p.readAll readings).2.map .error⟩ := by
  induction readings generalizing p with
  | nil => rfl
  | cons reading rest ih =>
      rw [List.map_cons, run_cons]
      cases hread : p.read reading with
      | mk pump fault? =>
          cases fault? with
          | none => simpa [step, hread, Pump.readAll] using ih pump
          | some fault =>
              simp only [step, hread, Pump.readAll]
              exact run_map_read_of_ended (by simp) rest

/-- Reading without engines until the stop signal is raised. -/
theorem run_map_read_stop (p : Pump) (taken : Protocol → List Datagram)
    (readings : List Reading) :
    run ⟨p, taken, none⟩ (readings.map .read ++ [.stop]) =
      ⟨(p.run readings).1, taken, some ((p.run readings).2.elim (.ok ()) .error)⟩ := by
  have hreads := run_map_read p taken readings
  rw [run] at hreads ⊢
  rw [List.foldl_append, hreads, Pump.run]
  cases hread : p.readAll readings with
  | mk pump fault? => cases fault? <;> rfl

/-- **Demultiplexing**: each engine gets the packets of its protocol among the datagrams that are
read, in order and once each, with the payloads that the datagrams have.  The counters are those of
the datagrams.  The reading fails exactly if a read fails for good, which raises the stop signal;
no buffer is taken for another read then. -/
theorem run_demultiplexes (mtu : Nat) (moves : List Move) :
    (∀ protocol, ∃ waiting, ((empty mtu).run moves).pump.queue protocol = some waiting ∧
      ((empty mtu).run moves).taken protocol ++ waiting =
        (received mtu (heard moves)).filterMap (packet? protocol) ∧
      (((empty mtu).run moves).taken protocol ++ waiting).map Datagram.payload =
        ((received mtu (heard moves)).filter fun datagram =>
          (packet? protocol datagram).isSome).map (payloadIn · protocol)) ∧
    ((empty mtu).run moves).pump.traffic =
      .ofSizes ((received mtu (heard moves)).map List.length) ∧
    (∀ fault, ((empty mtu).run moves).result = some (.error fault) ↔
      (heard moves).findSome? Reading.fatal? = some fault) ∧
    (((empty mtu).run moves).pump.stopped = true ↔
      ((heard moves).findSome? Reading.fatal?).isSome ∨ .stop ∈ moves) ∧
    (∀ fault, ((empty mtu).run moves).result = some (.error fault) →
      ((empty mtu).run moves).pump.pool.acquired = (heard moves).length) := by
  have h := (Agrees.empty mtu).run rfl moves
  rw [List.nil_append] at h
  refine ⟨fun protocol => ?_, h.traffic_eq, h.failed_iff, h.stopped_iff.trans ⟨?_, ?_⟩, ?_⟩
  · obtain ⟨waiting, hwaiting, htaken⟩ := h.exists_waiting protocol
    exact ⟨waiting, hwaiting, htaken, by rw [htaken, map_payload_filterMap]⟩
  · intro hended
    obtain ⟨result, hresult⟩ := Option.ne_none_iff_exists'.mp hended
    cases result with
    | error fault => exact .inl (by rw [(h.failed_iff fault).mp hresult, Option.isSome_some])
    | ok => exact .inr ((mem_of_result_run hresult).resolve_left (by simp [empty]))
  · rintro (hfatal | hstop)
    · obtain ⟨fault, hfault⟩ := Option.isSome_iff_exists.mp hfatal
      rw [(h.failed_iff fault).mpr hfault]
      simp
    · exact result_run_of_mem hstop
  · intro fault hresult
    exact h.acquired_eq (by simp [hresult])

end Intake

end Device

end FlowRelay
