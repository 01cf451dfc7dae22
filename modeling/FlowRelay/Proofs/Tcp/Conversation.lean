import Mathlib.Data.List.Basic
import FlowRelay.Proofs.Tcp.Run

/-!
# FlowRelay.Proofs.Tcp.Conversation

The words that a connection says to the device, and the order of its statuses.

1. *Kinds* (`Reply.kind`): what a packet is for shows in its flags and its payload.
2. *Conversations* (`IsConversation`): nothing, or a RST alone, or a SYN with an ACK, then ACKs and
   data, then nothing, a RST, or a FIN that only ACKs follow.
3. *Course* (`Course.turn`): the status of a session tells how far its conversation has come, and
   every turn keeps it so.
4. *Runs* (`run_conversation`): whatever happens in whatever order, every connection holds a
   conversation, its status only moves forward, and it says nothing once it is closed.
-/

namespace FlowRelay.Tcp

open Packet

/-! ## Kinds -/

/-- What a packet to the device is for. -/
inductive Kind where
  | synAck
  | ack
  | data
  | fin
  | rst
  | other
  deriving DecidableEq, Repr

/-- What a packet is for.  Only data has a payload. -/
def Reply.kind (r : Reply) : Kind :=
  if r.payload ≠ [] then
    if r.flags = Flag.psh ||| Flag.ack then .data else .other
  else if r.flags = Flag.syn ||| Flag.ack then .synAck
  else if r.flags = Flag.ack then .ack
  else if r.flags = Flag.fin ||| Flag.ack then .fin
  else if r.flags = Flag.rst ||| Flag.ack then .rst
  else .other

namespace Session

variable {σ : Session}

theorem kind_data {data : List UInt8} (h : data ≠ []) :
    (σ.reply (Flag.psh ||| Flag.ack) data).kind = .data := by
  simp [reply, Reply.kind, h]

end Session

/-! ## Conversations -/

/-- Only ACKs and data. -/
def IsTalk (kinds : List Kind) : Prop := ∀ k ∈ kinds, k = .ack ∨ k = .data

/-- Acknowledgements and data go on with a talk. -/
theorem IsTalk.concat {kinds : List Kind} {k : Kind} (h : IsTalk kinds)
    (hk : k = .ack ∨ k = .data) : IsTalk (kinds ++ [k]) := by
  intro k' hk'
  cases List.mem_append.mp hk' with
  | inl hk' => exact h k' hk'
  | inr hk' => exact List.mem_singleton.mp hk' ▸ hk

/-- How a conversation may end: not yet, with a RST, or with a FIN that only ACKs follow. -/
def IsEnding (kinds : List Kind) : Prop :=
  kinds = [] ∨ kinds = [.rst] ∨ ∃ acks, kinds = .fin :: acks ∧ ∀ k ∈ acks, k = .ack

/-- What a connection may say to the device. -/
def IsConversation (kinds : List Kind) : Prop :=
  kinds = [] ∨ kinds = [.rst] ∨
    ∃ talk ending, kinds = .synAck :: talk ++ ending ∧ IsTalk talk ∧ IsEnding ending

/-- A talk is made of acknowledgements and data alone. -/
theorem IsTalk.notMem {kinds : List Kind} {k : Kind} (h : IsTalk kinds) (hack : k ≠ .ack)
    (hdata : k ≠ .data) : k ∉ kinds := by
  intro hk
  cases h k hk with
  | inl hk => exact hack hk
  | inr hk => exact hdata hk

/-- What is said after the handshake and is no talk comes later. -/
theorem IsTalk.notMem_cons {kinds : List Kind} {k : Kind} (h : IsTalk kinds) (hsyn : k ≠ .synAck)
    (hack : k ≠ .ack) (hdata : k ≠ .data) : k ∉ .synAck :: kinds :=
  List.not_mem_cons_of_ne_of_not_mem hsyn (h.notMem hack hdata)

namespace IsConversation

variable {kinds : List Kind}

/-- The handshake, the end and the RST come at most once. -/
theorem count_le_one (h : IsConversation kinds) :
    kinds.count .synAck ≤ 1 ∧ kinds.count .fin ≤ 1 ∧ kinds.count .rst ≤ 1 := by
  rcases h with rfl | rfl | ⟨talk, ending, rfl, htalk, hending⟩
  · decide
  · decide
  · have hacks {acks : List Kind} (hacks : ∀ k ∈ acks, k = .ack) {k : Kind} (hk : k ≠ .ack) :
        acks.count k = 0 := List.count_eq_zero.mpr fun hmem => hk (hacks k hmem)
    have htalks {k : Kind} (hack : k ≠ .ack) (hdata : k ≠ .data) : talk.count k = 0 :=
      List.count_eq_zero.mpr (htalk.notMem hack hdata)
    simp only [List.cons_append, List.count_cons, List.count_append,
      htalks (k := .synAck) nofun nofun, htalks (k := .fin) nofun nofun,
      htalks (k := .rst) nofun nofun]
    rcases hending with rfl | rfl | ⟨acks, rfl, hall⟩
    · decide
    · decide
    · simp only [List.count_cons, hacks hall (k := .synAck) nofun, hacks hall (k := .fin) nofun,
        hacks hall (k := .rst) nofun]
      decide

/-- A packet opens its conversation, or it comes behind the handshake. -/
theorem front_cases {front back : List Kind} {k : Kind} (h : IsConversation kinds)
    (hkinds : kinds = front ++ k :: back) :
    front = [] ∧ (k = .synAck ∨ k = .rst) ∨ front.count .synAck = 1 ∧ k ≠ .synAck := by
  rcases h with rfl | rfl | ⟨talk, ending, rfl, htalk, hending⟩
  · exact absurd hkinds.symm (List.append_ne_nil_of_right_ne_nil _ nofun)
  · cases front with
    | nil =>
        injection hkinds with hk
        exact .inl ⟨rfl, .inr hk.symm⟩
    | cons _ front =>
        injection hkinds with _ hrest
        exact absurd hrest.symm (List.append_ne_nil_of_right_ne_nil _ nofun)
  · have hnone : .synAck ∉ talk ++ ending := by
      refine List.not_mem_append (htalk.notMem nofun nofun) fun hmem => ?_
      rcases hending with rfl | rfl | ⟨acks, rfl, hacks⟩
      · contradiction
      · contradiction
      · cases hmem with
        | tail _ hmem => exact absurd (hacks _ hmem) nofun
    cases front with
    | nil =>
        injection hkinds with hk
        exact .inl ⟨rfl, .inl hk.symm⟩
    | cons _ front =>
        rw [List.cons_append, List.cons_append] at hkinds
        obtain ⟨hfirst, hrest⟩ := List.cons.inj hkinds
        rw [hrest] at hnone
        have hfront : front.count .synAck = 0 :=
          List.count_eq_zero.mpr fun hmem => hnone (List.mem_append_left _ hmem)
        refine .inr ⟨by rw [← hfirst, List.count_cons_self, hfront], ?_⟩
        rintro rfl
        exact hnone (List.mem_append_right _ List.mem_cons_self)

/-- Only ACKs follow a FIN. -/
theorem of_fin {front back : List Kind} (h : IsConversation kinds)
    (hkinds : kinds = front ++ .fin :: back) : .fin ∉ front ∧ ∀ k ∈ back, k = .ack := by
  have hmem : .fin ∈ kinds := by
    rw [hkinds]
    exact List.mem_append_right _ List.mem_cons_self
  rcases h with rfl | rfl | ⟨talk, ending, rfl, htalk, hending⟩
  · contradiction
  · contradiction
  · have hfin : .fin ∉ Kind.synAck :: talk := htalk.notMem_cons nofun nofun nofun
    rcases hending with rfl | rfl | ⟨acks, rfl, hacks⟩
    · rw [List.append_nil] at hmem
      contradiction
    · cases List.mem_append.mp hmem <;> contradiction
    · have hrest : .fin ∉ acks := fun hmem => absurd (hacks _ hmem) nofun
      obtain ⟨rfl, -, rfl⟩ := (List.append_cons_inj_of_notMem hfin hrest).mp hkinds
      exact ⟨hfin, hacks⟩

/-- What is no ACK follows no FIN. -/
theorem fin_notMem {front back : List Kind} {k : Kind} (h : IsConversation kinds)
    (hkinds : kinds = front ++ k :: back) (hk : k ≠ .ack) : .fin ∉ front := by
  intro hmem
  obtain ⟨start, rest, rfl⟩ := List.append_of_mem hmem
  rw [List.append_assoc, List.cons_append] at hkinds
  exact hk ((h.of_fin hkinds).2 k (List.mem_append_right _ List.mem_cons_self))

/-- Nothing follows a RST, and it follows no FIN. -/
theorem of_rst {front back : List Kind} (h : IsConversation kinds)
    (hkinds : kinds = front ++ .rst :: back) : back = [] ∧ .fin ∉ front := by
  refine ⟨?_, h.fin_notMem hkinds nofun⟩
  have hmem : .rst ∈ kinds := by
    rw [hkinds]
    exact List.mem_append_right _ List.mem_cons_self
  rcases h with rfl | rfl | ⟨talk, ending, rfl, htalk, hending⟩
  · contradiction
  · have hsplit : [] ++ Kind.rst :: [] = front ++ .rst :: back := hkinds
    obtain ⟨-, -, rfl⟩ :=
      (List.append_cons_inj_of_notMem List.not_mem_nil List.not_mem_nil).mp hsplit
    rfl
  · have hrst : .rst ∉ Kind.synAck :: talk := htalk.notMem_cons nofun nofun nofun
    rcases hending with rfl | rfl | ⟨acks, rfl, hacks⟩
    · rw [List.append_nil] at hmem
      contradiction
    · obtain ⟨-, -, rfl⟩ := (List.append_cons_inj_of_notMem hrst List.not_mem_nil).mp hkinds
      rfl
    · cases List.mem_append.mp hmem with
      | inl hmem => contradiction
      | inr hmem =>
          cases hmem with
          | tail _ hmem => exact absurd (hacks _ hmem) nofun

/-- Every packet has a purpose. -/
theorem ne_other (h : IsConversation kinds) : ∀ k ∈ kinds, k ≠ .other := by
  rintro _ hmem rfl
  rcases h with rfl | rfl | ⟨talk, ending, rfl, htalk, hending⟩
  · contradiction
  · contradiction
  · cases List.mem_append.mp hmem with
    | inl hmem => exact absurd hmem (htalk.notMem_cons nofun nofun nofun)
    | inr hmem =>
        rcases hending with rfl | rfl | ⟨acks, rfl, hacks⟩
        · contradiction
        · contradiction
        · cases hmem with
          | tail _ hmem => exact absurd (hacks _ hmem) nofun

end IsConversation

/-! ## Courses -/

/-- What a connection has said, by its status and whether it is closed. -/
inductive Spoken : Status → Bool → List Kind → Prop
  | silent {closed : Bool} : Spoken .synSent closed []
  | refused : Spoken .synSent true [.rst]
  | talking {status : Status} {closed : Bool} {talk : List Kind}
      (hstatus : status = .synReceived ∨ status = .established) (htalk : IsTalk talk) :
      Spoken status closed (.synAck :: talk)
  | aborted {status : Status} {talk : List Kind}
      (hstatus : status = .synReceived ∨ status = .established) (htalk : IsTalk talk) :
      Spoken status true (.synAck :: talk ++ [.rst])
  | finished {closed : Bool} {talk acks : List Kind} (htalk : IsTalk talk)
      (hacks : ∀ k ∈ acks, k = .ack) :
      Spoken .lastAck closed (.synAck :: talk ++ .fin :: acks)

namespace Spoken

variable {status : Status} {closed : Bool} {kinds : List Kind}

/-- What is spoken is a conversation, whatever the status. -/
theorem isConversation (h : Spoken status closed kinds) : IsConversation kinds := by
  cases h with
  | silent => exact .inl rfl
  | refused => exact .inr (.inl rfl)
  | talking hstatus htalk =>
      exact .inr (.inr ⟨_, [], (List.append_nil _).symm, htalk, .inl rfl⟩)
  | aborted hstatus htalk => exact .inr (.inr ⟨_, _, rfl, htalk, .inr (.inl rfl)⟩)
  | finished htalk hacks => exact .inr (.inr ⟨_, _, rfl, htalk, .inr (.inr ⟨_, rfl, hacks⟩)⟩)

/-- No connection is ever in `closeWait`. -/
theorem ne_closeWait (h : Spoken status closed kinds) : status ≠ .closeWait := by
  cases h with
  | silent => nofun
  | refused => nofun
  | talking hstatus _ => rcases hstatus with rfl | rfl <;> nofun
  | aborted hstatus _ => rcases hstatus with rfl | rfl <;> nofun
  | finished _ _ => nofun

/-- The FIN has been sent once the last acknowledgement is awaited, and not before. -/
theorem fin_mem_iff (h : Spoken status closed kinds) : .fin ∈ kinds ↔ status = .lastAck := by
  have hnone {talk : List Kind} (htalk : IsTalk talk) : .fin ∉ Kind.synAck :: talk :=
    htalk.notMem_cons nofun nofun nofun
  cases h with
  | silent => exact iff_of_false nofun nofun
  | refused => exact iff_of_false (by decide) nofun
  | talking hstatus htalk =>
      refine iff_of_false (hnone htalk) ?_
      rcases hstatus with rfl | rfl <;> nofun
  | aborted hstatus htalk =>
      refine iff_of_false (List.not_mem_append (hnone htalk) (by decide)) ?_
      rcases hstatus with rfl | rfl <;> nofun
  | finished _ _ =>
      exact iff_of_true (List.mem_append_right _ List.mem_cons_self) rfl

/-- An open connection that has said nothing waits for its connect, and no other does. -/
theorem eq_nil_iff (h : Spoken status false kinds) : kinds = [] ↔ status = .synSent := by
  cases h with
  | silent => exact iff_of_true rfl rfl
  | talking hstatus _ =>
      refine iff_of_false nofun ?_
      rcases hstatus with rfl | rfl <;> nofun
  | finished _ _ => exact iff_of_false nofun nofun

/-- The first packet of an open connection is the handshake. -/
theorem eq_synAck (h : Spoken status false kinds) {k : Kind} {rest : List Kind}
    (hkinds : kinds = k :: rest) : k = .synAck := by
  cases h with
  | silent => contradiction
  | talking _ _ => exact (List.cons.inj hkinds).1.symm
  | finished _ _ => exact (List.cons.inj hkinds).1.symm

/-- Closing says nothing. -/
theorem shut (h : Spoken status closed kinds) : Spoken status true kinds := by
  cases h with
  | silent => exact .silent
  | refused => exact .refused
  | talking hstatus htalk => exact .talking hstatus htalk
  | aborted hstatus htalk => exact .aborted hstatus htalk
  | finished htalk hacks => exact .finished htalk hacks

/-- The handshake is completed in silence. -/
theorem establish (h : Spoken .synReceived closed kinds) : Spoken .established closed kinds := by
  cases h with
  | talking _ htalk => exact .talking (.inr rfl) htalk
  | aborted _ htalk => exact .aborted (.inr rfl) htalk

theorem synAck (h : Spoken .synSent false kinds) :
    Spoken .synReceived false (kinds ++ [.synAck]) := by
  cases h with
  | silent => exact .talking (.inl rfl) nofun
  | talking hstatus _ => rcases hstatus with h | h <;> contradiction

/-- An acknowledgement is spoken behind the handshake. -/
theorem ack (h : Spoken status false kinds) (hstatus : status ≠ .synSent) :
    Spoken status false (kinds ++ [.ack]) := by
  cases h with
  | silent => contradiction
  | talking hstatus htalk => exact .talking hstatus (htalk.concat (.inl rfl))
  | finished htalk hacks =>
      rw [List.append_assoc]
      refine .finished htalk fun k hk => ?_
      cases List.mem_append.mp hk with
      | inl hk => exact hacks k hk
      | inr hk => exact List.mem_singleton.mp hk

/-- Data is spoken behind the handshake and in front of the FIN. -/
theorem data (h : Spoken status false kinds) (hstatus : status ≠ .synSent)
    (hlast : status ≠ .lastAck) : Spoken status false (kinds ++ [.data]) := by
  cases h with
  | silent => contradiction
  | talking hstatus htalk => exact .talking hstatus (htalk.concat (.inr rfl))
  | finished => contradiction

/-- The FIN is spoken once, behind the handshake. -/
theorem fin (h : Spoken status false kinds) (hstatus : status ≠ .synSent)
    (hlast : status ≠ .lastAck) : Spoken .lastAck false (kinds ++ [.fin]) := by
  cases h with
  | silent => contradiction
  | talking _ htalk => exact .finished htalk nofun
  | finished => contradiction

/-- A RST is spoken in front of a FIN, and it is the last word. -/
theorem rst (h : Spoken status false kinds) (hclosing : status.isClosing = false) :
    Spoken status true (kinds ++ [.rst]) := by
  cases h with
  | silent => exact .refused
  | talking hstatus htalk => exact .aborted hstatus htalk
  | finished => contradiction

end Spoken

/-- The status of a session tells how far its conversation has come.  In front of the handshake
nothing is read and nothing waits to be written. -/
structure Course (σ : Session) (replies : List Reply) : Prop where
  spoken : Spoken σ.status σ.closed (replies.map Reply.kind)
  reads : σ.status = .synSent → σ.reads = 0
  waiting : σ.status = .synSent → σ.waiting = []

namespace Course

variable {σ σ' : Session} {replies more : List Reply} {deed : Deed} {handed : List UInt8}

theorem born (initial theirs : UInt32) (closed : Bool) :
    Course (.born initial theirs closed) [] := ⟨.silent, fun _ => rfl, fun _ => rfl⟩

/-- A session that is read from is past the handshake. -/
theorem ne_synSent_of_reads (h : Course σ replies) (hread : 0 < σ.reads) :
    σ.status ≠ .synSent := fun hstatus => by
  have := h.reads hstatus
  omega

/-- A session for which segments wait is past the handshake. -/
theorem ne_synSent_of_waiting {g : Segment} {rest : List Segment} (h : Course σ replies)
    (hwaiting : σ.waiting = g :: rest) : σ.status ≠ .synSent := fun hstatus => by
  rw [h.waiting hstatus] at hwaiting
  contradiction

/-- A reset says what a reset may say, and nothing else afterwards. -/
theorem reset (h : Course σ replies) (hopen : σ.closed = false) (hreset : σ.Resets more) :
    Spoken σ.status true ((replies ++ more).map Reply.kind) := by
  have hspoken := h.spoken
  rw [hopen] at hspoken
  cases hreset with
  | inl hnone =>
      rw [hnone, List.append_nil]
      exact hspoken.shut
  | inr hrst =>
      rw [hrst.2, List.map_append]
      exact hspoken.rst hrst.1

/-- Taking notice of an ACK says nothing. -/
theorem heed (h : Course σ replies) (tcp : Packet.Tcp) : Course (σ.heed tcp) replies := by
  unfold Session.heed
  by_cases hack : σ.status = .synReceived ∧ tcp.isAck
  · rw [if_pos hack]
    refine ⟨?_, nofun, nofun⟩
    have hspoken := h.spoken
    rw [hack.1] at hspoken
    exact hspoken.establish
  · rw [if_neg hack]
    exact ⟨h.spoken, h.reads, h.waiting⟩

/-- A session that stays in its status in silence stays on its course. -/
theorem keep (h : Course σ replies) (hstatus : σ'.status = σ.status)
    (hclosed : σ'.closed = σ.closed ∨ σ'.closed = true) (hreads : σ'.reads ≤ σ.reads)
    (hwaiting : σ.waiting = [] → σ'.waiting = []) : Course σ' (replies ++ []) := by
  rw [List.append_nil]
  refine ⟨?_, fun hsent => ?_, fun hsent => ?_⟩
  · cases hclosed with
    | inl hsame =>
        rw [hstatus, hsame]
        exact h.spoken
    | inr hclosed =>
        rw [hstatus, hclosed]
        exact h.spoken.shut
  · have := h.reads (hstatus ▸ hsent)
    omega
  · exact hwaiting (h.waiting (hstatus ▸ hsent))

/-- Past the handshake only what was said matters. -/
theorem past (hspoken : Spoken σ'.status σ'.closed (replies.map Reply.kind ++ more.map Reply.kind))
    (hstatus : σ'.status ≠ .synSent) : Course σ' (replies ++ more) :=
  ⟨by rwa [List.map_append], fun h => absurd h hstatus, fun h => absurd h hstatus⟩

/-- **Course**: every turn keeps to the course. -/
theorem turn (h : Course σ replies) (hturn : Turn σ deed more handed σ') :
    Course σ' (replies ++ more) := by
  have hspoken (hopen : σ.closed = false) :
      Spoken σ.status false (replies.map Reply.kind) := hopen ▸ h.spoken
  cases hturn with
  | elsewhere => exact h.keep rfl (.inl rfl) (Nat.le_refl _) id
  | evicted => exact h.keep rfl (.inr rfl) (Nat.le_refl _) id
  | abandoned _ hreads _ => exact h.keep rfl (.inl rfl) hreads id
  | aborted _ _ => exact h.keep rfl (.inr rfl) (Nat.le_refl _) id
  | repeated _ _ _ _ => exact h.keep rfl (.inl rfl) (Nat.le_refl _) id
  | ignored _ _ _ _ _ => exact h.keep rfl (.inl rfl) (Nat.le_refl _) id
  | @noted tcp _ _ _ _ _ _ _ => exact (h.heed tcp).keep rfl (.inl rfl) (Nat.le_refl _) id
  | @queued tcp _ _ _ _ _ hsent _ =>
      refine past ?_ fun hstatus => hsent (Session.eq_synSent_of_heed hstatus)
      rw [List.map_nil, List.append_nil]
      exact (h.heed tcp).spoken
  | @refused tcp _ _ hopen _ _ _ hreset =>
      have hclosing := σ.isClosing_heed tcp
      have hheed : (σ.heed tcp).Resets more := by
        rw [Session.Resets, hclosing]
        exact hreset
      refine ⟨(h.heed tcp).reset hopen hheed, fun hsent => ?_, fun hsent => ?_⟩
      · exact h.reads (Session.eq_synSent_of_heed hsent)
      · exact h.waiting (Session.eq_synSent_of_heed hsent)
  | connectLate _ => exact h.keep rfl (.inl rfl) (Nat.le_refl _) id
  | connectFailed hopen _ hreset =>
      have hzero : Course { σ with sequence := 0 } replies := ⟨h.spoken, h.reads, h.waiting⟩
      exact ⟨hzero.reset hopen hreset, h.reads, h.waiting⟩
  | connectMute _ _ => exact h.keep rfl (.inr rfl) (Nat.le_refl _) id
  | connected hopen hstatus =>
      refine past ?_ (by simp)
      have hsilent := hspoken hopen
      rw [hstatus] at hsilent
      simp only [hopen]
      exact hsilent.synAck
  | readLate _ _ => exact h.keep rfl (.inl rfl) (Nat.sub_le _ 1) id
  | readFailed hread hopen _ hreset =>
      exact ⟨h.reset hopen hreset, fun hs => absurd hs (h.ne_synSent_of_reads hread),
        fun hs => absurd hs (h.ne_synSent_of_reads hread)⟩
  | readMute _ _ _ => exact h.keep rfl (.inr rfl) (Nat.sub_le _ 1) id
  | ended hread hopen hlast =>
      refine past ?_ (by simp)
      simp only [hopen]
      exact (hspoken hopen).fin (h.ne_synSent_of_reads hread) hlast
  | read hread hopen hlast hdata =>
      refine past ?_ (h.ne_synSent_of_reads hread)
      simp only [hopen, List.map_cons, Session.kind_data hdata]
      exact (hspoken hopen).data (h.ne_synSent_of_reads hread) hlast
  | tookNothing _ => exact h.keep rfl (.inl rfl) (Nat.le_refl _) id
  | took _ _ => exact h.keep rfl (.inl rfl) (Nat.le_refl _) id
  | wroteNothing _ => exact h.keep rfl (.inl rfl) (Nat.le_refl _) id
  | wroteLate _ hwaiting _ _ =>
      exact h.keep rfl (.inl rfl) (Nat.le_refl _) fun hnone => by simp [hnone] at hwaiting
  | writeFailed _ hwaiting _ hreset =>
      have hsent := h.ne_synSent_of_waiting hwaiting
      rcases hreset with rfl | ⟨hopen, hreset⟩
      · exact h.keep rfl (.inr rfl) (Nat.le_refl _) fun hnone => by simp [hnone] at hwaiting
      · exact ⟨h.reset hopen hreset, fun hs => absurd hs hsent, fun hs => absurd hs hsent⟩
  | wroteMute _ hwaiting _ _ _ =>
      exact h.keep rfl (.inr rfl) (Nat.le_refl _) fun hnone => by simp [hnone] at hwaiting
  | acknowledged _ hwaiting _ hopen _ _ =>
      have hsent := h.ne_synSent_of_waiting hwaiting
      refine past ?_ hsent
      have hack := (hspoken hopen).ack hsent
      rw [← hopen] at hack
      exact hack
  | answered _ hwaiting _ hopen _ hlast =>
      refine past ?_ (by simp)
      have hfin := (hspoken hopen).fin (h.ne_synSent_of_waiting hwaiting) hlast
      rw [← hopen] at hfin
      exact hfin
  | completed _ hwaiting _ hopen _ _ =>
      have hsent := h.ne_synSent_of_waiting hwaiting
      exact past ((hspoken hopen).ack hsent).shut hsent
  | passed _ hwaiting hopen _ _ =>
      refine h.keep rfl ?_ (Nat.le_refl _) fun hnone => by simp [hnone] at hwaiting
      rw [hopen]
      exact (Bool.eq_false_or_eq_true _).symm

end Course

/-! ## Runs -/

/-- The place of a status in the order in which a connection may pass through them. -/
def Status.rank (status : Status) : Nat := Status.all.idxOf status

theorem Status.rank_le_lastAck (status : Status) : status.rank ≤ Status.lastAck.rank := by
  cases status <;> decide

/-- A segment that is heeded never takes the status back. -/
theorem Session.rank_le_heed (σ : Session) (tcp : Packet.Tcp) :
    σ.status.rank ≤ (σ.heed tcp).status.rank := by
  simp only [heed]
  split
  · next h =>
      rw [h.1]
      decide
  · exact Nat.le_refl _

namespace Turn

variable {σ σ' : Session} {deed : Deed} {more : List Reply} {handed : List UInt8}

/-- No status is ever left for an earlier one. -/
theorem rank_le (h : Turn σ deed more handed σ') : σ.status.rank ≤ σ'.status.rank := by
  cases h with
  | noted | queued | refused => exact σ.rank_le_heed _
  | connected _ hstatus =>
      have hnext : Status.synSent.rank ≤ Status.synReceived.rank := by decide
      rwa [← hstatus] at hnext
  | ended | answered => exact σ.status.rank_le_lastAck
  | _ => exact Nat.le_refl _

/-- What is closed stays closed, and says nothing. -/
theorem of_closed (h : Turn σ deed more handed σ') (hclosed : σ.closed = true) :
    σ'.closed = true ∧ more = [] := by
  cases h with
  | elsewhere | abandoned | connectLate | readLate | tookNothing | took | wroteNothing |
    wroteLate => exact ⟨hclosed, rfl⟩
  | evicted => exact ⟨rfl, rfl⟩
  | writeFailed _ _ _ hreset =>
      cases hreset with
      | inl hnone => exact ⟨rfl, hnone⟩
      | inr hreset => simp [hreset.1] at hclosed
  | _ => simp_all

end Turn

namespace Engine

variable {e : Engine} {id : Nat} {σ : Session} {replies : List Reply} {handed : List UInt8}

/-- A connection goes on from where it stands for a whole run. -/
theorem Stands.run (h : e.Stands id σ replies handed) (steps : List (Surroundings × Event)) :
    ∃ σ' replies' handed', (e.run steps).Stands id σ' replies' handed' ∧
      σ.status.rank ≤ σ'.status.rank ∧
      (σ.closed = true → σ'.closed = true ∧ replies' = replies) := by
  refine h.run_induction (motive := fun _ σ' replies' _ => σ.status.rank ≤ σ'.status.rank ∧
      (σ.closed = true → σ'.closed = true ∧ replies' = replies))
    ⟨Nat.le_refl _, fun hclosed => ⟨hclosed, rfl⟩⟩ ?_ steps
  intro steps s event σ' replies' handed' more data σ'' _ hturn hsofar
  refine ⟨Nat.le_trans hsofar.1 hturn.rank_le, fun hclosed => ?_⟩
  obtain ⟨hclosed', hreplies⟩ := hsofar.2 hclosed
  obtain ⟨hclosed'', rfl⟩ := hturn.of_closed hclosed'
  exact ⟨hclosed'', by rw [hreplies, List.append_nil]⟩

/-- A connection that was opened keeps to its course. -/
theorem Opens.course {config : Config} {inspecting : Bool} {before : List (Surroundings × Event)}
    {s : Surroundings} {initial : UInt32} {d : Datagram}
    (h : ((empty config inspecting).run before).Opens s initial d id)
    (after : List (Surroundings × Event)) :
    ∃ σ replies handed, ((((empty config inspecting).run before).step s
      (.segment initial d)).run after).Stands id σ replies handed ∧ Course σ replies := by
  obtain ⟨tcp, closed, -, hborn⟩ := h.stands
  exact hborn.run_induction (motive := fun _ σ replies _ => Course σ replies)
    (.born initial tcp.sequence closed) (fun _ hturn hcourse => hcourse.turn hturn) after

/-- **Conversations**: whatever happens in whatever order, every connection holds a conversation
with the device.  Its status only moves forward and is never that of a half closed connection, and
what is closed stays closed and says nothing more. -/
theorem run_conversation (config : Config) (inspecting : Bool)
    (before after : List (Surroundings × Event)) (id : Nat) :
    let e := (empty config inspecting).run before
    let e' := e.run after
    ∃ kinds, (e.sent id).map (Option.map Reply.kind) = kinds.map some ∧
      IsConversation kinds ∧
      (kinds.count .synAck ≤ 1 ∧ kinds.count .fin ≤ 1 ∧ kinds.count .rst ≤ 1) ∧
      (∀ front back, kinds = front ++ .rst :: back → back = [] ∧ .fin ∉ front) ∧
      ∀ c, e.store.connection? id = some c → c.status ≠ .closeWait ∧
        ∃ c', e'.store.connection? id = some c' ∧ c.status.rank ≤ c'.status.rank ∧
          (c.closed = true → c'.closed = true ∧ e'.sent id = e.sent id) := by
  intro e e'
  by_cases hsome : e.store.connection? id = none
  · have hsent : e.sent id = [] :=
      congrArg View.sent (view_of_none config inspecting before hsome)
    refine ⟨[], by rw [hsent]; rfl, .inl rfl, by decide, fun front back hkinds => ?_, ?_⟩
    · exact absurd hkinds.symm (List.append_ne_nil_of_right_ne_nil _ nofun)
    · intro c hc
      exact absurd (hsome.symm.trans hc) nofun
  · obtain ⟨first, s, initial, d, rest, hbefore, hopens⟩ :=
      exists_opens config inspecting before hsome
    obtain ⟨σ, replies, handed, hstands, hcourse⟩ := hopens.course rest
    have he : e = (((empty config inspecting).run first).step s (.segment initial d)).run rest := by
      simp only [e, hbefore, run_append]
      rfl
    rw [← he] at hstands
    have hconversation := hcourse.spoken.isConversation
    refine ⟨replies.map Reply.kind, ?_, hconversation, hconversation.count_le_one,
      fun front back hkinds => hconversation.of_rst hkinds, fun c hc => ?_⟩
    · rw [hstands.sent_eq, List.map_map, List.map_map]
      rfl
    · obtain ⟨σ', replies', handed', hafter, hrank, hsilent⟩ := hstands.run after
      have hsent := hstands.sent_eq
      have hsent' := hafter.sent_eq
      obtain ⟨c₀, reads, writes, hview, rfl⟩ := hstands
      have hc₀ : c₀ = c := Option.some.inj ((congrArg View.connection hview).symm.trans hc)
      subst hc₀
      obtain ⟨c', reads', writes', hview', rfl⟩ := hafter
      refine ⟨hcourse.spoken.ne_closeWait, c', congrArg View.connection hview', hrank,
        fun hclosed => ?_⟩
      obtain ⟨hclosed', rfl⟩ := hsilent hclosed
      exact ⟨hclosed', hsent'.trans hsent.symm⟩

end Engine

end FlowRelay.Tcp
