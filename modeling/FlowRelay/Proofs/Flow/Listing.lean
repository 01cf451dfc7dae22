import FlowRelay.Proofs.Flow.Store
import FlowRelay.Proofs.Table.Entries

/-!
# FlowRelay.Proofs.Flow.Listing

The table of a store lists exactly the connections that are open.

1. *Laws* (`LawfulTracked`): closing a connection closes it for good and leaves it to its flow.
2. *Lists* (`Lists`): what leaves a list of the open connections is closed, and the rest is listed.
3. *Accuracy* (`Accurate`): every operation that the engines use keeps the table a list of the open
   connections.
4. *Books* (`OpenListed`): what an accurate table tells about the connections.  Each is found under
   its key exactly while it is open, there is at most one of each flow, and no more are open than
   the table has room for.
5. *Departures* (`Gone`): a connection that has left an accurate table is closed, and stays so.
-/

namespace FlowRelay.Flow

/-- Closing a connection closes it for good and leaves it to its flow. -/
class LawfulTracked (γ : Type) [Tracked γ] : Prop where
  key_close (c : γ) : Tracked.key (Tracked.close c) = Tracked.key c
  isClosed_close (c : γ) : Tracked.isClosed (Tracked.close c) = true
  close_close (c : γ) : Tracked.close (Tracked.close c) = Tracked.close c

namespace Store

variable {γ : Type} [Tracked γ] {s : Store γ} {key : Key} {id id' : Nat} {c c' : γ}

/-! ## Lists of open connections -/

/-- The entries are those of the open connections. -/
def Lists (s : Store γ) (entries : Multiset (Key × Nat)) : Prop :=
  ∀ key id, (key, id) ∈ entries ↔
    ∃ c, s.connection? id = some c ∧ Tracked.key c = key ∧ Tracked.isClosed c = false

/-- Closing connections leaves the table as it is. -/
theorem table_closeAllOf (s : Store γ) (ids : List Nat) : (s.closeAllOf ids).table = s.table := by
  induction ids generalizing s with
  | nil => rfl
  | cons id rest ih => exact ih (s.update id Tracked.close)

/-! ## The room in the table -/

omit [Tracked γ] in
theorem capacity_find? (s : Store γ) (key : Key) :
    (s.find? key).1.table.capacity = s.table.capacity := s.table.capacity_get? key

theorem capacity_terminate (s : Store γ) (id : Nat) :
    (s.terminate id).table.capacity = s.table.capacity := by
  unfold terminate
  split
  · rfl
  · exact s.table.capacity_removeIf _ _

theorem capacity_openNew (s : Store γ) (now : Instant) (idle : Nat) (c : γ) :
    (s.openNew now idle c).1.table.capacity = s.table.capacity := by
  simp only [openNew, put]
  split
  · rfl
  · rw [table_closeAllOf]
    exact s.table.capacity_put _ _ _

theorem capacity_closeAll (s : Store γ) : s.closeAll.1.table.capacity = s.table.capacity := by
  simp only [closeAll, table_closeAllOf]
  rfl

/-! ## What comes and what leaves -/

/-- A connection that comes is listed under its key. -/
theorem Lists.add {entries : Multiset (Key × Nat)} (h : s.Lists entries)
    (hopen : Tracked.isClosed c = false) :
    (s.add c).1.Lists ((Tracked.key c, (s.add c).2) ::ₘ entries) := by
  intro key id
  have hadd : (s.add c).1.connection? id =
      if id = s.connections.length then some c else s.connection? id := by
    simp only [Store.add, connection?]
    by_cases hlt : id < s.connections.length
    · rw [List.getElem?_append_left hlt, if_neg (by omega)]
    · rw [List.getElem?_append_right (by omega)]
      by_cases hid : id = s.connections.length
      · simp [hid]
      · rw [if_neg hid, List.getElem?_eq_none_iff.mpr (by simp; omega),
          List.getElem?_eq_none_iff.mpr (by omega)]
  have hnew : (key, s.connections.length) ∉ entries := by
    intro hmem
    obtain ⟨c', hc', -⟩ := (h key _).mp hmem
    exact absurd (List.getElem?_eq_some_iff.mp hc').1 (Nat.lt_irrefl _)
  rw [Multiset.mem_cons, hadd, Prod.mk.injEq]
  by_cases hid : id = s.connections.length
  · subst hid
    rw [if_pos rfl]
    constructor
    · rintro (⟨rfl, -⟩ | hmem)
      · exact ⟨c, rfl, rfl, hopen⟩
      · exact absurd hmem hnew
    · rintro ⟨c', hc', rfl, -⟩
      cases hc'
      exact .inl ⟨rfl, rfl⟩
  · rw [if_neg hid, ← h key id]
    constructor
    · rintro (⟨-, hsame⟩ | hmem)
      · exact absurd hsame hid
      · exact hmem
    · exact .inr

variable [LawfulTracked γ]

/-- What leaves a list is closed, and the rest is listed. -/
theorem Lists.closeAllOf {kept : Multiset (Key × Nat)} {left : List (Key × Nat)}
    (h : s.Lists (kept + left)) (hnodup : (kept + (left : Multiset (Key × Nat))).Nodup)
    (table : Table Key Nat) : ({ s with table }.closeAllOf (left.map Prod.snd)).Lists kept := by
  intro key id
  rw [connection?_closeAllOf LawfulTracked.close_close]
  have hsame : { s with table }.connection? id = s.connection? id := rfl
  rw [hsame]
  by_cases hid : id ∈ left.map Prod.snd
  · rw [if_pos hid]
    constructor
    · intro hkept
      -- Its connection has one key, so its entry would be in both parts.
      obtain ⟨⟨key', _⟩, hleft, rfl⟩ := List.mem_map.mp hid
      obtain ⟨c, hc, hkey, -⟩ := (h key _).mp (Multiset.mem_add.mpr (.inl hkept))
      obtain ⟨c', hc', hkey', -⟩ := (h key' _).mp (Multiset.mem_add.mpr (.inr hleft))
      rw [hc] at hc'
      cases hc'
      rw [hkey] at hkey'
      have hapart := Multiset.disjoint_left.mp (Multiset.nodup_add.mp hnodup).2.2 hkept
      exact absurd (hkey' ▸ hleft) hapart
    · rintro ⟨c, hc, -, hopen⟩
      obtain ⟨c', -, rfl⟩ := Option.map_eq_some_iff.mp hc
      rw [LawfulTracked.isClosed_close] at hopen
      contradiction
  · rw [if_neg hid, ← h key id, Multiset.mem_add]
    constructor
    · exact .inl
    · rintro (hkept | hleft)
      · exact hkept
      · exact absurd (List.mem_map_of_mem (Multiset.mem_coe.mp hleft)) hid

/-! ## Accurate tables -/

/-- The table lists exactly the open connections. -/
structure Accurate (s : Store γ) : Prop where
  sound : s.table.Sound
  lists : s.Lists s.table.entries

namespace Accurate

omit [LawfulTracked γ] in
theorem empty (capacity : Nat) : (Store.empty capacity : Store γ).Accurate where
  sound := .empty capacity
  lists key id := by simp [Store.empty, Table.empty, connection?]

omit [LawfulTracked γ] in
/-- A connection is found under a key exactly if it is open and of that flow. -/
theorem peek?_iff (h : s.Accurate) : s.table.peek? key = some id ↔
    ∃ c, s.connection? id = some c ∧ Tracked.key c = key ∧ Tracked.isClosed c = false :=
  ⟨fun hpeek => (h.lists key id).mp (Table.mem_of_peek? hpeek),
    fun hopen => Table.peek?_of_mem h.sound.nodup ((h.lists key id).mpr hopen)⟩

omit [LawfulTracked γ] in
/-- No entry is listed twice. -/
theorem nodup (h : s.Accurate) : (s.table.entries : Multiset (Key × Nat)).Nodup :=
  Multiset.coe_nodup.mpr h.sound.nodup.of_map

/-- What leaves the table is closed. -/
theorem closeAllOf {entries : Multiset (Key × Nat)} {left : List (Key × Nat)}
    {table : Table Key Nat} (h : s.Lists entries) (hnodup : entries.Nodup) (hsound : table.Sound)
    (hsplit : (table.entries : Multiset (Key × Nat)) + left = entries) :
    ({ s with table }.closeAllOf (left.map Prod.snd)).Accurate := by
  subst hsplit
  have hlists := h.closeAllOf hnodup table
  refine ⟨?_, ?_⟩
  · rw [table_closeAllOf]
    exact hsound
  · rw [table_closeAllOf]
    exact hlists

omit [LawfulTracked γ] in
/-- A change that leaves a connection to its flow, and open or closed as it is. -/
theorem update (h : s.Accurate) (id : Nat) {f : γ → γ} (hf : ∀ c, s.connection? id = some c →
      Tracked.key (f c) = Tracked.key c ∧ Tracked.isClosed (f c) = Tracked.isClosed c) :
    (s.update id f).Accurate := by
  refine ⟨h.sound, fun key i => ?_⟩
  refine (h.lists key i).trans ?_
  by_cases hid : id = i
  · subst hid
    rw [connection?_update_self]
    cases hc : s.connection? id with
    | none => simp
    | some c => simp [hf c hc]
  · rw [connection?_update_of_ne hid]

omit [LawfulTracked γ] in
/-- Looking a flow up keeps the table accurate. -/
theorem find? (h : s.Accurate) (key : Key) : (s.find? key).1.Accurate := by
  refine ⟨h.sound.get? key, fun key' id => ?_⟩
  have hentries := Table.coe_entries_get? h.sound.nodup key
  rw [show (s.find? key).1.table.entries = (s.table.get? key).1.entries from rfl, hentries]
  exact h.lists key' id

/-- Terminating a connection keeps the table accurate. -/
theorem terminate (h : s.Accurate) (id : Nat) : (s.terminate id).Accurate := by
  unfold Store.terminate
  cases hc : s.connection? id with
  | none => exact h
  | some c =>
      have hsound := h.sound.removeIf (Tracked.key c) (· = id)
      have hsplit := Table.coe_entries_removeIf h.sound.nodup (Tracked.key c) (· = id)
      by_cases hpeek : s.table.peek? (Tracked.key c) = some id
      · have hremoved : (s.table.removeIf (Tracked.key c) (· = id)).2 = some id := by
          simp [Table.removeIf, hpeek, Table.remove]
        rw [hremoved] at hsplit
        exact closeAllOf h.lists h.nodup hsound hsplit
      · have hclosed : Tracked.isClosed c = true := by
          by_contra hopen
          exact hpeek (h.peek?_iff.mpr ⟨c, hc, rfl, by simpa using hopen⟩)
        have hkept : (s.table.removeIf (Tracked.key c) (· = id)).1 = s.table := by
          rw [Table.removeIf_of_unwanted]
          intro i hi
          exact decide_eq_false fun hid => hpeek (hi.trans (congrArg some hid))
        have hsame := h.update id (f := Tracked.close) fun c' hc' => by
          cases hc.symm.trans hc'
          exact ⟨LawfulTracked.key_close c, (LawfulTracked.isClosed_close c).trans hclosed.symm⟩
        change ({ s.update id Tracked.close with
          table := (s.table.removeIf (Tracked.key c) (· = id)).1 } : Store γ).Accurate
        rw [hkept]
        exact hsame

/-- A new open connection keeps the table accurate. -/
theorem openNew (h : s.Accurate) (now : Instant) (idle : Nat) (hopen : Tracked.isClosed c = false) :
    (s.openNew now idle c).1.Accurate := by
  have hlists := h.lists.add hopen
  have hnew : (s.add c).1.connection? (s.add c).2 = some c := by
    simp [Store.add, connection?]
  have hfresh : (Tracked.key c, (s.add c).2) ∉ (s.table.entries : Multiset (Key × Nat)) := by
    intro hmem
    obtain ⟨c', hc', -⟩ := (h.lists _ _).mp hmem
    exact absurd (List.getElem?_eq_some_iff.mp hc').1 (Nat.lt_irrefl _)
  simp only [Store.openNew, put, hnew]
  exact closeAllOf hlists (Multiset.nodup_cons.mpr ⟨hfresh, h.nodup⟩) (h.sound.put _ _ _)
    (Table.coe_entries_put h.sound.nodup _ _ _)

/-- A connection that comes stays, unless it might go early at once. -/
theorem connection?_openNew (h : s.Accurate) {now : Instant} {idle : Nat}
    (hopen : Tracked.isClosed c = false) (hearly : Tracked.mayGoEarly c now idle = false) :
    (s.openNew now idle c).1.connection? (s.openNew now idle c).2 = some c := by
  refine (Store.connection?_openNew LawfulTracked.close_close s now idle c).resolve_right ?_
  intro hclosed
  have hnew : (s.add c).1.connection? (s.add c).2 = some c := by
    simp [Store.add, connection?]
  have hmem : (Tracked.key c, (s.openNew now idle c).2) ∈
      (s.openNew now idle c).1.table.entries := by
    simp only [Store.openNew, put, hnew, table_closeAllOf]
    refine Table.mem_put h.sound ?_ _
    rw [mayGoEarly, hnew]
    exact hearly
  obtain ⟨c', hc', -, hopen'⟩ :=
    ((h.openNew now idle hopen).lists _ _).mp (Multiset.mem_coe.mpr hmem)
  rw [hclosed] at hc'
  cases hc'
  rw [LawfulTracked.isClosed_close] at hopen'
  contradiction

/-- Closing everything keeps the table accurate. -/
theorem closeAll (h : s.Accurate) : s.closeAll.1.Accurate :=
  closeAllOf h.lists h.nodup h.sound.clear (Multiset.zero_add _)

/-! ## What an accurate table tells -/

omit [LawfulTracked γ] in
/-- There is at most one open connection of a flow. -/
theorem eq_of_key (h : s.Accurate) (hc : s.connection? id = some c)
    (hc' : s.connection? id' = some c') (hkey : Tracked.key c = Tracked.key c')
    (hopen : Tracked.isClosed c = false) (hopen' : Tracked.isClosed c' = false) : id = id' := by
  have hpeek := h.peek?_iff.mpr ⟨c, hc, rfl, hopen⟩
  have hpeek' := h.peek?_iff.mpr ⟨c', hc', hkey.symm, hopen'⟩
  exact Option.some.inj (hpeek.symm.trans hpeek')

omit [LawfulTracked γ] in
/-- There are no more open connections than the table has room for. -/
theorem countP_open_le (h : s.Accurate) :
    s.connections.countP (!Tracked.isClosed ·) ≤ s.table.capacity := by
  have hcount : s.connections.countP (!Tracked.isClosed ·) =
      ((s.connections.zipIdx.filter fun x => !Tracked.isClosed x.1).map Prod.snd).length := by
    conv_lhs => rw [← List.zipIdx_map_fst 0 s.connections]
    rw [List.countP_map, List.length_map, List.countP_eq_length_filter]
    rfl
  have hnodup : ((s.connections.zipIdx.filter fun x => !Tracked.isClosed x.1).map
      Prod.snd).Nodup := by
    refine List.Nodup.sublist (List.filter_sublist.map Prod.snd) ?_
    rw [List.zipIdx_map_snd]
    exact List.nodup_range'
  have hlisted : ((s.connections.zipIdx.filter fun x => !Tracked.isClosed x.1).map Prod.snd) ⊆
      s.table.entries.map Prod.snd := by
    intro i hi
    obtain ⟨⟨c, i⟩, hmem, rfl⟩ := List.mem_map.mp hi
    obtain ⟨hmem, hopen⟩ := List.mem_filter.mp hmem
    have hc : s.connection? i = some c := List.mem_zipIdx_iff_getElem?.mp hmem
    have hentry := (h.lists (Tracked.key c) i).mpr ⟨c, hc, rfl, by simpa using hopen⟩
    exact List.mem_map_of_mem (Multiset.mem_coe.mp hentry)
  rw [hcount]
  exact (hnodup.subperm hlisted).length_le.trans ((List.length_map _).trans_le h.sound.bounded)

end Accurate

/-- What there is to know about the open connections of a store with room for so many. -/
structure OpenListed (s : Store γ) (room : Nat) : Prop where
  /-- Whatever came is found under its own key exactly while it is open. -/
  found_iff : ∀ id c, s.connection? id = some c →
    (s.table.peek? (Tracked.key c) = some id ↔ Tracked.isClosed c = false)
  /-- What is found under a key is an open connection of that flow. -/
  open_of_found : ∀ key id, s.table.peek? key = some id →
    ∃ c, s.connection? id = some c ∧ Tracked.key c = key ∧ Tracked.isClosed c = false
  unique : ∀ id id' c c', s.connection? id = some c → s.connection? id' = some c' →
    Tracked.isClosed c = false → Tracked.isClosed c' = false → Tracked.key c = Tracked.key c' →
    id = id'
  bounded : s.connections.countP (!Tracked.isClosed ·) ≤ room

omit [LawfulTracked γ] in
/-- An accurate table lists exactly the open connections. -/
theorem Accurate.openListed (h : s.Accurate) : s.OpenListed s.table.capacity where
  found_iff id c hc := by
    rw [h.peek?_iff]
    constructor
    · rintro ⟨c', hc', -, hopen⟩
      rw [hc] at hc'
      cases hc'
      exact hopen
    · exact fun hopen => ⟨c, hc, rfl, hopen⟩
  open_of_found key id := h.peek?_iff.mp
  unique id id' c c' hc hc' hopen hopen' hkey := h.eq_of_key hc hc' hkey hopen hopen'
  bounded := h.countP_open_le

/-! ## Connections that have left -/

omit [LawfulTracked γ] in
theorem isClosed_iff : s.isClosed id = true ↔
    ∃ c, s.connection? id = some c ∧ Tracked.isClosed c = true := by
  unfold isClosed
  cases s.connection? id <;> simp

/-- A connection has come, and is in the table under no key. -/
structure Gone (s : Store γ) (id : Nat) : Prop where
  came : id < s.connections.length
  notListed : ∀ key, s.table.peek? key ≠ some id

omit [LawfulTracked γ] in
/-- What has left an accurate table is what is closed. -/
theorem Accurate.gone_iff (h : s.Accurate) : s.Gone id ↔ s.isClosed id = true := by
  rw [isClosed_iff]
  constructor
  · rintro ⟨hcame, hlisted⟩
    have hc : s.connection? id = some s.connections[id] := List.getElem?_eq_getElem hcame
    refine ⟨_, hc, ?_⟩
    by_contra hopen
    exact hlisted _ (h.peek?_iff.mpr ⟨_, hc, rfl, by simpa using hopen⟩)
  · rintro ⟨c, hc, hclosed⟩
    refine ⟨(List.getElem?_eq_some_iff.mp hc).1, fun key hpeek => ?_⟩
    obtain ⟨c', hc', -, hopen⟩ := h.peek?_iff.mp hpeek
    rw [hc] at hc'
    cases hc'
    exact absurd (hclosed.symm.trans hopen) nofun

omit [LawfulTracked γ] in
/-- What an accurate table lists is open. -/
theorem Accurate.isClosed_of_peek? (h : s.Accurate) (hpeek : s.table.peek? key = some id) :
    s.isClosed id = false := by
  obtain ⟨c, hc, -, hopen⟩ := h.peek?_iff.mp hpeek
  rw [isClosed, hc]
  exact hopen

omit [LawfulTracked γ] in
/-- Taking out what has left already leaves the table as it is. -/
theorem Gone.table_terminate (h : s.Gone id) : (s.terminate id).table = s.table := by
  unfold terminate
  split
  · rfl
  · next c _ =>
      have hkept : (s.table.removeIf (Tracked.key c) (· = id)).1 = s.table := by
        rw [Table.removeIf_of_unwanted]
        intro i hi
        exact decide_eq_false fun hid => h.notListed _ (hi.trans (congrArg some hid))
      exact hkept

section

variable (h : s.isClosed id = true)

include h

omit [LawfulTracked γ] in
/-- Changes that open nothing leave closed what is closed. -/
theorem isClosed_update {f : γ → γ}
    (hf : ∀ c, Tracked.isClosed c = true → Tracked.isClosed (f c) = true) (i : Nat) :
    (s.update i f).isClosed id = true := by
  obtain ⟨c, hc, hclosed⟩ := isClosed_iff.mp h
  by_cases hi : i = id
  · subst hi
    exact isClosed_iff.mpr ⟨f c, by rw [connection?_update_self, hc]; rfl, hf c hclosed⟩
  · exact isClosed_iff.mpr ⟨c, (connection?_update_of_ne hi f).trans hc, hclosed⟩

/-- Terminating a connection leaves closed what is closed. -/
theorem isClosed_terminate (i : Nat) : (s.terminate i).isClosed id = true := by
  unfold terminate
  split
  · exact h
  · exact isClosed_update h (fun c _ => LawfulTracked.isClosed_close c) i

/-- Closing connections leaves closed what is closed. -/
theorem isClosed_closeAllOf (ids : List Nat) : (s.closeAllOf ids).isClosed id = true := by
  induction ids generalizing s with
  | nil => exact h
  | cons i ids ih => exact ih (isClosed_update h (fun c _ => LawfulTracked.isClosed_close c) i)

/-- A new connection leaves closed what is closed. -/
theorem isClosed_openNew (now : Instant) (idle : Nat) (c : γ) :
    (s.openNew now idle c).1.isClosed id = true := by
  obtain ⟨c', hc', hclosed⟩ := isClosed_iff.mp h
  cases connection?_openNew_of_some LawfulTracked.close_close hc' now idle c with
  | inl hsame => exact isClosed_iff.mpr ⟨c', hsame, hclosed⟩
  | inr hleft => exact isClosed_iff.mpr ⟨_, hleft, LawfulTracked.isClosed_close c'⟩

end

end Store

end FlowRelay.Flow
