import FlowRelay.Proofs.Flow.Listing
import FlowRelay.Proofs.Packet.Response

/-!
# FlowRelay.Proofs.Flow.Isolation

What there is of one flow in a store.

1. *Places* (`place`): a connection is known by its number among all connections, and by its number
   among those of its flow.
2. *One flow* (`only`): a store without the connections of all other flows and their entries.
3. *Operations*: what happens to a connection of the flow happens to it in the store of the flow
   alone (`only_…`), and what happens to another does not show there (`only_…_of_ne`).  A connection
   that comes does so too, if there is room for it: nobody has to leave then.
4. *Traces* (`Trace.Matches`): connections, packets and data of one flow are all there is in another
   trace.
5. *Engines* (`Machine`): if the steps of an engine about a flow do there what they do where there
   is nothing else, and no other step shows there, then a run shows of the flow what the steps about
   it do alone (`Isolates.run`).
-/

namespace FlowRelay

/-! ## Lists -/

section

variable {α : Type} {p : α → Bool} {x : α} {l : List α} {i : Nat} {f : α → α}

/-- What satisfies a predicate is found behind what does so before it. -/
theorem getElem?_filter_countPBefore (hx : l[i]? = some x) (hp : p x = true) :
    (l.filter p)[l.countPBefore p i]? = some x := by
  induction l generalizing i with
  | nil => contradiction
  | cons y l ih =>
      cases i with
      | zero =>
          cases hx
          simp [hp]
      | succ i =>
          have hrest := ih (i := i) (by simpa using hx)
          by_cases hy : p y <;> simp [hy, hrest]

/-- Changing an element that stays in changes it at its place among those that are in. -/
theorem filter_modify (hx : l[i]? = some x) (hp : p x = true) (hf : p (f x) = true) :
    (l.modify i f).filter p = (l.filter p).modify (l.countPBefore p i) f := by
  induction l generalizing i with
  | nil => contradiction
  | cons y l ih =>
      cases i with
      | zero =>
          cases hx
          simp [hp, hf]
      | succ i =>
          have hrest := ih (i := i) (by simpa using hx)
          by_cases hy : p y <;> simp [hy, hrest]

/-- An element that is out and stays out does not show. -/
theorem filter_modify_of_neg (h : ∀ x, l[i]? = some x → p x = false ∧ p (f x) = false) :
    (l.modify i f).filter p = l.filter p := by
  induction l generalizing i with
  | nil => simp
  | cons y l ih =>
      cases i with
      | zero =>
          have hy := h y rfl
          simp [hy]
      | succ i =>
          have hrest := ih (i := i) (by simpa using h)
          by_cases hy : p y <;> simp [hy, hrest]

/-- What comes behind a place does not count in front of it. -/
theorem countPBefore_append (l' : List α) (h : i ≤ l.length) :
    (l ++ l').countPBefore p i = l.countPBefore p i := by
  rw [List.countPBefore_eq_countP_take, List.countPBefore_eq_countP_take,
    List.take_append_of_le_length h]

theorem countPBefore_map {β : Type} {p : β → Bool} (f : α → β) (l : List α) (i : Nat) :
    (l.map f).countPBefore p i = l.countPBefore (p ∘ f) i := by
  rw [List.countPBefore_eq_countP_take, List.countPBefore_eq_countP_take, ← List.map_take,
    List.countP_map]

section

variable {β : Type} [DecidableEq α] [DecidableEq β] {a : α} {b : β} {g : α → Option β}

omit [DecidableEq β] in
/-- What is left out anyway may be missing. -/
theorem filterMap_erase_of_none (h : g a = none) (l : List α) :
    (l.erase a).filterMap g = l.filterMap g := by
  induction l with
  | nil => rfl
  | cons x l ih =>
      by_cases hx : x = a
      · subst hx
        rw [List.erase_cons_head, List.filterMap_cons_none h]
      · rw [List.erase_cons_tail (by simpa using hx)]
        simp only [List.filterMap_cons, ih]

/-- Erasing an element erases its image, if nothing else has the same image. -/
theorem filterMap_erase_of_some (h : g a = some b) (hinjective : ∀ x, g x = some b → x = a)
    (l : List α) : (l.erase a).filterMap g = (l.filterMap g).erase b := by
  induction l with
  | nil => rfl
  | cons x l ih =>
      by_cases hx : x = a
      · subst hx
        rw [List.erase_cons_head, List.filterMap_cons_some h, List.erase_cons_head]
      · rw [List.erase_cons_tail (by simpa using hx)]
        cases hgx : g x with
        | none => rw [List.filterMap_cons_none hgx, List.filterMap_cons_none hgx, ih]
        | some y =>
            have hy : y ≠ b := fun hy => hx (hinjective x (hy ▸ hgx))
            rw [List.filterMap_cons_some hgx, List.filterMap_cons_some hgx, ih,
              List.erase_cons_tail (by simpa using hy)]

/-- Whether an element is in a list shows in its image, if nothing else has the same image. -/
theorem contains_filterMap (h : g a = some b) (hinjective : ∀ x, g x = some b → x = a)
    (l : List α) : (l.filterMap g).contains b = l.contains a := by
  have hmem : b ∈ l.filterMap g ↔ a ∈ l := by
    rw [List.mem_filterMap]
    constructor
    · rintro ⟨x, hx, hgx⟩
      exact hinjective x hgx ▸ hx
    · exact fun ha => ⟨a, ha, h⟩
  simpa only [List.contains_eq_mem] using decide_eq_decide.mpr hmem

end

end

/-! ## Tables -/

namespace Table

variable {κ ν : Type} [DecidableEq κ]

/-- A table that holds the entry of one key, or nothing. -/
def single (capacity : Nat) (key : κ) (entry : Option ν) : Table κ ν :=
  ⟨capacity, entry.toList.map (key, ·)⟩

theorem peek?_single (capacity : Nat) (key : κ) (entry : Option ν) :
    (single capacity key entry).peek? key = entry := by
  cases entry <;> simp [single, peek?]

theorem others_single (capacity : Nat) (key : κ) (entry : Option ν) :
    (single capacity key entry).others key = [] := by
  cases entry <;> simp [single, others]

theorem get?_single (capacity : Nat) (key : κ) (entry : Option ν) :
    ((single capacity key entry).get? key).1 = single capacity key entry := by
  simp only [get?, peek?_single, others_single]
  cases entry <;> rfl

/-- Removing an entry from a table of one key leaves it alone unless the entry is wanted. -/
theorem removeIf_single (capacity : Nat) (key : κ) (entry : Option ν) (wanted : ν → Bool) :
    ((single capacity key entry).removeIf key wanted).1 =
      single capacity key (entry.filter (!wanted ·)) := by
  simp only [removeIf, peek?_single, remove, others_single]
  cases entry with
  | none => rfl
  | some value =>
      simp only
      split
      · next hwanted =>
          rw [Option.filter_some_neg (by simp [hwanted])]
          rfl
      · next hwanted => rw [Option.filter_some_pos (by simp [hwanted])]

end Table

namespace Flow.Store

variable {γ : Type} [Tracked γ] {s : Store γ} {k : Key} {id id' n : Nat} {c : γ} {f : γ → γ}

/-! ## Places -/

/-- The flows of the connections. -/
def keys (s : Store γ) : List Key := s.connections.map Tracked.key

/-- How many connections of a flow have a smaller number. -/
def rank (s : Store γ) (k : Key) (id : Nat) : Nat := s.keys.countPBefore (· = k) id

/-- The number of a connection among those of a flow, if it is one of them. -/
def place (s : Store γ) (k : Key) (id : Nat) : Option Nat :=
  if s.keys[id]? = some k then some (s.rank k id) else none

theorem getElem?_keys (s : Store γ) (id : Nat) :
    s.keys[id]? = (s.connection? id).map Tracked.key := List.getElem?_map ..

/-- The place of a connection of the flow is its rank. -/
theorem place_eq_some_iff : s.place k id = some n ↔
    (∃ c, s.connection? id = some c ∧ Tracked.key c = k) ∧ s.rank k id = n := by
  simp only [place, getElem?_keys, Option.map_eq_some_iff]
  split
  · next h => simp [h]
  · next h => simp [h]

/-- Connections of other flows have no place. -/
theorem place_eq_none_iff : s.place k id = none ↔
    ∀ c, s.connection? id = some c → Tracked.key c ≠ k := by
  simp only [place, getElem?_keys, Option.map_eq_some_iff]
  split
  · next h => simpa using h
  · next h => simpa using h

theorem place_of_key (hc : s.connection? id = some c) (hkey : Tracked.key c = k) :
    s.place k id = some (s.rank k id) := place_eq_some_iff.mpr ⟨⟨c, hc, hkey⟩, rfl⟩

/-- A connection of another flow has no place. -/
theorem place_of_key_ne (hc : s.connection? id = some c) (hkey : Tracked.key c ≠ k) :
    s.place k id = none := by
  rw [place_eq_none_iff, hc]
  rintro _ ⟨⟩
  exact hkey

/-- No two connections have the same place. -/
theorem place_injective (h : s.place k id = some n) (h' : s.place k id' = some n) : id = id' := by
  have hfind {i : Nat} (hi : s.place k i = some n) : s.keys.findIdxNth (· = k) n = i := by
    unfold place at hi
    split at hi
    · next hkey =>
        obtain ⟨hlt, hkey⟩ := List.getElem?_eq_some_iff.mp hkey
        rw [← Option.some.inj hi]
        exact List.findIdxNth_countPBefore_of_lt_length_of_pos (decide_eq_true hkey)
    · contradiction
  rw [← hfind h, ← hfind h']

/-- The places belong to the flows alone. -/
theorem place_congr {s' : Store γ} (h : s'.keys = s.keys) : s'.place k = s.place k := by
  funext id
  rw [place, place, rank, rank, h]

/-- A rank counts the connections of the flow in front. -/
theorem rank_eq (s : Store γ) (k : Key) (id : Nat) :
    s.rank k id = s.connections.countPBefore (Tracked.key · = k) id := countPBefore_map _ _ _

/-! ## One flow -/

/-- The store without the connections of all other flows and without their entries. -/
def only (s : Store γ) (k : Key) : Store γ where
  connections := s.connections.filter (Tracked.key · = k)
  table := .single s.table.capacity k ((s.table.peek? k).bind (s.place k))

/-- Only the connections of the flow, its entry and the room in the table matter. -/
theorem only_congr {s' : Store γ}
    (hconnections : s'.connections.filter (Tracked.key · = k) =
      s.connections.filter (Tracked.key · = k))
    (hcapacity : s'.table.capacity = s.table.capacity)
    (hpeek : (s'.table.peek? k).bind (s'.place k) = (s.table.peek? k).bind (s.place k)) :
    s'.only k = s.only k := by
  rw [only, only, hconnections, hcapacity, hpeek]

/-- A connection of the flow is found at its place. -/
theorem connection?_only (h : s.place k id = some n) :
    (s.only k).connection? n = s.connection? id := by
  obtain ⟨⟨c, hc, hkey⟩, rfl⟩ := place_eq_some_iff.mp h
  rw [rank_eq, hc]
  exact getElem?_filter_countPBefore hc (decide_eq_true hkey)

/-- What is listed under the flow is listed with its place. -/
theorem peek?_only (s : Store γ) (k : Key) :
    (s.only k).table.peek? k = (s.table.peek? k).bind (s.place k) := Table.peek?_single _ _ _

/-! ## Changing -/

theorem keys_update (hf : ∀ c, s.connection? id = some c → Tracked.key (f c) = Tracked.key c) :
    (s.update id f).keys = s.keys := by
  refine List.ext_getElem? fun i => ?_
  rw [getElem?_keys, getElem?_keys]
  by_cases hi : id = i
  · subst hi
    rw [connection?_update_self, Option.map_map]
    refine Option.map_congr fun c hc => ?_
    exact hf c hc
  · rw [connection?_update_of_ne hi]

/-- A change of a connection of the flow is a change at its place. -/
theorem only_update (h : s.place k id = some n)
    (hf : ∀ c, s.connection? id = some c → Tracked.key (f c) = Tracked.key c) :
    (s.update id f).only k = (s.only k).update n f := by
  obtain ⟨⟨c, hc, hkey⟩, rfl⟩ := place_eq_some_iff.mp h
  have hconnections := filter_modify (p := fun c => decide (Tracked.key c = k)) hc
    (decide_eq_true hkey) (decide_eq_true ((hf c hc).trans hkey))
  rw [← rank_eq] at hconnections
  rw [only, place_congr (keys_update hf)]
  exact congrArg (fun connections => Store.mk connections _) hconnections

/-- A change of a connection of another flow does not show. -/
theorem only_update_of_ne (h : s.place k id = none)
    (hf : ∀ c, s.connection? id = some c → Tracked.key (f c) = Tracked.key c) :
    (s.update id f).only k = s.only k := by
  refine only_congr (filter_modify_of_neg fun c hc => ?_) rfl ?_
  · have hkey := place_eq_none_iff.mp h c hc
    rw [hf c hc]
    exact ⟨decide_eq_false hkey, decide_eq_false hkey⟩
  · rw [place_congr (keys_update hf)]
    rfl

/-! ## Finding -/

/-- Looking flows up does not show, for it only orders the table. -/
theorem only_find? (s : Store γ) (key k : Key) : (s.find? key).1.only k = s.only k := by
  refine only_congr rfl (s.capacity_find? key) ?_
  exact congrArg (Option.bind · (s.place k)) (s.table.peek?_get? key k)

theorem find?_only (s : Store γ) (k : Key) : ((s.only k).find? k).1 = s.only k :=
  congrArg (fun table => ({ s.only k with table } : Store γ)) (Table.get?_single _ _ _)

variable [LawfulTracked γ]

/-! ## Closing -/

theorem keys_closeAllOf (s : Store γ) (ids : List Nat) : (s.closeAllOf ids).keys = s.keys := by
  induction ids generalizing s with
  | nil => rfl
  | cons id rest ih =>
      exact (ih (s.update id Tracked.close)).trans
        (keys_update fun c _ => LawfulTracked.key_close c)

theorem keys_terminate (s : Store γ) (id : Nat) : (s.terminate id).keys = s.keys := by
  unfold terminate
  split
  · rfl
  · exact keys_update (s := s) fun c _ => LawfulTracked.key_close c

/-- Closing connections closes those of the flow at their places. -/
theorem only_closeAllOf (s : Store γ) (ids : List Nat) (k : Key) :
    (s.closeAllOf ids).only k = (s.only k).closeAllOf (ids.filterMap (s.place k)) := by
  induction ids generalizing s with
  | nil => rfl
  | cons id rest ih =>
      have hkey : ∀ c, s.connection? id = some c →
          Tracked.key (Tracked.close c) = Tracked.key c := fun c _ => LawfulTracked.key_close c
      have hrest := ih (s.update id Tracked.close)
      rw [place_congr (keys_update hkey)] at hrest
      refine hrest.trans ?_
      cases hplace : s.place k id with
      | none =>
          rw [List.filterMap_cons_none hplace, only_update_of_ne hplace hkey]
      | some n =>
          rw [List.filterMap_cons_some hplace, only_update hplace hkey]
          rfl

omit [LawfulTracked γ] in
/-- What is not a connection is not its place either. -/
theorem bind_place_filter (h : s.place k id = some n) (entry : Option Nat) :
    (entry.filter fun i => !decide (i = id)).bind (s.place k) =
      (entry.bind (s.place k)).filter fun m => !decide (m = n) := by
  cases entry with
  | none => rfl
  | some i =>
      by_cases hi : i = id
      · rw [Option.filter_some_neg (by simp [hi]), Option.bind_some, hi, h,
          Option.filter_some_neg (by simp)]
        rfl
      · rw [Option.filter_some_pos (by simp [hi]), Option.bind_some]
        cases hplace : s.place k i with
        | none => rfl
        | some m =>
            have hm : m ≠ n := fun hm => hi (place_injective (hm ▸ hplace) h)
            rw [Option.filter_some_pos (by simp [hm])]

/-- A connection of the flow that is taken out of the table is taken out of that of the flow. -/
theorem only_terminate (h : s.place k id = some n) :
    (s.terminate id).only k = (s.only k).terminate n := by
  obtain ⟨⟨c, hc, rfl⟩, -⟩ := place_eq_some_iff.mp h
  have hc' : (s.only (Tracked.key c)).connection? n = some c := (connection?_only h).trans hc
  have hclose : ∀ c, s.connection? id = some c → Tracked.key (Tracked.close c) = Tracked.key c :=
    fun c _ => LawfulTracked.key_close c
  have hplace := place_congr (k := Tracked.key c) (keys_update hclose)
  have hentry : ((s.table.removeIf (Tracked.key c) (· = id)).1.peek? (Tracked.key c)).bind
      (s.place (Tracked.key c)) =
      ((s.table.peek? (Tracked.key c)).bind (s.place (Tracked.key c))).filter
        fun m => !decide (m = n) := by
    rw [Table.peek?_removeIf, if_pos rfl, bind_place_filter h]
  have htable : ((s.only (Tracked.key c)).table.removeIf (Tracked.key c) (· = n)).1 =
      .single (s.table.removeIf (Tracked.key c) (· = id)).1.capacity (Tracked.key c)
        (((s.table.removeIf (Tracked.key c) (· = id)).1.peek? (Tracked.key c)).bind
          (s.place (Tracked.key c))) := by
    rw [hentry, Table.capacity_removeIf]
    exact Table.removeIf_single _ _ _ _
  simp only [terminate, hc, hc']
  refine Eq.trans ?_ (congrArg (Store.mk _) htable.symm)
  rw [← only_update h hclose, ← hplace]
  rfl

/-- Terminating a connection of another flow does not show. -/
theorem only_terminate_of_ne (h : s.place k id = none) : (s.terminate id).only k = s.only k := by
  unfold terminate
  cases hc : s.connection? id with
  | none => rfl
  | some c =>
      have hkey := place_eq_none_iff.mp h c hc
      have hclose : ∀ c, s.connection? id = some c →
          Tracked.key (Tracked.close c) = Tracked.key c := fun c _ => LawfulTracked.key_close c
      rw [← only_update_of_ne h hclose]
      refine only_congr rfl (s.table.capacity_removeIf _ _) ?_
      refine congrArg (Option.bind · _) ((Table.peek?_removeIf _ _ _ _).trans ?_)
      rw [if_neg (Ne.symm hkey)]

/-! ## Coming -/

omit [LawfulTracked γ]

omit [Tracked γ] in
/-- A new connection comes behind all others. -/
theorem connection?_add_of_lt (h : id < s.connections.length) (c : γ) :
    (s.add c).1.connection? id = s.connection? id := List.getElem?_append_left h

omit [Tracked γ] in
theorem connection?_add_self (s : Store γ) (c : γ) :
    (s.add c).1.connection? (s.add c).2 = some c := List.getElem?_concat_length

/-- A connection that comes does not change the places of the others. -/
theorem place_add_of_lt (h : id < s.connections.length) (c : γ) (k : Key) :
    (s.add c).1.place k id = s.place k id := by
  have hrank : (s.add c).1.rank k id = s.rank k id := by
    rw [rank_eq, rank_eq]
    exact countPBefore_append _ (Nat.le_of_lt h)
  simp only [place, getElem?_keys, connection?_add_of_lt h, hrank]

/-- A new connection of the flow gets the next place. -/
theorem place_add_self (hkey : Tracked.key c = k) (s : Store γ) :
    (s.add c).1.place k (s.add c).2 = some (s.only k).connections.length := by
  have hrank : (s.add c).1.rank k (s.add c).2 = (s.only k).connections.length := by
    rw [rank_eq]
    refine (countPBefore_append _ (Nat.le_refl _)).trans ?_
    rw [List.countPBefore_length, List.countP_eq_length_filter]
    rfl
  rw [place_of_key (connection?_add_self s c) hkey, hrank]

/-- A connection of another flow that comes finds no place. -/
theorem place_add_of_ne (hkey : Tracked.key c ≠ k) (s : Store γ) :
    (s.add c).1.place k = s.place k := by
  funext id
  by_cases hlt : id < s.connections.length
  · exact place_add_of_lt hlt c k
  · have hge := Nat.le_of_not_lt hlt
    have hnone : s.connection? id = none := List.getElem?_eq_none_iff.mpr hge
    have hplace : s.place k id = none := place_eq_none_iff.mpr (by rw [hnone]; nofun)
    rw [hplace, place_eq_none_iff]
    intro c' hc'
    have hlast := (List.getElem?_append_right hge).symm.trans hc'
    rw [List.mem_singleton.mp (List.mem_of_getElem? hlast)]
    exact hkey

/-- Whoever has to leave keeps its flow. -/
theorem keys_openNew [LawfulTracked γ] (s : Store γ) (now : Instant) (idle : Nat) (c : γ) :
    (s.openNew now idle c).1.keys = (s.add c).1.keys := by
  obtain ⟨table, ids, hput⟩ := put_eq_closeAllOf (s.add c).1 now idle (s.add c).2
  have hopen : (s.openNew now idle c).1 = { (s.add c).1 with table }.closeAllOf ids := hput
  rw [hopen, keys_closeAllOf]
  rfl

/-- A connection that finds room drives nobody out but the one of its flow. -/
theorem openNew_of_room (hroom : s.table.size + 1 ≤ s.table.capacity) (now : Instant) (idle : Nat)
    (c : γ) :
    s.openNew now idle c =
      ({ (s.add c).1 with
        table := s.table.full (Tracked.key c) s.connections.length }.closeAllOf
          (s.table.peek? (Tracked.key c)).toList, s.connections.length) := by
  have hc : (s.add c).1.connection? s.connections.length = some c := connection?_add_self s c
  have htable : (s.add c).1.table = s.table := rfl
  have hnumber : (s.add c).2 = s.connections.length := rfl
  simp only [openNew, put, hnumber, hc, htable, Table.put_of_room hroom, Table.Stored.leaving,
    Option.toList_none, List.append_nil]
  cases s.table.peek? (Tracked.key c) <;> rfl

/-- A connection that comes, finds room and is the first one in use of its flow comes to the store
of the flow, too. -/
theorem only_openNew (h : s.Accurate) (hkey : Tracked.key c = k)
    (hroom : s.table.size + 1 ≤ s.table.capacity) (hnone : s.table.peek? k = none) (now : Instant)
    (idle : Nat) : (s.openNew now idle c).1.only k = ((s.only k).openNew now idle c).1 := by
  subst hkey
  have hnone' : (s.only (Tracked.key c)).table.peek? (Tracked.key c) = none := by
    rw [peek?_only, hnone]
    rfl
  have hroom' : (s.only (Tracked.key c)).table.size + 1 ≤
      (s.only (Tracked.key c)).table.capacity := by
    simp only [only, hnone, Table.single, Table.size]
    exact h.sound.positive
  rw [openNew_of_room hroom, openNew_of_room hroom', hnone, hnone']
  have hconnections : (s.connections ++ [c]).filter (fun c' => Tracked.key c' = Tracked.key c) =
      s.connections.filter (fun c' => Tracked.key c' = Tracked.key c) ++ [c] := by
    rw [List.filter_append]
    simp
  have hplace : (Store.mk (s.connections ++ [c])
      (s.table.full (Tracked.key c) s.connections.length)).place (Tracked.key c)
        s.connections.length = some (s.only (Tracked.key c)).connections.length :=
    place_add_self rfl s
  have hentry : ((s.table.full (Tracked.key c) s.connections.length).peek? (Tracked.key c)).bind
      ((Store.mk (s.connections ++ [c])
        (s.table.full (Tracked.key c) s.connections.length)).place (Tracked.key c)) =
      some (s.only (Tracked.key c)).connections.length := by
    rw [Table.peek?_full, if_pos rfl, Option.bind_some, hplace]
  refine (Store.mk.injEq ..).mpr ⟨hconnections, ?_⟩
  refine (congrArg (Table.single s.table.capacity (Tracked.key c)) hentry).trans ?_
  simp only [Table.full, only, Table.others_single]
  rfl

/-- A connection of another flow that comes and finds room does not show. -/
theorem only_openNew_of_ne [LawfulTracked γ] (h : s.Accurate) (hkey : Tracked.key c ≠ k)
    (hroom : s.table.size + 1 ≤ s.table.capacity) (now : Instant) (idle : Nat) :
    (s.openNew now idle c).1.only k = s.only k := by
  rw [openNew_of_room hroom, only_closeAllOf]
  have hplace : ({ (s.add c).1 with
      table := s.table.full (Tracked.key c) s.connections.length } : Store γ).place k = s.place k :=
    place_add_of_ne hkey s
  have hnobody : (s.table.peek? (Tracked.key c)).toList.filterMap (s.place k) = [] := by
    cases hpeek : s.table.peek? (Tracked.key c) with
    | none => rfl
    | some id =>
        obtain ⟨c', hc', hsame, -⟩ := h.peek?_iff.mp hpeek
        exact List.filterMap_cons_none (place_of_key_ne hc' (hsame ▸ hkey))
  rw [hplace, hnobody]
  refine only_congr ?_ rfl ?_
  · exact (List.filter_append ..).trans (by simp [hkey])
  · rw [hplace]
    refine congrArg (Option.bind · _) ((Table.peek?_full _ _ _ _).trans ?_)
    rw [if_neg (Ne.symm hkey)]

/-! ## Closing everything -/

/-- Among the connections in the table, the one of a flow is the one that its key finds. -/
theorem filterMap_place_entries (h : s.Accurate) (k : Key) :
    (s.table.entries.map Prod.snd).filterMap (s.place k) =
      ((s.table.peek? k).bind (s.place k)).toList := by
  have hothers : ((s.table.others k).map Prod.snd).filterMap (s.place k) = [] := by
    rw [List.filterMap_eq_nil_iff]
    intro id hid
    obtain ⟨⟨key, _⟩, hmem, rfl⟩ := List.mem_map.mp hid
    obtain ⟨hmem, hkey⟩ := List.mem_filter.mp hmem
    obtain ⟨c, hc, rfl, -⟩ := (h.lists key _).mp (Multiset.mem_coe.mpr hmem)
    exact place_of_key_ne hc (of_decide_eq_true hkey)
  have hentries := Multiset.coe_eq_coe.mp
    ((Table.coe_entries h.sound.nodup k).trans (Multiset.coe_add _ _))
  have hperm := (hentries.map Prod.snd).filterMap (s.place k)
  rw [List.map_append, List.filterMap_append, hothers, List.append_nil] at hperm
  cases hpeek : s.table.peek? k with
  | none =>
      rw [hpeek] at hperm
      exact hperm.eq_nil
  | some id =>
      rw [hpeek] at hperm
      cases hplace : s.place k id with
      | none =>
          have hnil : [id].filterMap (s.place k) = [] := List.filterMap_cons_none hplace
          exact (hnil ▸ hperm).eq_nil.trans (by rw [Option.bind_some, hplace]; rfl)
      | some n =>
          have hone : [id].filterMap (s.place k) = [n] := List.filterMap_cons_some hplace
          refine (List.perm_singleton.mp (hone ▸ hperm)).trans ?_
          rw [Option.bind_some, hplace]
          rfl

/-- Closing all connections closes those of the flow. -/
theorem only_closeAll [LawfulTracked γ] (h : s.Accurate) (k : Key) :
    s.closeAll.1.only k = (s.only k).closeAll.1 := by
  have hids : (s.table.entries.map Prod.snd).filterMap (s.place k) =
      (s.only k).table.entries.map Prod.snd := by
    rw [filterMap_place_entries h, only, Table.single, List.map_map]
    exact (List.map_id _).symm
  refine (only_closeAllOf { s with table := s.table.clear.1 } _ k).trans ?_
  exact congrArg (Store.closeAllOf _) hids

/-! ## Room -/

/-- How a store may become another one: connections only become more, and each brings one entry at
most. -/
structure Growth (s s' : Store γ) : Prop where
  length_le : s.connections.length ≤ s'.connections.length
  size_le : s'.table.size + s.connections.length ≤ s.table.size + s'.connections.length
  capacity : s'.table.capacity = s.table.capacity

/-- The connections that come until a store has become another one find room in the table. -/
def Room (s s' : Store γ) : Prop :=
  s.table.size + s'.connections.length ≤ s.table.capacity + s.connections.length

instance (s s' : Store γ) : Decidable (s.Room s') := inferInstanceAs (Decidable (_ ≤ _))

namespace Growth

variable {s' s'' : Store γ}

omit [Tracked γ]

theorem refl (s : Store γ) : s.Growth s := ⟨Nat.le_refl _, Nat.le_refl _, rfl⟩

/-- Stores grow transitively. -/
theorem trans (h : s.Growth s') (h' : s'.Growth s'') : s.Growth s'' := by
  have hlength := h.length_le
  have hlength' := h'.length_le
  have hsize := h.size_le
  have hsize' := h'.size_le
  exact ⟨by omega, by omega, h'.capacity.trans h.capacity⟩

/-- Room on the whole way is room on its first part. -/
theorem room_left (h : s'.Growth s'') (hroom : s.Room s'') : s.Room s' := by
  have hlength := h.length_le
  unfold Room at hroom ⊢
  omega

/-- Room on the whole way is room on its second part. -/
theorem room_right (h : s.Growth s') (hroom : s.Room s'') : s'.Room s'' := by
  have hsize := h.size_le
  have hcapacity := h.capacity
  unfold Room at hroom ⊢
  omega

theorem update (s : Store γ) (id : Nat) (f : γ → γ) : s.Growth (s.update id f) := by
  have hlength : (s.update id f).connections.length = s.connections.length :=
    List.length_modify _ _ _
  exact ⟨Nat.le_of_eq hlength.symm, by rw [hlength]; exact Nat.le_refl _, rfl⟩

theorem find? (s : Store γ) (key : Key) : s.Growth (s.find? key).1 :=
  ⟨Nat.le_refl _, Nat.add_le_add_right (s.table.size_get?_le key) _, s.capacity_find? key⟩

end Growth

/-- Terminating a connection takes no room away. -/
theorem Growth.terminate (s : Store γ) (id : Nat) : s.Growth (s.terminate id) := by
  have hlength : (s.terminate id).connections.length = s.connections.length := by
    unfold Store.terminate
    split
    · rfl
    · exact List.length_modify _ _ _
  have hsize : (s.terminate id).table.size ≤ s.table.size := by
    unfold Store.terminate
    split
    · exact Nat.le_refl _
    · exact s.table.size_removeIf_le _ _
  exact ⟨Nat.le_of_eq hlength.symm, by omega, s.capacity_terminate id⟩

/-- A new connection takes no more than one place in the table. -/
theorem Growth.openNew (s : Store γ) (now : Instant) (idle : Nat) (c : γ) :
    s.Growth (s.openNew now idle c).1 := by
  have hlength := length_openNew s now idle c
  have hsize : (s.openNew now idle c).1.table.size ≤ s.table.size + 1 := by
    simp only [Store.openNew, put, connection?_add_self, table_closeAllOf]
    exact s.table.size_put_le _ _ _
  exact ⟨by omega, by omega, s.capacity_openNew now idle c⟩

end Flow.Store

/-! ## Packets and data -/

/-- The packets to the device that come from the far end of a flow, with the senders that have a
place. -/
def Outgoing.among (place : Nat → Option Nat) (k : Flow.Key) (outbox : List Outgoing) :
    List Outgoing :=
  (outbox.filter (Packet.flow? ·.buffer = some k)).map fun p =>
    ⟨p.connection.bind place, p.buffer⟩

/-- The data that the connections with a place were handed. -/
def Handed.among (place : Nat → Option Nat) (handed : List Handed) : List Handed :=
  handed.filterMap fun h => (place h.connection).map (⟨·, h.payload⟩)

section

variable {place place' : Nat → Option Nat} {k k' : Flow.Key} {outbox : List Outgoing}
  {handed : List Handed} {id n : Nat}

/-- The packets of a flow are found in each part of an outbox. -/
theorem Outgoing.among_append (outbox outbox' : List Outgoing) :
    among place k (outbox ++ outbox') = among place k outbox ++ among place k outbox' := by
  simp only [among, List.filter_append, List.map_append]

/-- A packet of another flow does not count. -/
theorem Outgoing.among_post_of_ne {buffer : List UInt8} (h : Packet.flow? buffer = some k')
    (hne : k' ≠ k) (connection : Option Nat) :
    among place k (outbox ++ [⟨connection, buffer⟩]) = among place k outbox := by
  have hnone : among place k [⟨connection, buffer⟩] = [] := by
    simp only [among, List.filter_cons, h, Option.some.injEq, hne, decide_false]
    rfl
  rw [among_append, hnone, List.append_nil]

/-- A packet of the flow is among its packets, with the place of its connection. -/
theorem Outgoing.among_post {buffer : List UInt8} (h : Packet.flow? buffer = some k)
    (place : Nat → Option Nat) (outbox : List Outgoing) (connection : Option Nat) :
    among place k (outbox ++ [⟨connection, buffer⟩]) =
      among place k outbox ++ [⟨connection.bind place, buffer⟩] := by
  have hone : among place k [⟨connection, buffer⟩] = [⟨connection.bind place, buffer⟩] := by
    simp only [among, List.filter_cons, h, decide_true]
    rfl
  rw [among_append, hone]

/-- Only the places of the senders matter. -/
theorem Outgoing.among_congr (h : ∀ p ∈ outbox, ∀ id ∈ p.connection, place' id = place id) :
    among place' k outbox = among place k outbox := by
  refine List.map_congr_left fun p hp => ?_
  cases hconnection : p.connection with
  | none => rfl
  | some id => rw [Option.bind_some, Option.bind_some, h p (List.mem_filter.mp hp).1 id hconnection]

theorem Handed.among_append (handed handed' : List Handed) :
    among place (handed ++ handed') = among place handed ++ among place handed' :=
  List.filterMap_append

/-- Data for a connection of another flow does not show. -/
theorem Handed.among_hand_of_none (h : place id = none) (payload : List UInt8) :
    among place (handed ++ [⟨id, payload⟩]) = among place handed := by
  simp only [among, List.filterMap_append, List.filterMap_cons, h, Option.map_none,
    List.filterMap_nil, List.append_nil]

/-- Data for a connection of the flow shows at its place. -/
theorem Handed.among_hand (h : place id = some n) (payload : List UInt8) :
    among place (handed ++ [⟨id, payload⟩]) = among place handed ++ [⟨n, payload⟩] := by
  simp only [among, List.filterMap_append, List.filterMap_cons, h, Option.map_some,
    List.filterMap_nil]

/-- Only the places of the receivers matter. -/
theorem Handed.among_congr (h : ∀ x ∈ handed, place' x.connection = place x.connection) :
    among place' handed = among place handed :=
  List.filterMap_congr fun x hx => by rw [h x hx]

end

/-! ## Traces -/

namespace Flow

variable {γ σ ε : Type} [Tracked γ]

/-- What an engine has of connections, and what it told the device and the outbound sockets. -/
structure Trace (γ : Type) where
  store : Store γ
  outbox : List Outgoing
  handed : List Handed

/-- The trace without everything of other flows.  Connections are known by their places among those
of the flow. -/
def Trace.only (x : Trace γ) (k : Key) : Trace γ where
  store := x.store.only k
  outbox := Outgoing.among (x.store.place k) k x.outbox
  handed := Handed.among (x.store.place k) x.handed

/-- What there is of a flow in one trace is all there is in another one. -/
structure Trace.Matches (x : Trace γ) (k : Key) (y : Trace γ) : Prop where
  packets : (x.outbox.filter (Packet.flow? ·.buffer = some k)).map Outgoing.buffer =
    y.outbox.map Outgoing.buffer
  data : (x.handed.filterMap fun h => (x.store.place k h.connection).map (⟨·, h.payload⟩)) =
    y.handed
  connections : x.store.connections.filter (Tracked.key · = k) = y.store.connections
  entry : (x.store.table.peek? k).bind (x.store.place k) = y.store.table.peek? k

/-- A trace matches what there is of the flow in it. -/
theorem Trace.matches_only (x : Trace γ) (k : Key) : x.Matches k (x.only k) where
  packets := by
    rw [Trace.only, Outgoing.among, List.map_map]
    rfl
  data := rfl
  connections := rfl
  entry := (Store.peek?_only x.store k).symm

/-! ## Engines -/

/-- An engine that takes steps, each about one flow or about all of them. -/
structure Machine (σ ε γ : Type) where
  store : σ → Store γ
  step : σ → ε → σ
  /-- The flow that a step is about. -/
  flow? : σ → ε → Option Key
  /-- Whether a step is about every connection. -/
  isSweep : ε → Bool
  /-- The same step where connections have other numbers. -/
  renumber : (Nat → Nat) → ε → ε

namespace Machine

variable {m : Machine σ ε γ} {good : σ → Prop} {only : σ → σ} {k : Key} {e : σ} {x : ε}

/-- Take steps one after the other. -/
def run (m : Machine σ ε γ) (e : σ) (steps : List ε) : σ := steps.foldl m.step e

/-- Whether a step is about a flow, or about every connection. -/
def concerns (m : Machine σ ε γ) (e : σ) (k : Key) (x : ε) : Bool :=
  m.isSweep x || m.flow? e x = some k

/-- The steps of a run without those that are about other flows, for an engine in which there is
nothing else: a connection has another number there, but it is the same one of its flow. -/
def kept (m : Machine σ ε γ) (k : Key) (e : σ) : List ε → List ε
  | [] => []
  | x :: rest =>
    if m.concerns e k x then
      m.renumber ((m.store e).rank k) x :: m.kept k (m.step e x) rest
    else m.kept k (m.step e x) rest

/-- In no step of a run a connection comes that the table has no room for. -/
def NeverOverflows (m : Machine σ ε γ) (e : σ) : List ε → Prop
  | [] => True
  | x :: rest => (m.store e).Room (m.store (m.step e x)) ∧ m.NeverOverflows (m.step e x) rest

omit [Tracked γ] in
instance decidableNeverOverflows (m : Machine σ ε γ) :
    (e : σ) → (steps : List ε) → Decidable (m.NeverOverflows e steps)
  | _, [] => .isTrue trivial
  | e, x :: rest =>
    have := decidableNeverOverflows m (m.step e x) rest
    inferInstanceAs (Decidable (_ ∧ _))

/-- In good states of an engine, the steps that are about a flow do what they do where there is
nothing else, and the others do not show there, as long as there is room. -/
structure Isolates (m : Machine σ ε γ) (good : σ → Prop) (only : σ → σ) (k : Key) : Prop where
  stays : ∀ e x, good e → good (m.step e x)
  own : ∀ e x, good e → m.concerns e k x = true → (m.store e).Room (m.store (m.step e x)) →
    only (m.step e x) = m.step (only e) (m.renumber ((m.store e).rank k) x)
  others : ∀ e x, good e → m.concerns e k x = false → (m.store e).Room (m.store (m.step e x)) →
    only (m.step e x) = only e

/-- **Runs**: what a run shows of a flow is what the steps about the flow do alone. -/
theorem Isolates.run (h : m.Isolates good only k) (he : good e) {steps : List ε}
    (hroom : m.NeverOverflows e steps) :
    only (m.run e steps) = m.run (only e) (m.kept k e steps) := by
  induction steps generalizing e with
  | nil => rfl
  | cons x rest ih =>
      obtain ⟨hstep, hrest⟩ := hroom
      refine (ih (h.stays e x he) hrest).trans ?_
      rw [kept]
      cases hconcerns : m.concerns e k x with
      | true =>
          rw [if_pos rfl, h.own e x he hconcerns hstep]
          rfl
      | false => rw [if_neg Bool.false_ne_true, h.others e x he hconcerns hstep]

end Machine

end Flow

end FlowRelay
