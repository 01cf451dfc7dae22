import FlowRelay.Proofs.Table.Entries

/-!
# FlowRelay.Proofs.Table.Eviction

What storing an entry does to a table, entry by entry.

1. *Asking* (`askInTurn_append`, `askInTurn_of_late`): values are asked in turn up to the first one
   that may go early.  That one leaves (`exists_victim`), or the first of all if none may.
2. *Replacing and adding* (`put_of_peek?`, `put_of_absent`): an entry that replaces another one, or
   finds room, is the most recently used one, and nobody is asked.
3. *Evicting* (`put_of_victim`): otherwise one entry leaves, and the others stay as they are.
4. *Storing* (`put_evicts`): all of this for every table that is in order.
-/

namespace FlowRelay.Table

/-! ## Asking -/

section

variable {κ ν : Type} {early : ν → Bool} {value : ν} {front back values : List ν}

/-- If none may go early, all are asked. -/
theorem askInTurn_of_late (h : ∀ v ∈ values, early v = false) :
    askInTurn early values = values := by
  induction values with
  | nil => rfl
  | cons v rest ih =>
      rw [askInTurn, h v List.mem_cons_self, if_neg Bool.false_ne_true,
        ih fun w hw => h w (List.mem_cons_of_mem _ hw)]

/-- Nobody is asked behind the first one that may go early. -/
theorem askInTurn_append (hfront : ∀ v ∈ front, early v = false) (hearly : early value = true) :
    askInTurn early (front ++ value :: back) = front ++ [value] := by
  induction front with
  | nil => simp [askInTurn, hearly]
  | cons v rest ih =>
      rw [List.cons_append, askInTurn, hfront v List.mem_cons_self, if_neg Bool.false_ne_true,
        ih fun w hw => hfront w (List.mem_cons_of_mem _ hw), List.cons_append]

/-- One of the entries is the first that may go early, or the first of all if none may. -/
theorem exists_victim (early : ν → Bool) {entries : List (κ × ν)} (hentries : entries ≠ []) :
    ∃ front victim back, entries = front ++ victim :: back ∧
      (entries.find? (early ·.2)).or entries.head? = some victim ∧
      ((∀ x ∈ front, early x.2 = false) ∧ early victim.2 = true ∧
          askInTurn early (entries.map Prod.snd) = front.map Prod.snd ++ [victim.2] ∨
        (∀ x ∈ entries, early x.2 = false) ∧ front = [] ∧
          askInTurn early (entries.map Prod.snd) = entries.map Prod.snd) := by
  cases hfind : entries.find? (early ·.2) with
  | some victim =>
      obtain ⟨hearly, front, back, hsplit, hfront⟩ := List.find?_eq_some_iff_append.mp hfind
      have hfront : ∀ x ∈ front, early x.2 = false := by simpa using hfront
      refine ⟨front, victim, back, hsplit, rfl, .inl ⟨hfront, hearly, ?_⟩⟩
      rw [hsplit, List.map_append, List.map_cons]
      exact askInTurn_append (List.forall_mem_map.mpr hfront) hearly
  | none =>
      have hlate : ∀ x ∈ entries, early x.2 = false := by simpa using hfind
      obtain ⟨victim, back, rfl⟩ := List.exists_cons_of_ne_nil hentries
      exact ⟨[], victim, back, rfl, rfl, .inr ⟨hlate, rfl,
        askInTurn_of_late (List.forall_mem_map.mpr hlate)⟩⟩

end

variable {κ ν : Type} [DecidableEq κ] {t : Table κ ν} {early : ν → Bool} {key : κ} {value : ν}

/-! ## Replacing and adding -/

theorem size_full_of_peek? (h : t.keys.Nodup) {old : ν} (hpeek : t.peek? key = some old)
    (value : ν) : (t.full key value).size = t.size := by
  obtain ⟨front, back, hsplit⟩ := List.append_of_mem (mem_of_peek? hpeek)
  simp only [size, full, others_of_split h hsplit, hsplit, List.length_append, List.length_cons,
    List.length_nil]
  omega

/-- What is stored under a key that is there takes the place of what was there. -/
theorem put_of_peek? (h : t.Sound) {old : ν} (hpeek : t.peek? key = some old) (early : ν → Bool)
    (value : ν) : t.put early key value = ⟨t.full key value, some old, none, []⟩ := by
  have hsize := size_full_of_peek? h.nodup hpeek value
  have hbounded := h.bounded
  cases put_cases t early key value with
  | inl hfits => rw [hfits.2, hpeek]
  | inr hover =>
      have hlt := hover.1
      omega

/-- An entry that is new and finds room is added behind the others. -/
theorem put_of_absent (hpeek : t.peek? key = none) (hroom : t.size < t.capacity)
    (early : ν → Bool) (value : ν) :
    t.put early key value =
      ⟨{ t with entries := t.entries ++ [(key, value)] }, none, none, []⟩ := by
  rw [put_of_room hroom, hpeek, full, others_of_none hpeek]

/-! ## Evicting -/

/-- The entry that leaves a full table is taken out of it, the new one being the last. -/
theorem put_of_victim (h : t.Sound) (hpeek : t.peek? key = none) (hfull : t.capacity ≤ t.size)
    {front back : List (κ × ν)} {victim : κ × ν}
    (hsplit : t.entries ++ [(key, value)] = front ++ victim :: back)
    (hvictim : ((t.entries ++ [(key, value)]).find? (early ·.2)).or
      (t.entries ++ [(key, value)]).head? = some victim) :
    t.put early key value = ⟨{ t with entries := front ++ back }, none, some victim,
      askInTurn early ((t.entries ++ [(key, value)]).map Prod.snd)⟩ := by
  have hleft : ({ t with entries := t.entries ++ [(key, value)] } : Table κ ν).others victim.1 =
      front ++ back := by
    have hnodup := nodup_full h.nodup key value
    rw [full, others_of_none hpeek] at hnodup
    exact others_of_split hnodup hsplit
  have hover : ¬ (t.entries ++ [(key, value)]).length ≤ t.capacity := by
    rw [List.length_append, List.length_singleton]
    exact Nat.not_le.mpr (Nat.lt_succ_of_le hfull)
  unfold put
  simp only [others_of_none hpeek, size, if_neg hover, values, hvictim, hpeek, hleft]

/-! ## Storing -/

/-- **Storing**: what is stored under a key that is there replaces what was there, which is cleaned
up; what is new is added where there is room.  Otherwise one entry leaves, is cleaned up and is
given back: the least recently used one that may go early, the new one being the last to be asked,
or the least recently used one if none may.  The new entry is the most recently used one, all others
stay as they are, and nobody is asked in vain. -/
theorem put_evicts (h : t.Sound) (early : ν → Bool) (key : κ) (value : ν) :
    let s := t.put early key value
    (∀ old, t.peek? key = some old →
      ∃ front back, t.entries = front ++ (key, old) :: back ∧
        s.table.entries = front ++ back ++ [(key, value)] ∧ s.leaving key = [(key, old)] ∧
        s.evicted = none ∧ s.asked = []) ∧
    (t.peek? key = none → t.size < t.capacity →
      s.table.entries = t.entries ++ [(key, value)] ∧ s.leaving key = [] ∧
        s.evicted = none ∧ s.asked = []) ∧
    (t.peek? key = none → t.capacity ≤ t.size →
      ∃ front victim back, t.entries ++ [(key, value)] = front ++ victim :: back ∧
        s.table.entries = front ++ back ∧ s.leaving key = [victim] ∧ s.evicted = some victim ∧
        ((∀ x ∈ front, early x.2 = false) ∧ early victim.2 = true ∧
            s.asked = front.map Prod.snd ++ [victim.2] ∨
          (∀ x ∈ t.entries ++ [(key, value)], early x.2 = false) ∧ front = [] ∧
            s.asked = (t.entries ++ [(key, value)]).map Prod.snd)) ∧
    s.table.size ≤ s.table.capacity ∧ s.table.capacity = t.capacity := by
  refine ⟨fun old hpeek => ?replaced, fun hpeek hroom => ?added, fun hpeek hfull => ?evicted,
    (h.put early key value).bounded, capacity_put t early key value⟩
  case replaced =>
    obtain ⟨front, back, hsplit⟩ := List.append_of_mem (mem_of_peek? hpeek)
    refine ⟨front, back, hsplit, ?_⟩
    rw [put_of_peek? h hpeek, full, others_of_split h.nodup hsplit]
    exact ⟨rfl, rfl, rfl, rfl⟩
  case added =>
    rw [put_of_absent hpeek hroom]
    exact ⟨rfl, rfl, rfl, rfl⟩
  case evicted =>
    obtain ⟨front, victim, back, hsplit, hvictim, hasked⟩ :=
      exists_victim early (List.append_ne_nil_of_right_ne_nil t.entries
        (List.cons_ne_nil (key, value) []))
    refine ⟨front, victim, back, hsplit, ?_⟩
    rw [put_of_victim h hpeek hfull hsplit hvictim]
    exact ⟨rfl, rfl, rfl, hasked⟩

/-- Four entries in a table for four. -/
def crowded : Table Nat Nat := ⟨4, [(0, 0), (1, 1), (2, 2), (3, 3)]⟩

/-- If the last two may go early, the older one of them makes room for a fifth entry.  A second
value for one of the four drives nobody out, and neither does the fifth entry where there is room
for five. -/
theorem put_evicts_of_crowded :
    (∃ front back, crowded.entries ++ [(4, 4)] = front ++ (2, 2) :: back ∧
      (crowded.put (2 ≤ ·) 4 4).table.entries = front ++ back ∧
      (crowded.put (2 ≤ ·) 4 4).leaving 4 = [(2, 2)]) ∧
    (∃ front back, crowded.entries = front ++ (1, 1) :: back ∧
      (crowded.put (2 ≤ ·) 1 7).table.entries = front ++ back ++ [(1, 7)] ∧
      (crowded.put (2 ≤ ·) 1 7).leaving 1 = [(1, 1)]) ∧
    (({ crowded with capacity := 5 } : Table Nat Nat).put (2 ≤ ·) 4 4).leaving 4 = [] := by
  have hsound : crowded.Sound := ⟨by decide, by decide, by decide⟩
  have hroomy : ({ crowded with capacity := 5 } : Table Nat Nat).Sound :=
    ⟨by decide, by decide, by decide⟩
  refine ⟨?_, ?_, ((put_evicts hroomy (2 ≤ ·) 4 4).2.1 rfl (by decide)).2.1⟩
  · obtain ⟨front, victim, back, hsplit, hentries, hleaving, hevicted, -⟩ :=
      (put_evicts hsound (2 ≤ ·) 4 4).2.2.1 rfl (by decide)
    obtain rfl : (2, 2) = victim := Option.some.inj hevicted
    exact ⟨front, back, hsplit, hentries, hleaving⟩
  · obtain ⟨front, back, hsplit, hentries, hleaving, -⟩ :=
      (put_evicts hsound (2 ≤ ·) 1 7).1 1 rfl
    exact ⟨front, back, hsplit, hentries, hleaving⟩

end FlowRelay.Table
