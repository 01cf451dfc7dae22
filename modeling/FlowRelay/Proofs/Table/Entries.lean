import Mathlib.Algebra.Order.Group.Multiset
import Mathlib.Data.List.Nodup
import Mathlib.Tactic.Abel
import FlowRelay.Table

/-!
# FlowRelay.Proofs.Table.Entries

What the operations of a table do to its entries.

1. *Order of the house* (`Sound`): the keys differ and there are no more entries than may be.  Every
   operation keeps it.
2. *Balance*: what an operation takes out of a table and what it leaves in it are together what was
   in it before, and what it brought.
-/

namespace FlowRelay.Table

variable {κ ν : Type} {t : Table κ ν} {key : κ} {value : ν}

/-! ## Sound tables -/

/-- The keys that have an entry. -/
def keys (t : Table κ ν) : List κ := t.entries.map Prod.fst

/-- What a table of bounded size keeps to. -/
structure Sound (t : Table κ ν) : Prop where
  nodup : t.keys.Nodup
  bounded : t.size ≤ t.capacity
  /-- There is room for an entry that is new. -/
  positive : 0 < t.capacity

theorem Sound.empty (capacity : Nat) : Sound (empty capacity : Table κ ν) := by
  constructor
  · simp [keys, Table.empty]
  · simp [size, Table.empty]
  · simp only [Table.empty]
    omega

/-- A table with no more than the entries of a sound one is sound. -/
theorem Sound.of_le {t' : Table κ ν} (h : t.Sound) (hcapacity : t'.capacity = t.capacity)
    (hle : (t'.entries : Multiset (κ × ν)) ≤ t.entries) : t'.Sound := by
  constructor
  · have hkeys : (t'.keys : Multiset κ) ≤ t.keys := Multiset.map_le_map hle
    exact Multiset.coe_nodup.mp (Multiset.nodup_of_le hkeys (Multiset.coe_nodup.mpr h.nodup))
  · have hcard := Multiset.card_le_card hle
    have hbounded := h.bounded
    simp only [Multiset.coe_card] at hcard
    simp only [size] at hbounded ⊢
    omega
  · rw [hcapacity]
    exact h.positive

theorem Sound.clear (h : t.Sound) : t.clear.1.Sound :=
  ⟨List.nodup_nil, Nat.zero_le _, h.positive⟩

variable [DecidableEq κ]

/-! ## Entries of one key -/

/-- A key that is not found is the key of no entry. -/
theorem peek?_eq_none (h : t.peek? key = none) : ∀ x ∈ t.entries, x.1 ≠ key := by
  simpa [peek?] using h

/-- What is found under a key is an entry with this key. -/
theorem mem_of_peek? (h : t.peek? key = some value) : (key, value) ∈ t.entries := by
  obtain ⟨⟨k, v⟩, hfind, rfl⟩ := Option.map_eq_some_iff.mp h
  have hkey : k = key := by simpa using List.find?_some hfind
  rw [← hkey]
  exact List.mem_of_find?_eq_some hfind

/-- What is found under a key is its entry. -/
theorem peek?_of_mem (h : t.keys.Nodup) (hmem : (key, value) ∈ t.entries) :
    t.peek? key = some value := by
  cases hpeek : t.peek? key with
  | none => exact absurd rfl (peek?_eq_none hpeek _ hmem)
  | some v =>
      have hsame := List.inj_on_of_nodup_map h (mem_of_peek? hpeek) hmem rfl
      rw [(Prod.mk.inj hsame).2]

/-- A table contains the keys of its entries. -/
theorem contains_iff_mem_keys : t.contains key = true ↔ key ∈ t.keys := by
  simp [contains, peek?, keys]

/-- The values are listed in the order of their keys. -/
theorem map_values (h : t.keys.Nodup) : t.values.map some = t.keys.map t.peek? := by
  rw [values, keys, List.map_map, List.map_map]
  exact List.map_congr_left fun x hx => (peek?_of_mem h hx).symm

/-- A key without an entry is not among the others. -/
theorem others_of_none (h : t.peek? key = none) : t.others key = t.entries := by
  simpa [others] using peek?_eq_none h

theorem nodup_others (h : t.keys.Nodup) (key : κ) : ((t.others key).map Prod.fst).Nodup :=
  h.sublist (List.filter_sublist.map Prod.fst)

theorem notMem_others (t : Table κ ν) (key : κ) : key ∉ (t.others key).map Prod.fst := by
  simp [others]

/-- The others are what stands in front of the entry of a key and what stands behind it. -/
theorem others_of_split {front back : List (κ × ν)} (h : t.keys.Nodup)
    (hsplit : t.entries = front ++ (key, value) :: back) : t.others key = front ++ back := by
  simp only [keys, hsplit, List.map_append, List.map_cons] at h
  obtain ⟨-, hback, hdisjoint⟩ := List.nodup_append.mp h
  have hfront : ∀ x ∈ front, x.1 ≠ key := fun x hx =>
    hdisjoint _ (List.mem_map_of_mem hx) _ List.mem_cons_self
  have hback : ∀ x ∈ back, x.1 ≠ key := fun x hx hkey =>
    (List.nodup_cons.mp hback).1 (hkey ▸ List.mem_map_of_mem hx)
  simp only [others, hsplit, List.filter_append, List.filter_cons]
  simp only [ne_eq, not_true_eq_false, decide_false, Bool.false_eq_true, if_false]
  rw [List.filter_eq_self.mpr (by simpa using hfront),
    List.filter_eq_self.mpr (by simpa using hback)]

/-- The entries are the one of the key, if it has one, and those of the others. -/
theorem coe_entries (h : t.keys.Nodup) (key : κ) :
    (t.entries : Multiset (κ × ν)) =
      ((t.peek? key).toList.map (key, ·) : List (κ × ν)) + (t.others key : List (κ × ν)) := by
  cases hpeek : t.peek? key with
  | none => simp [others_of_none hpeek]
  | some value =>
      obtain ⟨front, back, hsplit⟩ := List.append_of_mem (mem_of_peek? hpeek)
      rw [others_of_split h hsplit, hsplit]
      simp only [Option.toList_some, List.map_cons, List.map_nil, Multiset.coe_add]
      exact Multiset.coe_eq_coe.mpr List.perm_middle

/-- Without a key that is in it a table has fewer entries. -/
theorem size_others_lt (h : key ∈ t.keys) : (t.others key).length < t.size := by
  obtain ⟨x, hx, hkey⟩ := List.mem_map.mp h
  refine List.length_filter_lt_length_iff_exists.mpr ⟨x, hx, ?_⟩
  simpa using hkey

theorem size_others_le (t : Table κ ν) (key : κ) : (t.others key).length ≤ t.size :=
  List.length_filter_le _ _

/-- The other entries are found as before. -/
theorem peek?_others (t : Table κ ν) (key key' : κ) :
    ({ t with entries := t.others key } : Table κ ν).peek? key' =
      if key' = key then none else t.peek? key' := by
  simp only [peek?, others, List.find?_filter]
  split
  · next hkey =>
      subst hkey
      rw [Option.map_eq_none_iff, List.find?_eq_none]
      simp
  · next hkey =>
      congr 2
      funext x
      by_cases hx : x.1 = key' <;> simp_all

/-! ## Finding -/

/-- Looking a key up loses and adds no entry. -/
theorem coe_entries_get? (h : t.keys.Nodup) (key : κ) :
    ((t.get? key).1.entries : Multiset (κ × ν)) = t.entries := by
  rw [coe_entries h key]
  unfold get?
  cases hpeek : t.peek? key with
  | none => simp [others_of_none hpeek]
  | some value => simp

theorem capacity_get? (t : Table κ ν) (key : κ) : (t.get? key).1.capacity = t.capacity := by
  unfold get?
  split <;> rfl

theorem size_get?_le (t : Table κ ν) (key : κ) : (t.get? key).1.size ≤ t.size := by
  unfold get?
  cases hpeek : t.peek? key with
  | none => exact Nat.le_refl _
  | some value =>
      have hlt := size_others_lt (List.mem_map_of_mem (f := Prod.fst) (mem_of_peek? hpeek))
      simp only [size, List.length_append, List.length_singleton] at hlt ⊢
      omega

/-- Looking a key up keeps a table sound. -/
theorem Sound.get? (h : t.Sound) (key : κ) : (t.get? key).1.Sound :=
  h.of_le (capacity_get? t key) (coe_entries_get? h.nodup key).le

/-! ## Storing -/

/-- A table whose entry of a key is the most recent one, before anything leaves it. -/
def full (t : Table κ ν) (key : κ) (value : ν) : Table κ ν :=
  { t with entries := t.others key ++ [(key, value)] }

/-- Storing an entry leaves no second one under its key. -/
theorem nodup_full (h : t.keys.Nodup) (key : κ) (value : ν) : (t.full key value).keys.Nodup := by
  have hnew := notMem_others t key
  simp only [keys, full, List.map_append, List.map_cons, List.map_nil]
  rw [List.nodup_append]
  refine ⟨nodup_others h key, by simp, ?_⟩
  intro a ha b hb hab
  rw [List.mem_singleton.mp hb] at hab
  exact hnew (hab ▸ ha)

/-- Before the table is cut to its size, a stored entry is found under its key and the others as
before. -/
theorem peek?_full (t : Table κ ν) (key : κ) (value : ν) (key' : κ) :
    (t.full key value).peek? key' = if key' = key then some value else t.peek? key' := by
  have hothers := peek?_others t key key'
  simp only [peek?, full, List.find?_append, Option.map_or] at hothers ⊢
  rw [hothers]
  split
  · next hkey =>
      subst hkey
      simp
  · next hkey => simp [Ne.symm hkey]

/-- Looking a key up changes nothing about what is found. -/
theorem peek?_get? (t : Table κ ν) (key key' : κ) : (t.get? key).1.peek? key' = t.peek? key' := by
  unfold get?
  cases hpeek : t.peek? key with
  | none => rfl
  | some value =>
      refine (peek?_full t key value key').trans ?_
      split
      · next hkey => rw [hkey, hpeek]
      · rfl

/-- What was stored under the key has left. -/
theorem coe_entries_full (h : t.keys.Nodup) (key : κ) (value : ν) :
    ((t.full key value).entries : Multiset (κ × ν)) +
        ((t.peek? key).toList.map (key, ·) : List (κ × ν)) = (key, value) ::ₘ t.entries := by
  rw [coe_entries h key, full]
  simp only [← Multiset.coe_add, ← Multiset.cons_coe, Multiset.coe_nil, ← Multiset.singleton_add]
  abel

/-- Nothing has to leave, or the entry that does is one of the full table. -/
theorem put_cases (t : Table κ ν) (early : ν → Bool) (key : κ) (value : ν) :
    (t.full key value).size ≤ t.capacity ∧
        t.put early key value = ⟨t.full key value, t.peek? key, none, []⟩ ∨
      t.capacity < (t.full key value).size ∧ ∃ k v asked, (k, v) ∈ (t.full key value).entries ∧
        t.put early key value =
          ⟨{ t with entries := (t.full key value).others k }, t.peek? key, some (k, v), asked⟩ := by
  by_cases hfits : (t.full key value).size ≤ t.capacity
  · left
    refine ⟨hfits, ?_⟩
    unfold full at hfits
    simp only [put, if_pos hfits, full]
  · right
    refine ⟨by omega, ?_⟩
    obtain ⟨⟨k, v⟩, hvictim, hmem⟩ : ∃ x,
        ((t.full key value).entries.find? (early ·.2)).or (t.full key value).entries.head? =
            some x ∧
          x ∈ (t.full key value).entries := by
      cases hfind : (t.full key value).entries.find? (early ·.2) with
      | some x => exact ⟨x, rfl, List.mem_of_find?_eq_some hfind⟩
      | none =>
          cases hentries : (t.full key value).entries with
          | nil => simp [full] at hentries
          | cons x rest => exact ⟨x, rfl, List.mem_cons_self⟩
    refine ⟨k, v, askInTurn early (t.full key value).values, hmem, ?_⟩
    unfold full at hfits hvictim
    simp only [put, if_neg hfits, hvictim, full]

/-- **Balance**: what a stored entry drives out and what the table has then are what it had before,
and the new entry. -/
theorem coe_entries_put (h : t.keys.Nodup) (early : ν → Bool) (key : κ) (value : ν) :
    ((t.put early key value).table.entries : Multiset (κ × ν)) +
      ((t.put early key value).leaving key : List (κ × ν)) = (key, value) ::ₘ t.entries := by
  rw [← coe_entries_full h key value]
  cases put_cases t early key value with
  | inl hfits =>
      obtain ⟨-, hput⟩ := hfits
      rw [hput]
      simp only [Stored.leaving, Option.toList_none, List.append_nil, Option.toList_map]
  | inr hover =>
      obtain ⟨-, k, v, asked, hmem, hput⟩ := hover
      have hnodup := nodup_full h key value
      rw [hput, coe_entries hnodup k, peek?_of_mem hnodup hmem]
      simp only [Stored.leaving, Option.toList_some, List.map_cons, List.map_nil,
        Option.toList_map, ← Multiset.coe_add]
      abel

/-- An entry that finds room drives nothing out. -/
theorem put_of_room (h : t.size + 1 ≤ t.capacity) (early : ν → Bool) (key : κ) (value : ν) :
    t.put early key value = ⟨t.full key value, t.peek? key, none, []⟩ := by
  have hothers := size_others_le t key
  have hfull : (t.full key value).size = (t.others key).length + 1 := by simp [size, full]
  cases put_cases t early key value with
  | inl hfits => exact hfits.2
  | inr hover =>
      have hlt := hover.1
      omega

/-- Storing an entry adds one entry at most. -/
theorem size_put_le (t : Table κ ν) (early : ν → Bool) (key : κ) (value : ν) :
    (t.put early key value).table.size ≤ t.size + 1 := by
  have hothers := size_others_le t key
  have hfull : (t.full key value).size = (t.others key).length + 1 := by simp [size, full]
  cases put_cases t early key value with
  | inl hfits =>
      rw [hfits.2, hfull]
      omega
  | inr hover =>
      obtain ⟨-, k, v, asked, -, hput⟩ := hover
      have hleft := size_others_le (t.full key value) k
      rw [hput]
      simp only [size] at hothers hleft hfull ⊢
      omega

theorem capacity_put (t : Table κ ν) (early : ν → Bool) (key : κ) (value : ν) :
    (t.put early key value).table.capacity = t.capacity := by
  cases put_cases t early key value with
  | inl hfits => rw [hfits.2]; rfl
  | inr hover =>
      obtain ⟨-, k, v, asked, -, hput⟩ := hover
      rw [hput]

/-- Storing an entry keeps a table sound. -/
theorem Sound.put (h : t.Sound) (early : ν → Bool) (key : κ) (value : ν) :
    (t.put early key value).table.Sound := by
  have hnodup := nodup_full h.nodup key value
  have hothers := size_others_le t key
  have hbounded := h.bounded
  have hfull : (t.full key value).size = (t.others key).length + 1 := by simp [size, full]
  cases put_cases t early key value with
  | inl hfits =>
      obtain ⟨hsize, hput⟩ := hfits
      rw [hput]
      exact ⟨hnodup, hsize, h.positive⟩
  | inr hover =>
      obtain ⟨-, k, v, asked, hmem, hput⟩ := hover
      have hlt := size_others_lt (t := t.full key value) (List.mem_map_of_mem (f := Prod.fst) hmem)
      rw [hput]
      refine ⟨nodup_others hnodup k, ?_, h.positive⟩
      simp only [size] at hlt hfull hbounded hothers ⊢
      omega

/-- An entry that may not go early stays when it is stored. -/
theorem mem_put (h : t.Sound) {early : ν → Bool} (hearly : early value = false)
    (key : κ) : (key, value) ∈ (t.put early key value).table.entries := by
  have hnew : (key, value) ∈ (t.full key value).entries :=
    List.mem_append_right _ (List.mem_singleton.mpr rfl)
  unfold put
  simp only
  split
  · exact hnew
  · next hover =>
      have hsize : (t.others key).length ≠ 0 := by
        have hpositive := h.positive
        simp only [size, List.length_append, List.length_singleton] at hover
        omega
      split
      · next k v hvictim =>
          have hk : k ≠ key := by
            rintro rfl
            have hothers := notMem_others t k
            cases hfind : (t.full k value).entries.find? (early ·.2) with
            | some x =>
                simp only [full] at hfind
                rw [hfind, Option.some_or] at hvictim
                cases hvictim
                have hgone := List.find?_some hfind
                cases List.mem_append.mp (List.mem_of_find?_eq_some hfind) with
                | inl hold => exact hothers (List.mem_map_of_mem (f := Prod.fst) hold)
                | inr hlast =>
                    cases List.mem_singleton.mp hlast
                    exact Bool.false_ne_true (hearly.symm.trans hgone)
            | none =>
                simp only [full] at hfind
                rw [hfind, Option.none_or, List.head?_append] at hvictim
                cases hentries : t.others k with
                | nil => exact hsize (by rw [hentries]; rfl)
                | cons x rest =>
                    rw [hentries] at hvictim hothers
                    cases hvictim
                    exact hothers List.mem_cons_self
          exact List.mem_filter.mpr ⟨hnew, by simpa using Ne.symm hk⟩
      · exact hnew

/-! ## Removing -/

/-- What is removed and what stays are the entries that there were. -/
theorem coe_entries_remove (h : t.keys.Nodup) (key : κ) :
    ((t.remove key).1.entries : Multiset (κ × ν)) +
      ((t.remove key).2.toList.map (key, ·) : List (κ × ν)) = t.entries := by
  rw [coe_entries h key, remove]
  abel

/-- What is removed because it was wanted and what stays are the entries that there were. -/
theorem coe_entries_removeIf (h : t.keys.Nodup) (key : κ) (wanted : ν → Bool) :
    ((t.removeIf key wanted).1.entries : Multiset (κ × ν)) +
      ((t.removeIf key wanted).2.toList.map (key, ·) : List (κ × ν)) = t.entries := by
  unfold removeIf
  cases t.peek? key with
  | none => simp
  | some value =>
      simp only
      split
      · exact coe_entries_remove h key
      · simp

/-- An entry that is not wanted stays, and so do all others. -/
theorem removeIf_of_unwanted {t : Table κ ν} {key : κ} {wanted : ν → Bool}
    (h : ∀ value, t.peek? key = some value → wanted value = false) :
    t.removeIf key wanted = (t, none) := by
  unfold removeIf
  split
  · next value hvalue => rw [if_neg (by simp [h value hvalue])]
  · rfl

theorem capacity_removeIf (t : Table κ ν) (key : κ) (wanted : ν → Bool) :
    (t.removeIf key wanted).1.capacity = t.capacity := by
  unfold removeIf
  split
  · split <;> rfl
  · rfl

/-- An entry is removed if it is wanted, and the others are found as before. -/
theorem peek?_removeIf (t : Table κ ν) (key : κ) (wanted : ν → Bool) (key' : κ) :
    (t.removeIf key wanted).1.peek? key' =
      if key' = key then (t.peek? key).filter (!wanted ·) else t.peek? key' := by
  unfold removeIf
  cases hpeek : t.peek? key with
  | none =>
      simp only
      split
      · next hkey => rw [hkey, hpeek]; rfl
      · rfl
  | some value =>
      simp only
      split
      · next hwanted =>
          rw [Option.filter_some_neg (by simp [hwanted])]
          exact peek?_others t key key'
      · next hwanted =>
          rw [Option.filter_some_pos (by simp [hwanted])]
          split
          · next hkey => rw [hkey, hpeek]
          · rfl

theorem size_removeIf_le (t : Table κ ν) (key : κ) (wanted : ν → Bool) :
    (t.removeIf key wanted).1.size ≤ t.size := by
  unfold removeIf
  split
  · split
    · exact size_others_le t key
    · exact Nat.le_refl _
  · exact Nat.le_refl _

theorem Sound.remove (h : t.Sound) (key : κ) : (t.remove key).1.Sound :=
  h.of_le rfl (Multiset.le_iff_exists_add.mpr ⟨_, (coe_entries_remove h.nodup key).symm⟩)

/-- Removing a wanted entry keeps a table sound. -/
theorem Sound.removeIf (h : t.Sound) (key : κ) (wanted : ν → Bool) :
    (t.removeIf key wanted).1.Sound :=
  h.of_le (capacity_removeIf t key wanted)
    (Multiset.le_iff_exists_add.mpr ⟨_, (coe_entries_removeIf h.nodup key wanted).symm⟩)

end FlowRelay.Table
