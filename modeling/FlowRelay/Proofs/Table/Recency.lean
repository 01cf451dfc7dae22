import Mathlib.Data.List.Induction
import FlowRelay.Proofs.Table.Entries

/-!
# FlowRelay.Proofs.Table.Recency

The order of a table as a matter of its history.

1. *Requests* (`Request`, `step`, `run`): whatever may be asked of a table, one request after the
   other.
2. *Steps* (`step_of_quiet`, `entries_step`): a request moves the entry that it uses behind the
   others and takes entries out, and does nothing else to a table.
3. *Uses* (`Last`, `Uses`, `Stores`): the last request of a history that stored or found a key, and
   the last one that stored it.
4. *Histories* (`exists_last_use`, `exists_last_store`, `pairwise_last_use`): what one more request
   makes of those times.
5. *Recency* (`run_recency`): the values are those that were stored last, listed in the order of the
   last uses of their keys.
-/

namespace FlowRelay.Table

/-! ## Requests -/

/-- What may be asked of a table.  Whether a value may go early, or is the wanted one, may differ
from request to request, as the state behind the values changes. -/
inductive Request (κ ν : Type) where
  | put (early : ν → Bool) (key : κ) (value : ν)
  | get (key : κ)
  | contains (key : κ)
  | remove (key : κ)
  | close (key : κ)
  | closeIf (key : κ) (wanted : ν → Bool)
  | closeAll
  | values
  | size
  | isEmpty
  | capacity
  | debugText

variable {κ ν : Type} [DecidableEq κ] {t start : Table κ ν} {r : Request κ ν} {key : κ} {value : ν}

/-- The table after a request. -/
def step (t : Table κ ν) : Request κ ν → Table κ ν
  | .put early key value => (t.put early key value).table
  | .get key => (t.get? key).1
  | .remove key => (t.remove key).1
  | .close key => (t.remove key).1
  | .closeIf key wanted => (t.removeIf key wanted).1
  | .closeAll => t.clear.1
  | .contains _ | .values | .size | .isEmpty | .capacity | .debugText => t

/-- The table after one request after the other. -/
def run (t : Table κ ν) (requests : List (Request κ ν)) : Table κ ν := requests.foldl step t

theorem run_append_singleton (t : Table κ ν) (requests : List (Request κ ν)) (r : Request κ ν) :
    t.run (requests ++ [r]) = (t.run requests).step r := by
  rw [run, List.foldl_append, List.foldl_cons, List.foldl_nil, run]

/-- The entry that a request uses: the one that it stores, or that it looks for and finds. -/
def used? (t : Table κ ν) : Request κ ν → Option (κ × ν)
  | .put _ key value => some (key, value)
  | .get key => (t.peek? key).map (key, ·)
  | _ => none

/-- The keys whose entries a request takes out. -/
def gone (t : Table κ ν) : Request κ ν → List κ
  | .put early key value => ((t.put early key value).evicted.map Prod.fst).toList
  | .remove key | .close key => [key]
  | .closeIf key wanted => if (t.peek? key).any wanted then [key] else []
  | .closeAll => t.keys
  | _ => []

/-- The entries with the one that a request uses behind all others. -/
def turned (t : Table κ ν) (r : Request κ ν) : List (κ × ν) :=
  match t.used? r with
  | none => t.entries
  | some (key, value) => t.others key ++ [(key, value)]

/-- Requests that only look, that look for what is not there, or that want another value than the
one that is there. -/
def Quiet (t : Table κ ν) : Request κ ν → Prop
  | .contains _ | .values | .size | .isEmpty | .capacity | .debugText => True
  | .get key => t.contains key = false
  | .closeIf key wanted => ∀ value, t.peek? key = some value → wanted value = false
  | .put _ _ _ | .remove _ | .close _ | .closeAll => False

/-! ## Steps -/

theorem Sound.step (h : t.Sound) (r : Request κ ν) : (t.step r).Sound := by
  cases r with
  | put early key value => exact h.put early key value
  | get key => exact h.get? key
  | remove key => exact h.remove key
  | close key => exact h.remove key
  | closeIf key wanted => exact h.removeIf key wanted
  | closeAll => exact h.clear
  | _ => exact h

theorem Sound.run (h : t.Sound) (requests : List (Request κ ν)) : (t.run requests).Sound := by
  induction requests generalizing t with
  | nil => exact h
  | cons r rest ih => exact ih (h.step r)

/-- A quiet request leaves the table as it is. -/
theorem step_of_quiet (h : t.Quiet r) : t.step r = t := by
  cases r with
  | get key =>
      have hpeek : t.peek? key = none := by simpa [Quiet, contains] using h
      rw [step, get?, hpeek]
  | closeIf key wanted => exact congrArg Prod.fst (removeIf_of_unwanted h)
  | put early key value => exact h.elim
  | remove key => exact h.elim
  | close key => exact h.elim
  | closeAll => exact h.elim
  | _ => rfl

/-- **Steps**: a request puts the entry that it uses behind the others and takes entries out. -/
theorem entries_step (t : Table κ ν) (r : Request κ ν) :
    (t.step r).entries = (t.turned r).filter (·.1 ∉ t.gone r) := by
  -- What takes nothing out leaves the entries as it turned them.
  have hnone : ∀ entries : List (κ × ν), entries.filter (·.1 ∉ ([] : List κ)) = entries := by
    simp
  cases r with
  | put early key value =>
      cases put_cases t early key value with
      | inl hfits =>
          rw [step, gone, hfits.2]
          exact (hnone _).symm
      | inr hover =>
          obtain ⟨-, k, v, asked, -, hput⟩ := hover
          rw [step, gone, hput]
          simp [turned, used?, others, full]
  | get key =>
      refine Eq.trans ?_ (hnone _).symm
      simp only [step, get?, turned, used?]
      cases t.peek? key <;> rfl
  | remove key => simp [step, remove, others, gone, turned, used?]
  | close key => simp [step, remove, others, gone, turned, used?]
  | closeIf key wanted =>
      cases hpeek : t.peek? key with
      | none => simp [step, removeIf, gone, turned, used?, hpeek]
      | some value =>
          cases hwanted : wanted value <;>
            simp [step, removeIf, remove, others, gone, turned, used?, hpeek, hwanted]
  | closeAll =>
      have hall : t.entries.filter (·.1 ∉ t.keys) = [] :=
        List.filter_eq_nil_iff.mpr fun x hx hnot =>
          of_decide_eq_true hnot (List.mem_map_of_mem hx)
      exact hall.symm
  | _ => exact (hnone _).symm

theorem keys_step_sublist (t : Table κ ν) (r : Request κ ν) :
    List.Sublist (t.step r).keys ((t.turned r).map Prod.fst) := by
  rw [keys, entries_step]
  exact List.filter_sublist.map Prod.fst

/-- A request that uses no entry keeps the order. -/
theorem turned_of_unused (h : t.used? r = none) : t.turned r = t.entries := by
  rw [turned, h]

/-- A request that uses an entry keeps the order of the others. -/
theorem turned_of_used (h : t.used? r = some (key, value)) :
    t.turned r = t.others key ++ [(key, value)] := by
  rw [turned, h]

theorem mem_turned {x : κ × ν} (h : x ∈ t.turned r) :
    t.used? r = some x ∨ x ∈ t.entries ∧ ∀ y, t.used? r = some y → y.1 ≠ x.1 := by
  cases hused : t.used? r with
  | none =>
      rw [turned_of_unused hused] at h
      exact .inr ⟨h, fun y hy => nomatch hy⟩
  | some y =>
      rw [turned_of_used hused, List.mem_append, List.mem_singleton, others, List.mem_filter] at h
      cases h with
      | inl hother =>
          refine .inr ⟨hother.1, fun z hz => ?_⟩
          cases hz
          exact fun hkey => of_decide_eq_true hother.2 hkey.symm
      | inr hsame => exact .inl (hsame ▸ rfl)

/-! ## Uses -/

/-- The request of a history at some time, made of the table as it was then, is such. -/
def At (t : Table κ ν) (requests : List (Request κ ν)) (p : Table κ ν → Request κ ν → Prop)
    (i : Nat) : Prop :=
  ∃ r, requests[i]? = some r ∧ p (t.run (requests.take i)) r

/-- The last request of a history that is such. -/
structure Last (t : Table κ ν) (requests : List (Request κ ν))
    (p : Table κ ν → Request κ ν → Prop) (i : Nat) : Prop where
  holds : t.At requests p i
  last : ∀ j, i < j → ¬ t.At requests p j

/-- A request that stores a key, or looks for it and finds it. -/
def Uses (key : κ) (t : Table κ ν) (r : Request κ ν) : Prop :=
  ∃ value, t.used? r = some (key, value)

/-- A request that stores a key. -/
def Stores (key : κ) (_ : Table κ ν) (r : Request κ ν) : Prop :=
  ∃ early value, r = .put early key value

section

variable {requests : List (Request κ ν)} {p : Table κ ν → Request κ ν → Prop} {i : Nat}

theorem At.lt (h : t.At requests p i) : i < requests.length := by
  obtain ⟨r, hr, -⟩ := h
  exact (List.getElem?_eq_some_iff.mp hr).1

/-- One more request has no part in what was before it. -/
theorem at_append_iff_of_lt (h : i < requests.length) :
    t.At (requests ++ [r]) p i ↔ t.At requests p i := by
  rw [At, At, List.getElem?_append_left h, List.take_append_of_le_length (Nat.le_of_lt h)]

theorem at_append_length_iff : t.At (requests ++ [r]) p requests.length ↔ p (t.run requests) r := by
  rw [At, List.getElem?_concat_length, List.take_left]
  simp

/-- The last such request stays the last one in front of others. -/
theorem Last.append (h : t.Last requests p i) (hr : ¬ p (t.run requests) r) :
    t.Last (requests ++ [r]) p i where
  holds := (at_append_iff_of_lt h.holds.lt).mpr h.holds
  last j hij hat := by
    have hlt := hat.lt
    rw [List.length_append, List.length_singleton, Nat.lt_succ_iff_lt_or_eq] at hlt
    rcases hlt with hlt | rfl
    · exact h.last j hij ((at_append_iff_of_lt hlt).mp hat)
    · exact hr (at_append_length_iff.mp hat)

theorem Last.of_last (hr : p (t.run requests) r) : t.Last (requests ++ [r]) p requests.length where
  holds := at_append_length_iff.mpr hr
  last j hij hat := by
    have hlt := hat.lt
    rw [List.length_append, List.length_singleton] at hlt
    omega

end

/-! ## Histories -/

/-- A key that is there without having been used by a request was there before it. -/
theorem mem_keys_of_step (h : key ∈ (t.step r).keys) (hr : ¬ Uses key t r) : key ∈ t.keys := by
  obtain ⟨⟨k, value⟩, hmem, rfl⟩ := List.mem_map.mp ((keys_step_sublist t r).subset h)
  cases mem_turned hmem with
  | inl hused => exact absurd ⟨value, hused⟩ hr
  | inr hold => exact List.mem_map_of_mem hold.1

/-- A value that is there was just stored, or was there before and nothing else was stored in its
place. -/
theorem mem_entries_of_step (h : (key, value) ∈ (t.step r).entries) :
    (∃ early, r = .put early key value) ∨ (key, value) ∈ t.entries ∧ ¬ Stores key t r := by
  rw [entries_step] at h
  cases mem_turned (List.mem_filter.mp h).1 with
  | inl hused =>
      cases r with
      | put early k v =>
          cases hused
          exact .inl ⟨early, rfl⟩
      | get k =>
          obtain ⟨v, hpeek, hsame⟩ := Option.map_eq_some_iff.mp hused
          cases hsame
          exact .inr ⟨mem_of_peek? hpeek, fun ⟨_, _, hput⟩ => nomatch hput⟩
      | _ => cases hused
  | inr hold =>
      refine .inr ⟨hold.1, ?_⟩
      rintro ⟨early, later, rfl⟩
      exact hold.2 (key, later) rfl rfl

/-- Whatever is there was used, and so there is a last request that used it. -/
theorem exists_last_use (hstart : start.keys = []) {requests : List (Request κ ν)}
    (h : key ∈ (start.run requests).keys) : ∃ i, start.Last requests (Uses key) i := by
  induction requests using List.reverseRecOn with
  | nil => exact absurd h (by simp [run, hstart])
  | append_singleton rest r ih =>
      by_cases hr : Uses key (start.run rest) r
      · exact ⟨_, .of_last hr⟩
      · rw [run_append_singleton] at h
        obtain ⟨i, hlast⟩ := ih (mem_keys_of_step h hr)
        exact ⟨i, hlast.append hr⟩

/-- Every value is the one that was stored last under its key. -/
theorem exists_last_store (hstart : start.entries = []) {requests : List (Request κ ν)}
    (h : (key, value) ∈ (start.run requests).entries) :
    ∃ i early, requests[i]? = some (.put early key value) ∧
      start.Last requests (Stores key) i := by
  induction requests using List.reverseRecOn with
  | nil => exact absurd h (by simp [run, hstart])
  | append_singleton rest r ih =>
      rw [run_append_singleton] at h
      cases mem_entries_of_step h with
      | inl hstored =>
          obtain ⟨early, rfl⟩ := hstored
          exact ⟨rest.length, early, List.getElem?_concat_length, .of_last ⟨early, value, rfl⟩⟩
      | inr hold =>
          obtain ⟨i, early, hr, hlast⟩ := ih hold.1
          exact ⟨i, early, (List.getElem?_append_left hlast.holds.lt).trans hr, hlast.append hold.2⟩

/-- Whatever stands in front of another key was last used before it. -/
theorem pairwise_last_use (hstart : start.keys = []) (requests : List (Request κ ν)) :
    (start.run requests).keys.Pairwise fun a b =>
      ∃ i j, start.Last requests (Uses a) i ∧ start.Last requests (Uses b) j ∧ i < j := by
  induction requests using List.reverseRecOn with
  | nil => simp [run, hstart]
  | append_singleton rest r ih =>
      -- Keys that the new request does not use keep their times.
      have hkept : ∀ {a b}, ¬ Uses a (start.run rest) r → ¬ Uses b (start.run rest) r →
          (∃ i j, start.Last rest (Uses a) i ∧ start.Last rest (Uses b) j ∧ i < j) →
          ∃ i j, start.Last (rest ++ [r]) (Uses a) i ∧ start.Last (rest ++ [r]) (Uses b) j ∧
            i < j :=
        fun ha hb ⟨i, j, hi, hj, hij⟩ => ⟨i, j, hi.append ha, hj.append hb, hij⟩
      rw [run_append_singleton]
      refine List.Pairwise.sublist (keys_step_sublist _ r) ?_
      cases hused : (start.run rest).used? r with
      | none =>
          have hunused : ∀ a, ¬ Uses a (start.run rest) r :=
            fun a ⟨v, hv⟩ => nomatch hused.symm.trans hv
          rw [turned_of_unused hused]
          exact ih.imp (hkept (hunused _) (hunused _))
      | some x =>
          obtain ⟨key, value⟩ := x
          have hfront : ∀ a ∈ ((start.run rest).others key).map Prod.fst,
              ¬ Uses a (start.run rest) r := by
            rintro a ha ⟨v, hv⟩
            obtain rfl : key = a := (Prod.mk.inj (Option.some.inj (hused.symm.trans hv))).1
            exact notMem_others _ key ha
          have hothers : List.Sublist (((start.run rest).others key).map Prod.fst)
              (start.run rest).keys := List.filter_sublist.map Prod.fst
          rw [turned_of_used hused, List.map_append, List.pairwise_append]
          refine ⟨(ih.sublist hothers).imp_of_mem fun ha hb => hkept (hfront _ ha) (hfront _ hb),
            List.pairwise_singleton _ _, fun a ha b hb => ?_⟩
          -- The key that is used now stands behind all that were used before.
          obtain rfl := List.mem_singleton.mp hb
          obtain ⟨i, hlast⟩ := exists_last_use hstart (hothers.subset ha)
          exact ⟨i, rest.length, hlast.append (hfront a ha), .of_last ⟨value, hused⟩,
            hlast.holds.lt⟩

/-! ## Recency -/

/-- **Recency**: after any requests, the keys that are there are listed in the order of the last
requests that stored or found them, each with the value that was stored for it last.  Requests that
find nothing, or that only look, leave the table as it is; all others put the entry that they use
behind the others, if they use one, and take entries out without a change in the order of the
rest. -/
theorem run_recency (capacity : Nat) (requests : List (Request κ ν)) :
    let start : Table κ ν := empty capacity
    let t := start.run requests
    (t.keys.Nodup ∧ (∀ key, key ∈ t.keys ↔ t.contains key = true) ∧
      t.values.map some = t.keys.map t.peek?) ∧
    (∀ key ∈ t.keys, ∃ i, start.Last requests (Uses key) i) ∧
    (t.keys.Pairwise fun a b =>
      ∃ i j, start.Last requests (Uses a) i ∧ start.Last requests (Uses b) j ∧ i < j) ∧
    (∀ key value, t.peek? key = some value → ∃ i early,
      requests[i]? = some (.put early key value) ∧ start.Last requests (Stores key) i) ∧
    ∀ r, (t.Quiet r → t.step r = t) ∧
      (t.step r).entries = (t.turned r).filter (·.1 ∉ t.gone r) := by
  intro start t
  have hnodup : t.keys.Nodup := ((Sound.empty capacity).run requests).nodup
  refine ⟨⟨hnodup, fun key => contains_iff_mem_keys.symm, map_values hnodup⟩,
    fun key => exists_last_use rfl, pairwise_last_use rfl requests,
    fun key value hpeek => exists_last_store rfl (mem_of_peek? hpeek),
    fun r => ⟨step_of_quiet, entries_step t r⟩⟩

/-- In a table for three, the first of three keys is found before a fourth is stored, and the second
one is looked for thereafter. -/
def promoted : List (Request Nat Nat) :=
  let late : Nat → Bool := fun _ => false
  [.put late 0 10, .put late 1 11, .put late 2 12, .get 0, .contains 2, .put late 3 13, .get 1]

/-- The second one has made room, the third stands in front of the first, which was last used after
it, and one more look for the second changes nothing. -/
theorem run_recency_of_promoted :
    ((empty 3).run promoted).values = [12, 10, 13] ∧
    (∃ i j, (empty 3).Last promoted (Uses 2) i ∧ (empty 3).Last promoted (Uses 0) j ∧ i < j) ∧
    ((empty 3).run promoted).step (.get 1) = (empty 3).run promoted := by
  obtain ⟨-, -, horder, -, hsteps⟩ := run_recency 3 promoted
  have hkeys : ((empty 3).run promoted).keys = [2, 0, 3] := by decide
  refine ⟨by decide, ?_, (hsteps (.get 1)).1 (by decide : _ = false)⟩
  rw [hkeys, List.pairwise_cons] at horder
  exact horder.1 0 (by decide)

end FlowRelay.Table
