import Mathlib.Data.List.Range
import FlowRelay.Proofs.Table.Entries

/-!
# FlowRelay.Proofs.Table.Sharing

A table that any number of callers share.

An operation holds the lock of the table for one step.  The entries that it takes out to be cleaned
up are cleaned up by its caller afterwards, one step for each of them, and the steps of other
callers come in between as they like.

1. *Books* (`Books`): every value that was put is told apart from equal ones, and is in one place:
   in the table, with the caller that took it out, cleaned up, or left to a caller to be cleaned
   up.
2. *Steps* (`Books.lock`, `Books.clean`): no step loses a value or counts it twice.
3. *Runs* (`run_accounts`): so the books are in order whatever the callers do.
-/

namespace FlowRelay

/-- A value as it was put at some time, which tells it apart from equal values put at others. -/
structure Instance (ν : Type) where
  number : Nat
  value : ν
  deriving DecidableEq, Repr

/-- What a caller may ask of a table.  Whether a value may go early, or is the wanted one, may hang
on more than the value: the state behind it changes with time. -/
inductive Operation (κ ν : Type) where
  | get (key : κ)
  | contains (key : κ)
  | put (early : Instance ν → Bool) (key : κ) (value : ν)
  | remove (key : κ)
  | close (key : κ)
  | closeIf (key : κ) (wanted : Instance ν → Bool)
  | closeAll

/-- A step of a caller. -/
inductive Move (κ ν : Type) where
  /-- A caller that has nothing left to clean up runs the locked part of an operation. -/
  | lock (caller : Nat) (operation : Operation κ ν)
  /-- A caller cleans up the next entry that its operation has taken out. -/
  | clean (caller : Nat)

/-- A shared table, and what became of the values that were put. -/
structure Shared (κ ν : Type) where
  table : Table κ (Instance ν)
  /-- Every entry that was ever put. -/
  brought : List (κ × Instance ν)
  /-- The entries that were taken out and handed to their callers. -/
  removed : List (κ × Instance ν)
  /-- The entries that were cleaned up, once for each cleanup. -/
  cleaned : List (κ × Instance ν)
  /-- The entries that are still to be cleaned up, each with the caller that has to do it. -/
  owed : List (Nat × κ × Instance ν)

namespace Shared

variable {κ ν : Type} {s : Shared κ ν} {capacity : Nat}

/-- A table that nobody has used yet. -/
def empty (capacity : Nat) : Shared κ ν := ⟨.empty capacity, [], [], [], []⟩

/-- Leave entries to a caller to be cleaned up. -/
def leave (s : Shared κ ν) (caller : Nat) (entries : List (κ × Instance ν)) : Shared κ ν :=
  { s with owed := s.owed ++ entries.map (caller, ·) }

/-- A caller cleans up the next entry that it has to. -/
def clean (s : Shared κ ν) (caller : Nat) : Shared κ ν :=
  match s.owed.find? (·.1 = caller) with
  | none => s
  | some (_, x) =>
    { s with cleaned := s.cleaned ++ [x], owed := s.owed.eraseP (·.1 = caller) }

/-! ## Books -/

/-- Where the entries are that were put. -/
def whereabouts (s : Shared κ ν) : Multiset (κ × Instance ν) :=
  (s.table.entries : Multiset (κ × Instance ν)) + s.removed + s.cleaned +
    (s.owed.map Prod.snd : List (κ × Instance ν))

/-- The books of a shared table are in order. -/
structure Books (capacity : Nat) (s : Shared κ ν) : Prop where
  sound : s.table.Sound
  capacity : s.table.capacity = max capacity 1
  /-- The instances are numbered in the order in which they came. -/
  numbers : s.brought.map (·.2.number) = List.range s.brought.length
  balance : (s.brought : Multiset (κ × Instance ν)) = s.whereabouts

theorem Books.empty (capacity : Nat) : (Shared.empty capacity : Shared κ ν).Books capacity where
  sound := .empty capacity
  capacity := rfl
  numbers := rfl
  balance := rfl

/-- No two places have the same instance. -/
theorem Books.nodup (h : s.Books capacity) : (s.whereabouts.map (·.2.number)).Nodup := by
  rw [← h.balance, Multiset.map_coe, Multiset.coe_nodup, h.numbers]
  exact List.nodup_range

/-- What was cleaned up is nowhere else. -/
theorem Books.number_ne (h : s.Books capacity) {x y : κ × Instance ν} (hx : x ∈ s.cleaned)
    (hy : y ∈ s.table.entries ∨ y ∈ s.removed) : x.2.number ≠ y.2.number := by
  have hnodup := h.nodup
  have hsplit : s.whereabouts = (s.table.entries ++ s.removed : List (κ × Instance ν)) +
      (s.cleaned ++ s.owed.map Prod.snd : List (κ × Instance ν)) := by
    simp only [whereabouts, ← Multiset.coe_add]
    abel
  rw [hsplit, Multiset.map_add, Multiset.nodup_add] at hnodup
  intro hnumber
  have hyhere := Multiset.mem_map_of_mem (·.2.number)
    (show y ∈ ((s.table.entries ++ s.removed : List _) : Multiset _) by simpa using hy)
  have hxthere := Multiset.mem_map_of_mem (·.2.number)
    (show x ∈ ((s.cleaned ++ s.owed.map Prod.snd : List _) : Multiset _) by simp [hx])
  exact Multiset.disjoint_left.mp hnodup.2.2 hyhere (hnumber ▸ hxthere)

theorem whereabouts_leave (s : Shared κ ν) (caller : Nat) (entries : List (κ × Instance ν)) :
    (s.leave caller entries).whereabouts = s.whereabouts + entries := by
  have hsnd : (entries.map (caller, ·)).map Prod.snd = entries := by simp
  simp only [whereabouts, leave, List.map_append, hsnd, ← Multiset.coe_add, add_assoc]

/-! ## Steps -/

/-- A cleanup moves one entry from those still to be cleaned up to those that were. -/
theorem Books.clean (h : s.Books capacity) (caller : Nat) : (s.clean caller).Books capacity := by
  obtain ⟨hsound, hcapacity, hnumbers, hbalance⟩ := h
  unfold Shared.clean
  cases hfind : s.owed.find? (·.1 = caller) with
  | none => exact ⟨hsound, hcapacity, hnumbers, hbalance⟩
  | some next =>
      obtain ⟨_, x⟩ := next
      obtain ⟨hcaller, front, back, hsplit, hfront⟩ := List.find?_eq_some_iff_append.mp hfind
      have herase : s.owed.eraseP (·.1 = caller) = front ++ back := by
        rw [hsplit, List.eraseP_append_right _ (by simpa using hfront)]
        simp_all
      refine ⟨hsound, hcapacity, hnumbers, ?_⟩
      rw [hbalance]
      simp only [whereabouts, herase]
      rw [hsplit]
      simp only [List.map_append, List.map_cons, ← Multiset.coe_add, ← Multiset.cons_coe,
        ← Multiset.singleton_add, Multiset.coe_nil]
      abel

variable [DecidableEq κ]

/-- The locked part of an operation. -/
def lock (s : Shared κ ν) (caller : Nat) : Operation κ ν → Shared κ ν
  | .get key => { s with table := (s.table.get? key).1 }
  | .contains _ => s
  | .put early key value =>
    let x : Instance ν := ⟨s.brought.length, value⟩
    let stored := s.table.put early key x
    { s with table := stored.table, brought := s.brought ++ [(key, x)] }.leave caller
      (stored.leaving key)
  | .remove key =>
    let (table, found) := s.table.remove key
    { s with table, removed := s.removed ++ found.toList.map (key, ·) }
  | .close key =>
    let (table, found) := s.table.remove key
    { s with table }.leave caller (found.toList.map (key, ·))
  | .closeIf key wanted =>
    let (table, found) := s.table.removeIf key wanted
    { s with table }.leave caller (found.toList.map (key, ·))
  | .closeAll =>
    let (table, entries) := s.table.clear
    { s with table }.leave caller entries

/-- Take a step.  A caller that has something left to clean up does that first. -/
def step (s : Shared κ ν) : Move κ ν → Shared κ ν
  | .lock caller operation =>
    if s.owed.any (·.1 = caller) then s else s.lock caller operation
  | .clean caller => s.clean caller

/-- Take steps one after the other. -/
def run (s : Shared κ ν) (moves : List (Move κ ν)) : Shared κ ν := moves.foldl step s

/-- A locked part keeps the books in order: what leaves the table goes to its caller, or is left to
it to be cleaned up. -/
theorem Books.lock (h : s.Books capacity) (caller : Nat) (operation : Operation κ ν) :
    (s.lock caller operation).Books capacity := by
  obtain ⟨hsound, hcapacity, hnumbers, hbalance⟩ := h
  have hnodup := hsound.nodup
  simp only [whereabouts] at hbalance
  cases operation with
  | get key =>
      have hget := Table.coe_entries_get? hnodup key
      refine ⟨hsound.get? key, (Table.capacity_get? _ _).trans hcapacity, hnumbers, ?_⟩
      simp only [Shared.lock, whereabouts]
      rw [hbalance, hget]
  | contains key => exact ⟨hsound, hcapacity, hnumbers, hbalance⟩
  | put early key value =>
      let x : Instance ν := ⟨s.brought.length, value⟩
      have hput := Table.coe_entries_put hnodup early key x
      rw [← Multiset.singleton_add] at hput
      refine ⟨hsound.put early key x, (Table.capacity_put _ _ _ _).trans hcapacity, ?_, ?_⟩
      · simp [Shared.lock, leave, hnumbers, List.range_succ]
      · have hbrought : (s.lock caller (.put early key value)).brought =
            s.brought ++ [(key, x)] := rfl
        rw [hbrought, ← Multiset.coe_add, hbalance, Shared.lock, whereabouts_leave]
        simp only [whereabouts, Multiset.coe_singleton]
        calc _ = ({(key, x)} + (s.table.entries : Multiset (κ × Instance ν))) + s.removed +
              s.cleaned + (s.owed.map Prod.snd : List (κ × Instance ν)) := by abel
          _ = _ := by rw [← hput]; abel
  | remove key =>
      have hremove := Table.coe_entries_remove hnodup key
      refine ⟨hsound.remove key, hcapacity, hnumbers, ?_⟩
      simp only [Shared.lock, whereabouts, ← Multiset.coe_add]
      rw [hbalance, ← hremove]
      abel
  | close key =>
      have hremove := Table.coe_entries_remove hnodup key
      refine ⟨hsound.remove key, hcapacity, hnumbers, ?_⟩
      simp only [Shared.lock, whereabouts_leave]
      simp only [leave, whereabouts]
      rw [hbalance, ← hremove]
      abel
  | closeIf key wanted =>
      have hremove := Table.coe_entries_removeIf hnodup key wanted
      refine ⟨hsound.removeIf key wanted, (Table.capacity_removeIf _ _ _).trans hcapacity,
        hnumbers, ?_⟩
      simp only [Shared.lock, whereabouts_leave]
      simp only [leave, whereabouts]
      rw [hbalance, ← hremove]
      abel
  | closeAll =>
      refine ⟨hsound.clear, hcapacity, hnumbers, ?_⟩
      simp only [Shared.lock, whereabouts_leave]
      simp only [leave, whereabouts, Table.clear, Multiset.coe_nil, zero_add]
      rw [hbalance]
      abel

theorem Books.step (h : s.Books capacity) (move : Move κ ν) : (s.step move).Books capacity := by
  cases move with
  | lock caller operation =>
      simp only [Shared.step]
      split
      · exact h
      · exact h.lock caller operation
  | clean caller => exact h.clean caller

/-! ## Runs -/

theorem Books.run (h : s.Books capacity) (moves : List (Move κ ν)) :
    (s.run moves).Books capacity := by
  induction moves generalizing s with
  | nil => exact h
  | cons move rest ih => exact ih (h.step move)

/-- **Accounts**: whatever any number of callers do, and however their steps come between each
other, the keys in the table differ, no more entries are in it than may be, and every instance that
was ever put is in one place: in the table, taken out by a caller, cleaned up, or still to be
cleaned up.  So nothing is cleaned up twice, or while it is in the table, or after it was taken
out. -/
theorem run_accounts (capacity : Nat) (moves : List (Move κ ν)) :
    let s := (empty capacity : Shared κ ν).run moves
    s.table.keys.Nodup ∧ s.table.size ≤ max capacity 1 ∧
      s.brought.map (·.2.number) = List.range s.brought.length ∧
      (s.brought : Multiset (κ × Instance ν)) = (s.table.entries : Multiset (κ × Instance ν)) +
        s.removed + s.cleaned + (s.owed.map Prod.snd : List (κ × Instance ν)) ∧
      (s.whereabouts.map (·.2.number)).Nodup ∧
      ∀ x ∈ s.cleaned, ∀ y, y ∈ s.table.entries ∨ y ∈ s.removed → x.2.number ≠ y.2.number := by
  intro s
  have hbooks : s.Books capacity := (Books.empty capacity).run moves
  refine ⟨hbooks.sound.nodup, ?_, hbooks.numbers, hbooks.balance, hbooks.nodup, ?_⟩
  · rw [← hbooks.capacity]
    exact hbooks.sound.bounded
  · intro x hx y hy
    exact hbooks.number_ne hx hy

/-- Two callers in turn: while the first still has to clean up the value that it replaced, the
second takes the new one out and puts a third one in. -/
example :
    let s := (empty 0 : Shared Bool Nat).run
      [.lock 0 (.put (fun _ => false) true 7), .lock 0 (.put (fun _ => false) true 7),
        .lock 1 (.remove true), .lock 1 (.put (fun _ => false) false 7), .clean 0]
    s.table.entries = [(false, ⟨2, 7⟩)] ∧ s.removed = [(true, ⟨1, 7⟩)] ∧
      s.cleaned = [(true, ⟨0, 7⟩)] ∧ s.owed = [] := by decide

end Shared

end FlowRelay
