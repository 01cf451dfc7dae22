import Mathlib.Data.List.Count
import Mathlib.Data.List.Nodup
import FlowRelay.Proofs.Pool.Blank

/-!
# FlowRelay.Proofs.Pool.Accounts

No buffer of a pool is lost or counted twice, and none tells its next holder anything.

1. *Accounts* (`Accounted`): every buffer that was allocated is held, free, or was given up, and
   every one that was taken had been allocated for it or was used again.
2. *Uses* (`Accounted.step`, `Accounted.run`): buffers are taken, changed at will, given back in
   any order, and given up, and the accounts stay right.
3. *Runs* (`run_accounted`): after any run, the next buffer that is taken is blank, and it is
   allocated only if there is no free one.
-/

namespace FlowRelay.Holdings

variable {ι : Type} {h : Holdings ι} {size acquired missing : Nat} {i j : ι}

/-- What is done to a pool and to the buffers that are held from it. -/
inductive Use (ι : Type) where
  | acquire (i : ι)
  /-- A holder makes of its buffer whatever it likes, by writing, appending and cutting. -/
  | modify (i : ι) (f : List UInt8 → List UInt8)
  | drop (i : ι)
  | dropAll
  | drain

/-- Whether a buffer is taken. -/
def Use.isAcquire : Use ι → Bool
  | .acquire _ => true
  | .modify .. | .drop _ | .dropAll | .drain => false

/-- How many buffers the pool gives up. -/
def discards (h : Holdings ι) : Use ι → Nat
  | .drain => h.pool.available
  | .acquire _ | .modify .. | .drop _ | .dropAll => 0

/-- The holders of buffers. -/
def holders (h : Holdings ι) : List ι := h.held.map Prod.fst

/-! ## Accounts -/

/-- The accounts of a pool whose buffers have a size: so many were taken from it, and so many are
neither held nor free. -/
structure Accounted (size acquired missing : Nat) (h : Holdings ι) : Prop where
  bufferSize : h.pool.bufferSize = size
  clean : h.pool.Clean
  nodup : h.holders.Nodup
  served : h.pool.allocations + h.pool.reuses = acquired
  kept : h.pool.allocations = h.held.length + h.pool.available + missing

namespace Accounted

theorem empty (size : Nat) : (Holdings.empty size : Holdings ι).Accounted size 0 0 :=
  ⟨rfl, .empty size, List.nodup_nil, rfl, rfl⟩

/-- A buffer that is taken is missing until it is held. -/
theorem take (ha : h.Accounted size acquired missing) :
    { h with pool := h.pool.acquire.1 }.Accounted size (acquired + 1) (missing + 1) := by
  obtain ⟨hsize, hclean, hnodup, hserved, hkept⟩ := ha
  refine ⟨(Pool.bufferSize_use h.pool .acquire).trans hsize, hclean.acquire, hnodup, ?_, ?_⟩
  · simp only [Pool.acquire]
    split <;> simp only <;> omega
  · simp only [Pool.acquire, Pool.available] at hkept ⊢
    split
    · next hfree =>
        simp only [hfree, List.length_cons] at hkept ⊢
        omega
    · next hfree =>
        simp only [hfree, List.length_nil] at hkept ⊢
        omega

/-- A buffer that was taken is held. -/
theorem hold (ha : h.Accounted size acquired (missing + 1)) (hi : i ∉ h.holders)
    (b : List UInt8) :
    { h with held := (i, b) :: h.held }.Accounted size acquired missing := by
  obtain ⟨hsize, hclean, hnodup, hserved, hkept⟩ := ha
  refine ⟨hsize, hclean, List.nodup_cons.mpr ⟨hi, hnodup⟩, hserved, ?_⟩
  change h.pool.allocations = h.held.length + 1 + h.pool.available + missing
  omega

/-- Buffers that are given up go back to the pool. -/
theorem dropAll (ha : h.Accounted size acquired missing) :
    h.dropAll.Accounted size acquired missing := by
  obtain ⟨pool, held⟩ := h
  induction held generalizing pool with
  | nil => exact ha
  | cons x rest ih =>
      have hkept := ha.kept
      refine ih (pool.release x.2) ⟨ha.bufferSize, ha.clean.release x.2,
        (List.nodup_cons.mp ha.nodup).2, ha.served, ?_⟩
      simp only [Pool.release, Pool.available, List.length_cons] at hkept ⊢
      omega

/-- Buffers that are taken out of the pool are missing. -/
theorem drain (ha : h.Accounted size acquired missing) :
    h.drain.Accounted size acquired (missing + h.pool.available) := by
  obtain ⟨hsize, hclean, hnodup, hserved, hkept⟩ := ha
  refine ⟨hsize, .drain h.pool, hnodup, hserved, ?_⟩
  simp only [Holdings.drain, Pool.drain, Pool.available, List.length_nil] at hkept ⊢
  omega

end Accounted

/-! ## Uses -/

variable [DecidableEq ι]

/-- Use the pool or a buffer once. -/
def step (h : Holdings ι) : Use ι → Holdings ι
  | .acquire i => h.acquire i
  | .modify i f => h.modify i f
  | .drop i => h.drop i
  | .dropAll => h.dropAll
  | .drain => h.drain

/-- Use the pool and its buffers many times. -/
def run (h : Holdings ι) (uses : List (Use ι)) : Holdings ι := uses.foldl step h

/-- How many buffers the pool gives up in a run. -/
def discardedBy (h : Holdings ι) : List (Use ι) → Nat
  | [] => 0
  | u :: rest => h.discards u + (h.step u).discardedBy rest

/-- Whoever has a buffer is a holder. -/
theorem mem_holders_of_buffer? {b : List UInt8} (hb : h.buffer? i = some b) : i ∈ h.holders := by
  rw [buffer?, List.lookup_eq_some_iff] at hb
  obtain ⟨front, back, hheld, -⟩ := hb
  simp [holders, hheld]

/-- One who lets go of his buffer leaves the buffers of all others. -/
theorem length_held_drop (hnodup : h.holders.Nodup) {b : List UInt8}
    (hb : h.buffer? i = some b) : (h.held.filter (·.1 ≠ i)).length + 1 = h.held.length := by
  have hone : h.held.countP (·.1 = i) = 1 := by
    have hcount := List.count_eq_one_of_mem hnodup (mem_holders_of_buffer? hb)
    rw [holders, List.count, List.countP_map] at hcount
    rw [← hcount]
    congr 1
  have hlength := List.length_eq_countP_add_countP (l := h.held) (fun x => decide (x.1 = i))
  rw [hone] at hlength
  rw [← List.countP_eq_length_filter, hlength, Nat.add_comm]
  simp

/-- Giving up changes nothing, or a buffer goes back to the pool. -/
theorem drop_cases (h : Holdings ι) (i : ι) :
    (h.buffer? i = none ∧ h.drop i = h) ∨
      ∃ b, h.buffer? i = some b ∧
        h.drop i = { pool := h.pool.release b, held := h.held.filter (·.1 ≠ i) } := by
  unfold drop
  cases hb : h.buffer? i with
  | none => exact .inl ⟨rfl, rfl⟩
  | some b => exact .inr ⟨b, rfl, rfl⟩

theorem notMem_holders_drop (h : Holdings ι) (i : ι) : i ∉ (h.drop i).holders := by
  rcases h.drop_cases i with ⟨hnone, hdrop⟩ | ⟨b, -, hdrop⟩
  · rw [hdrop, holders]
    intro hmem
    obtain ⟨x, hx, rfl⟩ := List.mem_map.mp hmem
    exact absurd (List.lookup_eq_none_iff.mp hnone x hx) (by simp)
  · simp [hdrop, holders]

/-- The others keep their buffers. -/
theorem buffer?_drop_of_ne (hne : j ≠ i) (h : Holdings ι) :
    (h.drop i).buffer? j = h.buffer? j := by
  rcases h.drop_cases i with ⟨-, hdrop⟩ | ⟨b, -, hdrop⟩
  · rw [hdrop]
  · rw [hdrop, buffer?, buffer?]
    dsimp only
    induction h.held with
    | nil => rfl
    | cons x rest ih =>
        obtain ⟨k, c⟩ := x
        by_cases hk : k = i
        · have hj : (j == k) = false := by simpa [hk] using hne
          rw [List.filter_cons_of_neg (by simpa using hk), ih, List.lookup_cons, hj]
        · rw [List.filter_cons_of_pos (by simpa using hk), List.lookup_cons, List.lookup_cons, ih]

namespace Accounted

/-- Giving a buffer up keeps the accounts. -/
theorem drop (ha : h.Accounted size acquired missing) (i : ι) :
    (h.drop i).Accounted size acquired missing := by
  rcases h.drop_cases i with ⟨-, hdrop⟩ | ⟨b, hb, hdrop⟩
  · rwa [hdrop]
  · obtain ⟨hsize, hclean, hnodup, hserved, hkept⟩ := ha
    have hlength := length_held_drop hnodup hb
    rw [hdrop]
    refine ⟨hsize, hclean.release b, ?_, hserved, ?_⟩
    · exact hnodup.sublist (List.filter_sublist.map Prod.fst)
    · simp only [Pool.release, Pool.available, List.length_cons] at hkept ⊢
      omega

theorem acquire (ha : h.Accounted size acquired missing) (i : ι) :
    (h.acquire i).Accounted size (acquired + 1) missing :=
  (ha.take.drop i).hold (notMem_holders_drop _ i) _

/-- What is written into a buffer does not change the accounts. -/
theorem modify (ha : h.Accounted size acquired missing) (i : ι)
    (f : List UInt8 → List UInt8) : (h.modify i f).Accounted size acquired missing := by
  obtain ⟨hsize, hclean, hnodup, hserved, hkept⟩ := ha
  have hholders : (h.modify i f).holders = h.holders := by
    rw [holders, Holdings.modify, List.map_map]
    refine List.map_congr_left fun x _ => ?_
    simp only [Function.comp_apply]
    split <;> rfl
  refine ⟨hsize, hclean, hholders ▸ hnodup, hserved, ?_⟩
  simpa only [Holdings.modify, List.length_map] using hkept

/-- Every use keeps the accounts. -/
theorem step (ha : h.Accounted size acquired missing) (u : Use ι) :
    (h.step u).Accounted size (acquired + if u.isAcquire then 1 else 0)
      (missing + h.discards u) := by
  cases u with
  | acquire i => exact ha.acquire i
  | modify i f => exact ha.modify i f
  | drop i => exact ha.drop i
  | dropAll => exact ha.dropAll
  | drain => exact ha.drain

/-- So does every run. -/
theorem run (ha : h.Accounted size acquired missing) (uses : List (Use ι)) :
    (h.run uses).Accounted size (acquired + uses.countP Use.isAcquire)
      (missing + h.discardedBy uses) := by
  induction uses generalizing h acquired missing with
  | nil => exact ha
  | cons u rest ih =>
      have hrest := ih (ha.step u)
      rw [Nat.add_assoc, Nat.add_assoc] at hrest
      rw [List.countP_cons, Nat.add_comm (rest.countP _)]
      exact hrest

end Accounted

/-! ## Runs -/

/-- The buffer that is taken is held as the pool handed it out. -/
theorem buffer?_acquire (h : Holdings ι) (i : ι) :
    (h.acquire i).buffer? i = some h.pool.acquire.2 := by
  simp [Holdings.acquire, buffer?]

theorem buffer?_acquire_of_ne (hne : j ≠ i) (h : Holdings ι) :
    (h.acquire i).buffer? j = h.buffer? j := by
  have hj : (j == i) = false := by simpa using hne
  rw [buffer?, Holdings.acquire, List.lookup_cons, hj]
  exact buffer?_drop_of_ne hne { h with pool := h.pool.acquire.1 }

theorem counts_drop (h : Holdings ι) (i : ι) :
    (h.drop i).pool.allocations = h.pool.allocations ∧
      (h.drop i).pool.reuses = h.pool.reuses := by
  rcases h.drop_cases i with ⟨-, hdrop⟩ | ⟨b, -, hdrop⟩ <;> rw [hdrop] <;> exact ⟨rfl, rfl⟩

/-- A buffer is allocated if and only if there is no free one. -/
theorem counts_acquire (h : Holdings ι) (i : ι) :
    (h.acquire i).pool.allocations = h.pool.allocations + (if h.pool.available = 0 then 1 else 0) ∧
      (h.acquire i).pool.reuses = h.pool.reuses + (if h.pool.available = 0 then 0 else 1) := by
  obtain ⟨hallocations, hreuses⟩ := counts_drop { h with pool := h.pool.acquire.1 } i
  simp only [Holdings.acquire]
  rw [hallocations, hreuses]
  simp only [Pool.acquire, Pool.available]
  split
  · next hfree => simp [hfree]
  · next hfree => simp [hfree]

/-- **Accounts**: whatever is done to a pool and its buffers, every buffer that was taken had been
allocated or was used again, and every one that was allocated is held, free, or was given up.  The
next one that is taken has the size of the pool and is all zero, whoever held it before, is
allocated only if none is free, and all others stay as they are. -/
theorem run_accounted (size : Nat) (uses : List (Use ι)) :
    let start : Holdings ι := .empty size
    let h := start.run uses
    h.holders.Nodup ∧
      h.pool.allocations + h.pool.reuses = uses.countP Use.isAcquire ∧
      h.pool.allocations = h.held.length + h.pool.available + start.discardedBy uses ∧
      ∀ i, (h.acquire i).buffer? i = some (List.replicate size 0) ∧
        (∀ j, j ≠ i → (h.acquire i).buffer? j = h.buffer? j) ∧
        (h.acquire i).pool.allocations =
          h.pool.allocations + (if h.pool.available = 0 then 1 else 0) ∧
        (h.acquire i).pool.reuses = h.pool.reuses + (if h.pool.available = 0 then 0 else 1) := by
  intro start h
  have ha : h.Accounted size (0 + uses.countP Use.isAcquire) (0 + start.discardedBy uses) :=
    (Accounted.empty size).run uses
  rw [Nat.zero_add, Nat.zero_add] at ha
  refine ⟨ha.nodup, ha.served, ha.kept, fun i => ⟨?_, fun j hne => buffer?_acquire_of_ne hne h,
    h.counts_acquire i⟩⟩
  rw [buffer?_acquire, ha.clean.snd_acquire, Pool.blank, ha.bufferSize]

/-- A buffer that is in use while the pool is drained comes back to it, cut and written, and is
taken again as a blank one. -/
example :
    let h := (Holdings.empty 2 : Holdings Nat).run
      [.acquire 0, .acquire 1, .drop 1, .modify 0 fun _ => [7], .drain, .drop 0, .acquire 2]
    h.held = [(2, [0, 0])] ∧ h.pool = ⟨2, [], 2, 1⟩ := by decide

end FlowRelay.Holdings
