import FlowRelay.Pool

/-!
# FlowRelay.Proofs.Pool.Blank

A buffer tells its next holder nothing about the last one: what a pool hands out is blank, whatever
it took back before.
-/

namespace FlowRelay.Pool

variable {p : Pool}

/-- Nothing of what a buffer held outlives its emptying, and zeros take its place up to the full
size, whether the holder has cut the buffer or made it longer. -/
theorem cleaned_eq_blank (p : Pool) (used : List UInt8) : p.cleaned used = p.blank := by
  rw [cleaned, List.take_zero, Bytes.resize, List.take_nil, List.nil_append, List.length_nil,
    Nat.sub_zero, blank]

/-- The free buffers are all blank. -/
def Clean (p : Pool) : Prop := ∀ b ∈ p.free, b = p.blank

namespace Clean

theorem empty (size : Nat) : (Pool.empty size).Clean := nofun

theorem acquire (h : p.Clean) : p.acquire.1.Clean := by
  unfold Pool.acquire
  split
  · next b rest hfree =>
      intro b' hb'
      exact h b' (hfree ▸ List.mem_cons_of_mem b hb')
  · exact h

theorem release (h : p.Clean) (used : List UInt8) : (p.release used).Clean := by
  intro b hb
  cases List.mem_cons.mp hb with
  | inl hnew => exact hnew.trans (p.cleaned_eq_blank used)
  | inr hold => exact h b hold

theorem drain (p : Pool) : p.drain.Clean := nofun

/-- A clean pool hands out a blank buffer. -/
theorem snd_acquire (h : p.Clean) : p.acquire.2 = p.blank := by
  unfold Pool.acquire
  split
  · next b rest hfree => exact h b (hfree ▸ List.mem_cons_self)
  · rfl

end Clean

/-! ## Runs -/

/-- What is done to a pool. -/
inductive Use where
  | acquire
  /-- A buffer comes back with whatever became of its content. -/
  | release (used : List UInt8)
  | drain

/-- Use the pool once. -/
def use (p : Pool) : Use → Pool
  | .acquire => p.acquire.1
  | .release used => p.release used
  | .drain => p.drain

/-- Use the pool many times. -/
def useAll (p : Pool) (uses : List Use) : Pool := uses.foldl use p

theorem bufferSize_use (p : Pool) (u : Use) : (p.use u).bufferSize = p.bufferSize := by
  cases u with
  | acquire =>
      simp only [use, acquire]
      split <;> rfl
  | release used => rfl
  | drain => rfl

theorem Clean.use (h : p.Clean) (u : Use) : (p.use u).Clean := by
  cases u with
  | acquire => exact h.acquire
  | release used => exact h.release used
  | drain => exact .drain p

theorem Clean.acquire_useAll (h : p.Clean) (uses : List Use) :
    (p.useAll uses).acquire.2 = p.blank := by
  induction uses generalizing p with
  | nil => exact h.snd_acquire
  | cons u rest ih =>
      have hblank : (p.use u).blank = p.blank := by rw [blank, blank, bufferSize_use]
      exact (ih (h.use u)).trans hblank

end FlowRelay.Pool
