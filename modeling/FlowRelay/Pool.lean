import FlowRelay.Bytes

/-!
# FlowRelay.Pool

A pool of byte buffers of one size.  A buffer that comes back is filled with zeros again before the
next holder gets it, whatever the last one did to it; the buffer that came back last is taken first.
The pool grows as needed and counts what it allocated and what it used again.
-/

namespace FlowRelay

/-- A pool of buffers. -/
structure Pool where
  bufferSize : Nat
  /-- The free buffers, the one that came back last first. -/
  free : List (List UInt8)
  allocations : Nat
  reuses : Nat
  deriving DecidableEq, Repr

namespace Pool

/-- A pool that has not allocated anything yet. -/
def empty (bufferSize : Nat) : Pool := ⟨bufferSize, [], 0, 0⟩

/-- A buffer as it is handed out. -/
def blank (p : Pool) : List UInt8 := List.replicate p.bufferSize 0

/-- Take a free buffer, or allocate one if there is none. -/
def acquire (p : Pool) : Pool × List UInt8 :=
  match p.free with
  | b :: rest => ({ p with free := rest, reuses := p.reuses + 1 }, b)
  | [] => ({ p with allocations := p.allocations + 1 }, p.blank)

/-- A buffer that comes back, made ready for its next holder: it is emptied, and filled with zeros
up to the size of the pool's buffers. -/
def cleaned (p : Pool) (used : List UInt8) : List UInt8 :=
  let emptied := used.take 0
  Bytes.resize emptied p.bufferSize

/-- Take a buffer back, whatever has become of its content and its length. -/
def release (p : Pool) (used : List UInt8) : Pool := { p with free := p.cleaned used :: p.free }

/-- Give up the free buffers. -/
def drain (p : Pool) : Pool := { p with free := [] }

/-- The number of free buffers. -/
def available (p : Pool) : Nat := p.free.length

/-- The text of the counters. -/
def text (p : Pool) : String :=
  s!"{p.allocations} allocated, {p.reuses} reused, {p.available} free"

end Pool

/-! ## Buffers in use -/

/-- A pool together with the buffers that are held from it, each by a holder of its own. -/
structure Holdings (ι : Type) where
  pool : Pool
  held : List (ι × List UInt8)

namespace Holdings

variable {ι : Type} [DecidableEq ι]

/-- Nothing is held yet. -/
def empty (bufferSize : Nat) : Holdings ι := ⟨.empty bufferSize, []⟩

/-- The buffer of a holder. -/
def buffer? (h : Holdings ι) (i : ι) : Option (List UInt8) := h.held.lookup i

/-- A holder lets go of its buffer. -/
def drop (h : Holdings ι) (i : ι) : Holdings ι :=
  match h.buffer? i with
  | none => h
  | some b => { pool := h.pool.release b, held := h.held.filter (·.1 ≠ i) }

/-- A holder takes a buffer.  One that it already has goes back only afterwards. -/
def acquire (h : Holdings ι) (i : ι) : Holdings ι :=
  let (pool, b) := h.pool.acquire
  let h := drop { h with pool } i
  { h with held := (i, b) :: h.held }

/-- A holder changes its buffer. -/
def modify (h : Holdings ι) (i : ι) (f : List UInt8 → List UInt8) : Holdings ι :=
  { h with held := h.held.map fun (j, b) => if j = i then (j, f b) else (j, b) }

/-- A holder writes into its buffer, as far as the data fits. -/
def write (h : Holdings ι) (i : ι) (offset : Nat) (data : List UInt8) : Holdings ι :=
  h.modify i fun b => Bytes.overwrite b offset (data.take (b.length - offset))

/-- A holder appends to its buffer. -/
def extend (h : Holdings ι) (i : ι) (data : List UInt8) : Holdings ι := h.modify i (· ++ data)

/-- A holder cuts its buffer. -/
def truncate (h : Holdings ι) (i : ι) (n : Nat) : Holdings ι := h.modify i (·.take n)

/-- All holders let go of their buffers. -/
def dropAll (h : Holdings ι) : Holdings ι :=
  { pool := h.held.foldl (fun p (_, b) => p.release b) h.pool, held := [] }

/-- The pool gives up its free buffers. -/
def drain (h : Holdings ι) : Holdings ι := { h with pool := h.pool.drain }

end Holdings

end FlowRelay
