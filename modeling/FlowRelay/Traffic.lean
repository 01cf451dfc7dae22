/-!
# FlowRelay.Traffic

Counting packets and their bytes.  The counters are words of 64 bits and wrap around.
-/

namespace FlowRelay

/-- The packets and bytes counted so far. -/
structure Traffic where
  count : UInt64
  size : UInt64
  deriving DecidableEq, Repr, Inhabited

namespace Traffic

/-- Nothing counted yet. -/
def zero : Traffic := ⟨0, 0⟩

/-- Count a packet of the given size. -/
def add (t : Traffic) (size : Nat) : Traffic := ⟨t.count + 1, t.size + UInt64.ofNat size⟩

/-- The counters after packets of the given sizes. -/
def ofSizes (sizes : List Nat) : Traffic :=
  ⟨UInt64.ofNat sizes.length, UInt64.ofNat (sizes.foldl (· + ·) 0)⟩

@[simp] theorem ofSizes_nil : ofSizes [] = zero := rfl

@[simp] theorem ofSizes_append_singleton (sizes : List Nat) (size : Nat) :
    ofSizes (sizes ++ [size]) = (ofSizes sizes).add size := by
  simp only [ofSizes, add, List.length_append, List.length_singleton, List.foldl_append,
    List.foldl_cons, List.foldl_nil, UInt64.ofNat_add]
  rfl

/-- The text of the counters. -/
def text (t : Traffic) : String := s!"{t.count.toNat} packets ({t.size.toNat} Bytes)"

end Traffic

/-- Named handles on counters.  A handle that is made from another one counts with it. -/
structure TrafficHandles (ι : Type) where
  counters : List Traffic
  handles : List (ι × Nat)

namespace TrafficHandles

variable {ι : Type} [DecidableEq ι]

/-- No handle yet. -/
def empty : TrafficHandles ι := ⟨[], []⟩

/-- The counters of a handle. -/
def traffic? (h : TrafficHandles ι) (i : ι) : Option Traffic :=
  (h.handles.lookup i).bind (h.counters[·]?)

/-- A handle on counters of its own. -/
def make (h : TrafficHandles ι) (i : ι) : TrafficHandles ι :=
  ⟨h.counters ++ [.zero], (i, h.counters.length) :: h.handles⟩

/-- A handle on the counters of another handle. -/
def share (h : TrafficHandles ι) (i source : ι) : TrafficHandles ι :=
  match h.handles.lookup source with
  | some place => { h with handles := (i, place) :: h.handles }
  | none => h

/-- Count a packet on a handle. -/
def add (h : TrafficHandles ι) (i : ι) (size : Nat) : TrafficHandles ι :=
  match h.handles.lookup i with
  | some place => { h with counters := h.counters.modify place (·.add size) }
  | none => h

end TrafficHandles

end FlowRelay
