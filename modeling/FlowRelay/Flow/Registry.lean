import FlowRelay.Flow.Store

/-!
# FlowRelay.Flow.Registry

A store whose connections have names.  A name stands for the connection that was registered last
under it; a connection is the same as another only if both were registered by the same act.
-/

namespace FlowRelay.Flow

/-- A store whose connections have names. -/
structure Registry (ι γ : Type) where
  /-- After how many milliseconds a connection in the table counts as idle. -/
  idle : Nat
  store : Store γ
  /-- The names of the connections, in the order of their numbers. -/
  names : List ι

namespace Registry

variable {ι γ : Type} [DecidableEq ι] [Tracked γ]

/-- Nothing is registered yet. -/
def empty (capacity idle : Nat) : Registry ι γ := ⟨idle, .empty capacity, []⟩

/-! ## Names -/

/-- The number of the connection that was registered last under a name. -/
def number? (r : Registry ι γ) (name : ι) : Option Nat :=
  (r.names.zipIdx.reverse.find? (·.1 = name)).map Prod.snd

/-- The name of a connection. -/
def name? (r : Registry ι γ) (number : Nat) : Option ι := r.names[number]?

/-- The connection of a name. -/
def connection? (r : Registry ι γ) (name : ι) : Option γ :=
  (r.number? name).bind r.store.connection?

/-- The names of the connections in the table, the least recently used one first. -/
def inUse (r : Registry ι γ) : List ι := r.store.table.values.filterMap r.name?

/-- The names of the closed connections. -/
def closed (r : Registry ι γ) : List ι :=
  (r.names.zip r.store.connections).filterMap fun (name, c) =>
    if Tracked.isClosed c then some name else none

/-! ## Connections -/

/-- Register a connection. -/
def add (r : Registry ι γ) (name : ι) (c : γ) : Registry ι γ :=
  { r with store := (r.store.add c).1, names := r.names ++ [name] }

/-- Change the connection of a name. -/
def update (r : Registry ι γ) (name : ι) (f : γ → γ) : Registry ι γ :=
  match r.number? name with
  | some number => { r with store := r.store.update number f }
  | none => r

/-- Put the connection of a name into the table, telling which entry left to make room. -/
def put (r : Registry ι γ) (now : Instant) (name : ι) : Registry ι γ × Option (Key × Nat) :=
  match r.number? name with
  | some number =>
    let (store, evicted) := r.store.put now r.idle number
    ({ r with store }, evicted)
  | none => (r, none)

/-- Close the connection of a name, telling whether it was open. -/
def close (r : Registry ι γ) (name : ι) : Registry ι γ × Bool :=
  (r.update name Tracked.close, (r.connection? name).any (!Tracked.isClosed ·))

end Registry

end FlowRelay.Flow
