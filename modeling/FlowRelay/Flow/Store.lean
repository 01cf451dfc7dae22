import FlowRelay.Flow.Key
import FlowRelay.Relay.Config
import FlowRelay.Table

/-!
# FlowRelay.Flow.Store

The connections of one protocol, and the table of those among them that are in use.

Connections are numbered in the order in which they come and are kept when they are closed, so that
whoever comes late still finds the connection that he is about, and never takes a newer one of its
flow for it.  The table holds at most one connection of each flow.  A connection that leaves the
table is closed, except where it is taken out on purpose.
-/

namespace FlowRelay.Flow

/-- What a store asks of the connections in it. -/
class Tracked (γ : Type) where
  key : γ → Key
  isClosed : γ → Bool
  close : γ → γ
  /-- Whether a connection may be evicted before the least recently used one, at a point in time and
  for a number of milliseconds after which it counts as idle. -/
  mayGoEarly : γ → Instant → Nat → Bool

/-- The connections that ever came, and the table of those in use by their numbers. -/
structure Store (γ : Type) where
  connections : List γ
  table : Table Key Nat
  deriving Repr

namespace Store

variable {γ : Type} [Tracked γ]

/-- No connection has come yet. -/
def empty (capacity : Nat) : Store γ := ⟨[], .empty capacity⟩

/-! ## Connections -/

/-- The connection with a number. -/
def connection? (s : Store γ) (id : Nat) : Option γ := s.connections[id]?

/-- Whether there is a connection with a number, and it is open. -/
def isOpen (s : Store γ) (id : Nat) : Bool := (s.connection? id).any (!Tracked.isClosed ·)

/-- Whether there is a connection with a number, and it is closed. -/
def isClosed (s : Store γ) (id : Nat) : Bool := (s.connection? id).any Tracked.isClosed

/-- Change a connection. -/
def update (s : Store γ) (id : Nat) (f : γ → γ) : Store γ :=
  { s with connections := s.connections.modify id f }

/-- A connection comes.  It gets the next number and is not in use yet. -/
def add (s : Store γ) (c : γ) : Store γ × Nat :=
  ({ s with connections := s.connections ++ [c] }, s.connections.length)

/-- Close connections that have left the table, in order. -/
def closeAllOf (s : Store γ) (ids : List Nat) : Store γ :=
  ids.foldl (fun s id => s.update id Tracked.close) s

/-! ## The table -/

/-- Whether a connection may be evicted early. -/
def mayGoEarly (s : Store γ) (now : Instant) (idle : Nat) (id : Nat) : Bool :=
  (s.connection? id).any (Tracked.mayGoEarly · now idle)

/-- Put a connection into the table, telling which entry left to make room. -/
def put (s : Store γ) (now : Instant) (idle : Nat) (id : Nat) : Store γ × Option (Key × Nat) :=
  match s.connection? id with
  | none => (s, none)
  | some c =>
    let key := Tracked.key c
    let stored := s.table.put (s.mayGoEarly now idle) key id
    ({ s with table := stored.table }.closeAllOf ((stored.leaving key).map Prod.snd),
      stored.evicted)

/-- A connection comes and is in use at once. -/
def openNew (s : Store γ) (now : Instant) (idle : Nat) (c : γ) : Store γ × Nat :=
  let (s, id) := s.add c
  ((s.put now idle id).1, id)

/-- Find the connection of a flow and mark it as the most recently used. -/
def find? (s : Store γ) (key : Key) : Store γ × Option Nat :=
  let (table, found) := s.table.get? key
  ({ s with table }, found)

/-- Take the connection of a flow out of the table and leave it open. -/
def remove (s : Store γ) (key : Key) : Store γ × Option Nat :=
  let (table, found) := s.table.remove key
  ({ s with table }, found)

/-- Take the connection of a flow out of the table and close it, if its number is as wanted. -/
def closeIf (s : Store γ) (key : Key) (wanted : Nat → Bool) : Store γ × Bool :=
  let (table, found) := s.table.removeIf key wanted
  ({ s with table }.closeAllOf found.toList, found.isSome)

/-- Close a connection and take it out of the table, where a newer one of its flow stays. -/
def terminate (s : Store γ) (id : Nat) : Store γ :=
  match s.connection? id with
  | none => s
  | some c =>
    let s := s.update id Tracked.close
    { s with table := (s.table.removeIf (Tracked.key c) (· = id)).1 }

/-- Close every connection in the table, telling how many there were. -/
def closeAll (s : Store γ) : Store γ × Nat :=
  let (table, entries) := s.table.clear
  ({ s with table }.closeAllOf (entries.map Prod.snd), entries.length)

end Store

end FlowRelay.Flow
