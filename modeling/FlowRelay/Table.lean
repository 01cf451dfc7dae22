/-!
# FlowRelay.Table

A table of bounded size whose entries are ordered by their last use.

1. Storing an entry and finding it make it the most recently used one; looking without finding, and
   looking whether a key is there, do not change the order.
2. When a new entry overflows the table, the least recently used entry that may go early leaves it,
   the new entry being asked last; if none may, the least recently used entry leaves.
3. An entry that leaves is handed to its owner for cleanup, except where it is taken out on purpose.

The table itself cleans nothing up: each operation says which entries left and, where it asks, whom
it asked.
-/

namespace FlowRelay

/-- A table of bounded size. -/
structure Table (κ ν : Type) where
  capacity : Nat
  /-- The entries, the least recently used one first. -/
  entries : List (κ × ν)
  deriving Repr

namespace Table

variable {κ ν : Type} [DecidableEq κ]

/-- An empty table.  It holds at least one entry, whatever the capacity. -/
def empty (capacity : Nat) : Table κ ν := ⟨max capacity 1, []⟩

/-! ## Looking -/

/-- The values, the least recently used one first. -/
def values (t : Table κ ν) : List ν := t.entries.map Prod.snd

/-- The number of entries. -/
def size (t : Table κ ν) : Nat := t.entries.length

/-- The value of a key, without a change in the order. -/
def peek? (t : Table κ ν) (key : κ) : Option ν :=
  (t.entries.find? (·.1 = key)).map Prod.snd

/-- Whether a key has an entry. -/
def contains (t : Table κ ν) (key : κ) : Bool := (t.peek? key).isSome

/-- The entries of all other keys. -/
def others (t : Table κ ν) (key : κ) : List (κ × ν) := t.entries.filter (·.1 ≠ key)

/-- The text of a table for diagnosis. -/
def debugText (t : Table κ ν) : String :=
  s!"ConnectionTable \x7b len: {t.size}, capacity: {t.capacity} \x7d"

/-! ## Using -/

/-- Find the value of a key and mark it as the most recently used. -/
def get? (t : Table κ ν) (key : κ) : Table κ ν × Option ν :=
  match t.peek? key with
  | none => (t, none)
  | some value => ({ t with entries := t.others key ++ [(key, value)] }, some value)

/-- What storing an entry did. -/
structure Stored (κ ν : Type) where
  table : Table κ ν
  /-- The value that the key had before. -/
  replaced : Option ν
  /-- The entry that left to make room. -/
  evicted : Option (κ × ν)
  /-- The values that were asked whether they may go early, in order. -/
  asked : List ν

/-- The values asked in turn up to the first one that may go early. -/
def askInTurn (early : ν → Bool) : List ν → List ν
  | [] => []
  | v :: rest => if early v then [v] else v :: askInTurn early rest

/-- Store an entry as the most recently used one. -/
def put (t : Table κ ν) (early : ν → Bool) (key : κ) (value : ν) : Stored κ ν :=
  let replaced := t.peek? key
  let full : Table κ ν := { t with entries := t.others key ++ [(key, value)] }
  if full.size ≤ t.capacity then ⟨full, replaced, none, []⟩
  else
    let victim := (full.entries.find? (early ·.2)).or full.entries.head?
    let left := match victim with
      | some (k, _) => full.others k
      | none => full.entries
    ⟨{ t with entries := left }, replaced, victim, askInTurn early full.values⟩

/-- The entries that storing an entry leaves to be cleaned up, in the order of their cleanup. -/
def Stored.leaving (s : Stored κ ν) (key : κ) : List (κ × ν) :=
  (s.replaced.map (key, ·)).toList ++ s.evicted.toList

/-! ## Removing -/

/-- Take the entry of a key out of the table. -/
def remove (t : Table κ ν) (key : κ) : Table κ ν × Option ν :=
  ({ t with entries := t.others key }, t.peek? key)

/-- Take the entry of a key out if its value is as wanted. -/
def removeIf (t : Table κ ν) (key : κ) (wanted : ν → Bool) : Table κ ν × Option ν :=
  match t.peek? key with
  | some value => if wanted value then t.remove key else (t, none)
  | none => (t, none)

/-- Take everything out. -/
def clear (t : Table κ ν) : Table κ ν × List (κ × ν) := ({ t with entries := [] }, t.entries)

end Table

end FlowRelay
