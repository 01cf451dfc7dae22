import FlowRelay.Proofs.Flow.Store

/-!
# FlowRelay.Proofs.Flow.Blind

Changes of connections that a store does not see.

1. *Blind changes* (`Blind`): whatever a store asks of a connection is the same behind the change.
2. *Stores* (`map`): what is done to a store is done alike where every connection is changed so.
3. *What stays* (`map_closeAllOf`): what closing does not change of connections stays.
-/

namespace FlowRelay.Flow

variable {γ : Type}

/-- A change of connections that a store does not see. -/
structure Blind [Tracked γ] (f : γ → γ) : Prop where
  key : ∀ c, Tracked.key (f c) = Tracked.key c
  isClosed : ∀ c, Tracked.isClosed (f c) = Tracked.isClosed c
  close : ∀ c, Tracked.close (f c) = f (Tracked.close c)
  mayGoEarly : ∀ c, Tracked.mayGoEarly (f c) = Tracked.mayGoEarly c

/-- An element is changed alike where all elements are changed. -/
theorem modify_map {α β : Type} {f : α → β} {g : β → β} {g' : α → α}
    (h : ∀ x, g (f x) = f (g' x)) (l : List α) (i : Nat) :
    (l.map f).modify i g = (l.modify i g').map f := by
  refine List.ext_getElem? fun j => ?_
  rw [List.getElem?_modify, List.getElem?_map, List.getElem?_map, List.getElem?_modify]
  cases l[j]? with
  | none => rfl
  | some x =>
      by_cases hi : i = j
      · simp [hi, h]
      · simp [hi]

/-- A change of an element that does not show. -/
theorem map_modify_of_eq {α β : Type} {f : α → β} {g : α → α} (h : ∀ x, f (g x) = f x)
    (l : List α) (i : Nat) : (l.modify i g).map f = l.map f := by
  rw [← modify_map (g := id) fun x => (h x).symm, List.modify_id]

namespace Store

variable {f : γ → γ}

/-- Change every connection. -/
def map (f : γ → γ) (s : Store γ) : Store γ := { s with connections := s.connections.map f }

theorem connection?_map (f : γ → γ) (s : Store γ) (id : Nat) :
    (s.map f).connection? id = (s.connection? id).map f := List.getElem?_map

/-- A change that agrees with `f` may be made before or after it. -/
theorem update_map {g g' : γ → γ} (h : ∀ c, g (f c) = f (g' c)) (s : Store γ) (id : Nat) :
    (s.map f).update id g = (s.update id g').map f :=
  congrArg (Store.mk · s.table) (modify_map h s.connections id)

variable [Tracked γ]

/-- What is closed does not depend on `f`. -/
theorem isClosed_map (hf : Blind f) (s : Store γ) (id : Nat) :
    (s.map f).isClosed id = s.isClosed id := by
  rw [isClosed, connection?_map, Option.any_map, isClosed]
  exact congrArg (Option.any · _) (funext hf.isClosed)

/-- What may go early does not depend on `f`. -/
theorem mayGoEarly_map (hf : Blind f) (s : Store γ) (now : Instant) (idle : Nat) :
    (s.map f).mayGoEarly now idle = s.mayGoEarly now idle := by
  funext id
  rw [mayGoEarly, connection?_map, Option.any_map, mayGoEarly]
  refine congrArg (Option.any · _) (funext fun c => ?_)
  exact congrFun (congrFun (hf.mayGoEarly c) now) idle

theorem closeAllOf_map (hf : Blind f) (s : Store γ) (ids : List Nat) :
    (s.map f).closeAllOf ids = (s.closeAllOf ids).map f := by
  induction ids generalizing s with
  | nil => rfl
  | cons id rest ih =>
      have hfirst := update_map hf.close s id
      exact (congrArg (closeAllOf · rest) hfirst).trans (ih _)

/-- Listing a connection does not depend on `f`. -/
theorem put_map (hf : Blind f) (s : Store γ) (now : Instant) (idle number : Nat) :
    (s.map f).put now idle number = Prod.map (map f) id (s.put now idle number) := by
  unfold put
  rw [connection?_map, mayGoEarly_map hf]
  cases s.connection? number with
  | none => rfl
  | some c =>
      simp only [Option.map_some, hf.key]
      have hclose := closeAllOf_map hf
        { s with table := (s.table.put (s.mayGoEarly now idle) (Tracked.key c) number).table }
        (((s.table.put (s.mayGoEarly now idle) (Tracked.key c) number).leaving
          (Tracked.key c)).map Prod.snd)
      exact congrArg (·, _) hclose

/-- Opening a connection does not depend on `f`. -/
theorem openNew_map (hf : Blind f) (s : Store γ) (now : Instant) (idle : Nat) (c : γ) :
    (s.map f).openNew now idle (f c) = Prod.map (map f) id (s.openNew now idle c) := by
  have hadd : (s.map f).add (f c) = Prod.map (map f) id (s.add c) := by
    simp [add, map]
  unfold openNew
  rw [hadd]
  exact congrArg (·.1, _) (put_map hf (s.add c).1 now idle (s.add c).2)

theorem terminate_map (hf : Blind f) (s : Store γ) (id : Nat) :
    (s.map f).terminate id = (s.terminate id).map f := by
  unfold terminate
  rw [connection?_map]
  cases s.connection? id with
  | none => rfl
  | some c =>
      simp only [Option.map_some, hf.key, update_map hf.close]
      rfl

theorem closeAll_map (hf : Blind f) (s : Store γ) :
    (s.map f).closeAll = Prod.map (map f) id s.closeAll :=
  congrArg (·, _) (closeAllOf_map hf { s with table := s.table.clear.1 }
    (s.table.clear.2.map Prod.snd))

/-! ## What stays -/

section

variable {α : Type} {f : γ → α}

/-- Closing connections does not show in `f`. -/
theorem map_closeAllOf (hf : ∀ c, f (Tracked.close c) = f c) (s : Store γ) (ids : List Nat) :
    (s.closeAllOf ids).connections.map f = s.connections.map f := by
  induction ids generalizing s with
  | nil => rfl
  | cons id rest ih =>
      exact (ih (s.update id Tracked.close)).trans (map_modify_of_eq hf s.connections id)

/-- A connection that comes shows in `f` at the end alone. -/
theorem map_openNew (hf : ∀ c, f (Tracked.close c) = f c) (s : Store γ) (now : Instant)
    (idle : Nat) (c : γ) :
    (s.openNew now idle c).1.connections.map f = s.connections.map f ++ [f c] := by
  obtain ⟨table, ids, hput⟩ := put_eq_closeAllOf (s.add c).1 now idle (s.add c).2
  have hopen : (s.openNew now idle c).1 = { (s.add c).1 with table }.closeAllOf ids := hput
  rw [hopen, map_closeAllOf hf]
  exact List.map_append

end

end Store

end FlowRelay.Flow
