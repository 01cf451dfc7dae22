import FlowRelay.Flow.Store

/-!
# FlowRelay.Proofs.Flow.Store

What the operations of a store do to one connection: they change it where they are told to, they
close it where it leaves the table, and they never forget it.
-/

namespace FlowRelay

/-- Finding a key finds what looking for it finds. -/
theorem Table.snd_get? {κ ν : Type} [DecidableEq κ] (t : Table κ ν) (key : κ) :
    (t.get? key).2 = t.peek? key := by
  unfold get?
  split <;> simp_all

namespace Flow.Store

variable {γ : Type} {s : Store γ} {i id : Nat}

/-! ## Changing -/

/-- `update` changes the connection. -/
theorem connection?_update_self (s : Store γ) (id : Nat) (f : γ → γ) :
    (s.update id f).connection? id = (s.connection? id).map f := by
  simp [update, connection?]

/-- `update` leaves the others as they are. -/
theorem connection?_update_of_ne (h : id ≠ i) (f : γ → γ) :
    (s.update id f).connection? i = s.connection? i := by
  simp only [update, connection?]
  exact List.getElem?_modify_ne f _ h

/-- Only what a change makes of the connection matters. -/
theorem update_congr {c : γ} (hc : s.connection? id = some c) {f g : γ → γ} (h : f c = g c) :
    s.update id f = s.update id g := by
  have hmodify : s.connections.modify id f = s.connections.modify id g := by
    refine List.ext_getElem? fun i => ?_
    by_cases hi : id = i
    · subst hi
      have hget : s.connections[id]? = some c := hc
      rw [List.getElem?_modify_eq, List.getElem?_modify_eq, hget]
      exact congrArg some h
    · rw [List.getElem?_modify_ne f _ hi, List.getElem?_modify_ne g _ hi]
  rw [update, update, hmodify]

/-- What does not exist does not change. -/
theorem update_of_none (hnone : s.connection? id = none) (f : γ → γ) : s.update id f = s := by
  have hmodify : s.connections.modify id f = s.connections :=
    List.modify_eq_self (List.getElem?_eq_none_iff.mp hnone)
  rw [update, hmodify]

/-- A change brings no connection. -/
theorem connection?_update_of_none (hnone : s.connection? i = none) (id : Nat) (f : γ → γ) :
    (s.update id f).connection? i = none := by
  by_cases h : id = i
  · subst h
    rw [connection?_update_self, hnone]
    rfl
  · rwa [connection?_update_of_ne h]

/-! ## Closing -/

variable [Tracked γ]

/-- Terminating a connection brings no other. -/
theorem connection?_terminate_of_none (hnone : s.connection? i = none) (id : Nat) :
    (s.terminate id).connection? i = none := by
  unfold terminate
  split
  · exact hnone
  · exact connection?_update_of_none hnone id Tracked.close

/-- Exactly the connections in the list are closed. -/
theorem connection?_closeAllOf (hclose : ∀ c : γ, Tracked.close (Tracked.close c) = Tracked.close c)
    (s : Store γ) (ids : List Nat) (i : Nat) :
    (s.closeAllOf ids).connection? i =
      if i ∈ ids then (s.connection? i).map Tracked.close else s.connection? i := by
  induction ids generalizing s with
  | nil => simp [closeAllOf]
  | cons id rest ih =>
      have hrest := ih (s.update id Tracked.close)
      by_cases h : id = i
      · subst h
        rw [connection?_update_self] at hrest
        refine hrest.trans ?_
        split
        · simp [Option.map_map, Function.comp_def, hclose]
        · simp
      · rw [connection?_update_of_ne h] at hrest
        refine hrest.trans ?_
        simp only [List.mem_cons, Ne.symm h, false_or]

/-- Closing connections takes none away. -/
theorem length_closeAllOf (s : Store γ) (ids : List Nat) :
    (s.closeAllOf ids).connections.length = s.connections.length := by
  induction ids generalizing s with
  | nil => rfl
  | cons id rest ih => exact (ih (s.update id Tracked.close)).trans (List.length_modify _ _ _)

/-- A connection that is put into the table may push others out of it, which are closed. -/
theorem put_eq_closeAllOf (s : Store γ) (now : Instant) (idle id : Nat) :
    ∃ table ids, (s.put now idle id).1 = { s with table }.closeAllOf ids := by
  unfold put
  split
  · exact ⟨s.table, [], rfl⟩
  · exact ⟨_, _, rfl⟩

/-- `openNew` brings one connection. -/
theorem length_openNew (s : Store γ) (now : Instant) (idle : Nat) (c : γ) :
    (s.openNew now idle c).1.connections.length = s.connections.length + 1 := by
  obtain ⟨table, ids, hput⟩ := put_eq_closeAllOf (s.add c).1 now idle (s.add c).2
  have hopen : (s.openNew now idle c).1 = { (s.add c).1 with table }.closeAllOf ids := hput
  rw [hopen, length_closeAllOf]
  exact List.length_append

/-- A connection that comes is there under its number; it may have had to leave at once. -/
theorem connection?_openNew (hclose : ∀ c : γ, Tracked.close (Tracked.close c) = Tracked.close c)
    (s : Store γ) (now : Instant) (idle : Nat) (c : γ) :
    (s.openNew now idle c).1.connection? (s.openNew now idle c).2 = some c ∨
      (s.openNew now idle c).1.connection? (s.openNew now idle c).2 = some (Tracked.close c) := by
  obtain ⟨table, ids, hput⟩ := put_eq_closeAllOf (s.add c).1 now idle (s.add c).2
  have hopen : (s.openNew now idle c).1 = { (s.add c).1 with table }.closeAllOf ids := hput
  have hnew : ({ (s.add c).1 with table } : Store γ).connection? (s.openNew now idle c).2 =
      some c := by
    simp [add, openNew, connection?]
  rw [hopen, connection?_closeAllOf hclose, hnew]
  split
  · exact .inr rfl
  · exact .inl rfl

/-- A connection that is there already stays, or has to leave for the new one. -/
theorem connection?_openNew_of_some
    (hclose : ∀ c : γ, Tracked.close (Tracked.close c) = Tracked.close c) {c : γ}
    (hc : s.connection? i = some c) (now : Instant) (idle : Nat) (c' : γ) :
    (s.openNew now idle c').1.connection? i = some c ∨
      (s.openNew now idle c').1.connection? i = some (Tracked.close c) := by
  obtain ⟨table, ids, hput⟩ := put_eq_closeAllOf (s.add c').1 now idle (s.add c').2
  have hopen : (s.openNew now idle c').1 = { (s.add c').1 with table }.closeAllOf ids := hput
  have hold : ({ (s.add c').1 with table } : Store γ).connection? i = some c :=
    (List.getElem?_append_left (List.getElem?_eq_some_iff.mp hc).1).trans hc
  rw [hopen, connection?_closeAllOf hclose, hold]
  split
  · exact .inr rfl
  · exact .inl rfl

/-- What comes is the new connection, which may have had to leave at once. -/
theorem connection?_openNew_of_none
    (hclose : ∀ c : γ, Tracked.close (Tracked.close c) = Tracked.close c)
    (hnone : s.connection? i = none) {now : Instant} {idle : Nat} {c c' : γ}
    (hsome : (s.openNew now idle c).1.connection? i = some c') :
    c' = c ∨ c' = Tracked.close c := by
  obtain ⟨table, ids, hput⟩ := put_eq_closeAllOf (s.add c).1 now idle (s.add c).2
  have hopen : (s.openNew now idle c).1 = { (s.add c).1 with table }.closeAllOf ids := hput
  have hnew {c₁ : γ} (hc₁ : ({ (s.add c).1 with table } : Store γ).connection? i = some c₁) :
      c₁ = c := by
    have hge : s.connections.length ≤ i := List.getElem?_eq_none_iff.mp hnone
    have hget : [c][i - s.connections.length]? = some c₁ :=
      (List.getElem?_append_right hge).symm.trans hc₁
    exact List.mem_singleton.mp (List.mem_of_getElem? hget)
  rw [hopen, connection?_closeAllOf hclose] at hsome
  split at hsome
  · obtain ⟨c₁, hc₁, rfl⟩ := Option.map_eq_some_iff.mp hsome
    exact .inr (congrArg _ (hnew hc₁))
  · exact .inl (hnew hsome)

/-! ## Every connection -/

/-- Every connection has a property. -/
def Each (P : γ → Prop) (s : Store γ) : Prop := ∀ id c, s.connection? id = some c → P c

namespace Each

variable {P : γ → Prop}

omit [Tracked γ] in
theorem update (h : s.Each P) {f : γ → γ} (hf : ∀ c, P c → P (f c)) (id : Nat) :
    (s.update id f).Each P := by
  intro i c hc
  by_cases hi : id = i
  · subst hi
    rw [connection?_update_self] at hc
    obtain ⟨c', hc', rfl⟩ := Option.map_eq_some_iff.mp hc
    exact hf c' (h id c' hc')
  · rw [connection?_update_of_ne hi] at hc
    exact h i c hc

theorem closeAllOf (h : s.Each P) (hclose : ∀ c, P c → P (Tracked.close c)) (ids : List Nat) :
    (s.closeAllOf ids).Each P := by
  induction ids generalizing s with
  | nil => exact h
  | cons id rest ih => exact ih (h.update hclose id)

theorem openNew (h : s.Each P) (hclose : ∀ c, P c → P (Tracked.close c)) {c : γ} (hc : P c)
    (now : Instant) (idle : Nat) : (s.openNew now idle c).1.Each P := by
  obtain ⟨table, ids, hput⟩ := put_eq_closeAllOf (s.add c).1 now idle (s.add c).2
  have hopen : (s.openNew now idle c).1 = { (s.add c).1 with table }.closeAllOf ids := hput
  rw [hopen]
  refine closeAllOf (fun i c' hc' => ?_) hclose ids
  cases List.mem_append.mp (List.mem_of_getElem? hc') with
  | inl hold =>
      obtain ⟨i, hi⟩ := List.getElem?_of_mem hold
      exact h i c' hi
  | inr hnew => exact List.mem_singleton.mp hnew ▸ hc

theorem terminate (h : s.Each P) (hclose : ∀ c, P c → P (Tracked.close c)) (id : Nat) :
    (s.terminate id).Each P := by
  unfold Store.terminate
  split
  · exact h
  · exact h.update hclose id

end Each

end Flow.Store

end FlowRelay
