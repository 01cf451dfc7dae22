import FlowRelay.Proofs.Flow.Listing

/-!
# FlowRelay.Proofs.Flow.Sweep

Closing the connections of a store one by one, while work for them still ends.

1. *What ends of work do* (`Dwindles`): connections change, close and leave the table; none comes.
2. *Sweeps* (`Swept`): once the table is empty, what is still to be closed becomes less with each
   connection that is closed, and no end of work adds to it.
-/

namespace FlowRelay.Flow.Store

variable {γ : Type} [Tracked γ] [LawfulTracked γ] {s s' s'' : Store γ} {id : Nat} {left : List Nat}

/-! ## Ends of work -/

/-- No connection comes, the table gets no entry, and what is closed stays closed. -/
structure Dwindles (s s' : Store γ) : Prop where
  length_eq : s'.connections.length = s.connections.length
  entries_subset : s'.table.entries ⊆ s.table.entries
  isClosed : ∀ id, s.isClosed id = true → s'.isClosed id = true

namespace Dwindles

omit [LawfulTracked γ] in
theorem refl (s : Store γ) : s.Dwindles s := ⟨rfl, List.Subset.refl _, fun _ h => h⟩

omit [LawfulTracked γ] in
theorem trans (h : s.Dwindles s') (h' : s'.Dwindles s'') : s.Dwindles s'' :=
  ⟨h'.length_eq.trans h.length_eq, fun _ hx => h.entries_subset (h'.entries_subset hx),
    fun id hid => h'.isClosed id (h.isClosed id hid)⟩

omit [LawfulTracked γ] in
theorem update (s : Store γ) (id : Nat) {f : γ → γ}
    (hf : ∀ c, Tracked.isClosed c = true → Tracked.isClosed (f c) = true) :
    s.Dwindles (s.update id f) :=
  ⟨List.length_modify _ _ _, List.Subset.refl _, fun _ h => isClosed_update h hf id⟩

theorem terminate (s : Store γ) (id : Nat) : s.Dwindles (s.terminate id) := by
  unfold Store.terminate
  split
  · exact refl s
  · next c _ =>
      have hclose : s.Dwindles (s.update id Tracked.close) :=
        update s id fun c _ => LawfulTracked.isClosed_close c
      refine ⟨hclose.length_eq, fun x hx => ?_, hclose.isClosed⟩
      simp only [Table.removeIf] at hx
      split at hx
      · split at hx
        · exact List.mem_of_mem_filter hx
        · exact hx
      · exact hx

end Dwindles

/-! ## Sweeps -/

/-- The table is empty, and only the given connections may still be open. -/
structure Swept (s : Store γ) (left : List Nat) : Prop where
  entries_eq : s.table.entries = []
  closed_or_mem : ∀ id < s.connections.length, s.isClosed id = true ∨ id ∈ left

omit [LawfulTracked γ] in
/-- What an accurate table lists is what is still to be closed when it has been emptied. -/
theorem Accurate.swept (h : s.Accurate) :
    { s with table := s.table.clear.1 }.Swept (s.table.clear.2.map Prod.snd) where
  entries_eq := rfl
  closed_or_mem id hid := by
    have hc : s.connection? id = some s.connections[id] := List.getElem?_eq_getElem hid
    cases hclosed : Tracked.isClosed s.connections[id] with
    | true => exact .inl (isClosed_iff.mpr ⟨_, hc, hclosed⟩)
    | false =>
        have hlisted := (h.lists _ id).mpr ⟨_, hc, rfl, hclosed⟩
        exact .inr (List.mem_map.mpr ⟨_, Multiset.mem_coe.mp hlisted, rfl⟩)

namespace Swept

omit [LawfulTracked γ] in
theorem dwindle (h : s.Swept left) (hdwindles : s.Dwindles s') : s'.Swept left where
  entries_eq := List.subset_nil.mp (h.entries_eq ▸ hdwindles.entries_subset)
  closed_or_mem id hid :=
    (h.closed_or_mem id (hdwindles.length_eq ▸ hid)).imp_left (hdwindles.isClosed id)

/-- A connection that is closed is not left. -/
theorem close (h : s.Swept (id :: left)) : (s.update id Tracked.close).Swept left where
  entries_eq := h.entries_eq
  closed_or_mem i hi := by
    have hlt : i < s.connections.length := by
      rwa [Store.update, List.length_modify] at hi
    rcases h.closed_or_mem i hlt with hclosed | hleft
    · exact .inl (isClosed_update hclosed (fun c _ => LawfulTracked.isClosed_close c) id)
    · rcases List.mem_cons.mp hleft with rfl | hrest
      · have hc : s.connection? i = some s.connections[i] := List.getElem?_eq_getElem hlt
        refine .inl (isClosed_iff.mpr ⟨_, ?_, LawfulTracked.isClosed_close s.connections[i]⟩)
        rw [connection?_update_self, hc]
        rfl
      · exact .inr hrest

omit [LawfulTracked γ] in
/-- When nothing is left, every connection is closed. -/
theorem isClosed_of_nil {c : γ} (h : s.Swept []) (hc : s.connection? id = some c) :
    Tracked.isClosed c = true := by
  have hlt : id < s.connections.length := (List.getElem?_eq_some_iff.mp hc).1
  rcases h.closed_or_mem id hlt with hclosed | hnone
  · obtain ⟨c', hc', hclosed'⟩ := isClosed_iff.mp hclosed
    obtain rfl : c' = c := Option.some.inj (hc'.symm.trans hc)
    exact hclosed'
  · contradiction

end Swept

end FlowRelay.Flow.Store
