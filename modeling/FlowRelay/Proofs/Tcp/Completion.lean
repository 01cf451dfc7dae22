import FlowRelay.Proofs.Flow.Sweep
import FlowRelay.Proofs.Tcp.Moves

/-!
# FlowRelay.Proofs.Tcp.Completion

What the ends of connects, of reads and of writes do to the connections, whatever the engine is
like: they change connections and close them, and open none (`dwindles_step`).
-/

namespace FlowRelay.Tcp.Engine

/-- Acts change connections and close them. -/
theorem dwindles_carryOut (e : Engine) (id : Nat) (acts : List Act) :
    e.store.Dwindles (e.carryOut id acts).store := by
  refine carryOut_induction (motive := fun e' => e.store.Dwindles e'.store) (.refl _)
    (fun e' a h => h.trans ?_) acts
  rw [store_perform]
  split
  · exact .terminate e'.store id
  · next hstays =>
      exact .update e'.store id fun c hclosed =>
        (Act.closed_change (Bool.not_eq_true _ ▸ hstays) c).trans hclosed

/-- **Completions** open no connection and list none. -/
theorem dwindles_step (e : Engine) (s : Surroundings) {event : Event} (h : event.isCompletion) :
    e.store.Dwindles (e.step s event).store := by
  have hact (p : Prop) [Decidable p] (id : Nat) (acts : List Act) :
      e.store.Dwindles (e.follow s (if p then .act id acts else .idle)).store := by
    split
    · exact dwindles_carryOut e id acts
    · exact .refl _
  rw [step_eq]
  cases event with
  | connected | received | took | wrote | abandoned => exact hact _ _ _
  | segment | closeAll => contradiction

end FlowRelay.Tcp.Engine
