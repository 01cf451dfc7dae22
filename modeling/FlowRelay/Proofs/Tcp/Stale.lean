import FlowRelay.Proofs.Tcp.Conversation
import FlowRelay.Proofs.Tcp.Moves

/-!
# FlowRelay.Proofs.Tcp.Stale

Work that ends when its connection has left the table.

1. *Mild acts* (`Act.Mild`): what is done for a closed connection when work for it ends.
2. *Ends of work* (`Event.connection?`): the connect, the read or the writer of a connection.
3. *Harmless steps* (`Harmless`): nothing is sent to the device, no body is delivered, no work is
   begun, and the table and all other connections stay as they are.
4. *Steps* (`harmless_step`): such is every end of work for a closed connection.
5. *Departures* (`gone_run`): a connection that has left the table never comes back.
-/

namespace FlowRelay.Tcp

/-! ## Mild acts -/

namespace Act

/-- Whether an act changes nothing but the account of the connection. -/
def isQuiet : Act → Bool
  | .advance _ | .hand _ => true
  | .terminate | .say .. | .inspect .. | .begin _ | .finish _ => false

/-- Acts that change the account of the connection, and end work once at most. -/
inductive Mild : List Act → Prop
  | nil : Mild []
  | finish (w : Work) : Mild [.finish w]
  | cons {a : Act} {acts : List Act} (ha : a.isQuiet = true) (hacts : Mild acts) : Mild (a :: acts)

end Act

namespace Connection

variable {c : Connection}

theorem connectedActs_of_closed (hclosed : c.closed = true) (config : Config) (s : Surroundings)
    (result : Except Fault Unit) : c.connectedActs config s result = [] := by
  unfold connectedActs
  rw [hclosed, Bool.true_or, if_pos rfl]

theorem receivedActs_of_closed (hclosed : c.closed = true) (config : Config) (s : Surroundings)
    (result : Except Fault (List UInt8)) : c.receivedActs config s result = [] := by
  unfold receivedActs
  rw [hclosed, Bool.true_or, if_pos rfl]

theorem mild_tookActs (c : Connection) (count : Nat) : Act.Mild (c.tookActs count) := by
  unfold tookActs
  split
  · exact .nil
  · exact .cons rfl (.cons rfl .nil)

/-- The segments that still wait are written, and then the writer ends. -/
theorem mild_wroteActs (hclosed : c.closed = true) (config : Config) (s : Surroundings)
    (result : Except Fault Unit) : Act.Mild (c.wroteActs config s result) := by
  unfold wroteActs
  split
  · exact .nil
  · refine .cons rfl ?_
    simp only [hclosed, if_true]
    split
    · exact .finish .write
    · exact .cons rfl (.finish .write)

end Connection

namespace Engine

/-- The connection that an event is an end of work for. -/
def Event.connection? : Event → Option Nat
  | .segment _ _ | .closeAll => none
  | .connected id _ _ | .received id _ | .took id _ | .wrote id _ => some id
  | .abandoned task => some task.connection

variable {e e' : Engine} {s : Surroundings} {i id : Nat} {c : Connection}

/-! ## Harmless steps -/

/-- Nothing happens but that a task of the connection ends, and that its own account changes. -/
structure Harmless (e e' : Engine) (id : Nat) : Prop where
  outbox : e'.outbox = e.outbox
  delivered : e'.delivered = e.delivered
  tasks : e'.tasks = e.tasks ∨ ∃ task, task.connection = id ∧ e'.tasks = e.tasks.erase task
  table : e'.store.table = e.store.table
  others : ∀ i, i ≠ id → e'.view i = e.view i

namespace Harmless

theorem refl (e : Engine) (id : Nat) : e.Harmless e id where
  outbox := rfl
  delivered := rfl
  tasks := .inl rfl
  table := rfl
  others _ _ := rfl

/-- Progress and data that is handed over do no harm. -/
theorem perform (h : e.Harmless e' id) {a : Act} (hquiet : a.isQuiet = true) :
    e.Harmless (e'.perform id a) id ∧ (e'.perform id a).tasks = e'.tasks := by
  cases a with
  | advance f =>
      refine ⟨⟨h.outbox, h.delivered, h.tasks, h.table, fun i hi => ?_⟩, rfl⟩
      exact (view_perform_of_ne hi.symm e' _).trans (h.others i hi)
  | hand payload =>
      have htasks := tasks_perform e' id (.hand payload)
      refine ⟨⟨?_, ?_, ?_, ?_, fun i hi => ?_⟩, htasks⟩
      · rw [outbox_perform]
        exact (List.append_nil _).trans h.outbox
      · rw [delivered_perform]
        exact (List.append_nil _).trans h.delivered
      · rw [htasks]
        exact h.tasks
      · rw [store_perform]
        exact h.table
      · exact (view_perform_of_ne hi.symm e' _).trans (h.others i hi)
  | terminate | say | inspect | begin | finish => contradiction

/-- Work of the connection ends, if no other has ended so far. -/
theorem finish (h : e.Harmless e' id) (htasks : e'.tasks = e.tasks) (w : Work) :
    e.Harmless (e'.perform id (.finish w)) id where
  outbox := h.outbox
  delivered := h.delivered
  tasks := .inr ⟨w.task id, w.connection_task id, congrArg (List.erase · _) htasks⟩
  table := h.table
  others i hi := (view_perform_of_ne hi.symm e' _).trans (h.others i hi)

/-- Acts that are mild do no harm. -/
theorem carryOut (h : e.Harmless e' id) (htasks : e'.tasks = e.tasks) {acts : List Act}
    (hmild : Act.Mild acts) : e.Harmless (e'.carryOut id acts) id := by
  induction hmild generalizing e' with
  | nil => exact h
  | finish w => exact h.finish htasks w
  | cons hquiet _ ih =>
      obtain ⟨hnext, hsame⟩ := h.perform hquiet
      exact ih hnext (hsame.trans htasks)

/-- What is found under a key stays where it is, open and as it is. -/
theorem found (h : e.Harmless e' id) (hgone : e.store.Gone id) {key : Flow.Key}
    (hpeek : e.store.table.peek? key = some i) :
    e'.store.table.peek? key = some i ∧ e'.view i = e.view i := by
  have hi : i ≠ id := fun hi => hgone.notListed key (hi ▸ hpeek)
  exact ⟨by rw [h.table, hpeek], h.others i hi⟩

end Harmless

/-! ## Steps -/

/-- What is done for a closed connection, behind the end of some work or not, is harmless. -/
theorem harmless_actsFor (hclosed : e.store.isClosed id = true) (xs : List Act)
    {acts : Connection → List Act}
    (hmild : ∀ c : Connection, c.closed = true → Act.Mild (xs ++ acts c)) :
    e.Harmless (e.carryOut id (xs ++ e.actsFor id acts)) id := by
  obtain ⟨c, hc, hshut⟩ := Flow.Store.isClosed_iff.mp hclosed
  rw [actsFor, hc]
  exact (Harmless.refl e id).carryOut rfl (hmild c hshut)

/-- **Steps**: the end of work for a closed connection is harmless. -/
theorem harmless_step (hclosed : e.store.isClosed id = true) {event : Event}
    (hevent : event.connection? = some id) (s : Surroundings) :
    e.Harmless (e.step s event) id := by
  rw [step_eq]
  cases event with
  | segment | closeAll => contradiction
  | connected i target result =>
      obtain rfl : i = id := Option.some.inj hevent
      simp only [plan]
      split
      · refine harmless_actsFor hclosed [.finish (.connect target)] fun c hshut => ?_
        rw [c.connectedActs_of_closed hshut]
        exact .finish _
      · exact .refl e i
  | received i result =>
      obtain rfl : i = id := Option.some.inj hevent
      simp only [plan]
      split
      · refine harmless_actsFor hclosed [.finish .read] fun c hshut => ?_
        rw [c.receivedActs_of_closed hshut]
        exact .finish _
      · exact .refl e i
  | took i count =>
      obtain rfl : i = id := Option.some.inj hevent
      simp only [plan]
      split
      · exact harmless_actsFor hclosed [] fun c _ => c.mild_tookActs count
      · exact .refl e i
  | wrote i result =>
      obtain rfl : i = id := Option.some.inj hevent
      simp only [plan]
      split
      · exact harmless_actsFor hclosed [] fun c hshut => c.mild_wroteActs hshut _ s result
      · exact .refl e i
  | abandoned task =>
      obtain rfl : task.connection = id := Option.some.inj hevent
      rw [plan, if_pos hclosed]
      exact (Harmless.refl e task.connection).finish rfl task.work

/-! ## Departures -/

/-- What is closed stays closed. -/
theorem isClosed_step (hclosed : e.store.isClosed id = true) (s : Surroundings) (event : Event) :
    (e.step s event).store.isClosed id = true := by
  obtain ⟨c, hc, hshut⟩ := Flow.Store.isClosed_iff.mp hclosed
  obtain ⟨c₀, c', _, _, _, _, hc₀, hview, hturn⟩ := step_turns hc s event
  obtain rfl : c₀ = c := Option.some.inj (hc₀.symm.trans hc)
  exact Flow.Store.isClosed_iff.mpr
    ⟨c', congrArg View.connection hview, (hturn.of_closed hshut).1⟩

/-- **Departures**: a connection that has left the table never comes back. -/
theorem gone_run {config : Config} {inspecting : Bool} {before : List (Surroundings × Event)}
    (h : ((empty config inspecting).run before).store.Gone id)
    (between : List (Surroundings × Event)) :
    ((empty config inspecting).run (before ++ between)).store.Gone id := by
  induction between using List.reverseRecOn with
  | nil => rwa [List.append_nil]
  | append_singleton between x ih =>
      obtain ⟨s, event⟩ := x
      have hsofar := coherent_run config inspecting (before ++ between)
      rw [← List.append_assoc, run_concat, (hsofar.step s event).accurate.gone_iff]
      exact isClosed_step (hsofar.accurate.gone_iff.mp ih) s event

end Engine

end FlowRelay.Tcp
