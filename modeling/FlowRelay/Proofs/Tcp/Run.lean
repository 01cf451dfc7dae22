import Mathlib.Data.List.Induction
import FlowRelay.Proofs.Tcp.Step

/-!
# FlowRelay.Proofs.Tcp.Run

Runs of the engine, what is noted along them, and the life of one connection within them.

1. *Runs* (`run`): steps one after the other, each with its own surroundings.
2. *Notes* (`observe`): what an observer who sees the engine in front of each step writes down.
3. *Invariants* (`Stands.run_induction`): what every turn keeps is kept by a run.
4. *Lives* (`exists_opens`): a connection that exists was opened by one segment of the run, and
   before it nothing was sent, handed out or begun for it.
5. *Samples*: a small configuration and the segments of one device, for runs that are worked out.
-/

namespace FlowRelay.Tcp.Engine

open Packet

variable {α : Type} {e : Engine} {id : Nat}

/-! ## Runs -/

/-- Take steps one after the other. -/
def run (e : Engine) (steps : List (Surroundings × Event)) : Engine :=
  steps.foldl (fun e (s, event) => e.step s event) e

theorem run_append (e : Engine) (xs ys : List (Surroundings × Event)) :
    e.run (xs ++ ys) = (e.run xs).run ys := List.foldl_append

@[simp] theorem run_concat (e : Engine) (xs : List (Surroundings × Event)) (s : Surroundings)
    (event : Event) : e.run (xs ++ [(s, event)]) = (e.run xs).step s event := by
  rw [run_append]
  rfl

/-! ## Notes -/

/-- What is noted at the steps of a run, in order. -/
def observe (note : Engine → Event → Option α) (e : Engine) :
    List (Surroundings × Event) → List α
  | [] => []
  | (s, event) :: rest => (note e event).toList ++ observe note (e.step s event) rest

@[simp] theorem observe_nil (note : Engine → Event → Option α) (e : Engine) :
    observe note e [] = [] := rfl

theorem observe_append (note : Engine → Event → Option α) (e : Engine)
    (xs ys : List (Surroundings × Event)) :
    observe note e (xs ++ ys) = observe note e xs ++ observe note (e.run xs) ys := by
  induction xs generalizing e with
  | nil => rfl
  | cons x rest ih =>
      obtain ⟨s, event⟩ := x
      rw [List.cons_append, observe, observe, ih, List.append_assoc]
      rfl

@[simp] theorem observe_concat (note : Engine → Event → Option α) (e : Engine)
    (xs : List (Surroundings × Event)) (s : Surroundings) (event : Event) :
    observe note e (xs ++ [(s, event)]) =
      observe note e xs ++ (note (e.run xs) event).toList := by
  rw [observe_append, observe, observe_nil, List.append_nil]

/-! ## Invariants -/

/-- **Invariants**: what holds where a connection stands, and is kept by every turn of a run, holds
at every point of the run. -/
theorem Stands.run_induction
    {motive : List (Surroundings × Event) → Session → List Reply → List UInt8 → Prop}
    {σ : Session} {replies : List Reply} {handed : List UInt8}
    (h : e.Stands id σ replies handed) (start : motive [] σ replies handed)
    (turn : ∀ {steps s event σ replies handed more data σ'},
      (e.run steps).Stands id σ replies handed →
      Turn σ ((e.run steps).deed id event) more data σ' → motive steps σ replies handed →
      motive (steps ++ [(s, event)]) σ' (replies ++ more) (handed ++ data))
    (steps : List (Surroundings × Event)) :
    ∃ σ' replies' handed', (e.run steps).Stands id σ' replies' handed' ∧
      motive steps σ' replies' handed' := by
  induction steps using List.reverseRecOn with
  | nil => exact ⟨σ, replies, handed, h, start⟩
  | append_singleton steps x ih =>
      obtain ⟨s, event⟩ := x
      obtain ⟨σ', replies', handed', hstands, hmotive⟩ := ih
      obtain ⟨more, data, σ'', hturn, hstep⟩ := hstands.step s event
      rw [run_concat]
      exact ⟨σ'', _, _, hstep, turn hstands hturn hmotive⟩

/-! ## Lives -/

/-- A segment of the device opens a connection. -/
def Opens (e : Engine) (s : Surroundings) (initial : UInt32) (d : Datagram) (id : Nat) : Prop :=
  e.store.connection? id = none ∧
    (e.step s (.segment initial d)).store.connection? id ≠ none

/-- Nothing is to be seen of a connection that does not exist. -/
theorem view_of_none (config : Config) (inspecting : Bool) (steps : List (Surroundings × Event))
    (hnone : ((empty config inspecting).run steps).store.connection? id = none) :
    ((empty config inspecting).run steps).view id = .unborn := by
  induction steps using List.reverseRecOn with
  | nil => rfl
  | append_singleton steps x ih =>
      obtain ⟨s, event⟩ := x
      rw [run_concat] at hnone ⊢
      cases hbefore : ((empty config inspecting).run steps).store.connection? id with
      | none =>
          cases step_unborn (ih hbefore) s event with
          | inl hunborn => exact hunborn
          | inr hborn =>
              obtain ⟨_, _, _, _, _, _, c, _, _, hview, _⟩ := hborn
              exact absurd (hnone.symm.trans (congrArg View.connection hview)) nofun
      | some c =>
          obtain ⟨_, c', _, _, _, _, _, hview, _⟩ := step_turns hbefore s event
          exact absurd (hnone.symm.trans (congrArg View.connection hview)) nofun

/-- A connection that is opened stands in front of its handshake. -/
theorem Opens.stands {config : Config} {inspecting : Bool}
    {before : List (Surroundings × Event)} {s : Surroundings} {initial : UInt32} {d : Datagram}
    (h : ((empty config inspecting).run before).Opens s initial d id) :
    ∃ tcp closed, d.headers.tcp? = some tcp ∧
      (((empty config inspecting).run before).step s (.segment initial d)).Stands id
        (.born initial tcp.sequence closed) [] [] := by
  cases step_unborn (view_of_none config inspecting before h.1) s (.segment initial d) with
  | inl hunborn => exact absurd (congrArg View.connection hunborn) h.2
  | inr hborn =>
      obtain ⟨_, _, tcp, closed, hevent, htcp, hstands⟩ := hborn
      cases hevent
      exact ⟨tcp, closed, htcp, hstands⟩

/-- **Lives**: a connection that exists was opened by a segment of the run. -/
theorem exists_opens (config : Config) (inspecting : Bool) (steps : List (Surroundings × Event))
    (hsome : ((empty config inspecting).run steps).store.connection? id ≠ none) :
    ∃ before s initial d after, steps = before ++ (s, .segment initial d) :: after ∧
      ((empty config inspecting).run before).Opens s initial d id := by
  induction steps using List.reverseRecOn with
  | nil => exact absurd rfl hsome
  | append_singleton steps x ih =>
      obtain ⟨s, event⟩ := x
      rw [run_concat] at hsome
      by_cases hbefore : ((empty config inspecting).run steps).store.connection? id = none
      · cases step_unborn (view_of_none config inspecting steps hbefore) s event with
        | inl hunborn => exact absurd (congrArg View.connection hunborn) hsome
        | inr hborn =>
            obtain ⟨initial, d, _, _, rfl, _⟩ := hborn
            exact ⟨steps, s, initial, d, [], rfl, hbefore, hsome⟩
      · obtain ⟨before, s', initial, d, after, hsteps, hopens⟩ := ih hbefore
        exact ⟨before, s', initial, d, after ++ [(s, event)], by rw [hsteps]; simp, hopens⟩

/-! ## Samples -/

namespace Sample

/-- Settings with small packets. -/
def config : Config := { Config.default with capacity := 2, mtu := 64 }

/-- Surroundings in which everything works. -/
def surroundings : Surroundings :=
  { now := 0, proxy := .unset 80, socket := .ok (), deviceOpen := true, multiplexerOpen := true }

/-- The endpoint that the device talks to. -/
def target : Net.Endpoint := ⟨⟨10, 0, 0, 1⟩, 7⟩

/-- A segment of the device. -/
def datagram (flags : UInt8) (sequence : UInt32) (payload : List UInt8) : Datagram :=
  { buffer := List.replicate Headers.tcpPayloadOffset 0 ++ payload
    headers := .tcp ⟨⟨10, 0, 0, 2⟩, 5000⟩ target flags sequence 0
    span := ⟨Headers.tcpPayloadOffset, Headers.tcpPayloadOffset + payload.length⟩ }

end Sample

end FlowRelay.Tcp.Engine
