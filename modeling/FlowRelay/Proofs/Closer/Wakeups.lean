import Mathlib.Data.List.Basic
import FlowRelay.Closer

/-!
# FlowRelay.Proofs.Closer.Wakeups

A signal loses no wakeup, however the steps of those who wait for it and of those who raise it
interleave.

1. *Races* (`Race`): any number of waiters and of calls, one step of one of them at a time.
2. *Safety* (`Race.Sound`): one call raised the signal, nobody is done before, and nobody sleeps
   once that call has notified everybody.
3. *Progress* (`stepsLeft_run`): a waiter that does not sleep is done after a few steps of its own,
   whatever the others do in between.
-/

namespace FlowRelay

/-! ## Waiters -/

namespace Waiter

variable {w : Waiter}

/-- How many steps a waiter that does not sleep still takes once the signal is raised. -/
def stepsLeft : Waiter → Nat
  | .done => 0
  | .armed _ => 1
  | .start => 2
  | .parked _ => 3

/-- While the flag is down, nobody gets done. -/
theorem eq_done_of_step_false (h : w.step false = .done) : w = .done := by
  cases w with
  | start => contradiction
  | armed notified => contradiction
  | parked notified => cases notified <;> contradiction
  | done => rfl

/-- Once it is up, nobody falls asleep, and a step brings everybody who is awake nearer to the
end. -/
theorem step_true_of_awake (h : w ≠ .parked false) :
    w.step true ≠ .parked false ∧ (w.step true).stepsLeft = w.stepsLeft - 1 := by
  cases w with
  | start => exact ⟨nofun, rfl⟩
  | armed notified => exact ⟨nofun, rfl⟩
  | parked notified =>
      cases notified with
      | false => exact absurd rfl h
      | true => exact ⟨nofun, rfl⟩
  | done => exact ⟨nofun, rfl⟩

theorem notify_ne_parked (w : Waiter) : w.notify ≠ .parked false := by
  cases w <;> nofun

theorem stepsLeft_notify (w : Waiter) : w.notify.stepsLeft = w.stepsLeft := by
  cases w <;> rfl

/-- A waiter has three steps left at most. -/
theorem stepsLeft_le (w : Waiter) : w.stepsLeft ≤ 3 := by
  cases w <;> simp [stepsLeft]

theorem ne_parked_of_stepsLeft (h : w.stepsLeft ≤ 2) (notified : Bool) : w ≠ .parked notified := by
  rintro rfl
  contradiction

/-- A waiter without steps left is done. -/
theorem eq_done_of_stepsLeft (h : w.stepsLeft = 0) : w = .done := by
  cases w with
  | start => contradiction
  | armed notified => contradiction
  | parked notified => contradiction
  | done => rfl

end Waiter

namespace Closer

/-! ## Calls -/

/-- What a call that raises a signal is about to do. -/
inductive Call where
  /-- Swap the flag. -/
  | start
  /-- Notify everybody, if the flag was down. -/
  | swapped (first : Bool)
  | returned (first : Bool)
  deriving DecidableEq, Repr

/-- One step of a call. -/
def Call.step (c : Closer) : Call → Closer × Call
  | .start => (c.swap.1, .swapped c.swap.2)
  | .swapped first => (if first then c.notify else c, .returned first)
  | .returned first => (c, .returned first)

/-- Whether a call found the flag down. -/
def Call.isFirst : Call → Bool
  | .start => false
  | .swapped first | .returned first => first

/-- The two steps of a call raise the signal when nobody comes in between. -/
theorem Call.step_step_start (c : Closer) :
    (Call.start.step c).2.step (Call.start.step c).1 = (c.close.1, .returned c.close.2) := rfl

/-! ## Races -/

/-- A signal with its waiters, and the calls that raise it. -/
structure Race where
  closer : Closer
  calls : List Call
  deriving DecidableEq, Repr

/-- What happens next in a race. -/
inductive Move where
  /-- Somebody else is going to wait. -/
  | wait
  /-- Somebody else is going to raise the signal. -/
  | call
  /-- A waiter takes a step. -/
  | waiter (i : Nat)
  /-- A call takes a step. -/
  | caller (j : Nat)
  deriving DecidableEq, Repr

namespace Race

variable {r : Race} {i : Nat} {w : Waiter}

/-- Nobody waits, and nobody raises the signal. -/
def empty : Race := ⟨.empty, []⟩

def waiters (r : Race) : List Waiter := r.closer.waiters

/-- Make one move. -/
def step (r : Race) : Move → Race
  | .wait => { r with closer := r.closer.wait }
  | .call => { r with calls := r.calls ++ [.start] }
  | .waiter i =>
      { r with closer.waiters := r.waiters.modify i (Waiter.step r.closer.closed) }
  | .caller j =>
      match r.calls[j]? with
      | none => r
      | some call =>
          { closer := (call.step r.closer).1, calls := r.calls.set j (call.step r.closer).2 }

/-- Make many moves. -/
def run (r : Race) (moves : List Move) : Race := moves.foldl step r

/-- A step of a waiter does nothing, or moves this waiter on. -/
theorem step_waiter_cases (r : Race) (i : Nat) :
    r.step (.waiter i) = r ∨ ∃ front w back, r.waiters = front ++ w :: back ∧
      r.step (.waiter i) =
        { r with closer.waiters := front ++ w.step r.closer.closed :: back } := by
  rw [step]
  by_cases hi : i < r.waiters.length
  · obtain ⟨front, w, back, hsplit, -, hmodify⟩ :=
      List.exists_of_modify (Waiter.step r.closer.closed) hi
    exact .inr ⟨front, w, back, hsplit, by rw [hmodify]⟩
  · refine .inl ?_
    rw [List.modify_eq_self (Nat.le_of_not_lt hi)]
    rfl

/-- A step of a caller does nothing, or moves this call on. -/
theorem step_caller_cases (r : Race) (j : Nat) :
    r.step (.caller j) = r ∨ ∃ front call back, r.calls = front ++ call :: back ∧
      r.step (.caller j) =
        ⟨(call.step r.closer).1, front ++ (call.step r.closer).2 :: back⟩ := by
  rw [step]
  split
  · exact .inl rfl
  · next call hcall =>
      obtain ⟨hj, hget⟩ := List.getElem?_eq_some_iff.mp hcall
      obtain ⟨front, back, hsplit, -, hset⟩ : ∃ front back, r.calls = front ++ r.calls[j] :: back ∧
          front.length = j ∧ r.calls.set j (call.step r.closer).2 =
            front ++ (call.step r.closer).2 :: back := List.exists_of_set hj
      exact .inr ⟨front, call, back, hget ▸ hsplit, by rw [hset]⟩

/-! ## Safety -/

/-- What holds of a race at every moment. -/
structure Sound (r : Race) : Prop where
  once : r.calls.countP Call.isFirst = r.closer.closed.toNat
  raised : ∀ call ∈ r.calls, call ≠ .start → r.closer.closed = true
  done : .done ∈ r.waiters → r.closer.closed = true
  woken : .returned true ∈ r.calls → .parked false ∉ r.waiters

namespace Sound

theorem empty : Race.empty.Sound := ⟨rfl, nofun, nofun, nofun⟩

/-- A waiter that comes leaves a race sound. -/
theorem wait (h : r.Sound) : (r.step .wait).Sound := by
  obtain ⟨honce, hraised, hdone, hwoken⟩ := h
  refine ⟨honce, hraised, fun hmem => hdone ?_, fun hreturned hmem => hwoken hreturned ?_⟩
  · simpa [Race.step, Closer.wait, waiters] using hmem
  · simpa [Race.step, Closer.wait, waiters] using hmem

/-- A call that comes leaves a race sound. -/
theorem call (h : r.Sound) : (r.step .call).Sound := by
  obtain ⟨honce, hraised, hdone, hwoken⟩ := h
  refine ⟨?_, fun call hmem hne => hraised call ?_ hne, hdone, fun hreturned => hwoken ?_⟩
  · simpa [Race.step, Call.isFirst] using honce
  · simpa [Race.step, hne] using hmem
  · simpa [Race.step] using hreturned

/-- A waiter gets done or keeps awake because it looks at the flag after it has armed. -/
theorem waiter (h : r.Sound) (i : Nat) : (r.step (.waiter i)).Sound := by
  rcases r.step_waiter_cases i with hstep | ⟨front, w, back, hsplit, hstep⟩
  · rwa [hstep]
  obtain ⟨honce, hraised, hdone, hwoken⟩ := h
  rw [hsplit] at hdone hwoken
  rw [hstep]
  refine ⟨honce, hraised, fun hmem => ?_, fun hreturned hmem => hwoken hreturned ?_⟩
  · cases hclosed : r.closer.closed with
    | true => rfl
    | false =>
        refine absurd (hdone ?_) (by simp [hclosed])
        simp only [waiters, hclosed, List.mem_append, List.mem_cons] at hmem ⊢
        exact hmem.imp_right (Or.imp_left fun hnew => (Waiter.eq_done_of_step_false hnew.symm).symm)
  · have hclosed := hraised _ hreturned nofun
    have hawake : w ≠ .parked false := by
      rintro rfl
      exact hwoken hreturned (by simp)
    simp only [waiters, hclosed, List.mem_append, List.mem_cons] at hmem ⊢
    exact hmem.imp_right (Or.imp_left fun hnew =>
      absurd hnew.symm (Waiter.step_true_of_awake hawake).1)

/-- The call that found the flag down notifies everybody before it returns. -/
theorem caller (h : r.Sound) (j : Nat) : (r.step (.caller j)).Sound := by
  rcases r.step_caller_cases j with hstep | ⟨front, call, back, hsplit, hstep⟩
  · rwa [hstep]
  obtain ⟨honce, hraised, hdone, hwoken⟩ := h
  rw [hsplit, List.countP_append, List.countP_cons] at honce
  rw [hsplit] at hraised hwoken
  rw [hstep]
  cases call with
  | start =>
      refine ⟨?_, fun _ _ _ => rfl, fun _ => rfl, fun hreturned => hwoken ?_⟩
      · have hfirst : (Call.start.step r.closer).2.isFirst = !r.closer.closed := rfl
        rw [List.countP_append, List.countP_cons, hfirst]
        cases hclosed : r.closer.closed with
        | false =>
            rw [hclosed] at honce
            exact congrArg (· + 1) honce
        | true =>
            rw [hclosed] at honce
            exact honce
      · simpa [Call.step] using hreturned
  | swapped first =>
      have hclosed := hraised (.swapped first) (by simp) nofun
      cases first with
      | true =>
          refine ⟨?_, fun _ _ _ => hclosed, fun _ => hclosed, fun _ hmem => ?_⟩
          · rwa [List.countP_append, List.countP_cons]
          · obtain ⟨w, -, hw⟩ := List.mem_map.mp hmem
            exact w.notify_ne_parked hw
      | false =>
          refine ⟨?_, fun _ _ _ => hclosed, fun _ => hclosed, fun hreturned => hwoken ?_⟩
          · rwa [List.countP_append, List.countP_cons]
          · simpa [Call.step] using hreturned
  | returned first =>
      refine ⟨?_, hraised, hdone, hwoken⟩
      rwa [List.countP_append, List.countP_cons]

theorem step (h : r.Sound) (m : Move) : (r.step m).Sound := by
  cases m with
  | wait => exact h.wait
  | call => exact h.call
  | waiter i => exact h.waiter i
  | caller j => exact h.caller j

theorem run (h : r.Sound) (moves : List Move) : (r.run moves).Sound := by
  induction moves generalizing r with
  | nil => exact h
  | cons m rest ih => exact ih (h.step m)

end Sound

/-! ## Progress -/

/-- What is closed stays closed. -/
theorem closed_step (h : r.closer.closed = true) (m : Move) :
    (r.step m).closer.closed = true := by
  cases m with
  | wait => exact h
  | call => exact h
  | waiter i => exact h
  | caller j =>
      rcases r.step_caller_cases j with hstep | ⟨front, call, back, -, hstep⟩
      · rwa [hstep]
      · rw [hstep]
        cases call with
        | start => rfl
        | swapped first => cases first <;> exact h
        | returned first => exact h

/-- What becomes of a waiter who is awake, in one move of anybody. -/
theorem stepsLeft_step (hclosed : r.closer.closed = true) (hw : r.waiters[i]? = some w)
    (hawake : w ≠ .parked false) (m : Move) :
    ∃ w', (r.step m).waiters[i]? = some w' ∧ w' ≠ .parked false ∧
      w'.stepsLeft = w.stepsLeft - if m = .waiter i then 1 else 0 := by
  cases m with
  | wait =>
      obtain ⟨hi, -⟩ := List.getElem?_eq_some_iff.mp hw
      exact ⟨w, (List.getElem?_append_left hi).trans hw, hawake, rfl⟩
  | call => exact ⟨w, hw, hawake, rfl⟩
  | waiter k =>
      have hget : (r.step (.waiter k)).waiters[i]? =
          r.waiters[i]?.map fun w => if k = i then w.step r.closer.closed else w :=
        List.getElem?_modify ..
      rw [hget, hw, Option.map_some]
      by_cases hk : k = i
      · obtain ⟨hawake', hleft⟩ := Waiter.step_true_of_awake hawake
        exact ⟨w.step true, by rw [if_pos hk, hclosed], hawake', by simp [hleft, hk]⟩
      · exact ⟨w, by rw [if_neg hk], hawake, by simp [hk]⟩
  | caller j =>
      rcases r.step_caller_cases j with hstep | ⟨front, call, back, -, hstep⟩
      · exact ⟨w, by rwa [hstep], hawake, rfl⟩
      · rw [hstep]
        cases call with
        | start => exact ⟨w, hw, hawake, rfl⟩
        | swapped first =>
            cases first with
            | true =>
                refine ⟨w.notify, ?_, w.notify_ne_parked, w.stepsLeft_notify⟩
                exact (List.getElem?_map ..).trans (congrArg _ hw)
            | false => exact ⟨w, hw, hawake, rfl⟩
        | returned first => exact ⟨w, hw, hawake, rfl⟩

/-- Once the signal is raised, a waiter who is awake stays awake, and each step of its own brings
it nearer to the end, whatever the others do. -/
theorem stepsLeft_run (hclosed : r.closer.closed = true) (hw : r.waiters[i]? = some w)
    (hawake : w ≠ .parked false) (moves : List Move) :
    ∃ w', (r.run moves).waiters[i]? = some w' ∧ w' ≠ .parked false ∧
      w'.stepsLeft = w.stepsLeft - moves.count (.waiter i) := by
  induction moves generalizing r w with
  | nil => exact ⟨w, hw, hawake, rfl⟩
  | cons m rest ih =>
      obtain ⟨w₁, hw₁, hawake₁, hleft₁⟩ := stepsLeft_step hclosed hw hawake m
      obtain ⟨w₂, hw₂, hawake₂, hleft₂⟩ := ih (closed_step hclosed m) hw₁ hawake₁
      refine ⟨w₂, hw₂, hawake₂, ?_⟩
      rw [hleft₂, hleft₁, List.count_cons]
      simp only [beq_iff_eq]
      omega

/-! ## Runs -/

/-- A call that returned `true` is the only one. -/
theorem Sound.count_returned (h : r.Sound) : r.calls.count (.returned true) ≤ 1 :=
  calc r.calls.count (.returned true)
    _ ≤ r.calls.countP Call.isFirst :=
      List.countP_mono_left fun call _ hcall => by rw [eq_of_beq hcall]; rfl
    _ = r.closer.closed.toNat := h.once
    _ ≤ 1 := Bool.toNat_le _

/-- When all calls have returned, one of them returned `true`. -/
theorem Sound.count_returned_of_forall (h : r.Sound) (hsome : r.calls ≠ [])
    (hall : ∀ call ∈ r.calls, ∃ first, call = .returned first) :
    r.calls.count (.returned true) = 1 := by
  obtain ⟨call, hcall⟩ := List.exists_mem_of_ne_nil _ hsome
  obtain ⟨first, rfl⟩ := hall call hcall
  have hclosed := h.raised _ hcall nofun
  calc r.calls.count (.returned true)
    _ = r.calls.countP Call.isFirst := by
      refine List.countP_congr fun call hmem => ?_
      obtain ⟨first, rfl⟩ := hall call hmem
      cases first <;> decide
    _ = 1 := by rw [h.once, hclosed, Bool.toNat_true]

/-- Who is not asleep is done after three steps. -/
theorem Sound.done_of_returned (h : r.Sound) (hreturned : .returned true ∈ r.calls)
    (hi : i < r.waiters.length) {moves : List Move} (hmoves : 3 ≤ moves.count (.waiter i)) :
    (r.run moves).waiters[i]? = some .done := by
  have hawake : r.waiters[i] ≠ .parked false := fun hparked =>
    h.woken hreturned (hparked ▸ List.getElem_mem hi)
  obtain ⟨w, hw, -, hleft⟩ := stepsLeft_run (h.raised _ hreturned nofun)
    (List.getElem?_eq_getElem hi) hawake moves
  have hbound : r.waiters[i].stepsLeft ≤ 3 := Waiter.stepsLeft_le _
  have hdone : w = .done := Waiter.eq_done_of_stepsLeft (by omega)
  rw [hw, hdone]

/-- Who comes when the flag is up never parks. -/
theorem run_step_wait (hclosed : r.closer.closed = true) (moves : List Move) :
    ∃ w, ((r.step .wait).run moves).waiters[r.waiters.length]? = some w ∧
      (∀ notified, w ≠ .parked notified) ∧
      (2 ≤ moves.count (.waiter r.waiters.length) → w = .done) := by
  have hstart : (r.step .wait).waiters[r.waiters.length]? = some .start :=
    List.getElem?_concat_length
  obtain ⟨w, hw, -, hleft⟩ := stepsLeft_run (r := r.step .wait) hclosed hstart nofun moves
  rw [Waiter.stepsLeft] at hleft
  exact ⟨w, hw, Waiter.ne_parked_of_stepsLeft (by omega),
    fun _ => Waiter.eq_done_of_stepsLeft (by omega)⟩

/-- **No wakeup is lost**, whatever the order of the steps: at most one call returns `true`, and one
does when all have returned; nobody is done while the flag is down; once a call has returned `true`,
nobody sleeps and everybody is done after three more steps; and who comes when the flag is up is
done after two, without parking. -/
theorem run_losesNoWakeup (moves : List Move) :
    let r := Race.empty.run moves
    r.calls.count (.returned true) ≤ 1 ∧
      (r.calls ≠ [] → (∀ call ∈ r.calls, ∃ first, call = .returned first) →
        r.calls.count (.returned true) = 1) ∧
      (.done ∈ r.waiters → r.closer.closed = true) ∧
      (.returned true ∈ r.calls → .parked false ∉ r.waiters ∧
        ∀ i < r.waiters.length, ∀ more : List Move, 3 ≤ more.count (.waiter i) →
          (r.run more).waiters[i]? = some .done) ∧
      (r.closer.closed = true → ∀ more : List Move,
        ∃ w, ((r.step .wait).run more).waiters[r.waiters.length]? = some w ∧
          (∀ notified, w ≠ .parked notified) ∧
          (2 ≤ more.count (.waiter r.waiters.length) → w = .done)) := by
  intro r
  have h : r.Sound := Sound.empty.run moves
  refine ⟨h.count_returned, h.count_returned_of_forall, h.done, fun hreturned => ?_, run_step_wait⟩
  exact ⟨h.woken hreturned, fun i hi more => h.done_of_returned hreturned hi⟩

/-- A first waiter sleeps when the flag is swapped, a second one tests it between the swap and the
notification, and another call comes in between as well. -/
theorem losesNoWakeup_of_closeRaces :
    let moves : List Move :=
      [.wait, .waiter 0, .waiter 0, .wait, .waiter 1, .call, .call, .caller 0, .waiter 1,
        .caller 1, .caller 1, .caller 0]
    let r := Race.empty.run moves
    (r.calls = [.returned true, .returned false] ∧ r.waiters = [.parked true, .done]) ∧
      r.calls.count (.returned true) = 1 ∧
      ((r.run [.waiter 0, .call, .waiter 0, .caller 2, .waiter 0]).waiters[0]? = some .done) ∧
      ∃ w, ((r.step .wait).run [.waiter 2, .waiter 2]).waiters[2]? = some w ∧ w = .done := by
  intro moves r
  obtain ⟨-, hone, -, hwoken, hlate⟩ := run_losesNoWakeup moves
  refine ⟨by decide, hone (by decide) (by decide), ?_, ?_⟩
  · exact (hwoken (by decide)).2 0 (by decide) _ (by decide)
  · obtain ⟨w, hw, -, hdone⟩ := hlate (by decide) [.waiter 2, .waiter 2]
    exact ⟨w, hw, hdone (by decide)⟩

end Race

end Closer

end FlowRelay
