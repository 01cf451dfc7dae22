import FlowRelay.Device.Writer
import Mathlib.Data.List.Infix

/-!
# FlowRelay.Proofs.Device.Flushing

What becomes of the packets that are queued for the device when the stop signal is raised.

1. *Order* (`all_step`): a packet that is queued goes behind all others, and nothing else changes
   which packets there are and in which order.
2. *Progress* (`exists_advances`, `left_step_le`): a writer that can find the stop signal has
   something to do until it has ended, and each thing that it does leaves less to do.
3. *Flushing* (`run_flushes`): so the packets are passed to the device in the order of the queue,
   and what was queued before the stop signal has been passed when the writer ends, which it does.
4. *Turns* (`run_schedule`): with everything queued first these are the runs of an outlet.
-/

namespace FlowRelay.Device

/-! ## Counters -/

namespace Outlet

/-- The numbers of bytes that the device says it took. -/
def sizes (o : Outlet) : List Nat := o.offers.filterMap (·.answer.toOption)

/-- The counters are those of the packets that the device took. -/
def Counts (o : Outlet) : Prop := o.traffic = .ofSizes o.sizes

theorem Counts.write {o : Outlet} (h : o.Counts) (q : Queued) : (o.write q).Counts := by
  unfold Counts sizes at h ⊢
  unfold Outlet.write
  cases hanswer : q.answer with
  | error e => simp [hanswer, h, Except.toOption]
  | ok n => simp [hanswer, h, Except.toOption]

@[simp] theorem offers_write (o : Outlet) (q : Queued) : (o.write q).offers = o.offers ++ [q] := by
  unfold write
  cases q.answer <;> rfl

end Outlet

namespace Writer

variable {w : Writer} {stopped : Bool}

/-! ## Order -/

/-- The packet that is being written. -/
def underway : Stage → List (List UInt8)
  | .writing _ packet => [packet]
  | .idle _ | .ended => []

/-- The packets that were passed to the device, in order. -/
def passed (w : Writer) : List (List UInt8) := w.outlet.offers.map (·.packet) ++ underway w.stage

/-- All packets that were queued so far, in order. -/
def all (w : Writer) : List (List UInt8) := w.passed ++ w.queue

/-- The packets that are queued, as long as somebody is left to queue any. -/
def queued : List Act → List (List UInt8)
  | [] => []
  | .queue packet :: rest => packet :: queued rest
  | .close :: _ => []
  | .next :: rest | .notice :: rest | .answer _ :: rest | .finish :: rest => queued rest

/-- The packet that an act adds to those of a writer. -/
def added (w : Writer) : Act → List (List UInt8)
  | .queue packet => if w.isOpen then [packet] else []
  | .close | .next | .notice | .answer _ | .finish => []

/-- The packets that acts can add to those of a writer. -/
def pending (w : Writer) (acts : List Act) : List (List UInt8) :=
  if w.isOpen then queued acts else []

/-- **Order**: a packet that is queued goes behind all others. -/
theorem all_step (stopped : Bool) (w : Writer) (act : Act) :
    (w.step stopped act).all = w.all ++ w.added act := by
  obtain ⟨queue, closed, stage, outlet⟩ := w
  cases act with
  | queue packet =>
      simp only [step, added]
      split <;> simp [all, passed]
  | close => simp [step, added, all, passed]
  | next => cases stage <;> cases queue <;> simp [step, added, all, passed, underway]
  | notice =>
      simp only [step, added]
      split <;> simp_all [all, passed, underway]
  | answer answer => cases stage <;> simp [step, added, all, passed, underway]
  | finish =>
      simp only [step, added]
      split
      · split <;> simp_all [all, passed, underway]
      · simp

/-- A queue that is closed stays closed. -/
theorem isOpen_step (h : w.isOpen = false) (act : Act) : (w.step stopped act).isOpen = false := by
  obtain ⟨queue, closed, stage, outlet⟩ := w
  cases act with
  | queue packet => simp [step, h]
  | close => cases stage <;> rfl
  | next => cases stage <;> cases queue <;> simp_all [step, isOpen]
  | notice =>
      simp only [step]
      split <;> simp_all [isOpen]
  | answer answer => cases stage <;> simp_all [step, isOpen]
  | finish =>
      simp only [step]
      split
      · split
        · rfl
        · exact h
      · exact h

theorem isOpen_step_close (w : Writer) : (w.step stopped .close).isOpen = false := by
  unfold isOpen step
  cases w.stage <;> rfl

/-- What an act adds is the first of what can still be added. -/
theorem added_append_pending (w : Writer) (act : Act) (rest : List Act) :
    w.added act ++ (w.step stopped act).pending rest <+: w.pending (act :: rest) := by
  cases hopen : w.isOpen with
  | false =>
      have hnothing : w.added act = [] := by cases act <;> simp [added, hopen]
      simp [pending, hopen, isOpen_step hopen, hnothing]
  | true =>
      cases act with
      | queue packet =>
          have hstep : (w.step stopped (.queue packet)).isOpen = true := by
            simp only [step, hopen, if_true]
            exact hopen
          simp [pending, added, hopen, hstep, queued]
      | close =>
          simp [pending, added, isOpen_step_close]
      | next | notice | answer | finish =>
          simp only [pending, added, hopen, queued, List.nil_append, if_true]
          split
          · exact List.prefix_rfl
          · exact List.nil_prefix

/-- Acts add packets that are queued, in their order. -/
theorem all_run_prefix (stopped : Bool) (w : Writer) (acts : List Act) :
    (w.run stopped acts).all <+: w.all ++ w.pending acts := by
  induction acts generalizing w with
  | nil => exact List.prefix_append _ _
  | cons act rest ih =>
      have hrest := ih (w.step stopped act)
      rw [all_step, List.append_assoc] at hrest
      exact hrest.trans ((List.prefix_append_right_inj _).mpr (added_append_pending w act rest))

/-- No act takes a packet away. -/
theorem all_prefix_run (stopped : Bool) (w : Writer) (acts : List Act) :
    w.all <+: (w.run stopped acts).all := by
  induction acts generalizing w with
  | nil => exact List.prefix_rfl
  | cons act rest ih =>
      have hrest := ih (w.step stopped act)
      rw [all_step] at hrest
      exact (List.prefix_append _ _).trans hrest

theorem isOpen_run (h : w.isOpen = false) (acts : List Act) :
    (w.run stopped acts).isOpen = false := by
  induction acts generalizing w with
  | nil => exact h
  | cons act rest ih => exact ih (isOpen_step h act)

/-- A writer that has ended has ended for good. -/
theorem hasEnded_step (h : w.hasEnded = true) (act : Act) :
    (w.step stopped act).hasEnded = true := by
  have hstage : w.stage = .ended := by
    unfold hasEnded at h
    split at h
    · assumption
    · contradiction
    · contradiction
  cases act with
  | queue packet => simpa [step, isOpen, hstage] using h
  | close => exact h
  | next | notice | answer | finish => simpa [step, hstage] using h

/-- A writer that has ended stays ended. -/
theorem hasEnded_run (h : w.hasEnded = true) (acts : List Act) :
    (w.run stopped acts).hasEnded = true := by
  induction acts generalizing w with
  | nil => exact h
  | cons act rest ih => exact ih (hasEnded_step h act)

/-- What is queued first stays in front. -/
theorem queued_prefix_append (before after : List Act) :
    queued before <+: queued (before ++ after) := by
  induction before with
  | nil => exact List.nil_prefix
  | cons act rest ih =>
      cases act with
      | queue packet => exact (List.prefix_cons_inj packet).mpr ih
      | close => exact List.prefix_rfl
      | next | notice | answer | finish => exact ih

/-- As long as packets can be queued, those of later acts are. -/
theorem queued_append (before after : List Act) (h : (w.run stopped before).isOpen = true) :
    queued (before ++ after) = queued before ++ queued after := by
  induction before generalizing w with
  | nil => rfl
  | cons act rest ih =>
      have hrest := ih h
      cases act with
      | queue packet => rw [List.cons_append, queued, hrest, queued, List.cons_append]
      | close =>
          have hclosed : (w.run stopped (.close :: rest)).isOpen = false :=
            isOpen_run (isOpen_step_close w) rest
          exact absurd (hclosed.symm.trans h) Bool.false_ne_true
      | next | notice | answer | finish => exact hrest

/-! ## Before the stop signal -/

/-- The writer has not found the stop signal, and has ended only if nobody could queue packets. -/
def Waits (w : Writer) : Prop :=
  match w.stage with
  | .idle flushing | .writing flushing _ => flushing = false
  | .ended => w.closed = true

/-- A writer that waits goes on waiting until it is told to stop. -/
theorem Waits.step (h : w.Waits) (act : Act) : (w.step false act).Waits := by
  obtain ⟨queue, closed, stage, outlet⟩ := w
  cases act with
  | queue packet =>
      simp only [Writer.step]
      split <;> exact h
  | close => cases stage <;> first | exact h | rfl
  | next => cases stage <;> cases queue <;> exact h
  | notice => cases stage <;> simpa [Writer.step] using h
  | answer answer => cases stage <;> exact h
  | finish =>
      cases stage with
      | idle flushing =>
          cases queue <;> cases flushing <;> cases closed <;> simp_all [Writer.step, Waits]
      | writing | ended => exact h

/-- The queue of a writer that waits is open unless it was closed. -/
theorem Waits.isOpen_eq (h : w.Waits) : w.isOpen = !w.closed := by
  unfold Waits at h
  unfold isOpen
  split <;> simp_all

/-- Only `close` closes the queue. -/
theorem closed_step {act : Act} (h : act ≠ .close) : (w.step stopped act).closed = w.closed := by
  obtain ⟨queue, closed, stage, outlet⟩ := w
  cases act with
  | queue packet =>
      simp only [step]
      split <;> rfl
  | close => exact absurd rfl h
  | next => cases stage <;> cases queue <;> rfl
  | notice =>
      simp only [step]
      split <;> rfl
  | answer answer => cases stage <;> rfl
  | finish =>
      simp only [step]
      split
      · split <;> rfl
      · rfl

/-- What is pending is queued by the first act or pending behind it. -/
theorem Waits.pending_eq (h : w.Waits) (act : Act) (rest : List Act) :
    w.pending (act :: rest) = w.added act ++ (w.step false act).pending rest := by
  have hstep := (h.step act).isOpen_eq
  by_cases hact : act = .close
  · simp [hact, pending, isOpen_step_close, added, queued]
  · rw [closed_step hact, ← h.isOpen_eq] at hstep
    simp only [pending, hstep]
    cases act with
    | queue packet => cases hopen : w.isOpen <;> simp [added, queued, hopen]
    | close => exact absurd rfl hact
    | next | notice | answer | finish => simp [added, queued]

/-- Before the stop signal all packets are kept that are queued. -/
theorem Waits.all_run (h : w.Waits) (acts : List Act) :
    (w.run false acts).all = w.all ++ w.pending acts := by
  induction acts generalizing w with
  | nil => simp [run, pending, queued]
  | cons act rest ih =>
      have hrest := ih (h.step act)
      rw [all_step, List.append_assoc, ← h.pending_eq] at hrest
      exact hrest

/-! ## Progress -/

/-- How much there is left to do at most. -/
def left (w : Writer) : Nat :=
  2 * w.queue.length +
    match w.stage with
    | .idle false => 2
    | .idle true => 1
    | .writing false _ => 3
    | .writing true _ => 2
    | .ended => 0

/-- The act leaves less to do. -/
def Advances (stopped : Bool) (w : Writer) (act : Act) : Prop := (w.step stopped act).left < w.left

instance (act : Act) : Decidable (w.Advances stopped act) := inferInstanceAs (Decidable (_ < _))

/-- The number of acts that leave less to do. -/
def work (stopped : Bool) (w : Writer) : List Act → Nat
  | [] => 0
  | act :: rest =>
    (if w.Advances stopped act then 1 else 0) + (w.step stopped act).work stopped rest

/-- **Progress**: a writer that can find the stop signal has something to do until it has ended. -/
theorem exists_advances (h : w.stage ≠ .ended) :
    (∃ act ∈ [Act.next, .notice, .finish], w.Advances true act) ∨
      ∀ answer, w.Advances true (.answer answer) := by
  obtain ⟨queue, closed, stage, outlet⟩ := w
  cases stage with
  | idle flushing =>
      refine .inl ?_
      cases queue with
      | nil =>
          cases flushing with
          | false => exact ⟨.notice, by simp, by simp [Advances, step, left]⟩
          | true => exact ⟨.finish, by simp, by simp [Advances, step, left]⟩
      | cons packet rest =>
          refine ⟨.next, by simp, ?_⟩
          cases flushing <;> simp [Advances, step, left] <;> omega
  | writing flushing packet =>
      refine .inr fun answer => ?_
      cases flushing <;> simp [Advances, step, left]
  | ended => exact absurd rfl h

/-- What a packet that is queued adds to the work. -/
theorem left_step_le (w : Writer) (act : Act) :
    (w.step stopped act).left ≤ w.left + 2 * (w.added act).length := by
  obtain ⟨queue, closed, stage, outlet⟩ := w
  cases act with
  | queue packet =>
      simp only [step, added]
      split
      · simp only [left, List.length_append, List.length_singleton]
        omega
      · omega
  | close => exact Nat.le_refl _
  | next =>
      cases stage with
      | idle flushing =>
          cases queue <;> cases flushing <;> simp only [step, added, left, List.length_cons] <;>
            omega
      | writing | ended => exact Nat.le_refl _
  | notice =>
      simp only [step]
      split <;> simp [added, left]
  | answer answer =>
      cases stage with
      | writing flushing packet => cases flushing <;> simp [step, added, left]
      | idle | ended => exact Nat.le_refl _
  | finish =>
      simp only [step]
      split
      · split <;> simp [added, left]
      · simp [added]

/-- The work of many acts is bounded by what is left to do and by what is queued. -/
theorem work_add_left_le (stopped : Bool) (w : Writer) (acts : List Act) :
    w.work stopped acts + (w.run stopped acts).left ≤
      w.left + 2 * (w.pending acts).length := by
  induction acts generalizing w with
  | nil => simp [work, run]
  | cons act rest ih =>
      have hrest := ih (w.step stopped act)
      have hadded : (w.added act ++ (w.step stopped act).pending rest).length ≤
          (w.pending (act :: rest)).length := (added_append_pending w act rest).length_le
      have hstep : (w.step stopped act).left ≤ w.left + 2 * (w.added act).length :=
        left_step_le w act
      rw [List.length_append] at hadded
      rw [run, List.foldl_cons, ← run, work]
      split
      · next hadvances =>
          unfold Advances at hadvances
          omega
      · omega

/-- A writer has at most two steps left for each packet. -/
theorem left_le (w : Writer) : w.left ≤ 2 * w.all.length + 2 := by
  have hall : w.all.length =
      w.outlet.offers.length + (underway w.stage).length + w.queue.length := by
    rw [all, passed, List.length_append, List.length_append, List.length_map]
  rw [left, hall]
  cases w.stage with
  | idle flushing => cases flushing <;> dsimp only <;> omega
  | writing flushing packet =>
      rw [underway, List.length_singleton]
      cases flushing <;> dsimp only <;> omega
  | ended => dsimp only; omega

/-! ## Flushing -/

/-- What holds of a writer at any time: nothing is queued any more once it has ended, and the
counters are those of the packets that the device took. -/
structure Sound (w : Writer) : Prop where
  queue_eq : w.stage = .ended → w.queue = []
  counts : w.outlet.Counts

/-- Acts keep a writer sound. -/
theorem Sound.step (h : w.Sound) (act : Act) : (w.step stopped act).Sound := by
  obtain ⟨queue, closed, stage, outlet⟩ := w
  cases act with
  | queue packet =>
      simp only [Writer.step]
      split
      · next hopen =>
          refine ⟨fun hended => ?_, h.counts⟩
          obtain rfl : stage = .ended := hended
          simp [isOpen] at hopen
      · exact h
  | close => exact ⟨h.queue_eq, h.counts⟩
  | next =>
      cases stage with
      | idle flushing =>
          cases queue with
          | nil => exact h
          | cons packet rest => exact ⟨nofun, h.counts⟩
      | writing | ended => exact h
  | notice =>
      simp only [Writer.step]
      split
      · exact ⟨nofun, h.counts⟩
      · exact h
  | answer answer =>
      cases stage with
      | writing flushing packet => exact ⟨nofun, h.counts.write ⟨packet, answer⟩⟩
      | idle | ended => exact h
  | finish =>
      simp only [Writer.step]
      split
      · split
        · exact ⟨fun _ => rfl, h.counts⟩
        · exact h
      · exact h

theorem Sound.run (h : w.Sound) (acts : List Act) : (w.run stopped acts).Sound := by
  induction acts generalizing w with
  | nil => exact h
  | cons act rest ih => exact ih (h.step act)

theorem sound_empty : empty.Sound := ⟨nofun, rfl⟩

/-- **Flushing**: whatever is queued and whatever the device answers before and after the stop
signal is raised, the packets are passed to the device in the order of the queue and once each.
Those that were queued before the signal have all been passed when the writer ends.  The counters
are those of the packets that the device took.  The writer has something to do until it ends, and
not more than twice for each packet. -/
theorem run_flushes (before after : List Act) :
    ((empty.run false before).run true after).passed <+: queued (before ++ after) ∧
    (((empty.run false before).run true after).stage = .ended →
      queued before <+: ((empty.run false before).run true after).passed) ∧
    ((empty.run false before).run true after).outlet.traffic =
      .ofSizes ((empty.run false before).run true after).outlet.sizes ∧
    (((empty.run false before).run true after).stage ≠ .ended →
      (∃ act ∈ [Act.next, .notice, .finish],
        ((empty.run false before).run true after).Advances true act) ∨
      ∀ answer, ((empty.run false before).run true after).Advances true (.answer answer)) ∧
    (empty.run false before).work true after ≤ 2 * (queued (before ++ after)).length + 2 := by
  have hwaits : empty.Waits := rfl
  have hbefore : (empty.run false before).all = queued before := hwaits.all_run before
  have hpending : queued before ++ (empty.run false before).pending after <+:
      queued (before ++ after) := by
    unfold pending
    split
    · next hopen => rw [queued_append before after hopen]
    · rw [List.append_nil]
      exact queued_prefix_append before after
  have hall := all_run_prefix true (empty.run false before) after
  rw [hbefore] at hall
  have hsound : ((empty.run false before).run true after).Sound :=
    (sound_empty.run before).run after
  refine ⟨?_, fun hended => ?_, hsound.counts, exists_advances, ?_⟩
  · exact ((List.prefix_append _ _).trans hall).trans hpending
  · have hkept := all_prefix_run true (empty.run false before) after
    rwa [hbefore, all, hsound.queue_eq hended, List.append_nil] at hkept
  · have hwork := work_add_left_le true (empty.run false before) after
    have hleft := left_le (empty.run false before)
    have hlength := hpending.length_le
    rw [hbefore] at hleft
    rw [List.length_append] at hlength
    omega

/-! ## Turns -/

/-- The acts of a writer that finds the stop signal with everything queued. -/
def flushing (queue : List Queued) : List Act :=
  .notice :: (queue.flatMap fun q => [.next, .answer q.answer]) ++ [.finish]

/-- The acts of a writer for which everything is queued when the stop signal has been raised. -/
def schedule : List Turn → List Queued → List Act
  | .packet :: turns, q :: queue => .next :: .answer q.answer :: schedule turns queue
  | _, queue => flushing queue

/-- A writer whose queue is known offers its packets in order. -/
theorem run_offers (o : Outlet) (queue : List Queued) :
    run true ⟨queue.map (·.packet), false, .idle true, o⟩
      (queue.flatMap fun q => [.next, .answer q.answer]) =
      ⟨[], false, .idle true, o.flush queue⟩ := by
  induction queue generalizing o with
  | nil => rfl
  | cons q rest ih => exact ih (o.write q)

/-- A writer that is told to stop offers what is queued, and ends. -/
theorem run_flushing (o : Outlet) (queue : List Queued) :
    run true ⟨queue.map (·.packet), false, .idle false, o⟩ (flushing queue) =
      ⟨[], false, .ended, o.flush queue⟩ := by
  have hoffers := run_offers o queue
  rw [run] at hoffers ⊢
  rw [flushing, List.cons_append, List.foldl_cons, List.foldl_append]
  simp only [step, hoffers]
  rfl

/-- **Turns**: these are the runs of an outlet if everything is queued first. -/
theorem run_schedule (o : Outlet) (turns : List Turn) (queue : List Queued) :
    run true ⟨queue.map (·.packet), false, .idle false, o⟩ (schedule turns queue) =
      ⟨[], false, .ended, o.run turns queue⟩ := by
  induction turns generalizing o queue with
  | nil => exact run_flushing o queue
  | cons turn turns ih =>
      cases turn with
      | stop => exact run_flushing o queue
      | packet =>
          cases queue with
          | nil => exact run_flushing o []
          | cons q rest => exact ih (o.write q) rest

end Writer

end FlowRelay.Device
