import Chip8.Host.Script
import Chip8.Proofs.Hoare
import Chip8.Proofs.Pacing

/-!
# Scheduling

What a host does when nothing in its queue is due, as it is whenever it is left alone: processing
events does nothing, and what is scheduled without a delay is carried out at once and leaves the
queue as it was.

## Main definitions

* `EventQueue.Late`: nothing in the queue is due
* `Host.clockTick`: a cycle with the events that come due after it

## Main statements

* `Host.ensuring_eq`: cleaning up leaves the outcome alone
* `Host.processEvents_late`, `Host.schedule_now`: processing and scheduling when nothing is due
* `Host.tickTimes_succ`, `Host.tickTimes_add`: a running host ticks its clock one by one
* `Host.tick_late`, `Host.execute_tick_late`: when nothing is due, a tick starts with the next
  instruction
-/

namespace Chip8

namespace EventQueue

variable {α : Type} {q : EventQueue α} {clock : Int}

/-- All events are later than a clock. -/
def Late (q : EventQueue α) (clock : Int) : Prop := ∀ e ∈ q.events, clock < e.clock

theorem Late.due (h : q.Late clock) : q.due clock = [] := by
  obtain ⟨events⟩ := q
  cases events with
  | nil => rfl
  | cons f fs =>
    have hf := h f List.mem_cons_self
    simp [EventQueue.due, hf]

theorem Late.later (h : q.Late clock) : q.later clock = q := by
  have hall := q.due_append_later clock
  rw [h.due, List.nil_append] at hall
  exact congrArg EventQueue.mk hall

/-- An event for now comes before all others, and leaves them when it is taken. -/
theorem Late.insert (h : q.Late clock) {e : Event α} (hnow : e.clock = clock) :
    (q.insert e).due clock = [e] ∧ (q.insert e).later clock = q := by
  -- No event in the queue is as early, so the new one goes to the front.
  have hfront : q.insert e = ⟨e :: q.events⟩ := by
    obtain ⟨events⟩ := q
    cases events with
    | nil => rfl
    | cons f fs =>
      have hbefore : e.before f = true := by
        have hf := h f List.mem_cons_self
        exact Event.before_iff.2 (.inl (by omega))
      simp only [EventQueue.insert, insertEvent, hbefore, if_true]
  have hle : e.clock ≤ clock := by omega
  have hdue := h.due
  have hlater := h.later
  rw [hfront]
  simp only [EventQueue.due, EventQueue.later, hle, decide_true, List.takeWhile_cons_of_pos,
    List.dropWhile_cons_of_pos] at hdue hlater ⊢
  rw [hdue]
  exact ⟨rfl, hlater⟩

end EventQueue

namespace Host

variable {σ Op : Type}

theorem anchorClock_zero {h : Host σ Op} {f : Int} (hf : 0 < f)
    (hfrequency : h.frequency = .integer f) (hclock : h.clock = 0) :
    anchorClock h = .ok () { h with anchor := h.world.now } := by
  have hanchor : Pacer.anchor h.world.now h.clock h.frequency = .ok h.world.now := by
    rw [hclock, hfrequency]
    exact Pacer.anchor_zero _ hf
  simp only [anchorClock, anchorAt, run_bind, run_get, hanchor]
  rfl

/-- Where the clock is anchored, nothing else changes. -/
theorem exists_of_anchorClock_eq_ok {h k : Host σ Op} (hend : anchorClock h = .ok () k) :
    ∃ anchor, k = { h with anchor } := by
  simp only [anchorClock, anchorAt, run_bind, run_get] at hend
  cases hanchor : Pacer.anchor h.world.now h.clock h.frequency with
  | ok anchor =>
    rw [hanchor] at hend
    cases hend
    exact ⟨anchor, rfl⟩
  | error cause =>
    rw [hanchor] at hend
    cases hend

/-! ## Cleaning up -/

/-- Cleaning up that ends well does not change how the body ended. -/
theorem ensuring_eq {α : Type} {body : HostM σ Op α} {cleanup : HostM σ Op Unit} {h k : Host σ Op}
    (hclean : cleanup (finalState (body h)) = .ok () k) :
    outcome (ensuring body cleanup h) = outcome (body h) ∧
      finalState (ensuring body cleanup h) = k := by
  cases hbody : body h with
  | ok a last =>
    rw [hbody, finalState] at hclean
    simp only [ensuring, hbody, hclean]
    exact ⟨rfl, rfl⟩
  | error e last =>
    rw [hbody, finalState] at hclean
    simp only [ensuring, hbody, hclean]
    exact ⟨rfl, rfl⟩

/-! ## Events -/

variable [Plant σ Op] {run : Runner σ Op}

theorem runner_nil (depth : Nat) : (runner depth [] : HostM σ Op Unit) = pure () := by
  cases depth <;> rfl

/-- Nothing happens before an event is due. -/
theorem processEvents_late {h : Host σ Op} (hlate : h.queue.Late h.clock) :
    processEvents run h = .ok () h := by
  simp only [processEvents, run_bind, takeDue, run_modifyGet, hlate.due, hlate.later]
  rfl

theorem schedule_now {h : Host σ Op} (hlate : h.queue.Late h.clock) (task : Task Op) :
    schedule run 0 task h = perform run task { h with scheduled := h.scheduled + 1 } := by
  obtain ⟨hdue, hlater⟩ := hlate.insert (e := ⟨h.clock + (0 : Nat), h.scheduled, task⟩)
    (Int.add_zero _)
  -- The task is the only event taken from the queue.
  have hschedule : schedule run 0 task h =
      (perform run task >>= fun _ => pure ()) { h with scheduled := h.scheduled + 1 } := by
    simp only [schedule, enqueue, run_bind, run_modify, Int.le_refl, if_true,
      processEvents, takeDue, run_modifyGet, Int.toNat_zero, hdue, hlater]
    rfl
  rw [hschedule]
  simp only [run_bind]
  cases perform run task { h with scheduled := h.scheduled + 1 } <;> rfl

/-! ## Ticks of the clock -/

/-- A cycle that the clock counts. -/
def clockedCycle (run : Runner σ Op) : HostM σ Op Unit := do
  cycle run
  modify fun h => { h with clock := h.clock + 1 }

/-- One tick of the clock: a cycle, with the events that come due after it. -/
def clockTick (run : Runner σ Op) : HostM σ Op Unit := do
  clockedCycle run
  processEvents run

theorem tickTimes_succ {h : Host σ Op} (hstatus : h.status = .running) (n : Nat) :
    tickTimes run (n + 1) h = (clockTick run >>= fun _ => tickTimes run n) h := by
  simp only [tickTimes, clockTick, clockedCycle, run_bind, run_get, hstatus, if_true]
  cases cycle run h <;> rfl

theorem tickTimes_idle {h : Host σ Op} (hstatus : h.status ≠ .running) (n : Nat) :
    tickTimes run n h = .ok () h := by
  cases n with
  | zero => rfl
  | succ n =>
    simp only [tickTimes, run_bind, run_get, hstatus, if_false]
    rfl

theorem tickTimes_add (h : Host σ Op) (i j : Nat) :
    tickTimes run (i + j) h = (tickTimes run i >>= fun _ => tickTimes run j) h := by
  induction i generalizing h with
  | zero =>
    rw [Nat.zero_add]
    rfl
  | succ i ih =>
    by_cases hstatus : h.status = .running
    · rw [Nat.succ_add, run_bind, tickTimes_succ hstatus, tickTimes_succ hstatus,
        run_bind, run_bind]
      cases clockTick run h with
      | ok _ k => exact ih k
      | error e k => rfl
    · simp only [run_bind, tickTimes_idle hstatus]

/-- When ticks fail, there were some that ended well, and then a cycle that failed or an event after
it. -/
theorem exists_completed_of_tickTimes {h k : Host σ Op} {total : Nat} {e : Failure}
    (hend : tickTimes run total h = .error e k) :
    ∃ completed < total, ∃ last, tickTimes run completed h = .ok () last ∧ last.status = .running ∧
      (cycle run last = .error e k ∨
        ∃ next, cycle run last = .ok () next ∧
          processEvents run { next with clock := next.clock + 1 } = .error e k) := by
  induction total generalizing h with
  | zero => cases hend
  | succ total ih =>
    by_cases hstatus : h.status = .running
    · rw [tickTimes_succ hstatus, run_bind] at hend
      cases htick : clockTick run h with
      | ok _ g =>
        rw [htick] at hend
        obtain ⟨completed, hlt, last, hlast, hrest⟩ := ih hend
        refine ⟨completed + 1, by omega, last, ?_, hrest⟩
        rw [tickTimes_succ hstatus, run_bind, htick]
        exact hlast
      | error _ _ =>
        rw [htick] at hend
        cases hend
        refine ⟨0, by omega, h, rfl, hstatus, ?_⟩
        simp only [clockTick, clockedCycle, run_bind] at htick
        cases hcycle : cycle run h with
        | ok _ next =>
          rw [hcycle] at htick
          exact Or.inr ⟨next, rfl, htick⟩
        | error _ _ =>
          rw [hcycle] at htick
          exact Or.inl htick
    · rw [tickTimes_idle hstatus] at hend
      cases hend

/-- When nothing is due, power-off is carried out at once. -/
theorem powerOff_late {h : Host σ Op} (hlate : h.queue.Late h.clock) (hon : h.status ≠ .stopped) :
    powerOff run h = .ok () { h with
      status := .stopped
      chainActive := false
      queue := .empty
      scheduled := h.scheduled + 1 } := by
  have hschedule : schedule run 0 .powerOff h =
      perform run .powerOff { h with scheduled := h.scheduled + 1 } := schedule_now hlate _
  simp only [powerOff, run_bind, run_get, if_pos hon, hschedule]
  rfl

/-- When nothing is due, a tick has nothing to catch up with. -/
theorem tick_late {h : Host σ Op} (hlate : h.queue.Late h.clock) (cycles : Int) :
    tick run cycles h = tickTimes run cycles.toNat h := by
  by_cases hpositive : 0 < cycles
  · simp only [tick, if_pos hpositive, run_bind, processEvents_late hlate]
  · simp only [tick, if_neg hpositive, Int.toNat_of_nonpos (Int.not_lt.1 hpositive)]
    rfl

theorem execute_tick_late {h : Host σ Op} (hlate : h.queue.Late h.clock) (cycles : Int) :
    execute (.tick cycles) h =
      (tickTimes (runner nestingLimit) cycles.toNat >>= fun _ => pure Reply.nothing) h := by
  show (tick _ cycles >>= fun _ => pure Reply.nothing) h = _
  simp only [run_bind, tick_late hlate]

end Host

end Chip8
