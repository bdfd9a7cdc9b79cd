import Chip8.Proofs.Housekeeping
import Chip8.Proofs.Ordering

/-!
# Commands by what they come down to

A command comes down to a few things that a host does: it lets its plant run, it carries out an
event of control, it changes a setting. Whatever keeps an invariant through these keeps it through
the command. This is gone through once, for every invariant and whatever a failure is to leave.

Most invariants have it that nothing in the queue is due. Then a tick starts with an instruction,
and is kept through if each cycle, each step of the clock and each event are. And what is scheduled
without a delay is carried out at once.

## Main definitions

* `Command.Routine`: what the host does by itself, without scripts and settings
* `Command.Passes`: the command drops no events
* `Host.Ticking`, `Host.Dispatches`: what is kept by the parts of a tick
* `Host.NothingDue`, `Host.Immediate`: what is scheduled for now keeps the invariant if carrying it
  out does
* `Host.Running`: letting the plant run keeps the invariant
* `Host.Spares`: what the command comes down to keeps the invariant

## Main statements

* `Host.Ticking.hoare_tick`: what is kept by the parts of a tick is kept by ticks of any number
* `Host.keepsOr_carryOut`: a command keeps an invariant that it spares
* `Host.Housekeeping.spares`, `Host.Clearance.spares`: which invariants the routine spares
-/

namespace Chip8

variable {σ Op : Type}

/-- The host does by itself what the command asks for, without a script and without a change of its
settings. -/
def Command.Routine : Command Op → Prop
  | .setFrequency _ | .setMaxCatchUp _ | .schedule _ _ _ | .operate _ => False
  | .addListener _ _ | .removeListener _ => False
  | _ => True

/-- The command never cancels what waits. -/
def Command.Passes : Command Op → Prop
  | .powerOn | .powerOff | .reset | .run _ | .applyPowerOff => False
  | _ => True

/-- The event is one of control. -/
def Task.Controls : Task Op → Prop
  | .powerOff | .reset | .pause | .resume => True
  | _ => False

namespace Host

/-- Nothing in the queue is due, and it makes no difference how many events have been scheduled. -/
structure NothingDue (J : Host σ Op → Prop) : Prop where
  late : ∀ h, J h → h.queue.Late h.clock
  skip : ∀ h, J h → J { h with scheduled := h.scheduled + 1 }

variable [Plant σ Op] {run : Runner σ Op} {J : Host σ Op → Prop} {E : Failure → Host σ Op → Prop}

/-! ## Ticks -/

/-- What holds while a host ticks, with a number of cycles to go and with events that are off the
queue but not carried out yet, is kept by the cycles that its clock counts and by its events. -/
structure Ticking (run : Runner σ Op) (P : Nat → List (Event (Task Op)) → Host σ Op → Prop)
    (E : Failure → Host σ Op → Prop) : Prop where
  late : ∀ n h, P n [] h → h.queue.Late h.clock
  counted : ∀ n, Hoare (fun h => P (n + 1) [] h ∧ h.status = .running) (clockedCycle run)
    (fun _ h => P n (h.queue.due h.clock) { h with queue := h.queue.later h.clock }) E
  perform : ∀ n e es, Hoare (P n (e :: es)) (Host.perform run e.payload) (fun _ => P n es) E

namespace Ticking

variable {P : Nat → List (Event (Task Op)) → Host σ Op → Prop} (hP : Ticking run P E)

include hP

theorem hoare_forM (n : Nat) (es : List (Event (Task Op))) :
    Hoare (P n es) (es.forM fun e => Host.perform run e.payload) (fun _ => P n []) E := by
  induction es with
  | nil => exact fun _ hh => hh
  | cons e es ih => exact (hP.perform n e es).bind fun _ => ih

theorem hoare_clockTick (n : Nat) :
    Hoare (fun h => P (n + 1) [] h ∧ h.status = .running) (clockTick run) (fun _ => P n []) E := by
  refine (hP.counted n).bind fun _ => ?_
  -- What is due is taken off the queue at once.
  exact fun h hh => hP.hoare_forM n _ _ hh

/-- A host that stops running leaves the rest of its cycles out. -/
theorem hoare_tickTimes (n : Nat) :
    Hoare (P n []) (tickTimes run n)
      (fun _ h => ∃ left, P left [] h ∧ (h.status = .running → left = 0))
      E := by
  induction n with
  | zero => exact fun h hh => ⟨0, hh, fun _ => rfl⟩
  | succ n ih =>
    intro h hh
    by_cases hrunning : h.status = .running
    · rw [tickTimes_succ hrunning]
      exact (hP.hoare_clockTick n).bind (fun _ => ih) h ⟨hh, hrunning⟩
    · rw [tickTimes_idle hrunning]
      exact ⟨n + 1, hh, fun hrun => absurd hrun hrunning⟩

/-- **Ticks of any number** keep what their parts keep. -/
theorem hoare_tick (cycles : Int) :
    Hoare (P cycles.toNat []) (tick run cycles)
      (fun _ h => ∃ left, P left [] h ∧ (h.status = .running → left = 0)) E := by
  intro h hh
  rw [tick_late (hP.late _ h hh)]
  exact hP.hoare_tickTimes _ h hh

end Ticking

/-- So does what asks nothing of the cycles to go. -/
theorem Ticking.keepsOr_tick {P : List (Event (Task Op)) → Host σ Op → Prop}
    (hP : Ticking run (fun _ => P) E) (cycles : Int) : KeepsOr (P []) E (tick run cycles) :=
  (hP.hoare_tick cycles).consequence (fun _ hh => hh) (fun _ _ ⟨_, hh, _⟩ => hh) fun _ _ hh => hh

/-- It is kept by a cycle that the clock has not counted yet, by the step of the clock and by every
event. -/
structure Dispatches (run : Runner σ Op) (P : Nat → List (Event (Task Op)) → Host σ Op → Prop)
    (E : Failure → Host σ Op → Prop) : Prop where
  late : ∀ n h, P n [] h → h.queue.Late h.clock
  cycle : ∀ n, Hoare (fun h => P (n + 1) [] h ∧ h.status = .running) (Host.cycle run)
    (fun _ => P (n + 1) []) E
  step : ∀ n h, P (n + 1) [] h → P n (h.queue.due (h.clock + 1 : Nat))
    { h with clock := h.clock + 1, queue := h.queue.later (h.clock + 1 : Nat) }
  perform : ∀ n e es, Hoare (P n (e :: es)) (Host.perform run e.payload) (fun _ => P n es) E

theorem Dispatches.ticking {P : Nat → List (Event (Task Op)) → Host σ Op → Prop}
    (hP : Dispatches run P E) : Ticking run P E where
  late := hP.late
  counted n := (hP.cycle n).bind fun _ h hh => hP.step n h hh
  perform := hP.perform

/-! ## Scheduling for now -/

/-- An event of control that is scheduled without a delay keeps the invariant, if carrying it out
does. -/
def Immediate (run : Runner σ Op) (J : Host σ Op → Prop) (E : Failure → Host σ Op → Prop) : Prop :=
  ∀ task : Task Op, task.Controls → KeepsOr J E (perform run task) →
    KeepsOr J E (schedule run 0 task)

namespace Immediate

variable (hnow : Immediate run J E)

include hnow

theorem keepsOr_schedule_if (c : Host σ Op → Prop) [DecidablePred c] {task : Task Op}
    (hcontrols : task.Controls) (htask : KeepsOr J E (perform run task)) :
    KeepsOr J E (do if c (← get) then schedule run 0 task) :=
  .get_bind fun _ _ => .ite (fun _ => hnow task hcontrols htask) fun _ => .pure _

theorem keepsOr_powerOff (h : KeepsOr J E applyPowerOff) : KeepsOr J E (powerOff run) :=
  hnow.keepsOr_schedule_if (·.status ≠ .stopped) trivial h

theorem keepsOr_pause (h : KeepsOr J E applyPause) : KeepsOr J E (pause run) :=
  hnow.keepsOr_schedule_if (·.status = .running) trivial h

theorem keepsOr_resume (h : KeepsOr J E applyResume) : KeepsOr J E (resume run) :=
  hnow.keepsOr_schedule_if (·.status = .paused) trivial h

end Immediate

theorem schedule_of_nonpos {delay : Int} (hdelay : delay ≤ 0) (task : Task Op) :
    schedule run delay task = schedule run 0 task := by
  simp only [schedule, hdelay, Int.toNat_of_nonpos hdelay, Int.le_refl, Int.toNat_zero]

namespace NothingDue

variable (hJ : NothingDue J)

include hJ

theorem keepsOr_schedule_now {task : Task Op} (htask : KeepsOr J E (perform run task)) :
    KeepsOr J E (schedule run 0 task) := by
  intro h hh
  rw [schedule_now (hJ.late h hh)]
  exact htask _ (hJ.skip h hh)

theorem immediate : Immediate run J E := fun _ _ htask => hJ.keepsOr_schedule_now htask

/-- What is scheduled keeps the invariant, if carrying it out does and putting it into the queue
does. -/
theorem keepsOr_schedule {task : Task Op} (htask : KeepsOr J E (perform run task))
    (hlater : ∀ h delay, 0 < delay → J h → J (finalState (enqueue delay task h))) (delay : Int) :
    KeepsOr J E (schedule run delay task) := by
  by_cases hnow : delay ≤ 0
  · rw [schedule_of_nonpos hnow]
    exact hJ.keepsOr_schedule_now htask
  · intro h hh
    have hdelay : 0 < delay.toNat := by omega
    have hrest := hlater h delay.toNat hdelay hh
    simp only [schedule, run_bind, enqueue, run_modify, if_neg hnow]
    exact hrest

end NothingDue

/-! ## Commands -/

/-- The invariant is kept when the plant runs and when time passes, and what a failure on purpose
leaves is there. -/
structure Running (run : Runner σ Op) (J : Host σ Op → Prop) (E : Failure → Host σ Op → Prop) :
    Prop where
  cycle : KeepsOr J E (Host.cycle run)
  updateTimers : KeepsOr J E (Host.updateTimers run)
  tick : ∀ cycles, KeepsOr J E (Host.tick run cycles)
  pass : ∀ h nanoseconds, J h → J { h with world := h.world.pass nanoseconds }
  raise : ∀ h text, J h → E (.raised text) h

/-- What the command comes down to keeps the invariant. -/
def Spares (run : Runner σ Op) (J : Host σ Op → Prop) (E : Failure → Host σ Op → Prop) :
    Command Op → Prop
  | .powerOn => KeepsOr J E powerOn
  | .powerOff | .applyPowerOff => KeepsOr J E applyPowerOff
  | .pause | .applyPause => KeepsOr J E applyPause
  | .resume | .applyResume => KeepsOr J E applyResume
  | .reset => KeepsOr J E applyReset
  | .tick cycles => KeepsOr J E (tick run cycles)
  | .cycle _ => KeepsOr J E (cycle run)
  | .cyclesDue => KeepsOr J E cyclesDue
  | .runUntilNow => KeepsOr J E cyclesDue ∧ ∀ cycles, KeepsOr J E (tick run cycles)
  | .run cycles => KeepsOr J E (runFor run cycles)
  | .setFrequency frequency => KeepsOr J E (setFrequency frequency)
  | .updateTimers => KeepsOr J E (updateTimers run)
  | .advance nanoseconds => ∀ h, J h → J { h with world := h.world.pass nanoseconds }
  | .setMaxCatchUp cycles => ∀ h, J h → J { h with maxCatchUp := cycles }
  | .raise text => ∀ h, J h → E (.raised text) h
  | .schedule delay label script => KeepsOr J E (schedule run delay (.script label script))
  | .addListener name script => KeepsOr J E (addListener name script)
  | .removeListener name => KeepsOr J E (removeListener name)
  | .operate op => KeepsOr J E (onPlant (Plant.operate op))

theorem keepsOr_cycleTimes (hcycle : KeepsOr J E (cycle run)) (n : Nat) :
    KeepsOr J E (cycleTimes run n) := by
  induction n with
  | zero => exact .pure _
  | succ n ih => exact hcycle.bind fun _ => ih

theorem keepsOr_runUntilNow (hdue : KeepsOr J E cyclesDue)
    (htick : ∀ cycles, KeepsOr J E (tick run cycles)) : KeepsOr J E (runUntilNow run) := by
  refine hdue.bind fun due => ?_
  exact (htick due).bind fun _ => .pure _

/-- **One command** keeps an invariant that it spares. -/
theorem keepsOr_carryOut (hnow : Immediate run J E) {c : Command Op} (hc : Spares run J E c) :
    KeepsOr J E (carryOut run c) := by
  have silently {m : HostM σ Op Unit} (hm : KeepsOr J E m) :
      KeepsOr J E (m >>= fun _ => pure Reply.nothing) := hm.bind fun _ => .pure _
  cases c with
  | powerOn => exact silently hc
  | powerOff => exact silently (hnow.keepsOr_powerOff hc)
  | pause => exact silently (hnow.keepsOr_pause hc)
  | resume => exact silently (hnow.keepsOr_resume hc)
  | reset => exact silently (hnow .reset trivial hc)
  | tick cycles => exact silently hc
  | cycle count => exact silently (keepsOr_cycleTimes hc count)
  | cyclesDue => exact KeepsOr.bind hc fun _ => .pure _
  | runUntilNow => exact (keepsOr_runUntilNow hc.1 hc.2).bind fun _ => .pure _
  | run cycles => exact silently hc
  | setFrequency frequency => exact silently hc
  | updateTimers => exact silently hc
  | applyPause => exact silently hc
  | applyResume => exact silently hc
  | applyPowerOff => exact silently hc
  | advance nanoseconds => exact silently (.modify hc)
  | setMaxCatchUp cycles => exact silently (.modify hc)
  | raise text => exact .throw hc
  | schedule delay label script => exact silently hc
  | addListener name script => exact silently hc
  | removeListener name => exact silently hc
  | operate op => exact hc

/-- A host that keeps its house spares the invariant in its routine, unless events are dropped. -/
theorem Housekeeping.spares (hJ : Housekeeping J E) (hrun : Running run J E) {c : Command Op}
    (hroutine : c.Routine) (hpasses : c.Passes) : Spares run J E c := by
  cases c with
  | pause | applyPause => exact hJ.keepsOr_applyPause
  | resume | applyResume => exact hJ.keepsOr_applyResume
  | tick cycles => exact hrun.tick cycles
  | cycle count => exact hrun.cycle
  | cyclesDue => exact hJ.keepsOr_cyclesDue
  | runUntilNow => exact ⟨hJ.keepsOr_cyclesDue, hrun.tick⟩
  | updateTimers => exact hrun.updateTimers
  | advance nanoseconds => exact fun h hh => hrun.pass h nanoseconds hh
  | raise text => exact fun h hh => hrun.raise h text hh
  | powerOn | powerOff | reset | run | applyPowerOff => exact hpasses.elim
  | _ => exact hroutine.elim

/-- Where events may be dropped, too, the routine spares the invariant altogether. -/
theorem Clearance.spares (hJ : Clearance J E) (hrun : Running run J E)
    (hreset : KeepsOr J E (onPlant Plant.reset))
    (hensure : ∀ cycles, KeepsOr J E (ensuring (tick run cycles) (powerOff run))) {c : Command Op}
    (hroutine : c.Routine) : Spares run J E c := by
  cases c with
  | powerOn => exact hJ.keepsOr_powerOn hreset
  | powerOff | applyPowerOff => exact hJ.keepsOr_applyPowerOff
  | reset => exact hJ.keepsOr_applyReset hreset
  | run cycles => exact (hJ.keepsOr_powerOn hreset).bind fun _ => hensure cycles
  | _ => exact hJ.toHousekeeping.spares hrun hroutine trivial

end Host

end Chip8
