import Chip8.Proofs.Calm
import Chip8.Proofs.Watching

/-!
# There is one timer chain

While a host runs, exactly one event in its queue is of the current timer chain, and it is at most
an interval away. Events of former chains may be left in the queue, but they do nothing any more. So
the timers never tick twice in an interval, and never cease to tick, however the host is powered,
paused, resumed, reset or set to another frequency, from outside or by a listener that is told of a
beep in the middle of a tick.

The invariant speaks of a host with a watched plant. It says how far the next event is away, and how
many cycles there have been since the last tick of the timers; the two together are never less than
the interval.

A listener is told after the event of the chain was taken from the queue and before the next one is
put there. If it starts a new chain, the next event of the old one is stale from the start.

## Main definitions

* `Command.Controls`, `Command.Steers`: what listeners may do, and what may be done from outside
* `Host.chainEvents`: the events of the current timer chain
* `Host.Steady`: what holds at every moment at which scripts are run
* `Host.Tended`: the next event of the timer chain is in the queue if the host runs
* `Host.Between`, `Host.Owed`: the next event of the timer chain is not in the queue yet

## Main statements

* `Host.tended_startChain`: a new chain has exactly one event in the queue
* `Host.tended_applyReset`, `Host.tended_powerOn`: a reset and power-on renew the timer chain
* `Host.attended_carryOut`: control commands keep or renew the timer chain, also in the middle of a
  tick
-/

namespace Chip8

variable {σ Op : Type}

/-! ## Control -/

mutual

/-- The command is of control: power, pause, reset, frequency and listeners. So are all commands of
the scripts that it brings along. -/
def Command.Controls : Command Op → Prop
  | .powerOn | .powerOff | .pause | .resume | .reset => True
  | .setFrequency _ | .advance _ | .removeListener _ => True
  | .addListener _ script => Script.Controls script
  | _ => False

/-- All commands of the script are of control. -/
def Script.Controls : List (Command Op) → Prop
  | [] => True
  | c :: cs => Command.Controls c ∧ Script.Controls cs

end

theorem Script.Controls.of_mem {script : Script Op} (h : Script.Controls script) {c : Command Op}
    (hc : c ∈ script) : c.Controls :=
  Script.of_mem (fun _ _ hcons => hcons) h hc

/-- The command is of control, lets the host tick, or concerns its plant only. -/
def Command.Steers : Command Op → Prop
  | .tick _ | .operate _ => True
  | c => c.Controls

/-- The operation fails with faults of its program at most. -/
def Failure.IsFault (e : Failure) : Prop := ∃ fault, e = .fault fault

/-- A plant that wants nothing done by itself, and whose timers and reset do not fail. -/
structure Plant.Modest (σ : Type) {Op : Type} [Plant σ Op] : Prop where
  cycle : ∀ s script t, (Plant.cycle : PlantM σ (Script Op)) s = .ok script t → script = []
  updateTimers : ∀ clock s, ∃ beeped t,
    (Plant.updateTimers clock : PlantM σ (TimerResult Op)) s = .ok { beeped } t
  reset : ∀ s, ∃ t, (Plant.reset : PlantM σ Unit) s = .ok () t

def Task.isTimers (chain : Nat) : Task Op → Bool
  | .timers c => c == chain
  | _ => false

@[simp] theorem Task.isTimers_timers (chain c : Nat) :
    (Task.timers c : Task Op).isTimers chain = true ↔ c = chain := by
  simp [Task.isTimers]

namespace Host

/-- The events of the current timer chain that are in the queue. -/
def chainEvents (h : Host σ Op) : List (Event (Task Op)) :=
  h.queue.events.filter (·.payload.isTimers h.chain)

/-! ## The invariant -/

/-- Nothing in the queue is due, all events in it are of timer chains, all scripts that are kept are
of control, and all ticks of the timers have been noted. Those since `base` were of chains after
`floor`. Between any two there were as many cycles as the interval in force at the second of
them. -/
structure Steady (floor : Nat) (base : List TimerTick) (h : Host (Watched σ) Op) : Prop
    extends UpToDate h where
  events : ∀ e ∈ h.queue.events, ∃ chain ≤ h.chain, e.payload = .timers chain
  listeners : ∀ l ∈ h.listeners, Script.Controls l.script
  known : ∀ l ∈ h.known, Script.Controls l.script
  noted : h.plant.begun = h.plant.ticks.length
  since : ∃ new, h.plant.ticks = base ++ new ∧ ∀ t ∈ new, floor < t.chain
  apart : h.plant.ticks.IsChain fun t u => t.cycles + u.interval ≤ u.cycles
  past : ∀ t ∈ h.plant.ticks, t.cycles ≤ h.plant.cycles
  floor_le : floor ≤ h.chain

/-- No timer chain is going. -/
structure Halted (status : Status) (floor : Nat) (base : List TimerTick) (h : Host (Watched σ) Op) :
    Prop extends Steady floor base h where
  idle : h.chainActive = false
  status : h.status = status

/-- If the host runs, exactly one event of the current timer chain is in the queue. It is at most an
interval away, and no sooner than an interval after the last tick of the timers. -/
structure Tended (floor : Nat) (base : List TimerTick) (h : Host (Watched σ) Op) : Prop
    extends Steady floor base h where
  going : h.chainActive = true ↔ h.status = .running
  above : h.status = .running → floor < h.chain
  armed : h.status = .running → ∃ e, h.chainEvents = [e] ∧ e.clock ≤ h.clock + h.interval ∧
    ∀ t ∈ h.plant.ticks.getLast?,
      (t.cycles + h.interval : Int) ≤ h.plant.cycles + (e.clock - h.clock)

/-- The host runs, and the next event of the timer chain is not in the queue. -/
structure Awaited (h : Host (Watched σ) Op) : Prop where
  running : h.status = .running
  active : h.chainActive = true
  none : h.chainEvents = []

/-- The timers of the chain `floor` have ticked, and the next event is not in the queue yet. -/
structure Between (floor : Nat) (base : List TimerTick) (h : Host (Watched σ) Op) : Prop
    extends Steady floor base h, Awaited h where
  chain : h.chain = floor

/-- The timers are to tick, and the interval since the last tick is over. -/
structure Owed (floor : Nat) (base : List TimerTick) (h : Host (Watched σ) Op) : Prop
    extends Steady floor base h, Awaited h where
  above : floor < h.chain
  elapsed : ∀ t ∈ h.plant.ticks.getLast?, t.cycles + h.interval ≤ h.plant.cycles

/-- The next event of the timer chain is in the queue if the host runs, unless a listener is being
told. -/
def Attended (telling : Prop) (floor : Nat) (base : List TimerTick) (h : Host (Watched σ) Op) :
    Prop :=
  Tended floor base h ∨ telling ∧ Between floor base h

/-- The failure is not a fault of the program. -/
def Foreign (e : Failure) (_ : Host (Watched σ) Op) : Prop := ¬e.IsFault

variable {floor : Nat} {base : List TimerTick} {telling : Prop} {status : Status}
  {h : Host (Watched σ) Op}

theorem Attended.steady (hh : Attended telling floor base h) : Steady floor base h :=
  hh.elim Tended.toSteady fun hb => hb.2.toSteady

/-- The world, the pace and the count of events have no part in the timer chain. -/
theorem Attended.aside (hh : Attended telling floor base h) (world : World) (frequency : Number)
    (anchor : Int) (scheduled : Nat) :
    Attended telling floor base { h with world, frequency, anchor, scheduled } :=
  hh.imp (fun ht => { ht with }) (And.imp_right fun hb => { hb with })

theorem mem_of_chainEvents {e : Event (Task Op)} (he : h.chainEvents = [e]) :
    e ∈ h.queue.events := by
  have hmem : e ∈ h.chainEvents := he ▸ List.mem_singleton_self e
  exact (List.mem_filter.1 hmem).1

theorem Halted.tended (hh : Halted status floor base h) (hstatus : status ≠ .running) :
    Tended floor base h := by
  have hidle : h.status ≠ .running := hh.status ▸ hstatus
  refine { hh with
    going := ?_,
    above := fun hrun => absurd hrun hidle,
    armed := fun hrun => absurd hrun hidle }
  simp [hh.idle, hidle]

/-! ## Starting and stopping the chain -/

theorem halted_stopChain :
    Hoare (fun h : Host (Watched σ) Op => Steady floor base h ∧ h.status = status) stopChain
      (fun _ => Halted status floor base) Foreign := by
  rintro h ⟨hh, hstatus⟩
  exact { hh with idle := rfl, status := hstatus }

theorem halted_clearQueue :
    KeepsOr (Halted status floor base) Foreign (clearQueue : HostM (Watched σ) Op Unit) :=
  .modify fun _ hh => { hh with
    toUpToDate := hh.toUpToDate.clear
    events := fun _ he => nomatch he }

theorem keepsOr_anchorClock {I : Host (Watched σ) Op → Prop}
    (hI : ∀ h anchor, I h → I { h with anchor }) : KeepsOr I Foreign anchorClock :=
  .get_bind fun _ _ => keepsOr_anchorAt_of hI (fun _ _ _ ⟨_, heq⟩ => nomatch heq) _

theorem Steady.enqueue (hh : Steady floor base h) {chain : Nat} (hchain : chain ≤ h.chain) :
    Steady floor base (finalState (enqueue h.interval (.timers chain) h)) := by
  refine { hh with toUpToDate := hh.toUpToDate.enqueue hh.interval _, events := ?_ }
  intro e he
  rcases EventQueue.mem_insertEvent.1 he with rfl | he
  · exact ⟨chain, hchain, rfl⟩
  · exact hh.events e he

/-- The event that is awaited comes after an interval. -/
theorem Steady.enqueue_awaited (hh : Steady floor base h) (hawaited : Awaited h)
    (habove : floor < h.chain) :
    Tended floor base (finalState (Host.enqueue h.interval (.timers h.chain) h)) := by
  refine { hh.enqueue (Nat.le_refl _) with
    going := ⟨fun _ => hawaited.running, fun _ => hawaited.active⟩
    above := fun _ => habove
    armed := fun _ => ⟨_, EventQueue.filter_insertEvent_of_pos ((Task.isTimers_timers _ _).2 rfl)
      hawaited.none, Int.le_refl _, ?_⟩ }
  intro t ht
  have hpast := hh.past t (List.mem_of_getLast? ht)
  simp only [Host.enqueue, run_modify, finalState]
  omega

/-- A new chain has a number of its own, so its first event is the only one of it. -/
theorem tended_startChain :
    Hoare (Halted status floor base) (startChain : HostM (Watched σ) Op Unit)
      (fun _ => Tended floor base) Foreign := by
  intro h hh
  by_cases hrun : status = .running
  · subst hrun
    have hcond : h.status = .running ∧ (!h.chainActive) = true := ⟨hh.status, by simp [hh.idle]⟩
    have hsteady : Steady floor base
      { h with chainActive := true, chain := h.chain + 1 } := { hh with
      events := fun e he => (hh.events e he).imp fun _ hc => ⟨Nat.le_succ_of_le hc.1, hc.2⟩
      floor_le := Nat.le_succ_of_le hh.floor_le }
    have hnone : h.queue.events.filter (·.payload.isTimers (h.chain + 1)) = [] := by
      refine List.filter_eq_nil_iff.2 fun e he => ?_
      obtain ⟨chain, hle, hpayload⟩ := hh.events e he
      rw [hpayload, Task.isTimers_timers]
      omega
    simp only [startChain, run_bind, run_get, if_pos hcond]
    exact hsteady.enqueue_awaited ⟨hh.status, rfl, hnone⟩ (Nat.lt_succ_of_le hh.floor_le)
  · have hcond : ¬(h.status = .running ∧ (!h.chainActive) = true) := fun hboth =>
      hrun (hh.status ▸ hboth.1)
    simp only [startChain, run_bind, run_get, if_neg hcond]
    exact hh.tended hrun

/-! ## Control -/

section

variable {P : Host (Watched σ) Op → Prop} {m : HostM (Watched σ) Op Unit}

theorem hoare_attended (hm : Hoare P m (fun _ => Tended floor base) Foreign) :
    Hoare P m (fun _ => Attended telling floor base) Foreign :=
  hm.consequence (fun _ hh => hh) (fun _ _ hh => .inl hh) (fun _ _ hh => hh)

theorem hoare_tended (hm : Hoare P m (fun _ => Halted status floor base) Foreign)
    (hstatus : status ≠ .running) : Hoare P m (fun _ => Tended floor base) Foreign :=
  hm.consequence (fun _ hh => hh) (fun _ _ hh => hh.tended hstatus) (fun _ _ hh => hh)

end

theorem attended_applyPause :
    KeepsOr (Attended telling floor base) Foreign (applyPause : HostM (Watched σ) Op Unit) := by
  refine .get_bind fun h _ => ?_
  refine .ite (fun _ => ?_) fun _ => .pure _
  have hpause : Hoare (Attended telling floor base)
      (modify fun h => { h with status := .paused } : HostM (Watched σ) Op Unit)
      (fun _ h => Steady floor base h ∧ h.status = .paused) Foreign :=
    fun _ hh => ⟨{ hh.steady with }, rfl⟩
  exact hoare_attended (hoare_tended (hpause.bind fun _ => halted_stopChain) (by decide))

theorem attended_applyPowerOff :
    KeepsOr (Attended telling floor base) Foreign (applyPowerOff : HostM (Watched σ) Op Unit) := by
  have hstop : Hoare (Attended telling floor base)
      (modify fun h => { h with status := .stopped } : HostM (Watched σ) Op Unit)
      (fun _ h => Steady floor base h ∧ h.status = .stopped) Foreign :=
    fun _ hh => ⟨{ hh.steady with }, rfl⟩
  have hclear := hstop.bind fun _ => halted_stopChain.bind fun _ => halted_clearQueue
  exact hoare_attended (hoare_tended hclear (by decide))

theorem Tended.running (hh : Tended floor base h) (hidle : h.status ≠ .running) :
    Halted .running floor base { h with status := .running } := by
  refine { hh with idle := ?_, status := rfl }
  have hinactive := mt hh.going.1 hidle
  simpa using hinactive

theorem tended_startChain_of_tended :
    KeepsOr (Tended floor base) Foreign (startChain : HostM (Watched σ) Op Unit) := by
  refine .get_bind fun h hh => ?_
  have hcond : ¬(h.status = .running ∧ (!h.chainActive) = true) := by
    rintro ⟨hrun, hidle⟩
    rw [hh.going.2 hrun] at hidle
    cases hidle
  rw [if_neg hcond]
  exact .pure _

/-- Going on after a pause starts a new chain. -/
theorem attended_applyResume :
    KeepsOr (Attended telling floor base) Foreign (applyResume : HostM (Watched σ) Op Unit) := by
  refine Hoare.get_bind fun h hh => ?_
  by_cases hrun : h.status = .running
  · rw [if_neg (not_not.2 hrun)]
    rintro _ rfl
    exact hh
  · -- A host that does not run is not in the middle of a tick.
    have htended : Tended floor base h := hh.resolve_right fun hb => hrun hb.2.running
    have hresume : Hoare (· = h)
        (modify fun h => { h with status := .running } : HostM (Watched σ) Op Unit)
        (fun _ => Halted .running floor base) Foreign := by
      rintro _ rfl
      exact htended.running hrun
    rw [if_pos hrun]
    exact hoare_attended (hresume.bind fun _ =>
      Hoare.bind (keepsOr_anchorClock fun _ _ hk => { hk with }) fun _ => tended_startChain)

section

variable [Plant σ Op] (hmodest : Plant.Modest σ)

include hmodest

theorem halted_reset :
    KeepsOr (Halted status floor base) Foreign
      (onPlant Plant.reset : HostM (Watched σ) Op Unit) := by
  intro h hh
  obtain ⟨⟨plant, world⟩, hreset⟩ := hmodest.reset (h.plant.plant, h.world)
  simp only [onPlant, Plant.reset, Part.lift, Watched.part, hreset]
  exact { hh with }

/-- A reset takes all events away. A host that runs gets a new chain. -/
theorem tended_applyReset :
    Hoare (Steady floor base) (applyReset : HostM (Watched σ) Op Unit) (fun _ => Tended floor base)
      Foreign := by
  refine Hoare.get_bind fun h hh => ?_
  have hstop : Hoare (· = h) (stopChain : HostM (Watched σ) Op Unit)
      (fun _ => Halted h.status floor base) Foreign :=
    halted_stopChain.consequence (by rintro _ rfl; exact ⟨hh, rfl⟩) (fun _ _ hk => hk)
      (fun _ _ hk => hk)
  have hzero : KeepsOr (Halted h.status floor base) Foreign
      (modify fun h => { h with clock := 0 } : HostM (Watched σ) Op Unit) :=
    .modify fun _ hk => { hk with toUpToDate := hk.toUpToDate.zeroClock }
  refine hstop.bind fun _ => ?_
  refine Hoare.bind halted_clearQueue fun _ => ?_
  refine Hoare.bind hzero fun _ => ?_
  refine Hoare.bind (keepsOr_anchorClock fun _ _ hk => { hk with }) fun _ => ?_
  refine Hoare.bind (halted_reset hmodest) fun _ => ?_
  by_cases hrun : h.status = .running
  · rw [if_pos hrun]
    exact tended_startChain
  · rw [if_neg hrun]
    exact fun _ hk => hk.tended hrun

theorem tended_powerOn :
    Hoare (Steady floor base) (powerOn : HostM (Watched σ) Op Unit) (fun _ => Tended floor base)
      Foreign := by
  refine (tended_applyReset hmodest).bind fun _ => ?_
  -- If the host ran before, the reset has started the chain already.
  have hrunning : Hoare (Tended floor base)
      (modify fun h => { h with status := .running } : HostM (Watched σ) Op Unit)
      (fun _ h => Tended floor base h ∨ Halted .running floor base h) Foreign := by
    intro h hh
    by_cases hrun : h.status = .running
    · have hsame : { h with status := .running } = h := by rw [← hrun]
      exact .inl (hsame.symm ▸ hh)
    · exact .inr (hh.running hrun)
  refine hrunning.bind fun _ => ?_
  refine Hoare.bind (keepsOr_anchorClock fun _ _ hh =>
    hh.imp (fun ht => { ht with }) fun hs => { hs with }) fun _ => ?_
  rintro h (ht | hs)
  · exact tended_startChain_of_tended h ht
  · exact tended_startChain h hs

end

/-- A new frequency comes with a new chain, if the host runs. -/
theorem attended_setFrequency (frequency : Number) :
    KeepsOr (Attended telling floor base) Foreign
      (setFrequency frequency : HostM (Watched σ) Op Unit) := by
  refine .ite (fun _ => .throw_bind (fun _ _ ⟨_, heq⟩ => nomatch heq) _) fun _ => ?_
  refine KeepsOr.bind (.modify fun _ hh => hh.aside _ _ _ _) fun _ => ?_
  refine (keepsOr_anchorClock fun _ _ hh => hh.aside _ _ _ _).bind fun _ => ?_
  refine .get_bind fun h _ => ?_
  cases hinterval : Pacer.timerInterval frequency h.timerFrequency with
  | error cause => exact fun _ _ ⟨_, heq⟩ => nomatch heq
  | ok interval =>
    -- The next event may now be more than an interval away, but it is about to be replaced.
    have hset : Hoare (Attended telling floor base)
        (modify fun h => { h with interval } : HostM (Watched σ) Op Unit)
        (fun _ h => Steady floor base h ∧ (h.status ≠ .running → h.chainActive = false))
        Foreign := by
      intro k hk
      refine ⟨{ hk.steady with interval := Pacer.one_le_timerInterval hinterval }, fun hidle => ?_⟩
      have htended : Tended floor base k := hk.resolve_right fun hb => hidle hb.2.running
      exact (htended.running hidle).idle
    have hpure : (calculate (.ok interval) : HostM (Watched σ) Op Nat) = pure interval := rfl
    rw [hpure, pure_bind]
    refine hset.bind fun _ => ?_
    refine Hoare.get_bind fun k hk => ?_
    by_cases hrun : k.status = .running
    · have hstop : Hoare (· = k) (stopChain : HostM (Watched σ) Op Unit)
          (fun _ => Halted .running floor base) Foreign :=
        halted_stopChain.consequence (by rintro _ rfl; exact ⟨hk.1, hrun⟩) (fun _ _ hk => hk)
          (fun _ _ hk => hk)
      rw [if_pos hrun]
      exact hoare_attended (hstop.bind fun _ => tended_startChain)
    · rw [if_neg hrun]
      rintro _ rfl
      exact .inl (Halted.tended { hk.1 with idle := hk.2 hrun, status := rfl } hrun)

theorem nothingDue_attended :
    NothingDue fun h : Host (Watched σ) Op => Attended telling floor base h where
  late _ hh := hh.steady.late
  skip _ hh := hh.aside _ _ _ _

theorem asksOfListeners_attended :
    AsksOfListeners Script.Controls
      fun h : Host (Watched σ) Op => Attended telling floor base h where
  listeners _ hh := hh.steady.listeners
  known _ hh := hh.steady.known
  update _ _ _ hh hlisteners hknown :=
    hh.imp (fun ht => { ht with listeners := hlisteners, known := hknown })
      (And.imp_right fun hb => { hb with listeners := hlisteners, known := hknown })

section

variable [Plant σ Op] (hmodest : Plant.Modest σ) {run : Runner (Watched σ) Op}

include hmodest

/-- **Control commands** keep or renew the timer chain, from outside or from a listener. They run no
scripts themselves. -/
theorem attended_carryOut {c : Command Op} (hc : c.Controls) :
    KeepsOr (Attended telling floor base) Foreign (carryOut run c) := by
  have renew {m : HostM (Watched σ) Op Unit}
      (hm : Hoare (Steady floor base) m (fun _ => Tended floor base) Foreign) :
      KeepsOr (Attended telling floor base) Foreign m :=
    (hoare_attended hm).consequence (fun _ hh => hh.steady) (fun _ _ hh => hh) (fun _ _ hh => hh)
  refine keepsOr_carryOut nothingDue_attended.immediate ?_
  cases c with
  | powerOn => exact renew (tended_powerOn hmodest)
  | powerOff => exact attended_applyPowerOff
  | pause => exact attended_applyPause
  | resume => exact attended_applyResume
  | reset => exact renew (tended_applyReset hmodest)
  | setFrequency frequency => exact attended_setFrequency frequency
  | advance nanoseconds => exact fun _ hh => hh.aside _ _ _ _
  | addListener name script => exact asksOfListeners_attended.keepsOr_addListener name hc
  | removeListener name =>
    exact asksOfListeners_attended.keepsOr_removeListener trivial
      (fun _ _ ⟨_, heq⟩ => nomatch heq) name
  | _ => exact hc.elim

end

end Host

end Chip8
