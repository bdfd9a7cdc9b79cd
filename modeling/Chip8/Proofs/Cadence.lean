import Chip8.Proofs.Orderly
import Chip8.Proofs.TimerTicks
import Mathlib.Algebra.GroupWithZero.Nat

/-!
# The cadence of the timers

A host that is powered on and left to tick keeps a strict cadence: when the timer chain has told the
timers to tick `u` times, its next event is due at clock `(u + 1) * interval`. An event of the chain
is carried out at the clock it was due at, and the next one comes an interval later. So the cadence
does not drift, whatever the lengths of the ticks, and it can be read off the clock how often the
timers were told.

What else is going on makes no difference, as long as nobody takes control of the host or has it run
in the middle of its own doings: keys, scheduled events, and listeners that come, go and are told of
beeps. Cycles and ticks of the timers that are asked for by hand are counted, but the clock and the
chain do not see them.

## Main definitions

* `Command.StandsAside`, `Command.Continues`: what scripts may do, and what may be done from outside
* `Tally`: what is counted of a watched host
* `Host.Cadence`: where the next event of the timer chain is
* `Host.OnBeat`: how often the timers were told goes with the clock

## Main statements

* `Host.cadence_carryOut`: commands that stand aside leave the cadence alone, also in the middle of
  a tick
* `Host.onBeat_perform`: an event of the timer chain puts the next one an interval later
* `Host.onBeat_runAll`: a host that is left to tick keeps its cadence
-/

namespace Chip8

variable {σ Op : Type}

/-! ## Commands that stand aside -/

mutual

/-- The command neither takes control of the host nor has it run, and nor do the commands of the
scripts that it brings along. -/
def Command.StandsAside : Command Op → Prop
  | .schedule _ _ script | .addListener _ script => Script.StandsAside script
  | .cyclesDue | .advance _ | .setMaxCatchUp _ | .raise _ | .removeListener _ | .operate _ => True
  | _ => False

/-- All commands of the script stand aside. -/
def Script.StandsAside : List (Command Op) → Prop
  | [] => True
  | c :: cs => Command.StandsAside c ∧ Script.StandsAside cs

end

theorem Script.StandsAside.of_mem {script : Script Op} (h : Script.StandsAside script)
    {c : Command Op} (hc : c ∈ script) : c.StandsAside :=
  Script.of_mem (fun _ _ hcons => hcons) h hc

namespace Command

/-- The command lets the host tick, asks for cycles or for a tick of the timers by hand, or stands
aside. -/
def Continues : Command Op → Prop
  | .tick _ | .cycle _ | .updateTimers => True
  | c => c.StandsAside

/-- How many cycles the host is let tick. -/
def batch : Command Op → Nat
  | .tick cycles => cycles.toNat
  | _ => 0

/-- How many cycles are asked for by hand. -/
def cyclesByHand : Command Op → Nat
  | .cycle count => count
  | _ => 0

/-- How many ticks of the timers are asked for by hand. -/
def timersByHand : Command Op → Nat
  | .updateTimers => 1
  | _ => 0

end Command

/-- What is counted of a watched host: the clock, the instruction cycles, and how often the timers
were told to tick. -/
structure Tally where
  clock : Nat
  cycles : Nat
  begun : Nat

namespace Host

/-! ## When the timers are due -/

/-- The clocks at which events of a timer chain are due. -/
def timerClocks (chain : Nat) (es : List (Event (Task Op))) : List Int :=
  (es.filter (·.payload.isTimers chain)).map (·.clock)

section

variable {chain : Nat} {e : Event (Task Op)} {es fs : List (Event (Task Op))}

theorem timerClocks_append :
    timerClocks chain (es ++ fs) = timerClocks chain es ++ timerClocks chain fs := by
  rw [timerClocks, List.filter_append, List.map_append]
  rfl

theorem timerClocks_cons (he : e.payload.isTimers chain = true) :
    timerClocks chain (e :: es) = e.clock :: timerClocks chain es :=
  congrArg (List.map _)
    (List.filter_cons_of_pos (p := fun f : Event (Task Op) => f.payload.isTimers chain) he)

theorem timerClocks_cons_other (he : ¬e.payload.isTimers chain = true) :
    timerClocks chain (e :: es) = timerClocks chain es :=
  congrArg (List.map _)
    (List.filter_cons_of_neg (p := fun f : Event (Task Op) => f.payload.isTimers chain) he)

theorem timerClocks_insertEvent (he : e.payload.isTimers chain = true)
    (hnone : timerClocks chain es = []) :
    timerClocks chain (EventQueue.insertEvent e es) = [e.clock] :=
  congrArg (List.map _) (EventQueue.filter_insertEvent_of_pos he (List.map_eq_nil_iff.1 hnone))

theorem timerClocks_insertEvent_other (he : ¬e.payload.isTimers chain = true) :
    timerClocks chain (EventQueue.insertEvent e es) = timerClocks chain es :=
  congrArg (List.map _) (EventQueue.filter_insertEvent_of_neg he)

end

/-! ## The cadence -/

/-- The host runs, and the events of its timer chain, in the queue or off it but not carried out
yet, are due at given clocks. It is time for the events that are off the queue, and all scripts that
are kept somewhere stand aside. -/
structure Cadence (gap chain : Nat) (tally : Tally) (next : List Int) (es : List (Event (Task Op)))
    (h : Host (Watched σ) Op) : Prop
    extends Arranged (fun _ => True) Script.StandsAside Script.StandsAside es h where
  status : h.status = .running
  active : h.chainActive = true
  pace : h.interval = gap
  clock : h.clock = tally.clock
  cycles : h.plant.cycles = tally.cycles
  begun : h.plant.begun = tally.begun
  next : timerClocks chain (es ++ h.queue.events) = next
  timely : ∀ e ∈ es, e.clock = h.clock
  chain : h.chain = chain
  known : ∀ l ∈ h.known, Script.StandsAside l.script

/-- Nothing is said of a host in which something has failed. -/
def Whatever (_ : Failure) (_ : Host (Watched σ) Op) : Prop := True

variable {interval chain : Nat} {tally : Tally} {next : List Int} {e : Event (Task Op)}
  {es : List (Event (Task Op))} {h : Host (Watched σ) Op}

namespace Cadence

theorem enqueue (hh : Cadence interval chain tally next es h) {delay : Nat} (hdelay : 0 < delay)
    {task : Task Op} (htask : task.Kept Script.StandsAside h.chain) {next' : List Int}
    (hnext : timerClocks chain
      (es ++ EventQueue.insertEvent ⟨h.clock + delay, h.scheduled, task⟩ h.queue.events) = next') :
    Cadence interval chain tally next' es (finalState (Host.enqueue delay task h)) :=
  { hh with
    toArranged := hh.toArranged.enqueue hdelay htask
    next := hnext }

theorem enqueue_script (hh : Cadence interval chain tally next es h) {delay : Nat}
    (hdelay : 0 < delay) (label : String) {script : Script Op}
    (hscript : Script.StandsAside script) :
    Cadence interval chain tally next es
      (finalState (Host.enqueue delay (.script label script) h)) := by
  have hkept : (Task.script label script).Kept Script.StandsAside h.chain := hscript
  refine hh.enqueue hdelay hkept ?_
  have hother : ¬(Task.script label script).isTimers chain = true := Bool.false_ne_true
  rw [timerClocks_append, timerClocks_insertEvent_other hother, ← timerClocks_append]
  exact hh.next

/-- Where no event of the timer chain is to come, the next one comes an interval from now. -/
theorem enqueue_timers (hh : Cadence interval chain tally [] es h) :
    Cadence interval chain tally [(tally.clock + interval : Nat)] es
      (finalState (Host.enqueue h.interval (.timers chain) h)) := by
  have hkept : (Task.timers chain : Task Op).Kept Script.StandsAside h.chain :=
    Nat.le_of_eq hh.chain.symm
  refine hh.enqueue hh.interval hkept ?_
  have hcurrent : (Task.timers chain : Task Op).isTimers chain = true :=
    (Task.isTimers_timers _ _).2 rfl
  obtain ⟨hnone, hqueue⟩ := List.append_eq_nil_iff.1 (timerClocks_append.symm.trans hh.next)
  rw [timerClocks_append, hnone, timerClocks_insertEvent hcurrent hqueue, hh.pace, hh.clock]
  rfl

/-- An event that is not of the timer chain is carried out. -/
theorem drop_head (hh : Cadence interval chain tally next (e :: es) h)
    (he : ¬e.payload.isTimers chain = true) :
    Cadence interval chain tally next es h :=
  { hh with
    toArranged := hh.toArranged.drop_head
    next := (timerClocks_cons_other he).symm.trans hh.next
    timely := fun f hf => hh.timely f (List.mem_cons_of_mem e hf) }

/-- The event of the timer chain is carried out at the clock that it was due at, and there is no
other. -/
theorem take_head {clock : Int} (hh : Cadence interval chain tally [clock] (e :: es) h)
    (he : e.payload.isTimers chain = true) :
    clock = tally.clock ∧ Cadence interval chain tally [] es h := by
  obtain ⟨hclock, hnone⟩ := List.cons.inj ((timerClocks_cons he).symm.trans hh.next)
  refine ⟨?_, { hh with
    toArranged := hh.toArranged.drop_head
    next := hnone
    timely := fun f hf => hh.timely f (List.mem_cons_of_mem e hf) }⟩
  rw [← hclock, hh.timely e List.mem_cons_self, hh.clock]

/-- When the clock has counted a cycle, what is due is taken off the queue. -/
theorem step (hh : Cadence interval chain tally next [] h) :
    Cadence interval chain { tally with clock := tally.clock + 1 }
      next (h.queue.due (h.clock + 1 : Nat))
      { h with clock := h.clock + 1, queue := h.queue.later (h.clock + 1 : Nat) } :=
  { hh with
    toArranged := hh.toArranged.step
    clock := congrArg (· + 1) hh.clock
    next := by
      rw [EventQueue.due_append_later]
      exact hh.next
    timely := by
      intro e he
      have hdue := EventQueue.clock_le_of_mem_due he
      have hmem : e ∈ h.queue.events :=
        h.queue.due_append_later (h.clock + 1 : Nat) ▸ List.mem_append_left _ he
      have hlater := hh.late e hmem
      show e.clock = (h.clock + 1 : Nat)
      omega }

/-- What is due at a clock is not due yet when nothing is off the queue. -/
theorem clock_lt {clock : Int} (hh : Cadence interval chain tally [clock] [] h) :
    tally.clock < clock := by
  have hmem : clock ∈ timerClocks chain ([] ++ h.queue.events) :=
    hh.next ▸ List.mem_singleton_self clock
  obtain ⟨e, he, rfl⟩ := List.mem_map.1 hmem
  rw [← hh.clock]
  exact hh.late e (List.mem_filter.1 he).1

end Cadence

/-! ## What leaves the cadence alone -/

theorem asksOfListeners_cadence :
    AsksOfListeners Script.StandsAside
      (Cadence interval chain tally next es : Host (Watched σ) Op → Prop) where
  listeners _ hh := hh.listeners
  known _ hh := hh.known
  update _ _ _ hh hlisteners hknown := { hh with listeners := hlisteners, known := hknown }

theorem nothingDue_cadence :
    NothingDue (Cadence interval chain tally next es : Host (Watched σ) Op → Prop) where
  late _ hh := hh.late
  skip _ hh := { hh with }

/-- What only the plant does that is watched. -/
theorem cadence_lift {α : Type} (m : PlantM σ α) :
    KeepsOr (Cadence interval chain tally next es) Whatever
      (onPlant (Watched.part.lift m) : HostM (Watched σ) Op α) := by
  intro h hh
  simp only [onPlant, Part.lift, Watched.part]
  cases m (h.plant.plant, h.world) with
  | ok a s => exact { hh with }
  | error e s => trivial

section

variable [Plant σ Op] {run : Runner (Watched σ) Op}
  (hrun : ∀ script, Script.StandsAside script →
    KeepsOr (Cadence interval chain tally next es) Whatever (run script))

include hrun

theorem cadence_script (label : String) {script : Script Op} (hscript : Script.StandsAside script) :
    KeepsOr (Cadence interval chain tally next es) Whatever
      (perform run (.script label script)) := by
  refine .get_bind fun h _ => ?_
  refine KeepsOr.bind (.modify fun _ hh => { hh with }) fun _ => ?_
  exact hrun script hscript

/-- **Commands that stand aside** leave the cadence alone, from outside or from a script. -/
theorem cadence_carryOut {c : Command Op} (hc : c.StandsAside) :
    KeepsOr (Cadence interval chain tally next es) Whatever (carryOut run c) := by
  refine keepsOr_carryOut nothingDue_cadence.immediate ?_
  cases c with
  | cyclesDue => exact keepsOr_cyclesDue_of (fun _ _ hh => { hh with }) fun _ _ _ => trivial
  | advance nanoseconds => exact fun _ hh => { hh with }
  | setMaxCatchUp cycles => exact fun _ hh => { hh with }
  | raise text => exact fun _ _ => trivial
  | schedule delay label script =>
    exact nothingDue_cadence.keepsOr_schedule (cadence_script hrun label hc)
      (fun _ _ hdelay hh => hh.enqueue_script hdelay label hc) delay
  | addListener name script => exact asksOfListeners_cadence.keepsOr_addListener name hc
  | removeListener name =>
    exact asksOfListeners_cadence.keepsOr_removeListener trivial (fun _ _ => trivial) name
  | operate op => exact cadence_lift _
  | _ => exact hc.elim

end

section

variable [Plant σ Op]

theorem cadence_runner (depth : Nat) (script : Script Op) (hscript : Script.StandsAside script) :
    KeepsOr (Cadence interval chain tally next es) Whatever
      (runner depth script : HostM (Watched σ) Op Unit) :=
  keepsOr_runner (fun _ _ => trivial) (fun h hc => h.of_mem hc)
    (fun _ hrun _ => cadence_carryOut hrun) depth hscript

variable (hmodest : Plant.Modest σ) (depth : Nat)

include hmodest

/-! ## Cycles and ticks of the timers -/

/-- One instruction cycle is counted if it ends well. -/
theorem hoare_cycle_cadence :
    Hoare (Cadence interval chain tally next es) (cycle (runner depth) : HostM (Watched σ) Op Unit)
      (fun _ => Cadence interval chain { tally with cycles := tally.cycles + 1 } next es)
        Whatever := by
  intro h hh
  simp only [cycle, run_bind, onPlant, Plant.cycle, Part.lift, Watched.part]
  cases hend : (Plant.cycle : PlantM σ (Script Op)) (h.plant.plant, h.world) with
  | ok script s =>
    obtain rfl := hmodest.cycle _ _ _ hend
    simp only [run_modify, run_pure, runner_nil]
    exact { hh with cycles := congrArg (· + 1) hh.cycles }
  | error e s => trivial

theorem hoare_cycleTimes_cadence (n : Nat) :
    Hoare (Cadence interval chain tally next es)
      (cycleTimes (runner depth) n : HostM (Watched σ) Op Unit)
      (fun _ => Cadence interval chain { tally with cycles := tally.cycles + n } next es)
        Whatever := by
  induction n generalizing tally with
  | zero => exact fun _ hh => hh
  | succ n ih =>
    have htally : tally.cycles + (n + 1) = tally.cycles + 1 + n := by omega
    rw [htally]
    exact (hoare_cycle_cadence hmodest depth).bind fun _ => ih

/-- A tick of the timers is counted, and listeners that are told of a beep stand aside. -/
theorem hoare_updateTimers_cadence :
    Hoare (Cadence interval chain tally next es)
      (updateTimers (runner depth) : HostM (Watched σ) Op Unit)
      (fun _ => Cadence interval chain { tally with begun := tally.begun + 1 } next es)
        Whatever := by
  refine Hoare.get_bind fun h hh => ?_
  rintro h rfl
  obtain ⟨beeped, ⟨plant, world⟩, hticked⟩ := hmodest.updateTimers h.clock (h.plant.plant, h.world)
  simp only [run_bind, onPlant, Plant.updateTimers, run_modify, Part.lift, Watched.part, hticked,
    runner_nil, run_pure]
  have hcounted : Cadence interval chain { tally with begun := tally.begun + 1 } next es
      { h with plant := { h.plant with plant, begun := h.plant.begun + 1 }, world } :=
    { hh with begun := congrArg (· + 1) hh.begun }
  cases beeped with
  | false => exact hcounted
  | true =>
    refine KeepsOr.forM (fun l hl => ?_) _ hcounted
    refine .get_bind fun k _ => ?_
    refine KeepsOr.bind (.modify fun _ hk => { hk with }) fun _ => ?_
    exact cadence_runner depth l.script (hh.listeners l hl)

/-! ## Events -/

/-- The host is on the beat: the chain has told the timers to tick `u` times, the last time is past,
and the next one is at clock `(u + 1) * interval`. Besides those that the clock has counted, there
were `cycles` cycles, and besides those of the chain, `begun` ticks of the timers. -/
def OnBeat (interval chain cycles begun clock : Nat) (es : List (Event (Task Op)))
    (h : Host (Watched σ) Op) : Prop :=
  ∃ u : Nat, u * interval ≤ clock ∧
    Cadence interval chain ⟨clock, cycles + clock, begun + u⟩ [((u + 1) * interval : Nat)] es h

variable {cycles begun clock : Nat}

omit [Plant σ Op] hmodest in
/-- On the beat, the clock tells how often the timers were told to tick. -/
theorem OnBeat.exists_ticks (hh : OnBeat interval chain cycles begun clock [] h) :
    ∃ u : Nat, u * interval ≤ clock ∧ clock < (u + 1) * interval ∧ h.plant.cycles = cycles + clock ∧
      h.plant.begun = begun + u := by
  obtain ⟨u, hpast, hcadence⟩ := hh
  exact ⟨u, hpast, Int.ofNat_lt.1 hcadence.clock_lt, hcadence.cycles, hcadence.begun⟩

/-- A tick of the chain, when no other event of it is to come. -/
theorem hoare_tickChain_cadence :
    Hoare (Cadence interval chain tally [] es)
      (tickChain (runner depth) chain : HostM (Watched σ) Op Unit)
      (fun _ => Cadence interval chain { tally with begun := tally.begun + 1 }
        [(tally.clock + interval : Nat)] es)
      Whatever := by
  refine Hoare.get_bind fun h hh => ?_
  rw [if_pos ⟨hh.chain.symm, hh.active, hh.status⟩]
  rintro _ rfl
  refine (hoare_updateTimers_cadence hmodest depth).bind (fun _ => ?_) _ hh
  intro k hk
  simp only [run_bind, run_get, hk.active, hk.status, and_self, if_true]
  exact hk.enqueue_timers

/-- **An event of the timer chain** is carried out at the clock that it was due at, and the next one
comes an interval later. -/
theorem onBeat_perform (e : Event (Task Op)) (es : List (Event (Task Op))) :
    Hoare (OnBeat interval chain cycles begun clock (e :: es))
      (perform (runner depth : Runner (Watched σ) Op) e.payload)
      (fun _ => OnBeat interval chain cycles begun clock es) Whatever := by
  rintro h ⟨u, hpast, hh⟩
  have hkept := hh.kept e List.mem_cons_self
  cases hpayload : e.payload with
  | timers c =>
    by_cases hcurrent : c = chain
    · subst hcurrent
      obtain ⟨hnow, hnone⟩ := hh.take_head (by rw [hpayload, Task.isTimers_timers])
      have hclock : (u + 1) * interval = clock := Int.ofNat_inj.1 hnow
      have hnext : clock + interval = (u + 1 + 1) * interval := by
        rw [Nat.add_mul (u + 1), hclock, Nat.one_mul]
      refine (hoare_tickChain_cadence hmodest depth).consequence (fun _ hk => hk) ?_
        (fun _ _ hk => hk) h hnone
      intro _ k hk
      exact ⟨u + 1, Nat.le_of_eq hclock, hnext ▸ hk⟩
    · rw [perform, tickChain_stale (hh.chain ▸ hcurrent)]
      exact ⟨u, hpast, hh.drop_head (by rwa [hpayload, Task.isTimers_timers])⟩
  | script label script =>
    rw [hpayload] at hkept
    have hother : ¬e.payload.isTimers chain = true := by
      rw [hpayload]
      exact Bool.false_ne_true
    refine (cadence_script (cadence_runner depth) label hkept).consequence (fun _ hk => hk) ?_
      (fun _ _ hk => hk) h (hh.drop_head hother)
    exact fun _ _ hk => ⟨u, hpast, hk⟩
  | _ =>
    rw [hpayload] at hkept
    exact hkept.elim

/-! ## Ticks -/

/-- The host is on the beat, with a number of cycles to go until the clock shows a total. -/
def ToGo (interval chain cycles begun total left : Nat) (es : List (Event (Task Op)))
    (h : Host (Watched σ) Op) : Prop :=
  ∃ clock, clock + left = total ∧ OnBeat interval chain cycles begun clock es h

theorem ticking_toGo (interval chain cycles begun total : Nat) :
    Ticking (runner depth : Runner (Watched σ) Op) (ToGo interval chain cycles begun total)
      Whatever where
  late := by
    rintro _ h ⟨_, -, _, -, hh⟩
    exact hh.late
  counted := by
    rintro left h ⟨⟨clock, htotal, u, hpast, hh⟩, -⟩
    refine (hoare_cycle_cadence hmodest depth).bind (fun _ => ?_) h hh
    intro k hk
    exact ⟨clock + 1, by omega, u, Nat.le_succ_of_le hpast, hk.step⟩
  perform := by
    rintro left e es h ⟨clock, htotal, hh⟩
    refine (onBeat_perform hmodest depth e es).consequence (fun _ hk => hk) ?_
      (fun _ _ hk => hk) h hh
    exact fun _ _ hk => ⟨clock, htotal, hk⟩

/-- **Ticks of any number** that end well keep the beat, and the clock has counted them all. -/
theorem onBeat_tick (count : Int) :
    Hoare (OnBeat interval chain cycles begun clock [])
      (tick (runner depth) count : HostM (Watched σ) Op Unit)
      (fun _ => OnBeat interval chain cycles begun (clock + count.toNat) []) Whatever := by
  have hticks :=
    (ticking_toGo hmodest depth interval chain cycles begun (clock + count.toNat)).hoare_tick count
  refine hticks.consequence (fun _ hh => ⟨clock, rfl, hh⟩) ?_ fun _ _ hk => hk
  rintro _ h ⟨left, ⟨clock', htotal, u, hpast, hh⟩, hdone⟩
  have hclock : clock' = clock + count.toNat := by
    rw [hdone hh.status] at htotal
    exact htotal
  subst hclock
  exact ⟨u, hpast, hh⟩

/-! ## Runs -/

/-- **A command from outside**, unless it takes control, keeps the beat if it ends well. -/
theorem onBeat_execute {c : Command Op} (hc : c.Continues) :
    Hoare (OnBeat interval chain cycles begun clock []) (execute c : HostM (Watched σ) Op Reply)
      (fun _ =>
        OnBeat interval chain (cycles + c.cyclesByHand) (begun + c.timersByHand)
          (clock + c.batch) [])
      Whatever := by
  have aside (haside : c.StandsAside) :
      KeepsOr (OnBeat interval chain cycles begun clock []) Whatever
        (execute c : HostM (Watched σ) Op Reply) := by
    rintro h ⟨u, hpast, hh⟩
    refine (cadence_carryOut (cadence_runner nestingLimit) haside).consequence (fun _ hk => hk) ?_
      (fun _ _ hk => hk) h hh
    exact fun _ _ hk => ⟨u, hpast, hk⟩
  cases c with
  | tick count => exact (onBeat_tick hmodest nestingLimit count).bind fun _ _ hk => hk
  | cycle count =>
    rintro h ⟨u, hpast, hh⟩
    have htally : cycles + count + clock = cycles + clock + count := by omega
    refine (hoare_cycleTimes_cadence hmodest nestingLimit count).bind (fun _ => ?_) h hh
    refine fun k hk => ⟨u, hpast, ?_⟩
    show Cadence interval chain ⟨clock, cycles + count + clock, begun + u⟩ _ _ k
    rw [htally]
    exact hk
  | updateTimers =>
    rintro h ⟨u, hpast, hh⟩
    have htally : begun + 1 + u = begun + u + 1 := by omega
    refine (hoare_updateTimers_cadence hmodest nestingLimit).bind (fun _ => ?_) h hh
    refine fun k hk => ⟨u, hpast, ?_⟩
    show Cadence interval chain ⟨clock, cycles + clock, begun + 1 + u⟩ _ _ k
    rw [htally]
    exact hk
  | _ => exact aside hc

/-- So do any commands in a row that all end well. -/
theorem onBeat_runAll {run : List (Command Op)} (hrun : ∀ c ∈ run, c.Continues)
    {h : Host (Watched σ) Op} (hh : OnBeat interval chain cycles begun clock [] h)
    (hends : ∀ e, .error e ∉ (runAll execute run h).1) :
    OnBeat interval chain (cycles + (run.map Command.cyclesByHand).sum)
      (begun + (run.map Command.timersByHand).sum)
      (clock + (run.map Command.batch).sum) [] (runAll execute run h).2 := by
  induction run generalizing h cycles begun clock with
  | nil => exact hh
  | cons c cs ih =>
    have hfirst := onBeat_execute hmodest (hrun c List.mem_cons_self) h hh
    cases hend : execute c h with
    | ok reply k =>
      rw [hend] at hfirst
      rw [runAll, hend] at hends ⊢
      have hrest := ih (fun d hd => hrun d (List.mem_cons_of_mem c hd)) hfirst
        fun e he => hends e (List.mem_cons_of_mem _ he)
      simpa only [List.map_cons, List.sum_cons, ← Nat.add_assoc, finalState] using hrest
    | error e k =>
      rw [runAll, hend] at hends
      exact absurd List.mem_cons_self (hends e)

end

end Host

end Chip8
