import Chip8.Proofs.Cadence
import Chip8.Proofs.Surroundings
import Mathlib.Algebra.Order.Ring.Int
import Mathlib.Tactic.Ring

/-!
# How far the timer rate can be off

The timers are meant to tick `t` times in a second of `f` instruction cycles. What the host keeps is
a whole number of cycles between two ticks: the quotient of the frequencies, rounded down, and no
less than one. Rounding down makes the timers fast, and never slow: after `n` cycles they have
ticked at least `n * t / f` times, rounded down, and less than twice `n * t / f` times. The bound is
approached where the frequency is just short of twice the frequency of the timers. Where it is short
of the frequency of the timers itself, no interval is short enough, and there is a tick with every
cycle.

## Main definitions

* `Command.KeepsPace`: the command does not change the frequency, and brings no script along that
  does
* `Host.AtPace`: the host has a given frequency and interval

## Main statements

* `Pacer.ticks_not_late`, `Pacer.ticks_not_twice`: the ticks of an interval against the ratio of the
  frequencies
* `Host.atPace_execute`: only a change of the frequency changes it
* `Machine.timer_rate`: how often the timers are told to tick in a run
-/

namespace Chip8

/-! ## Rounding down -/

namespace Pacer

variable {f t : Int} {n u interval : Nat}

theorem interval_mul_le (ht : 0 < t) (hle : t ≤ f) :
    ((max 1 (f / t).toNat : Nat) : Int) * t ≤ f := by
  have hquotient : 1 ≤ f / t := (Int.le_ediv_iff_mul_le ht).2 (by omega)
  have hinterval : ((max 1 (f / t).toNat : Nat) : Int) = f / t := by omega
  rw [hinterval]
  exact Int.ediv_mul_le f ht.ne'

theorem lt_interval_mul (ht : 0 < t) : f < (((max 1 (f / t).toNat : Nat) : Int) + 1) * t := by
  have hle : f / t + 1 ≤ ((max 1 (f / t).toNat : Nat) : Int) + 1 := by omega
  exact (Int.lt_ediv_add_one_mul_self f ht).trans_le (Int.mul_le_mul_of_nonneg_right hle ht.le)

/-- Ticks that are no more than `f / t` cycles apart do not lag behind. -/
theorem ticks_not_late (hf : 0 < f) (ht : 0 < t) (hshort : interval * t ≤ f)
    (hnext : n < (u + 1) * interval) :
    n * t / f ≤ u := by
  have hcycles : (n : Int) < (u + 1) * interval := by exact_mod_cast hnext
  refine Int.lt_add_one_iff.1 (Int.ediv_lt_of_lt_mul hf ?_)
  calc (n : Int) * t < (u + 1) * interval * t := Int.mul_lt_mul_of_pos_right hcycles ht
    _ = (u + 1) * (interval * t) := Int.mul_assoc ..
    _ ≤ (u + 1) * f := Int.mul_le_mul_of_nonneg_left hshort (by omega)

/-- Ticks that are no less than half of `f / t` cycles apart are not twice as many. -/
theorem ticks_not_twice (ht : 0 < t) (hlong : f < 2 * interval * t) (hn : 1 ≤ n)
    (hpast : u * interval ≤ n) :
    u * f < 2 * n * t := by
  rcases Nat.eq_zero_or_pos u with rfl | hu
  · have hpositive : 0 < 2 * (n : Int) * t := Int.mul_pos (by omega) ht
    simpa using hpositive
  have hcycles : 2 * ((u : Int) * interval) ≤ 2 * n := by exact_mod_cast Nat.mul_le_mul_left 2 hpast
  calc (u : Int) * f < u * (2 * interval * t) := Int.mul_lt_mul_of_pos_left hlong (by omega)
    _ = 2 * (u * interval) * t := by ring
    _ ≤ 2 * n * t := Int.mul_le_mul_of_nonneg_right hcycles ht.le

/-- **The timer rate**: `u` ticks in `n` cycles, with the next one to come, at the interval that
goes with the frequencies. -/
theorem timer_rate_of_interval (hf : 0 < f) (ht : 0 < t)
    (hinterval : interval = max 1 (f / t).toNat) (hpast : u * interval ≤ n)
    (hnext : n < (u + 1) * interval) :
    (t ≤ f → n * t / f ≤ u ∧ (1 ≤ n → u * f < 2 * n * t)) ∧ (f < t → u = n) ∧ u ≤ n := by
  have hpositive : 1 ≤ interval := hinterval ▸ Nat.le_max_left ..
  refine ⟨fun hle => ⟨?_, fun hn => ?_⟩, fun hlt => ?_, ?_⟩
  · exact ticks_not_late hf ht (hinterval ▸ interval_mul_le ht hle) hnext
  · -- An interval is at least a cycle, so one cycle more makes it at most twice as long.
    have htwice : (interval : Int) + 1 ≤ 2 * interval := by omega
    have hlong : f < (interval + 1) * t := hinterval ▸ lt_interval_mul ht
    exact ticks_not_twice ht (hlong.trans_le (Int.mul_le_mul_of_nonneg_right htwice ht.le)) hn hpast
  · have hquotient : f / t = 0 := Int.ediv_eq_zero_of_lt hf.le hlt
    have hone : interval = 1 := by
      rw [hinterval, hquotient]
      rfl
    subst hone
    omega
  · exact (Nat.le_mul_of_pos_right u hpositive).trans hpast

end Pacer

/-! ## The frequency that a host is created with -/

variable {σ Op : Type}

mutual

/-- The command does not change the frequency, and nor do the commands of the scripts that it brings
along. -/
def Command.KeepsPace : Command Op → Prop
  | .setFrequency _ => False
  | .schedule _ _ script | .addListener _ script => Script.KeepsPace script
  | _ => True

/-- No command of the script changes the frequency. -/
def Script.KeepsPace : List (Command Op) → Prop
  | [] => True
  | c :: cs => Command.KeepsPace c ∧ Script.KeepsPace cs

end

theorem Script.KeepsPace.of_mem {script : Script Op} (h : Script.KeepsPace script) {c : Command Op}
    (hc : c ∈ script) : c.KeepsPace :=
  Script.of_mem (fun _ _ hcons => hcons) h hc

namespace Host

/-- The host has a frequency and an interval, and no script that is kept somewhere changes them. -/
structure AtPace (frequency : Number) (interval : Nat) (h : Host σ Op) : Prop where
  frequency : h.frequency = frequency
  interval : h.interval = interval
  events : ∀ e ∈ h.queue.events, e.payload.Runs Script.KeepsPace
  listeners : ∀ l ∈ h.listeners, Script.KeepsPace l.script
  known : ∀ l ∈ h.known, Script.KeepsPace l.script

variable {frequency : Number} {interval : Nat} {α : Type}

theorem invariant_atPace :
    Invariant Script.KeepsPace (AtPace frequency interval : Host σ Op → Prop) where
  aside _ _ _ _ _ _ _ hh := { hh with }
  recordMark _ _ hh := { hh with }
  pass _ _ hh := { hh with }
  queue _ _ hh hqueue := { hh with events := hqueue }
  events _ hh := hh.events
  told _ hh := hh.listeners

theorem asksOfListeners_atPace :
    AsksOfListeners Script.KeepsPace (AtPace frequency interval : Host σ Op → Prop) where
  listeners _ hh := hh.listeners
  known _ hh := hh.known
  update _ _ _ hh hlisteners hknown := { hh with listeners := hlisteners, known := hknown }

theorem atPace_onPlant (m : PlantM σ α) :
    Keeps (AtPace frequency interval) (onPlant m : HostM σ Op α) := by
  have hany : Hoare (fun _ => True) m (fun _ _ => True) (fun _ _ => True) :=
    .of_forall (fun _ _ => trivial) fun _ _ => trivial
  exact hoare_onPlant_of hany (fun _ _ => trivial) (fun _ _ _ hh _ => { hh with })
    fun _ _ _ hh _ => { hh with }

section

variable [Plant σ Op] (hmodest : Plant.Modest σ)

include hmodest

/-- A modest plant wants nothing done. -/
theorem plantInvariant_atPace :
    PlantInvariant Script.KeepsPace (AtPace frequency interval : Host σ Op → Prop) where
  toInvariant := invariant_atPace
  cycle := hoare_onPlant_of hmodest.quiet.cycle (fun _ _ => trivial)
    (fun _ _ _ hh hs => ⟨{ hh with }, hs.2 ▸ trivial⟩) fun _ _ _ hh _ => { hh with }
  updateTimers clock := hoare_onPlant_of (hmodest.quiet.updateTimers clock) (fun _ _ => trivial)
    (fun _ _ _ hh hs => ⟨{ hh with }, hs.2 ▸ trivial⟩) fun _ _ _ hh _ => { hh with }
  reset := atPace_onPlant _

theorem atPace_carryOut {run : Runner σ Op}
    (hrun : ∀ script, Script.KeepsPace script → Keeps (AtPace frequency interval) (run script))
    {c : Command Op} (hc : c.KeepsPace) : Keeps (AtPace frequency interval) (carryOut run c) := by
  have hJ : PlantInvariant Script.KeepsPace (AtPace frequency interval) :=
    plantInvariant_atPace hmodest
  refine keepsOr_carryOut (hJ.immediate hrun) ?_
  cases c with
  | setFrequency => exact hc.elim
  | setMaxCatchUp cycles => exact fun _ hh => { hh with }
  | schedule delay label script => exact hJ.keeps_schedule hrun delay hc
  | addListener name script => exact asksOfListeners_atPace.keepsOr_addListener name hc
  | removeListener name =>
    exact asksOfListeners_atPace.keepsOr_removeListener trivial (fun _ hh => hh) name
  | operate op => exact atPace_onPlant _
  | _ => exact hJ.spares hrun trivial

theorem atPace_runner (depth : Nat) (script : Script Op) (hscript : Script.KeepsPace script) :
    Keeps (AtPace frequency interval) (runner depth script : HostM σ Op Unit) :=
  keepsOr_runner (E := fun _ => AtPace frequency interval) (fun _ hh => hh)
    (fun h hc => h.of_mem hc) (fun _ hrun _ => atPace_carryOut hmodest hrun) depth hscript

/-- **Only a change of the frequency** changes the frequency and the interval. -/
theorem atPace_execute {c : Command Op} (hc : c.KeepsPace) :
    Keeps (AtPace frequency interval) (execute c : HostM σ Op Reply) :=
  atPace_carryOut hmodest (atPace_runner hmodest nestingLimit) hc

theorem atPace_runAll {commands : List (Command Op)} (hcommands : ∀ c ∈ commands, c.KeepsPace)
    {h : Host σ Op} (hh : AtPace frequency interval h) :
    AtPace frequency interval (runAll execute commands h).2 :=
  keeps_runAll (fun c hc => atPace_execute hmodest (hcommands c hc)) hh

end

end Host

/-! ## Machines -/

namespace Machine

open Console (Operation)
open Host (Unwatched)

variable {m : Machine} {w : Host (Watched Console) Operation} {f : Int}

theorem unwatched_execute (c : Command Operation) :
    Matches Unwatched (Host.execute c : HostM (Watched Console) Operation Reply) (Host.execute c) :=
  Host.alike_execute Watched.simulates (Command.every_of_forall (fun _ => trivial) c)

theorem exists_powerOn_unwatched (hf : 0 < f) (hfrequency : m.frequency = .integer f)
    (hw : Unwatched w m) :
    ∃ counted, Host.execute .powerOn w = .ok .nothing counted ∧ Unwatched counted m.poweredOn := by
  obtain ⟨houtcome, hstate⟩ := unwatched_execute .powerOn w m hw
  rw [execute_powerOn hf hfrequency] at houtcome hstate
  obtain ⟨counted, hcounted⟩ := exists_of_outcome_eq_ok houtcome
  rw [hcounted] at hstate
  exact ⟨counted, hcounted, hstate⟩

/-- At power-on the first tick of the timers is an interval away. -/
theorem onBeat_poweredOn (hinterval : 1 ≤ m.interval)
    (hlisteners : ∀ l ∈ m.listeners, Script.StandsAside l.script)
    (hknown : ∀ l ∈ m.known, Script.StandsAside l.script) (hw : Unwatched w m.poweredOn) :
    Host.OnBeat m.interval (m.chain + 1) w.plant.cycles w.plant.begun 0 [] w := by
  have hqueue : w.queue = m.poweredOn.queue := hw.queue.symm
  have hclock : w.clock = 0 := hw.clock.symm
  have htimers : (Task.timers (m.chain + 1) : Task Operation).isTimers (m.chain + 1) = true :=
    (Task.isTimers_timers _ _).2 rfl
  refine ⟨0, Nat.le_of_eq (Nat.zero_mul _), ?_⟩
  exact {
    status := hw.status.symm
    active := hw.chainActive.symm
    interval := hw.interval ▸ hinterval
    pace := hw.interval.symm
    holds := trivial
    clock := hclock
    cycles := rfl
    begun := rfl
    ordered := hqueue ▸ m.ordered_poweredOn
    late := by
      rw [hqueue, hclock]
      exact m.late_poweredOn hinterval
    next := by
      rw [hqueue]
      show Host.timerClocks (m.chain + 1) [_] = _
      rw [Host.timerClocks_cons htimers]
      simp [Host.timerClocks]
    timely := fun _ he => nomatch he
    kept := by
      intro e he
      rw [List.nil_append, hqueue] at he
      rw [m.timers_of_mem_poweredOn he]
      exact Nat.le_of_eq hw.chain
    listeners := by
      rw [← hw.listeners]
      exact hlisteners
    known := by
      rw [← hw.known]
      exact hknown
    chain := hw.chain.symm }

/-- **How far the timer rate can be off.** A machine is created with positive integer frequencies,
set up, and powered on. It may be told anything before, but no other frequency, and its listeners
are not to take control of it, and not to have it run. From then on it is let tick for `n` cycles,
in batches of any lengths, with whatever is done to it besides that is not control, and nothing
fails.

Then the timers were told to tick `u` times by its scheduler. If the frequency is no less than the
one of the timers, they do not lag behind the ratio of the frequencies, and are less than twice
ahead of it. If it is less, there is a tick with each cycle. There are never more.

The cycles and the ticks are counted of a second machine that is watched and does the same. Those
that were asked for by hand are counted there, too. -/
theorem timer_rate (world : World) (random : RandomSource) {f t : Int} (hf : 0 < f) (ht : 0 < t)
    (soundEnabled : Bool) :
    ∃ (m : Machine) (w : Host (Watched Console) Operation),
      create world random (.integer f) (.integer t) soundEnabled = .ok m ∧
      Host.create { plant := Console.powerUp random soundEnabled } world (.integer f)
        (.integer t) maxCatchUp = .ok w ∧
      ∀ setup : List (Command Operation), (∀ c ∈ setup, c.KeepsPace) →
        (∀ l ∈ (m.after setup).listeners ++ (m.after setup).known, Script.StandsAside l.script) →
        ∃ on counted, Host.execute .powerOn (m.after setup) = .ok .nothing on ∧
          Host.execute .powerOn (runAll Host.execute setup w).2 = .ok .nothing counted ∧
          ∀ run : List (Command Operation), (∀ c ∈ run, c.Continues) →
            (∀ e, .error e ∉ (runAll Host.execute run on).1) →
            let watched := (runAll Host.execute run counted).2
            let n := (run.map Command.batch).sum
            ∃ u : Nat,
              watched.plant.cycles = counted.plant.cycles + (run.map Command.cyclesByHand).sum + n ∧
              watched.plant.begun = counted.plant.begun + (run.map Command.timersByHand).sum + u ∧
              (t ≤ f → n * t / f ≤ u ∧ (1 ≤ n → u * f < 2 * n * t)) ∧ (f < t → u = n) ∧ u ≤ n ∧
              Unwatched watched (after on run) := by
  obtain ⟨w, hw⟩ : ∃ w : Host (Watched Console) Operation,
      Host.create { plant := Console.powerUp random soundEnabled } world (.integer f)
        (.integer t) maxCatchUp = .ok w := ⟨_, Host.create_eq _ world hf ht _⟩
  have hplant : Watched.part.Same ({ plant := Console.powerUp random soundEnabled }, world)
      (Console.powerUp random soundEnabled, world) := rfl
  obtain ⟨m, hm, hstart⟩ := Host.related_create hplant hw
  refine ⟨m, w, hm, hw, ?_⟩
  intro setup hsetup hlisteners
  -- Whatever has happened before, power-on finds the frequency and the interval of the beginning.
  have hnew : Host.AtPace (.integer f) (max 1 (f / t).toNat) m := by
    rw [Host.create_eq _ world hf ht] at hm
    cases hm
    exact {
      frequency := rfl
      interval := rfl
      events := fun _ he => nomatch he
      listeners := fun _ hl => nomatch hl
      known := fun _ hl => nomatch hl }
  have hready : Host.AtPace (.integer f) (max 1 (f / t).toNat) (after m setup) :=
    Host.atPace_runAll Console.modest hsetup hnew
  have hpositive : 1 ≤ (after m setup).interval := hready.interval ▸ Nat.le_max_left ..
  have hsetUp : Unwatched (runAll Host.execute setup w).2 (after m setup) :=
    (agree_runAll unwatched_execute setup hstart).2
  obtain ⟨counted, hcounted, hunwatched⟩ := exists_powerOn_unwatched hf hready.frequency hsetUp
  refine ⟨_, counted, execute_powerOn hf hready.frequency, hcounted, ?_⟩
  intro run hrun hends watched n
  obtain ⟨houtcomes, hsame⟩ := agree_runAll unwatched_execute run hunwatched
  have hbeat := onBeat_poweredOn hpositive (fun l hl => hlisteners l (List.mem_append_left _ hl))
    (fun l hl => hlisteners l (List.mem_append_right _ hl)) hunwatched
  have hran := Host.onBeat_runAll Console.modest hrun hbeat fun e he => hends e (houtcomes ▸ he)
  rw [Nat.zero_add] at hran
  obtain ⟨u, hpast, hnext, hcycles, hbegun⟩ := hran.exists_ticks
  obtain ⟨hfast, hslow, hmost⟩ := Pacer.timer_rate_of_interval hf ht hready.interval hpast hnext
  exact ⟨u, hcycles, hbegun, hfast, hslow, hmost, hsame⟩

/-- At a frequency just short of twice the one of the timers, there are seven ticks of the timers in
seven cycles, besides one that is asked for by hand. -/
theorem timer_rate_seven :
    ∃ (m : Machine) (w : Host (Watched Console) Operation),
      create {} (.listed [] 0) (.integer 119) (.integer 60) false = .ok m ∧
      Host.create { plant := Console.powerUp (.listed [] 0) false } {} (.integer 119) (.integer 60)
        maxCatchUp = .ok w ∧
      let setup :=
        [.addListener "bell" [.operate .registers], .operate (.load [0x60, 3, 0xF0, 0x18, 0x12, 4])]
      let run := [.tick 3, .updateTimers, .operate (.keyDown 5), .tick 4]
      ∃ counted u, Host.execute .powerOn (runAll Host.execute setup w).2 = .ok .nothing counted ∧
        (runAll Host.execute run counted).2.plant.begun = counted.plant.begun + 1 + u ∧
          u = 7 ∧ u * (119 : Int) < 2 * 7 * 60 := by
  obtain ⟨m, w, hm, hw, hruns⟩ := timer_rate {} (.listed [] 0) (f := 119) (t := 60) (by decide)
    (by decide) false
  refine ⟨m, w, hm, hw, ?_⟩
  obtain rfl := Except.ok.inj (hm.symm.trans (create_eq _ _ (by decide) (by decide) _))
  obtain rfl := Except.ok.inj (hw.symm.trans (Host.create_eq _ _ (by decide) (by decide) _))
  intro setup run
  have hsetup : ∀ c ∈ setup, c.KeepsPace := by simp [setup, Command.KeepsPace, Script.KeepsPace]
  have hrun : ∀ c ∈ run, c.Continues := by simp [run, Command.Continues, Command.StandsAside]
  have hbell :
      ∀ l ∈ [(⟨"bell", [.operate .registers]⟩ : Listener Operation),
          ⟨"bell", [.operate .registers]⟩],
      Script.StandsAside l.script := by
    simp [Command.StandsAside, Script.StandsAside]
  obtain ⟨on, counted, hon, hcounted, hends⟩ := hruns setup hsetup hbell
  rw [execute_powerOn (f := 119) (by decide) rfl] at hon
  cases hon
  have hfaultless {outcomes : List (Except Failure Reply)}
      (hok : outcomes = [.ok .nothing, .ok .nothing, .ok .nothing, .ok .nothing]) (e : Failure) :
      .error e ∉ outcomes := by
    simp [hok]
  obtain ⟨u, -, hbegun, hbounds, -⟩ := hends run hrun (hfaultless (by decide +kernel))
  have hstart := hcounted
  rw [Console.powerUp, Memory.powerUp_eq] at hstart
  refine ⟨counted, u, hcounted, hbegun, ?_, (hbounds (by decide)).2 (by decide)⟩
  obtain rfl : finalState _ = counted := congrArg finalState hstart
  exact Nat.add_left_cancel (hbegun.symm.trans (by decide +kernel))

end Machine

end Chip8
