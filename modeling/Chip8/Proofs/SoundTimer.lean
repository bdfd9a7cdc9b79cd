import Chip8.Proofs.Batching
import Chip8.Proofs.Beeps
import Chip8.Proofs.Driving
import Chip8.Proofs.Runs
import Chip8.Proofs.TimerChain

/-!
# The sound timer

A program sets the sound timer to a number, the timers tick at every multiple of the interval, and
at the tick that counts the sound timer down to zero there is a beep. This file follows a machine
that is left to its scheduler from power-on, and proves at which clock a program that sets the sound
timer is heard: if it sets it to `n` while the clock shows `c`, the beep comes with the `n`-th
multiple of the interval after `c`, and it comes once.

## Main definitions

* `Board.instruction?`: the instruction that comes next
* `Machine.course`: the machine before each instruction of a run
* `Machine.Paced`: the next event of the timer chain is due at the next multiple of the interval
* `Machine.Sounding`: how far the sound timer has come since it was set, and whether the beep was
  heard

## Main statements

* `Machine.Paced.exists_events`: the events after an instruction
* `Machine.Sounding.events`: what they mean for the sound timer
* `Machine.sound_heard_once`: a sound timer that is set beeps once, and when
-/

namespace Chip8

/-! ## Setting the sound timer -/

namespace Board

variable {b c : Board} {remark : Option Remark}

/-- The instruction that comes next, unless the processor waits for a key. -/
def instruction? (b : Board) : Option Instruction :=
  if b.keyWait.pending then none else some (.ofOpcode b.opcode)

theorem timers_pollKey (b : Board) : (finalState b.pollKey).timers = b.timers := by
  rw [pollKey]
  cases b.keypad.firstDown with
  | none => rfl
  | some key =>
    simp only
    cases place 4 b.keyWait.register <;> rfl

theorem sound_execute (b : Board) {instruction : Instruction}
    (hother : ∀ x, instruction ≠ .setSound x) :
    (finalState (b.execute instruction)).timers.sound = b.timers.sound := by
  cases instruction with
  | setSound x => exact absurd rfl (hother x)
  | returnFromCall =>
    simp only [execute]
    cases b.registers.pop <;> rfl
  | call target =>
    simp only [execute]
    cases b.registers.push b.registers.advance.pc <;> rfl
  | draw x y rows =>
    simp only [execute, drawSprite]
    cases b.screen.draw b.memory b.registers.indexAddress _ _ _ <;> rfl
  | awaitKey x =>
    simp only [execute]
    cases b.keypad.firstDown <;> rfl
  | _ => rfl

theorem timers_of_cycle (h : b.cycle = .ok remark c) : c.timers = (finalState b.step).timers := by
  rw [cycle] at h
  cases hstep : b.step with
  | ok remark d =>
    rw [hstep] at h
    cases h
    rfl
  | error fault d =>
    rw [hstep] at h
    cases h

/-- The sound timer is set by one instruction only. -/
theorem sound_of_cycle (h : b.cycle = .ok remark c)
    (hother : ∀ x, b.instruction? ≠ some (.setSound x)) :
    c.timers.sound = b.timers.sound := by
  rw [timers_of_cycle h, step]
  by_cases hpending : b.keyWait.pending = true
  · rw [if_pos hpending, timers_pollKey]
  · rw [if_neg hpending]
    refine sound_execute b fun x heq => hother x ?_
    rw [instruction?, if_neg hpending, heq]

theorem sound_of_setSound (h : b.cycle = .ok remark c) {x : Nibble}
    (hset : b.instruction? = some (.setSound x)) :
    c.timers.sound = b.v x := by
  rw [timers_of_cycle h, step]
  by_cases hpending : b.keyWait.pending = true
  · rw [instruction?, if_pos hpending] at hset
    cases hset
  · rw [instruction?, if_neg hpending] at hset
    rw [if_neg hpending, Option.some.inj hset]
    rfl

end Board

/-! ## The course of a run -/

/-- How many instructions are asked for. -/
def Drive.cycles : Drive → Nat
  | tick cycles => cycles.toNat
  | _ => 0

namespace Machine

open Console (Operation)

/-- The machine before each of a number of instructions. -/
def steps : Nat → Machine → List Machine
  | 0, _ => []
  | n + 1, m => m :: steps n (finalState (Host.execute (.tick 1) m))

/-- The machine before each instruction of a run. -/
def course : List Drive → Machine → List Machine
  | [], _ => []
  | drive :: drives, m =>
    steps drive.cycles m ++ course drives (finalState (Host.execute drive.command m))

/-! ## The next event -/

/-- The machine runs, and the events of `past` cycles are behind it. The only event in its queue is
the next one of the timer chain, which is due at the next multiple of the interval. Listeners do no
more than look on. -/
structure Paced (past : Nat) (m : Machine) : Prop where
  status : m.status = .running
  active : m.chainActive = true
  positive : 0 < m.interval
  queue : ∃ order : Int,
    m.queue = ⟨[⟨((past / m.interval + 1) * m.interval : Nat), order, .timers m.chain⟩]⟩
  listeners : ∀ l ∈ m.listeners, l.script.LooksOn

/-- What is heard of the events that are due, and what they do to the timers. -/
structure Heard (m m' : Machine) : Prop where
  clock : m'.clock = m.clock
  interval : m'.interval = m.interval
  listeners : m'.listeners = m.listeners
  timers : m'.plant.board.timers =
    if m.interval ∣ m.clock then m.plant.board.timers.tick else m.plant.board.timers
  beeps : m'.plant.beeper.beeps = m.plant.beeper.beeps +
    if m.interval ∣ m.clock ∧ m.plant.board.timers.expiring = true then 1 else 0
  signals : m'.world.signals = m.world.signals ++
    if m.interval ∣ m.clock ∧ m.plant.board.timers.expiring = true then
      Host.alarm m.clock m.listeners else []

variable {m m' : Machine} {past : Nat}

theorem Paced.late (hm : Paced past m) (hclock : m.clock = past) : m.queue.Late m.clock := by
  obtain ⟨order, hqueue⟩ := hm.queue
  have hlt := Nat.lt_mul_div_succ past hm.positive
  rw [Nat.mul_comm] at hlt
  intro e he
  rw [hqueue] at he
  rw [List.mem_singleton.1 he, hclock]
  exact Int.ofNat_lt.2 hlt

/-- **The events after an instruction**: at a multiple of the interval the timers tick, and the next
event is put into the queue. Otherwise nothing happens. -/
theorem Paced.exists_events (hm : Paced past m) (hclock : m.clock = past + 1) :
    ∃ m', Host.processEvents (Host.runner Host.nestingLimit) m = .ok () m' ∧ Heard m m' ∧
      Paced m.clock m' := by
  obtain ⟨order, hqueue⟩ := hm.queue
  by_cases hdue : m.interval ∣ m.clock
  · have hnow := InStep.next_due (hclock ▸ hdue)
    obtain ⟨plant, world, hticked, hboard, hbeeps, hsignals⟩ :=
      Host.updateTimers_heard (m := { m with queue := .empty }) hm.listeners
    refine ⟨_, Host.processEvents_chain hqueue (by rw [hnow]; omega) hm.status hm.active
      hticked, ?_, ?_⟩
    · exact {
        clock := rfl
        interval := rfl
        listeners := rfl
        timers := by rw [if_pos hdue, hboard]
        beeps := by simpa only [hdue, true_and] using hbeeps
        signals := by simpa only [hdue, true_and] using hsignals }
    · refine { hm with queue := ⟨m.scheduled, ?_⟩ }
      have hnext : m.clock + m.interval = (m.clock / m.interval + 1) * m.interval := by
        rw [Nat.add_mul, Nat.div_mul_cancel hdue, Nat.one_mul]
      rw [← hnext]
      rfl
  · have hlate : m.queue.Late m.clock := by
      have hnext := InStep.next_early hm.positive (hclock ▸ hdue)
      intro e he
      rw [hqueue] at he
      rw [List.mem_singleton.1 he]
      dsimp only
      omega
    refine ⟨m, Host.processEvents_late hlate, ?_, { hm with queue := ⟨order, ?_⟩ }⟩
    · exact {
        clock := rfl
        interval := rfl
        listeners := rfl
        timers := by rw [if_neg hdue]
        beeps := by rw [if_neg fun h => hdue h.1, Nat.add_zero]
        signals := by rw [if_neg fun h => hdue h.1, List.append_nil] }
    · rw [hclock] at hdue
      rw [hqueue, hclock, Nat.succ_div_of_not_dvd hdue]

/-! ## From the setting to the beep -/

/-- Which multiple of the interval a sound timer that is set to `n` runs out at. -/
def lastTick (start : Machine) (n : Nat) : Nat := start.clock / start.interval + n

/-- The sound timer was set to `n` at the machine `start`, and the events of `past` cycles are
behind it. It has been counted down at each multiple of the interval since, and the beep was heard
if that has brought it to zero. -/
structure Sounding (start : Machine) (n past : Nat) (m : Machine) : Prop where
  interval : m.interval = start.interval
  listeners : m.listeners = start.listeners
  sound : m.plant.board.timers.sound.toNat = start.lastTick n - past / start.interval
  beeps : m.plant.beeper.beeps =
    start.plant.beeper.beeps + if start.lastTick n ≤ past / start.interval then 1 else 0
  signals : m.world.signals = start.world.signals ++
    if start.lastTick n ≤ past / start.interval then
      Host.alarm (start.interval * start.lastTick n) start.listeners
    else []

/-- A timer that is about to run out stands at one. -/
theorem expiring_iff {t : Timers} : t.expiring = true ↔ t.sound.toNat = 1 := by
  rw [Timers.expiring, beq_iff_eq, BitVec.toNat_eq]
  rfl

/-- **One tick of the clock** counts the sound timer down if it comes to a multiple of the interval,
and the beep is heard when the sound timer was at one. -/
theorem Sounding.events {start : Machine} {n : Nat} (hs : Sounding start n past m)
    (hclock : m.clock = past + 1) (hheard : Heard m m') : Sounding start n m.clock m' := by
  have hsound := hs.sound
  have hexpiring : m.plant.board.timers.expiring = true ↔
      start.lastTick n = past / start.interval + 1 := by
    rw [expiring_iff, hsound]
    omega
  by_cases hdue : start.interval ∣ past + 1
  · have hnext : m.clock / start.interval = past / start.interval + 1 := by
      rw [hclock, Nat.succ_div_of_dvd hdue]
    have hnow : start.interval * (past / start.interval + 1) = m.clock := by
      rw [← hnext, hclock, Nat.mul_div_cancel' hdue]
    have hmultiple : m.interval ∣ m.clock := by rwa [hs.interval, hclock]
    refine ⟨hheard.interval.trans hs.interval, hheard.listeners.trans hs.listeners, ?_, ?_, ?_⟩
    · rw [hheard.timers, if_pos hmultiple, Timers.tick, Timers.toNat_countDown, hsound, hnext]
      omega
    · rw [hheard.beeps, hs.beeps, hnext]
      simp only [hmultiple, true_and, hexpiring]
      split_ifs <;> omega
    · rw [hheard.signals, hs.signals, hnext, List.append_assoc, hs.listeners]
      simp only [hmultiple, true_and, hexpiring]
      by_cases hlast : start.lastTick n = past / start.interval + 1
      · -- The clock shows the multiple at which the timer was to run out.
        rw [if_neg (by omega), if_pos hlast, if_pos (by omega), List.nil_append, hlast, hnow]
      · have hiff : start.lastTick n ≤ past / start.interval + 1 ↔
            start.lastTick n ≤ past / start.interval := by
          omega
        rw [if_neg hlast, List.append_nil, if_congr hiff rfl rfl]
  · have hsame : m.clock / start.interval = past / start.interval := by
      rw [hclock, Nat.succ_div_of_not_dvd hdue]
    have hother : ¬m.interval ∣ m.clock := by rwa [hs.interval, hclock]
    refine ⟨hheard.interval.trans hs.interval, hheard.listeners.trans hs.listeners, ?_, ?_, ?_⟩
    · rw [hheard.timers, if_neg hother, hsame, hsound]
    · rw [hheard.beeps, if_neg fun h => hother h.1, hsame, hs.beeps, Nat.add_zero]
    · rw [hheard.signals, if_neg fun h => hother h.1, hsame, hs.signals, List.append_nil]

/-! ## One instruction -/

/-- The machine after an instruction that the clock has counted, with its events still to come. -/
def executed (m : Machine) (remark : Option Remark) (board : Board) : Machine :=
  { m with
    plant := { m.plant with board }
    world := m.world.note (remark.map .remark)
    clock := m.clock + 1 }

section

variable {remark : Option Remark} {board : Board}

theorem Paced.exists_clockTick (hm : Paced m.clock m)
    (hboard : m.plant.board.cycle = .ok remark board) :
    ∃ m', Host.clockTick (Host.runner Host.nestingLimit) m = .ok () m' ∧
      Heard (m.executed remark board) m' ∧
      Paced m'.clock m' := by
  have hexecuted : Paced m.clock (m.executed remark board) := { hm with }
  obtain ⟨m', hevents, hheard, hnext⟩ := hexecuted.exists_events rfl
  refine ⟨m', ?_, hheard, hheard.clock ▸ hnext⟩
  simp only [Host.clockTick, Host.clockedCycle, run_bind,
    Host.cycle_of_ok (Host.runner_nil _) hboard, run_modify]
  exact hevents

theorem Paced.finalState_tick (hm : Paced m.clock m)
    (htick : Host.clockTick (Host.runner Host.nestingLimit) m = .ok () m') :
    finalState (Host.execute (.tick 1) m) = m' := by
  rw [Host.execute_tick_late (hm.late rfl), finalState_bind_pure, Int.toNat_one,
    Host.tickTimes_succ hm.status, run_bind, htick]
  rfl

/-- An instruction that leaves the sound timer alone. -/
theorem Sounding.executed {start : Machine} {n : Nat} (hs : Sounding start n past m)
    (remark : Option Remark) (hsame : board.timers.sound = m.plant.board.timers.sound) :
    Sounding start n past (m.executed remark board) where
  interval := hs.interval
  listeners := hs.listeners
  sound := (congrArg BitVec.toNat hsame).trans hs.sound
  beeps := hs.beeps
  signals := (World.signals_note _ _).trans hs.signals

/-- An instruction that sets the sound timer. -/
theorem sounding_executed {n : Nat} (hpositive : 1 ≤ n) (remark : Option Remark)
    (hset : board.timers.sound.toNat = n) :
    Sounding m n m.clock (m.executed remark board) := by
  have hlater : ¬m.lastTick n ≤ m.clock / m.interval := by
    rw [lastTick]
    omega
  refine ⟨rfl, rfl, ?_, ?_, ?_⟩
  · show board.timers.sound.toNat = m.lastTick n - m.clock / m.interval
    rw [hset, lastTick]
    omega
  · rw [if_neg hlater]
    rfl
  · rw [if_neg hlater, List.append_nil]
    exact World.signals_note _ _

end

/-! ## Runs -/

/-- What holds between two instructions of a run, given what is to come of its course. One
instruction keeps it, and so do keys. -/
structure Followed (P : List Machine → Machine → Prop) : Prop where
  instruction : ∀ {rest : List Machine} {m m' : Machine} {remark : Option Remark} {board : Board},
    Paced m.clock m → P (m :: rest) m → m.plant.board.cycle = .ok remark board →
      Heard (m.executed remark board) m' → P rest m'
  key : ∀ {rest : List Machine} {m : Machine} (keypad : Keypad), P rest m →
    P rest { m with plant := { m.plant with board := { m.plant.board with keypad } } }

namespace Followed

variable {P : List Machine → Machine → Prop} {rest : List Machine}

theorem tickTimes (hP : Followed P) {n : Nat} (hm : Paced m.clock m) (hp : P (steps n m ++ rest) m)
    (hfaultless : ∀ e, outcome (Host.tickTimes (Host.runner Host.nestingLimit) n m) = .error e →
      ¬e.IsFault) :
    ∃ k, Host.tickTimes (Host.runner Host.nestingLimit) n m = .ok () k ∧ Paced k.clock k ∧
      P rest k := by
  induction n generalizing m with
  | zero => exact ⟨m, rfl, hm, hp⟩
  | succ n ih =>
    rw [Host.tickTimes_succ hm.status, run_bind] at hfaultless ⊢
    cases hboard : m.plant.board.cycle with
    | ok remark board =>
      obtain ⟨m', htick, hheard, hnext⟩ := hm.exists_clockTick hboard
      rw [htick] at hfaultless ⊢
      have hcourse : steps (n + 1) m = m :: steps n m' := by rw [steps, hm.finalState_tick htick]
      rw [hcourse, List.cons_append] at hp
      exact ih hnext (hP.instruction hm hp hboard hheard) hfaultless
    | error fault board =>
      obtain ⟨world, hcycle⟩ := Host.cycle_eq (Host.runner_nil Host.nestingLimit) m
      rw [hboard] at hcycle
      simp only [Host.clockTick, Host.clockedCycle, run_bind, hcycle] at hfaultless
      exact absurd ⟨fault, rfl⟩ (hfaultless _ rfl)

theorem drive (hP : Followed P) {drive : Drive} (hm : Paced m.clock m)
    (hp : P (steps drive.cycles m ++ rest) m)
    (hfaultless : ∀ e, outcome (Host.execute drive.command m) = .error e → ¬e.IsFault) :
    Paced (finalState (Host.execute drive.command m)).clock
      (finalState (Host.execute drive.command m)) ∧
      P rest (finalState (Host.execute drive.command m)) := by
  have hkey {op : Operation} (down : Bool) (key : Int)
      (hop : Console.operate op = do
        Console.setKey down (← Console.checkKey key)
        return .nothing) (hp : P rest m) :
      Paced (finalState (Host.execute (.operate op) m)).clock
        (finalState (Host.execute (.operate op) m)) ∧
        P rest (finalState (Host.execute (.operate op) m)) := by
    rw [HandDriven.execute_key down key hop]
    cases keyOfInt key with
    | some k => exact ⟨{ hm with }, hP.key _ hp⟩
    | none => exact ⟨hm, hp⟩
  cases drive with
  | tick cycles =>
    have htick : Host.execute (Drive.tick cycles).command m = _ :=
      Host.execute_tick_late (hm.late rfl) cycles
    rw [htick, outcome_bind_pure] at hfaultless
    obtain ⟨k, hend, hk, hrest⟩ := hP.tickTimes (n := cycles.toNat) hm hp
      fun e he => hfaultless e (by rw [he]; rfl)
    rw [htick, finalState_bind_pure, hend]
    exact ⟨hk, hrest⟩
  | keyDown key => exact hkey true key rfl hp
  | keyUp key => exact hkey false key rfl hp

/-- **A run without faults** keeps what one instruction keeps. -/
theorem run (hP : Followed P) {drives : List Drive} (hm : Paced m.clock m)
    (hp : P (course drives m) m)
    (hfaultless : ∀ e, .error e ∈ (runAll (fun drive => Host.execute drive.command) drives m).1 →
      ¬e.IsFault) :
    P [] (runAll (fun drive => Host.execute drive.command) drives m).2 := by
  induction drives generalizing m with
  | nil => exact hp
  | cons drive drives ih =>
    obtain ⟨hnext, hrest⟩ := hP.drive hm hp fun e he => hfaultless e (he ▸ List.mem_cons_self)
    exact ih hnext hrest fun e he => hfaultless e (List.mem_cons_of_mem _ he)

end Followed

/-- The course of a run goes through every clock, up to the one that the run ends with. -/
theorem clocks_course {drives : List Drive} (hm : Paced m.clock m) (hzero : m.clock = 0)
    (hfaultless : ∀ e, .error e ∈ (runAll (fun drive => Host.execute drive.command) drives m).1 →
      ¬e.IsFault) :
    (course drives m).map (·.clock) =
      List.range (runAll (fun drive => Host.execute drive.command) drives m).2.clock := by
  have hfollowed : Followed fun rest k =>
      ∃ done, course drives m = done ++ rest ∧ done.map (·.clock) = List.range k.clock := {
    instruction := by
      rintro rest k k' remark board - ⟨done, hcourse, hclocks⟩ - hheard
      refine ⟨done ++ [k], by rw [hcourse, List.append_assoc, List.singleton_append], ?_⟩
      have hcounted : k'.clock = k.clock + 1 := hheard.clock
      rw [List.map_append, hclocks, hcounted, List.range_succ]
      rfl
    key := fun _ hp => hp }
  obtain ⟨done, hcourse, hclocks⟩ := hfollowed.run hm ⟨[], rfl, by rw [hzero]; rfl⟩ hfaultless
  rwa [hcourse, List.append_nil]

/-- A run changes neither the interval nor who listens. -/
theorem followed_setup (m : Machine) :
    Followed fun _ k => k.interval = m.interval ∧ k.listeners = m.listeners where
  instruction _ hp _ hheard := ⟨hheard.interval.trans hp.1, hheard.listeners.trans hp.2⟩
  key _ hp := hp

/-- Either the instruction that sets the sound timer is still to come, or the sound timer is on its
way. No instruction after it sets the sound timer. -/
structure Expecting (start : Machine) (n : Nat) (rest : List Machine) (m : Machine) : Prop where
  others : ∀ later ∈ rest, start.clock < later.clock →
    ∀ x, later.plant.board.instruction? ≠ some (.setSound x)
  phase : start ∈ rest ∨ start.clock < m.clock ∧ Sounding start n m.clock m

theorem followed_expecting {start : Machine} {x : Nibble}
    (hset : start.plant.board.instruction? = some (.setSound x)) {n : Nat}
    (hn : (start.plant.board.v x).toNat = n) (hpositive : 1 ≤ n) :
    Followed (Expecting start n) where
  instruction := by
    intro rest m m' remark board hm hp hboard hheard
    have hcounted : m'.clock = m.clock + 1 := hheard.clock
    refine ⟨fun later hlater => hp.others later (List.mem_cons_of_mem m hlater), ?_⟩
    rcases hp.phase with hmem | ⟨hlt, hs⟩
    · rcases List.mem_cons.1 hmem with rfl | hmem
      · have hsound : board.timers.sound.toNat = n := by
          rw [Board.sound_of_setSound hboard hset, hn]
        have hs := (sounding_executed hpositive remark hsound).events rfl hheard
        exact Or.inr ⟨by omega, hheard.clock ▸ hs⟩
      · exact Or.inl hmem
    · have hsame := Board.sound_of_cycle hboard (hp.others m List.mem_cons_self hlt)
      have hs := (hs.executed remark hsame).events rfl hheard
      exact Or.inr ⟨by omega, hheard.clock ▸ hs⟩
  key keypad hp := ⟨hp.others, hp.phase.imp id (And.imp_right fun hs => { hs with })⟩

theorem paced_poweredOn {m : Machine} (hpositive : 0 < m.interval)
    (hlisteners : ∀ l ∈ m.listeners, l.script.LooksOn) :
    Paced 0 m.poweredOn where
  status := rfl
  active := rfl
  positive := hpositive
  queue := ⟨m.scheduled, by simp [poweredOn]⟩
  listeners := hlisteners

/-- **A sound timer that is set beeps once, and it is known when.** Take a new machine, tell it
whatever you like, and let those that listen to it then do no more than look on. Power it on at a
whole number of instructions a second, and let it tick in batches of any size, with keys pressed and
let go in between, without a fault of the program. Then its instructions come one at each clock.

If one of them sets the sound timer to `n`, which is not zero, while the clock shows `c`, and none
after it sets the sound timer again, then from that instruction on there is exactly one beep, as
soon as the clock has reached the `n`-th multiple of the interval after `c`. It is counted once,
noted once and told once to each listener in turn, with the clock at that multiple. -/
theorem sound_heard_once {world : World} {random : RandomSource} {frequency timerFrequency : Number}
    {soundEnabled : Bool} {m₀ : Machine}
    (hcreate : create world random frequency timerFrequency soundEnabled = .ok m₀)
    (history : List (Command Operation)) {f : Int} (hf : 0 < f)
    (hfrequency : (m₀.after history).frequency = .integer f)
    (hlisteners : ∀ l ∈ (m₀.after history).listeners, l.script.LooksOn) :
    ∃ on, Host.execute .powerOn (m₀.after history) = .ok .nothing on ∧
      ∀ drives : List Drive,
        let run := runAll (fun drive => Host.execute drive.command) drives on
        (∀ e, .error e ∈ run.1 → ¬e.IsFault) →
          (course drives on).map (·.clock) = List.range run.2.clock ∧
          ∀ start ∈ course drives on, ∀ x,
            start.plant.board.instruction? = some (.setSound x) →
            let n := (start.plant.board.v x).toNat
            1 ≤ n →
            (∀ later ∈ course drives on, start.clock < later.clock →
              ∀ y, later.plant.board.instruction? ≠ some (.setSound y)) →
            let clock := on.interval * (start.clock / on.interval + n)
            clock ≤ run.2.clock →
              run.2.world.signals = start.world.signals ++ Host.alarm clock on.listeners ∧
                run.2.plant.beeper.beeps = start.plant.beeper.beeps + 1 := by
  refine ⟨_, execute_powerOn hf hfrequency, ?_⟩
  intro drives run hfaultless
  have hpositive : 0 < (m₀.after history).interval :=
    (resting_after (Host.resting_create hcreate) history).interval
  have hon : Paced 0 (m₀.after history).poweredOn := paced_poweredOn hpositive hlisteners
  refine ⟨clocks_course hon rfl hfaultless, ?_⟩
  intro start hstart x hset n hn hothers clock hreached
  have hend := (followed_expecting hset rfl hn).run hon ⟨hothers, Or.inl hstart⟩ hfaultless
  obtain ⟨-, hs⟩ := hend.phase.resolve_left List.not_mem_nil
  obtain ⟨hinterval, hsame⟩ := (followed_setup _).run hon ⟨rfl, rfl⟩ hfaultless
  -- The run has gone past the multiple of the interval at which the sound timer runs out.
  have hpast : start.lastTick n ≤ run.2.clock / start.interval := by
    rw [lastTick, Nat.le_div_iff_mul_le (by rw [← hs.interval, hinterval]; exact hpositive),
      Nat.mul_comm, ← hs.interval, hinterval]
    exact hreached
  refine ⟨?_, ?_⟩
  · rw [hs.signals, if_pos hpast, ← hs.listeners, hsame, lastTick, ← hs.interval, hinterval]
  · rw [hs.beeps, if_pos hpast]

/-- The sound timer is set to two while the clock shows one, and a listener is told of the beep at
clock four. -/
theorem sound_heard_once_two :
    ∃ m on, create {} (.listed [] 0) (.integer 120) (.integer 60) false = .ok m ∧
      Host.execute .powerOn (m.after [.addListener "bell" [.operate .registers],
        .operate (.load [0x60, 2, 0xF0, 0x18, 0x12, 4])]) = .ok .nothing on ∧
      (runAll (fun drive => Host.execute (Drive.command drive)) [.tick 2, .keyDown 3, .tick 3]
        on).2.world.signals = [.notice (.beep 4), .mark (.listener "bell" 4)] := by
  have hcreate : create {} (.listed [] 0) (.integer 120) (.integer 60) false = _ :=
    create_eq _ _ (by decide) (by decide) _
  have hlisteners (l : Listener Operation)
      (hl : l ∈ [(⟨"bell", [.operate .registers]⟩ : Listener Operation)]) : l.script.LooksOn := by
    rw [List.mem_singleton.1 hl]
    exact Script.looksOn_of_forall (by simp [Command.OnlyLooks])
  obtain ⟨on, hon, hruns⟩ := sound_heard_once hcreate
    [.addListener "bell" [.operate .registers], .operate (.load [0x60, 2, 0xF0, 0x18, 0x12, 4])]
    (f := 120) (by decide) rfl hlisteners
  refine ⟨_, on, hcreate, hon, ?_⟩
  rw [execute_powerOn (f := 120) (by decide) rfl] at hon
  cases hon
  have hfaultless {outcomes : List (Except Failure Reply)}
      (hok : outcomes = [.ok .nothing, .ok .nothing, .ok .nothing]) (e : Failure)
      (he : .error e ∈ outcomes) :
      ¬e.IsFault := by
    simp [hok] at he
  obtain ⟨-, hheard⟩ := hruns [.tick 2, .keyDown 3, .tick 3] (hfaultless (by decide +kernel))
  obtain ⟨hsignals, -⟩ := hheard _ (List.mem_cons_of_mem _ List.mem_cons_self) 0 (by decide +kernel)
    (by decide +kernel) (by decide +kernel) (by decide +kernel)
  rw [hsignals]
  decide +kernel

end Machine

end Chip8
