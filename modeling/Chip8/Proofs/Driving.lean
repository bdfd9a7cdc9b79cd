import Chip8.Proofs.SilentMachine

/-!
# Driving a machine by hand

A machine can be left to its scheduler: it is powered on and told to tick. Or it can be driven by
hand: it is reset, and then every instruction is a cycle asked for, with a tick of the timers asked
for after every so many of them. This file proves that the scheduler does what the driver does,
whatever the lengths of the ticks, whatever keys are pressed between them, and whatever faults the
program runs into.

The scheduler keeps a queue of events, of which one schedules the next, and the driver keeps a
counter. What relates them is that the next event is always due at the next multiple of the
interval.

## Main definitions

* `HandDriven`: a machine driven by hand, with the number of instructions completed
* `Drive`: what a driver may ask for
* `InStep`: the relation between scheduler and driver

## Main statements

* `Machine.exists_inStep`: power-on and reset get the two in step
* `InStep.exists_instruction`, `InStep.exists_instruction_fault`: one instruction keeps them in step
* `InStep.agree_drive`: so does whatever the driver asks for
* `Machine.scheduler_refines_driving`: so they stay in step
-/

namespace Chip8

/-- A machine driven by hand, with the number of instructions completed since it was reset. -/
structure HandDriven where
  machine : Machine
  completed : Nat := 0

namespace HandDriven

/-- Tell the machine something. -/
def tell (c : Command Console.Operation) : EStateM Failure HandDriven Reply := fun d =>
  match Host.execute c d.machine with
  | .ok reply machine => .ok reply { d with machine }
  | .error e machine => .error e { d with machine }

/-- One cycle, counted if it ends well. -/
def cycle : EStateM Failure HandDriven Unit := do
  let _ ← tell (.cycle 1)
  modify fun d => { d with completed := d.completed + 1 }

/-- A tick of the timers, if the instructions completed are a multiple of `interval`. -/
def updateTimers (interval : Nat) : EStateM Failure HandDriven Unit := do
  if interval ∣ (← get).completed then
    let _ ← tell .updateTimers

/-- The next instruction. -/
def instruction (interval : Nat) : EStateM Failure HandDriven Unit := do
  cycle
  updateTimers interval

/-- A number of instructions. They end early when one of them fails. -/
def instructions (interval : Nat) : Nat → EStateM Failure HandDriven Unit
  | 0 => pure ()
  | n + 1 => do
    instruction interval
    instructions interval n

end HandDriven

/-- What a driver may ask for. -/
inductive Drive where
  | tick (cycles : Int)
  | keyDown (key : Int)
  | keyUp (key : Int)

namespace Drive

/-- What to tell a machine that its scheduler runs. -/
def command : Drive → Command Console.Operation
  | tick cycles => .tick cycles
  | keyDown key => .operate (.keyDown key)
  | keyUp key => .operate (.keyUp key)

/-- What to do with a machine driven by hand. -/
def byHand (interval : Nat) : Drive → EStateM Failure HandDriven Reply
  | tick cycles => do
    HandDriven.instructions interval cycles.toNat
    return .nothing
  | keyDown key => HandDriven.tell (.operate (.keyDown key))
  | keyUp key => HandDriven.tell (.operate (.keyUp key))

end Drive

/-! ## Driving by hand -/

namespace HandDriven

theorem execute_cycle (m : Machine) :
    Host.execute (.cycle 1) m =
      (Host.cycle (Host.runner Host.nestingLimit) >>= fun _ => pure Reply.nothing) m := by
  show ((Host.cycle (Host.runner Host.nestingLimit) >>= fun _ => pure ()) >>= fun _ =>
    pure Reply.nothing) m = _
  simp only [run_bind]
  cases Host.cycle (Host.runner Host.nestingLimit) m <;> rfl

/-- A key is pressed or let go if there is one of that number. -/
theorem execute_key (down : Bool) (key : Int) {op : Console.Operation}
    (hop : Console.operate op = do
      Console.setKey down (← Console.checkKey key)
      return .nothing) (m : Machine) :
    Host.execute (.operate op) m =
      match keyOfInt key with
      | some k =>
        let keypad := if down then m.plant.board.keypad.press k else m.plant.board.keypad.release k
        .ok .nothing { m with plant := { m.plant with board := { m.plant.board with keypad } } }
      | none => .error (.keyOutOfRange key) m := by
  have hexecute : Host.execute (.operate op) m = Host.onPlant (Console.operate op) m := rfl
  rw [hexecute, hop]
  cases hkey : keyOfInt key with
  | some k =>
    simp only [Host.onPlant, Console.checkKey, hkey]
    rfl
  | none =>
    simp only [Host.onPlant, Console.checkKey, hkey]
    rfl

theorem tell_cycle (d : HandDriven) :
    ∃ world, tell (.cycle 1) d =
      match d.machine.plant.board.cycle with
      | .ok _ board =>
        .ok .nothing
          { d with machine := { d.machine with plant := { d.machine.plant with board }, world } }
      | .error fault board =>
        .error (.fault fault)
          { d with
            machine := { d.machine with plant := { d.machine.plant with board }, world } } := by
  obtain ⟨world, hcycle⟩ := Host.cycle_eq (Host.runner_nil Host.nestingLimit) d.machine
  refine ⟨world, ?_⟩
  simp only [tell, execute_cycle, run_bind, hcycle]
  cases d.machine.plant.board.cycle <;> rfl

theorem tell_updateTimers {d : HandDriven} (hlisteners : d.machine.listeners = [])
    (hsilent : d.machine.plant.beeper.enabled = false) :
    ∃ world, tell .updateTimers d =
      .ok .nothing
        { d with machine := { d.machine with plant := d.machine.plant.ticked, world } } := by
  obtain ⟨world, hticked⟩ :=
    Host.updateTimers_silent (Host.runner_nil Host.nestingLimit) hlisteners hsilent
  refine ⟨world, ?_⟩
  have hexecute : Host.execute .updateTimers d.machine =
      (Host.updateTimers (Host.runner Host.nestingLimit) >>= fun _ => pure Reply.nothing)
        d.machine := rfl
  simp only [tell, hexecute, run_bind, hticked]
  rfl

end HandDriven

/-! ## In step -/

/-- The scheduler's machine runs, and the events of `past` cycles are behind it. The only event in
its queue is the next one of the current timer chain, which is due at the next multiple of the
interval. The console is the same as the driver's. -/
structure Paired (interval past : Nat) (m : Machine) (d : HandDriven) : Prop where
  plant : m.plant = d.machine.plant
  cycles : m.plant.board.cycles = d.completed
  clock : m.clock = d.completed
  status : m.status = .running
  active : m.chainActive = true
  queue : ∃ order : Int,
    m.queue = ⟨[⟨((past / interval + 1) * interval : Nat), order, .timers m.chain⟩]⟩
  interval : m.interval = interval
  listeners : m.listeners = []
  handListeners : d.machine.listeners = []
  silent : m.plant.beeper.enabled = false

/-- Scheduler and driver are in step between two instructions: no events are left to be
processed. -/
def InStep (interval : Nat) (m : Machine) (d : HandDriven) : Prop := Paired interval d.completed m d

/-- The two have counted a cycle, and its events are yet to be processed. -/
def Counted (interval : Nat) (m : Machine) (d : HandDriven) : Prop :=
  ∃ past, d.completed = past + 1 ∧ Paired interval past m d

namespace InStep

variable {interval : Nat} {m : Machine} {d : HandDriven} {run : Runner Console Console.Operation}

theorem late (hinterval : 0 < interval) (hstep : InStep interval m d) : m.queue.Late m.clock := by
  obtain ⟨order, hqueue⟩ := hstep.queue
  have hlt := Nat.lt_mul_div_succ d.completed hinterval
  rw [Nat.mul_comm] at hlt
  intro e he
  rw [hqueue] at he
  rw [List.mem_singleton.1 he, hstep.clock]
  exact Int.ofNat_lt.2 hlt

theorem exists_cycle (hrun : run [] = pure ()) (hstep : InStep interval m d)
    {remark : Option Remark} {board : Board} (hboard : m.plant.board.cycle = .ok remark board) :
    ∃ m' d', Host.clockedCycle run m = .ok () m' ∧ HandDriven.cycle d = .ok () d' ∧
      Counted interval m' d' ∧ d'.completed = d.completed + 1 := by
  obtain ⟨world, hcycle⟩ := Host.cycle_eq hrun m
  obtain ⟨world', hhand⟩ := HandDriven.tell_cycle d
  have hcycles : board.cycles = d.completed + 1 := by
    rw [Board.cycles_of_cycle hboard, hstep.cycles]
  have hclock := hstep.clock
  rw [← hstep.plant] at hhand
  simp only [Host.clockedCycle, HandDriven.cycle, run_bind, hcycle, hhand, hboard]
  refine ⟨_, _, rfl, rfl, ⟨d.completed, rfl, ?_⟩, rfl⟩
  exact { hstep with plant := rfl, cycles := hcycles, clock := congrArg (· + 1) hclock }

theorem exists_cycle_fault (hrun : run [] = pure ()) (hstep : InStep interval m d) {fault : Fault}
    {board : Board} (hboard : m.plant.board.cycle = .error fault board) :
    ∃ m' d', Host.clockedCycle run m = .error (.fault fault) m' ∧
      HandDriven.cycle d = .error (.fault fault) d' ∧ InStep interval m' d' ∧
      m'.plant.board = board := by
  obtain ⟨world, hcycle⟩ := Host.cycle_eq hrun m
  obtain ⟨world', hhand⟩ := HandDriven.tell_cycle d
  have hcycles : board.cycles = d.completed := by
    rw [Board.cycles_of_fault hboard, hstep.cycles]
  rw [← hstep.plant] at hhand
  simp only [Host.clockedCycle, HandDriven.cycle, run_bind, hcycle, hhand, hboard]
  exact ⟨_, _, rfl, rfl, { hstep with plant := rfl, cycles := hcycles }, rfl⟩

theorem next_due {k : Nat} (h : interval ∣ k + 1) : (k / interval + 1) * interval = k + 1 := by
  rw [← Nat.succ_div_of_dvd h, Nat.div_mul_cancel h]

theorem next_early {k : Nat} (hinterval : 0 < interval) (h : ¬interval ∣ k + 1) :
    k + 1 < (k / interval + 1) * interval := by
  have hlt := Nat.lt_mul_div_succ k hinterval
  rw [Nat.mul_comm] at hlt
  refine Nat.lt_of_le_of_ne hlt ?_
  intro heq
  exact h ⟨k / interval + 1, heq.trans (Nat.mul_comm ..)⟩

/-- The event of the timer chain is due exactly when the driver ticks the timers, and neither
fails. -/
theorem exists_events (hrun : run [] = pure ()) (hinterval : 0 < interval)
    (hcounted : Counted interval m d) :
    ∃ m' d', Host.processEvents run m = .ok () m' ∧ HandDriven.updateTimers interval d = .ok () d' ∧
      InStep interval m' d' ∧ d'.completed = d.completed := by
  obtain ⟨past, hpast, hpaired⟩ := hcounted
  obtain ⟨order, hqueue⟩ := hpaired.queue
  have hclock := hpaired.clock
  simp only [HandDriven.updateTimers, run_bind, run_get]
  by_cases hdue : interval ∣ d.completed
  · have hsilent := hpaired.silent
    rw [hpaired.plant] at hsilent
    obtain ⟨world, hevents⟩ := Host.processEvents_timers hrun hqueue
      (by rw [hpast] at hdue; rw [next_due hdue]; omega) hpaired.status hpaired.active
      hpaired.listeners hpaired.silent
    obtain ⟨world', hticked⟩ := HandDriven.tell_updateTimers hpaired.handListeners hsilent
    simp only [hevents, hdue, if_true, run_bind, hticked]
    refine ⟨_, _, rfl, rfl, { hpaired with
      plant := congrArg Console.ticked hpaired.plant
      cycles := hpaired.cycles
      queue := ⟨m.scheduled, ?_⟩ }, rfl⟩
    -- The clock shows the multiple that the event was due at, and the next event is an interval
    -- later.
    have hnext : m.clock + m.interval = (d.completed / interval + 1) * interval := by
      rw [hclock, hpaired.interval, Nat.add_mul, Nat.div_mul_cancel hdue, Nat.one_mul]
    rw [← hnext]
    rfl
  -- Between two multiples the queue waits for the same event as a cycle before.
  · have hlate : m.queue.Late m.clock := by
      rw [hpast] at hdue
      have hnext := next_early hinterval hdue
      intro e he
      rw [hqueue] at he
      rw [List.mem_singleton.1 he]
      dsimp only
      omega
    rw [Host.processEvents_late hlate, if_neg hdue]
    refine ⟨m, d, rfl, rfl, { hpaired with queue := ⟨order, ?_⟩ }, rfl⟩
    rw [hpast] at hdue
    rw [hqueue, hpast, Nat.succ_div_of_not_dvd hdue]

/-- **One instruction** that ends well keeps the two in step. -/
theorem exists_instruction (hrun : run [] = pure ()) (hinterval : 0 < interval)
    (hstep : InStep interval m d) {remark : Option Remark} {board : Board}
    (hboard : m.plant.board.cycle = .ok remark board) :
    ∃ m' d', Host.clockTick run m = .ok () m' ∧ HandDriven.instruction interval d = .ok () d' ∧
      InStep interval m' d' ∧ d'.completed = d.completed + 1 := by
  obtain ⟨m₁, d₁, hclocked, hcycle, hcounted, hone⟩ := exists_cycle hrun hstep hboard
  obtain ⟨m₂, d₂, hevents, htimers, hnext, hsame⟩ := exists_events hrun hinterval hcounted
  refine ⟨m₂, d₂, ?_, ?_, hnext, hsame.trans hone⟩
  · simp only [Host.clockTick, run_bind, hclocked, hevents]
  · simp only [HandDriven.instruction, run_bind, hcycle, htimers]

/-- One instruction that ends with a fault keeps the two in step, but does not count. -/
theorem exists_instruction_fault (hrun : run [] = pure ()) (hstep : InStep interval m d)
    {fault : Fault} {board : Board} (hboard : m.plant.board.cycle = .error fault board) :
    ∃ m' d', Host.clockTick run m = .error (.fault fault) m' ∧
      HandDriven.instruction interval d = .error (.fault fault) d' ∧ InStep interval m' d' ∧
      m'.plant.board = board := by
  obtain ⟨m', d', hclocked, hcycle, hnext, hsame⟩ := exists_cycle_fault hrun hstep hboard
  refine ⟨m', d', ?_, ?_, hnext, hsame⟩
  · simp only [Host.clockTick, run_bind, hclocked]
  · simp only [HandDriven.instruction, run_bind, hcycle]

/-- Any number of instructions keeps the two in step, with or without a fault among them. -/
theorem agree_instructions (hrun : run [] = pure ()) (hinterval : 0 < interval)
    (hstep : InStep interval m d) (n : Nat) :
    Agree (InStep interval) (Host.tickTimes run n m) (HandDriven.instructions interval n d) := by
  induction n generalizing m d with
  | zero => exact ⟨rfl, hstep⟩
  | succ n ih =>
    rw [Host.tickTimes_succ hstep.status]
    refine Agree.bind ?_ fun _ _ _ hnext => ih hnext
    cases hboard : m.plant.board.cycle with
    | ok remark board =>
      obtain ⟨m', d', htick, hhand, hnext, -⟩ := exists_instruction hrun hinterval hstep hboard
      rw [htick, hhand]
      exact ⟨rfl, hnext⟩
    | error fault board =>
      obtain ⟨m', d', htick, hhand, hnext, -⟩ := exists_instruction_fault hrun hstep hboard
      rw [htick, hhand]
      exact ⟨rfl, hnext⟩

/-- When ticks end with a failure, it is the fault of the instruction after those that completed. -/
theorem exists_fault (hrun : run [] = pure ()) (hinterval : 0 < interval)
    (hstep : InStep interval m d) {n : Nat} {e : Failure} {m' : Machine}
    (hfail : Host.tickTimes run n m = .error e m') :
    ∃ j < n, ∃ before fault, Host.tickTimes run j m = .ok () before ∧
      before.plant.board.cycles = m.plant.board.cycles + j ∧ e = .fault fault ∧
      before.plant.board.cycle = .error fault m'.plant.board := by
  induction n generalizing m d with
  | zero => cases hfail
  | succ n ih =>
    rw [Host.tickTimes_succ hstep.status] at hfail
    cases hboard : m.plant.board.cycle with
    | ok remark board =>
      obtain ⟨m₁, d₁, htick, -, hnext, hone⟩ := exists_instruction hrun hinterval hstep hboard
      -- The first instruction ends well, so one of the others fails, and the first is counted with
      -- them.
      simp only [run_bind, htick] at hfail
      obtain ⟨j, hj, before, fault, hbefore, hcycles, hcause, hfault⟩ := ih hnext hfail
      refine ⟨j + 1, by omega, before, fault, ?_, ?_, hcause, hfault⟩
      · rw [Host.tickTimes_succ hstep.status]
        simp only [run_bind, htick, hbefore]
      · rw [hcycles, hnext.cycles, hstep.cycles, hone]
        omega
    | error fault board =>
      obtain ⟨m₁, d₁, htick, -, -, hsame⟩ := exists_instruction_fault hrun hstep hboard
      simp only [run_bind, htick] at hfail
      cases hfail
      exact ⟨0, by omega, m, fault, rfl, rfl, rfl, by rw [hsame, hboard]⟩

/-- Between two instructions, a tick has nothing to catch up with. -/
theorem tick_eq (hinterval : 0 < interval) (hstep : InStep interval m d) (cycles : Int) :
    Host.tick run cycles m = Host.tickTimes run cycles.toNat m :=
  Host.tick_late (hstep.late hinterval) cycles

theorem agree_tick (hrun : run [] = pure ()) (hinterval : 0 < interval)
    (hstep : InStep interval m d) (cycles : Int) :
    Agree (InStep interval) (Host.tick run cycles m)
      (HandDriven.instructions interval cycles.toNat d) := by
  rw [hstep.tick_eq hinterval]
  exact agree_instructions hrun hinterval hstep _

/-- A key pressed or let go leaves the two in step, and so does a number that names no key. -/
theorem agree_key (down : Bool) (key : Int) {op : Console.Operation}
    (hop : Console.operate op = do
      Console.setKey down (← Console.checkKey key)
      return .nothing) (hstep : InStep interval m d) :
    Agree (InStep interval) (Host.execute (.operate op) m)
      (HandDriven.tell (.operate op) d) := by
  simp only [HandDriven.tell, HandDriven.execute_key down key hop, ← hstep.plant]
  cases keyOfInt key with
  | some k => exact ⟨rfl, { hstep with plant := rfl }⟩
  | none => exact ⟨rfl, hstep⟩

theorem agree_drive (hinterval : 0 < interval) (hstep : InStep interval m d) (drive : Drive) :
    Agree (InStep interval) (Host.execute drive.command m)
      (drive.byHand interval d) := by
  cases drive with
  | tick cycles =>
    have hrun := Host.runner_nil (σ := Console) Host.nestingLimit
    exact Agree.bind (agree_tick hrun hinterval hstep cycles) fun _ _ _ hnext => ⟨rfl, hnext⟩
  | keyDown key => exact agree_key true key rfl hstep
  | keyUp key => exact agree_key false key rfl hstep

/-- Powering off stops the scheduler's machine and changes nothing of the console. -/
theorem powerOff_eq (run : Runner Console Console.Operation) (hinterval : 0 < interval)
    (hstep : InStep interval m d) :
    ∃ scheduled, Host.powerOff run m =
      .ok () { m with status := .stopped, chainActive := false, queue := .empty, scheduled } := by
  have hrunning : m.status ≠ .stopped := by
    rw [hstep.status]
    decide
  refine ⟨m.scheduled + 1, ?_⟩
  simp only [Host.powerOff, run_bind, run_get, hrunning, if_true, not_false_eq_true, ne_eq,
    Host.schedule_now (hstep.late hinterval)]
  rfl

end InStep

/-! ## Getting in step -/

namespace Machine

variable {m : Machine} {f : Int}

/-- Power-on and reset get scheduler and driver in step. -/
theorem exists_inStep (hf : 0 < f) (hfrequency : m.frequency = .integer f)
    (hstatus : m.status = .stopped) (hqueue : m.queue = .empty) (hlisteners : m.listeners = [])
    (hsilent : m.plant.beeper.enabled = false) :
    ∃ on off, Host.powerOn m = .ok () on ∧ Host.execute .reset m = .ok .nothing off ∧
      InStep m.interval on { machine := off } := by
  refine ⟨_, _, powerOn_eq hf hfrequency, execute_reset hf hfrequency hstatus hqueue, ?_⟩
  exact {
    plant := rfl
    cycles := rfl
    clock := rfl
    status := rfl
    active := rfl
    queue := ⟨m.scheduled, by simp [poweredOn]⟩
    interval := rfl
    listeners := hlisteners
    handListeners := hlisteners
    silent := hsilent }

/-- A run is a tick between power-on and power-off, and ends stopped whether or not the tick
fails. -/
theorem run_eq_tick {interval : Nat} {on : Machine} {d : HandDriven}
    (hon : Host.powerOn m = .ok () on) (hinterval : 0 < interval) (hstep : InStep interval on d)
    (cycles : Int) :
    outcome (Host.execute (.run cycles) m) = outcome (Host.execute (.tick cycles) on) ∧
      (finalState (Host.execute (.run cycles) m)).plant =
        (finalState (Host.execute (.tick cycles) on)).plant ∧
      (finalState (Host.execute (.run cycles) m)).status = .stopped := by
  have hagree := hstep.agree_tick (Host.runner_nil Host.nestingLimit) hinterval cycles
  obtain ⟨scheduled, hoff⟩ := InStep.powerOff_eq (Host.runner Host.nestingLimit) hinterval hagree.2
  -- Power-off follows the tick whatever its outcome, and never fails.
  obtain ⟨houtcome, hend⟩ := Host.ensuring_eq hoff
  have hrun : Host.execute (.run cycles) m =
      (Host.ensuring (Host.tick (Host.runner Host.nestingLimit) cycles)
        (Host.powerOff (Host.runner Host.nestingLimit)) >>= fun _ => pure Reply.nothing) on := by
    show ((Host.powerOn >>= fun _ => _) >>= fun _ => pure Reply.nothing) m = _
    simp only [run_bind, hon]
  have htick : Host.execute (.tick cycles) on =
      (Host.tick (Host.runner Host.nestingLimit) cycles >>= fun _ => pure Reply.nothing) on := rfl
  rw [hrun, htick, outcome_bind_pure, outcome_bind_pure, finalState_bind_pure, finalState_bind_pure,
    houtcome, hend]
  exact ⟨rfl, rfl, rfl⟩

/-- When a tick fails, it is with the fault of the instruction after those that completed. -/
theorem exists_fault_of_tick {interval : Nat} {before after : Machine} {d : HandDriven}
    (hinterval : 0 < interval) (hstep : InStep interval before d) {n : Int} {e : Failure}
    (hfail : Host.execute (.tick n) before = .error e after) :
    ∃ (completed : Nat) (last : Machine) (fault : Fault), (completed : Int) < n ∧
      Host.execute (.tick completed) before = .ok .nothing last ∧ e = .fault fault ∧
      last.plant.board.cycle = .error fault after.plant.board ∧
      after.plant.board.cycles = before.plant.board.cycles + completed := by
  have hrun := Host.runner_nil (σ := Console) Host.nestingLimit
  have htick (k : Int) : Host.execute (.tick k) before =
      (Host.tickTimes (Host.runner Host.nestingLimit) k.toNat >>= fun _ =>
        pure Reply.nothing) before := by
    show (Host.tick _ k >>= fun _ => pure Reply.nothing) before = _
    simp only [run_bind, hstep.tick_eq hinterval]
  rw [htick] at hfail
  cases hend : Host.tickTimes (Host.runner Host.nestingLimit) n.toNat before with
  | ok _ _ =>
    simp only [run_bind, hend] at hfail
    cases hfail
  | error e' after' =>
    simp only [run_bind, hend] at hfail
    cases hfail
    obtain ⟨j, hj, last, fault, hlast, hcycles, hcause, hfault⟩ :=
      hstep.exists_fault hrun hinterval hend
    refine ⟨j, last, fault, by omega, ?_, hcause, hfault, ?_⟩
    · simp only [htick, Int.toNat_natCast, run_bind, hlast]
      rfl
    · rw [Board.cycles_of_fault hfault, hcycles]

/-- **The scheduler refines driving by hand.** Take a console in any state, with any memory and any
source of random bytes, without sound and without anyone to be told of beeps, and a host with
positive integer frequencies around it. Power it on and let it tick, pressing and letting go keys in
between; or reset it and drive it by hand, with a tick of the timers after every `max 1 (f / t)`
instructions. Everything asked for ends alike, and leaves the same console. When a tick fails, the
instruction that failed is the one after those that completed, and only these are counted. A run is
a single tick, after which the machine is stopped, whether or not the tick failed. -/
theorem scheduler_refines_driving (c : Console) (hsilent : c.beeper.enabled = false) (world : World)
    {f t : Int} (hf : 0 < f) (ht : 0 < t) (maxCatchUp : Int) :
    ∃ m on off : Machine, Host.create c world (.integer f) (.integer t) maxCatchUp = .ok m ∧
      Host.execute .powerOn m = .ok .nothing on ∧ Host.execute .reset m = .ok .nothing off ∧
      (∀ drives : List Drive,
        let scheduled := runAll (fun drive => Host.execute drive.command) drives on
        let driven := runAll (Drive.byHand (max 1 (f / t).toNat)) drives { machine := off }
        scheduled.1 = driven.1 ∧ scheduled.2.plant = driven.2.machine.plant ∧
          scheduled.2.plant.board.cycles = driven.2.completed ∧
          ∀ n e after, Host.execute (.tick n) scheduled.2 = .error e after →
            ∃ (completed : Nat) (last : Machine) (fault : Fault), (completed : Int) < n ∧
              Host.execute (.tick completed) scheduled.2 = .ok .nothing last ∧ e = .fault fault ∧
              last.plant.board.cycle = .error fault after.plant.board ∧
              after.plant.board.cycles = scheduled.2.plant.board.cycles + completed) ∧
      ∀ n, let ran := Host.execute (.run n) m
        outcome ran = outcome (Host.execute (.tick n) on) ∧
          (finalState ran).plant = (finalState (Host.execute (.tick n) on)).plant ∧
          (finalState ran).status = .stopped := by
  obtain ⟨m, hcreate, hplant, hfrequency, hstatus, hqueue, hlisteners, hinterval⟩ :
      ∃ m : Machine, Host.create c world (.integer f) (.integer t) maxCatchUp = .ok m ∧
        m.plant = c ∧
        m.frequency = .integer f ∧ m.status = .stopped ∧ m.queue = .empty ∧ m.listeners = [] ∧
        m.interval = max 1 (f / t).toNat :=
    ⟨_, Host.create_eq c world hf ht maxCatchUp, rfl, rfl, rfl, rfl, rfl, rfl⟩
  have hpositive : 0 < m.interval := by
    rw [hinterval]
    omega
  obtain ⟨on, off, hon, hoff, hstart⟩ :=
    exists_inStep hf hfrequency hstatus hqueue hlisteners (hplant ▸ hsilent)
  refine ⟨m, on, off, hcreate, ?_, hoff, ?_, fun n => run_eq_tick hon hpositive hstart n⟩
  · show (Host.powerOn >>= fun _ => pure Reply.nothing) m = _
    simp only [run_bind, hon]
    rfl
  · intro drives
    rw [← hinterval]
    obtain ⟨houtcomes, hend⟩ :=
      agree_runAll (fun drive _ _ hstep => InStep.agree_drive hpositive hstep drive) drives hstart
    exact ⟨houtcomes, hend.plant, hend.cycles, fun n e after hfail =>
      exists_fault_of_tick hpositive hend hfail⟩

/-- At five hundred instructions a second, the timers tick after every eighth. -/
theorem scheduler_refines_driving_eight :
    ∃ m on off : Machine,
      Host.create (Console.powerUp (.listed [7] 0) false) {} (.integer 500) (.integer 60)
        5000 = .ok m ∧
      Host.execute .powerOn m = .ok .nothing on ∧ Host.execute .reset m = .ok .nothing off ∧
      (runAll (fun drive => Host.execute (Drive.command drive)) [.tick 5, .keyDown 3, .tick 20]
        on).2.plant =
        (runAll (Drive.byHand 8) [.tick 5, .keyDown 3, .tick 20]
          { machine := off }).2.machine.plant := by
  obtain ⟨m, on, off, hcreate, hon, hoff, hdrives, -⟩ :=
    scheduler_refines_driving (Console.powerUp (.listed [7] 0) false) rfl {} (f := 500) (t := 60)
      (by decide) (by decide) 5000
  obtain ⟨-, hplant, -, -⟩ := hdrives [.tick 5, .keyDown 3, .tick 20]
  exact ⟨m, on, off, hcreate, hon, hoff, hplant⟩

end Machine

end Chip8
