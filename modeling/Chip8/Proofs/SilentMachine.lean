import Chip8.Proofs.MachineInvariant
import Chip8.Proofs.Ordering

/-!
# Machines without sound

With sound disabled and without listeners, nothing that a machine does depends on the world around
it. This file says what a cycle, a tick of the timers and a reset then do to it.

## Main definitions

* `Console.ticked`: the console after a tick of the timers
* `Machine.poweredOn`: the machine after power-on

## Main statements

* `Board.exists_of_step`: what a step of the processor leaves alone
* `Board.cycles_of_cycle`, `Board.cycles_of_fault`: a cycle counts if it ends well
* `Host.cycle_eq`, `Host.updateTimers_silent`: a cycle and a tick of the timers
* `Host.processEvents_chain`, `Host.processEvents_timers`: the next event of the timer chain
* `Machine.powerOn_eq`: whatever a machine was doing, power-on leads to the same
* `Machine.execute_reset`: a stopped machine is reset
-/

namespace Chip8

/-! ## Counting steps -/

namespace Board

/-- An instruction leaves the cycle count and the keypad alone. -/
theorem exists_of_execute (b : Board) (instruction : Instruction) :
    ∃ registers keyWait memory screen timers random,
      finalState (b.execute instruction) =
        { b with registers, keyWait, memory, screen, timers, random } := by
  cases instruction with
  | returnFromCall =>
    simp only [execute]
    cases b.registers.pop <;> exact ⟨_, _, _, _, _, _, rfl⟩
  | call target =>
    simp only [execute]
    cases b.registers.push b.registers.advance.pc <;> exact ⟨_, _, _, _, _, _, rfl⟩
  | draw x y rows =>
    simp only [execute, drawSprite]
    cases b.screen.draw b.memory b.registers.indexAddress _ _ _ <;> exact ⟨_, _, _, _, _, _, rfl⟩
  | awaitKey x =>
    simp only [execute]
    cases b.keypad.firstDown <;> exact ⟨_, _, _, _, _, _, rfl⟩
  | _ => exact ⟨_, _, _, _, _, _, rfl⟩

theorem exists_of_pollKey (b : Board) :
    ∃ registers keyWait, finalState b.pollKey = { b with registers, keyWait } := by
  rw [pollKey]
  cases b.keypad.firstDown with
  | none => exact ⟨_, _, rfl⟩
  | some key =>
    simp only
    cases place 4 b.keyWait.register <;> exact ⟨_, _, rfl⟩

theorem exists_of_step (b : Board) :
    ∃ registers keyWait memory screen timers random,
      finalState b.step = { b with registers, keyWait, memory, screen, timers, random } := by
  rw [step]
  split
  next =>
    obtain ⟨registers, keyWait, heq⟩ := b.exists_of_pollKey
    exact ⟨registers, keyWait, b.memory, b.screen, b.timers, b.random, heq⟩
  next => exact b.exists_of_execute _

theorem cycles_step (b : Board) : (finalState b.step).cycles = b.cycles := by
  obtain ⟨_, _, _, _, _, _, heq⟩ := b.exists_of_step
  rw [heq]

theorem keypad_step (b : Board) : (finalState b.step).keypad = b.keypad := by
  obtain ⟨_, _, _, _, _, _, heq⟩ := b.exists_of_step
  rw [heq]

theorem cycles_of_cycle {b c : Board} {remark : Option Remark} (h : b.cycle = .ok remark c) :
    c.cycles = b.cycles + 1 := by
  have hstep := b.cycles_step
  rw [cycle] at h
  cases hb : b.step with
  | ok remark c' =>
    rw [hb] at h hstep
    cases h
    exact congrArg (· + 1) hstep
  | error fault c' =>
    rw [hb] at h
    cases h

theorem cycles_of_fault {b c : Board} {fault : Fault} (h : b.cycle = .error fault c) :
    c.cycles = b.cycles := by
  have hstep := b.cycles_step
  rw [cycle] at h
  cases hb : b.step with
  | ok remark c' =>
    rw [hb] at h
    cases h
  | error fault c' =>
    rw [hb] at h hstep
    cases h
    exact hstep

end Board

/-! ## What the console does, apart from what the world notices -/

namespace Console

/-- The console after a tick of the timers without sound. -/
def ticked (c : Console) : Console :=
  { c with
    board := { c.board with timers := c.board.timers.tick }
    beeper := { c.beeper with beeps := c.beeper.beeps + if c.board.timers.expiring then 1 else 0 } }

theorem beep_silent {b : Beeper} (hsilent : b.enabled = false) (w : World) :
    b.beep w = ({ b with beeps := b.beeps + 1 }, w) := by
  simp only [Beeper.beep, Beeper.prepare, Beeper.ready, hsilent, Bool.not_false,
    Bool.true_or, if_true, Bool.false_and, Bool.false_eq_true, if_false]

theorem updateTimers_silent {c : Console} (hsilent : c.beeper.enabled = false) (clock : Nat)
    (w : World) :
    ∃ w', updateTimers clock (c, w) = .ok c.board.timers.expiring (c.ticked, w') := by
  rw [updateTimers_eq]
  cases hexpiring : c.board.timers.expiring with
  | true =>
    refine ⟨w.record (.notice (.beep clock)), ?_⟩
    simp only [beep_silent hsilent, ticked, hexpiring, if_true]
  | false =>
    refine ⟨w, ?_⟩
    simp only [ticked, hexpiring, Bool.false_eq_true, if_false, Nat.add_zero]

end Console

namespace Host

open Console (Operation)

variable {run : Runner Console Operation}

theorem cycle_of_ok (hrun : run [] = pure ()) {m : Machine} {remark : Option Remark} {board : Board}
    (hcycle : m.plant.board.cycle = .ok remark board) :
    Host.cycle run m =
      .ok ()
        { m with plant := { m.plant with board }, world := m.world.note (remark.map .remark) } := by
  simp only [Host.cycle, run_bind, onPlant, Plant.cycle, Console.cycle, Console.advance, hcycle,
    run_pure, hrun]

/-- One cycle changes the board, and fails as the board does. -/
theorem cycle_eq (hrun : run [] = pure ()) (m : Machine) :
    ∃ world, Host.cycle run m =
      match m.plant.board.cycle with
      | .ok _ board => .ok () { m with plant := { m.plant with board }, world }
      | .error fault board =>
        .error (.fault fault) { m with plant := { m.plant with board }, world } := by
  cases hcycle : m.plant.board.cycle with
  | ok remark board => exact ⟨_, cycle_of_ok hrun hcycle⟩
  | error fault board =>
    refine ⟨m.world, ?_⟩
    simp only [Host.cycle, run_bind, onPlant, Plant.cycle, Console.cycle, Console.advance, hcycle]

theorem updateTimers_silent (hrun : run [] = pure ()) {m : Machine} (hlisteners : m.listeners = [])
    (hsilent : m.plant.beeper.enabled = false) :
    ∃ world, updateTimers run m = .ok () { m with plant := m.plant.ticked, world } := by
  obtain ⟨w, hw⟩ := Console.updateTimers_silent hsilent m.clock m.world
  refine ⟨w, ?_⟩
  simp only [updateTimers, run_bind, run_get, onPlant, Plant.updateTimers, hw, run_pure,
    hrun, hlisteners]
  cases m.plant.board.timers.expiring <;> rfl

/-- When the next event of the timer chain is due, the timers tick and schedule the event after
it. -/
theorem processEvents_chain {m : Machine} {due order : Int} {plant : Console} {world : World}
    (hqueue : m.queue = ⟨[⟨due, order, .timers m.chain⟩]⟩) (hdue : due ≤ m.clock)
    (hstatus : m.status = .running) (hactive : m.chainActive = true)
    (hticked : updateTimers run { m with queue := .empty } =
      .ok () { m with queue := .empty, plant, world }) :
    processEvents run m =
      .ok () { m with
        plant
        world
        queue := ⟨[⟨m.clock + m.interval, m.scheduled, .timers m.chain⟩]⟩
        scheduled := m.scheduled + 1 } := by
  have hevents : m.queue.due m.clock = [⟨due, order, .timers m.chain⟩] := by
    simp [hqueue, EventQueue.due, hdue]
  have hlater : m.queue.later m.clock = .empty := by
    simp [hqueue, EventQueue.later, hdue, EventQueue.empty]
  -- The chain is still the current one, so the event is not a stale one and schedules the next.
  have hperform : tickChain run m.chain { m with queue := .empty } =
      .ok () { m with
        plant
        world
        queue := ⟨[⟨m.clock + m.interval, m.scheduled, .timers m.chain⟩]⟩
        scheduled := m.scheduled + 1 } := by
    simp only [hstatus, hactive] at hticked
    simp only [tickChain, run_bind, run_get, hstatus, hactive, hticked, and_self, if_true]
    rfl
  simp only [processEvents, run_bind, takeDue, run_modifyGet, hevents, hlater, List.forM,
    perform, hperform]
  rfl

theorem processEvents_timers (hrun : run [] = pure ()) {m : Machine} {due order : Int}
    (hqueue : m.queue = ⟨[⟨due, order, .timers m.chain⟩]⟩) (hdue : due ≤ m.clock)
    (hstatus : m.status = .running) (hactive : m.chainActive = true)
    (hlisteners : m.listeners = []) (hsilent : m.plant.beeper.enabled = false) :
    ∃ world, processEvents run m =
      .ok () { m with
        plant := m.plant.ticked
        world
        queue := ⟨[⟨m.clock + m.interval, m.scheduled, .timers m.chain⟩]⟩
        scheduled := m.scheduled + 1 } := by
  obtain ⟨world, hticked⟩ := updateTimers_silent (m := { m with queue := .empty }) hrun
    hlisteners hsilent
  exact ⟨world, processEvents_chain hqueue hdue hstatus hactive hticked⟩

end Host

/-! ## Power and reset -/

namespace Machine

/-- The machine after power-on, with a single timer chain. -/
def poweredOn (m : Machine) : Machine :=
  { m with
    plant := m.plant.reset
    status := .running
    clock := 0
    anchor := m.world.now
    queue := ⟨[⟨0 + m.interval, m.scheduled, .timers (m.chain + 1)⟩]⟩
    scheduled := m.scheduled + 1
    chainActive := true
    chain := m.chain + 1 }

variable {m : Machine} {f : Int}

theorem ordered_poweredOn (m : Machine) : m.poweredOn.queue.Ordered := List.pairwise_singleton _ _

/-- The first tick of the timers is still to come. -/
theorem late_poweredOn (hinterval : 1 ≤ m.interval) : m.poweredOn.queue.Late 0 := by
  intro e he
  rw [List.mem_singleton.1 he]
  show (0 : Int) < 0 + m.interval
  omega

theorem timers_of_mem_poweredOn {e : Event (Task Console.Operation)}
    (he : e ∈ m.poweredOn.queue.events) :
    e.payload = .timers (m.chain + 1) := by
  rw [List.mem_singleton.1 he]

theorem applyReset_idle (hf : 0 < f) (hfrequency : m.frequency = .integer f)
    (hidle : m.status ≠ .running) :
    Host.applyReset m =
      .ok () { m with
        plant := m.plant.reset
        clock := 0
        anchor := m.world.now
        queue := .empty
        chainActive := false } := by
  have hanchor := Host.anchorClock_zero
    (h := { m with chainActive := false, queue := .empty, clock := 0 }) hf hfrequency rfl
  simp only [Host.applyReset, Host.stopChain, Host.clearQueue, run_bind, run_get, run_modify,
    hanchor, hidle, if_false]
  rfl

theorem applyReset_running (hf : 0 < f) (hfrequency : m.frequency = .integer f)
    (hrunning : m.status = .running) :
    Host.applyReset m = .ok () m.poweredOn := by
  have hanchor := Host.anchorClock_zero
    (h := { m with status := .running, chainActive := false, queue := .empty, clock := 0 }) hf
    hfrequency rfl
  simp only [Host.applyReset, Host.stopChain, Host.clearQueue, run_bind, run_get,
    run_modify, hrunning, if_true, hanchor]
  rfl

/-- Whatever a machine was doing, power-on leads to the same. -/
theorem powerOn_eq (hf : 0 < f) (hfrequency : m.frequency = .integer f) :
    Host.powerOn m = .ok () m.poweredOn := by
  by_cases hrunning : m.status = .running
  · -- The reset has started the chain already.
    have hanchor := Host.anchorClock_zero (h := m.poweredOn) hf hfrequency rfl
    simp only [Host.powerOn, run_bind, run_modify, applyReset_running hf hfrequency hrunning]
    rw [show ({ m.poweredOn with status := .running } : Machine) = m.poweredOn from rfl, hanchor]
    rfl
  · have hanchor := Host.anchorClock_zero
      (h := { m.poweredOn with
        queue := .empty
        scheduled := m.scheduled
        chainActive := false
        chain := m.chain }) hf hfrequency rfl
    simp only [Host.powerOn, run_bind, run_modify, applyReset_idle hf hfrequency hrunning]
    simp only [poweredOn] at hanchor
    simp only [hanchor]
    rfl

theorem exists_of_applyReset_eq_ok {n : Machine} (hend : Host.applyReset m = .ok () n) :
    ∃ anchor, (m.status = .running → n = { m.poweredOn with anchor }) ∧
      (m.status ≠ .running → n = { m with
        plant := m.plant.reset
        clock := 0
        anchor
        queue := .empty
        chainActive := false }) := by
  let emptied : Machine := { m with chainActive := false, queue := .empty, clock := 0 }
  have hemptied : (Host.anchorClock >>= fun _ => Host.onPlant Plant.reset >>= fun _ =>
      if m.status = .running then Host.startChain else pure ()) emptied = .ok () n := hend
  obtain ⟨_, k, hanchor, hrest⟩ := exists_of_bind_eq_ok hemptied
  obtain ⟨anchor, rfl⟩ := Host.exists_of_anchorClock_eq_ok hanchor
  refine ⟨anchor, fun hrunning => ?_, fun hidle => ?_⟩
  · rw [if_pos hrunning] at hrest
    obtain ⟨_, k, hplant, hstart⟩ := exists_of_bind_eq_ok hrest
    cases hplant
    have hnone : m.status = .running ∧ (!emptied.chainActive) = true := ⟨hrunning, rfl⟩
    simp only [emptied, Host.startChain, run_bind, run_get, if_pos hnone] at hstart
    cases hstart
    rw [poweredOn, ← hrunning]
    rfl
  · rw [if_neg hidle] at hrest
    cases hrest
    rfl

/-- Whatever the frequency is, power-on that ends well leads to the same but for the anchor. -/
theorem exists_of_powerOn_eq_ok {n : Machine} (hend : Host.powerOn m = .ok () n) :
    ∃ anchor, n = { m.poweredOn with anchor } := by
  obtain ⟨_, k, hreset, hrest⟩ := exists_of_bind_eq_ok hend
  obtain ⟨_, l, hstatus, hrest⟩ := exists_of_bind_eq_ok hrest
  cases hstatus
  obtain ⟨_, l, hanchor, hstart⟩ := exists_of_bind_eq_ok hrest
  obtain ⟨anchor, rfl⟩ := Host.exists_of_anchorClock_eq_ok hanchor
  obtain ⟨_, hrunning, hidle⟩ := exists_of_applyReset_eq_ok hreset
  refine ⟨anchor, ?_⟩
  by_cases hstatus : m.status = .running
  · obtain rfl := hrunning hstatus
    cases hstart
    rfl
  · obtain rfl := hidle hstatus
    cases hstart
    rfl

theorem execute_powerOn (hf : 0 < f) (hfrequency : m.frequency = .integer f) :
    Host.execute .powerOn m = .ok .nothing m.poweredOn := by
  show (Host.powerOn >>= fun _ => pure Reply.nothing) m = _
  rw [run_bind, powerOn_eq hf hfrequency]
  rfl

theorem execute_reset (hf : 0 < f) (hfrequency : m.frequency = .integer f)
    (hstatus : m.status = .stopped) (hqueue : m.queue = .empty) :
    Host.execute .reset m =
      .ok .nothing { m with
        plant := m.plant.reset
        clock := 0
        anchor := m.world.now
        scheduled := m.scheduled + 1
        queue := .empty
        chainActive := false } := by
  have hreset := applyReset_idle (m := { m with scheduled := m.scheduled + 1 }) hf hfrequency
    (by rw [hstatus]; decide)
  have hlate : m.queue.Late m.clock := by
    intro e he
    rw [hqueue] at he
    exact nomatch he
  have hexecute : Host.execute .reset m =
      (Host.schedule (Host.runner Host.nestingLimit) 0 .reset >>= fun _ => pure Reply.nothing) m :=
        rfl
  simp only [hexecute, run_bind, Host.schedule_now hlate, Host.perform, hreset]
  rfl

end Machine

end Chip8
