import Chip8.Host.Events

/-!
# Control of a host

A host is run for a number of cycles, or for those that are due by the wall clock; it is powered,
paused and reset; its instruction rate is changed; and listeners are registered with it.

## Main definitions

* `Host.tick`, `Host.runUntilNow`: run by count and by the wall clock
* `Host.powerOn`, `Host.powerOff`, `Host.pause`, `Host.resume`, `Host.reset`: control
* `Host.setFrequency`: change the instruction rate
* `Host.addListener`, `Host.removeListener`: who is told of beeps
-/

namespace Chip8.Host

variable {σ Op : Type} [Plant σ Op]

/-! ## Running -/

/-- One instruction cycle of the plant, outside the clock. -/
def cycle (run : Runner σ Op) : HostM σ Op Unit := do
  run (← onPlant Plant.cycle)

/-- A number of instruction cycles, outside the clock. -/
def cycleTimes (run : Runner σ Op) : Nat → HostM σ Op Unit
  | 0 => pure ()
  | n + 1 => do
    cycle run
    cycleTimes run n

/-- A number of clock ticks, each a cycle with the events that come due after it. They end early
when the host stops running. -/
def tickTimes (run : Runner σ Op) : Nat → HostM σ Op Unit
  | 0 => pure ()
  | n + 1 => do
    if (← get).status = .running then
      cycle run
      modify fun h => { h with clock := h.clock + 1 }
      processEvents run
      tickTimes run n

/-- Run for a number of cycles. -/
def tick (run : Runner σ Op) (cycles : Int) : HostM σ Op Unit := do
  if 0 < cycles then
    processEvents run
    tickTimes run cycles.toNat

/-- Run the cycles that are due by the wall clock, and tell how many they were. -/
def runUntilNow (run : Runner σ Op) : HostM σ Op Int := do
  let due ← cyclesDue
  tick run due
  return due

/-! ## Control -/

/-- Reset and start running, at once. -/
def powerOn : HostM σ Op Unit := do
  applyReset
  modify fun h => { h with status := .running }
  anchorClock
  startChain

/-- Stop, at once, unless stopped already. -/
def powerOff (run : Runner σ Op) : HostM σ Op Unit := do
  if (← get).status ≠ .stopped then schedule run 0 .powerOff

/-- Reset, at once. -/
def reset (run : Runner σ Op) : HostM σ Op Unit := schedule run 0 .reset

/-- Pause a running host, at once. -/
def pause (run : Runner σ Op) : HostM σ Op Unit := do
  if (← get).status = .running then schedule run 0 .pause

/-- Let a paused host go on, at once. -/
def resume (run : Runner σ Op) : HostM σ Op Unit := do
  if (← get).status = .paused then schedule run 0 .resume

/-- Power on, run for a number of cycles, and power off even if that fails. -/
def runFor (run : Runner σ Op) (cycles : Int) : HostM σ Op Unit := do
  powerOn
  ensuring (tick run cycles) (powerOff run)

/-- Change the instruction rate, anchor the clock anew and start a new timer chain if running. -/
def setFrequency (frequency : Number) : HostM σ Op Unit := do
  if frequency.isNonpositive then throw .frequencyNotPositive
  modify fun h => { h with frequency }
  anchorClock
  let interval ← calculate (Pacer.timerInterval frequency (← get).timerFrequency)
  modify fun h => { h with interval }
  if (← get).status = .running then
    stopChain
    startChain

/-! ## Listeners -/

/-- The listener of a name: the one known by it, or else a new one. -/
def listenerNamed (name : String) (script : Script Op) : HostM σ Op (Listener Op) := do
  match (← get).known.find? (·.name = name) with
  | some l => return l
  | none =>
    let l := ⟨name, script⟩
    modify fun h => { h with known := l :: h.known }
    return l

/-- Register a listener, once more if it is registered already. -/
def addListener (name : String) (script : Script Op) : HostM σ Op Unit := do
  let l ← listenerNamed name script
  modify fun h => { h with listeners := h.listeners ++ [l] }

/-- Remove the first registration of a listener. -/
def removeListener (name : String) : HostM σ Op Unit := do
  let _ ← listenerNamed name []
  let h ← get
  if h.listeners.any (·.name = name) then
    set { h with listeners := h.listeners.eraseP (·.name = name) }
  else throw .unknownListener

end Chip8.Host
