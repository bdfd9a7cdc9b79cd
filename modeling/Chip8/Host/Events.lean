import Chip8.Host.Timing

/-!
# Events

What happens when an event is carried out, and how events come to be carried out: those that the
clock has reached, in order, and those that are scheduled without a delay at once.

## Main definitions

* `Host.perform`: carry out an event
* `Host.processEvents`: carry out the events that are due
* `Host.schedule`: put an event into the queue
-/

namespace Chip8.Host

variable {σ Op : Type} [Plant σ Op]

/-! ## What takes effect at an event -/

/-- Stop for the time being. -/
def applyPause : HostM σ Op Unit := do
  if (← get).status = .running then
    modify fun h => { h with status := .paused }
    stopChain

/-- Go on running from now. -/
def applyResume : HostM σ Op Unit := do
  if (← get).status ≠ .running then
    modify fun h => { h with status := .running }
    anchorClock
    startChain

/-- Stop and drop all events. -/
def applyPowerOff : HostM σ Op Unit := do
  modify fun h => { h with status := .stopped }
  stopChain
  clearQueue

/-- Drop all events, set the clock to zero and reset the plant. A running host goes on running with
a new timer chain. -/
def applyReset : HostM σ Op Unit := do
  let running := (← get).status = .running
  stopChain
  clearQueue
  modify fun h => { h with clock := 0 }
  anchorClock
  onPlant Plant.reset
  if running then startChain

/-- Carry out an event. -/
def perform (run : Runner σ Op) : Task Op → HostM σ Op Unit
  | .timers chain => tickChain run chain
  | .powerOff => applyPowerOff
  | .reset => applyReset
  | .pause => applyPause
  | .resume => applyResume
  | .script label script => do
    mark (.event label (← get).clock)
    run script

/-- Carry out the events that are due. They are taken off the queue all at once, and lost if one of
them fails. -/
def processEvents (run : Runner σ Op) : HostM σ Op Unit := do
  (← takeDue).forM fun e => perform run e.payload

/-- Schedule an event. Without a delay it is carried out at once, with whatever else is due. -/
def schedule (run : Runner σ Op) (delay : Int) (task : Task Op) : HostM σ Op Unit := do
  enqueue delay.toNat task
  if delay ≤ 0 then processEvents run

end Chip8.Host
