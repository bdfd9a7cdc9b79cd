import Chip8.Host.Basic

/-!
# The clock and the timer chain

The clock is anchored to the wall clock, and the cycles that it has fallen behind are due. While a
host is running, one of the events in its queue is the next tick of the plant's timers, and carrying
it out schedules the one after it; together they are the timer chain. Chains are numbered, and an
event of a chain that is no longer current does nothing.

## Main definitions

* `Host.anchorAt`, `Host.cyclesDue`: the clock against the wall clock
* `Host.enqueue`, `Host.takeDue`: the queue against the clock
* `Host.startChain`, `Host.stopChain`, `Host.tickChain`: the timer chain
-/

namespace Chip8.Host

variable {σ Op : Type}

/-! ## Pacing -/

/-- Anchor the clock so that it shows a count now. -/
def anchorAt (clock : Int) : HostM σ Op Unit := do
  let h ← get
  let anchor ← calculate (Pacer.anchor h.world.now clock h.frequency)
  modify fun h => { h with anchor }

/-- Anchor the clock at what it shows. -/
def anchorClock : HostM σ Op Unit := do anchorAt (← get).clock

/-- How many cycles are to be made up for. If they are too many, the clock is anchored anew so that
only the most allowed ones are. -/
def cyclesDue : HostM σ Op Int := do
  let h ← get
  if h.status ≠ .running then return 0
  let expected ← calculate (Pacer.expected h.world.now h.anchor h.frequency)
  let due := expected - h.clock
  if h.maxCatchUp < due then
    anchorAt (h.clock + h.maxCatchUp)
    return h.maxCatchUp
  else return max due 0

/-! ## Events and the timer chain -/

/-- Put an event into the queue, a number of cycles from now. -/
def enqueue (delay : Nat) (task : Task Op) : HostM σ Op Unit :=
  modify fun h =>
    { h with
      queue := h.queue.insert ⟨h.clock + delay, h.scheduled, task⟩
      scheduled := h.scheduled + 1 }

/-- Take the events that are due off the queue. -/
def takeDue : HostM σ Op (List (Event (Task Op))) :=
  modifyGet fun h => (h.queue.due h.clock, { h with queue := h.queue.later h.clock })

/-- Start a new timer chain, if the host is running and no chain is going. Its first event is at
least one cycle away. -/
def startChain : HostM σ Op Unit := do
  let h ← get
  if h.status = .running ∧ !h.chainActive then
    set { h with chainActive := true, chain := h.chain + 1 }
    enqueue h.interval (.timers (h.chain + 1))

/-- End the timer chain. Its event stays in the queue but does nothing when it comes due. -/
def stopChain : HostM σ Op Unit := modify fun h => { h with chainActive := false }

/-- Drop all events. -/
def clearQueue : HostM σ Op Unit := modify fun h => { h with queue := .empty }

variable [Plant σ Op]

/-- Tell a listener of a beep. -/
def tell (run : Runner σ Op) (l : Listener Op) : HostM σ Op Unit := do
  mark (.listener l.name (← get).clock)
  run l.script

/-- One tick of the plant's timers. Listeners are told of a beep in order, and those that were
registered when it sounded. -/
def updateTimers (run : Runner σ Op) : HostM σ Op Unit := do
  let result ← onPlant (Plant.updateTimers (← get).clock)
  run result.script
  if result.beeped then (← get).listeners.forM (tell run)

/-- The tick of a timer chain, which schedules the next one. -/
def tickChain (run : Runner σ Op) (chain : Nat) : HostM σ Op Unit := do
  let h ← get
  if chain = h.chain ∧ h.chainActive ∧ h.status = .running then
    updateTimers run
    let h ← get
    if h.chainActive ∧ h.status = .running then enqueue h.interval (.timers chain)

end Chip8.Host
