import Chip8.EventQueue
import Chip8.Host.Command
import Chip8.Pacer
import Chip8.World

/-!
# The host

A host runs a plant: something with an instruction cycle, a set of timers and a reset. It keeps the
emulated clock, one tick to a cycle, and a queue of events that are carried out when the clock
reaches them. Running a script is a parameter of every operation that can come to it.

## Main definitions

* `Host`: the state of a host with its plant and the world around it
* `HostM`: operations of a host
* `Plant`: what a host needs of the thing it runs
* `Host.create`: a stopped host around a plant
-/

namespace Chip8

/-- What an event does when it is carried out. -/
inductive Task (Op : Type) where
  /-- Tick the plant's timers, as part of the timer chain of a number. -/
  | timers (chain : Nat)
  | powerOff
  | reset
  | pause
  | resume
  /-- Run a script of the user's own. -/
  | script (label : String) (script : Script Op)

/-- Whether a host runs. -/
inductive Status where
  | running
  | paused
  | stopped
  deriving DecidableEq, Repr

/-- Someone to be told of beeps. -/
structure Listener (Op : Type) where
  name : String
  script : Script Op

/-- A host with its plant and the world around it. -/
structure Host (σ Op : Type) where
  plant : σ
  world : World
  status : Status := .stopped
  /-- Cycles since the last reset. -/
  clock : Nat := 0
  /-- Cycles in a second. -/
  frequency : Number
  /-- Timer ticks in a second. -/
  timerFrequency : Number
  /-- The most cycles that are made up for at once. -/
  maxCatchUp : Int
  /-- The moment at which the clock would have stood at zero. -/
  anchor : Int
  queue : EventQueue (Task Op) := .empty
  /-- How many events have been scheduled. -/
  scheduled : Nat := 0
  /-- Cycles between two timer ticks. -/
  interval : Nat
  /-- Whether a timer chain is going. -/
  chainActive : Bool := false
  /-- The number of the current timer chain. -/
  chain : Nat := 0
  /-- Who is told of beeps, in order. -/
  listeners : List (Listener Op) := []
  /-- Everyone who was ever named as a listener, with the script of the first time. -/
  known : List (Listener Op) := []

/-- An operation of a host. When it fails, what it did up to then stays done. -/
abbrev HostM (σ Op α : Type) := EStateM Failure (Host σ Op) α

/-- An operation of a plant in its world. -/
abbrev PlantM (σ α : Type) := EStateM Failure (σ × World) α

/-- A way to run scripts. -/
abbrev Runner (σ Op : Type) := Script Op → HostM σ Op Unit

/-- What a plant's timers have to say after a tick. -/
structure TimerResult (Op : Type) where
  /-- What the plant wants done. -/
  script : Script Op := []
  /-- Whether the listeners are to be told of a beep. -/
  beeped : Bool := false

/-- What a host needs of the thing it runs. -/
class Plant (σ : Type) (Op : outParam Type) where
  /-- One instruction, with what the plant wants done after it. -/
  cycle : PlantM σ (Script Op)
  /-- One tick of the timers at a clock. -/
  updateTimers : Nat → PlantM σ (TimerResult Op)
  /-- Back to the state after a reset. -/
  reset : PlantM σ Unit
  /-- An operation of the plant's own. -/
  operate : Op → PlantM σ Reply

namespace Host

variable {σ Op : Type}

/-- Carry out an operation of the plant. -/
def onPlant {α : Type} (m : PlantM σ α) : HostM σ Op α := fun h =>
  match m (h.plant, h.world) with
  | .ok a (plant, world) => .ok a { h with plant, world }
  | .error e (plant, world) => .error e { h with plant, world }

/-- Leave a mark in the journal. -/
def mark (m : Mark) : HostM σ Op Unit :=
  modify fun h => { h with world := h.world.record (.mark m) }

/-- Use a calculation that may have no result. -/
def calculate {α : Type} (x : Except ArithmeticError α) : HostM σ Op α :=
  match x with
  | .ok a => pure a
  | .error e => throw (.arithmetic e)

/-- Carry out one operation and then another, whether or not the first one fails. A failure of the
second comes first. -/
def ensuring {α : Type} (body : HostM σ Op α) (cleanup : HostM σ Op Unit) : HostM σ Op α := fun h =>
  match body h with
  | .ok a h =>
    match cleanup h with
    | .ok _ h => .ok a h
    | .error e h => .error e h
  | .error e h =>
    match cleanup h with
    | .ok _ h => .error e h
    | .error e h => .error e h

/-- A stopped host around a plant. -/
def create (plant : σ) (world : World) (frequency timerFrequency : Number) (maxCatchUp : Int) :
    Except Failure (Host σ Op) := do
  if frequency.isNonpositive || timerFrequency.isNonpositive then throw .frequencyNotPositive
  let interval ← (Pacer.timerInterval frequency timerFrequency).mapError .arithmetic
  let anchor ← (Pacer.anchor world.now 0 frequency).mapError .arithmetic
  return { plant, world, frequency, timerFrequency, maxCatchUp, anchor, interval }

end Host

end Chip8
