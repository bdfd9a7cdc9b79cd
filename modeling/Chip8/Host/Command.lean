import Chip8.Number
import Chip8.Rom

/-!
# Commands

What a host can be told, and what it answers. What is to happen at an event of the user's own, or
when a listener is told of a beep, is a script of commands.

## Main definitions

* `Command`, `Script`: what a host can be told to do
* `Reply`: what it answers
-/

namespace Chip8

/-- What a host can be told to do. `Op` is what its plant can be told. -/
inductive Command (Op : Type) where
  | powerOn
  | powerOff
  | pause
  | resume
  | reset
  | tick (cycles : Int)
  /-- Instruction cycles outside the clock. -/
  | cycle (count : Nat)
  | cyclesDue
  | runUntilNow
  /-- Power on, tick, and power off whatever happens. -/
  | run (cycles : Int)
  | setFrequency (frequency : Number)
  | updateTimers
  | applyPause
  | applyResume
  | applyPowerOff
  /-- Let time pass on the wall clock. -/
  | advance (nanoseconds : Int)
  | setMaxCatchUp (cycles : Int)
  | raise (text : String)
  | schedule (delay : Int) (label : String) (script : List (Command Op))
  | addListener (name : String) (script : List (Command Op))
  | removeListener (name : String)
  | operate (op : Op)

/-- Commands to be carried out in turn. -/
abbrev Script (Op : Type) := List (Command Op)

/-- What an operation answers. -/
inductive Reply where
  | nothing
  | integer (n : Int)
  | boolean (b : Bool)
  | integers (ns : List Int)
  | text (s : String)
  | program (p : Option Program)
  | picture (rows : List (List Int))
  deriving DecidableEq

end Chip8
