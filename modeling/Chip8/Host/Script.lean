import Chip8.Host.Control

/-!
# Carrying out commands

A command is carried out by the host's operations. Those that come to scripts run them one level
further in, and no script runs deeper than a fixed limit; so every command ends.

## Main definitions

* `Host.carryOut`: one command, given a way to run scripts
* `Host.runner`: scripts up to a depth
* `Host.execute`: one command from outside
-/

namespace Chip8.Host

variable {σ Op : Type} [Plant σ Op]

/-- Answer nothing. -/
private def silently (m : HostM σ Op Unit) : HostM σ Op Reply := do
  m
  return .nothing

/-- Carry out one command. -/
def carryOut (run : Runner σ Op) : Command Op → HostM σ Op Reply
  | .powerOn => silently powerOn
  | .powerOff => silently (powerOff run)
  | .pause => silently (pause run)
  | .resume => silently (resume run)
  | .reset => silently (reset run)
  | .tick cycles => silently (tick run cycles)
  | .cycle count => silently (cycleTimes run count)
  | .cyclesDue => return .integer (← cyclesDue)
  | .runUntilNow => return .integer (← runUntilNow run)
  | .run cycles => silently (runFor run cycles)
  | .setFrequency frequency => silently (setFrequency frequency)
  | .updateTimers => silently (updateTimers run)
  | .applyPause => silently applyPause
  | .applyResume => silently applyResume
  | .applyPowerOff => silently applyPowerOff
  | .advance nanoseconds => silently (modify fun h => { h with world := h.world.pass nanoseconds })
  | .setMaxCatchUp cycles => silently (modify fun h => { h with maxCatchUp := cycles })
  | .raise text => throw (.raised text)
  | .schedule delay label script => silently (schedule run delay (.script label script))
  | .addListener name script => silently (addListener name script)
  | .removeListener name => silently (removeListener name)
  | .operate op => onPlant (Plant.operate op)

/-- How deep scripts may run one inside another. -/
def nestingLimit : Nat := 1000

/-- Run scripts that run others up to a depth. -/
def runner : (depth : Nat) → Runner σ Op
  | 0 => fun
    | [] => pure ()
    | _ :: _ => throw .nestedTooDeep
  | depth + 1 => fun script => script.forM fun c => do
    let _ ← carryOut (runner depth) c

/-- Carry out a command from outside. -/
def execute (c : Command Op) : HostM σ Op Reply := carryOut (runner nestingLimit) c

end Chip8.Host
