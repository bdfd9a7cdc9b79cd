import Chip8.Host.Basic

/-!
# The bench

A plant made of counters, to try a host without a console. It has a processor that counts its
cycles, a number of devices, and timers that count their ticks. At chosen counts the processor and
the timers want a script to be run. What is used leaves a mark.

## Main definitions

* `Bench`: the counters, and what is to be done at which count
* `Bench.cycle`, `Bench.tickTimers`: one count
-/

namespace Chip8

/-- The processor of a bench. -/
inductive BenchProcessor where
  | resettable
  /-- A processor that a reset passes over. -/
  | plain
  | absent
  deriving DecidableEq, Repr

/-- A bench has no operations of its own. -/
abbrev BenchScript := Script Empty

/-- A plant made of counters. -/
structure Bench where
  processor : BenchProcessor := .resettable
  /-- The devices, and for each whether it can be reset. -/
  devices : List Bool := []
  /-- Instruction cycles so far. Nothing sets them back. -/
  cycles : Nat := 0
  /-- Timer ticks so far. Nothing sets them back. -/
  timerTicks : Nat := 0
  /-- What is to be done after the cycle of a number. -/
  onCycle : List (Nat × BenchScript) := []
  /-- What is to be done after the timer tick of a number. -/
  onTimer : List (Nat × BenchScript) := []

namespace Bench

/-- One instruction cycle. -/
def cycle (b : Bench) : Bench × BenchScript :=
  if b.processor = .absent then (b, [])
  else ({ b with cycles := b.cycles + 1 }, (b.onCycle.lookup (b.cycles + 1)).getD [])

/-- One timer tick. -/
def tickTimers (b : Bench) : Bench × BenchScript :=
  ({ b with timerTicks := b.timerTicks + 1 }, (b.onTimer.lookup (b.timerTicks + 1)).getD [])

/-- The marks that a reset leaves. -/
def resetMarks (b : Bench) : List Mark :=
  (if b.processor = .resettable then [.processorReset] else []) ++
    (b.devices.zipIdx.filter (·.1)).map fun (_, i) => .deviceReset i

instance : Plant Bench Empty where
  cycle := modifyGet fun (b, w) =>
    let (b, script) := b.cycle
    (script, (b, w))
  updateTimers clock := modifyGet fun (b, w) =>
    let (b, script) := b.tickTimers
    ({ script }, (b, w.record (.mark (.timer clock))))
  reset := modify fun (b, w) => (b, b.resetMarks.foldl (fun w m => w.record (.mark m)) w)
  operate := fun op => nomatch op

end Bench

end Chip8
