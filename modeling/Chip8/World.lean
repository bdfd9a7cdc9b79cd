import Chip8.Toolkit

/-!
# The world around the console

The wall clock, the files, the toolkit if there is one, and a journal of everything that can be
noticed from outside: records for the log, calls to the toolkit, and marks left by the parts that a
test puts in place of real ones.

## Main definitions

* `Notice`: a record for the log, with its severity, channel and text
* `Mark`, `Entry`: what a journal is made of
* `World`: the surroundings
* `World.refusal`, `World.call`: a call to the toolkit
-/

namespace Chip8

/-- How serious a record is. -/
inductive Severity where
  | debug
  | info
  | warning
  deriving DecidableEq, Repr

namespace Severity

/-- The severity in words. -/
def name : Severity → String
  | debug => "DEBUG"
  | info => "INFO"
  | warning => "WARNING"

/-- The place of a severity on a rising scale. -/
def rank : Severity → Nat
  | debug => 0
  | info => 1
  | warning => 2

end Severity

/-- A record for the log. -/
inductive Notice where
  | remark (r : Remark)
  | loaded (name : String) (size : Nat)
  /-- The sound timer ran out. -/
  | beep (clock : Nat)
  | soundDisabled (cause : Failure)
  | playbackFailed (cause : Failure)
  deriving DecidableEq, Repr

namespace Notice

/-- How serious a record is. -/
def severity : Notice → Severity
  | remark (.machineCode _ _) => .debug
  | remark (.unknownOpcode _ _) => .warning
  | remark (.awaitingKey _) => .debug
  | loaded _ _ => .info
  | beep _ => .debug
  | soundDisabled _ => .warning
  | playbackFailed _ => .warning

/-- The channel of the log that a record goes to. -/
def channel : Notice → String
  | remark _ => "chip8emu.cpu.cpu"
  | loaded _ _ => "chip8emu.chip8.computer"
  | beep _ => "chip8emu.chip8.computer"
  | soundDisabled _ => "chip8emu.chip8.sound"
  | playbackFailed _ => "chip8emu.chip8.sound"

/-- An address or opcode as records show it. -/
def hex (width : Nat) (n : Int) : String := "0x" ++ String.ofList (Text.hexUpperSigned width n)

/-- What a record says. -/
def text : Notice → String
  | remark (.machineCode target pc) =>
    s!"ignoring machine code call {hex 3 target.toNat} at {hex 3 pc}"
  | remark (.unknownOpcode opcode pc) => s!"unknown opcode {hex 4 opcode.toNat} at {hex 3 pc}"
  | remark (.awaitingKey x) => "waiting for key into V" ++ String.ofList (Text.hexUpper 1 x.toNat)
  | loaded name size => s!"loaded {name} ({size} bytes)"
  | beep clock => s!"beep at clock {clock}"
  | soundDisabled cause => s!"audio disabled, mixer unavailable: {cause.message}"
  | playbackFailed cause => s!"beep playback failed: {cause.message}"

/-- A record as one line of the log. -/
def line (n : Notice) : String := s!"{n.severity.name} {n.channel}: {n.text}"

end Notice

/-- What a part in place of a real one leaves behind when it is used. -/
inductive Mark where
  | processorReset
  | deviceReset (device : Nat)
  | timer (clock : Nat)
  | event (label : String) (clock : Nat)
  | listener (name : String) (clock : Nat)
  deriving DecidableEq, Repr

/-- A mark in words. -/
def Mark.text : Mark → String
  | processorReset => "cpu.reset"
  | deviceReset device => s!"device{device}.reset"
  | timer clock => s!"timer @{clock}"
  | event label clock => s!"event {label} @{clock}"
  | listener name clock => s!"listener {name} @{clock}"

/-- One thing that can be noticed from outside. -/
inductive Entry where
  | notice (n : Notice)
  | call (c : Call)
  | mark (m : Mark)
  deriving DecidableEq, Repr

/-- The surroundings of the console. -/
structure World where
  /-- The wall clock, in nanoseconds. -/
  now : Int := 0
  files : FileSystem := FileTree.system {}
  toolkit : Option Toolkit := none
  /-- What happened, in order. -/
  journal : Array Entry := #[]

namespace World

/-- The world after something noticeable happened. -/
def record (w : World) (e : Entry) : World := { w with journal := w.journal.push e }

/-- The world after a record for the log, if there is one. -/
def note (w : World) : Option Notice → World
  | none => w
  | some n => w.record (.notice n)

/-- The world after some time. -/
def pass (w : World) (nanoseconds : Int) : World := { w with now := w.now + nanoseconds }

/-- Why a call to the toolkit fails, if it does. -/
def refusal (w : World) (c : Call) : Option Failure :=
  match w.toolkit with
  | none => some .toolkitMissing
  | some t => if t.refuses c then some (.callFailed c.name) else none

/-- The world after a call to the toolkit. A call that fails is not recorded. -/
def call (w : World) (c : Call) : Except Failure World :=
  match w.refusal c with
  | none => .ok (w.record (.call c))
  | some cause => .error cause

end World

end Chip8
