import Chip8.Console
import Chip8.Options

/-!
# Running without a window

A program is loaded and run for a number of cycles, and then the registers and, if asked for, the
screen and ranges of memory are reported.

## Main definitions

* `Headless.Request`: what a command line asks for
* `Headless.perform`: carry it out
* `Headless.invoke`: from the command line to what is printed
-/

namespace Chip8.Headless

open Options (Stop UsageError)

/-- The name of the command. -/
def command : String := "chip8emu-debug"

/-- Cycles to run, unless told otherwise. -/
def defaultCycles : Int := 1000

/-- What the command can be given. -/
def grammar : Options.Grammar where
  options :=
    [ Options.help,
      ⟨["--cycles"], .integer⟩,
      ⟨["--seed"], .integer⟩,
      ⟨["--screen"], .flag⟩,
      ⟨["--dump"], .text⟩,
      ⟨["--verbose"], .flag⟩ ]
  operand := "rom"
  operandRequired := true

/-- What a command line asks for. -/
structure Request where
  rom : Path
  cycles : Int
  seed : Option Int
  screen : Bool
  ranges : List HexRange
  verbose : Bool

/-- What comes of reading a command line, which can stop the command for a reason or make it
fail. -/
abbrev Reader (ε α : Type) := ExceptT ε (Except Failure) α

/-- The integer given last to an option, which must not be nothing if there was one. -/
def integer? {ε : Type} (reading : Options.Reading) (name : String) (need : Need) :
    Reader ε (Option Int) :=
  match reading.last? name with
  | some (.integer n) => return some n
  | some .nothing => throwThe Failure (.valueMissing need)
  | _ => return none

/-- The range that the value of an option stands for, which must not be nothing. -/
def range : Options.Value → Reader Stop HexRange
  | .text s =>
    match HexRange.ofString s with
    | .ok r => return r
    | .error cause => throw (.usage (.refused cause.message))
  | _ => throwThe Failure (.valueMissing .range)

/-- What an arguments list asks for. -/
def Request.ofArguments (args : List String) : Reader Stop Request := do
  let reading ← ExceptT.mk (.ok (grammar.read args))
  let cycles := (← integer? reading "--cycles" .nonnegative).getD defaultCycles
  if cycles < 0 then throw (.usage (.refused "--cycles must be non-negative"))
  let ranges ← (reading.values "--dump").mapM range
  let seed ← integer? reading "--seed" .seed
  return {
    rom := Path.ofString (reading.operand.getD "")
    cycles
    seed
    screen := reading.has "--screen"
    ranges
    verbose := reading.has "--verbose" }

/-- What is left when the command ends. -/
structure Outcome where
  status : Nat
  output : String := ""
  diagnostics : List String := []
  deriving DecidableEq, Repr

/-- The lines of the log that are shown from a severity on. -/
def logLines (least : Severity) (journal : Array Entry) : List String :=
  journal.toList.filterMap fun
    | .notice n => if least.rank ≤ n.severity.rank then some n.line else none
    | _ => none

/-- What is reported about a machine. -/
def report (request : Request) (c : Console) : String :=
  let sections :=
    [Report.registers c.board] ++
    (if request.screen then [c.board.screen.text] else []) ++
    (if request.ranges.isEmpty then [] else [Report.dump c.board.memory request.ranges])
  "\n\n".intercalate sections ++ "\n"

/-- The line that tells why the command gave up. -/
def errorLine (cause : Failure) : String := s!"error: {cause.message}"

/-- Load a program image into a machine, if it could be read. -/
def loadInto (path : Path) (image : Except Rom.LoadError (List Byte)) : MachineM Unit :=
  match image with
  | .error cause => throw (.load cause)
  | .ok image => do
    let _ ← Host.onPlant (Console.load (some path) image)

/-- Run a program image in a machine, and report. Only a fault of the processor leaves something to
report. -/
def runAndReport (request : Request) (image : Except Rom.LoadError (List Byte)) (m : Machine) :
    Except Failure Outcome :=
  let lines (m : Machine) := logLines (if request.verbose then .debug else .warning) m.world.journal
  match loadInto request.rom image m with
  | .error cause m =>
    if cause.isOperational then .ok { status := 1, diagnostics := lines m ++ [errorLine cause] }
    else .error cause
  | .ok _ m =>
    match Host.runFor (Host.runner Host.nestingLimit) request.cycles m with
    | .ok _ m => .ok { status := 0, output := report request m.plant, diagnostics := lines m }
    | .error (.fault cause) m =>
      if cause.isStackFault then
        .ok {
          status := 2
          output := report request m.plant
          diagnostics := lines m ++ [errorLine (.fault cause)] }
      else .error (.fault cause)
    | .error cause _ => .error cause

/-- Carry out a request on a program image. Without a seed, random bytes come from the source
given. -/
def perform (request : Request) (image : Except Rom.LoadError (List Byte)) (world : World)
    (unseeded : RandomSource) : Except Failure Outcome := do
  let random := (request.seed.map RandomSource.ofSeed).getD unseeded
  let m ← Machine.create world random (.integer Machine.instructionRate)
    (.integer Machine.timerRate) false
  runAndReport request image m

/-- The line that tells what is wrong with a command line. -/
def usageLine (cause : UsageError) : String := s!"{command}: error: {cause.message}"

/-- What is left when there is nothing to carry out. -/
def stopped : Stop → Outcome
  | .help => { status := 0 }
  | .usage cause => { status := 2, diagnostics := [usageLine cause] }

/-- From the command line to what is printed. -/
def invoke (args : List String) (world : World) (unseeded : RandomSource) :
    Except Failure Outcome :=
  match (Request.ofArguments args).run with
  | .error cause => .error cause
  | .ok (.error stop) => .ok (stopped stop)
  | .ok (.ok request) => perform request (Rom.read world.files request.rom) world unseeded

end Chip8.Headless
