import Chip8.Console
import Chip8.Headless
import Chip8.Options

/-!
# Running in a window

The window shows the screen at a scale and passes keys on. Each frame the events since the last one
are handled, the cycles that are due by the wall clock are run, and the picture is shown if it
changed. One key pauses and resumes; closing the window or Escape ends the run. However the run
ends, the machine is powered off and the toolkit is shut down.

Which calls of the toolkit fail, and how, is a parameter. It may depend on all that has happened so
far.

## Main definitions

* `Window.Frame`: what the toolkit has to say in one frame
* `Window.frame`, `Window.iterate`, `Window.frames`: the loop
* `Window.opening`, `Window.close`: before the loop and after it
* `Window.session`: from opening the window to shutting it down
* `Window.invoke`: from the command line to how it ends
-/

namespace Chip8.Window

open Options (Stop UsageError)

/-- Something that happened in the window. -/
inductive Input where
  /-- The window is to be closed. -/
  | close
  | keyDown (code : Int)
  | keyUp (code : Int)
  | other
  deriving DecidableEq, Repr

/-- One frame: the time since the last one, and what happened in it. -/
structure Frame where
  elapsed : Int := 0
  inputs : List Input := []
  deriving DecidableEq, Repr

/-- What the window keeps from frame to frame. -/
structure State where
  running : Bool := true
  paused : Bool := false
  deriving DecidableEq, Repr

/-- How the window is set up. -/
structure Setup where
  scale : Int
  fps : Int
  caption : String

/-- The caption without a program. -/
def baseCaption : String := "CHIP-8 Emulator"

/-- The key code of Escape. -/
def escapeKey : Int := 27

/-- The key code of the key that pauses and resumes. -/
def pauseKey : Int := 'p'.toNat

/-- Scripts of a machine in a window. -/
def run : Runner Console Console.Operation := Host.runner Host.nestingLimit

/-- The caption for the program in the machine. -/
def captionFor (program : Option Program) : String :=
  match program with
  | none => baseCaption
  | some p => s!"{baseCaption} | {p.name}"

section

variable (refuse : World → Call → Option Failure)

/-- A call to the toolkit. -/
def call (c : Call) : MachineM Unit := do
  match refuse (← get).world c with
  | none => modify fun m => { m with world := m.world.record (.call c) }
  | some cause => throw cause

/-- Pause or resume, and show it in the caption. -/
def togglePause (setup : Setup) (s : State) : MachineM State := do
  if s.paused then
    Host.resume run
    call refuse (.setCaption setup.caption)
  else
    Host.pause run
    call refuse (.setCaption s!"{setup.caption} | Paused")
  return { s with paused := !s.paused }

/-- Handle one input. -/
def handle (setup : Setup) (s : State) : Input → MachineM State
  | .close => return { s with running := false }
  | .keyDown code => do
    if code = escapeKey then return { s with running := false }
    else if code = pauseKey then togglePause refuse setup s
    else
      let _ ← Host.onPlant (Console.hostKey code true)
      return s
  | .keyUp code => do
    let _ ← Host.onPlant (Console.hostKey code false)
    return s
  | .other => return s

/-- Handle inputs in order. -/
def handleAll (setup : Setup) : State → List Input → MachineM State
  | s, [] => return s
  | s, input :: inputs => do handleAll setup (← handle refuse setup s input) inputs

/-- Show the picture, if it changed since it was last shown. -/
def refresh (scale : Int) : MachineM Unit := do
  let m ← get
  if m.plant.board.screen.dirty then
    match m.plant.board.screen.paint m.world.toolkit scale with
    | .error e => throw e
    | .ok surface => call refuse (.blit surface)
    call refuse .flip
    Host.onPlant (Console.onBoard fun b => { b with screen := { b.screen with dirty := false } })

/-- One frame, which is one iteration of the loop. -/
def frame (setup : Setup) (s : State) (f : Frame) : MachineM State := do
  modify fun m => { m with world := m.world.pass f.elapsed }
  let s ← handleAll refuse setup s f.inputs
  let _ ← Host.runUntilNow run
  refresh refuse setup.scale
  call refuse (.clockTick setup.fps)
  return s

/-- Frames one after the other, as long as the loop goes on. -/
def iterate (setup : Setup) : State → List Frame → MachineM State
  | s, [] => return s
  | s, f :: fs => do if s.running then iterate setup (← frame refuse setup s f) fs else return s

/-- The frames of a run. When there are no more, the window is closed. -/
def frames (setup : Setup) (fs : List Frame) : MachineM Unit := do
  let s ← iterate refuse setup {} fs
  if s.running then
    let _ ← frame refuse setup s { inputs := [.close] }

/-- Open the window and power on. -/
def opening (scale fps : Int) : MachineM Setup := do
  if (← get).world.toolkit.isNone then throw .toolkitMissing
  call refuse .init
  call refuse (.setMode (Screen.width * scale) (Screen.height * scale))
  let caption := captionFor (← get).plant.program
  call refuse (.setCaption caption)
  Host.powerOn
  return { scale, fps, caption }

/-- Power off and shut the toolkit down. -/
def close : MachineM Unit := do
  Host.powerOff run
  call refuse .quit

/-- Open the window, run, and close it again. -/
def session (scale fps : Int) (fs : List Frame) : MachineM Unit := do
  let setup ← opening refuse scale fps
  Host.ensuring (frames refuse setup fs) (close refuse)

end

/-! ## The command -/

/-- The name of the command. -/
def command : String := "chip8emu"

/-- The variable of the environment that names a program. -/
def romVariable : String := "CHIP8EMU_ROM"

/-- What the command can be given. -/
def grammar : Options.Grammar where
  options :=
    [ Options.help,
      ⟨["--scale"], .integer⟩,
      ⟨["--hz"], .integer⟩,
      ⟨["--fps"], .integer⟩,
      ⟨["--audio"], .flag⟩,
      ⟨["--no-audio"], .flag⟩,
      ⟨["--seed"], .integer⟩,
      ⟨["--verbose"], .flag⟩ ]
  operand := "rom"
  operandRequired := false

/-- How the command ends. -/
inductive Exit where
  | normal
  | help
  /-- A wrong command line, with what is said about it. -/
  | usage (line : String)
  /-- With a message. -/
  | message (text : String)
  deriving DecidableEq, Repr

/-- What a command line asks for. -/
structure Request where
  rom : String
  scale : Int
  fps : Int
  rate : Int
  sound : Bool
  seed : Option Int
  verbose : Bool

/-- The path of the program: the one given, or else the one in the environment. An empty path is
none. -/
def resolveRom (given environment : Option String) : Option String :=
  match given.filter (· ≠ "") with
  | some path => some path
  | none => environment.filter (· ≠ "")

/-- What an arguments list asks for. -/
def Request.ofArguments (args : List String) (environment : Option String) :
    Headless.Reader Exit Request := do
  let reading ← ExceptT.mk (.ok ((grammar.read args).mapError fun
    | .help => Exit.help
    | .usage cause => .usage s!"{command}: error: {cause.message}"))
  let scale := (← Headless.integer? reading "--scale" .positive).getD 10
  if scale ≤ 0 then throw (.message "scale must be positive")
  let fps := (← Headless.integer? reading "--fps" .positive).getD 60
  if fps ≤ 0 then throw (.message "fps must be positive")
  let rate := (← Headless.integer? reading "--hz" .positive).getD Machine.instructionRate
  if rate ≤ 0 then throw (.message "hz must be positive")
  match resolveRom reading.operand environment with
  | none => throw (.message s!"no ROM given; pass a path or set {romVariable}")
  | some rom =>
    let seed ← Headless.integer? reading "--seed" .seed
    return {
      rom, scale, fps, rate, seed
      sound := reading.lastOf ["--audio", "--no-audio"] ≠ some "--no-audio"
      verbose := reading.has "--verbose" }

/-- How a run ends, with what was noticed. -/
structure Outcome where
  exit : Exit
  journal : List Entry := []

/-- What the log shows, from a severity on, together with the calls. -/
def visible (least : Severity) (journal : Array Entry) : List Entry :=
  journal.toList.filter fun
    | .notice n => least.rank ≤ n.severity.rank
    | .call _ => true
    | .mark _ => false

/-- Carry out a request. What goes wrong in the console and the toolkit is how the command ends. -/
def perform (refuse : World → Call → Option Failure) (request : Request) (world : World)
    (fs : List Frame) (unseeded : RandomSource) : Except Failure Outcome := do
  let random := (request.seed.map RandomSource.ofSeed).getD unseeded
  let m ← Machine.create world random (.integer request.rate) (.integer Machine.timerRate)
    request.sound
  let body : MachineM Unit := do
    let _ ← Host.onPlant (Console.loadFile (Path.ofString request.rom))
    session refuse request.scale request.fps fs
  let ending (exit : Exit) (m : Machine) : Outcome :=
    { exit, journal := visible (if request.verbose then .debug else .info) m.world.journal }
  match body m with
  | .ok _ m => return ending .normal m
  | .error cause m =>
    if cause.isOperational then return ending (.message cause.message) m else throw cause

/-- From the command line to how it ends. -/
def invoke (args : List String) (environment : Option String) (world : World) (fs : List Frame)
    (unseeded : RandomSource) : Except Failure Outcome :=
  match (Request.ofArguments args environment).run with
  | .error cause => .error cause
  | .ok (.error exit) => .ok { exit }
  | .ok (.ok request) => perform World.refusal request world fs unseeded

end Chip8.Window
