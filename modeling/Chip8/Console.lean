import Chip8.Beeper
import Chip8.Host.Script
import Chip8.KeyMap
import Chip8.Report

/-!
# The console

The board with its beeper and the program in it, as the plant of a host. The sound timer's running
out is the beep that the host tells its listeners of.

## Main definitions

* `Console`: board, beeper and program
* `Console.Operation`: what the console can be told besides what its host can
* `Machine`: a host with a console
-/

namespace Chip8

/-- The console. -/
structure Console where
  board : Board
  beeper : Beeper := {}
  program : Option Program := none

/-- One part of a board to be set to a given value. -/
inductive Setting where
  | v (x : Int) (value : Byte)
  | index (value : Int)
  | pc (value : Int)
  | sp (value : Int)
  | stack (slot : Int) (value : Int)
  | awaitingKey (value : Bool)
  | keyRegister (value : Int)
  | delay (value : Byte)
  | sound (value : Byte)

namespace Setting

/-- The board with one part set. -/
def apply (b : Board) : Setting → Except PlaceError Board
  | v x value => return b.withRegisters (b.registers.setV (← place 4 x) value)
  | index value => return b.withRegisters { b.registers with index := value }
  | pc value => return b.withRegisters { b.registers with pc := value }
  | sp value => return b.withRegisters { b.registers with sp := value }
  | stack slot value =>
    return b.withRegisters
      { b.registers with stack := b.registers.stack.set (← place 4 slot) value }
  | awaitingKey value => return { b with keyWait := { b.keyWait with pending := value } }
  | keyRegister value => return { b with keyWait := { b.keyWait with register := value } }
  | delay value => return { b with timers := { b.timers with delay := value } }
  | sound value => return { b with timers := { b.timers with sound := value } }

end Setting

namespace Console

/-- What a console can be told. -/
inductive Operation where
  /-- One instruction that is not counted. -/
  | step
  /-- Instructions, answering the program counter after each. -/
  | trace (count : Nat)
  /-- Back to power-up, with the program unloaded. -/
  | wipe
  | resetProcessor
  | load (image : List Byte)
  | loadFile (path : String)
  | program
  | poke (address : Address) (bytes : List Byte)
  | assign (settings : List Setting)
  | keyDown (key : Int)
  | keyUp (key : Int)
  /-- A key of the host, answering whether it stands for one of the keypad. -/
  | hostKey (code : Int) (down : Bool)
  | pixel (x y : Int)
  | isDirty
  | setDirty (dirty : Bool)
  | registers
  | screenText
  | dump (ranges : List (Int × Int))
  | colours

/-- The console as it is switched on, with a source of random bytes. -/
def powerUp (random : RandomSource) (soundEnabled : Bool) : Console where
  board := { random, screen := Screen.clear {} }
  beeper := { enabled := soundEnabled }

/-- Registers, screen, keypad, timers and beep count as they are at power-up. Memory and program
stay. -/
def reset (c : Console) : Console :=
  { c with
    board :=
      { c.board.resetProcessor with
        screen := c.board.screen.clear
        keypad := .released
        timers := {} }
    beeper := c.beeper.reset }

/-- Everything as it is at power-up, with the program unloaded. -/
def wipe (c : Console) : Console :=
  let c := c.reset
  { c with board := { c.board with memory := .powerUp }, program := none }

/-- The console with new memory and a program. -/
def loadImage (c : Console) (path : Option Path) (image : List Byte) :
    Except Rom.LoadError (Program × Console) := do
  let memory ← (c.board.memory.load image).mapError .tooLarge
  let program : Program := { name := Rom.name path, size := image.length, path }
  return (program, { c with board := { c.board with memory }, program := some program })

/-- Load an image, and note it in the log. -/
def load (path : Option Path) (image : List Byte) : PlantM Console Program := do
  let (c, w) ← get
  match c.loadImage path image with
  | .error e => throw (.load e)
  | .ok (program, c) =>
    set (c, w.record (.notice (.loaded program.name program.size)))
    return program

/-- Load the image in a file. -/
def loadFile (path : Path) : PlantM Console Program := do
  match Rom.read (← get).2.files path with
  | .error e => throw (.load e)
  | .ok image => load (some path) image

/-- One step of the processor, counted or not. -/
def advance (move : Board → Execution) : PlantM Console Unit := fun (c, w) =>
  match move c.board with
  | .ok remark board => .ok () ({ c with board }, w.note (remark.map .remark))
  | .error fault board => .error (.fault fault) ({ c with board }, w)

/-- One counted instruction. -/
def cycle : PlantM Console Unit := advance Board.cycle

/-- One tick of the timers, telling whether the sound timer ran out. If it did, the beeper beeps. -/
def updateTimers (clock : Nat) : PlantM Console Bool := modifyGet fun (c, w) =>
  let expiring := c.board.timers.expiring
  let c := { c with board := { c.board with timers := c.board.timers.tick } }
  if expiring then
    let (beeper, w) := c.beeper.beep (w.record (.notice (.beep clock)))
    (true, ({ c with beeper }, w))
  else (false, (c, w))

/-- Change the board. -/
def onBoard (f : Board → Board) : PlantM Console Unit :=
  modify fun (c, w) => ({ c with board := f c.board }, w)

/-- The key of a number, if there is one. -/
def checkKey (key : Int) : PlantM Console Nibble :=
  match keyOfInt key with
  | some k => pure k
  | none => throw (.keyOutOfRange key)

/-- Press a key, or let it go. -/
def setKey (down : Bool) (key : Nibble) : PlantM Console Unit :=
  onBoard fun b => { b with keypad := if down then b.keypad.press key else b.keypad.release key }

/-- Pass a key of the host on to the keypad, telling whether it stands for a key there. -/
def hostKey (code : Int) (down : Bool) : PlantM Console Bool := do
  match keypadKey? code with
  | none => return false
  | some key =>
    setKey down key
    return true

/-- The program counter after each of a number of instructions. -/
def trace : Nat → PlantM Console (List Int)
  | 0 => return []
  | n + 1 => do
    cycle
    let pc := (← get).1.board.registers.pc
    return pc :: (← trace n)

/-- Set one part of the board. -/
def assign (s : Setting) : PlantM Console Unit := do
  match s.apply (← get).1.board with
  | .ok board => onBoard fun _ => board
  | .error cause => throw (.misplaced ⟨.writing, cause⟩)

/-- Carry out an operation. -/
def operate : Operation → PlantM Console Reply
  | .step => do
    advance Board.step
    return .nothing
  | .trace count => return .integers (← trace count)
  | .wipe => do
    modify fun (c, w) => (c.wipe, w)
    return .nothing
  | .resetProcessor => do
    onBoard Board.resetProcessor
    return .nothing
  | .load image => return .program (some (← load none image))
  | .loadFile path => return .program (some (← loadFile (Path.ofString path)))
  | .program => return .program (← get).1.program
  | .poke address bytes => do
    onBoard fun b => { b with memory := b.memory.writeAll address bytes }
    return .nothing
  | .assign settings => do
    settings.forM assign
    return .nothing
  | .keyDown key => do
    setKey true (← checkKey key)
    return .nothing
  | .keyUp key => do
    setKey false (← checkKey key)
    return .nothing
  | .hostKey code down => return .boolean (← hostKey code down)
  | .pixel x y => do
    match (← get).1.board.screen.pixel x y with
    | .ok lit => return .integer (if lit then 1 else 0)
    | .error cause => throw (.misplaced ⟨.pixels, cause⟩)
  | .isDirty => return .boolean (← get).1.board.screen.dirty
  | .setDirty dirty => do
    onBoard fun b => { b with screen := { b.screen with dirty } }
    return .nothing
  | .registers => return .text (Report.registers (← get).1.board)
  | .screenText => return .text (← get).1.board.screen.text
  | .dump ranges => return .text (Report.dumpText (← get).1.board.memory ranges)
  | .colours => return .picture (← get).1.board.screen.colours

instance : Plant Console Operation where
  cycle := do
    cycle
    return []
  updateTimers clock := return { beeped := ← updateTimers clock }
  reset := modify fun (c, w) => (c.reset, w)
  operate := operate

end Console

/-- A host with a console. -/
abbrev Machine := Host Console Console.Operation

/-- An operation of a machine. -/
abbrev MachineM (α : Type) := HostM Console Console.Operation α

namespace Machine

/-- Instructions in a second, unless told otherwise. -/
def instructionRate : Int := 500

/-- Timer ticks in a second, unless told otherwise. -/
def timerRate : Int := 60

/-- The most cycles that are made up for at once, unless told otherwise. -/
def maxCatchUp : Int := 5000

/-- A new machine. -/
def create (world : World) (random : RandomSource) (frequency timerFrequency : Number)
    (soundEnabled : Bool) : Except Failure Machine :=
  Host.create (Console.powerUp random soundEnabled) world frequency timerFrequency maxCatchUp

end Machine

end Chip8
