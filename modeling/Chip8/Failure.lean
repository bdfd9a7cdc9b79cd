import Chip8.Board
import Chip8.HexRange
import Chip8.Rom
import Chip8.Tone

/-!
# Failures

All the reasons for which an operation of the library can fail, and what is said about each.

## Main definitions

* `Failure`: why an operation fails
* `Failure.message`: what is said about it
* `Failure.isOperational`: whether it is one of running, and not of what was asked
-/

namespace Chip8

/-- What a value is needed for. -/
inductive Need where
  /-- To be found at least zero. -/
  | nonnegative
  /-- To be found more than zero. -/
  | positive
  /-- To be read as a range. -/
  | range
  /-- To seed a source of random bytes. -/
  | seed
  deriving DecidableEq, Repr

/-- What is said about a value that is not there. -/
def Need.message : Need → String
  | nonnegative => "'<' not supported between instances of 'list' and 'int'"
  | positive => "'<=' not supported between instances of 'list' and 'int'"
  | range => "'list' object has no attribute 'partition'"
  | seed => "The only supported seed types are: None,\nint, float, str, bytes, and bytearray."

/-- Why an operation fails. -/
inductive Failure where
  /-- A calculation has no result. -/
  | arithmetic (cause : ArithmeticError)
  /-- A tone cannot be rendered. -/
  | tone (cause : Tone.Error)
  /-- The processor cannot carry out an instruction. -/
  | fault (cause : Fault)
  /-- A program cannot be loaded. -/
  | load (cause : Rom.LoadError)
  /-- A text is not an address. -/
  | address (cause : AddressError)
  /-- A text is not a range of addresses. -/
  | range (cause : RangeError)
  /-- A clock needs a positive frequency. -/
  | frequencyNotPositive
  /-- No key has this number. -/
  | keyOutOfRange (key : Int)
  /-- A number that names no pixel or no register. -/
  | misplaced (cause : Misplaced)
  /-- A surface needs a positive scale. -/
  | scaleNotPositive
  /-- A listener to be removed is not registered. -/
  | unknownListener
  /-- There is no multimedia toolkit. -/
  | toolkitMissing
  /-- A surface cannot be painted without the toolkit. -/
  | toolkitRequired
  /-- There is no sound to play. -/
  | soundMissing
  /-- A call to the toolkit failed. -/
  | callFailed (call : String)
  /-- A script asked for a failure. -/
  | raised (text : String)
  /-- Scripts ran one inside another without end. -/
  | nestedTooDeep
  /-- A value that is needed was given as nothing. -/
  | valueMissing (need : Need)
  deriving DecidableEq, Repr

/-- What is said about a fault. -/
def Fault.message : Fault → String
  | stackEmpty pc => "return with empty stack at 0x" ++ String.ofList (Text.hexUpperSigned 3 pc)
  | stackFull pc =>
    s!"call depth exceeds {Registers.stackDepth} at 0x" ++ String.ofList (Text.hexUpperSigned 3 pc)
  | misplaced cause => cause.message

namespace Failure

/-- What is said about a failure. -/
def message : Failure → String
  | arithmetic cause => cause.message
  | tone cause => cause.message
  | fault cause => cause.message
  | load cause => cause.message
  | address cause => cause.message
  | range cause => cause.message
  | frequencyNotPositive => "frequency must be positive"
  | keyOutOfRange key => s!"key code out of range: {key}"
  | misplaced cause => cause.message
  | scaleNotPositive => "scaling factor must be positive"
  | unknownListener => "list.remove(x): x not in list"
  | toolkitMissing => "No module named 'pygame'"
  | toolkitRequired => "pygame is required for render_pygame_surface"
  | soundMissing => "'NoneType' object has no attribute 'play'"
  | callFailed call => s!"{call} failed"
  | raised text => text
  | nestedTooDeep => "maximum recursion depth exceeded"
  | valueMissing need => need.message

/-- Whether a failure is one of running the console or its surroundings, and not of what it was
asked. -/
def isOperational : Failure → Bool
  | fault cause => cause.isStackFault
  | load (.unreadable _ _) => true
  | load (.tooLarge _) => true
  | toolkitRequired => true
  | callFailed _ => true
  | raised _ => true
  | nestedTooDeep => true
  | _ => false

end Failure

end Chip8
