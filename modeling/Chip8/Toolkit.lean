import Chip8.Failure
import Chip8.Number
import Chip8.Screen.Picture

/-!
# The multimedia toolkit

Windows and sound are the business of a toolkit outside the console. What the console sees of it is
a list of calls, each of which succeeds or fails, and whether the mixer is ready. What the toolkit
sees of the console is the calls in their order.

## Main definitions

* `Call`: a call, with what is passed
* `Toolkit`: which calls fail, and whether the mixer is ready
* `Screen.paint`: the picture as a surface of the toolkit
-/

namespace Chip8

/-- A call to the toolkit. -/
inductive Call where
  | init
  | setMode (width height : Int)
  | setCaption (text : String)
  /-- Copy a surface to the upper left corner of the window. -/
  | blit (surface : Surface)
  /-- Bring the window up to date. -/
  | flip
  /-- Wait until the next frame is due. -/
  | clockTick (fps : Int)
  | quit
  /-- Start the mixer. -/
  | mixerInit (sampleRate : Number)
  /-- Prepare a sound. -/
  | mixerSound (samples : List Int)
  /-- Play the sound prepared. -/
  | play
  deriving DecidableEq, Repr

/-- The name of a call. -/
def Call.name : Call → String
  | init => "init"
  | setMode _ _ => "set_mode"
  | setCaption _ => "set_caption"
  | blit _ => "blit"
  | flip => "flip"
  | clockTick _ => "clock.tick"
  | quit => "quit"
  | mixerInit _ => "mixer.init"
  | mixerSound _ => "mixer.Sound"
  | play => "play"

/-- The toolkit as the console finds it. -/
structure Toolkit where
  /-- The names of the calls that fail. -/
  failing : List String := []
  /-- Whether the mixer runs. -/
  mixerReady : Bool := false
  deriving DecidableEq, Repr

/-- Whether a call fails. -/
def Toolkit.refuses (t : Toolkit) (c : Call) : Bool := t.failing.contains c.name

/-- The picture painted at a positive scale. Painting takes a toolkit. -/
def Screen.paint (s : Screen) (toolkit : Option Toolkit) (scale : Int) : Except Failure Surface :=
  if scale ≤ 0 then .error .scaleNotPositive
  else match toolkit with
    | none => .error .toolkitRequired
    | some _ => .ok (s.surface scale)

end Chip8
