import Chip8.World

/-!
# The beeper

Counts beeps and plays each as a square wave if sound is enabled. The mixer is started and the sound
prepared at the first beep that needs them; if any of that fails, sound is disabled and nothing
further is tried until it is enabled again. A beep itself never fails.

## Main definitions

* `Beeper`: settings, count of beeps, and the sound once it is prepared
* `Beeper.prepare`: start the mixer and prepare the sound
* `Beeper.beep`: one beep
-/

namespace Chip8

/-- A sound prepared by a toolkit. It keeps to the toolkit that prepared it, also after that toolkit
was replaced by another. -/
structure Sound where
  /-- Whether playing it fails. -/
  mute : Bool
  deriving DecidableEq, Repr

/-- The beeper. -/
structure Beeper where
  /-- Beeps since the last reset. -/
  beeps : Nat := 0
  sampleRate : Number := .integer 44100
  frequency : Number := .real ⟨0x407B800000000000⟩
  duration : Number := .real ⟨0x3FB999999999999A⟩
  volume : Number := .real ⟨0x3FD3333333333333⟩
  enabled : Bool := false
  /-- Whether the mixer was started and the sound prepared. -/
  initialized : Bool := false
  sound : Option Sound := none
  deriving DecidableEq, Repr

namespace Beeper

/-- The beeper with its beeps forgotten. -/
def reset (b : Beeper) : Beeper := { b with beeps := 0 }

/-- The samples of the beeper's tone. -/
def tone (b : Beeper) : Except Failure (List Int) :=
  (Tone.render b.sampleRate b.frequency b.duration b.volume).mapError .tone

/-- Start the mixer, unless it runs already. -/
def startMixer (b : Beeper) (w : World) : Except Failure World :=
  match w.toolkit with
  | none => .error .toolkitMissing
  | some t =>
    if t.mixerReady then .ok w
    else do
      let w ← w.call (.mixerInit b.sampleRate)
      return { w with toolkit := some { t with mixerReady := true } }

/-- Have the toolkit prepare the sound. -/
def prepareSound (b : Beeper) (w : World) : Except Failure (Sound × World) := do
  let samples ← b.tone
  let w ← w.call (.mixerSound samples)
  return (⟨(w.toolkit.map (·.refuses .play)).getD true⟩, w)

/-- The beeper and the world after sound turned out to be unavailable. -/
def giveUp (b : Beeper) (w : World) (cause : Failure) : Beeper × World :=
  ({ b with enabled := false, initialized := false, sound := none },
    w.record (.notice (.soundDisabled cause)))

/-- See to it that there is a sound to play, if sound is enabled at all. -/
def prepare (b : Beeper) (w : World) : Beeper × World :=
  if !b.enabled || b.initialized then (b, w)
  else match b.startMixer w with
    | .error cause => b.giveUp w cause
    | .ok w =>
      match b.prepareSound w with
      | .error cause => b.giveUp w cause
      | .ok (sound, w) => ({ b with initialized := true, sound := some sound }, w)

/-- Whether a beep now would play the sound. -/
def ready (b : Beeper) : Bool := b.enabled && b.initialized

/-- Have the sound played. -/
def playSound (b : Beeper) (w : World) : Except Failure World :=
  match b.sound with
  | none => .error .soundMissing
  | some sound => if sound.mute then .error (.callFailed Call.play.name)
    else .ok (w.record (.call .play))

/-- The world after the sound is played, or after it failed to. -/
def play (b : Beeper) (w : World) : World :=
  match b.playSound w with
  | .ok w => w
  | .error cause => w.record (.notice (.playbackFailed cause))

/-- One beep. -/
def beep (b : Beeper) (w : World) : Beeper × World :=
  let (b, w) := prepare { b with beeps := b.beeps + 1 } w
  if b.ready then (b, b.play w) else (b, w)

end Beeper

end Chip8
