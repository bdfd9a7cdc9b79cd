import Chip8.Proofs.Dispatching
import Chip8.Proofs.MachineInvariant
import Chip8.Proofs.Runs

/-!
# What a console does to the world

A console writes records for the log into the journal of its world, and calls the mixer of the
toolkit when it beeps. It sets no clock, and leaves no marks. So what holds of a world and is kept
by records, by calls to the mixer and when that starts is kept by everything that a console does. A
beep by itself does less: it notes nothing but that sound is not to be had.

## Main definitions

* `World.Audible`: what holds of a world is kept by sound, and by its failing
* `World.Lasting`: what holds of a world is kept by records too

## Main statements

* `World.Audible.beep`: a beep keeps what sound keeps
* `World.Lasting.operate`: an operation of the console keeps what lasts
* `World.Lasting.quiet`, `World.Lasting.upholds`: so does a console that runs, whatever it is told
* `Machine.create_eq`: a new machine, part by part
* `Machine.upheld_after`: its timer ticks stay apart, and it keeps no scripts but those it was given
-/

namespace Chip8

/-- The call is one to the mixer. -/
def Call.OfMixer : Call → Prop
  | .mixerInit _ | .mixerSound _ | .play => True
  | _ => False

namespace World

/-- What holds of a world is kept by calls to the mixer, by what becomes of the toolkit, and by
records that there is no sound. -/
structure Audible (L : World → Prop) : Prop where
  soundDisabled : ∀ w cause, L w → L (w.record (.notice (.soundDisabled cause)))
  playbackFailed : ∀ w cause, L w → L (w.record (.notice (.playbackFailed cause)))
  call : ∀ w c, c.OfMixer → L w → L (w.record (.call c))
  equip : ∀ w toolkit, L w → L { w with toolkit }

/-- What holds of a world is kept by records for the log, by calls to the mixer, and by what becomes
of the toolkit. -/
structure Lasting (L : World → Prop) : Prop where
  notice : ∀ w n, L w → L (w.record (.notice n))
  call : ∀ w c, c.OfMixer → L w → L (w.record (.call c))
  equip : ∀ w toolkit, L w → L { w with toolkit }

variable {L : World → Prop} {w w' : World}

/-! ## Beeps -/

namespace Audible

section

variable (hL : Audible L)

include hL

theorem of_call (hw : L w) {c : Call} (hcall : w.call c = .ok w') (hmixer : c.OfMixer) : L w' := by
  rw [World.call] at hcall
  split at hcall
  · cases hcall
    exact hL.call w c hmixer hw
  · cases hcall

theorem of_startMixer (hw : L w) {b : Beeper} (hstart : b.startMixer w = .ok w') : L w' := by
  rw [Beeper.startMixer] at hstart
  split at hstart
  · cases hstart
  next t _ =>
    split at hstart
    · cases hstart
      exact hw
    · cases hcall : w.call (.mixerInit b.sampleRate) with
      | error e =>
        rw [hcall] at hstart
        cases hstart
      | ok v =>
        rw [hcall] at hstart
        cases hstart
        exact hL.equip v _ (hL.of_call hw hcall trivial)

theorem of_prepareSound (hw : L w) {b : Beeper} {sound : Sound}
    (hprepare : b.prepareSound w = .ok (sound, w')) :
    L w' := by
  rw [Beeper.prepareSound] at hprepare
  cases htone : b.tone with
  | error e =>
    rw [htone] at hprepare
    cases hprepare
  | ok samples =>
    rw [htone] at hprepare
    cases hcall : w.call (.mixerSound samples) with
    | error e =>
      simp only [bind, Except.bind, hcall] at hprepare
      cases hprepare
    | ok v =>
      simp only [bind, Except.bind, hcall] at hprepare
      cases hprepare
      exact hL.of_call hw hcall trivial

theorem prepare (hw : L w) (b : Beeper) : L (b.prepare w).2 := by
  rw [Beeper.prepare]
  split
  · exact hw
  cases hstart : b.startMixer w with
  | error cause => exact hL.soundDisabled w _ hw
  | ok v =>
    have hv := hL.of_startMixer hw hstart
    cases hprepare : b.prepareSound v with
    | error cause =>
      simp only [hprepare]
      exact hL.soundDisabled v _ hv
    | ok prepared =>
      obtain ⟨sound, u⟩ := prepared
      simp only [hprepare]
      exact hL.of_prepareSound hv hprepare

theorem play (hw : L w) (b : Beeper) : L (b.play w) := by
  rw [Beeper.play, Beeper.playSound]
  cases b.sound with
  | none => exact hL.playbackFailed w _ hw
  | some sound =>
    cases hmute : sound.mute with
    | true =>
      simp only [hmute, if_true]
      exact hL.playbackFailed w _ hw
    | false =>
      simp only [hmute, Bool.false_eq_true, if_false]
      exact hL.call w _ trivial hw

/-- A beep keeps what sound keeps, whether or not there is a sound to be heard. -/
theorem beep (hw : L w) (b : Beeper) : L (b.beep w).2 := by
  have hprepared := hL.prepare hw { b with beeps := b.beeps + 1 }
  simp only [Beeper.beep]
  split
  next => exact hL.play hprepared _
  next => exact hprepared

end

end Audible

namespace Lasting

theorem audible (hL : Lasting L) : Audible L where
  soundDisabled w _ hw := hL.notice w _ hw
  playbackFailed w _ hw := hL.notice w _ hw
  call := hL.call
  equip := hL.equip

section

variable (hL : Lasting L)

include hL

theorem note (hw : L w) (n : Option Notice) : L (w.note n) := by
  cases n with
  | none => exact hw
  | some n => exact hL.notice w n hw

/-! ## The console -/

open Console (Operation)

theorem advance (move : Board → Execution) : Keeps (fun s => L s.2) (Console.advance move) := by
  rintro ⟨c, w⟩ hw
  simp only [Console.advance]
  cases move c.board with
  | ok remark board => exact hL.note hw _
  | error fault board => exact hw

theorem updateTimers (clock : Nat) : Keeps (fun s => L s.2) (Console.updateTimers clock) := by
  rintro ⟨c, w⟩ hw
  rw [Console.updateTimers_eq]
  by_cases hexpiring : c.board.timers.expiring = true
  · rw [if_pos hexpiring]
    exact hL.audible.beep (hL.notice w _ hw) _
  · rw [if_neg hexpiring]
    exact hw

omit hL in
theorem onBoard (f : Board → Board) : Keeps (fun s => L s.2) (Console.onBoard f) :=
  .modify fun _ hs => hs

theorem load (path : Option Path) (image : List Byte) :
    Keeps (fun s => L s.2) (Console.load path image) := by
  refine .get_bind ?_
  rintro ⟨c, w⟩ hw
  cases hload : c.loadImage path image with
  | error e => simpa only [hload] using .throw _
  | ok loaded =>
    simp only [hload]
    exact Keeps.bind (.set (hL.notice w _ hw)) fun _ => .pure _

theorem loadFile (path : Path) : Keeps (fun s => L s.2) (Console.loadFile path) := by
  refine .get_bind fun s _ => ?_
  cases Rom.read s.2.files path with
  | error e => exact .throw _
  | ok image => exact hL.load _ _

omit hL in
theorem checkKey (key : Int) : Keeps (fun s => L s.2) (Console.checkKey key) := by
  rw [Console.checkKey]
  cases keyOfInt key with
  | none => exact .throw _
  | some k => exact .pure _

omit hL in
theorem hostKey (code : Int) (down : Bool) :
    Keeps (fun s => L s.2) (Console.hostKey code down) := by
  rw [Console.hostKey]
  cases keypadKey? code with
  | none => exact .pure _
  | some key => exact (onBoard _).bind fun _ => .pure _

theorem trace (n : Nat) : Keeps (fun s => L s.2) (Console.trace n) := by
  induction n with
  | zero => exact .pure _
  | succ n ih =>
    refine (hL.advance Board.cycle).bind fun _ => ?_
    refine .get_bind fun s _ => ?_
    exact ih.bind fun _ => .pure _

omit hL in
theorem assign (setting : Setting) : Keeps (fun s => L s.2) (Console.assign setting) := by
  refine .get_bind fun s _ => ?_
  cases setting.apply s.1.board with
  | ok board => exact onBoard _
  | error cause => exact .throw _

/-- An operation of the console keeps what lasts, whether or not it fails. -/
theorem operate (op : Operation) : Keeps (fun s => L s.2) (Console.operate op) := by
  have silently {m : PlantM Console Unit} (hm : Keeps (fun s => L s.2) m) :
      Keeps (fun s => L s.2) (m >>= fun _ => pure Reply.nothing) := hm.bind fun _ => .pure _
  cases op with
  | step => exact silently (hL.advance Board.step)
  | trace count => exact (hL.trace count).bind fun _ => .pure _
  | wipe => exact silently (.modify fun _ hs => hs)
  | resetProcessor => exact silently (onBoard _)
  | load image => exact (hL.load none image).bind fun _ => .pure _
  | loadFile path => exact (hL.loadFile _).bind fun _ => .pure _
  | poke address bytes => exact silently (onBoard _)
  | assign settings => exact silently (.forM fun setting _ => assign setting)
  | keyDown key => exact (checkKey key).bind fun k => silently (onBoard _)
  | keyUp key => exact (checkKey key).bind fun k => silently (onBoard _)
  | hostKey code down => exact (hostKey code down).bind fun _ => .pure _
  | pixel x y =>
    refine .get_bind fun s _ => ?_
    cases s.1.board.screen.pixel x y with
    | ok lit => exact .pure _
    | error cause => exact .throw _
  | setDirty dirty => exact silently (onBoard _)
  | program | isDirty | registers | screenText | dump | colours =>
    exact .get_bind fun _ _ => .pure _

/-- A console that runs keeps what lasts, if marks of listeners do. -/
theorem quiet (htell : ∀ w name clock, L w → L (w.record (.mark (.listener name clock)))) :
    Plant.Quiet (fun s : Console × World => L s.2) where
  cycle := by
    have hpure : Hoare (fun s : Console × World => L s.2)
        (pure [] : PlantM Console (Script Operation))
        (fun script s => L s.2 ∧ script = []) (fun _ s => L s.2) := fun _ hs => ⟨hs, rfl⟩
    exact Hoare.bind (hL.advance Board.cycle) fun _ => hpure
  updateTimers clock := by
    intro s hs
    exact ⟨(hL.updateTimers clock).finalState hs, rfl⟩
  tell s name clock hs := htell s.2 name clock hs

/-- What lasts in the world of a console is an invariant, if marks and the time do not matter to
it. -/
theorem upholds (hmark : ∀ w m, L w → L (w.record (.mark m)))
    (hpass : ∀ w nanoseconds, L w → L (w.pass nanoseconds)) (p : Operation → Prop) :
    Plant.Upholds (fun s : Console × World => L s.2) p where
  cycle := by
    refine (hL.quiet fun w name clock => hmark w _).cycle.consequence (fun _ hs => hs) ?_
      fun _ _ hs => hs
    rintro _ s ⟨hs, rfl⟩
    exact ⟨hs, trivial⟩
  updateTimers clock := by
    intro s hs
    exact ⟨(hL.updateTimers clock).finalState hs, trivial⟩
  reset := .modify fun _ hs => hs
  operate op _ := hL.operate op
  mark s m hs := hmark s.2 m hs
  pass s nanoseconds hs := hpass s.2 nanoseconds hs

end

end Lasting

end World

/-! ## New machines -/

namespace Machine

open Console (Operation)

variable {world : World} {random : RandomSource} {frequency timerFrequency : Number}
  {soundEnabled : Bool} {m : Machine}

/-- A new machine, with a memory that can be looked into. -/
theorem create_eq (world : World) (random : RandomSource) {f t : Int} (hf : 0 < f) (ht : 0 < t)
    (soundEnabled : Bool) :
    create world random (.integer f) (.integer t) soundEnabled = .ok {
      plant := {
        board := {
          random,
          memory := Memory.writeAll ⟨Bank.fill 0⟩ 0 Memory.font,
          screen := Screen.clear {} }
        beeper := { enabled := soundEnabled } }
      world
      frequency := .integer f
      timerFrequency := .integer t
      maxCatchUp
      anchor := world.now
      interval := max 1 (f / t).toNat } := by
  rw [create, Host.create_eq _ _ hf ht, Console.powerUp, Memory.powerUp_eq]

theorem upholds_true (p : Operation → Prop) : Plant.Upholds (fun _ : Console × World => True) p :=
  World.Lasting.upholds (L := fun _ => True)
    ⟨fun _ _ _ => trivial, fun _ _ _ _ => trivial, fun _ _ _ => trivial⟩ (fun _ _ _ => trivial)
    (fun _ _ _ => trivial) p

/-- Whatever a new machine is told, its timer ticks are apart, and it keeps no scripts of another
kind than those it was given. -/
theorem upheld_after (hcreate : create world random frequency timerFrequency soundEnabled = .ok m)
    {p : Operation → Prop} {commands : List (Command Operation)}
    (hcommands : Script.Every p commands) :
    Host.Upheld (fun _ => True) p (m.after commands) :=
  Host.upheld_runAll (upholds_true p) hcommands (Host.upheld_create trivial hcreate)

theorem one_le_interval_after
    (hcreate : create world random frequency timerFrequency soundEnabled = .ok m)
    (commands : List (Command Operation)) : 1 ≤ (m.after commands).interval :=
  (upheld_after hcreate
    (Script.every_of_forall (p := fun _ => True) (fun _ => trivial) commands)).interval

end Machine

end Chip8
