import Chip8.Console
import Chip8.Proofs.HostInvariant
import Chip8.Proofs.Pacing
import Chip8.Proofs.WellFormed

/-!
# Invariants of a machine

A machine keeps its board well-formed, whatever it is told and whatever its program does, as long as
nobody sets registers by hand. That includes everything that ends in a failure.

## Main definitions

* `Console.Operation.Ordinary`: the operation does not set registers by hand
* `Console.Steady`, `Console.Invariant`: what an invariant of a console has to come with
* `Machine.Sound`: a machine with a well-formed board
* `Machine.after`: a machine after some commands

## Main statements

* `Console.Steady.keeps_operate`: operations keep an invariant
* `Console.plantKeeps`: ordinary operations keep the board well-formed
* `Machine.sound_create`, `Machine.sound_after`: a machine is sound when it is new, and after any
  commands
* `Machine.bounds_after`: no number of the machine ever leaves its width
-/

namespace Chip8

namespace Console

/-- The operation does not set registers by hand. -/
def Operation.Ordinary : Operation → Prop
  | .assign _ => False
  | _ => True

/-- A console operation keeps an invariant of the console, in whatever world. -/
abbrev KeepsConsole (J : Console → Prop) {α : Type} (m : PlantM Console α) : Prop :=
  Keeps (fun s => J s.1) m

/-- The invariant asks nothing of the cycle count, the memory, the keypad, the timers and the
program. Steps of the processor keep it, and so does whatever else changes the rest, but for setting
the dirty flag by hand. -/
structure Steady (J : Console → Prop) : Prop where
  aside : ∀ c cycles memory keypad timers program, J c →
    J { c with board := { c.board with cycles, memory, keypad, timers }, program }
  step : ∀ c, J c → J { c with board := finalState c.board.step }
  resetProcessor : ∀ c, J c → J { c with board := c.board.resetProcessor }
  clear : ∀ c, J c → J { c with board := { c.board with screen := c.board.screen.clear } }
  beep : ∀ c w, J c → J { c with beeper := (c.beeper.beep w).1 }
  forget : ∀ c, J c → J { c with beeper := c.beeper.reset }

/-- The invariant asks nothing of the dirty flag either. -/
structure Invariant (J : Console → Prop) : Prop extends Steady J where
  setDirty : ∀ c dirty, J c →
    J { c with board := { c.board with screen := { c.board.screen with dirty } } }

variable {α : Type} {J : Console → Prop}

theorem keeps_advance {move : Board → Execution}
    (hmove : ∀ c, J c → J { c with board := finalState (move c.board) }) :
    KeepsConsole J (advance move) := by
  rintro ⟨c, w⟩ hc
  have hend := hmove c hc
  simp only [advance]
  cases hboard : move c.board with
  | ok remark board => rwa [hboard] at hend
  | error fault board => rwa [hboard] at hend

/-- A timer tick counts the timers down and tells whether the sound timer ran out. If it did, the
beeper beeps. -/
theorem updateTimers_eq (clock : Nat) (c : Console) (w : World) :
    updateTimers clock (c, w) =
      .ok c.board.timers.expiring
        (if c.board.timers.expiring = true then
          ({ c with
            board := { c.board with timers := c.board.timers.tick }
            beeper := (c.beeper.beep (w.record (.notice (.beep clock)))).1 },
            (c.beeper.beep (w.record (.notice (.beep clock)))).2)
        else ({ c with board := { c.board with timers := c.board.timers.tick } }, w)) := by
  simp only [updateTimers, run_modifyGet]
  cases c.board.timers.expiring with
  | true => rfl
  | false => rfl

theorem loadImage_eq_ok {c d : Console} {path : Option Path} {image : List Byte} {program : Program}
    (h : c.loadImage path image = .ok (program, d)) :
    ∃ memory, c.board.memory.load image = .ok memory ∧
      d = { c with board := { c.board with memory }, program := some program } := by
  cases hmemory : c.board.memory.load image with
  | error e =>
    simp only [loadImage, hmemory] at h
    cases h
  | ok memory =>
    simp only [loadImage, hmemory] at h
    cases h
    exact ⟨memory, rfl, rfl⟩

theorem keeps_checkKey (key : Int) : KeepsConsole J (checkKey key) := by
  rw [checkKey]
  cases keyOfInt key with
  | none => exact .throw _
  | some k => exact .pure _

namespace Steady

variable (hJ : Steady J)

include hJ

theorem keeps_step : KeepsConsole J (advance Board.step) := keeps_advance hJ.step

theorem keeps_cycle : KeepsConsole J cycle := by
  refine keeps_advance fun c hc => ?_
  have hstep := hJ.step c hc
  rw [Board.cycle]
  cases hboard : c.board.step with
  | ok remark board =>
    rw [hboard] at hstep
    exact hJ.aside { c with board } (board.cycles + 1) board.memory board.keypad board.timers
      c.program hstep
  | error fault board => rwa [hboard] at hstep

theorem keeps_updateTimers (clock : Nat) : KeepsConsole J (updateTimers clock) := by
  rintro ⟨c, w⟩ hc
  have hticked : J { c with board := { c.board with timers := c.board.timers.tick } } :=
    hJ.aside c c.board.cycles c.board.memory c.board.keypad c.board.timers.tick c.program hc
  rw [updateTimers_eq]
  by_cases hexpiring : c.board.timers.expiring = true
  · rw [if_pos hexpiring]
    exact hJ.beep _ _ hticked
  · rw [if_neg hexpiring]
    exact hticked

theorem reset {c : Console} (hc : J c) : J c.reset := by
  have hprocessor := hJ.resetProcessor c hc
  have hclear := hJ.clear _ hprocessor
  have hforget := hJ.forget _ hclear
  exact hJ.aside _ 0 c.board.memory .released {} c.program hforget

theorem wipe {c : Console} (hc : J c) : J c.wipe :=
  hJ.aside c.reset 0 .powerUp .released {} none (hJ.reset hc)

theorem keeps_load (path : Option Path) (image : List Byte) : KeepsConsole J (load path image) := by
  refine .get_bind ?_
  rintro ⟨c, w⟩ hc
  cases hload : c.loadImage path image with
  | error e => simpa only [hload] using .throw _
  | ok loaded =>
    obtain ⟨program, d⟩ := loaded
    obtain ⟨memory, -, rfl⟩ := loadImage_eq_ok hload
    simp only [hload]
    exact Keeps.bind (.set (hJ.aside c _ memory _ _ (some program) hc)) fun _ => .pure _

theorem keeps_loadFile (path : Path) : KeepsConsole J (loadFile path) := by
  refine .get_bind fun s hs => ?_
  cases Rom.read s.2.files path with
  | error e => exact .throw _
  | ok image => exact hJ.keeps_load _ _

theorem keeps_setKey (down : Bool) (key : Nibble) : KeepsConsole J (setKey down key) :=
  .modify fun s hs =>
    hJ.aside s.1 s.1.board.cycles s.1.board.memory _ s.1.board.timers s.1.program hs

theorem keeps_hostKey (code : Int) (down : Bool) : KeepsConsole J (hostKey code down) := by
  rw [hostKey]
  cases keypadKey? code with
  | none => exact .pure _
  | some key => exact (hJ.keeps_setKey down key).bind fun _ => .pure _

theorem keeps_trace (n : Nat) : KeepsConsole J (trace n) := by
  induction n with
  | zero => exact .pure _
  | succ n ih =>
    refine hJ.keeps_cycle.bind fun _ => ?_
    refine .get_bind fun s _ => ?_
    exact ih.bind fun _ => .pure _

/-- Operations keep an invariant, if it is kept when parts of the board and the dirty flag are set
by hand. -/
theorem keeps_operate {op : Operation}
    (hassign : ∀ settings, op = .assign settings → KeepsConsole J (settings.forM assign))
    (hdirty : ∀ dirty, op = .setDirty dirty → KeepsConsole J (operate op)) :
    KeepsConsole J (operate op) := by
  have silently {m : PlantM Console Unit} (hm : KeepsConsole J m) :
      KeepsConsole J (m >>= fun _ => pure Reply.nothing) := hm.bind fun _ => .pure _
  cases op with
  | step => exact silently hJ.keeps_step
  | trace count => exact (hJ.keeps_trace count).bind fun _ => .pure _
  | wipe => exact silently (.modify fun _ hs => hJ.wipe hs)
  | resetProcessor => exact silently (.modify fun s hs => hJ.resetProcessor s.1 hs)
  | load image => exact (hJ.keeps_load none image).bind fun _ => .pure _
  | loadFile path => exact (hJ.keeps_loadFile _).bind fun _ => .pure _
  | poke address bytes =>
    exact silently (.modify
      fun s hs => hJ.aside s.1 s.1.board.cycles _ s.1.board.keypad s.1.board.timers
      s.1.program hs)
  | assign settings => exact silently (hassign settings rfl)
  | keyDown key => exact (keeps_checkKey key).bind fun k => silently (hJ.keeps_setKey true k)
  | keyUp key => exact (keeps_checkKey key).bind fun k => silently (hJ.keeps_setKey false k)
  | hostKey code down => exact (hJ.keeps_hostKey code down).bind fun _ => .pure _
  | pixel x y =>
    refine .get_bind fun s _ => ?_
    cases s.1.board.screen.pixel x y with
    | ok lit => exact .pure _
    | error cause => exact .throw _
  | setDirty dirty => exact hdirty dirty rfl
  | program | isDirty | registers | screenText | dump | colours =>
    exact .get_bind fun _ _ => .pure _

/-- The console wants nothing done itself. So it keeps the invariant as a plant does. -/
theorem plantKeeps {p : Operation → Prop}
    (hassign : ∀ settings, p (.assign settings) → KeepsConsole J (settings.forM assign))
    (hdirty : ∀ dirty, p (.setDirty dirty) → KeepsConsole J (operate (.setDirty dirty))) :
    Plant.Keeps J p where
  cycle := by
    have hpure : Hoare (fun s : Console × World => J s.1)
        (pure [] : PlantM Console (Script Operation))
        (fun script s => J s.1 ∧ Script.Every p script) (fun _ s => J s.1) :=
          fun _ hs => ⟨hs, trivial⟩
    exact Hoare.bind hJ.keeps_cycle fun _ => hpure
  updateTimers clock := by
    intro s hs
    exact ⟨(hJ.keeps_updateTimers clock).finalState hs, trivial⟩
  reset := .modify fun _ hs => hJ.reset hs
  operate op hop := by
    refine hJ.keeps_operate (fun settings hsettings => hassign settings (hsettings ▸ hop)) ?_
    rintro dirty rfl
    exact hdirty dirty hop

end Steady

theorem Invariant.plantKeeps (hJ : Invariant J) {p : Operation → Prop}
    (hassign : ∀ settings, p (.assign settings) → KeepsConsole J (settings.forM assign)) :
    Plant.Keeps J p :=
  hJ.toSteady.plantKeeps hassign fun dirty _ =>
    Keeps.bind (.modify fun s hs => hJ.setDirty s.1 dirty hs) fun _ => .pure _

/-! ### Well-formed boards -/

/-- The board of the console is well-formed. -/
def WellFormed (c : Console) : Prop := c.board.WellFormed

theorem invariant_wellFormed : Invariant WellFormed where
  aside _ _ _ _ _ _ hc := ⟨hc.registers, hc.keyRegister⟩
  step _ hc := Board.keeps_step.finalState hc
  resetProcessor c _ := c.board.wellFormed_resetProcessor
  clear _ hc := ⟨hc.registers, hc.keyRegister⟩
  beep _ _ hc := hc
  forget _ hc := hc
  setDirty _ _ hc := ⟨hc.registers, hc.keyRegister⟩

theorem wellFormed_reset (c : Console) : c.reset.WellFormed :=
  Board.wellFormed_of_powerUp rfl rfl

theorem wellFormed_wipe (c : Console) : c.wipe.WellFormed :=
  Board.wellFormed_of_powerUp rfl rfl

/-- The console keeps its board well-formed under ordinary operations. -/
theorem plantKeeps : Plant.Keeps WellFormed Operation.Ordinary :=
  invariant_wellFormed.plantKeeps fun _ hordinary => hordinary.elim

end Console

namespace Machine

open Console.Operation (Ordinary)

/-- The board is well-formed, timer ticks are at least a cycle apart, and no script that waits to be
run sets registers by hand. -/
abbrev Sound (m : Machine) : Prop := Host.Upheld (fun s => s.1.WellFormed) Ordinary m

/-- The machine after commands from outside, whether or not they fail. -/
def after (m : Machine) (commands : List (Command Console.Operation)) : Machine :=
  (runAll Host.execute commands m).2

theorem sound_after {m : Machine} (hm : m.Sound) {commands : List (Command Console.Operation)}
    (hcommands : Script.Every Ordinary commands) : (m.after commands).Sound :=
  Host.upheld_runAll Console.plantKeeps.upholds hcommands hm

theorem sound_create {world : World} {random : RandomSource} {frequency timerFrequency : Number}
    {soundEnabled : Bool} {m : Machine}
    (h : create world random frequency timerFrequency soundEnabled = .ok m) : m.Sound :=
  Host.upheld_create (W := fun s => s.1.WellFormed) (Board.wellFormed_of_powerUp rfl rfl) h

/-- **No number of a machine leaves its width.** A machine with positive integer frequencies is
there, and whatever it is told after that, and whatever program it runs, every register, the stack,
the memory, the screen, the keypad, the timers, the clock and the timer interval stay within their
bounds, also after a command that fails. -/
theorem bounds_after (world : World) (random : RandomSource) {f t : Int} (hf : 0 < f) (ht : 0 < t)
    (soundEnabled : Bool) :
    ∃ m, create world random (.integer f) (.integer t) soundEnabled = .ok m ∧
      ∀ commands, Script.Every Ordinary commands →
        let n := m.after commands
        let board := n.plant.board
        (∀ x, (board.registers.v.get x).toNat ≤ 255) ∧
        (0 ≤ board.registers.index ∧ board.registers.index ≤ 0xFFFF) ∧
        (0 ≤ board.registers.pc ∧ board.registers.pc ≤ 0xFFF) ∧
        (0 ≤ board.registers.sp ∧ board.registers.sp ≤ 16) ∧
        (∀ slot, 0 ≤ board.registers.stack.get slot ∧ board.registers.stack.get slot ≤ 0xFFF) ∧
        (0 ≤ board.keyWait.register ∧ board.keyWait.register ≤ 15) ∧
        board.timers.delay.toNat ≤ 255 ∧ board.timers.sound.toNat ≤ 255 ∧
        board.memory.cells.toList.length = 4096 ∧
        board.screen.bytes.toList.length = 256 ∧
        board.keypad.down.toList.length = 16 ∧
        0 ≤ n.clock ∧ 1 ≤ n.interval := by
  have hcreate : create world random (.integer f) (.integer t) soundEnabled = _ :=
    Host.create_eq _ world hf ht maxCatchUp
  refine ⟨_, hcreate, ?_⟩
  intro commands hcommands n board
  have hsound := sound_after (sound_create hcreate) hcommands
  have hregisters := hsound.holds.registers
  have hbyte (byte : Byte) : byte.toNat ≤ 255 := by
    have hlt := byte.isLt
    omega
  exact ⟨fun x => hbyte _, hregisters.index, hregisters.pc, hregisters.sp, hregisters.stack,
    hsound.holds.keyRegister, hbyte _, hbyte _, Bank.length_toList _, Bank.length_toList _,
    Bank.length_toList _, Nat.zero_le _, hsound.interval⟩

/-- A program that calls itself overruns the return stack. -/
theorem bounds_after_overrun :
    ∃ m, create {} (.listed [] 0) (.integer 500) (.integer 60) true = .ok m ∧
      let n := m.after [.operate (.load [0x22, 0x00]), .powerOn, .tick 20, .operate (.keyDown 16),
        .setFrequency (.integer (-3)), .reset]
      (0 ≤ n.plant.board.registers.sp ∧ n.plant.board.registers.sp ≤ 16) ∧ 1 ≤ n.interval := by
  obtain ⟨m, hm, hbounds⟩ := bounds_after {} (.listed [] 0) (f := 500) (t := 60) (by decide)
    (by decide) true
  obtain ⟨-, -, -, hsp, -, -, -, -, -, -, -, -, hinterval⟩ :=
    hbounds [.operate (.load [0x22, 0x00]), .powerOn, .tick 20, .operate (.keyDown 16),
      .setFrequency (.integer (-3)), .reset] ⟨trivial, trivial, trivial, trivial, trivial,
        trivial, trivial⟩
  exact ⟨m, hm, hsp, hinterval⟩

end Machine

end Chip8
