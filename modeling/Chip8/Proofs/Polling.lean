import Chip8.Proofs.Journal
import Chip8.Proofs.MachineInvariant
import Chip8.Proofs.PlantSimulation
import Chip8.Proofs.Unlisted

/-!
# Waiting for a key as decoding again

A processor that waits for a key has a state of its own: it does not look at memory, but at the
register that it recorded when the wait began. A polling processor has no such state. It decodes the
same instruction again in each cycle, stays where it is while no key is down, and otherwise goes on
as if nothing had happened.

The two do the same, because a processor that waits is still in front of the instruction that made
it wait. That holds as long as memory is not written from outside in the meantime; instructions
cannot write it, since none is executed.

## Main definitions

* `Board.poll`: one step without a wait state
* `Polling`: a console without a wait state
* `Board.WaitsRightly`: a processor that waits is in front of the instruction that made it wait
* `Machine.Undisturbed`: memory is not written from outside while the processor waits

## Main statements

* `Board.step_poll`: a step with a wait state and one without lead to the same
* `Polling.simulates`: a console and a polling console do the same
* `Machine.waiting_eq_polling`: so do machines with them
-/

namespace Chip8

namespace Instruction

theorem opcode_of_awaitKey {op : Opcode} {x : Nibble} (hread : ofOpcode op = awaitKey x) :
    op = 0xF#4 ++ x ++ 0x0A#8 :=
  (Option.some.inj (opcode?_of_ofOpcode_eq hread nofun nofun nofun nofun)).symm

end Instruction

/-! ## Steps without a wait state -/

namespace Board

/-- One step without a wait state. An instruction that awaits a key is executed anew each time, and
leaves everything in place while no key is down. -/
def poll (b : Board) : Execution :=
  match Instruction.ofOpcode b.opcode with
  | .awaitKey x =>
    match b.keypad.firstDown with
    | some key => .ok none (b.withRegisters (b.registers.setV x (key.setWidth 8)).advance)
    | none => .ok none b
  | instruction => b.execute instruction

/-- A step without a wait state that is counted. -/
def pollCycle (b : Board) : Execution :=
  match b.poll with
  | .ok remark b => .ok remark { b with cycles := b.cycles + 1 }
  | .error fault b => .error fault b

/-- The board without its wait state. -/
def forgetWait (b : Board) : Board := { b with keyWait := {} }

/-- If the processor waits for a key, the opcode at the program counter is the one that awaits it,
into the register that was recorded. -/
def WaitsRightly (b : Board) : Prop :=
  b.keyWait.pending = true → ∃ x : Nibble, b.opcode = 0xF#4 ++ x ++ 0x0A#8 ∧
    b.keyWait.register = x.toNat

/-- The one move of the processor leads to the same as the other, apart from the wait state. -/
def Forgets (x y : Execution) : Prop :=
  match x, y with
  | .ok _ c, .ok _ d => d = c.forgetWait ∧ c.WaitsRightly
  | .error e c, .error e' d => e' = e ∧ d = c.forgetWait ∧ c.WaitsRightly
  | _, _ => False

theorem Forgets.cases {x y : Execution} (h : Forgets x y) :
    (∃ remark remark' c, x = .ok remark c ∧ y = .ok remark' c.forgetWait ∧ c.WaitsRightly) ∨
      ∃ fault c, x = .error fault c ∧ y = .error fault c.forgetWait ∧ c.WaitsRightly := by
  cases x with
  | ok remark c =>
    cases y with
    | ok remark' d =>
      obtain ⟨rfl, hwaits⟩ := h
      exact .inl ⟨remark, remark', c, rfl, rfl, hwaits⟩
    | error fault d => exact h.elim
  | error fault c =>
    cases y with
    | ok remark' d => exact h.elim
    | error fault' d =>
      obtain ⟨rfl, rfl, hwaits⟩ := h
      exact .inr ⟨_, c, rfl, rfl, hwaits⟩

variable {b : Board}

theorem waitsRightly_of_ready (hready : b.keyWait.pending = false) : b.WaitsRightly := by
  intro hpending
  rw [hready] at hpending
  cases hpending

theorem goto_pc (hb : b.WellFormed) : b.registers.goto b.registers.pc = b.registers := by
  have hpc := hb.registers.pc
  have hsame : ((BitVec.ofInt 12 b.registers.pc).toNat : Int) = b.registers.pc := by
    rw [BitVec.toNat_ofInt]
    omega
  rw [Registers.goto, hsame]

/-- Executing an instruction that does not await a key takes no notice of the wait state. -/
theorem execute_forgetWait (b : Board) (hready : b.keyWait.pending = false)
    {instruction : Instruction} (hawait : ∀ x, instruction ≠ .awaitKey x) :
    Forgets (b.execute instruction) (b.forgetWait.execute instruction) := by
  have hstays (c : Board) (hc : c.keyWait = b.keyWait) : c.WaitsRightly :=
    waitsRightly_of_ready (hc ▸ hready)
  cases instruction with
  | awaitKey x => exact absurd rfl (hawait x)
  | returnFromCall =>
    simp only [execute, forgetWait]
    cases b.registers.pop with
    | ok target r => exact ⟨rfl, hstays _ rfl⟩
    | error fault r => exact ⟨rfl, rfl, hstays _ rfl⟩
  | call target =>
    simp only [execute, forgetWait]
    cases b.registers.push b.registers.advance.pc with
    | ok _ r => exact ⟨rfl, hstays _ rfl⟩
    | error fault r => exact ⟨rfl, rfl, hstays _ rfl⟩
  | draw x y rows =>
    simp only [execute, drawSprite, forgetWait]
    cases b.screen.draw b.memory b.registers.indexAddress _ _ _ with
    | ok hit screen => exact ⟨rfl, hstays _ rfl⟩
    | error cause screen => exact ⟨rfl, rfl, hstays _ rfl⟩
  | _ => exact ⟨rfl, hstays _ rfl⟩

@[simp] theorem screen_forgetWait (b : Board) : b.forgetWait.screen = b.screen := rfl

@[simp] theorem memory_forgetWait (b : Board) : b.forgetWait.memory = b.memory := rfl

theorem poll_of_awaitKey {x : Nibble} (hread : Instruction.ofOpcode b.opcode = .awaitKey x) :
    b.poll = match b.keypad.firstDown with
      | some key => .ok none (b.withRegisters (b.registers.setV x (key.setWidth 8)).advance)
      | none => .ok none b := by
  rw [poll, hread]

theorem poll_of_ne (hread : ∀ x, Instruction.ofOpcode b.opcode ≠ .awaitKey x) :
    b.poll = b.execute (.ofOpcode b.opcode) := by
  rw [poll]
  split
  next x heq => exact absurd heq (hread x)
  next => rfl

/-- **One step** of a processor that waits rightly leads to the same as a step without a wait
state. -/
theorem step_poll (hb : b.WellFormed) (hwaits : b.WaitsRightly) :
    Forgets b.step b.forgetWait.poll := by
  by_cases hpending : b.keyWait.pending = true
  · -- The processor waits in front of the instruction that the other one decodes again.
    obtain ⟨x, hopcode, hregister⟩ := hwaits hpending
    have hread : Instruction.ofOpcode b.forgetWait.opcode = .awaitKey x :=
      Instruction.ofOpcode_eq (congrArg some hopcode.symm)
    have hplace : place 4 b.keyWait.register = .ok x := by
      rw [hregister, Registers.place_nibble ⟨by omega, by omega⟩, BitVec.ofInt_natCast]
      simp
    rw [step, if_pos hpending, pollKey, poll_of_awaitKey hread]
    show Forgets _ (match b.keypad.firstDown with | some key => _ | none => _)
    cases b.keypad.firstDown with
    | none => exact ⟨rfl, hwaits⟩
    | some key =>
      simp only [hplace]
      exact ⟨rfl, waitsRightly_of_ready rfl⟩
  · have hready : b.keyWait.pending = false := by simpa using hpending
    rw [step, if_neg hpending]
    by_cases hawait : ∃ x, Instruction.ofOpcode b.opcode = .awaitKey x
    · obtain ⟨x, hread⟩ := hawait
      rw [poll_of_awaitKey (b := b.forgetWait) hread, hread, execute]
      show Forgets _ (match b.keypad.firstDown with | some key => _ | none => _)
      cases b.keypad.firstDown with
      | some key => exact ⟨rfl, waitsRightly_of_ready hready⟩
      | none =>
        -- The wait begins, and the program counter stays at the instruction.
        simp only [goto_pc hb]
        refine ⟨rfl, fun _ => ⟨x, ?_, rfl⟩⟩
        exact Instruction.opcode_of_awaitKey hread
    · rw [poll_of_ne (b := b.forgetWait) (not_exists.1 hawait)]
      exact execute_forgetWait b hready (not_exists.1 hawait)

theorem cycle_pollCycle (hb : b.WellFormed) (hwaits : b.WaitsRightly) :
    Forgets b.cycle b.forgetWait.pollCycle := by
  rw [cycle, pollCycle]
  rcases (step_poll hb hwaits).cases with ⟨remark, remark', c, hx, hy, hc⟩ | ⟨fault, c, hx, hy, hc⟩
  · rw [hx, hy]
    exact ⟨rfl, hc⟩
  · rw [hx, hy]
    exact ⟨rfl, rfl, hc⟩

end Board

/-! ## Consoles without a wait state -/

/-- A console without a wait state. -/
structure Polling where
  console : Console

namespace Polling

open Console (Operation)

variable {α β : Type}

def part : Part Polling Console where
  get p := p.console
  set _ console := ⟨console⟩
  get_set _ _ := rfl
  set_set _ _ _ := rfl

/-- A polling console differs from others in its steps only. -/
instance : Plant Polling Operation where
  cycle := do
    part.lift (Console.advance Board.pollCycle)
    return []
  updateTimers clock := part.lift (Plant.updateTimers clock)
  reset := part.lift Plant.reset
  operate
    | .step => do
      part.lift (Console.advance Board.poll)
      return .nothing
    | op => part.lift (Console.operate op)

/-- The polling console is the other one without its wait state, and the other one waits rightly. -/
structure Follows (s : Console × World) (t : Polling × World) : Prop where
  wellFormed : s.1.WellFormed
  waits : s.1.board.WaitsRightly
  console : t.1.console = { s.1 with board := s.1.board.forgetWait }
  world : s.2.Alike t.2

theorem matches_bind {x : PlantM Console α} {f : α → PlantM Console β}
    (hx : Matches Follows x (part.lift x)) (hf : ∀ a, Matches Follows (f a) (part.lift (f a))) :
    Matches Follows (x >>= f) (part.lift (x >>= f)) := by
  rw [part.lift_bind]
  exact hx.bind hf

theorem matches_pure (a : α) : Matches Follows (pure a) (part.lift (pure a)) :=
  fun _ _ hst => ⟨rfl, hst⟩

theorem matches_throw (e : Failure) :
    Matches Follows (throw e : PlantM Console α) (part.lift (throw e)) := fun _ _ hst => ⟨rfl, hst⟩

/-- What comes after reading the console may make use of what the polling console has in common with
it. -/
theorem matches_get_bind {f : Console × World → PlantM Console α}
    (hf : ∀ c w w', w.Alike w' →
      Matches Follows (f (c, w)) (part.lift (f ({ c with board := c.board.forgetWait }, w')))) :
    Matches Follows (get >>= f) (part.lift (get >>= f)) := by
  rw [part.lift_bind]
  rintro ⟨c, w⟩ ⟨⟨d⟩, w'⟩ hst
  obtain rfl : d = _ := hst.console
  exact hf c w w' hst.world _ _ hst

/-- The two read the same of a console that the wait state has no part in. -/
theorem matches_read {g : Console × World → α}
    (hg : ∀ c w w', w.Alike w' → g ({ c with board := c.board.forgetWait }, w') = g (c, w)) :
    Matches Follows (do return g (← get)) (part.lift (do return g (← get))) := by
  refine matches_get_bind fun c w w' hw => ?_
  rw [hg c w w' hw]
  exact matches_pure _

theorem matches_onBoard {f : Board → Board} (hf : ∀ b, b.WellFormed → (f b).WellFormed)
    (hwaits : ∀ b, b.WaitsRightly → (f b).WaitsRightly)
    (hforget : ∀ b, f b.forgetWait = (f b).forgetWait) :
    Matches Follows (Console.onBoard f) (part.lift (Console.onBoard f)) := by
  rintro ⟨c, w⟩ ⟨⟨d⟩, w'⟩ hst
  obtain rfl : d = _ := hst.console
  refine ⟨rfl, hf _ hst.wellFormed, hwaits _ hst.waits, ?_, hst.world⟩
  show { c with board := f c.board.forgetWait } = _
  rw [hforget]
  rfl

theorem matches_advance {move move' : Board → Execution}
    (hkeeps : Keeps Board.WellFormed (move : EStateM Fault Board (Option Remark)))
    (hmove : ∀ {b : Board}, b.WellFormed → b.WaitsRightly →
      Board.Forgets (move b) (move' b.forgetWait)) :
    Matches Follows (Console.advance move) (part.lift (Console.advance move')) := by
  rintro ⟨c, w⟩ ⟨⟨d⟩, w'⟩ hst
  obtain rfl : d = _ := hst.console
  have hkept := hkeeps c.board hst.wellFormed
  simp only [Console.advance, Part.lift, part]
  rcases (hmove hst.wellFormed hst.waits).cases with ⟨remark, remark', b, hx, hy, hb⟩ |
    ⟨fault, b, hx, hy, hb⟩
  · rw [hx] at hkept
    rw [hx, hy]
    exact ⟨rfl, hkept, hb, rfl, hst.world.note _ _⟩
  · rw [hx] at hkept
    rw [hx, hy]
    exact ⟨rfl, hkept, hb, rfl, hst.world⟩

theorem matches_updateTimers (clock : Nat) :
    Matches Follows (Plant.updateTimers clock : PlantM Console (TimerResult Operation))
      (Plant.updateTimers clock) := by
  have hupdate : Matches Follows (Console.updateTimers clock)
      (part.lift (Console.updateTimers clock)) := by
    rintro ⟨c, w⟩ ⟨⟨d⟩, w'⟩ hst
    obtain rfl : d = _ := hst.console
    have hbeep := (hst.world.record (.notice (.beep clock)) (.notice (.beep clock))).beep c.beeper
    have hkept : { c.board with timers := c.board.timers.tick }.WellFormed :=
      ⟨hst.wellFormed.registers, hst.wellFormed.keyRegister⟩
    simp only [Part.lift, part, Console.updateTimers_eq]
    show Agree Follows
      (.ok c.board.timers.expiring (if c.board.timers.expiring = true then _ else _))
      (.ok c.board.timers.expiring (_, _))
    by_cases hexpiring : c.board.timers.expiring = true
    · have hforgotten : c.board.forgetWait.timers.expiring = true := hexpiring
      simp only [if_pos hexpiring, if_pos hforgotten]
      refine ⟨rfl, hkept, hst.waits, ?_, hbeep.2⟩
      show Console.mk _ _ _ = Console.mk _ _ _
      rw [hbeep.1]
      rfl
    · have hforgotten : ¬c.board.forgetWait.timers.expiring = true := hexpiring
      simp only [if_neg hexpiring, if_neg hforgotten]
      exact ⟨rfl, hkept, hst.waits, rfl, hst.world⟩
  exact matches_bind hupdate fun _ => matches_pure _

theorem matches_reset :
    Matches Follows (Plant.reset : PlantM Console Unit) (Plant.reset : PlantM Polling Unit) := by
  rintro ⟨c, w⟩ ⟨⟨d⟩, w'⟩ hst
  obtain rfl : d = _ := hst.console
  exact ⟨rfl, Console.wellFormed_reset c, Board.waitsRightly_of_ready rfl, rfl, hst.world⟩

theorem matches_checkKey (key : Int) :
    Matches Follows (Console.checkKey key) (part.lift (Console.checkKey key)) := by
  rw [Console.checkKey]
  cases keyOfInt key with
  | none => exact matches_throw _
  | some k => exact matches_pure k

theorem matches_setKey (down : Bool) (key : Nibble) :
    Matches Follows (Console.setKey down key) (part.lift (Console.setKey down key)) :=
  matches_onBoard (fun _ hb => ⟨hb.registers, hb.keyRegister⟩) (fun _ hb => hb) fun _ => rfl

theorem matches_hostKey (code : Int) (down : Bool) :
    Matches Follows (Console.hostKey code down) (part.lift (Console.hostKey code down)) := by
  rw [Console.hostKey]
  cases keypadKey? code with
  | none => exact matches_pure _
  | some key => exact matches_bind (matches_setKey down key) fun _ => matches_pure _

end Polling

/-! ## Operations -/

namespace Console.Operation

/-- The operation writes memory from outside. -/
def WritesMemory : Operation → Prop
  | .load _ => True
  | .loadFile _ => True
  | .poke _ _ => True
  | _ => False

/-- The operation neither writes memory from outside nor sets registers by hand, and steps the
processor at most once. -/
def LeavesMemory : Operation → Prop
  | .load _ => False
  | .loadFile _ => False
  | .poke _ _ => False
  | .assign _ => False
  | .trace _ => False
  | _ => True

end Console.Operation

namespace Polling

open Console (Operation)
open Console.Operation (LeavesMemory WritesMemory)

theorem matches_wipe :
    Matches Follows (modify fun (c, w) => (c.wipe, w) : PlantM Console Unit)
      (part.lift (modify fun (c, w) => (c.wipe, w))) := by
  rintro ⟨c, w⟩ ⟨⟨d⟩, w'⟩ hst
  obtain rfl : d = _ := hst.console
  refine ⟨rfl, c.wellFormed_wipe, Board.waitsRightly_of_ready rfl, ?_, hst.world⟩
  show { c with board := c.board.forgetWait }.wipe =
    { c.wipe with board := c.wipe.board.forgetWait }
  simp only [Console.wipe, Console.reset, Board.resetProcessor, Board.forgetWait]

theorem matches_operate {op : Operation} (hop : op.LeavesMemory) :
    Matches Follows (Plant.operate op : PlantM Console Reply)
      (Plant.operate op : PlantM Polling Reply) := by
  have silently {m : PlantM Console Unit} (hm : Matches Follows m (part.lift m)) :
      Matches Follows (m >>= fun _ => pure Reply.nothing)
        (part.lift (m >>= fun _ => pure Reply.nothing)) :=
    matches_bind hm fun _ => matches_pure _
  cases op with
  | load | loadFile | poke | assign | trace => exact hop.elim
  | step =>
    exact (matches_advance Board.keeps_step Board.step_poll).bind fun _ => .pure _
  | wipe =>
    exact silently matches_wipe
  | resetProcessor =>
    exact silently (matches_onBoard (fun b _ => b.wellFormed_resetProcessor)
      (fun _ _ => Board.waitsRightly_of_ready rfl) fun _ => rfl)
  | setDirty dirty =>
    exact silently (matches_onBoard (f := fun b => { b with screen := { b.screen with dirty } })
      (fun _ hb => ⟨hb.registers, hb.keyRegister⟩) (fun _ hb => hb) fun _ => rfl)
  | keyDown key =>
    exact matches_bind (matches_checkKey key) fun k => silently (matches_setKey true k)
  | keyUp key =>
    exact matches_bind (matches_checkKey key) fun k => silently (matches_setKey false k)
  | hostKey code down => exact matches_bind (matches_hostKey code down) fun _ => matches_pure _
  | pixel x y =>
    rintro ⟨c, w⟩ ⟨⟨d⟩, w'⟩ hst
    obtain rfl : d = _ := hst.console
    show Agree Follows (Console.operate (.pixel x y) _) (part.lift (Console.operate (.pixel x y)) _)
    simp only [Console.operate, Part.lift, part, run_bind, run_get, Board.screen_forgetWait]
    cases c.board.screen.pixel x y with
    | ok lit => exact ⟨rfl, hst⟩
    | error cause => exact ⟨rfl, hst⟩
  | program | isDirty | registers | screenText | dump | colours =>
    exact matches_read fun _ _ _ _ => rfl

theorem agree_load (path : Option Path) (image : List Byte) {s : Console × World}
    {t : Polling × World} (hst : Follows s t) (hready : s.1.board.keyWait.pending = false) :
    Agree Follows (Console.load path image s) (part.lift (Console.load path image) t) := by
  obtain ⟨c, w⟩ := s
  obtain ⟨⟨d⟩, w'⟩ := t
  obtain rfl : d = _ := hst.console
  simp only [Console.load, Part.lift, part, run_bind, run_get, Console.loadImage,
    Board.memory_forgetWait]
  cases c.board.memory.load image with
  | error e => exact ⟨rfl, hst⟩
  | ok memory =>
    exact ⟨rfl, ⟨hst.wellFormed.registers, hst.wellFormed.keyRegister⟩,
      Board.waitsRightly_of_ready hready, rfl, hst.world.record _ _⟩

theorem agree_loadFile (path : Path) {s : Console × World} {t : Polling × World} (hst : Follows s t)
    (hready : s.1.board.keyWait.pending = false) :
    Agree Follows (Console.loadFile path s) (part.lift (Console.loadFile path) t) := by
  obtain ⟨c, w⟩ := s
  obtain ⟨d, w'⟩ := t
  have hfiles : w'.files = w.files := by
    obtain ⟨journal, rfl⟩ := hst.world
    rfl
  rw [Console.loadFile, part.lift_bind, run_bind, run_bind]
  show Agree Follows _ (part.lift _ _)
  simp only [run_get, hfiles]
  cases Rom.read w.files path with
  | error e => exact ⟨rfl, hst⟩
  | ok image => exact agree_load _ _ hst hready

/-- Memory may be written from outside when the processor does not wait. -/
theorem agree_write {op : Operation} (hop : op.WritesMemory) {s : Console × World}
    {t : Polling × World} (hst : Follows s t) (hready : s.1.board.keyWait.pending = false) :
    Agree Follows ((Plant.operate op : PlantM Console Reply) s)
      ((Plant.operate op : PlantM Polling Reply) t) := by
  cases op with
  | load image =>
    show Agree Follows (Console.operate (.load image) s)
      (part.lift (Console.operate (.load image)) t)
    rw [Console.operate, part.lift_bind]
    exact (agree_load none image hst hready).bind fun _ => matches_pure _
  | loadFile path =>
    show Agree Follows (Console.operate (.loadFile path) s)
      (part.lift (Console.operate (.loadFile path)) t)
    rw [Console.operate, part.lift_bind]
    exact (agree_loadFile _ hst hready).bind fun _ => matches_pure _
  | poke address bytes =>
    obtain ⟨c, w⟩ := s
    obtain ⟨⟨d⟩, w'⟩ := t
    obtain rfl : d = _ := hst.console
    exact ⟨rfl, ⟨hst.wellFormed.registers, hst.wellFormed.keyRegister⟩,
      Board.waitsRightly_of_ready hready, rfl, hst.world⟩
  | _ => exact hop.elim

/-- **A console and a polling console do the same**, and the console waits rightly. -/
theorem simulates : Plant.Simulates Follows LeavesMemory where
  now s t hst := by
    obtain ⟨journal, hworld⟩ := hst.world
    rw [hworld, Int.add_zero]
  record s t hst e := { hst with world := hst.world.record e e }
  pass s t hst nanoseconds := { hst with world := hst.world.pass nanoseconds }
  cycle := (matches_advance Board.keeps_cycle Board.cycle_pollCycle).bind fun _ => .pure _
  cycleScript s script s' hend := by
    rw [eq_of_bind_pure_eq_ok hend]
    trivial
  updateTimers := matches_updateTimers
  timersScript clock s result s' hend := by
    obtain ⟨c, w⟩ := s
    simp only [Plant.updateTimers, run_bind, Console.updateTimers_eq] at hend
    cases hend
    trivial
  reset := matches_reset
  operate _ hop := matches_operate hop

end Polling

/-! ## Machines -/

namespace Machine

open Console.Operation (LeavesMemory WritesMemory)

/-- Of what a machine is told, nothing sets registers by hand, and memory is written from outside
only by commands of their own and when the processor does not wait for a key. -/
def Undisturbed : Machine → List (Command Console.Operation) → Prop
  | _, [] => True
  | m, c :: cs =>
    (c.Every LeavesMemory ∨ m.plant.board.keyWait.pending = false ∧ ∃ op, c = .operate op ∧
      op.WritesMemory) ∧
      Undisturbed (finalState (Host.execute c m)) cs

/-- Machine and polling machine are the same but for the wait state of the processor and the
journal. -/
abbrev FollowedBy (m : Machine) (k : Host Polling Console.Operation) : Prop :=
  Host.Related Polling.Follows LeavesMemory m k

theorem agree_execute {m : Machine} {k : Host Polling Console.Operation}
    (hfollowed : FollowedBy m k) {c : Command Console.Operation}
    (hc : c.Every LeavesMemory ∨
      m.plant.board.keyWait.pending = false ∧ ∃ op, c = .operate op ∧ op.WritesMemory) :
    Agree FollowedBy (Host.execute c m) (Host.execute c k) := by
  rcases hc with hc | ⟨hready, op, rfl, hop⟩
  · exact Host.alike_execute Polling.simulates hc m k hfollowed
  · show Agree FollowedBy (Host.onPlant (Plant.operate op) m) (Host.onPlant (Plant.operate op) k)
    have hwrite := Polling.agree_write hop hfollowed.plant hready
    exact Host.agree_onPlant hfollowed hwrite

theorem agree_after {m : Machine} {k : Host Polling Console.Operation} (hfollowed : FollowedBy m k)
    {commands : List (Command Console.Operation)} (hundisturbed : m.Undisturbed commands) :
    (runAll Host.execute commands m).1 = (runAll Host.execute commands k).1 ∧
      FollowedBy (m.after commands) (runAll Host.execute commands k).2 := by
  induction commands generalizing m k with
  | nil => exact ⟨Eq.refl [], hfollowed⟩
  | cons c cs ih =>
    obtain ⟨hc, hcs⟩ := hundisturbed
    obtain ⟨houtcome, hnext⟩ := agree_execute hfollowed hc
    obtain ⟨houtcomes, hend⟩ := ih hnext hcs
    exact ⟨congrArg₂ List.cons houtcome houtcomes, hend⟩

theorem followedBy_create {world : World} {random : RandomSource}
    {frequency timerFrequency : Number} {soundEnabled : Bool} {m : Machine}
    (hcreate : create world random frequency timerFrequency soundEnabled = .ok m) :
    ∃ k, Host.create ⟨Console.powerUp random soundEnabled⟩ world frequency timerFrequency
      maxCatchUp = .ok k ∧
      FollowedBy m k := by
  have hplant : Polling.Follows (Console.powerUp random soundEnabled, world)
      (⟨Console.powerUp random soundEnabled⟩, world) :=
    ⟨Board.wellFormed_of_powerUp rfl rfl, Board.waitsRightly_of_ready rfl, rfl, .refl world⟩
  exact Host.related_create hplant hcreate

/-- **Waiting for a key is decoding again.** Take a new machine and one like it that has no wait
state, and tell both the same, with memory not written from outside while the processor waits.
Whenever the processor waits, the opcode at the program counter is the one that awaits a key, into
the register recorded. All commands end alike, and leave both machines with the same registers,
cycle count, memory, screen, keypad, timers and source of random bytes, with the same program and
beeper, and with the same clock and status. -/
theorem waiting_eq_polling {world : World} {random : RandomSource}
    {frequency timerFrequency : Number} {soundEnabled : Bool} {m : Machine}
    (hcreate : create world random frequency timerFrequency soundEnabled = .ok m) :
    ∃ k : Host Polling Console.Operation,
      Host.create ⟨Console.powerUp random soundEnabled⟩ world frequency timerFrequency
        maxCatchUp = .ok k ∧
      ∀ commands, m.Undisturbed commands →
        let n := m.after commands
        let polled := runAll Host.execute commands k
        (n.plant.board.keyWait.pending = true →
          ∃ x : Nibble, n.plant.board.opcode = 0xF#4 ++ x ++ 0x0A#8 ∧
            n.plant.board.keyWait.register = x.toNat) ∧
        (runAll Host.execute commands m).1 = polled.1 ∧
        polled.2.plant.console = { n.plant with board := { n.plant.board with keyWait := {} } } ∧
        polled.2.clock = n.clock ∧ polled.2.status = n.status := by
  obtain ⟨k, hk, hstart⟩ := followedBy_create hcreate
  refine ⟨k, hk, ?_⟩
  intro commands hundisturbed n polled
  obtain ⟨houtcomes, hend⟩ := agree_after hstart hundisturbed
  exact ⟨hend.plant.waits, houtcomes, hend.plant.console, hend.clock, hend.status⟩

/-- A machine waits for three cycles and goes on when a key is down, as the polling machine does. -/
theorem waiting_eq_polling_key :
    ∃ (m : Machine) (k : Host Polling Console.Operation),
      create {} (.listed [] 0) (.integer 500) (.integer 60) true = .ok m ∧
      Host.create ⟨Console.powerUp (.listed [] 0) true⟩ {} (.integer 500) (.integer 60)
        maxCatchUp = .ok k ∧
      let commands :=
        [.operate (.load [0xF3, 0x0A]), .powerOn, .tick 3, .operate (.keyDown 7), .tick 1]
      (runAll Host.execute commands m).1 = (runAll Host.execute commands k).1 ∧
        (runAll Host.execute commands k).2.plant.console.board.registers =
          (m.after commands).plant.board.registers := by
  obtain ⟨m, hcreate, hplant⟩ : ∃ m : Machine,
      create {} (.listed [] 0) (.integer 500) (.integer 60) true = .ok m ∧
        m.plant = Console.powerUp (.listed [] 0) true :=
    ⟨_, Host.create_eq _ _ (by decide) (by decide) _, rfl⟩
  obtain ⟨k, hk, hpolls⟩ := waiting_eq_polling hcreate
  refine ⟨m, k, hcreate, hk, ?_⟩
  intro commands
  -- The program is loaded before anything waits.
  have hready : m.plant.board.keyWait.pending = false := by
    rw [hplant]
    rfl
  have hundisturbed : m.Undisturbed commands :=
    ⟨Or.inr ⟨hready, _, rfl, trivial⟩, Or.inl trivial, Or.inl trivial, Or.inl trivial,
      Or.inl trivial,
      trivial⟩
  obtain ⟨-, houtcomes, hconsole, -, -⟩ := hpolls commands hundisturbed
  exact ⟨houtcomes, by rw [hconsole]⟩

end Machine

end Chip8
