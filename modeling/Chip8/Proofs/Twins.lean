import Chip8.Proofs.MachineInvariant
import Chip8.Proofs.Renumbering
import Chip8.Proofs.SilentMachine

/-!
# Consoles that draw the same bytes

Of a source of random bytes, nothing can be noticed but the bytes. So two consoles that are the same
but for their sources do the same, as long as the sources give the same bytes. Without sound they do
so in any two worlds, whatever the time there, as long as files that are loaded read the same.

## Main definitions

* `RandomSource.SameBytes`: two sources give the same bytes from now on
* `Board.Twin`, `Console.Twin`: the same but for the source, and the sources give the same bytes
* `Console.Operation.ReadsAlike`: a file that the operation loads reads the same in two file trees

## Main statements

* `Board.matches_cycle`: a cycle does the same on twin boards
* `Console.parallel`: whatever they are told, twin consoles do the same
-/

namespace Chip8

/-! ## The bytes of a source -/

namespace RandomSource

/-- The byte that a source gives after `n` others. -/
def byteAt (r : RandomSource) : (n : Nat) → Byte
  | 0 => r.next.1
  | n + 1 => r.next.2.byteAt n

/-- The two sources give the same bytes. -/
def SameBytes (r r' : RandomSource) : Prop := ∀ n, r'.byteAt n = r.byteAt n

theorem SameBytes.refl (r : RandomSource) : r.SameBytes r := fun _ => rfl

theorem SameBytes.first {r r' : RandomSource} (h : r.SameBytes r') : r'.next.1 = r.next.1 := h 0

theorem SameBytes.rest {r r' : RandomSource} (h : r.SameBytes r') : r.next.2.SameBytes r'.next.2 :=
  fun n => h (n + 1)

end RandomSource

/-! ## Boards -/

namespace Board

/-- The boards are the same but for their sources of random bytes, which give the same bytes. -/
def Twin (b c : Board) : Prop := ∃ random, c = { b with random } ∧ b.random.SameBytes random

theorem matches_execute (instruction : Instruction) :
    Matches Twin (fun b => b.execute instruction : EStateM Fault Board (Option Remark))
      (fun b => b.execute instruction) := by
  rintro b _ ⟨random, rfl, hsame⟩
  have htwin (c : Board) (hc : c.random = b.random) : c.Twin { c with random } :=
    ⟨random, rfl, hc ▸ hsame⟩
  cases instruction with
  | random x mask =>
    -- The byte drawn is the same, and so are all that will be.
    refine ⟨rfl, random.next.2, ?_, hsame.rest⟩
    simp only [execute, finalState, hsame.first]
  | returnFromCall =>
    simp only [execute]
    cases b.registers.pop with
    | ok target r => exact ⟨rfl, htwin _ rfl⟩
    | error fault r => exact ⟨rfl, htwin _ rfl⟩
  | call target =>
    simp only [execute]
    cases b.registers.push b.registers.advance.pc with
    | ok _ r => exact ⟨rfl, htwin _ rfl⟩
    | error fault r => exact ⟨rfl, htwin _ rfl⟩
  | draw x y rows =>
    simp only [execute, drawSprite]
    cases b.screen.draw b.memory b.registers.indexAddress _ _ _ with
    | ok hit screen => exact ⟨rfl, htwin _ rfl⟩
    | error cause screen => exact ⟨rfl, htwin _ rfl⟩
  | awaitKey x =>
    simp only [execute]
    cases b.keypad.firstDown with
    | some key => exact ⟨rfl, htwin _ rfl⟩
    | none => exact ⟨rfl, htwin _ rfl⟩
  | _ => exact ⟨rfl, htwin _ rfl⟩

theorem matches_pollKey :
    Matches Twin (pollKey : EStateM Fault Board (Option Remark)) pollKey := by
  rintro b _ ⟨random, rfl, hsame⟩
  simp only [pollKey]
  cases b.keypad.firstDown with
  | none => exact ⟨rfl, random, rfl, hsame⟩
  | some key =>
    simp only
    cases place 4 b.keyWait.register with
    | ok x => exact ⟨rfl, random, rfl, hsame⟩
    | error cause => exact ⟨rfl, random, rfl, hsame⟩

theorem matches_step : Matches Twin (step : EStateM Fault Board (Option Remark)) step := by
  intro b c htwin
  obtain ⟨random, rfl, -⟩ := id htwin
  rw [step, step]
  by_cases hpending : b.keyWait.pending = true
  · rw [if_pos hpending, if_pos hpending]
    exact matches_pollKey _ _ htwin
  · rw [if_neg hpending, if_neg hpending]
    exact matches_execute _ _ _ htwin

/-- **A cycle** does the same on twin boards. -/
theorem matches_cycle : Matches Twin (cycle : EStateM Fault Board (Option Remark)) cycle := by
  intro b c htwin
  simp only [cycle]
  rcases (matches_step b c htwin).cases with
    ⟨remark, b', c', hb, hc, random, rfl, hsame⟩ | ⟨e, b', c', hb, hc, hstate⟩
  · rw [hb, hc]
    exact ⟨rfl, random, rfl, hsame⟩
  · rw [hb, hc]
    exact ⟨rfl, hstate⟩

end Board

/-! ## Consoles -/

namespace Console

/-- A file that the operation loads reads the same in the two file systems. -/
def Operation.ReadsAlike (files files' : FileSystem) : Operation → Prop
  | .loadFile path => Rom.read files' (Path.ofString path) = Rom.read files (Path.ofString path)
  | _ => True

/-- The consoles are without sound, and the same but for their sources of random bytes, which give
the same bytes. Of the worlds they are in, the second is ahead of the first, and the files are
given. -/
structure Twin (time : Int) (files files' : FileSystem) (s t : Console × World) : Prop where
  board : s.1.board.Twin t.1.board
  beeper : t.1.beeper = s.1.beeper
  silent : s.1.beeper.enabled = false
  program : t.1.program = s.1.program
  now : t.2.now = s.2.now + time
  files : s.2.files = files
  files' : t.2.files = files'

namespace Twin

variable {time : Int} {files files' : FileSystem} {s t : Console × World} {α : Type}

theorem console_eq (hst : Twin time files files' s t) :
    t.1 = { s.1 with board := { s.1.board with random := t.1.board.random } } := by
  obtain ⟨random, hboard, -⟩ := hst.board
  obtain ⟨⟨b, beeper, program⟩, w⟩ := t
  obtain rfl : b = _ := hboard
  obtain rfl : beeper = _ := hst.beeper
  obtain rfl : program = _ := hst.program
  rfl

theorem withBoard (hst : Twin time files files' s t) {b c : Board} (hbc : b.Twin c) :
    Twin time files files' ({ s.1 with board := b }, s.2) ({ t.1 with board := c }, t.2) :=
  { hst with board := hbc }

theorem record (hst : Twin time files files' s t) (e e' : Entry) :
    Twin time files files' (s.1, s.2.record e) (t.1, t.2.record e') :=
  { hst with }

theorem note (hst : Twin time files files' s t) (n : Option Notice) :
    Twin time files files' (s.1, s.2.note n) (t.1, t.2.note n) := by
  cases n with
  | none => exact hst
  | some n => exact hst.record _ _

theorem matches_onBoard {f : Board → Board} (hf : ∀ b c : Board, b.Twin c → (f b).Twin (f c)) :
    Matches (Twin time files files') (onBoard f) (onBoard f) :=
  .modify fun _ _ hst => hst.withBoard (hf _ _ hst.board)

theorem matches_advance {move : Board → Execution}
    (hmove : Matches Board.Twin (move : EStateM Fault Board (Option Remark)) move) :
    Matches (Twin time files files') (advance move) (advance move) := by
  rintro ⟨c, w⟩ ⟨d, w'⟩ hst
  simp only [advance]
  rcases (hmove _ _ hst.board).cases with
    ⟨remark, b, b', hx, hy, hboard⟩ | ⟨fault, b, b', hx, hy, hboard⟩
  · rw [hx, hy]
    exact ⟨rfl, (hst.withBoard hboard).note _⟩
  · rw [hx, hy]
    exact ⟨rfl, hst.withBoard hboard⟩

theorem matches_updateTimers (clock : Nat) :
    Matches (Twin time files files') (updateTimers clock) (updateTimers clock) := by
  rintro ⟨c, w⟩ ⟨⟨b', beeper, program⟩, w'⟩ hst
  obtain ⟨random, hboard, hsame⟩ := hst.board
  obtain rfl : b' = _ := hboard
  obtain rfl : beeper = _ := hst.beeper
  have hticked : Board.Twin { c.board with timers := c.board.timers.tick }
      { c.board with random, timers := c.board.timers.tick } := ⟨random, rfl, hsame⟩
  -- Without sound a beep is counted and nothing else.
  simp only [updateTimers_eq, beep_silent hst.silent]
  by_cases hexpiring : c.board.timers.expiring = true
  · simp only [if_pos hexpiring]
    exact ⟨rfl, { hst with board := hticked, beeper := rfl, silent := hst.silent }⟩
  · simp only [if_neg hexpiring]
    exact ⟨rfl, { hst with board := hticked, beeper := rfl }⟩

theorem matches_reset :
    Matches (Twin time files files') (Plant.reset : PlantM Console Unit) Plant.reset := by
  refine .modify fun s t hst => { hst with
    board := ?_, beeper := congrArg Beeper.reset hst.beeper, silent := hst.silent }
  obtain ⟨random, hboard, hsame⟩ := hst.board
  refine ⟨random, ?_, hsame⟩
  simp only [hboard, reset, Board.resetProcessor]

/-! ### Operations -/

/-- What is read of a console does not depend on its source of random bytes. -/
theorem matches_read {g : Console × World → α}
    (hg : ∀ s t, Twin time files files' s t → g t = g s) :
    Matches (Twin time files files') (do return g (← get) : PlantM Console α)
      (do return g (← get)) := by
  refine .get_bind fun s t hst => ?_
  rw [hg s t hst]
  exact .pure _

theorem matches_checkKey (key : Int) :
    Matches (Twin time files files') (checkKey key) (checkKey key) := by
  rw [checkKey]
  cases keyOfInt key with
  | none => exact .throw _
  | some k => exact .pure k

theorem matches_setKey (down : Bool) (key : Nibble) :
    Matches (Twin time files files') (setKey down key) (setKey down key) := by
  refine matches_onBoard ?_
  rintro b _ ⟨random, rfl, hsame⟩
  exact ⟨random, rfl, hsame⟩

theorem matches_hostKey (code : Int) (down : Bool) :
    Matches (Twin time files files') (hostKey code down) (hostKey code down) := by
  rw [hostKey]
  cases keypadKey? code with
  | none => exact .pure _
  | some key => exact (matches_setKey down key).bind fun _ => .pure _

theorem matches_trace (n : Nat) : Matches (Twin time files files') (trace n) (trace n) := by
  induction n with
  | zero => exact .pure _
  | succ n ih =>
    refine (matches_advance Board.matches_cycle).bind fun _ => ?_
    refine .get_bind fun s t hst => ?_
    obtain ⟨random, hboard, -⟩ := hst.board
    rw [hboard]
    exact ih.bind fun _ => .pure _

/-- Setting a part of the board fails or not, whatever the source of random bytes, and leaves it
alone. -/
theorem twin_apply (setting : Setting) {b c : Board} (hbc : b.Twin c) :
    (∃ cause, setting.apply b = .error cause ∧ setting.apply c = .error cause) ∨
      ∃ b' c', setting.apply b = .ok b' ∧ setting.apply c = .ok c' ∧ b'.Twin c' := by
  obtain ⟨random, rfl, hsame⟩ := hbc
  cases setting with
  | v x value =>
    simp only [Setting.apply]
    cases place 4 x with
    | ok i => exact .inr ⟨_, _, rfl, rfl, random, rfl, hsame⟩
    | error cause => exact .inl ⟨cause, rfl, rfl⟩
  | stack slot value =>
    simp only [Setting.apply]
    cases place 4 slot with
    | ok i => exact .inr ⟨_, _, rfl, rfl, random, rfl, hsame⟩
    | error cause => exact .inl ⟨cause, rfl, rfl⟩
  | _ => exact .inr ⟨_, _, rfl, rfl, random, rfl, hsame⟩

theorem matches_assign (setting : Setting) :
    Matches (Twin time files files') (assign setting) (assign setting) := by
  refine .get_bind fun s t hst => ?_
  rcases twin_apply setting hst.board with ⟨cause, hb, hc⟩ | ⟨b, c, hb, hc, hbc⟩
  · rw [hb, hc]
    exact .throw _
  · rw [hb, hc]
    exact .modify fun _ _ hst => hst.withBoard hbc

theorem matches_load (path : Option Path) (image : List Byte) :
    Matches (Twin time files files') (load path image) (load path image) := by
  refine .get_bind fun s t hst => ?_
  obtain ⟨random, hboard, hsame⟩ := hst.board
  simp only [loadImage, hboard]
  cases s.1.board.memory.load image with
  | error e => exact .throw _
  | ok memory =>
    refine (Matches.set ?_).bind fun _ => .pure _
    exact { hst with board := ⟨random, rfl, hsame⟩, program := rfl }

theorem matches_loadFile {path : Path} (hread : Rom.read files' path = Rom.read files path) :
    Matches (Twin time files files') (loadFile path) (loadFile path) := by
  refine .get_bind fun s t hst => ?_
  rw [hst.files, hst.files', hread]
  cases Rom.read files path with
  | error e => exact .throw _
  | ok image => exact matches_load _ image

theorem wipe_twin (hst : Twin time files files' s t) :
    Twin time files files' (s.1.wipe, s.2) (t.1.wipe, t.2) := by
  obtain ⟨random, hboard, hsame⟩ := hst.board
  refine { hst with
    board := ⟨random, ?_, hsame⟩, beeper := congrArg Beeper.reset hst.beeper, silent := hst.silent,
    program := rfl }
  simp only [hboard, wipe, reset, Board.resetProcessor]

theorem matches_operate {op : Operation} (hop : op.ReadsAlike files files') :
    Matches (Twin time files files') (operate op) (operate op) := by
  have silently {m : PlantM Console Unit} (hm : Matches (Twin time files files') m m) :
      Matches (Twin time files files') (m >>= fun _ => pure Reply.nothing)
        (m >>= fun _ => pure Reply.nothing) := hm.bind fun _ => .pure _
  have changes {f : Board → Board} (hf : ∀ b random, f { b with random } = { f b with random })
      (hrandom : ∀ b, (f b).random = b.random) :
      Matches (Twin time files files') (onBoard f) (onBoard f) := by
    refine matches_onBoard ?_
    rintro b _ ⟨random, rfl, hsame⟩
    exact ⟨random, hf b random, hrandom b ▸ hsame⟩
  cases op with
  | step => exact silently (matches_advance Board.matches_step)
  | trace count => exact (matches_trace count).bind fun _ => .pure _
  | wipe => exact silently (.modify fun _ _ hst => hst.wipe_twin)
  | resetProcessor => exact silently (changes (fun _ _ => rfl) fun _ => rfl)
  | load image => exact (matches_load none image).bind fun _ => .pure _
  | loadFile path => exact (matches_loadFile hop).bind fun _ => .pure _
  | poke address bytes =>
    exact silently (changes (f := fun b => { b with memory := b.memory.writeAll address bytes })
      (fun _ _ => rfl) fun _ => rfl)
  | assign settings => exact silently (.forM fun setting _ => matches_assign setting)
  | keyDown key => exact (matches_checkKey key).bind fun k => silently (matches_setKey true k)
  | keyUp key => exact (matches_checkKey key).bind fun k => silently (matches_setKey false k)
  | hostKey code down => exact (matches_hostKey code down).bind fun _ => .pure _
  | pixel x y =>
    refine .get_bind fun s t hst => ?_
    obtain ⟨random, hboard, -⟩ := hst.board
    rw [hboard]
    cases s.1.board.screen.pixel x y with
    | ok lit => exact .pure _
    | error cause => exact .throw _
  | setDirty dirty =>
    exact silently (changes (f := fun b => { b with screen := { b.screen with dirty } })
      (fun _ _ => rfl) fun _ => rfl)
  | program => exact matches_read fun _ _ hst => congrArg Reply.program hst.program
  | registers =>
    refine matches_read fun s t hst => ?_
    obtain ⟨random, hboard, -⟩ := hst.board
    rw [hboard]
    rfl
  | isDirty | screenText | dump | colours =>
    refine matches_read fun s t hst => ?_
    obtain ⟨random, hboard, -⟩ := hst.board
    rw [hboard]

end Twin

/-- **Twin consoles do the same**, whatever they are told, as long as files read the same. -/
theorem parallel (time : Int) (files files' : FileSystem) :
    Plant.Parallel time (Twin time files files') (Operation.ReadsAlike files files') where
  now _ _ hst := hst.now
  record _ _ hst e := hst.record e e
  pass s t hst nanoseconds := by
    refine { hst with now := ?_ }
    have hnow := hst.now
    show t.2.now + nanoseconds = s.2.now + nanoseconds + time
    omega
  cycle := (Twin.matches_advance Board.matches_cycle).bind fun _ => .pure _
  cycleScript _ _ _ hend := by
    rw [eq_of_bind_pure_eq_ok hend]
    trivial
  updateTimers clock := (Twin.matches_updateTimers clock).bind fun _ => .pure _
  timersScript clock s result s' hend := by
    obtain ⟨c, w⟩ := s
    simp only [Plant.updateTimers, run_bind, updateTimers_eq] at hend
    cases hend
    trivial
  reset := Twin.matches_reset
  operate _ hop := Twin.matches_operate hop

end Console

end Chip8
