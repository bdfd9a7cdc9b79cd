import Chip8.Proofs.Settings
import Chip8.Proofs.TimerTicks
import Chip8.Proofs.Twins

/-!
# Machines as good as new

A machine that was used for a while keeps more than can be seen: how many events were scheduled,
which timer chain was the last, when the clock was anchored, what is left in the queue. When it is
wiped, loaded and powered on, nothing of that matters any more. Whatever is done with it from then
on, it does what a new machine does that is loaded and powered on, as long as both draw the same
random bytes.

The argument goes forward to power-on first. Of a history, the settings are left, and a console that
a wipe makes as good as new. Power-on drops the queue and starts a new timer chain, whatever the
status was. From there on the two machines differ in their numbers only, and those cannot be
noticed.

## Main definitions

* `Console.Original`: the beeper and the colours of the screen are as at power-up
* `Machine.Used`: what any history leaves of a machine without sound
* `Machine.PlainlyUsed`: a history without listeners that sets nothing but the frequency

## Main statements

* `Console.wipe_eq`: a wipe leads back to power-up
* `Machine.used_after`: what any history leaves
* `Machine.good_as_new`: wiped, loaded and powered on, a machine does what a new one does
-/

namespace Chip8

/-! ## What a wipe does not touch -/

theorem Screen.palette_draw (s : Screen) (m : Memory) (a : Address) (x y : Int) (rows : Nat) :
    (finalState (s.draw m a x y rows)).palette = s.palette := by
  simp only [draw]
  cases firstMisplaced? (x / 8) y (if x / 8 < rowBytes then rows else 0) <;> rfl

namespace Board

theorem palette_execute (b : Board) (instruction : Instruction) :
    (finalState (b.execute instruction)).screen.palette = b.screen.palette := by
  cases instruction with
  | returnFromCall =>
    simp only [execute]
    cases b.registers.pop <;> rfl
  | call target =>
    simp only [execute]
    cases b.registers.push b.registers.advance.pc <;> rfl
  | draw x y rows =>
    have hpalette := b.screen.palette_draw b.memory b.registers.indexAddress
      (b.registers.v.get x).toNat (b.registers.v.get y).toNat rows.toNat
    simp only [execute, drawSprite]
    cases hdraw : b.screen.draw b.memory b.registers.indexAddress _ _ _ <;> rwa [hdraw] at hpalette
  | awaitKey x =>
    simp only [execute]
    cases b.keypad.firstDown <;> rfl
  | _ => rfl

theorem palette_step (b : Board) : (finalState b.step).screen.palette = b.screen.palette := by
  rw [step]
  split
  · rw [pollKey]
    cases b.keypad.firstDown with
    | none => rfl
    | some key =>
      simp only
      cases place 4 b.keyWait.register <;> rfl
  · exact b.palette_execute _

end Board

namespace Console

/-- The beeper is as at power-up but for its count, and the colours of the screen are. -/
structure Original (c : Console) : Prop where
  beeper : c.beeper.reset = {}
  palette : c.board.screen.palette = {}

theorem Original.silent {c : Console} (hc : c.Original) : c.beeper.enabled = false :=
  congrArg Beeper.enabled hc.beeper

theorem invariant_original : Invariant Original where
  aside _ _ _ _ _ _ hc := ⟨hc.beeper, hc.palette⟩
  step c hc := ⟨hc.beeper, c.board.palette_step.trans hc.palette⟩
  resetProcessor _ hc := ⟨hc.beeper, hc.palette⟩
  clear _ hc := ⟨hc.beeper, hc.palette⟩
  beep c w hc := by
    rw [beep_silent hc.silent]
    exact ⟨hc.beeper, hc.palette⟩
  forget _ hc := ⟨hc.beeper, hc.palette⟩
  setDirty _ _ hc := ⟨hc.beeper, hc.palette⟩

theorem screen_apply {setting : Setting} {b b' : Board} (h : setting.apply b = .ok b') :
    b'.screen = b.screen := by
  cases setting with
  | v x value =>
    simp only [Setting.apply] at h
    cases hplace : place 4 x <;> rw [hplace] at h <;> cases h
    rfl
  | stack slot value =>
    simp only [Setting.apply] at h
    cases hplace : place 4 slot <;> rw [hplace] at h <;> cases h
    rfl
  | _ =>
    cases h
    rfl

theorem original_assign (setting : Setting) : KeepsConsole Original (assign setting) := by
  refine .get_bind fun s hs => ?_
  cases happly : setting.apply s.1.board with
  | error cause => exact .throw _
  | ok board =>
    have hscreen : board.screen = s.1.board.screen := screen_apply happly
    exact .modify fun t ht => ⟨ht.beeper, by rw [← hs.palette, ← hscreen]⟩

/-- A console without sound keeps its beeper and its colours, whatever it is told. -/
theorem original_plantKeeps : Plant.Keeps Original fun _ : Operation => True :=
  invariant_original.plantKeeps fun _ _ => .forM fun setting _ => original_assign setting

/-- **A wipe leads back to power-up**, but for the random bytes. -/
theorem wipe_eq {c : Console} (hc : c.Original) : c.wipe = powerUp c.board.random false := by
  simp only [wipe, reset, hc.beeper, powerUp, Board.resetProcessor, Screen.clear, hc.palette]

end Console

/-! ## What any history leaves -/

namespace Machine

open Console (Operation Twin)

/-- The machine is without sound and without listeners. Its console is as good as new once it is
wiped, and its interval goes with its frequencies. -/
abbrev Used (f t : Int) (m : Machine) : Prop :=
  Host.Settled Console.Original ⟨.integer f, .integer t, maxCatchUp, max 1 (f / t).toNat⟩ m

/-- Of what a machine is told, nothing registers a listener or schedules an event, and nothing is
set but the frequency, to other positive integers. The commands may fail, apart from changes of the
frequency, which never do while the clock is short of `2 ^ 200` (`Host.exists_setFrequency`). -/
def PlainlyUsed : Machine → List (Command Operation) → Prop
  | _, [] => True
  | m, c :: cs =>
    (c.Plain ∨ ∃ f n, 0 < f ∧ c = .setFrequency (.integer f) ∧ Host.execute c m = .ok .nothing n) ∧
      PlainlyUsed (finalState (Host.execute c m)) cs

variable {m n fresh : Machine} {f t : Int}

theorem used_create {world : World} {random : RandomSource} (hf : 0 < f) (ht : 0 < t)
    (hcreate : create world random (.integer f) (.integer t) false = .ok m) : m.Used f t := by
  have hm :=
    (Host.create_eq (Console.powerUp random false) world hf ht maxCatchUp).symm.trans hcreate
  cases hm
  exact {
    plant := ⟨rfl, rfl⟩
    frequency := rfl
    timerFrequency := rfl
    maxCatchUp := rfl
    interval := rfl
    listeners := rfl
    known := rfl
    events := fun _ he => nomatch he }

theorem used_execute (hm : m.Used f t) {c : Command Operation} (hc : c.Plain) :
    Used f t (finalState (Host.execute c m)) := by
  have hkind : c.Every fun _ : Operation => True := Command.every_of_forall (fun _ => trivial) c
  exact (Host.settled_execute Console.modest Console.original_plantKeeps hc hkind).finalState hm

theorem used_setFrequency (hm : m.Used f t) (ht : 0 < t) {g : Int} (hg : 0 < g)
    (hend : Host.execute (.setFrequency (.integer g)) m = .ok .nothing n) : n.Used g t := by
  obtain ⟨_, k, hk, hsame⟩ := exists_of_bind_eq_ok (x := Host.setFrequency (.integer g)) hend
  cases hsame
  have hset := Host.settled_setFrequency hg ht rfl m hm
  rwa [hk] at hset

theorem used_after (hm : m.Used f t) (hf : 0 < f) (ht : 0 < t) {history : List (Command Operation)}
    (hhistory : m.PlainlyUsed history) : ∃ g, 0 < g ∧ (m.after history).Used g t := by
  induction history generalizing m f with
  | nil => exact ⟨f, hf, hm⟩
  | cons c cs ih =>
    obtain ⟨hc, hcs⟩ := hhistory
    rcases hc with hplain | ⟨g, n, hg, rfl, hend⟩
    · exact ih (used_execute hm hplain) hf hcs
    · have hn : Used g t n := used_setFrequency hm ht hg hend
      rw [hend] at hcs
      have hlater : m.after (.setFrequency (.integer g) :: cs) = after n cs := by
        rw [after, runAll, hend]
        rfl
      rw [hlater]
      exact ih hn hg hcs

/-! ## From power-on -/

/-- A console that is wiped is a twin of a new one. -/
theorem twin_wiped {c : Console} (hc : c.Original) (w world : World) {random : RandomSource}
    (hsame : random.SameBytes c.board.random) :
    Twin (w.now - world.now) world.files w.files (Console.powerUp random false, world)
      (c.wipe, w) := by
  rw [Console.wipe_eq hc]
  exact {
    board := ⟨c.board.random, rfl, hsame⟩
    beeper := rfl
    silent := rfl
    program := rfl
    now := by
      show w.now = world.now + (w.now - world.now)
      omega
    files := rfl
    files' := rfl }

/-- At power-on, a machine that has scheduled nothing before becomes the same as another, but for
their numbers. -/
theorem shifted_poweredOn {time : Int} {files files' : FileSystem} (hm : m.Used f t)
    (hn : n.Used f t) (htwin : Twin time files files' (m.plant, m.world) (n.plant, n.world))
    (hchain : m.chain = 0) (hscheduled : m.scheduled = 0) :
    Host.Shifted (Twin time files files') (Operation.ReadsAlike files files')
      ⟨n.chain, n.scheduled, time⟩ m.poweredOn n.poweredOn where
  plant := (Twin.matches_reset _ _ htwin).2
  status := rfl
  clock := rfl
  frequency := hn.frequency.trans hm.frequency.symm
  timerFrequency := hn.timerFrequency.trans hm.timerFrequency.symm
  maxCatchUp := hn.maxCatchUp.trans hm.maxCatchUp.symm
  anchor := htwin.now
  queue := by
    -- All that is in the queue is the first event of the new timer chain.
    have hnumber : (n.scheduled : Int) = (0 : Nat) + n.scheduled := by omega
    have hnext : n.chain + 1 = 0 + 1 + n.chain := by omega
    simp only [poweredOn, hchain, hscheduled, hn.interval, hm.interval, EventQueue.shift,
      List.map_cons, List.map_nil, Event.shift, Task.shift, ← hnumber, ← hnext]
  scheduled := by
    show n.scheduled + 1 = m.scheduled + 1 + n.scheduled
    omega
  interval := hn.interval.trans hm.interval.symm
  chainActive := rfl
  chain := by
    show n.chain + 1 = m.chain + 1 + n.chain
    omega
  listeners := hn.listeners.trans hm.listeners.symm
  known := hn.known.trans hm.known.symm
  queued e he := by
    rw [List.mem_singleton.1 he]
    trivial
  told l hl := by
    rw [show m.poweredOn.listeners = [] from hm.listeners] at hl
    exact absurd hl List.not_mem_nil
  named l hl := by
    rw [show m.poweredOn.known = [] from hm.known] at hl
    exact absurd hl List.not_mem_nil

/-- A used machine that is wiped, loaded and powered on is the same as a new one that is loaded and
powered on, but for their numbers. -/
theorem shifted_renewed {world : World} {random : RandomSource} {load : Operation} (hf : 0 < f)
    (ht : 0 < t) (hn : n.Used f t) (hsame : random.SameBytes n.plant.board.random)
    (hcreate : create world random (.integer f) (.integer t) false = .ok fresh)
    (hload : load.ReadsAlike world.files n.world.files) :
    Host.Shifted (Twin (n.world.now - world.now) world.files n.world.files)
      (Operation.ReadsAlike world.files n.world.files)
      ⟨n.chain, n.scheduled, n.world.now - world.now⟩
      (fresh.after [.operate load, .powerOn])
        (n.after [.operate .wipe, .operate load, .powerOn]) := by
  have hnew : fresh.plant = Console.powerUp random false ∧ fresh.world = world ∧ fresh.chain = 0 ∧
      fresh.scheduled = 0 := by
    have hm :=
      (Host.create_eq (Console.powerUp random false) world hf ht maxCatchUp).symm.trans hcreate
    cases hm
    exact ⟨rfl, rfl, rfl, rfl⟩
  obtain ⟨hplant, hworld, hchain, hscheduled⟩ := hnew
  -- Wiping and loading change the console and the world only.
  have hplain (op : Operation) : (Command.operate op).Plain := trivial
  have hfirst := used_execute (used_create hf ht hcreate) (hplain load)
  have hagain := used_execute (used_execute hn (hplain .wipe)) (hplain load)
  have hwiped : finalState (Host.execute (.operate .wipe) n) = { n with plant := n.plant.wipe } :=
    rfl
  have hchanged (m : Machine) : finalState (Host.execute (.operate load) m) = { m with
      plant := (finalState (Console.operate load (m.plant, m.world))).1
      world := (finalState (Console.operate load (m.plant, m.world))).2 } :=
        Host.finalState_onPlant _ _
  have htwin := (Twin.matches_operate hload _ _ (twin_wiped hn.plant n.world world hsame)).2
  have hpowered {m : Machine}
      (hm : m.Used f t) : finalState (Host.execute .powerOn m) = m.poweredOn := by
    rw [execute_powerOn hf hm.frequency]
    rfl
  show Host.Shifted _ _ _
    (finalState (Host.execute .powerOn (finalState (Host.execute (.operate load) fresh))))
    (finalState (Host.execute .powerOn
      (finalState (Host.execute (.operate load) (finalState (Host.execute (.operate .wipe) n))))))
  rw [hpowered hfirst, hpowered hagain]
  rw [hwiped, hchanged] at hagain
  rw [hchanged, hplant, hworld] at hfirst
  rw [hwiped, hchanged, hchanged, hplant, hworld]
  exact shifted_poweredOn hfirst hagain htwin hchain hscheduled

/-- **A machine that is wiped, loaded and powered on is as good as new**, whatever was done with it
before. -/
theorem good_as_new {world : World} {random : RandomSource} (hf : 0 < f) (ht : 0 < t)
    (hcreate : create world random (.integer f) (.integer t) false = .ok m)
    {history : List (Command Operation)} (hhistory : m.PlainlyUsed history) :
    let n := m.after history
    ∃ g, 0 < g ∧ n.frequency = .integer g ∧
      ∀ world' random', random'.SameBytes n.plant.board.random →
        ∃ fresh, create world' random' (.integer g) (.integer t) false = .ok fresh ∧
          ∀ (load : Operation) (further : List (Command Operation)),
            load.ReadsAlike world'.files n.world.files →
            Script.Every (·.ReadsAlike world'.files n.world.files) further →
            let renewed := n.after [.operate .wipe, .operate load, .powerOn]
            let first := fresh.after [.operate load, .powerOn]
            (runAll Host.execute further renewed).1 = (runAll Host.execute further first).1 ∧
              (renewed.after further).plant = { (first.after further).plant with
                board := { (first.after further).plant.board with
                  random := (renewed.after further).plant.board.random } } ∧
              (renewed.after further).clock = (first.after further).clock ∧
              (renewed.after further).status = (first.after further).status := by
  intro n
  obtain ⟨g, hg, hn⟩ := used_after (used_create hf ht hcreate) hf ht hhistory
  refine ⟨g, hg, hn.frequency, ?_⟩
  intro world' random' hsame
  have hcreate' : create world' random' (.integer g) (.integer t) false = _ :=
    Host.create_eq (Console.powerUp random' false) world' hg ht maxCatchUp
  refine ⟨_, hcreate', ?_⟩
  intro load further hload hfurther renewed first
  have hstart := shifted_renewed hg ht hn hsame hcreate' hload
  have hparallel := Console.parallel (n.world.now - world'.now) world'.files n.world.files
  obtain ⟨houtcomes, hend⟩ :=
    Host.alongside_runAll (d := ⟨n.chain, n.scheduled, n.world.now - world'.now⟩) hparallel
      hfurther hstart
  exact ⟨houtcomes.symm, hend.plant.console_eq, hend.clock, hend.status⟩

/-- A machine is told to run faster, draws random bytes, is paused, and starts anew with a program
that calls itself until it faults. -/
theorem good_as_new_paused :
    ∃ (m n fresh : Machine) (g : Int),
      create {} (.listed [7, 9] 0) (.integer 500) (.integer 60) false = .ok m ∧
      n = m.after [.setFrequency (.integer 700), .operate (.load [0xC0, 0xFF, 0x12, 0x00]),
        .powerOn, .tick 3, .pause] ∧
      create {} n.plant.board.random (.integer g) (.integer 60) false = .ok fresh ∧
      let renewed := n.after [.operate .wipe, .operate (.load [0x22, 0x00]), .powerOn]
      let first := fresh.after [.operate (.load [0x22, 0x00]), .powerOn]
      (renewed.after [.tick 20, .reset]).plant.board.registers =
          (first.after [.tick 20, .reset]).plant.board.registers ∧
        (renewed.after [.tick 20, .reset]).clock = (first.after [.tick 20, .reset]).clock := by
  obtain ⟨m, hcreate, htimer, hclock⟩ : ∃ m : Machine,
      create {} (.listed [7, 9] 0) (.integer 500) (.integer 60) false = .ok m ∧
        m.timerFrequency = .integer 60 ∧ m.clock = 0 :=
    ⟨_, Host.create_eq _ _ (by decide) (by decide) _, rfl, rfl⟩
  obtain ⟨k, hk⟩ := Host.exists_setFrequency (h := m) (f := 700) (by decide) (by decide) htimer
    (hclock ▸ Nat.zero_le _)
  have hfaster : Host.execute (.setFrequency (.integer 700)) m = .ok .nothing k := by
    show (Host.setFrequency (.integer 700) >>= fun _ => pure Reply.nothing) m = _
    rw [run_bind, hk]
    rfl
  have hhistory : m.PlainlyUsed [.setFrequency (.integer 700),
      .operate (.load [0xC0, 0xFF, 0x12, 0x00]), .powerOn, .tick 3, .pause] :=
    ⟨.inr ⟨700, k, by decide, rfl, hfaster⟩, .inl trivial, .inl trivial, .inl trivial,
      .inl trivial, trivial⟩
  obtain ⟨g, -, -, hrenewed⟩ := good_as_new (by decide) (by decide) hcreate hhistory
  obtain ⟨fresh, hfresh, hsame⟩ := hrenewed {} _ (.refl _)
  refine ⟨m, _, fresh, g, hcreate, rfl, hfresh, ?_⟩
  intro renewed first
  obtain ⟨-, hplant, hclock, -⟩ :=
    hsame (.load [0x22, 0x00]) [.tick 20, .reset] trivial ⟨trivial, trivial, trivial⟩
  refine ⟨?_, hclock⟩
  rw [hplant]

end Machine

end Chip8
