import Chip8.Proofs.SilentMachine
import Chip8.Proofs.Surroundings

/-!
# What a beep leaves behind

When the sound timer runs out, the beep is noted in the log and counted, and every listener is told,
in order. All of that can be read off the journal of the world, where the mixer may have left
something in between.

Listeners may do anything when they are told. Those that only look on leave the machine as it was.

## Main definitions

* `World.signals`: what tells of beeps in the journal
* `Host.alarm`: what one beep leaves there
* `Script.LooksOn`: the script changes nothing but the time

## Main statements

* `Script.looksOn_of_forall`: scripts that let time pass and read the console look on
* `Host.updateTimers_heard`: a tick of the timers, with all that is heard of it
-/

namespace Chip8

/-! ## Signals -/

/-- The entry is the record of a beep, or tells that a listener was told of one. -/
def Entry.isSignal : Entry → Bool
  | .notice (.beep _) => true
  | .mark (.listener _ _) => true
  | _ => false

namespace World

/-- What tells of beeps in the journal, in order. -/
def signals (w : World) : List Entry := w.journal.toList.filter Entry.isSignal

@[simp] theorem signals_record (w : World) (e : Entry) :
    (w.record e).signals = w.signals ++ if e.isSignal then [e] else [] := by
  cases hsignal : e.isSignal <;> simp [signals, record, hsignal]

theorem signals_note (w : World) (remark : Option Remark) :
    (w.note (remark.map .remark)).signals = w.signals := by
  cases remark with
  | none => rfl
  | some r => simp [note, Entry.isSignal]

/-- Sound leaves no signals but its own. -/
theorem audible_signals (past : List Entry) : Audible (·.signals = past) where
  soundDisabled w cause hw := by simpa [Entry.isSignal] using hw
  playbackFailed w cause hw := by simpa [Entry.isSignal] using hw
  call w c _ hw := by simpa [Entry.isSignal] using hw
  equip _ _ hw := hw

theorem signals_beep (w : World) (b : Beeper) (clock : Nat) :
    (b.beep (w.record (.notice (.beep clock)))).2.signals = w.signals ++ [.notice (.beep clock)] :=
  (audible_signals _).beep (by simp [Entry.isSignal]) b

end World

namespace Beeper

theorem beeps_prepare (b : Beeper) (w : World) : (b.prepare w).1.beeps = b.beeps := by
  rw [prepare]
  split
  · rfl
  · cases b.startMixer w with
    | error cause => rfl
    | ok w =>
      cases hsound : b.prepareSound w with
      | error cause => simp only [hsound, giveUp]
      | ok prepared => simp only [hsound]

/-- A beep is counted once, whether or not it is heard. -/
theorem beeps_beep (b : Beeper) (w : World) : (b.beep w).1.beeps = b.beeps + 1 := by
  have hprepared := beeps_prepare { b with beeps := b.beeps + 1 } w
  simp only [beep]
  split <;> exact hprepared

end Beeper

/-! ## Listeners that look on -/

open Console (Operation)

/-- Running the script from outside ends well, and changes nothing but the time. -/
def Script.LooksOn (script : Script Operation) : Prop :=
  ∀ m : Machine, ∃ now,
    Host.runner Host.nestingLimit script m = .ok () { m with world := { m.world with now } }

/-- The command lets time pass, or reads what can always be read. -/
def Command.OnlyLooks : Command Operation → Prop
  | .advance _ => True
  | .operate .program | .operate .isDirty | .operate .registers | .operate .screenText
  | .operate (.dump _) | .operate .colours => True
  | _ => False

theorem Command.OnlyLooks.carryOut {c : Command Operation} (hc : c.OnlyLooks)
    (run : Runner Console Operation) (m : Machine) :
    ∃ reply now, Host.carryOut run c m = .ok reply { m with world := { m.world with now } } := by
  cases c with
  | advance nanoseconds => exact ⟨_, _, rfl⟩
  | operate op =>
    cases op with
    | program | isDirty | registers | screenText | dump | colours => exact ⟨_, m.world.now, rfl⟩
    | _ => exact hc.elim
  | _ => exact hc.elim

/-- Scripts of such commands look on. -/
theorem Script.looksOn_of_forall {script : Script Operation} (hscript : ∀ c ∈ script, c.OnlyLooks) :
    LooksOn script := by
  intro m
  show ∃ now,
    (script.forM fun c => do let _ ← Host.carryOut (Host.runner (Host.nestingLimit - 1)) c) m = _
  induction script generalizing m with
  | nil => exact ⟨m.world.now, rfl⟩
  | cons c cs ih =>
    obtain ⟨reply, now, hc⟩ :=
      (hscript c List.mem_cons_self).carryOut (Host.runner (Host.nestingLimit - 1)) m
    obtain ⟨later, hcs⟩ := ih (fun d hd => hscript d (List.mem_cons_of_mem c hd))
      { m with world := { m.world with now } }
    refine ⟨later, ?_⟩
    show ((do let _ ← Host.carryOut (Host.runner (Host.nestingLimit - 1)) c) >>= fun _ =>
      cs.forM _) m = _
    simp only [run_bind, hc]
    exact hcs

/-! ## One tick of the timers -/

namespace Host

variable {Op : Type}

/-- What a beep at a clock leaves in the journal. -/
def alarm (clock : Nat) (listeners : List (Listener Op)) : List Entry :=
  .notice (.beep clock) :: listeners.map fun l => .mark (.listener l.name clock)

theorem tell_heard {l : Listener Operation} (hl : l.script.LooksOn) (m : Machine) :
    ∃ world, tell (runner nestingLimit) l m = .ok () { m with world } ∧
      world.signals = m.world.signals ++ [.mark (.listener l.name m.clock)] := by
  obtain ⟨now, hscript⟩ := hl { m with world := m.world.record (.mark (.listener l.name m.clock)) }
  refine ⟨_, hscript, ?_⟩
  exact (World.signals_record m.world _).trans rfl

/-- Listeners that look on are told one after the other. -/
theorem forM_tell_heard {listeners : List (Listener Operation)}
    (hlisteners : ∀ l ∈ listeners, l.script.LooksOn) (m : Machine) :
    ∃ world, listeners.forM (tell (runner nestingLimit)) m = .ok () { m with world } ∧
      world.signals = m.world.signals ++ listeners.map
        fun l => .mark (.listener l.name m.clock) := by
  induction listeners generalizing m with
  | nil => exact ⟨m.world, rfl, (List.append_nil _).symm⟩
  | cons l ls ih =>
    obtain ⟨world, htold, hsignals⟩ := tell_heard (hlisteners l List.mem_cons_self) m
    obtain ⟨world', hrest, hsignals'⟩ := ih (fun k hk => hlisteners k (List.mem_cons_of_mem l hk))
      { m with world }
    refine ⟨world', ?_, ?_⟩
    · show (tell (runner nestingLimit) l >>= fun _ => ls.forM _) m = _
      rw [run_bind, htold]
      exact hrest
    · rw [hsignals', hsignals, List.append_assoc]
      rfl

/-- A tick of the timers counts them down. If the sound timer runs out, the beep is counted and
noted, and the listeners are told. -/
theorem updateTimers_heard {m : Machine} (hlisteners : ∀ l ∈ m.listeners, l.script.LooksOn) :
    ∃ plant world, updateTimers (runner nestingLimit) m = .ok () { m with plant, world } ∧
      plant.board = { m.plant.board with timers := m.plant.board.timers.tick } ∧
      plant.beeper.beeps = m.plant.beeper.beeps + (if m.plant.board.timers.expiring then 1 else 0) ∧
      world.signals = m.world.signals ++ if m.plant.board.timers.expiring then
        alarm m.clock m.listeners else [] := by
  cases hexpiring : m.plant.board.timers.expiring with
  | false =>
    let plant : Console :=
      { m.plant with board := { m.plant.board with timers := m.plant.board.timers.tick } }
    refine ⟨plant, m.world, ?_, rfl, rfl, (List.append_nil _).symm⟩
    simp only [updateTimers, run_bind, run_get, onPlant, Plant.updateTimers,
      Console.updateTimers_eq, hexpiring, Bool.false_eq_true, if_false, run_pure, runner_nil]
    rfl
  | true =>
    let heard := m.plant.beeper.beep (m.world.record (.notice (.beep m.clock)))
    let plant : Console :=
      { m.plant with
        board := { m.plant.board with timers := m.plant.board.timers.tick },
        beeper := heard.1 }
    obtain ⟨world, htold, hsignals⟩ := forM_tell_heard hlisteners { m with plant, world := heard.2 }
    refine ⟨plant, world, ?_, rfl, Beeper.beeps_beep _ _, ?_⟩
    · simp only [updateTimers, run_bind, run_get, onPlant, Plant.updateTimers,
        Console.updateTimers_eq, hexpiring, if_true, run_pure, runner_nil]
      exact htold
    · rw [hsignals, World.signals_beep, List.append_assoc]
      rfl

end Host

end Chip8
