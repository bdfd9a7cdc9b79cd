import Chip8.Proofs.PlantSimulation

/-!
# Watching a plant

A watched plant keeps count of its instruction cycles, and a list of the ticks of its timers. A
plant does not know how far apart its timer ticks are to be, so what was in force at a tick is noted
by the host's runner of scripts: a host runs a script right after each tick of the timers, if only
an empty one.

Watching changes nothing. A host with a watched plant does what the same host does without.

## Main definitions

* `Watched`: a plant that is watched
* `Host.watcher`: a runner of scripts that takes notes
* `Host.watch`: a command from outside, watched

## Main statements

* `Host.alike_watch`, `Host.agree_watch`: commands do the same, watched or not
-/

namespace Chip8

variable {σ Op : Type}

/-- A tick of the timers that was seen. -/
structure TimerTick where
  /-- The instruction cycles completed before it. -/
  cycles : Nat
  /-- The interval in force. -/
  interval : Nat
  /-- The number of the timer chain it was part of. -/
  chain : Nat

structure Watched (σ : Type) where
  plant : σ
  /-- Instruction cycles completed. -/
  cycles : Nat := 0
  /-- How often the timers were told to tick. -/
  begun : Nat := 0
  /-- The ticks of the timers that were noted, in order. -/
  ticks : List TimerTick := []

namespace Watched

/-- The plant that is watched. -/
def part : Part (Watched σ) σ where
  get s := s.plant
  set s plant := { s with plant }
  get_set _ _ := rfl
  set_set _ _ _ := rfl

/-- A watched plant does what the plant does, and counts its cycles. -/
instance [Plant σ Op] : Plant (Watched σ) Op where
  cycle := do
    let script ← part.lift Plant.cycle
    modify fun (s, w) => ({ s with cycles := s.cycles + 1 }, w)
    return script
  updateTimers clock := do
    modify fun (s, w) => ({ s with begun := s.begun + 1 }, w)
    part.lift (Plant.updateTimers clock)
  reset := part.lift Plant.reset
  operate op := part.lift (Plant.operate op)

/-- The watched plant with the tick noted that was not yet, if there is one. -/
def note (s : Watched σ) (interval chain : Nat) : Watched σ :=
  if s.ticks.length < s.begun then
    { s with ticks := s.ticks ++ [⟨s.cycles, interval, chain⟩] } else s

end Watched

namespace Host

variable [Plant σ Op]

/-- Note what is in force at a tick of the timers that has just begun. -/
def note : HostM (Watched σ) Op Unit :=
  modify fun h => { h with plant := h.plant.note h.interval h.chain }

/-- Run scripts that run others up to a depth, and take notes before each. -/
def watcher : (depth : Nat) → Runner (Watched σ) Op
  | 0 => fun script => do
    note
    runner 0 script
  | depth + 1 => fun script => do
    note
    script.forM fun c => do
      let _ ← carryOut (watcher depth) c

/-- Carry out a command from outside, and watch what comes of it. -/
def watch (c : Command Op) : HostM (Watched σ) Op Reply := carryOut (watcher nestingLimit) c

end Host

/-! ## Watching changes nothing -/

namespace Watched

theorem simulates [Plant σ Op] :
    Plant.Simulates (σ := Watched σ) (τ := σ) part.Same (fun _ : Op => True) := by
  refine part.simulates ?_ (fun clock => ?_) (part.matches_lift _) fun op => part.matches_lift _
  · have hcount (script : Script Op) : Matches (part (σ := σ)).Same
        (modify (fun s => ({ s.1 with cycles := s.1.cycles + 1 }, s.2)) >>= fun _ => pure script)
        (pure script) :=
      part.matches_modify_bind (f := fun s => { s with cycles := s.cycles + 1 })
        (fun _ => rfl) (.pure _)
    have hcycle := (part.matches_lift (Plant.cycle : PlantM σ (Script Op))).bind hcount
    rwa [bind_pure] at hcycle
  · exact part.matches_modify_bind (f := fun s => { s with begun := s.begun + 1 }) (fun _ => rfl)
      (part.matches_lift _)

end Watched

namespace Host

variable [Plant σ Op]

/-- A host with a watched plant, and the same host without the watch. -/
abbrev Unwatched (h : Host (Watched σ) Op) (k : Host σ Op) : Prop :=
  Related Watched.part.Same (fun _ => True) h k

omit [Plant σ Op] in
theorem alike_note_bind {α : Type} {m : HostM (Watched σ) Op α} {m' : HostM σ Op α}
    (hm : Matches Unwatched m m') : Matches Unwatched (note >>= fun _ => m) m' := by
  intro h k hr
  refine hm _ k { hr with plant := ?_ }
  rw [hr.plant]
  simp only [Part.Same, Watched.part, Watched.note]
  split <;> rfl

theorem alike_watcher (depth : Nat) (script : Script Op) :
    Matches Unwatched (watcher depth script : HostM (Watched σ) Op Unit) (runner depth script) := by
  have hevery (script : Script Op) : Script.Every (fun _ => True) script :=
    Script.every_of_forall (fun _ => trivial) script
  induction depth generalizing script with
  | zero => exact alike_note_bind (alike_runner Watched.simulates 0 script (hevery script))
  | succ depth ih =>
    refine alike_note_bind (.forM fun c _ => ?_)
    have hc : c.Every fun _ => True := Command.every_of_forall (fun _ => trivial) c
    exact (alike_carryOut Watched.simulates (fun script _ => ih script) hc).bind fun _ => .pure _

/-- **A command does the same, watched or not.** -/
theorem alike_watch (c : Command Op) :
    Matches Unwatched (watch c : HostM (Watched σ) Op Reply) (execute c) :=
  alike_carryOut Watched.simulates (fun script _ => alike_watcher nestingLimit script)
    (Command.every_of_forall (fun _ => trivial) c)

theorem agree_watch (history : List (Command Op)) {h : Host (Watched σ) Op} {k : Host σ Op}
    (hr : Unwatched h k) :
    (runAll watch history h).1 = (runAll execute history k).1 ∧
      Unwatched (runAll watch history h).2 (runAll execute history k).2 :=
  agree_runAll alike_watch history hr

end Host

end Chip8
