import Chip8.Proofs.Calm
import Chip8.Proofs.MachineInvariant

/-!
# Ticks in batches

A tick starts by looking for events that are due, so a batch of ticks that is split in two looks
once more. It never finds anything: whatever a host was told, and whatever came of it, nothing in
its queue is due when it is left alone. So a batch and its two parts do the same, also if a listener
stops the host in between, and if an instruction fails.

## Main definitions

* `Host.Resting`: nothing is due, and whatever comes next leaves it so

## Main statements

* `Host.resting_execute`: a command leaves nothing due, whether or not it fails
* `Machine.tick_add`: a batch of ticks does what its two parts do
-/

namespace Chip8

variable {σ Op : Type}

section

variable [Plant σ Op]

theorem Plant.keeps_true : Plant.Keeps (σ := σ) (fun _ => True) (fun _ : Op => True) where
  cycle := .of_forall (fun script _ => ⟨trivial, Script.every_of_forall (fun _ => trivial) script⟩)
    fun _ _ => trivial
  updateTimers _ :=
    .of_forall (fun result _ => ⟨trivial, Script.every_of_forall (fun _ => trivial) result.script⟩)
      fun _ _ => trivial
  reset := .of_forall (fun _ _ => trivial) fun _ _ => trivial
  operate _ _ := .of_forall (fun _ _ => trivial) fun _ _ => trivial

theorem Plant.stuck_true :
    Plant.Stuck (σ := σ) (fun _ => True) (fun _ : Op => True) (fun _ _ => True) where
  cycle := .of_forall (fun _ _ => trivial) fun _ _ _ _ => trivial
  updateTimers _ := .of_forall (fun _ _ => trivial) fun _ _ _ _ => trivial
  reset := .of_forall (fun _ _ => trivial) fun _ _ _ _ => trivial
  operate _ _ := .of_forall (fun _ _ => trivial) fun _ _ _ _ => trivial

end

namespace Host

/-- Nothing in the queue is due, the queue is in order, and timer ticks are at least a cycle
apart. -/
abbrev Resting (h : Host σ Op) : Prop := Calm (fun _ => True) (fun _ => True) h

theorem resting_create {plant : σ} {world : World} {frequency timerFrequency : Number}
    {maxCatchUp : Int} {h : Host σ Op}
    (hcreate : create plant world frequency timerFrequency maxCatchUp = .ok h) :
    h.Resting :=
  calm_create trivial hcreate

variable [Plant σ Op]

/-- A command leaves nothing due, whether or not it fails. -/
theorem resting_execute (c : Command Op) : Keeps Resting (execute c : HostM σ Op Reply) := by
  have hrests := rests_execute (σ := σ) Plant.keeps_true Plant.stuck_true
    (Command.every_of_forall (fun _ => trivial) c)
  exact hrests.consequence (fun _ hh => hh) (fun _ _ hh => hh) fun _ _ hh => hh.1

theorem resting_runAll {h : Host σ Op} (hh : h.Resting) (commands : List (Command Op)) :
    Resting (runAll execute commands h).2 :=
  keeps_runAll (fun c _ => resting_execute c) hh

/-- A batch of ticks does what its two parts do. -/
theorem execute_tick_add {h : Host σ Op} (hh : h.Resting) {i j : Int} (hi : 0 ≤ i) (hj : 0 ≤ j) :
    execute (.tick (i + j)) h = (execute (.tick i) >>= fun _ => execute (.tick j)) h := by
  have hfirst := resting_execute (.tick i) h hh
  have htotal : (i + j).toNat = i.toNat + j.toNat := Int.toNat_add hi hj
  rw [execute_tick_late hh.late] at hfirst
  rw [run_bind, execute_tick_late hh.late, execute_tick_late hh.late, htotal]
  simp only [run_bind, tickTimes_add] at hfirst ⊢
  cases hend : tickTimes (runner nestingLimit) i.toNat h with
  | ok _ k =>
    -- The second part starts with a look at the queue, where nothing is due.
    rw [hend] at hfirst
    have hrest : execute (.tick j) k = _ := execute_tick_late hfirst.late j
    exact hrest.symm
  | error e k => rfl

end Host

namespace Machine

theorem resting_after {m : Machine} (hm : Host.Resting m)
    (commands : List (Command Console.Operation)) :
    Host.Resting (m.after commands) :=
  Host.resting_runAll hm commands

/-- **Batches of ticks cannot be told apart.** After any commands, whether or not they failed, a
machine that is told to tick `i + j` times does what it does when told to tick `i` times and then,
unless that failed, `j` times: it answers or fails alike, and is left the same, with the same
journal of its world. -/
theorem tick_add {world : World} {random : RandomSource} {frequency timerFrequency : Number}
    {soundEnabled : Bool} {m : Machine}
    (hcreate : create world random frequency timerFrequency soundEnabled = .ok m)
    (commands : List (Command Console.Operation)) {i j : Int} (hi : 0 ≤ i) (hj : 0 ≤ j) :
    Host.execute (.tick (i + j)) (m.after commands) =
      (Host.execute (.tick i) >>= fun _ => Host.execute (.tick j)) (m.after commands) :=
  Host.execute_tick_add (resting_after (Host.resting_create hcreate) commands) hi hj

/-- A listener pauses the machine in the second of two batches. -/
theorem tick_add_paused :
    ∃ m, create {} (.listed [] 0) (.integer 500) (.integer 60) false = .ok m ∧
      let n := m.after [.addListener "stop" [.pause],
        .operate (.load [0x60, 1, 0xF0, 0x18, 0x12, 0x04]), .powerOn]
      Host.execute (.tick (5 + 20)) n =
        (Host.execute (.tick 5) >>= fun _ => Host.execute (.tick 20)) n := by
  refine ⟨_, Host.create_eq _ _ (by decide) (by decide) _, ?_⟩
  exact tick_add (Host.create_eq _ _ (by decide) (by decide) _) _ (by decide) (by decide)

end Machine

end Chip8
