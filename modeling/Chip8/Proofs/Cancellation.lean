import Chip8.Bench
import Chip8.Proofs.Batching

/-!
# Cancelled events

A reset drops all events, and so do power-on and power-off. Whatever waits in the queue then is as
if it had never been scheduled: the host goes on as one whose queue was empty before, in everything
that it does later. This holds from outside and inside the scripts of events and listeners, for
nothing is due wherever a command is carried out.

What waits in the queue is not all that is still to come, though. Events that are due together are
taken off the queue together, and one of them that resets the host does not keep the others from
being carried out.

## Main definitions

* `Command.cancels`: the command drops all that waits
* `Host.dropFor`: drop all that waits, if the command does

## Main statements

* `Host.carryOut_forget`: what waited makes no difference to a command that cancels
* `Host.cancelled_forgotten`: nor to anything later, from outside and at any place in a script
* `Host.cancelled_not_all`: an event that was due together with a reset is carried out after it
-/

namespace Chip8

variable {σ Op : Type}

/-- The command drops all that waits. A host that is stopped already takes no notice of
power-off. -/
def Command.cancels (h : Host σ Op) : Command Op → Bool
  | .powerOn | .reset | .run _ | .applyPowerOff => true
  | .powerOff => h.status ≠ .stopped
  | _ => false

namespace Host

/-- Drop all that waits, if the command does. -/
def dropFor (c : Command Op) : HostM σ Op Unit := do
  if c.cancels (← get) then clearQueue

variable [Plant σ Op] {run : Runner σ Op}

/-! ## One command -/

theorem reset_forget {h : Host σ Op} (hlate : h.queue.Late h.clock) :
    reset run h = reset run { h with queue := .empty } := by
  have hempty : schedule run 0 .reset { h with queue := .empty } = _ :=
    schedule_now (EventQueue.late_empty _) _
  rw [reset, schedule_now hlate, hempty]
  rfl

theorem powerOff_forget {h : Host σ Op} (hlate : h.queue.Late h.clock)
    (heffective : h.status ≠ .stopped) :
    powerOff run h = powerOff run { h with queue := .empty } := by
  have hempty : schedule run 0 .powerOff { h with queue := .empty } = _ :=
    schedule_now (EventQueue.late_empty _) _
  simp only [powerOff, run_bind, run_get, heffective, ne_eq, not_false_eq_true, if_true,
    schedule_now hlate, hempty]
  rfl

/-- A command that cancels does what it does where nothing waits. -/
theorem carryOut_forget {h : Host σ Op} (hlate : h.queue.Late h.clock) {c : Command Op}
    (hc : c.cancels h = true) : carryOut run c h = carryOut run c { h with queue := .empty } := by
  cases c with
  | powerOn => rfl
  | run cycles => rfl
  | applyPowerOff => rfl
  | reset =>
    show (reset run >>= fun _ => pure Reply.nothing) h =
      (reset run >>= fun _ => pure Reply.nothing) _
    rw [run_bind, run_bind, reset_forget hlate]
  | powerOff =>
    show (powerOff run >>= fun _ => pure Reply.nothing) h =
      (powerOff run >>= fun _ => pure Reply.nothing) _
    rw [run_bind, run_bind, powerOff_forget hlate (of_decide_eq_true hc)]
  | _ => cases hc

theorem dropFor_bind_carryOut {h : Host σ Op} (hlate : h.queue.Late h.clock) (c : Command Op) :
    (dropFor c >>= fun _ => carryOut run c) h = carryOut run c h := by
  by_cases hc : c.cancels h = true
  · simp only [dropFor, run_bind, run_get, hc, if_true]
    exact (carryOut_forget hlate hc).symm
  · simp only [dropFor, run_bind, run_get, hc]
    rfl

/-! ## Scripts and everything later -/

theorem resting_carryOut (depth : Nat) (c : Command Op) :
    Keeps Resting (carryOut (runner depth) c : HostM σ Op Reply) := by
  have hscripts := restsScripts_runner (σ := σ) Plant.keeps_true Plant.stuck_true depth
  have hrests := rests_carryOut (σ := σ) Plant.keeps_true Plant.stuck_true hscripts
    (Command.every_of_forall (fun _ => trivial) c)
  exact hrests.consequence (fun _ hh => hh) (fun _ _ hh => hh) fun _ _ hh => hh.1

/-- A script may as well drop what waits before each command that cancels. -/
theorem runner_forget {h : Host σ Op} (hh : h.Resting) (depth : Nat) (script : Script Op) :
    runner (depth + 1) script h = (script.forM fun c => do
      dropFor c
      let _ ← carryOut (runner depth) c) h := by
  induction script generalizing h with
  | nil => rfl
  | cons c cs ih =>
    have hdrop : (dropFor c >>= fun _ => carryOut (runner depth) c) h = _ :=
      dropFor_bind_carryOut hh.late c
    have hkeeps := resting_carryOut depth c h hh
    show ((carryOut (runner depth) c >>= fun _ => pure ()) >>= fun _ => runner (depth + 1) cs) h =
      ((dropFor c >>= fun _ => carryOut (runner depth) c >>= fun _ => pure ()) >>=
        fun _ => cs.forM _) h
    rw [← bind_assoc, run_bind, run_bind, run_bind, run_bind, hdrop]
    cases hend : carryOut (runner depth) c h with
    | ok reply k =>
      rw [hend] at hkeeps
      exact ih hkeeps
    | error e k => rfl

/-- **Cancelled events are forgotten.** Where nothing is due, as wherever a host is left alone and
wherever it carries out a command of a script, a command that cancels makes all that waits in the
queue as if it had never been scheduled: it and all commands after it, however they end, do what
they do with an empty queue. The same holds at every place in a script, at any depth. -/
theorem cancelled_forgotten {h : Host σ Op} (hh : h.Resting) :
    (∀ c, Command.cancels h c = true → ∀ more : List (Command Op),
      runAll execute (c :: more) h = runAll execute (c :: more) { h with queue := .empty }) ∧
    ∀ depth (script : Script Op), runner (depth + 1) script h = (script.forM fun c => do
      dropFor c
      let _ ← carryOut (runner depth) c) h := by
  refine ⟨fun c hc more => ?_, fun depth script => runner_forget hh depth script⟩
  have hforget : execute c h = execute c { h with queue := .empty } := carryOut_forget hh.late hc
  simp only [runAll, hforget]

/-- Two events wait when a running bench is reset. -/
theorem cancelled_forgotten_two :
    ∃ h : Host Bench Empty, create {} {} (.integer 500) (.integer 60) 5000 = .ok h ∧
      let k := (runAll execute [.powerOn, .schedule 3 "a" [.pause], .schedule 3 "b" []] h).2
      k.queue.events.map (·.clock) = [3, 3, 8] ∧
        runAll execute [.reset, .tick 10] k = runAll execute [.reset, .tick 10]
          { k with queue := .empty } := by
  have hcreate : (create {} {} (.integer 500) (.integer 60) 5000 : Except Failure
      (Host Bench Empty)) = _ :=
    create_eq _ _ (by decide) (by decide) _
  refine ⟨_, hcreate, by decide +kernel, ?_⟩
  exact (cancelled_forgotten (resting_runAll (resting_create hcreate) _)).1 .reset rfl [.tick 10]

/-- Of two events that are due together the first resets the bench, and the second, which was
scheduled before the reset, is carried out after it. -/
theorem cancelled_not_all :
    ∃ h : Host Bench Empty, create {} {} (.integer 500) (.integer 60) 5000 = .ok h ∧
      let k := (runAll execute [.powerOn, .schedule 1 "a" [.reset], .schedule 1 "b" []] h).2
      k.world.journal.toList = [.mark .processorReset] ∧
        (finalState (execute (.tick 1) k)).world.journal.toList =
          [.mark .processorReset, .mark (.event "a" 1), .mark .processorReset,
            .mark (.event "b" 0)] := by
  refine ⟨_, create_eq _ _ (by decide) (by decide) _, ?_⟩
  decide +kernel

end Host

end Chip8
