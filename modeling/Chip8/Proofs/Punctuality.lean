import Chip8.Proofs.Cancellation
import Chip8.Proofs.Ledger

/-!
# Punctual events

Events whose scripts only leave their mark are carried out at the clock at which they are due, each
of them once, in the order of their clocks, and in that of scheduling at the same clock. For
whatever a host is told either leaves its ledger alone or enters an appointment into it, which is
kept at once if it is for now. A command that cancels closes the ledger: nothing waits, and a new
one is opened.

## Main definitions

* `Command.books`, `Host.made`: the appointments that commands make

## Main statements

* `Host.punctual_carryOut`: a command enters what it books into the ledger
* `Host.punctual_cancel`: a command that cancels closes it
* `Host.punctual`: events are carried out once, at their clocks and in order, unless they are
  cancelled
-/

namespace Chip8

open Appointment (inOrder filed)
open EventQueue (appointments)

variable {σ Op : Type}

/-- The appointment that the command makes at a clock. -/
def Command.books (clock : Nat) : Command Op → List Appointment
  | .schedule delay label _ => [⟨clock + max delay 0, label⟩]
  | _ => []

theorem Command.Passes.cancels {c : Command Op} (hc : c.Passes) (h : Host σ Op) :
    Command.cancels h c = false := by
  cases c with
  | powerOn | powerOff | reset | run cycles | applyPowerOff => exact hc.elim
  | _ => rfl

theorem Command.books_of_cancels {c : Command Op} {h : Host σ Op} (hc : Command.cancels h c = true)
    (clock : Nat) :
    c.books clock = [] := by
  cases c with
  | schedule delay label script => cases hc
  | _ => rfl

namespace Host

variable {I : σ → Prop} {past all : List Appointment} {h : Host σ Op}

/-! ## Commands -/

section

variable [Plant σ Op] {run : Runner σ Op}

/-- **An appointment** is made. If it is for now, it is kept at once. -/
theorem ledger_schedule (hnil : run [] = pure ()) (hh : Punctual I past all [] h) (delay : Int)
    (label : String) :
    Ledger past (all ++ [⟨h.clock + max delay 0, label⟩]) []
      (finalState (schedule run delay (.script label []) h)) := by
  obtain ⟨ran, hran, hall, hearly⟩ :=
    hh.2.inOrder_concat (a := ⟨h.clock + max delay 0, label⟩)
      (show (h.clock : Int) ≤ h.clock + max delay 0 by omega)
  by_cases hnow : delay ≤ 0
  · have hzero : max delay 0 = 0 := Int.max_eq_right hnow
    rw [hzero, Int.add_zero] at hall ⊢
    rw [schedule_of_nonpos hnow, schedule_now hh.1.late]
    simp only [perform, mark, run_bind, run_get, run_modify, hnil, run_pure, finalState]
    rw [Appointment.filed_of_later fun b hb => lt_of_mem_waiting hh.1.late hb] at hall
    refine ⟨fun _ he => absurd he List.not_mem_nil, ran ++ [⟨h.clock, label⟩], ?_, ?_, ?_⟩
    · rw [World.happened_record, hran, List.append_assoc]
      rfl
    · rw [hall, List.append_assoc]
      rfl
    · intro b hb
      rcases List.mem_append.1 hb with hb | hb
      · exact hearly b hb
      · exact Int.le_of_eq (congrArg Appointment.clock (List.mem_singleton.1 hb))
  · have hdelay : (delay.toNat : Int) = max delay 0 := by omega
    simp only [schedule, run_bind, enqueue, run_modify, if_neg hnow, run_pure, finalState]
    refine ⟨fun _ he => absurd he List.not_mem_nil, ran, hran, ?_, hearly⟩
    have hfiled : appointments
        (EventQueue.insertEvent ⟨h.clock + delay.toNat, h.scheduled, .script label []⟩
        h.queue.events) = filed ⟨h.clock + max delay 0, label⟩ h.waiting := by
      refine EventQueue.appointments_insertEvent ?_ hh.1.ordered hh.1.numbered
      rw [hdelay]
      rfl
    rw [hall, ← hfiled]
    rfl

section

variable (hdiscreet : Plant.Discreet (σ := σ) I)

include hdiscreet

variable (hnil : run [] = pure ()) (hrun : LeavesAlone run)

include hnil hrun

/-- **A command that cancels** closes the ledger: nothing has happened, and nothing waits. -/
theorem punctual_cancel (hh : Recording I [] h) {c : Command Op} (hc : c.cancels h = true) :
    Punctual I h.world.happened [] [] (finalState (carryOut run c h)) := by
  have hempty : Punctual I h.world.happened [] [] { h with queue := .empty } :=
    ⟨orderly_clearQueue.finalState hh, ledger_nil.2 ⟨rfl, rfl⟩⟩
  have hnow : Immediate run (Punctual I h.world.happened [] [])
      fun _ => Punctual I h.world.happened [] [] :=
    nothingDue_punctual.immediate
  have hoff := hnow.keepsOr_powerOff clearance_punctual.keepsOr_applyPowerOff
  have hrunning : Running run (Punctual I h.world.happened [] [])
      fun _ => Punctual I h.world.happened [] [] :=
    running_punctual hdiscreet hnil hrun
  have hroutine : c.Routine := by
    cases c with
    | powerOn | powerOff | reset | run cycles | applyPowerOff => trivial
    | _ => cases hc
  rw [carryOut_forget hh.late hc]
  refine Keeps.finalState (keepsOr_carryOut hnow ?_) hempty
  exact clearance_punctual.spares hrunning (punctual_onPlant hdiscreet.reset)
    (fun cycles => keeps_ensuring (hrunning.tick cycles) hoff) hroutine

/-- **A command that cancels nothing** enters what it books into the ledger. -/
theorem punctual_carryOut (hh : Punctual I past all [] h) {c : Command Op}
    (hbrings : c.Brings (· = []) (· = [])) (hc : c.cancels h = false) :
    Punctual I past (all ++ c.books h.clock) [] (finalState (carryOut run c h)) := by
  -- Whatever makes no appointment and spares the ledger keeps it.
  have kept (hspares : Spares run (Punctual I past all []) (fun _ => Punctual I past all []) c) :
      Punctual I past (all ++ []) [] (finalState (carryOut run c h)) := by
    rw [List.append_nil]
    exact Keeps.finalState (keepsOr_carryOut nothingDue_punctual.immediate hspares) hh
  cases c with
  | powerOn | reset | run cycles | applyPowerOff => cases hc
  | powerOff =>
    have hstopped : h.status = .stopped := by simpa [Command.cancels] using hc
    have hidle : carryOut run .powerOff h = .ok .nothing h := by
      show (powerOff run >>= fun _ => pure Reply.nothing) h = _
      simp only [powerOff, run_bind, run_get, hstopped]
      rfl
    rw [hidle]
    simpa only [Command.books, List.append_nil, finalState] using hh
  | schedule delay label script =>
    obtain rfl : script = [] := hbrings
    have hinert : ∀ script : Script Op, script = [] → Script.Inert script :=
      fun _ hscript => hscript ▸ Script.inert_nil
    show Punctual I past _ []
      (finalState ((schedule run delay _ >>= fun _ => pure Reply.nothing) h))
    rw [finalState_bind_pure]
    exact ⟨(orderly_schedule hrun hinert delay label rfl).finalState hh.1,
      ledger_schedule hnil hh delay label⟩
  | setFrequency frequency => exact kept (punctual_setFrequency frequency)
  | setMaxCatchUp cycles => exact kept fun _ hk => ⟨{ hk.1 with }, hk.2.congr rfl rfl rfl⟩
  | addListener name script =>
    exact kept (asksOfListeners_punctual.keepsOr_addListener name hbrings)
  | removeListener name =>
    exact kept (asksOfListeners_punctual.keepsOr_removeListener rfl (fun _ hk => hk) name)
  | operate op => exact kept (punctual_onPlant fun past => hdiscreet.operate past op)
  | _ =>
    exact kept (housekeeping_punctual.spares (running_punctual hdiscreet hnil hrun) trivial trivial)

end

/-! ## Runs of commands -/

/-- The appointments that commands make, each at the clock at which its command is carried out. -/
def made : Host σ Op → List (Command Op) → List Appointment
  | _, [] => []
  | h, c :: cs => c.books h.clock ++ made (finalState (execute c h)) cs

variable (hdiscreet : Plant.Discreet (σ := σ) I)

include hdiscreet

/-- Commands that cancel nothing enter what they book into the ledger, one after the other. -/
theorem punctual_runAll {commands : List (Command Op)}
    (hcommands : ∀ c ∈ commands, c.Passes ∧ c.Brings (· = []) (· = []))
    (hh : Punctual I past all [] h) :
    Punctual I past (all ++ made h commands) [] (runAll execute commands h).2 := by
  induction commands generalizing h all with
  | nil =>
    rw [made, List.append_nil]
    exact hh
  | cons c cs ih =>
    obtain ⟨hpasses, hbrings⟩ := hcommands c List.mem_cons_self
    have hnext := punctual_carryOut hdiscreet (runner_nil nestingLimit)
      (leavesAlone_runner nestingLimit) hh hbrings (hpasses.cancels h)
    rw [made, ← List.append_assoc]
    exact ih (fun d hd => hcommands d (List.mem_cons_of_mem c hd)) hnext

/-- What happens later is no more than what was made and what is made later. -/
theorem exists_happened {commands : List (Command Op)}
    (hcommands : ∀ c ∈ commands, c.Brings (· = []) (· = [])) (hh : Punctual I past all [] h) :
    ∃ ran, (runAll execute commands h).2.world.happened = past ++ ran ∧
      ran.Subperm (all ++ made h commands) := by
  induction commands generalizing h past all with
  | nil =>
    rw [made, List.append_nil]
    exact hh.2.exists_subperm
  | cons c cs ih =>
    have hbrings := hcommands c List.mem_cons_self
    have hrest : ∀ d ∈ cs, d.Brings (· = []) (· = []) :=
      fun d hd => hcommands d (List.mem_cons_of_mem c hd)
    by_cases hc : c.cancels h = true
    · obtain ⟨ran, hran, hfew⟩ := hh.2.exists_subperm
      have hclosed := punctual_cancel hdiscreet (runner_nil nestingLimit)
        (leavesAlone_runner nestingLimit) hh.1 hc
      obtain ⟨later, hlater, hfew'⟩ := ih hrest hclosed
      refine ⟨ran ++ later, ?_, ?_⟩
      · rw [← List.append_assoc, ← hran]
        exact hlater
      · rw [made, Command.books_of_cancels hc]
        exact ((List.subperm_append_left ran).2 hfew').trans ((List.subperm_append_right _).2 hfew)
    · have hentered := punctual_carryOut hdiscreet (runner_nil nestingLimit)
        (leavesAlone_runner nestingLimit) hh hbrings (Bool.not_eq_true _ ▸ hc)
      rw [made, ← List.append_assoc]
      exact ih hrest hentered

/-- **Events are punctual.** Take a host that was told anything, with no scripts for its events and
its listeners. From then on, as long as nothing is cancelled, the appointments that wait and those
that are made are kept once each, at their clocks, in the order of the clocks and at the same clock
in that in which they were made: what has happened is those of them that the clock has reached, and
what waits is the others. A command that cancels leaves none to wait, and whatever happens later is
an appointment that was made after it. -/
theorem punctual {plant : σ} {world : World} {frequency timerFrequency : Number} {maxCatchUp : Int}
    {start : Host σ Op} (hplant : I plant)
    (hcreate : create plant world frequency timerFrequency maxCatchUp = .ok start)
    {before : List (Command Op)} (hbefore : ∀ c ∈ before, c.Brings (· = []) (· = [])) :
    let h := (runAll execute before start).2
    (∀ commands : List (Command Op), (∀ c ∈ commands, c.Passes ∧ c.Brings (· = []) (· = [])) →
      let k := (runAll execute commands h).2
      let appointed := inOrder (h.waiting ++ made h commands)
      k.world.happened =
        h.world.happened ++ appointed.filter (fun a : Appointment => a.clock ≤ k.clock) ∧
        k.waiting = appointed.filter (fun a : Appointment => k.clock < a.clock)) ∧
    ∀ c, Command.cancels h c = true →
      let k := finalState (execute c h)
      k.world.happened = h.world.happened ∧ k.waiting = [] ∧
        ∀ more : List (Command Op), (∀ d ∈ more, d.Brings (· = []) (· = [])) →
          ∃ ran, (runAll execute more k).2.world.happened = k.world.happened ++ ran ∧
            ran.Subperm (made k more) := by
  intro h
  have hinert : ∀ script : Script Op, script = [] → Script.Inert script :=
    fun _ hscript => hscript ▸ Script.inert_nil
  have horderly : Recording I [] h :=
    orderly_runAll hdiscreet.undemanding hinert hinert rfl hbefore (orderly_create hplant hcreate)
  refine ⟨fun commands hcommands => ?_, fun c hc => ?_⟩
  · intro k appointed
    have hend : Punctual I h.world.happened (h.waiting ++ made h commands) [] k :=
      punctual_runAll hdiscreet hcommands ⟨horderly, ledger_waiting horderly.ordered⟩
    exact hend.2.filter_eq hend.1.late
  · intro k
    have hclosed : Punctual I h.world.happened [] [] k :=
      punctual_cancel hdiscreet (runner_nil nestingLimit)
        (leavesAlone_runner nestingLimit) horderly hc
    obtain ⟨hhappened, hwaiting⟩ := ledger_nil.1 hclosed.2
    refine ⟨hhappened, hwaiting, fun more hmore => ?_⟩
    rw [hhappened]
    exact exists_happened hdiscreet hmore hclosed

end

/-- Events on a bench, one of them for now, around a pause; and what waits is dropped by a reset. -/
theorem punctual_five :
    ∃ h : Host Bench Empty, create {} {} (.integer 500) (.integer 60) 5000 = .ok h ∧
      let k := (runAll execute [.powerOn, .schedule 5 "last" []] h).2
      let n := (runAll execute
        [.schedule 3 "fourth" [], .schedule 1 "first" [], .schedule 1 "second" [], .tick 2,
        .pause, .tick 5, .schedule (-1) "third" [], .resume, .setFrequency (.integer 700), .tick 9,
        .schedule 4 "to come" []] k).2
      n.world.happened = [⟨1, "first"⟩, ⟨1, "second"⟩, ⟨2, "third"⟩, ⟨3, "fourth"⟩, ⟨5, "last"⟩] ∧
        n.waiting = [⟨15, "to come"⟩] ∧ (finalState (execute .reset k)).waiting = [] := by
  have hcreate : (create {} {} (.integer 500) (.integer 60) 5000 : Except Failure
      (Host Bench Empty)) = _ :=
    create_eq _ _ (by decide) (by decide) _
  refine ⟨_, hcreate, ?_⟩
  intro k n
  have hbefore : ∀ c ∈ ([.powerOn, .schedule 5 "last" []] : List (Command Empty)),
      c.Brings (· = []) (· = []) := by
    simp [Command.Brings]
  obtain ⟨hpunctual, hcancel⟩ := punctual Bench.discreet ⟨rfl, rfl⟩ hcreate hbefore
  obtain ⟨hhappened, hwaiting⟩ := hpunctual [.schedule 3 "fourth" [], .schedule 1 "first" [],
    .schedule 1 "second" [], .tick 2, .pause, .tick 5, .schedule (-1) "third" [], .resume,
    .setFrequency (.integer 700), .tick 9, .schedule 4 "to come" []]
    (by simp [Command.Passes, Command.Brings])
  obtain ⟨-, hnone, -⟩ := hcancel .reset rfl
  exact ⟨hhappened.trans (by decide +kernel), hwaiting.trans (by decide +kernel), hnone⟩

end Host

end Chip8
