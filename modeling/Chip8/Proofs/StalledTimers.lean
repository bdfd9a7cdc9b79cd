import Chip8.Proofs.Orderly
import Chip8.Proofs.SilentMachine
import Chip8.Proofs.TimerTicks

/-!
# Stalled timers

The event of the timer chain is taken off the queue before the timers tick, and the next one is put
there only after all listeners were told of a beep. So a listener that fails leaves a host that runs
and takes its timer chain to be going, with no event of the chain in its queue. Nothing that ticks
do brings one back: from then on the host does what its bare instruction cycles do, and its timers
stand still.

## Main definitions

* `Host.Stalled`: the host runs, but no event of its timer chain is to come
* `Command.untimed`: the instruction cycles of a tick, without events

## Main statements

* `Host.stalled_of_tick`: a tick that a listener made fail leaves a host stalled
* `Host.stalled_tickTimes`: the ticks of a stalled host are its bare cycles
* `Machine.timers_stall`: after a failing listener, the timers of a machine stand still
* `Machine.timers_stall_not_armed`: there is no event of the timer chain after a listener has failed
-/

namespace Chip8

variable {σ Op : Type}

/-- The command lets the host tick, lets time pass, or concerns its plant only. -/
def Command.Proceeds : Command Op → Prop
  | .tick _ | .advance _ | .operate _ => True
  | _ => False

/-- The instruction cycles of a tick, without events. -/
def Command.untimed : Command Op → Command Op
  | .tick cycles => .cycle cycles.toNat
  | c => c

theorem Plant.Modest.undemanding [Plant σ Op] (hmodest : Plant.Modest σ) :
    Plant.Undemanding (σ := σ) (fun _ => True) where
  quiet := hmodest.quiet
  reset := .of_forall (fun _ _ => trivial) fun _ _ => trivial
  operate _ := .of_forall (fun _ _ => trivial) fun _ _ => trivial

namespace Host

/-- Nothing is scheduled but ticks of timer chains, and listeners do nothing but fail at most. -/
abbrev Plainly (current : Nat) (es : List (Event (Task Op))) (h : Host σ Op) : Prop :=
  Orderly (fun _ => True) (fun _ => False) Script.Inert current es h

/-- The host runs and takes its timer chain to be going, but no event of the chain is in its
queue. -/
structure Stalled (h : Host σ Op) : Prop extends Plainly 0 [] h where
  running : h.status = .running
  active : h.chainActive = true

variable [Plant σ Op] {run : Runner σ Op} {h k : Host σ Op}

/-! ## How the timers stall -/

section

variable (hmodest : Plant.Modest σ) (hrun : LeavesAlone run)

include hmodest hrun

/-- An event that fails is the tick of the current timer chain, and it is off the queue. -/
theorem stalled_of_perform {e : Event (Task Op)} {es : List (Event (Task Op))}
    (hh : Plainly 1 (e :: es) h) {cause : Failure}
    (hend : perform run e.payload h = .error cause k) : Stalled k := by
  have hkept := hh.kept e List.mem_cons_self
  cases hpayload : e.payload with
  | timers chain =>
    rw [hpayload] at hend
    rcases tickChain_cases hrun hmodest.undemanding.quiet hh.listeners trivial chain with
      ⟨-, heq⟩ | ⟨⟨rfl, hactive, hrunning⟩, l, hl, ⟨-, heq⟩ | ⟨cause', -, heq⟩⟩
    · rw [perform, heq] at hend
      cases hend
    · rw [perform, heq] at hend
      cases hend
    · have hnone : Plainly 0 es l :=
        (hh.drop_current (by rw [hpayload, Task.isTimers_timers])).around hl
      obtain ⟨s, -, rfl⟩ := hl
      rw [perform, heq] at hend
      cases hend
      exact { hnone.drop with running := hrunning, active := hactive }
  | _ =>
    rw [hpayload] at hkept
    exact hkept.elim

variable (hfaults : ∀ (h : Host σ Op) e k, cycle run h = .error e k → e.IsFault)

include hfaults

theorem dispatches_stalled :
    Dispatches run (fun _ es => Plainly 1 es)
      (fun e (h : Host σ Op) => ¬e.IsFault → Stalled h) where
  late _ _ hh := hh.late
  step _ _ hh := hh.step
  cycle _ := by
    rintro h ⟨hh, -⟩
    have hend := orderly_cycle hmodest.undemanding hrun h hh
    cases hcycle : cycle run h with
    | ok _ k =>
      rw [hcycle] at hend
      exact hend
    | error e k => exact fun hforeign => absurd (hfaults _ _ _ hcycle) hforeign
  perform _ e es := by
    intro h hh
    have hend := orderly_perform hmodest.undemanding hrun (fun _ hl => hl)
      (fun _ hq => hq.elim) e es h hh
    cases hperform : perform run e.payload h with
    | ok _ k =>
      rw [hperform] at hend
      exact hend
    | error cause k => exact fun _ => stalled_of_perform hmodest hrun hh hperform

/-- **A tick that a listener made fail** leaves the host stalled. -/
theorem stalled_of_tick (hh : Plainly 1 [] h) {cycles : Int} {e : Failure}
    (hend : tick run cycles h = .error e k) (hforeign : ¬e.IsFault) : Stalled k := by
  have htick := (dispatches_stalled hmodest hrun hfaults).ticking.hoare_tick cycles h hh
  rw [hend] at htick
  exact htick hforeign

end

/-! ## Ticks of a stalled host -/

omit [Plant σ Op] in
theorem forM_ok {α : Type} {f : α → HostM σ Op Unit} {as : List α}
    (hf : ∀ a ∈ as, f a h = .ok () h) :
    as.forM f h = .ok () h := by
  induction as with
  | nil => rfl
  | cons a as ih =>
    show (f a >>= fun _ => as.forM f) h = .ok () h
    rw [run_bind, hf a List.mem_cons_self]
    exact ih fun b hb => hf b (List.mem_cons_of_mem a hb)

omit [Plant σ Op] in
theorem Stalled.chainEvents_eq_nil (hh : Stalled h) : h.chainEvents = [] := by
  have hsingle := hh.single
  exact List.length_eq_zero_iff.1 (by omega)

/-- All that comes due in a stalled host is of former timer chains. -/
theorem Stalled.processEvents_eq (hh : Stalled h) (clock : Nat) :
    processEvents run { h with clock } = .ok () { h with clock, queue := h.queue.later clock } := by
  have hnone := hh.chainEvents_eq_nil
  show ((h.queue.due clock).forM fun e => perform run e.payload)
    { h with clock, queue := h.queue.later clock } = _
  refine forM_ok fun e he => ?_
  have hmem : e ∈ h.queue.events := h.queue.due_append_later clock ▸ List.mem_append_left _ he
  have hkept := hh.kept e hmem
  have hother := List.filter_eq_nil_iff.1 hnone e hmem
  cases hpayload : e.payload with
  | timers chain =>
    rw [hpayload, Task.isTimers_timers] at hother
    simp only [perform, tickChain, run_bind, run_get, hother, false_and, if_false]
    rfl
  | _ =>
    rw [hpayload] at hkept
    exact hkept.elim

omit [Plant σ Op] in
theorem Stalled.moveOn (hh : Stalled h) (s : σ × World) :
    Stalled { h with
      plant := s.1
      world := s.2
      clock := h.clock + 1
      queue := h.queue.later (h.clock + 1 : Nat) } :=
  { hh.step.drop with holds := trivial, running := hh.running, active := hh.active }

/-- The second host is the first, which is stalled, with another clock and other events. -/
def Beside (h k : Host σ Op) : Prop := Stalled h ∧ ∃ clock queue, k = { h with clock, queue }

section

variable (hmodest : Plant.Modest σ) (hnil : run [] = pure ())

include hmodest hnil

/-- An instruction cycle looks at the plant and the world only. -/
theorem cycle_eq_match (h : Host σ Op) :
    cycle run h = match (Plant.cycle : PlantM σ (Script Op)) (h.plant, h.world) with
      | .ok _ (plant, world) => .ok () { h with plant, world }
      | .error e (plant, world) => .error e { h with plant, world } := by
  simp only [cycle, run_bind, onPlant]
  cases hcycle : (Plant.cycle : PlantM σ (Script Op)) (h.plant, h.world) with
  | ok script s =>
    obtain rfl := hmodest.cycle _ _ _ hcycle
    simp only [hnil, run_pure]
  | error e s => rfl

/-- **The ticks of a stalled host** are its bare cycles. -/
theorem stalled_tickTimes (n : Nat) :
    Matches Beside (tickTimes run n) (cycleTimes run n : HostM σ Op Unit) := by
  induction n with
  | zero => exact .pure ()
  | succ n ih =>
    rintro h _ ⟨hh, clock, queue, rfl⟩
    rw [tickTimes_succ hh.running]
    show Agree Beside ((clockTick run >>= fun _ => tickTimes run n) h)
      ((cycle run >>= fun _ => cycleTimes run n) { h with clock, queue })
    have hcycle := cycle_eq_match hmodest hnil h
    have hbare := cycle_eq_match hmodest hnil { h with clock, queue }
    cases hend : (Plant.cycle : PlantM σ (Script Op)) (h.plant, h.world) with
    | ok script s =>
      simp only [hend] at hcycle hbare
      have hnext : Stalled { h with plant := s.1, world := s.2 } := { hh with holds := trivial }
      have hevents :
          processEvents run { h with plant := s.1, world := s.2, clock := h.clock + 1 } = _ :=
        hnext.processEvents_eq (h.clock + 1)
      simp only [run_bind, clockTick, clockedCycle, hcycle, hbare, run_modify, hevents]
      exact ih _ _ ⟨hh.moveOn s, clock, queue, rfl⟩
    | error e s =>
      simp only [hend] at hcycle hbare
      simp only [run_bind, clockTick, clockedCycle, hcycle, hbare]
      exact ⟨rfl, { hh with holds := trivial }, clock, queue, rfl⟩

omit hnil in
/-- Until somebody sees to it, a stalled host does what its bare cycles do. -/
theorem agree_untimed {c : Command Op} (hc : c.Proceeds) :
    Matches Beside (execute c : HostM σ Op Reply) (execute c.untimed) := by
  cases c with
  | tick cycles =>
    rintro h k hr
    rw [execute_tick_late hr.1.late]
    exact ((stalled_tickTimes hmodest (runner_nil nestingLimit) cycles.toNat).bind
      fun _ => .pure _) h k hr
  | advance nanoseconds =>
    rintro h _ ⟨hh, clock, queue, rfl⟩
    exact ⟨rfl, { hh with holds := trivial }, clock, queue, rfl⟩
  | operate op =>
    rintro h _ ⟨hh, clock, queue, rfl⟩
    show Agree Beside (onPlant (Plant.operate op) h)
      (onPlant (Plant.operate op) { h with clock, queue })
    simp only [onPlant]
    cases (Plant.operate op : PlantM σ Reply) (h.plant, h.world) with
    | ok reply s => exact ⟨rfl, { hh with holds := trivial }, clock, queue, rfl⟩
    | error e s => exact ⟨rfl, { hh with holds := trivial }, clock, queue, rfl⟩
  | _ => exact hc.elim

omit hnil in
theorem agree_runAll_untimed {more : List (Command Op)} (hmore : ∀ c ∈ more, c.Proceeds)
    (hr : Beside h k) :
    (runAll execute more h).1 = (runAll execute (more.map Command.untimed) k).1 ∧
      Beside (runAll execute more h).2 (runAll execute (more.map Command.untimed) k).2 := by
  induction more generalizing h k with
  | nil => exact ⟨rfl, hr⟩
  | cons c cs ih =>
    obtain ⟨houtcome, hnext⟩ := agree_untimed hmodest (hmore c List.mem_cons_self) h k hr
    obtain ⟨houtcomes, hend⟩ := ih (fun d hd => hmore d (List.mem_cons_of_mem c hd)) hnext
    exact ⟨congrArg₂ List.cons houtcome houtcomes, hend⟩

end

end Host

/-! ## Machines -/

namespace Machine

theorem isFault_of_cycle (m : Machine) {e : Failure} {n : Machine}
    (hend : Host.cycle (Host.runner Host.nestingLimit) m = .error e n) : e.IsFault := by
  obtain ⟨world, hcycle⟩ := Host.cycle_eq (Host.runner_nil Host.nestingLimit) m
  rw [hcycle] at hend
  cases hboard : m.plant.board.cycle with
  | ok remark board =>
    rw [hboard] at hend
    cases hend
  | error fault board =>
    rw [hboard] at hend
    cases hend
    exact ⟨fault, rfl⟩

/-- **A failing listener stops the timers.** Take a machine whose listeners do nothing but fail at
most, and for which nothing was scheduled, and let one of them fail in a tick. The machine still
runs and takes its timer chain to be going, but there is no event of the chain in its queue. From
then on its ticks are bare instruction cycles, in which the timers do not tick: they end alike and
leave the same console in the same world. -/
theorem timers_stall {world : World} {random : RandomSource} {frequency timerFrequency : Number}
    {soundEnabled : Bool} {m : Machine}
    (hcreate : create world random frequency timerFrequency soundEnabled = .ok m)
    {commands : List (Command Console.Operation)}
    (hbrings : ∀ c ∈ commands, c.Brings (fun _ => False) Script.Inert) {cycles : Int}
    {text : String} {k : Machine}
    (hfail : Host.execute (.tick cycles) (m.after commands) = .error (.raised text) k) :
    k.status = .running ∧ k.chainActive = true ∧ Host.chainEvents k = [] ∧
      ∀ more : List (Command Console.Operation), (∀ c ∈ more, c.Proceeds) →
        let ticked := runAll Host.execute more k
        let bare := runAll Host.execute (more.map Command.untimed) k
        ticked.1 = bare.1 ∧ ticked.2.plant = bare.2.plant ∧ ticked.2.world = bare.2.world := by
  have hplainly : Host.Plainly 1 [] (m.after commands) :=
    Host.orderly_runAll Console.modest.undemanding (fun _ hl => hl) (fun _ hq => hq.elim)
      Script.inert_nil hbrings (Host.orderly_create trivial hcreate)
  have htick : Host.tick (Host.runner Host.nestingLimit) cycles (m.after commands) =
      .error (.raised text) k :=
    bind_pure_eq_error_iff.1 hfail
  have hstalled : Host.Stalled k :=
    Host.stalled_of_tick Console.modest (Host.leavesAlone_runner _)
      (fun m _ _ => isFault_of_cycle m) hplainly htick (fun ⟨_, heq⟩ => nomatch heq)
  refine ⟨hstalled.running, hstalled.active, hstalled.chainEvents_eq_nil, ?_⟩
  intro more hmore ticked bare
  obtain ⟨houtcomes, -, clock, queue, hsame⟩ :=
    Host.agree_runAll_untimed Console.modest hmore (h := k) (k := k)
      ⟨hstalled, k.clock, k.queue, rfl⟩
  have hbare : bare.2 = { ticked.2 with clock, queue } := hsame
  refine ⟨houtcomes, ?_, ?_⟩
  · rw [hbare]
  · rw [hbare]

/-- A listener fails when the sound timer runs out, and the delay timer stands still. -/
theorem timers_stall_delay :
    ∃ m, create {} (.listed [] 0) (.integer 120) (.integer 60) false = .ok m ∧
      let n := m.after [.addListener "bad" [.raise "boom"], .powerOn,
        .operate (.assign [.awaitingKey true, .delay 5, .sound 1])]
      ∃ k, Host.execute (.tick 2) n = .error (.raised "boom") k ∧
        (runAll Host.execute [.tick 4] k).2.plant = (runAll Host.execute [.cycle 4] k).2.plant := by
  have hcreate : create {} (.listed [] 0) (.integer 120) (.integer 60) false = _ :=
    Host.create_eq _ _ (by decide) (by decide) _
  refine ⟨_, hcreate, ?_⟩
  intro n
  obtain ⟨k, hfail⟩ : ∃ k, Host.execute (.tick 2) n = .error (.raised "boom") k :=
    exists_of_outcome_eq_error (by decide +kernel)
  have hbrings : ∀ c ∈ ([.addListener "bad" [.raise "boom"], .powerOn,
      .operate (.assign [.awaitingKey true, .delay 5, .sound 1])] :
        List (Command Console.Operation)),
      c.Brings (fun _ => False) Script.Inert := by
    simp [Command.Brings, Script.Inert]
  obtain ⟨-, -, -, hlater⟩ := timers_stall hcreate hbrings hfail
  obtain ⟨-, hplant, -⟩ := hlater [.tick 4] (by simp [Command.Proceeds])
  exact ⟨k, hfail, hplant⟩

/-- After a listener has failed, the machine runs without an event of its timer chain, and the next
tick of the timers, which would be due two cycles later, does not come. -/
theorem timers_stall_not_armed :
    ∃ m, create {} (.listed [] 0) (.integer 120) (.integer 60) false = .ok m ∧
      let n := m.after [.addListener "bad" [.raise "boom"], .powerOn,
        .operate (.assign [.awaitingKey true, .delay 5, .sound 1]), .tick 2]
      n.status = .running ∧ n.chainActive = true ∧ (Host.chainEvents n).length = 0 ∧
        n.interval = 2 ∧
        n.plant.board.timers.delay = 4 ∧ (n.after [.tick 4]).plant.board.timers.delay = 4 := by
  refine ⟨_, Host.create_eq _ _ (by decide) (by decide) _, ?_⟩
  decide +kernel

end Machine

end Chip8
