import Chip8.Proofs.FaultAtomicity
import Chip8.Proofs.HeldKeys
import Chip8.Proofs.Surroundings

/-!
# Shutting the window down

However the frames of a window end, the machine in it is powered off and the toolkit shut down.
Power-off is an event like others, and it is carried out at once only when nothing else is due. So
what is needed is that nothing is due at any point where a frame can fail. The machine can then be
stopped right where the failure left it.

What the command says in the end is the message of the failure, for every one that is not a mistake
in what it was asked. A fault of the program is never such a mistake.

## Main definitions

* `World.calls`: the calls to the toolkit, in order
* `Window.Ready`: a machine that can be stopped at once, in a world where the toolkit was not shut
  down
* `Window.ShutDown`: what is left behind when the frames have ended

## Main statements

* `Window.lasts_ready`: the machine is ready at every point where the frames can end
* `Window.shutDown_of_ready`: then it is stopped, and the toolkit is shut down
* `Machine.window_shuts_down`: whatever the frames, however they end
-/

namespace Chip8

open Console (Operation)

/-! ## Calls to the toolkit -/

/-- The call that was made, if it was one. -/
def Entry.call? : Entry → Option Call
  | .call c => some c
  | _ => none

namespace World

/-- The calls to the toolkit that were not refused, in order. -/
def calls (w : World) : List Call := w.journal.toList.filterMap Entry.call?

@[simp] theorem calls_record (w : World) (e : Entry) :
    (w.record e).calls = w.calls ++ e.call?.toList := by
  cases hcall : e.call? <;> simp [calls, record, hcall]

/-- Since some calls were made, the toolkit was not shut down. -/
def OpenSince (past : List Call) (w : World) : Prop :=
  ∃ calls, w.calls = past ++ calls ∧ .quit ∉ calls

variable {past : List Call} {w : World}

theorem OpenSince.refl (w : World) : w.OpenSince w.calls := ⟨[], by simp, by simp⟩

theorem OpenSince.record (hw : w.OpenSince past) {e : Entry} (he : e ≠ .call .quit) :
    (w.record e).OpenSince past := by
  obtain ⟨calls, hcalls, hquit⟩ := hw
  refine ⟨calls ++ e.call?.toList, by rw [calls_record, hcalls, List.append_assoc], ?_⟩
  cases e with
  | call c =>
    have hne : c ≠ .quit := fun h => he (h ▸ rfl)
    simpa [Entry.call?, hquit] using hne.symm
  | notice | mark => simpa [Entry.call?] using hquit

theorem lasting_openSince (past : List Call) : Lasting (OpenSince past) where
  notice _ _ hw := hw.record nofun
  call w c hmixer hw := hw.record (by rintro ⟨⟩; exact hmixer)
  equip _ _ hw := hw

end World

namespace Window

variable {refuse : World → Call → Option Failure} {past : List Call} {setup : Setup}

/-! ## Ready to be stopped -/

/-- The machine is on, with nothing due. Since some calls were made, the toolkit was not shut
down. -/
structure Ready (past : List Call) (m : Machine) : Prop
    extends Host.Clockwork (fun s => s.2.OpenSince past) [] m where
  on : m.status ≠ .stopped

theorem Ready.still {status : Status} {m k : Machine}
    (hk : Host.Still (fun s => s.2.OpenSince past) status m k) (hstatus : status ≠ .stopped) :
    Ready past k := { hk with on := hk.status ▸ hstatus }

theorem keeps_pause_ready : Keeps (Ready past) (Host.pause run : MachineM Unit) := by
  intro m hm
  by_cases hrunning : m.status = .running
  · exact Host.still_pause.consequence (fun _ hk => hk) (fun _ _ hk => Ready.still hk nofun)
      (fun _ _ he => he) m (Host.still_refl hm.toArranged hrunning)
  · simp only [Host.pause, run_bind, run_get, if_neg hrunning]
    exact hm

theorem keeps_resume_ready : Keeps (Ready past) (Host.resume run : MachineM Unit) := by
  intro m hm
  by_cases hpaused : m.status = .paused
  · exact Host.still_resume.consequence (fun _ hk => hk) (fun _ _ hk => Ready.still hk nofun)
      (fun _ _ hk => Ready.still hk.1 nofun) m (Host.still_refl hm.toArranged hpaused)
  · simp only [Host.resume, run_bind, run_get, if_neg hpaused]
    exact hm

theorem keeps_call_ready {c : Call} (hc : c ≠ .quit) : Keeps (Ready past) (call refuse c) :=
  keepsOr_call (fun _ hm => { hm with holds := hm.holds.record fun h => hc (Entry.call.inj h) })
    fun _ _ hm _ => hm

theorem keeps_hostKey_ready (code : Int) (down : Bool) :
    Keeps (Ready past) (Host.onPlant (Console.hostKey code down) : MachineM Bool) := by
  intro m hm
  simp only [Host.onPlant, Console.hostKey_eq]
  exact { hm with holds := hm.holds }

theorem keeps_runUntilNow_ready : Keeps (Ready past) (Host.runUntilNow run : MachineM Int) := by
  intro m hm
  have hruns := Host.hoare_runUntilNow_clockwork (Host.leavesAlone_runner Host.nestingLimit)
    ((World.lasting_openSince past).quiet fun _ _ _ hw => hw.record nofun) hm.toArranged
  have hready (k : Machine)
      (hk : Host.Clockwork (fun s => s.2.OpenSince past) [] k ∧ Host.Ran m k) : Ready past k :=
    { hk.1 with on := hk.2.status ▸ hm.on }
  exact hruns.consequence (fun _ hk => hk) (fun _ k hk => hready k hk)
    (fun _ k hk => hready k hk) m rfl

/-- **The machine is ready at every point where the frames can end.** -/
theorem lasts_ready : Lasts refuse (fun _ => Ready past) (fun _ => Ready past) where
  idle _ _ _ _ hm := hm
  pause _ _ := keeps_pause_ready
  resume _ _ := keeps_resume_ready
  caption _ _ := keeps_call_ready nofun
  keyDown _ code _ _ := keeps_hostKey_ready code true
  keyUp _ code := keeps_hostKey_ready code false
  pass _ _ _ hm := { hm with holds := hm.holds }
  runUntilNow _ := keeps_runUntilNow_ready
  refresh _ := keepsOr_refresh (fun _ hm => ⟨hm, hm⟩) (fun _ => keeps_call_ready nofun)
    (keeps_call_ready nofun) (fun _ hm => { hm with holds := hm.holds })
  clockTick _ _ := keeps_call_ready nofun

/-- **What is ready is stopped at once**, and the toolkit is shut down if that does not fail. -/
theorem closed_of_ready {m : Machine} (hm : Ready past m) (hquit : refuse m.world .quit = none) :
    close refuse m = .ok () { m with
      status := .stopped
      chainActive := false
      queue := .empty
      scheduled := m.scheduled + 1
      world := m.world.record (.call .quit) } := by
  rw [close, run_bind, Host.powerOff_late hm.late hm.on]
  simp only [call, run_bind, run_get, hquit]
  rfl

theorem keeps_frames_ready (fs : List Frame) : Keeps (Ready past) (frames refuse setup fs) :=
  (lasts_ready.hoare_frames fs).consequence (fun _ hm => hm) (fun _ _ ⟨_, hm⟩ => hm)
    fun _ _ hm => hm

/-- The frames have ended, and so has what comes after them: no failure is lost, the machine is
stopped with an empty queue and otherwise left as it was, and since some calls were made, the
toolkit was shut down once, after all other calls. -/
structure ShutDown (past : List Call) (left closed : EStateM.Result Failure Machine Unit) :
    Prop where
  outcome : outcome closed = outcome left
  status : (finalState closed).status = .stopped
  queue : (finalState closed).queue = .empty
  plant : (finalState closed).plant = (finalState left).plant
  clock : (finalState closed).clock = (finalState left).clock
  calls : ∃ calls, (finalState closed).world.calls = past ++ calls ++ [.quit] ∧ .quit ∉ calls

/-- **A machine that is ready is shut down**, however the frames end. -/
theorem shutDown_of_ready {m : Machine} (hm : Ready past m) (fs : List Frame)
    (hquit : refuse (finalState (frames refuse setup fs m)).world .quit = none) :
    ShutDown past (frames refuse setup fs m)
      (Host.ensuring (frames refuse setup fs) (close refuse) m) := by
  have hleft : Ready past (finalState (frames refuse setup fs m)) :=
    (keeps_frames_ready fs).finalState hm
  obtain ⟨houtcome, hclosed⟩ := Host.ensuring_eq (closed_of_ready hleft hquit)
  obtain ⟨calls, hcalls, hopen⟩ := hleft.holds
  have hquitted := World.calls_record (finalState (frames refuse setup fs m)).world (.call .quit)
  rw [hcalls] at hquitted
  exact {
    outcome := houtcome
    status := by rw [hclosed]
    queue := by rw [hclosed]
    plant := by rw [hclosed]
    clock := by rw [hclosed]
    calls := ⟨calls, by rw [hclosed]; exact hquitted, hopen⟩ }

/-! ## Faults of the program -/

/-- If a frame fails with a fault, the next instruction does. The toolkit knows nothing of
faults. -/
theorem lasts_calm (hrefuse : ∀ w c fault, refuse w c ≠ some (.fault fault)) :
    Lasts refuse (fun _ => Machine.Calm) (fun e m => m.Calm ∧ Blames Console.Faults e m.plant) := by
  have hcall {c : Call} : Host.Rests Console.WellFormed Operation.Ordinary Console.Faults
      (call refuse c) :=
    keepsOr_call (fun _ hm => { hm with })
      fun m _ hm hcause => ⟨hm, blames_of_ne (fun fault he => hrefuse _ _ fault (he ▸ hcause)) _⟩
  have hkey (code : Int) (down : Bool) : Host.Rests Console.WellFormed Operation.Ordinary
      Console.Faults (Host.onPlant (Console.hostKey code down)) :=
    Host.rests_onPlant (Console.invariant_wellFormed.toSteady.keeps_hostKey code down)
      (Console.faultless_hostKey code down).stuck
  have hnow : Host.Immediate (Host.runner Host.nestingLimit) Machine.Calm
      (fun e (m : Machine) => m.Calm ∧ Blames Console.Faults e m.plant) :=
        Host.nothingDue_calm.immediate
  have hrunning := Host.running_calm Console.plantKeeps Console.plantStuck
    (Host.restsScripts_runner Console.plantKeeps Console.plantStuck Host.nestingLimit)
  exact {
    idle := fun _ _ _ _ hm => hm
    pause := fun _ _ => hnow.keepsOr_pause Host.clearance_calm.keepsOr_applyPause
    resume := fun _ _ => hnow.keepsOr_resume Host.clearance_calm.keepsOr_applyResume
    caption := fun _ _ => hcall
    keyDown := fun _ code _ _ => hkey code true
    keyUp := fun _ code => hkey code false
    pass := fun _ _ _ hm => { hm with }
    runUntilNow :=
      fun _ => Host.keepsOr_runUntilNow Host.clearance_calm.keepsOr_cyclesDue hrunning.tick
    refresh := fun _ => keepsOr_refresh (fun _ hm => ⟨⟨hm, nofun⟩, ⟨hm, nofun⟩⟩)
      (fun _ => hcall) hcall
      (fun _ hm => { hm with holds := Console.invariant_wellFormed.setDirty _ false hm.holds })
    clockTick := fun _ _ => hcall }

/-! ## From opening on -/

theorem openSince_opened (w : World) (scale : Int) (program : Option Program) :
    (opened w scale program).OpenSince w.calls := by
  have hinit : (w.record (.call .init)).OpenSince w.calls := (World.OpenSince.refl w).record nofun
  have hmode :=
    hinit.record (e := .call (.setMode (Screen.width * scale) (Screen.height * scale))) nofun
  exact hmode.record nofun

section

variable {m on : Machine} {scale fps : Int} (hopen : opening refuse scale fps m = .ok setup on)

include hopen

theorem ready_opened (hinterval : 1 ≤ m.interval)
    (hinert : ∀ l ∈ m.listeners, Script.Inert l.script) :
    Ready m.world.calls on := by
  obtain ⟨-, anchor, hon⟩ := exists_of_opening_eq_ok hopen
  have hholds : on.world.OpenSince m.world.calls := by
    rw [hon]
    exact openSince_opened m.world scale m.plant.program
  have hrunning : on.status = .running := by
    rw [hon]
    rfl
  have hclockwork : Host.Clockwork (fun s => s.2.OpenSince m.world.calls) [] on :=
    clockwork_opened hinterval hinert hopen hholds
  exact { hclockwork with on := by rw [hrunning]; decide }

theorem calm_opened (hm : m.Calm) : on.Calm := by
  obtain ⟨-, anchor, rfl⟩ := exists_of_opening_eq_ok hopen
  exact { hm with
    holds := Console.wellFormed_reset _
    queue := fun e he => by
      rw [Machine.timers_of_mem_poweredOn he]
      trivial
    ordered := Machine.ordered_poweredOn _
    late := Machine.late_poweredOn (m := { m with world := _ }) hm.interval }

theorem session_eq (fs : List Frame) :
    session refuse scale fps fs m = Host.ensuring (frames refuse setup fs) (close refuse) on := by
  rw [session, run_bind, hopen]

end

/-- The journal of a session, as the command that opened it shows it. -/
def shown (request : Request) (closed : EStateM.Result Failure Machine Unit) : List Entry :=
  visible (if request.verbose then .debug else .info) (finalState closed).world.journal

section

variable {request : Request} {world : World} {unseeded : RandomSource} {fs : List Frame}
  {m n : Machine}
  {program : Program}
  (hcreate : Machine.create world ((request.seed.map RandomSource.ofSeed).getD unseeded)
    (.integer request.rate) (.integer Machine.timerRate) request.sound = .ok m)
  (hload : (Host.onPlant (Console.loadFile (Path.ofString request.rom)) : MachineM Program) m =
    .ok program n)

include hcreate hload

/-- Once the program is loaded, the command ends as its session does. -/
theorem perform_eq :
    perform refuse request world fs unseeded =
      match outcome (session refuse request.scale request.fps fs n) with
      | .ok _ => .ok {
          exit := .normal,
          journal := shown request (session refuse request.scale request.fps fs n) }
      | .error cause =>
        if cause.isOperational then .ok {
          exit := .message cause.message
          journal := shown request (session refuse request.scale request.fps fs n) }
        else .error cause := by
  simp only [perform, hcreate, bind, Except.bind, EStateM.bind, hload]
  cases session refuse request.scale request.fps fs n <;> rfl

/-- Loading leaves a new machine calm, and nobody listens to it. -/
theorem calm_loaded : n.Calm ∧ n.listeners = [] := by
  generalize Path.ofString request.rom = path at hload
  have hrests : Host.Rests Console.WellFormed Operation.Ordinary Console.Faults
      (Host.onPlant (Console.loadFile path)) :=
    Host.rests_onPlant (Console.invariant_wellFormed.toSteady.keeps_loadFile path)
      (Console.faultless_loadFile path).stuck
  have hcalm := hrests m (Machine.calm_create hcreate)
  have hloaded := Host.finalState_onPlant (Console.loadFile path) m
  obtain ⟨-, interval, anchor, -, -, rfl⟩ := Host.create_eq_ok_iff.1 hcreate
  rw [hload] at hcalm hloaded
  exact ⟨hcalm, congrArg Host.listeners hloaded⟩

end

/-- A fault of the program is an operational failure. -/
theorem isOperational_of_fault {m : Machine} {fs : List Frame}
    (hrefuse : ∀ w c fault, refuse w c ≠ some (.fault fault)) (hm : m.Calm) {fault : Fault}
    (hleft : outcome (frames refuse setup fs m) = .error (.fault fault)) :
    (Failure.fault fault).isOperational = true := by
  have hcalm : Hoare _ (frames refuse setup fs) _ _ := (lasts_calm hrefuse).hoare_frames fs
  have hframes := hcalm m hm
  obtain ⟨k, hend⟩ := exists_of_outcome_eq_error hleft
  rw [hend] at hframes
  obtain ⟨-, ⟨-, -, rfl⟩ | ⟨-, -, rfl⟩⟩ := hframes.2 fault rfl
  · rfl
  · rfl

end Window

namespace Machine

/-- **The window shuts down cleanly.** When it was opened on a new machine that was told anything
but to do something at each beep, and its frames end in whatever way, the machine is stopped and the
toolkit is shut down, once and after all other calls. When the window is opened by a command that
has loaded its program, the command ends normally if the frames did. For every fault of the program
and every other operational failure it ends with the message of that. -/
theorem window_shuts_down {refuse : World → Call → Option Failure}
    (hrefuse : ∀ w c fault, refuse w c ≠ some (.fault fault)) :
    (∀ {world random frequency timerFrequency soundEnabled} {m : Machine},
      create world random frequency timerFrequency soundEnabled = .ok m →
      ∀ commands, let n := m.after commands
      (∀ l ∈ n.listeners, Script.Inert l.script) →
      ∀ {scale fps setup on}, Window.opening refuse scale fps n = .ok setup on → ∀ fs,
        let left := Window.frames refuse setup fs on
        refuse (finalState left).world .quit = none →
        Window.ShutDown n.world.calls left (Window.session refuse scale fps fs n)) ∧
    ∀ {request : Window.Request} {world unseeded} {m n : Machine} {program},
      create world ((request.seed.map RandomSource.ofSeed).getD unseeded) (.integer request.rate)
        (.integer timerRate) request.sound = .ok m →
      (Host.onPlant (Console.loadFile (Path.ofString request.rom)) : MachineM Program) m =
        .ok program n →
      ∀ {setup on}, Window.opening refuse request.scale request.fps n = .ok setup on → ∀ fs,
        let left := Window.frames refuse setup fs on
        let closed := Window.session refuse request.scale request.fps fs n
        let journal := Window.shown request closed
        let ends := Window.perform refuse request world fs unseeded
        refuse (finalState left).world .quit = none →
        Window.ShutDown n.world.calls left closed ∧
        (outcome left = .ok () → ends = .ok { exit := .normal, journal }) ∧
        ∀ cause, outcome left = .error cause →
          (cause.isOperational = true ∨ ∃ fault, cause = .fault fault) →
          ends = .ok { exit := .message cause.message, journal } := by
  constructor
  · intro world random frequency timerFrequency soundEnabled m hcreate commands n hinert scale fps
      setup on hopen fs left hquit
    rw [Window.session_eq hopen]
    exact Window.shutDown_of_ready
      (Window.ready_opened hopen (one_le_interval_after hcreate commands) hinert) fs hquit
  · intro request world unseeded m n program hcreate hload setup on hopen fs left
      closed journal ends hquit
    obtain ⟨hcalm, hlisteners⟩ := Window.calm_loaded hcreate hload
    have hready := Window.ready_opened hopen hcalm.interval
      (by rw [hlisteners]; exact List.forall_mem_nil _)
    have hdown := Window.shutDown_of_ready hready fs hquit
    rw [← Window.session_eq hopen] at hdown
    have hends : Window.perform refuse request world fs unseeded = _ :=
      Window.perform_eq hcreate hload
    rw [hdown.outcome] at hends
    refine ⟨hdown, ?_, ?_⟩
    · intro hleft
      simpa only [left, hleft] using hends
    · intro cause hleft hcause
      have hoperational : cause.isOperational = true := by
        rcases hcause with hoperational | ⟨fault, rfl⟩
        · exact hoperational
        · exact Window.isOperational_of_fault hrefuse (Window.calm_opened hopen hcalm) hleft
      simpa only [left, hleft, if_pos hoperational] using hends

/-- The clock fails in a machine that was just paused. And a command runs a program that is a single
return. -/
theorem window_shuts_down_failing :
    (∃ (m on : Machine) (setup : Window.Setup),
      create { toolkit := some { failing := ["clock.tick"] } } (.listed [] 0) (.integer 500)
        (.integer 60) false = .ok m ∧
      let n := m.after [.operate (.load [0x12, 0x00])]
      (∀ l ∈ n.listeners, Script.Inert l.script) ∧
      Window.opening World.refusal 2 60 n = .ok setup on ∧
      let left := Window.frames World.refusal setup [⟨0, [.keyDown Window.pauseKey]⟩] on
      outcome left = .error (.callFailed "clock.tick") ∧
      World.refusal (finalState left).world .quit = none ∧
      Window.ShutDown n.world.calls left
        (Window.session World.refusal 2 60 [⟨0, [.keyDown Window.pauseKey]⟩] n)) ∧
    ∃ journal, Window.perform World.refusal
      { rom := "r", scale := 2, fps := 60, rate := 500, sound := false, seed := none,
        verbose := false }
      { files := FileTree.system { entries := [(["r"], .file [0x00, 0xEE])] }, toolkit := some {} }
      [⟨20000000, []⟩] (.listed [] 0) =
        .ok { exit := .message "return with empty stack at 0x200", journal } := by
  have hrefuse : ∀ w c fault, World.refusal w c ≠ some (.fault fault) := by
    intro w c fault
    rw [World.refusal]
    split
    · nofun
    · split <;> nofun
  obtain ⟨hsession, hperform⟩ := window_shuts_down hrefuse
  constructor
  · let commands : List (Command Operation) := [.operate (.load [0x12, 0x00])]
    let fs : List Window.Frame := [⟨0, [.keyDown Window.pauseKey]⟩]
    have hcreate : create { toolkit := some { failing := ["clock.tick"] } } (.listed [] 0)
        (.integer 500) (.integer 60) false = _ :=
      create_eq _ _ (by decide) (by decide) _
    obtain ⟨m, hcreate, hlisteners, hopen, hleft, hquit⟩ : ∃ m : Machine,
        create { toolkit := some { failing := ["clock.tick"] } } (.listed [] 0) (.integer 500)
          (.integer 60) false = .ok m ∧
        (m.after commands).listeners.isEmpty = true ∧
        (outcome (Window.opening World.refusal 2 60 (m.after commands))).isOk = true ∧
        let left := (do Window.frames World.refusal (← Window.opening World.refusal 2 60) fs)
          (m.after commands)
        outcome left = .error (.callFailed "clock.tick") ∧
        World.refusal (finalState left).world .quit = none :=
      ⟨_, hcreate, by decide +kernel, by decide +kernel, by decide +kernel, by decide +kernel⟩
    have hinert : ∀ l ∈ (m.after commands).listeners, Script.Inert l.script := by
      rw [List.isEmpty_iff.1 hlisteners]
      exact List.forall_mem_nil _
    obtain ⟨setup, on, hopen⟩ := exists_of_isOk hopen
    rw [run_bind, hopen] at hleft hquit
    exact ⟨m, on, setup, hcreate, hinert, hopen, hleft, hquit,
      hsession hcreate commands hinert hopen fs hquit⟩
  · let request : Window.Request :=
      { rom := "r", scale := 2, fps := 60, rate := 500, sound := false, seed := none,
        verbose := false }
    let world : World :=
      { files := FileTree.system { entries := [(["r"], .file [0x00, 0xEE])] }, toolkit := some {} }
    let load : MachineM Program := Host.onPlant (Console.loadFile (Path.ofString request.rom))
    have hcreate : create world (.listed [] 0) (.integer request.rate) (.integer timerRate)
        request.sound = _ :=
      create_eq _ _ (by decide) (by decide) _
    obtain ⟨m, hcreate, hopened, hleft, hquit⟩ : ∃ m : Machine,
        create world (.listed [] 0) (.integer request.rate) (.integer timerRate)
          request.sound = .ok m ∧
        (outcome ((load >>= fun _ => Window.opening World.refusal request.scale request.fps)
          m)).isOk = true ∧
        let left := (do
          let _ ← load
          Window.frames World.refusal (← Window.opening World.refusal request.scale request.fps)
            [⟨20000000, []⟩]) m
        outcome left = .error (.fault (.stackEmpty 0x200)) ∧
        World.refusal (finalState left).world .quit = none :=
      ⟨_, hcreate, by decide +kernel, by decide +kernel, by decide +kernel⟩
    obtain ⟨setup, on, hopened⟩ := exists_of_isOk hopened
    obtain ⟨program, n, hload, hopen⟩ := exists_of_bind_eq_ok hopened
    simp only [run_bind, hload, hopen] at hleft hquit
    obtain ⟨-, -, hmessage⟩ := @hperform request world (.listed [] 0) m n program hcreate hload
      setup on hopen _ hquit
    exact ⟨_, hmessage _ hleft (.inr ⟨_, rfl⟩)⟩

end Machine

end Chip8
