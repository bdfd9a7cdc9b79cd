import Chip8.Proofs.Arrears
import Chip8.Proofs.HeldKeys
import Chip8.Proofs.Settings

/-!
# Inputs to the window

The window keeps its own mind about whether the machine is paused, next to the machine's status, and
passes on the keys of its host. As long as the user has scheduled nothing, the two agree after every
input, and the keypad is what the keys of the host say, also while the machine is paused. In a frame
that leaves the machine paused, nothing else of the console changes but the dirty flag.

## Main definitions

* `Window.Attuned`: the machine is what the inputs so far say
* `Window.Idles`: nothing of the console was changed but the dirty flag

## Main statements

* `Window.attends_attuned`, `Window.lasts_attuned`: an input and a frame keep a machine attuned
* `Window.idles_frame`: what a frame does to a machine once it has paused it
* `Machine.inputs_heeded`: the status, the keypad and a paused machine, whatever the inputs
-/

namespace Chip8

namespace Window

variable {refuse : World → Call → Option Failure} {E : Failure → Machine → Prop} {setup : Setup}

/-! ## What the inputs so far say -/

/-- Whether the machine is to run after some inputs. -/
def statusAfter (past : List Input) : Status :=
  if (stateAfter past).paused then .paused else .running

/-- The machine has nothing in its queue but ticks of timer chains, and it runs or is paused as the
inputs so far say. What holds of the console in its world depends on the keys held down. What holds
of the clock and its pace does not. -/
structure Attuned (V : Keypad → Console × World → Prop) (C : Nat → Number → Prop)
    (past : List Input) (m : Machine) : Prop extends Host.Clockwork (V (keysHeld past)) [] m where
  status : m.status = statusAfter past
  pace : C m.clock m.frequency

/-- What holds of the console in its world goes along with its keypad, and does not mind the
caption. -/
structure Hears (V : Keypad → Console × World → Prop) : Prop where
  turn : ∀ pad c w code down, V pad (c, w) →
    V (pad.turn code down)
      ({ c with board := { c.board with keypad := c.board.keypad.turn code down } }, w)
  caption : ∀ pad s text, V pad s → V pad (s.1, s.2.record (.call (.setCaption text)))

variable {V : Keypad → Console × World → Prop} {C : Nat → Number → Prop} {past : List Input}
  {input : Input}

namespace Attuned

/-- An input that does not pause leaves the status alone. -/
theorem follow {m : Machine} (hm : Attuned V C past m)
    (hpaused : (stateAfter (past ++ [input])).paused = (stateAfter past).paused) {plant : Console}
    {world : World} (hholds : V ((keysHeld past).hear input) (plant, world)) :
    Attuned V C (past ++ [input]) { m with plant, world } where
  toArranged := by
    rw [keysHeld_concat]
    exact { hm with holds := hholds }
  status := by
    rw [statusAfter, hpaused]
    exact hm.status
  pace := hm.pace

/-- The key that pauses and resumes is none of the keypad. -/
theorem toggle {m k : Machine} {status : Status} (hm : Attuned V C past m)
    (hstatus : statusAfter (past ++ [.keyDown pauseKey]) = status)
    (hk : Host.Still (V (keysHeld past)) status m k) :
    Attuned V C (past ++ [.keyDown pauseKey]) k where
  toArranged := by
    have hnone : keypadKey? pauseKey = none := by decide
    have hpad : keysHeld (past ++ [.keyDown pauseKey]) = keysHeld past :=
      (keysHeld_concat past _).trans (Keypad.turn_of_none hnone _ true)
    rw [hpad]
    exact hk.toArranged
  status := hk.status.trans hstatus.symm
  pace := by
    rw [hk.clock, hk.frequency]
    exact hm.pace

end Attuned

theorem statusAfter_toggle (past : List Input) :
    statusAfter (past ++ [.keyDown pauseKey]) = if (stateAfter past).paused then .running
      else .paused := by
  rw [statusAfter, stateAfter_concat]
  cases hpaused : (stateAfter past).paused <;> simp [State.heed, pauseKey, escapeKey, hpaused]

theorem hoare_hostKey_attuned (hV : Hears V) {code : Int} {down : Bool}
    (hhear : ∀ pad : Keypad, pad.hear input = pad.turn code down)
    (hpaused : (stateAfter (past ++ [input])).paused = (stateAfter past).paused) :
    Hoare (Attuned V C past) (Host.onPlant (Console.hostKey code down) : MachineM Bool)
      (fun _ => Attuned V C (past ++ [input])) E := by
  intro m hm
  have hturned := hV.turn _ _ _ code down hm.holds
  rw [← hhear (keysHeld past)] at hturned
  simp only [Host.onPlant, Console.hostKey_eq]
  exact hm.follow hpaused hturned

/-- **One input**: the machine does what the window has in mind. -/
theorem attends_attuned (hV : Hears V)
    (hcaption : ∀ (m : Machine) text cause,
      refuse m.world (.setCaption text) = some cause → E cause m)
    (hadrift : ∀ (m k : Machine) e, C m.clock m.frequency → Host.Adrift m e → E e k) :
    Attends refuse (Attuned V C) E where
  idle past input m hidle hm := by
    refine hm.follow ?_ ?_
    · rw [stateAfter_concat]
      exact hidle.paused_heed _
    · rw [hidle.hear]
      exact hm.holds
  pause past hrunning := by
    intro m hm
    have hstatus : m.status = .running := by
      rw [hm.status, statusAfter, hrunning]
      rfl
    have hnext : statusAfter (past ++ [.keyDown pauseKey]) = .paused := by
      rw [statusAfter_toggle, hrunning]
      rfl
    have hpause : Hoare (Host.Still (V (keysHeld past)) .running m) (Host.pause run) _ E :=
      Host.still_pause
    exact hpause.consequence (fun _ hk => hk) (fun _ _ hk => hm.toggle hnext hk)
      (fun _ _ he => he) m (Host.still_refl hm.toArranged hstatus)
  resume past hpaused := by
    intro m hm
    have hstatus : m.status = .paused := by
      rw [hm.status, statusAfter, hpaused]
      rfl
    have hnext : statusAfter (past ++ [.keyDown pauseKey]) = .running := by
      rw [statusAfter_toggle, hpaused]
      rfl
    exact Host.still_resume.consequence (fun _ hk => hk) (fun _ _ hk => hm.toggle hnext hk)
      (fun e k he => hadrift m k e hm.pace he.2) m (Host.still_refl hm.toArranged hstatus)
  caption past text :=
    keepsOr_call (fun m hm => { hm with holds := hV.caption _ _ text hm.holds })
      fun m cause _ => hcaption m text cause
  keyDown past code hescape hpause :=
    hoare_hostKey_attuned hV (fun _ => rfl)
      (by rw [stateAfter_concat, State.heed, if_neg hescape, if_neg hpause])
  keyUp past code := hoare_hostKey_attuned hV (fun _ => rfl) (by rw [stateAfter_concat]; rfl)

/-! ## From frame to frame -/

/-- The keypad is what the keys of the host say. -/
def Holding (pad : Keypad) (s : Console × World) : Prop := s.1.board.keypad = pad

theorem hears_holding : Hears Holding where
  turn := by
    rintro _ c w code down rfl
    rfl
  caption _ _ _ hs := hs

/-- **One frame**, at whatever pace. -/
theorem lasts_attuned : Lasts refuse (Attuned Holding fun _ _ => True) (fun _ _ => True) where
  toAttends := attends_attuned hears_holding (fun _ _ _ _ => trivial) fun _ _ _ _ _ => trivial
  pass past nanoseconds m hm := { hm with holds := hm.holds }
  runUntilNow past := by
    intro m hm
    have hruns := Host.hoare_runUntilNow_clockwork (Host.leavesAlone_runner Host.nestingLimit)
      (Console.quiet_keypad (keysHeld past)) hm.toArranged
    refine hruns.consequence (fun _ hk => hk) ?_ (fun _ _ _ => trivial) m rfl
    rintro _ k ⟨hk, hran⟩
    exact { hk with status := hran.status.trans hm.status, pace := trivial }
  refresh past := keepsOr_refresh (fun _ _ => ⟨trivial, trivial⟩)
    (fun _ => keepsOr_call (fun m hm => { hm with holds := hm.holds }) fun _ _ _ _ => trivial)
    (keepsOr_call (fun m hm => { hm with holds := hm.holds }) fun _ _ _ _ => trivial)
    fun m hm => { hm with holds := hm.holds }
  clockTick past fps := keepsOr_call (fun m hm => { hm with holds := hm.holds })
    fun _ _ _ _ => trivial

/-- A window that opens has a machine in it that runs, and on which no key is down. -/
theorem attuned_opened {m on : Machine} {scale fps : Int} (hinterval : 1 ≤ m.interval)
    (hinert : ∀ l ∈ m.listeners, Script.Inert l.script)
    (hopen : opening refuse scale fps m = .ok setup on) :
    Attuned Holding (fun _ _ => True) [] on := by
  obtain ⟨-, anchor, hon⟩ := exists_of_opening_eq_ok hopen
  have hreleased : Holding (keysHeld []) (on.plant, on.world) := by
    rw [hon]
    rfl
  have hrunning : on.status = .running := by rw [hon]; rfl
  exact { clockwork_opened hinterval hinert hopen hreleased with
    status := hrunning
    pace := trivial }

/-! ## Within a frame -/

/-- The console is a given one but for its keypad. -/
def Alone (c : Console) (pad : Keypad) (s : Console × World) : Prop :=
  s.1 = { c with board := { c.board with keypad := pad } }

theorem hears_alone (c : Console) : Hears (Alone c) where
  turn := by
    rintro pad _ w code down rfl
    rfl
  caption _ _ _ hs := hs

/-- The clock and its pace are what they were. -/
def SamePace (start : Machine) (clock : Nat) (frequency : Number) : Prop :=
  clock = start.clock ∧ frequency = start.frequency

section

variable {m : Machine} {f : Frame} (hm : Attuned Holding (fun _ _ => True) past m)

include hm

theorem hoare_handleAll_alone
    (hcaption : ∀ (k : Machine) text cause,
      refuse k.world (.setCaption text) = some cause → E cause k)
    (hadrift : ∀ (k l : Machine) e, SamePace m k.clock k.frequency → Host.Adrift k e → E e l) :
    Hoare (· = { m with world := m.world.pass f.elapsed })
      (handleAll refuse setup (stateAfter past) f.inputs)
      (Holds (Attuned (Alone m.plant) (SamePace m)) (past ++ f.inputs)) E := by
  rintro _ rfl
  have hkeypad : m.plant.board.keypad = keysHeld past := hm.holds
  have halone : Alone m.plant (keysHeld past) (m.plant, m.world.pass f.elapsed) := by
    rw [← hkeypad]
    rfl
  exact (attends_attuned (hears_alone m.plant) hcaption hadrift).hoare_handleAll f.inputs _
    { hm with holds := halone, pace := ⟨rfl, rfl⟩ }

/-- The inputs of a frame change nothing of the console but its keypad, and do not touch the
clock. -/
theorem holds_of_handleAll_eq_ok {s : State} {k : Machine}
    (hhandle : handleAll refuse setup (stateAfter past) f.inputs
      { m with world := m.world.pass f.elapsed } = .ok s k) :
    Holds (Attuned (Alone m.plant) (SamePace m)) (past ++ f.inputs) s k := by
  have hhandles : Hoare _ (handleAll refuse setup (stateAfter past) f.inputs) _ fun _ _ => True :=
    hoare_handleAll_alone (f := f) hm (fun _ _ _ _ => trivial) fun _ _ _ _ _ => trivial
  have hend := hhandles _ rfl
  rwa [hhandle] at hend

/-- The inputs of a frame can be handled if captions can be set, and the clock can be anchored at
what it shows. -/
theorem exists_handleAll (hcaptions : ∀ w text, refuse w (.setCaption text) = none)
    (hanchor : ∀ now, ∃ anchor, Pacer.anchor now m.clock m.frequency = .ok anchor) :
    ∃ s k, handleAll refuse setup (stateAfter past) f.inputs
      { m with world := m.world.pass f.elapsed } = .ok s k := by
  have hnever : Hoare _ (handleAll refuse setup (stateAfter past) f.inputs) _ fun _ _ => False :=
    hoare_handleAll_alone (f := f) hm ?_ ?_
  · obtain ⟨s, k, hhandle, -⟩ := hnever.exists_ok rfl
    exact ⟨s, k, hhandle⟩
  · intro k text cause hrefused
    rw [hcaptions] at hrefused
    cases hrefused
  · rintro k l e ⟨hclock, hfrequency⟩ ⟨cause, -, hcause⟩
    obtain ⟨anchor, hends⟩ := hanchor k.world.now
    rw [hclock, hfrequency, hends] at hcause
    cases hcause

end

/-- Nothing of the console was changed but the dirty flag, and no cycle was counted. -/
def Idles (start m : Machine) : Prop :=
  m.clock = start.clock ∧ ∃ dirty, m.plant =
    { start.plant with
      board := { start.plant.board with screen := { start.plant.board.screen with dirty } } }

theorem keeps_idles_refresh (start : Machine) (scale : Int) :
    Keeps (Idles start) (refresh refuse scale) := by
  refine keepsOr_refresh (E := fun _ => Idles start) (fun _ hm => ⟨hm, hm⟩)
    (fun _ => ?_) ?_ ?_ scale
  · exact keepsOr_call (fun _ hm => hm) fun _ _ hm _ => hm
  · exact keepsOr_call (fun _ hm => hm) fun _ _ hm _ => hm
  · rintro ⟨⟩ ⟨hclock, dirty, rfl⟩
    exact ⟨hclock, false, rfl⟩

/-- **A frame that pauses the machine** leaves it alone once the inputs are handled, however it
ends. -/
theorem idles_frame {s s' : State} {f : Frame} {m k : Machine}
    (hhandle :
      handleAll refuse setup s f.inputs { m with world := m.world.pass f.elapsed } = .ok s' k)
    (hidle : k.status ≠ .running) : Idles k (finalState (frame refuse setup s f m)) := by
  have hrest : Keeps (Idles k) (do
      refresh refuse setup.scale
      call refuse (.clockTick setup.fps)
      return s') := by
    refine (keeps_idles_refresh k setup.scale).bind fun _ => ?_
    exact Keeps.bind (keepsOr_call (fun _ hm => hm) fun _ _ hm _ => hm) fun _ => .pure _
  have hframe : frame refuse setup s f m = (do
      refresh refuse setup.scale
      call refuse (.clockTick setup.fps)
      return s') k := by
    rw [frame, run_bind, run_modify]
    simp only [run_bind, hhandle, Host.runUntilNow_of_idle hidle]
  rw [hframe]
  exact hrest.finalState ⟨rfl, k.plant.board.screen.dirty, rfl⟩

end Window

namespace Machine

open Console (Operation)

variable {world : World} {random : RandomSource} {frequency timerFrequency : Number}
  {soundEnabled : Bool} {m on n : Machine} {refuse : World → Call → Option Failure}
  {scale fps : Int} {setup : Window.Setup} {s : Window.State} {fs : List Window.Frame}

/-- **The window heeds its inputs.** When it was opened on a new machine that was told anything but
to do something at each beep, frames were gone through and the inputs of one more are handled: The
machine is paused if the key for that went down an odd number of times so far, and runs otherwise. A
key of the keypad is down if the last thing heard of its key of the host was that it went down. And
if the machine is paused then, the frame runs no cycle and no timers and changes nothing else of the
console but the dirty flag. Inputs can be handled as long as captions can be set. -/
theorem inputs_heeded (hcreate : create world random frequency timerFrequency soundEnabled = .ok m)
    (commands : List (Command Operation))
    (hinert : ∀ l ∈ (m.after commands).listeners, Script.Inert l.script)
    (hopen : Window.opening refuse scale fps (m.after commands) = .ok setup on)
    (hend : Window.iterate refuse setup {} fs on = .ok s n) (hrunning : s.running = true)
    (f : Window.Frame) :
    let inputs := Window.inputsOf fs ++ f.inputs
    let handled := Window.handleAll refuse setup s f.inputs
      { n with world := n.world.pass f.elapsed }
    ((∀ w text, refuse w (.setCaption text) = none) →
      ∀ hz, n.frequency = .integer hz → 0 < hz → n.clock ≤ 2 ^ 200 → ∃ s' k, handled = .ok s' k) ∧
    ∀ s' k, handled = .ok s' k →
      k.status = (if Odd (inputs.count (.keyDown Window.pauseKey)) then .paused else .running) ∧
      (s'.paused = true ↔ k.status = .paused) ∧
      (∀ code key, keypadKey? code = some key →
        (k.plant.board.keypad.isDown key = true ↔
          Window.lastOf code inputs = some (.keyDown code))) ∧
      (k.status = .paused →
        Host.runUntilNow Window.run k = .ok 0 k ∧
        let l := finalState (Window.frame refuse setup s f n)
        l.clock = n.clock ∧ ∃ dirty, l.plant = { n.plant with board := { n.plant.board with
          keypad := k.plant.board.keypad
          screen := { n.plant.board.screen with dirty } } }) := by
  intro inputs handled
  have hon := Window.attuned_opened (one_le_interval_after hcreate commands) hinert hopen
  obtain ⟨rfl, hn⟩ := Window.lasts_attuned.holds_of_iterate_eq_ok hon hend hrunning
  constructor
  · intro hcaptions hz hfrequency hpositive hclock
    refine Window.exists_handleAll hn hcaptions fun now => ?_
    rw [hfrequency]
    exact Pacer.exists_anchor now hpositive hclock
  · intro s' k hhandled
    obtain ⟨rfl, hk⟩ := Window.holds_of_handleAll_eq_ok hn hhandled
    have hplant : k.plant = _ := hk.holds
    have hkeypad : k.plant.board.keypad = Window.keysHeld inputs := by rw [hplant]
    have hstatus : k.status = Window.statusAfter inputs := hk.status
    have hpaused := Window.paused_stateAfter_iff inputs
    refine ⟨?_, ?_, ?_, ?_⟩
    · simp only [hstatus, Window.statusAfter, hpaused]
    · rw [hstatus, Window.statusAfter]
      cases (Window.stateAfter inputs).paused <;> simp
    · intro code key hcode
      rw [hkeypad]
      exact Window.isDown_keysHeld_iff hcode inputs
    · intro hidle
      have hnot : k.status ≠ .running := by
        rw [hidle]
        decide
      obtain ⟨hclock, dirty, hend⟩ := Window.idles_frame hhandled hnot
      refine ⟨Host.runUntilNow_of_idle hnot, hclock.trans hk.pace.1, dirty, ?_⟩
      rw [hend, hplant]

/-- Keys go down and up while the machine is paused, resumed and paused once more. The program jumps
to where it is. -/
theorem inputs_heeded_paused :
    ∃ (m on n k : Machine) (setup : Window.Setup) (s s' : Window.State),
      let commands : List (Command Operation) := [.operate (.load [0x12, 0x00])]
      let before : List Window.Frame :=
        [⟨20000000, [.keyDown 49, .keyDown 113, .keyDown Window.pauseKey]⟩]
      let f : Window.Frame :=
        ⟨5000000000, [.keyUp 49, .keyDown Window.pauseKey, .keyDown Window.pauseKey, .close]⟩
      create { toolkit := some {} } (.listed [] 0) (.integer 500) (.integer 60) false = .ok m ∧
      (∀ l ∈ (m.after commands).listeners, Script.Inert l.script) ∧
      Window.opening World.refusal 2 60 (m.after commands) = .ok setup on ∧
      Window.iterate World.refusal setup {} before on = .ok s n ∧ s.running = true ∧
      Window.handleAll World.refusal setup s f.inputs
        { n with world := n.world.pass f.elapsed } = .ok s' k ∧
      k.status = .paused ∧ k.plant.board.keypad.isDown 1 = false ∧
      k.plant.board.keypad.isDown 4 = true ∧
      (finalState (Window.frame World.refusal setup s f n)).clock = n.clock := by
  have hcreate : create { toolkit := some {} } (.listed [] 0) (.integer 500)
      (.integer 60) false = _ :=
    create_eq _ _ (by decide) (by decide) _
  let commands : List (Command Operation) := [.operate (.load [0x12, 0x00])]
  let before : List Window.Frame :=
    [⟨20000000, [.keyDown 49, .keyDown 113, .keyDown Window.pauseKey]⟩]
  let f : Window.Frame :=
    ⟨5000000000, [.keyUp 49, .keyDown Window.pauseKey, .keyDown Window.pauseKey, .close]⟩
  obtain ⟨m, hcreate, hlisteners, hrun⟩ : ∃ m : Machine,
      create { toolkit := some {} } (.listed [] 0) (.integer 500) (.integer 60) false = .ok m ∧
      (m.after commands).listeners.isEmpty = true ∧
      outcome ((do
        let setup ← Window.opening World.refusal 2 60
        let s ← Window.iterate World.refusal setup {} before
        modify fun n => { n with world := n.world.pass f.elapsed }
        let _ ← Window.handleAll World.refusal setup s f.inputs
        return s.running : MachineM Bool) (m.after commands)) = .ok true :=
    ⟨_, hcreate, by decide +kernel, by decide +kernel⟩
  have hinert : ∀ l ∈ (m.after commands).listeners, Script.Inert l.script := by
    rw [List.isEmpty_iff.1 hlisteners]
    exact List.forall_mem_nil _
  obtain ⟨k, hrun⟩ := exists_of_outcome_eq_ok hrun
  obtain ⟨setup, on, hopen, hrun⟩ := exists_of_bind_eq_ok hrun
  obtain ⟨s, n, hend, hrun⟩ := exists_of_bind_eq_ok hrun
  obtain ⟨_, _, hpass, hrun⟩ := exists_of_bind_eq_ok hrun
  cases hpass
  obtain ⟨s', k, hhandled, hreturn⟩ := exists_of_bind_eq_ok hrun
  have hrunning : s.running = true := (EStateM.Result.ok.inj hreturn).1
  obtain ⟨-, hheeded⟩ := inputs_heeded hcreate commands hinert hopen hend hrunning f
  obtain ⟨hstatus, -, hkeys, hidle⟩ := hheeded s' k hhandled
  have hpaused : k.status = .paused := hstatus.trans (by decide)
  have hone := (hkeys 49 1 (by decide)).not.2 (by decide)
  have hfour := (hkeys 113 4 (by decide)).2 (by decide)
  exact ⟨m, on, n, k, setup, s, s', hcreate, hinert, hopen, hend, hrunning, hhandled, hpaused,
    Bool.eq_false_of_not_eq_true hone, hfour, (hidle hpaused).2.1⟩

end Machine

end Chip8
