import Chip8.Window
import Chip8.Proofs.Clockwork
import Chip8.Proofs.SilentMachine

/-!
# The loop of the window

In each frame the window handles its inputs, runs the machine and shows the picture. What holds of
the machine may depend on the inputs handled so far: what the window keeps from frame to frame does,
and so do the keys held down. So a family of assertions over the inputs so far is carried through
the loop, input by input and frame by frame, whatever the toolkit refuses.

## Main definitions

* `Window.State.heed`, `Window.stateAfter`: what the window keeps, input by input
* `Window.react`: the first half of a frame, before the picture is shown
* `Window.Attends`, `Window.Reacts`, `Window.Lasts`: what a family of assertions has to come with

## Main statements

* `Window.exists_of_opening_eq_ok`, `Window.clockwork_opened`: the machine in a window that opens
* `Window.Attends.hoare_handleAll`: a family is carried through the inputs of a frame
* `Window.Lasts.hoare_iterate`: and through frames one after the other
-/

namespace Chip8.Window

/-! ## Inputs -/

/-- What the window keeps when it has handled an input. -/
def State.heed (s : State) : Input → State
  | .close => { s with running := false }
  | .keyDown code =>
    if code = escapeKey then { s with running := false }
    else if code = pauseKey then { s with paused := !s.paused }
    else s
  | .keyUp _ | .other => s

/-- What the window keeps after some inputs. -/
def stateAfter (past : List Input) : State := past.foldl State.heed {}

theorem stateAfter_concat (past : List Input) (input : Input) :
    stateAfter (past ++ [input]) = (stateAfter past).heed input := List.foldl_append

/-- The input neither pauses nor resumes, nor is it passed on to the keypad. -/
def Input.Idle : Input → Prop
  | .close | .other => True
  | .keyDown code => code = escapeKey
  | .keyUp _ => False

/-- An input that is not passed on does not pause, either. -/
theorem Input.Idle.paused_heed {input : Input} (hidle : input.Idle) (s : State) :
    (s.heed input).paused = s.paused := by
  cases input with
  | close | other => rfl
  | keyDown code =>
    obtain rfl : code = escapeKey := hidle
    rfl
  | keyUp code => exact hidle.elim

/-- The inputs of frames, in order. -/
def inputsOf (fs : List Frame) : List Input := fs.flatMap Frame.inputs

@[simp] theorem inputsOf_nil : inputsOf [] = [] := rfl

@[simp] theorem inputsOf_cons (f : Frame) (fs : List Frame) :
    inputsOf (f :: fs) = f.inputs ++ inputsOf fs :=
  List.flatMap_cons

variable {refuse : World → Call → Option Failure} {E : Failure → Machine → Prop}

/-! ## Calls to the toolkit -/

/-- A call to the toolkit is recorded, or fails as it is refused. -/
theorem hoare_call {P Q : Machine → Prop} {c : Call}
    (hrecord : ∀ m, P m → Q { m with world := m.world.record (.call c) })
    (hrefuse : ∀ m cause, P m → refuse m.world c = some cause → E cause m) :
    Hoare P (call refuse c) (fun _ => Q) E := by
  intro m hm
  simp only [call, run_bind, run_get]
  cases hc : refuse m.world c with
  | none => exact hrecord m hm
  | some cause => exact hrefuse m cause hm hc

theorem keepsOr_call {I : Machine → Prop} {c : Call}
    (hrecord : ∀ m, I m → I { m with world := m.world.record (.call c) })
    (hrefuse : ∀ m cause, I m → refuse m.world c = some cause → E cause m) :
    KeepsOr I E (call refuse c) :=
  hoare_call hrecord hrefuse

theorem eq_of_call_eq_ok {m n : Machine} {c : Call} (hend : call refuse c m = .ok () n) :
    n = { m with world := m.world.record (.call c) } := by
  simp only [call, run_bind, run_get] at hend
  cases hc : refuse m.world c with
  | none =>
    rw [hc] at hend
    cases hend
    rfl
  | some cause =>
    rw [hc] at hend
    cases hend

/-! ## Before the loop -/

/-- The world when the window has been opened. -/
def opened (w : World) (scale : Int) (program : Option Program) : World :=
  ((w.record (.call .init)).record
    (.call (.setMode (Screen.width * scale) (Screen.height * scale)))).record
    (.call (.setCaption (captionFor program)))

/-- A window that opens has a machine in it that is powered on. -/
theorem exists_of_opening_eq_ok {m on : Machine} {scale fps : Int} {setup : Setup}
    (hend : opening refuse scale fps m = .ok setup on) :
    setup = { scale, fps, caption := captionFor m.plant.program } ∧
      ∃ anchor,
        on = { Machine.poweredOn { m with world := opened m.world scale m.plant.program }
        with anchor } := by
  obtain ⟨_, k, hget, hrest⟩ := exists_of_bind_eq_ok hend
  cases hget
  cases htoolkit : m.world.toolkit.isNone with
  | true =>
    rw [htoolkit] at hrest
    cases hrest
  | false =>
  rw [htoolkit] at hrest
  obtain ⟨_, l, hinit, hrest⟩ := exists_of_bind_eq_ok (x := call refuse .init) hrest
  obtain rfl := eq_of_call_eq_ok hinit
  obtain ⟨_, l, hmode, hrest⟩ := exists_of_bind_eq_ok hrest
  obtain rfl := eq_of_call_eq_ok hmode
  obtain ⟨_, l, hcaption, hrest⟩ := exists_of_bind_eq_ok (x := call refuse (.setCaption _)) hrest
  obtain rfl := eq_of_call_eq_ok hcaption
  obtain ⟨_, l, hpower, hreturn⟩ := exists_of_bind_eq_ok hrest
  obtain ⟨anchor, rfl⟩ := Machine.exists_of_powerOn_eq_ok hpower
  cases hreturn
  exact ⟨rfl, anchor, rfl⟩

/-- Nothing but the timers waits for the machine in a window that opens. -/
theorem clockwork_opened {m on : Machine} {scale fps : Int} {setup : Setup}
    {W : Console × World → Prop} (hinterval : 1 ≤ m.interval)
    (hinert : ∀ l ∈ m.listeners, Script.Inert l.script)
    (hopen : opening refuse scale fps m = .ok setup on) (hW : W (on.plant, on.world)) :
    Host.Clockwork W [] on := by
  obtain ⟨-, anchor, rfl⟩ := exists_of_opening_eq_ok hopen
  exact {
    holds := hW
    interval := hinterval
    ordered := Machine.ordered_poweredOn _
    late := Machine.late_poweredOn (m := { m with world := _ }) hinterval
    kept := fun e he => by
      rw [Machine.timers_of_mem_poweredOn he]
      exact Nat.le_refl _
    listeners := hinert }

/-! ## One frame -/

/-- A family of assertions over the inputs so far is carried through an input. -/
structure Attends (refuse : World → Call → Option Failure) (J : List Input → Machine → Prop)
    (E : Failure → Machine → Prop) : Prop where
  idle : ∀ past input m, input.Idle → J past m → J (past ++ [input]) m
  pause : ∀ past, (stateAfter past).paused = false →
    Hoare (J past) (Host.pause run) (fun _ => J (past ++ [.keyDown pauseKey])) E
  resume : ∀ past, (stateAfter past).paused = true →
    Hoare (J past) (Host.resume run) (fun _ => J (past ++ [.keyDown pauseKey])) E
  caption : ∀ past text, KeepsOr (J past) E (call refuse (.setCaption text))
  keyDown : ∀ past code, code ≠ escapeKey → code ≠ pauseKey →
    Hoare (J past) (Host.onPlant (Console.hostKey code true) : MachineM Bool)
      (fun _ => J (past ++ [.keyDown code])) E
  keyUp : ∀ past code, Hoare (J past) (Host.onPlant (Console.hostKey code false) : MachineM Bool)
    (fun _ => J (past ++ [.keyUp code])) E

/-- The family is also carried through what a frame does before the picture is shown. -/
structure Reacts (refuse : World → Call → Option Failure) (J : List Input → Machine → Prop)
    (E : Failure → Machine → Prop) : Prop extends Attends refuse J E where
  pass : ∀ past nanoseconds m, J past m → J past { m with world := m.world.pass nanoseconds }
  runUntilNow : ∀ past, KeepsOr (J past) E (Host.runUntilNow run)

/-- The family is carried through whole frames. -/
structure Lasts (refuse : World → Call → Option Failure) (J : List Input → Machine → Prop)
    (E : Failure → Machine → Prop) : Prop extends Reacts refuse J E where
  refresh : ∀ past scale, KeepsOr (J past) E (refresh refuse scale)
  clockTick : ∀ past fps, KeepsOr (J past) E (call refuse (.clockTick fps))

/-- What a frame does before the picture is shown. -/
def react (refuse : World → Call → Option Failure) (setup : Setup) (s : State) (f : Frame) :
    MachineM State := do
  modify fun m => { m with world := m.world.pass f.elapsed }
  let s ← handleAll refuse setup s f.inputs
  let _ ← Host.runUntilNow run
  return s

theorem frame_eq (setup : Setup) (s : State) (f : Frame) :
    frame refuse setup s f = do
      let s ← react refuse setup s f
      refresh refuse setup.scale
      call refuse (.clockTick setup.fps)
      return s := by
  simp only [frame, react, bind_assoc, pure_bind]

variable {J : List Input → Machine → Prop} {past : List Input} {setup : Setup}

/-- The window keeps what the inputs so far say, and the family is there. -/
abbrev Holds (J : List Input → Machine → Prop) (past : List Input) (s : State) (m : Machine) :
    Prop :=
  s = stateAfter past ∧ J past m

/-- Frames were gone through up to some point, and all of them if the loop goes on. -/
def Through (J : List Input → Machine → Prop) (past : List Input) (fs : List Frame) (s : State)
    (m : Machine) : Prop :=
  ∃ done rest, fs = done ++ rest ∧ Holds J (past ++ inputsOf done) s m ∧
    (s.running = true → rest = [])

namespace Attends

variable (hJ : Attends refuse J E)

include hJ

theorem hoare_togglePause :
    Hoare (J past) (togglePause refuse setup (stateAfter past))
      (Holds J (past ++ [.keyDown pauseKey])) E := by
  have hnext : stateAfter (past ++ [.keyDown pauseKey]) =
      { stateAfter past with paused := !(stateAfter past).paused } := stateAfter_concat past _
  have hreturn : Hoare (J (past ++ [.keyDown pauseKey]))
      (pure { stateAfter past with paused := !(stateAfter past).paused } : MachineM State)
      (Holds J (past ++ [.keyDown pauseKey])) E := fun m hm => ⟨hnext.symm, hm⟩
  cases hpaused : (stateAfter past).paused with
  | false =>
    rw [hpaused] at hreturn
    simp only [togglePause, hpaused]
    exact (hJ.pause past hpaused).bind fun _ => Hoare.bind (hJ.caption _ _) fun _ => hreturn
  | true =>
    rw [hpaused] at hreturn
    simp only [togglePause, hpaused]
    exact (hJ.resume past hpaused).bind fun _ => Hoare.bind (hJ.caption _ _) fun _ => hreturn

/-- One input. -/
theorem hoare_handle (input : Input) :
    Hoare (J past) (handle refuse setup (stateAfter past) input) (Holds J (past ++ [input])) E := by
  have hnext := stateAfter_concat past input
  have hleave {s : State} (hs : (stateAfter past).heed input = s) (hidle : input.Idle) :
      Hoare (J past) (pure s : MachineM State) (Holds J (past ++ [input])) E :=
    fun m hm => ⟨(hnext.trans hs).symm, hJ.idle past input m hidle hm⟩
  have hpassed {s : State} (hs : (stateAfter past).heed input = s) :
      Hoare (J (past ++ [input])) (pure s : MachineM State) (Holds J (past ++ [input])) E :=
    fun m hm => ⟨(hnext.trans hs).symm, hm⟩
  cases input with
  | close => exact hleave rfl trivial
  | other => exact hleave rfl trivial
  | keyUp code => exact (hJ.keyUp past code).bind fun _ => hpassed rfl
  | keyDown code =>
    simp only [handle]
    by_cases hescape : code = escapeKey
    · rw [if_pos hescape]
      exact hleave (by simp only [State.heed, if_pos hescape]) hescape
    rw [if_neg hescape]
    by_cases hpause : code = pauseKey
    · rw [if_pos hpause, hpause]
      exact hJ.hoare_togglePause
    rw [if_neg hpause]
    exact (hJ.keyDown past code hescape hpause).bind fun _ =>
      hpassed (by simp only [State.heed, if_neg hescape, if_neg hpause])

/-- **The inputs of a frame**, one after the other. -/
theorem hoare_handleAll (inputs : List Input) :
    Hoare (J past) (handleAll refuse setup (stateAfter past) inputs)
      (Holds J (past ++ inputs)) E := by
  induction inputs generalizing past with
  | nil =>
    rw [List.append_nil]
    exact fun m hm => ⟨rfl, hm⟩
  | cons input inputs ih =>
    rw [List.append_cons]
    refine (hJ.hoare_handle input).bind fun s => ?_
    rintro m ⟨rfl, hm⟩
    exact ih m hm

end Attends

theorem Reacts.hoare_react (hJ : Reacts refuse J E) (f : Frame) :
    Hoare (J past) (react refuse setup (stateAfter past) f) (Holds J (past ++ f.inputs)) E := by
  refine Hoare.bind (Q := fun _ => J past) (fun m hm => hJ.pass past f.elapsed m hm) fun _ => ?_
  refine (hJ.hoare_handleAll f.inputs).bind fun s => ?_
  rintro m ⟨rfl, hm⟩
  refine Hoare.bind (hJ.runUntilNow _) (fun _ => ?_) m hm
  exact fun k hk => ⟨rfl, hk⟩

namespace Lasts

variable (hJ : Lasts refuse J E)

include hJ

/-- **One frame.** -/
theorem hoare_frame (f : Frame) :
    Hoare (J past) (frame refuse setup (stateAfter past) f) (Holds J (past ++ f.inputs)) E := by
  rw [frame_eq]
  refine (hJ.hoare_react f).bind fun s => ?_
  rintro m ⟨rfl, hm⟩
  refine Hoare.bind (hJ.refresh _ _) (fun _ => ?_) m hm
  refine Hoare.bind (hJ.clockTick _ _) fun _ => ?_
  exact fun k hk => ⟨rfl, hk⟩

/-- **Frames one after the other**, as long as the loop goes on. -/
theorem hoare_iterate (fs : List Frame) :
    Hoare (J past) (iterate refuse setup (stateAfter past) fs) (Through J past fs) E := by
  have hstop {fs : List Frame} {past : List Input}
      (hrest : (stateAfter past).running = true → fs = []) :
      Hoare (J past) (pure (stateAfter past) : MachineM State) (Through J past fs) E :=
    fun m hm => ⟨[], fs, rfl, by simpa [Holds] using hm, hrest⟩
  induction fs generalizing past with
  | nil => exact hstop fun _ => rfl
  | cons f fs ih =>
    by_cases hrunning : (stateAfter past).running = true
    · simp only [iterate, if_pos hrunning]
      refine (hJ.hoare_frame f).bind fun s => ?_
      rintro m ⟨rfl, hm⟩
      refine ih.consequence (fun _ hk => hk) ?_ (fun _ _ he => he) m hm
      rintro s k ⟨done, rest, rfl, hk, hrest⟩
      exact ⟨f :: done, rest, rfl, by rwa [inputsOf_cons, ← List.append_assoc], hrest⟩
    · simp only [iterate, if_neg hrunning]
      exact hstop fun h => absurd h hrunning

theorem hoare_iterate_start (fs : List Frame) :
    Hoare (J []) (iterate refuse setup {} fs) (Through J [] fs) E :=
  hJ.hoare_iterate fs

/-- As long as the loop goes on, all frames were gone through. -/
theorem holds_of_iterate_eq_ok {m n : Machine} {fs : List Frame} {s : State} (hm : J [] m)
    (hend : iterate refuse setup {} fs m = .ok s n) (hrunning : s.running = true) :
    Holds J (inputsOf fs) s n := by
  have hthrough : Hoare (J []) (iterate refuse setup {} fs) _ _ := hJ.hoare_iterate_start fs
  have hfinal := hthrough m hm
  rw [hend] at hfinal
  obtain ⟨done, rest, rfl, hholds, hrest⟩ := hfinal
  rw [hrest hrunning, List.append_nil]
  exact hholds

/-- **The frames of a run**, with the one that closes the window if none before did. -/
theorem hoare_frames (fs : List Frame) :
    Hoare (J []) (frames refuse setup fs) (fun _ m => ∃ past, J past m) E := by
  refine Hoare.bind (hJ.hoare_iterate_start fs) fun s => ?_
  rintro m ⟨done, rest, -, ⟨rfl, hm⟩, -⟩
  by_cases hrunning : (stateAfter ([] ++ inputsOf done)).running = true
  · simp only [if_pos hrunning]
    refine Hoare.bind (hJ.hoare_frame _) (fun s => ?_) m hm
    exact fun k hk => ⟨_, hk.2⟩
  · simp only [if_neg hrunning]
    exact ⟨_, hm⟩

end Lasts

/-! ## Invariants of the machine -/

/-- Showing the picture takes two calls, and clears the dirty flag. -/
theorem keepsOr_refresh {I : Machine → Prop}
    (hpaint : ∀ m, I m → E .scaleNotPositive m ∧ E .toolkitRequired m)
    (hblit : ∀ surface, KeepsOr I E (call refuse (.blit surface)))
    (hflip : KeepsOr I E (call refuse .flip))
    (hclean : KeepsOr I E (Host.onPlant (Console.onBoard fun b =>
      { b with screen := { b.screen with dirty := false } }) : MachineM Unit)) (scale : Int) :
    KeepsOr I E (refresh refuse scale) := by
  refine .get_bind fun m hm => ?_
  refine .ite (fun _ => ?_) fun _ => .pure _
  have hafter : KeepsOr I E (do
      call refuse .flip
      Host.onPlant (Console.onBoard
      fun b => { b with screen := { b.screen with dirty := false } })) :=
    hflip.bind fun _ => hclean
  simp only [Screen.paint]
  by_cases hscale : scale ≤ 0
  · simp only [if_pos hscale]
    exact .throw_bind (fun m hm => (hpaint m hm).1) _
  · simp only [if_neg hscale]
    cases m.world.toolkit with
    | none => exact .throw_bind (fun m hm => (hpaint m hm).2) _
    | some t => exact (hblit _).bind fun _ => hafter

section

variable {W : Console × World → Prop} {p : Console.Operation → Prop} (hW : Plant.Upholds W p)
  (hkey : ∀ code down, Keeps W (Console.hostKey code down))
  (hcaption : ∀ s text, W s → W (s.1, s.2.record (.call (.setCaption text))))

include hW hkey hcaption

/-- An invariant of the console in its world is carried through a frame up to the picture. -/
theorem reacts_upheld : Reacts refuse (fun _ => Host.Upheld W p) (fun _ => Host.Upheld W p) := by
  have hJ := Host.plantInvariant_upheld hW
  have hscripts := Host.upheld_runner hW Host.nestingLimit
  exact {
    idle := fun _ _ _ _ hm => hm
    pause := fun _ _ => (hJ.immediate hscripts).keepsOr_pause hJ.clearance.keepsOr_applyPause
    resume := fun _ _ => (hJ.immediate hscripts).keepsOr_resume hJ.clearance.keepsOr_applyResume
    caption := fun _ text =>
      keepsOr_call (fun _ hm => { hm with holds := hcaption _ text hm.holds }) fun _ _ hm _ => hm
    keyDown := fun _ code _ _ => Host.keeps_onPlant (hkey code true)
    keyUp := fun _ code => Host.keeps_onPlant (hkey code false)
    pass := fun _ nanoseconds _ hm => { hm with holds := hW.pass _ nanoseconds hm.holds }
    runUntilNow :=
      fun _ => Host.keepsOr_runUntilNow hJ.clearance.keepsOr_cyclesDue (hJ.keeps_tick hscripts) }

end

end Chip8.Window
