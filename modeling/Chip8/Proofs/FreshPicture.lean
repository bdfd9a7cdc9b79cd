import Chip8.Proofs.DirtyFlag
import Chip8.Proofs.Runs
import Chip8.Proofs.Surroundings
import Chip8.Proofs.WindowLoop

/-!
# The picture in the window

The window copies the picture to where it is shown only when the dirty flag is set, and then clears
the flag. So what is to be seen is the picture of the screen as long as the flag tells of every
change. It does, as long as nobody else clears it.

## Main definitions

* `Canvas`, `World.canvas`: what is to be seen in the window, as the calls to the toolkit tell
* `Window.Current`: the picture to be seen is that of the screen, unless the flag is set

## Main statements

* `Window.hoare_frame_fresh`: at the end of a frame, the picture to be seen is that of the screen
* `Machine.picture_never_stale`: the flag tells of every change, and the window never shows a stale
  picture
-/

namespace Chip8

open Console (Operation)

/-! ## What is to be seen -/

/-- What is in the window. -/
structure Canvas where
  /-- What was copied there last. -/
  drawn : Option Surface := none
  /-- What is to be seen of it. -/
  shown : Option Surface := none

/-- The canvas after something noticeable happened. -/
def Canvas.after (c : Canvas) : Entry → Canvas
  | .call (.blit surface) => { c with drawn := some surface }
  | .call .flip => { c with shown := c.drawn }
  | _ => c

namespace World

/-- What is in the window, as the journal tells. -/
def canvas (w : World) : Canvas := w.journal.toList.foldl Canvas.after {}

@[simp] theorem canvas_record (w : World) (e : Entry) : (w.record e).canvas = w.canvas.after e := by
  simp [canvas, record]

theorem lasting_canvas (canvas : Canvas) : Lasting (·.canvas = canvas) where
  notice w n hw := by rwa [canvas_record]
  call w c hmixer hw := by
    rw [canvas_record, hw]
    cases c with
    | mixerInit | mixerSound | play => rfl
    | _ => exact hmixer.elim
  equip _ _ hw := hw

end World

namespace Window

variable {refuse : World → Call → Option Failure} {scale : Int}

/-- The screen is as it was or counts as changed, and the canvas is what it was. -/
def Unpainted (seen : Screen) (canvas : Canvas) (s : Console × World) : Prop :=
  Screen.Since seen s.1.board.screen ∧ s.2.canvas = canvas

theorem upholds_unpainted (seen : Screen) (canvas : Canvas) :
    Plant.Upholds (Unpainted seen canvas) Operation.LeavesFlag :=
  (Console.keeps_since seen).upholds.and ((World.lasting_canvas canvas).upholds
    (fun w m hw => by rwa [World.canvas_record]) (fun _ _ hw => hw) _)

theorem reacts_unpainted (seen : Screen) (canvas : Canvas) :
    Reacts refuse (fun _ => Host.Upheld (Unpainted seen canvas) Operation.LeavesFlag)
      (fun _ => Host.Upheld (Unpainted seen canvas) Operation.LeavesFlag) :=
  reacts_upheld (upholds_unpainted seen canvas)
    (fun code down => ((Console.steady_since seen).keeps_hostKey code down).and
      (World.Lasting.hostKey (L := fun w => w.canvas = canvas) code down))
    fun s text hs => ⟨hs.1, by rw [World.canvas_record, hs.2]; rfl⟩

/-- The picture to be seen is that of the screen, unless the dirty flag is set. No script clears the
flag. -/
structure Current (scale : Int) (m : Machine) : Prop
    extends Host.Upheld (fun _ => True) Operation.LeavesFlag m where
  current : m.plant.board.screen.dirty = true ∨
    m.world.canvas.shown = some (m.plant.board.screen.surface scale)

/-- The picture to be seen is that of the screen. -/
structure Fresh (scale : Int) (m : Machine) : Prop
    extends Host.Upheld (fun _ => True) Operation.LeavesFlag m where
  fresh : m.world.canvas.shown = some (m.plant.board.screen.surface scale)

theorem Fresh.toCurrent {m : Machine} (hm : Fresh scale m) : Current scale m :=
  { hm with current := .inr hm.fresh }

variable {past : List Input} {setup : Setup}

/-- Until the picture is shown again, the flag tells whether that to be seen is out of date. -/
theorem hoare_react_current (f : Frame) :
    Hoare (Current scale) (react refuse setup (stateAfter past) f)
      (Holds (fun _ => Current scale) (past ++ f.inputs)) (fun _ _ => True) := by
  intro m hm
  have hstart : Host.Upheld (Unpainted m.plant.board.screen m.world.canvas)
      Operation.LeavesFlag m :=
    { hm with holds := ⟨.inr rfl, rfl⟩ }
  have hreacts : Hoare _ (react refuse setup (stateAfter past) f) _ _ :=
    (reacts_unpainted m.plant.board.screen m.world.canvas).hoare_react f
  have hend := hreacts m hstart
  cases hreact : react refuse setup (stateAfter past) f m with
  | error e k => trivial
  | ok s k =>
    rw [hreact] at hend
    obtain ⟨hs, hk⟩ := hend
    refine ⟨hs, { hk with holds := trivial, current := ?_ }⟩
    obtain ⟨hsince, hcanvas⟩ := hk.holds
    rcases hsince with hdirty | hsame
    · exact .inl hdirty
    · rw [hsame, hcanvas]
      exact hm.current

/-- The screen is a given one. No script clears the flag. -/
structure Displays (screen : Screen) (m : Machine) : Prop
    extends Host.Upheld (fun _ => True) Operation.LeavesFlag m where
  screen : m.plant.board.screen = screen

theorem hoare_blit (screen : Screen) (surface : Surface) :
    Hoare (Displays screen) (call refuse (.blit surface))
      (fun _ m => Displays screen m ∧ m.world.canvas.drawn = some surface) (fun _ _ => True) :=
  hoare_call (fun _ hm => ⟨{ hm with }, by rw [World.canvas_record]; rfl⟩) fun _ _ _ _ => trivial

theorem hoare_flip (screen : Screen) (surface : Surface) :
    Hoare (fun m => Displays screen m ∧ m.world.canvas.drawn = some surface) (call refuse .flip)
      (fun _ m => Displays screen m ∧ m.world.canvas.shown = some surface) (fun _ _ => True) :=
  hoare_call (fun _ hm => ⟨{ hm.1 with }, by rw [World.canvas_record]; exact hm.2⟩)
    fun _ _ _ _ => trivial

/-- The picture is shown, if it has to be. -/
theorem hoare_refresh (hscale : 1 ≤ scale) :
    Hoare (Current scale) (refresh refuse scale) (fun _ => Fresh scale) (fun _ _ => True) := by
  refine .get_bind fun m hm => ?_
  cases hdirty : m.plant.board.screen.dirty with
  | false =>
    rintro k rfl
    have hfresh := hm.current.resolve_left (by rw [hdirty]; decide)
    exact { hm with fresh := hfresh }
  | true =>
    have hpositive : ¬scale ≤ 0 := by omega
    simp only [if_true, Screen.paint, if_neg hpositive]
    cases m.world.toolkit with
    | none => exact fun _ _ => trivial
    | some t =>
      have hstart : Displays m.plant.board.screen m := { hm with screen := rfl }
      rintro k rfl
      refine Hoare.bind (hoare_blit _ _) (fun _ => Hoare.bind (hoare_flip _ _) fun _ => ?_) k hstart
      -- Clearing the flag leaves the picture as it is.
      rintro n ⟨hn, hshown⟩
      rw [← hn.screen] at hshown
      exact { hn with fresh := hshown }

/-- **At the end of a frame, the picture to be seen is that of the screen.** -/
theorem hoare_frame_fresh (hscale : 1 ≤ setup.scale) (f : Frame) :
    Hoare (Current setup.scale) (frame refuse setup (stateAfter past) f)
      (Holds (fun _ => Fresh setup.scale) (past ++ f.inputs)) (fun _ _ => True) := by
  rw [frame_eq]
  refine (hoare_react_current f).bind fun s => ?_
  rintro m ⟨rfl, hm⟩
  refine Hoare.bind (hoare_refresh hscale) (fun _ => ?_) m hm
  have htick : KeepsOr (Fresh setup.scale) (fun _ _ => True) (call refuse (.clockTick setup.fps)) :=
    keepsOr_call (fun m hm => { hm with fresh := by rw [World.canvas_record]; exact hm.fresh })
      fun _ _ _ _ => trivial
  refine Hoare.bind htick fun _ => ?_
  exact fun k hk => ⟨rfl, hk⟩

/-- Once a frame is through, the picture to be seen is that of the screen however many more there
are. -/
theorem hoare_frame_iterate_fresh (hscale : 1 ≤ setup.scale) (past : List Input) (f : Frame)
    (fs : List Frame) :
    Hoare (Current setup.scale)
      (do iterate refuse setup (← frame refuse setup (stateAfter past) f) fs)
      (fun _ => Fresh setup.scale) (fun _ _ => True) := by
  induction fs generalizing past f with
  | nil => exact (hoare_frame_fresh hscale f).bind fun s => fun m hm => hm.2
  | cons g fs ih =>
    refine (hoare_frame_fresh hscale f).bind fun s => ?_
    rintro m ⟨rfl, hm⟩
    by_cases hrunning : (stateAfter (past ++ f.inputs)).running = true
    · simp only [iterate, if_pos hrunning]
      exact ih (past ++ f.inputs) g m hm.toCurrent
    · simp only [iterate, if_neg hrunning]
      exact hm

/-- A window that opens has its picture still to show. -/
theorem current_opened {m on : Machine} {fps : Int}
    (hm : Host.Upheld (fun _ => True) Operation.LeavesFlag m)
    (hopen : opening refuse scale fps m = .ok setup on) :
    Current scale on := by
  obtain ⟨-, anchor, rfl⟩ := exists_of_opening_eq_ok hopen
  refine { hm with queue := ?_, current := .inl rfl, holds := trivial }
  intro e he
  rw [Machine.timers_of_mem_poweredOn he]
  trivial

end Window

namespace Machine

variable {world : World} {random : RandomSource} {frequency timerFrequency : Number}
  {soundEnabled : Bool} {m : Machine}

/-- A new console can be put next to the screen seen last. -/
theorem exists_viewed
    (hcreate : create world random frequency timerFrequency soundEnabled = .ok m) :
    ∃ v : Host Viewed Operation,
      Host.create { console := Console.powerUp random soundEnabled } world frequency timerFrequency
        maxCatchUp = .ok v ∧
      Host.Related Viewed.part.Same (fun _ => True) v m ∧
        Host.Upheld (fun s => s.1.Honest) (fun _ => True) v := by
  obtain ⟨hpositive, interval, anchor, hinterval, hanchor, -⟩ := Host.create_eq_ok_iff.1 hcreate
  obtain ⟨v, hv⟩ : ∃ v : Host Viewed Operation,
      Host.create { console := Console.powerUp random soundEnabled } world
      frequency timerFrequency maxCatchUp = .ok v :=
    ⟨_, Host.create_eq_ok_iff.2 ⟨hpositive, interval, anchor, hinterval, hanchor, rfl⟩⟩
  obtain ⟨k, hk, hrelated⟩ := Host.related_create (S := Viewed.part.Same)
    (p := fun _ : Operation => True) rfl hv
  have hsame := hk.symm.trans hcreate
  cases hsame
  exact ⟨v, hv, hrelated, Host.upheld_create (W := fun s => s.1.Honest) nofun hv⟩

/-- **The window never shows a stale picture.** Whatever a new machine is told, and also where a
command fails, the dirty flag is set if any byte of the picture is not as it was when the flag was
last cleared. And in a window that opens, at the end of every frame the surface to be seen is that
of the screen, as long as nobody but the window clears the flag. -/
theorem picture_never_stale
    (hcreate : create world random frequency timerFrequency soundEnabled = .ok m) :
    (∃ v : Host Viewed Operation,
      Host.create { console := Console.powerUp random soundEnabled } world frequency timerFrequency
        maxCatchUp = .ok v ∧
      ∀ commands,
        let n := m.after commands
        let viewed := runAll Host.execute commands v
        viewed.1 = (runAll Host.execute commands m).1 ∧ viewed.2.plant.console = n.plant ∧
          ∀ seen, viewed.2.plant.seen = some seen →
            (∃ i, n.plant.board.screen.bytes.get i ≠ seen.bytes.get i) →
              n.plant.board.screen.dirty = true) ∧
    ∀ commands, Script.Every Operation.LeavesFlag commands →
      ∀ refuse scale fps setup on, 1 ≤ scale →
        Window.opening refuse scale fps (m.after commands) = .ok setup on →
        ∀ fs, fs ≠ [] → ∀ s k, Window.iterate refuse setup {} fs on = .ok s k →
          k.world.canvas.shown = some (k.plant.board.screen.surface scale) := by
  constructor
  · obtain ⟨v, hv, hstart, hhonest⟩ := exists_viewed hcreate
    refine ⟨v, hv, ?_⟩
    intro commands n viewed
    obtain ⟨houtcomes, hend⟩ := agree_runAll (fun c => Host.alike_execute Viewed.simulates
      (Command.every_of_forall (fun _ => trivial) c)) commands hstart
    have hplant : n.plant = viewed.2.plant.console := congrArg Prod.fst hend.plant
    refine ⟨houtcomes, hplant.symm, ?_⟩
    rintro seen hseen ⟨i, hchanged⟩
    have hkept : Host.Upheld (fun s => s.1.Honest) (fun _ => True) viewed.2 :=
      Host.upheld_runAll Viewed.keeps_honest.upholds
        (Script.every_of_forall (fun _ => trivial) commands) hhonest
    rw [hplant] at hchanged ⊢
    exact (hkept.holds seen hseen).resolve_right fun hsame => hchanged (by rw [hsame])
  · intro commands hcommands refuse scale fps setup on hscale hopen fs hframes s k hend
    have hleaves := upheld_after hcreate hcommands
    have hcurrent := Window.current_opened hleaves hopen
    obtain rfl : setup.scale = scale := by rw [(Window.exists_of_opening_eq_ok hopen).1]
    cases fs with
    | nil => exact absurd rfl hframes
    | cons f fs =>
      have hframe : Hoare (Window.Current setup.scale) (Window.iterate refuse setup {} (f :: fs))
          (fun _ => Window.Fresh setup.scale) (fun _ _ => True) :=
            Window.hoare_frame_iterate_fresh hscale [] f fs
      have hfresh := hframe on hcurrent
      rw [hend] at hfresh
      exact hfresh.fresh

/-- A glyph is drawn after the flag was cleared. The same program is run in a window that is paused
and closed. -/
theorem picture_never_stale_drawn :
    ∃ (m : Machine) (v : Host Viewed Operation) (seen : Screen) (setup : Window.Setup)
      (on k : Machine) (s : Window.State),
      create { toolkit := some {} } (.listed [] 0) (.integer 500) (.integer 60) false = .ok m ∧
      Host.create { console := Console.powerUp (.listed [] 0) false } { toolkit := some {} }
        (.integer 500) (.integer 60)
        maxCatchUp = .ok v ∧
      let load : Command Operation := .operate (.load [0xD0, 0x05, 0x12, 0x02])
      let commands := [load, .powerOn, .operate (.setDirty false), .tick 1]
      (runAll Host.execute commands v).2.plant.seen = some seen ∧
      (m.after commands).plant.board.screen.bytes.get 0 ≠ seen.bytes.get 0 ∧
      (m.after commands).plant.board.screen.dirty = true ∧
      Window.opening World.refusal 2 60 (m.after [load]) = .ok setup on ∧
      Window.iterate World.refusal setup {}
        [⟨2000000, []⟩, ⟨2000000, [.keyDown Window.pauseKey]⟩, ⟨0, [.close]⟩] on = .ok s k ∧
      k.world.canvas.shown = some (k.plant.board.screen.surface 2) := by
  have hcreate : create { toolkit := some {} } (.listed [] 0) (.integer 500)
      (.integer 60) false = _ :=
    create_eq _ _ (by decide) (by decide) _
  obtain ⟨m, hcreate, hdrawn, hrun⟩ : ∃ m : Machine,
      create { toolkit := some {} } (.listed [] 0) (.integer 500) (.integer 60) false = .ok m ∧
      (m.after [.operate (.load [0xD0, 0x05, 0x12, 0x02]), .powerOn, .operate (.setDirty false),
        .tick 1]).plant.board.screen.bytes.get 0 ≠ 0 ∧
      (outcome ((do
        Window.iterate World.refusal (← Window.opening World.refusal 2 60) {}
          [⟨2000000, []⟩, ⟨2000000, [.keyDown Window.pauseKey]⟩, ⟨0, [.close]⟩])
        (m.after [.operate (.load [0xD0, 0x05, 0x12, 0x02])]))).isOk = true :=
    ⟨_, hcreate, by decide +kernel, by decide +kernel⟩
  obtain ⟨⟨v, hv, hviewed⟩, hwindow⟩ := picture_never_stale hcreate
  obtain ⟨s, k, hrun⟩ := exists_of_isOk hrun
  obtain ⟨setup, on, hopen, hend⟩ := exists_of_bind_eq_ok hrun
  have hleaves : Script.Every Operation.LeavesFlag [.operate (.load [0xD0, 0x05, 0x12, 0x02])] :=
    ⟨by simp [Command.Every, Operation.LeavesFlag], trivial⟩
  have hshown := hwindow [.operate (.load [0xD0, 0x05, 0x12, 0x02])] hleaves _ 2 60 setup on
    (by decide) hopen _ (List.cons_ne_nil _ _) s k hend
  let seen : Screen := { Screen.clear {} with dirty := false }
  have hseen : (runAll Host.execute [.operate (.load [0xD0, 0x05, 0x12, 0x02]), .powerOn,
      .operate (.setDirty false), .tick 1] v).2.plant.seen = some seen := by
    simp only [Console.powerUp, Memory.powerUp_eq] at hv
    cases (Host.create_eq _ _ (by decide) (by decide) _).symm.trans hv
    decide +kernel
  obtain ⟨-, -, hflag⟩ :=
    hviewed [.operate (.load [0xD0, 0x05, 0x12, 0x02]), .powerOn,
      .operate (.setDirty false), .tick 1]
  exact ⟨m, v, seen, setup, on, k, s, hcreate, hv, hseen, hdrawn,
    hflag seen hseen ⟨0, hdrawn⟩, hopen, hend, hshown⟩

end Machine

end Chip8
