import Chip8.Proofs.Loading
import Chip8.Proofs.Pacing
import Chip8.Window

/-!
# Programs that cannot be loaded

A path can lead nowhere, to a directory or below a plain file, it can be too long or empty, and its
file can be too large. Each of these surfaces as the reason for which the load is refused: the
headless command ends with status one and tells it, the window's command ends with it as its
message. The one path that is not refused in this way is a path with a null character in it. It is
no path for the system at all, and the failure that it makes passes through both commands.

## Main definitions

* `Rom.LoadError.Refuses`: the error tells that a file cannot be read, or does not fit
* `Rom.fetch`: the image at a path, if there is one and it fits
* `Machine.Ends`, with `Machine.Reported` and `Machine.Escapes`: what comes of an error in loading

## Main statements

* `Rom.LoadError.Refuses.isOperational`: both commands tell why a program is refused
* `Machine.load_errors_reported`: what comes of every path, and of every set of files
-/

namespace Chip8

namespace Rom

/-- The error is one that a program at a path is refused with: its file cannot be read, or does not
fit. -/
inductive LoadError.Refuses (path : Path) : LoadError → Prop
  | unreadable (why : ReadError) : Refuses path (.unreadable path why)
  | tooLarge (cause : Memory.Overfull) : Refuses path (.tooLarge cause)

/-- The image at a path, if there is one and it fits into memory. -/
def fetch (files : FileSystem) (path : Path) : Except LoadError (List Byte) := do
  let image ← read files path
  if image.length ≤ Memory.capacity then .ok image else .error (.tooLarge ⟨image.length⟩)

variable {files : FileSystem}

theorem fetch_of_error {path : Path} {cause : LoadError} (hread : read files path = .error cause) :
    fetch files path = .error cause := by
  rw [fetch, hread]
  rfl

theorem fetch_of_ok {path : Path} {image : List Byte} (hread : read files path = .ok image) :
    fetch files path = if image.length ≤ Memory.capacity then .ok image
      else .error (.tooLarge ⟨image.length⟩) := by
  rw [fetch, hread]
  rfl

theorem LoadError.Refuses.isOperational {path : Path} {cause : LoadError} (h : cause.Refuses path) :
    (Failure.load cause).isOperational = true := by
  cases h <;> rfl

end Rom

namespace Machine

/-- With positive integer frequencies there is a machine in any world. -/
theorem exists_create (world : World) (random : RandomSource) {f t : Int} (hf : 0 < f) (ht : 0 < t)
    (soundEnabled : Bool) :
    ∃ m, create world random (.integer f) (.integer t) soundEnabled = .ok m ∧ m.world = world :=
  ⟨_, Host.create_eq _ world hf ht _, rfl⟩

/-- Loading from a file by what is fetched from there. -/
theorem execute_loadFile (m : Machine) (text : String) :
    Host.execute (.operate (.loadFile text)) m =
      match Rom.fetch m.world.files (Path.ofString text) with
      | .error cause => .error (.load cause) m
      | .ok image =>
        .ok (.program (some (Console.programOf (some (Path.ofString text)) image)))
          (m.loaded (some (Path.ofString text)) image) := by
  have hload : Host.execute (.operate (.loadFile text)) m = _ := execute_load m (.file text)
  simp only [Console.Source.read, Console.Source.path?] at hload
  rw [hload]
  cases hread : Rom.read m.world.files (Path.ofString text) with
  | error cause => rw [Rom.fetch_of_error hread]
  | ok image =>
    rw [Rom.fetch_of_ok hread]
    by_cases hfits : image.length ≤ Memory.capacity
    · simp only [if_pos hfits]
    · simp only [if_neg hfits]

theorem onPlant_loadFile_of_fetch {m : Machine} {path : Path} {cause : Rom.LoadError}
    (hfetch : Rom.fetch m.world.files path = .error cause) :
    (Host.onPlant (Console.loadFile path) : MachineM Program) m = .error (.load cause) m := by
  rw [onPlant_loadFile]
  cases hread : Rom.read m.world.files path with
  | error why =>
    rw [Rom.fetch_of_error hread] at hfetch
    cases hfetch
    rfl
  | ok image =>
    rw [Rom.fetch_of_ok hread] at hfetch
    split at hfetch
    · cases hfetch
    next hlarge =>
      cases hfetch
      exact (onPlant_load m (some path) image).trans (if_neg hlarge)

end Machine

namespace Headless

section

variable {ε α β : Type}

theorem exists_of_bind_run {x : Reader ε α} {f : α → Reader ε β} {b : β}
    (h : (x >>= f).run = .ok (.ok b)) :
    ∃ a, (f a).run = .ok (.ok b) := by
  rw [ExceptT.run_bind] at h
  cases hx : x.run with
  | error e =>
    rw [hx] at h
    cases h
  | ok r =>
    rw [hx] at h
    cases r with
    | error e => cases h
    | ok a => exact ⟨a, h⟩

/-- Nothing comes after what is refused. -/
theorem of_guard_run {c : Prop} [Decidable c] {e : ε} {f : Unit → Reader ε β} {b : β}
    (h : (if c then (throw e : Reader ε Unit) >>= f else f ()).run = .ok (.ok b)) :
    ¬c ∧ (f ()).run = .ok (.ok b) := by
  by_cases hc : c
  · rw [if_pos hc] at h
    cases h
  · rw [if_neg hc] at h
    exact ⟨hc, h⟩

end

/-- What is left of the command when a program is refused. -/
def refused (request : Request) (world : World) (cause : Rom.LoadError) : Outcome where
  status := 1
  diagnostics :=
    logLines (if request.verbose then .debug else .warning) world.journal ++
      [s!"error: {cause.message}"]

/-- Reading an image first and loading it then is loading from its file. -/
theorem loadInto_read (m : Machine) (path : Path) :
    loadInto path (Rom.read m.world.files path) m =
      ((Host.onPlant (Console.loadFile path) : MachineM Program) >>= fun _ => pure ()) m := by
  rw [run_bind, Machine.onPlant_loadFile]
  cases Rom.read m.world.files path <;> rfl

/-- A program that is not fetched ends the command before a cycle is run. -/
theorem perform_of_fetch {request : Request} {world : World} {unseeded : RandomSource}
    {cause : Rom.LoadError} (hfetch : Rom.fetch world.files request.rom = .error cause) :
    perform request (Rom.read world.files request.rom) world unseeded =
      if (Failure.load cause).isOperational then .ok (refused request world cause)
        else .error (.load cause) := by
  obtain ⟨m, hcreate, rfl⟩ := Machine.exists_create world
    ((request.seed.map RandomSource.ofSeed).getD unseeded)
    (f := Machine.instructionRate) (t := Machine.timerRate) (by decide) (by decide) false
  have hload : loadInto request.rom (Rom.read m.world.files request.rom) m =
      .error (.load cause) m := by
    rw [loadInto_read, run_bind, Machine.onPlant_loadFile_of_fetch hfetch]
  simp only [perform, hcreate, bind, Except.bind, runAndReport, hload]
  rfl

end Headless

namespace Window

/-- What is left of the command when a program is refused. -/
def refused (request : Request) (world : World) (cause : Rom.LoadError) : Outcome where
  exit := .message cause.message
  journal := visible (if request.verbose then .debug else .info) world.journal

/-- A program that is not fetched ends the command before a window is opened. -/
theorem perform_of_fetch {refuse : World → Call → Option Failure} {request : Request}
    {world : World} {fs : List Frame} {unseeded : RandomSource} {cause : Rom.LoadError}
    (hrate : 0 < request.rate)
    (hfetch : Rom.fetch world.files (Path.ofString request.rom) = .error cause) :
    perform refuse request world fs unseeded =
      if (Failure.load cause).isOperational then .ok (refused request world cause)
        else .error (.load cause) := by
  obtain ⟨m, hcreate, rfl⟩ := Machine.exists_create world
    ((request.seed.map RandomSource.ofSeed).getD unseeded)
    hrate (t := Machine.timerRate) (by decide) request.sound
  simp only [perform, hcreate, bind, Except.bind, EStateM.bind,
    Machine.onPlant_loadFile_of_fetch hfetch]
  rfl

/-- A request that was read from arguments asks for a positive rate. -/
theorem rate_pos {args : List String} {environment : Option String} {request : Request}
    (h : (Request.ofArguments args environment).run = .ok (.ok request)) : 0 < request.rate := by
  obtain ⟨reading, h⟩ := Headless.exists_of_bind_run h
  obtain ⟨scale, h⟩ := Headless.exists_of_bind_run h
  obtain ⟨-, h⟩ := Headless.of_guard_run h
  obtain ⟨fps, h⟩ := Headless.exists_of_bind_run h
  obtain ⟨-, h⟩ := Headless.of_guard_run h
  obtain ⟨rate, h⟩ := Headless.exists_of_bind_run h
  obtain ⟨hrate, h⟩ := Headless.of_guard_run h
  split at h
  · cases h
  · obtain ⟨seed, h⟩ := Headless.exists_of_bind_run h
    cases h
    exact Int.not_le.1 hrate

end Window

namespace Machine

/-- What comes of an error in loading from a path: the machine fails with it and is left as it was,
and whatever else they were asked, the two commands end in their ways. -/
structure Ends (world : World) (text : String) (cause : Rom.LoadError)
    (headless : Headless.Request → Except Failure Headless.Outcome)
    (window : Window.Request → Except Failure Window.Outcome) : Prop where
  load : ∀ m : Machine, m.world.files = world.files →
    Host.execute (.operate (.loadFile text)) m = .error (.load cause) m
  headless : ∀ {args request} unseeded,
    (Headless.Request.ofArguments args).run = .ok (.ok request) →
    request.rom = Path.ofString text → Headless.invoke args world unseeded = headless request
  window : ∀ {args environment request} fs unseeded,
    (Window.Request.ofArguments args environment).run = .ok (.ok request) →
    request.rom = text → Window.invoke args environment world fs unseeded = window request

/-- The error is told as the reason for which the program is refused: by status one and a line of
diagnostics, and by the message that the window's command ends with. -/
abbrev Reported (world : World) (text : String) (cause : Rom.LoadError) : Prop :=
  Ends world text cause (fun request => .ok (Headless.refused request world cause))
    (fun request => .ok (Window.refused request world cause))

/-- The error is a failure of the commands themselves. -/
abbrev Escapes (world : World) (text : String) (cause : Rom.LoadError) : Prop :=
  Ends world text cause (fun _ => .error (.load cause)) (fun _ => .error (.load cause))

variable {world : World} {text : String} {cause : Rom.LoadError}

theorem ends_of_fetch (hfetch : Rom.fetch world.files (Path.ofString text) = .error cause) :
    Ends world text cause
      (fun request =>
        if (Failure.load cause).isOperational then .ok (Headless.refused request world cause)
        else .error (.load cause))
      (fun request =>
        if (Failure.load cause).isOperational then .ok (Window.refused request world cause)
        else .error (.load cause)) where
  load m hfiles := by rw [execute_loadFile, hfiles, hfetch]
  headless unseeded hargs hrom := by
    simp only [Headless.invoke, hargs]
    exact Headless.perform_of_fetch (by rw [hrom]; exact hfetch)
  window fs unseeded hargs hrom := by
    simp only [Window.invoke, hargs]
    exact Window.perform_of_fetch (Window.rate_pos hargs) (by rw [hrom]; exact hfetch)

theorem reported_of_refuses (hrefuses : cause.Refuses (Path.ofString text))
    (hfetch : Rom.fetch world.files (Path.ofString text) = .error cause) :
    Reported world text cause := by
  have hends := ends_of_fetch hfetch
  simpa only [hrefuses.isOperational, if_true] using hends

/-- **Programs that cannot be loaded are reported as such, unless there is a null character in their
path.** Without one, the content of the file at the path is what is read and loaded if it fits. If
it does not fit, or the file cannot be read, then the program is refused for that reason and both
commands tell it. A path with a null character is not refused, but makes everything fail. -/
theorem load_errors_reported (world : World) (text : String) :
    let path := Path.ofString text
    (Char.ofNat 0 ∉ text.toList →
      (∀ image, world.files.content path = .ok image →
        Rom.read world.files path = .ok image ∧
        (image.length ≤ 3584 → ∀ m : Machine, m.world.files = world.files →
          ∃ program n,
            Host.execute (.operate (.loadFile text)) m = .ok (.program (some program)) n ∧
            Loaded m (some path) image program n) ∧
        (3584 < image.length → Reported world text (.tooLarge ⟨image.length⟩))) ∧
      ∀ why, world.files.content path = .error why →
        Rom.read world.files path = .error (.unreadable path why) ∧
        Reported world text (.unreadable path why)) ∧
    (Char.ofNat 0 ∈ text.toList →
      Rom.read world.files path = .error .nulInPath ∧ Escapes world text .nulInPath) := by
  intro path
  constructor
  · intro hnul
    have hread : Rom.read world.files path = _ := Rom.read_of_no_nul hnul
    constructor
    · intro image hcontent
      rw [hcontent] at hread
      have hfetch : Rom.fetch world.files path = _ := Rom.fetch_of_ok hread
      refine ⟨hread, fun (hfits : image.length ≤ Memory.capacity) m hfiles => ?_, fun hlarge => ?_⟩
      · refine ⟨_, _, ?_, loaded_of_fits m (some path) hfits⟩
        rw [execute_loadFile, hfiles, hfetch, if_pos hfits]
      · have hover : ¬image.length ≤ Memory.capacity := Nat.not_le.2 hlarge
        rw [if_neg hover] at hfetch
        exact reported_of_refuses (.tooLarge _) hfetch
    · intro why hcontent
      rw [hcontent] at hread
      exact ⟨hread, reported_of_refuses (.unreadable why) (Rom.fetch_of_error hread)⟩
  · intro hnul
    have hread : Rom.read world.files path = .error .nulInPath := Rom.read_of_nul hnul
    exact ⟨hread, ends_of_fetch (Rom.fetch_of_error hread)⟩

/-- With one program beside the current directory, it is read by its path from the root, and the
headless command tells that another one is missing. -/
theorem load_errors_reported_missing :
    let tree : FileTree :=
      { entries := [(["roms", "pong.ch8"], .file [0x12, 0x00])], current := ["home"] }
    let world : World := { files := tree.system }
    Char.ofNat 0 ∉ "/roms/pong.ch8".toList ∧ Char.ofNat 0 ∉ "../roms/tetris.ch8".toList ∧
      Rom.read world.files (Path.ofString "/roms/pong.ch8") = .ok [0x12, 0x00] ∧
      Headless.invoke ["../roms/tetris.ch8"] world (.listed [0] 0) = .ok
        { status := 1
          diagnostics :=
            ["error: cannot read ROM ../roms/tetris.ch8: No such file or directory"] } := by
  intro tree world
  have hpong : Char.ofNat 0 ∉ "/roms/pong.ch8".toList := by decide
  have htetris : Char.ofNat 0 ∉ "../roms/tetris.ch8".toList := by decide
  have hthere : world.files.content (Path.ofString "/roms/pong.ch8") = .ok [0x12, 0x00] := by
    decide +kernel
  have hmissing : world.files.content (Path.ofString "../roms/tetris.ch8") = .error .notFound := by
    decide +kernel
  obtain ⟨hread, -⟩ := ((load_errors_reported world "/roms/pong.ch8").1 hpong).1 _ hthere
  obtain ⟨-, hreported⟩ :=
    ((load_errors_reported world "../roms/tetris.ch8").1 htetris).2 _ hmissing
  refine ⟨hpong, htetris, hread, ?_⟩
  rw [hreported.headless (.listed [0] 0) rfl rfl]
  decide +kernel

/-- Not every error in loading is told as the reason for which a program is refused: a path can have
a null character in it. -/
theorem escapes_of_nul :
    ¬∀ (world : World) (text : String),
      (∃ image, Rom.read world.files (Path.ofString text) = .ok image) ∨
        ∃ cause : Rom.LoadError, cause.Refuses (Path.ofString text) ∧
          Rom.read world.files (Path.ofString text) = .error cause := by
  intro h
  have hread : Rom.read (FileTree.system {}) (Path.ofString "a\x00b") = .error .nulInPath :=
    Rom.read_of_nul (by decide)
  obtain ⟨image, himage⟩ | ⟨cause, hrefuses, hcause⟩ := h {} "a\x00b"
  · cases hread.symm.trans himage
  · cases hread.symm.trans hcause
    cases hrefuses

end Machine

end Chip8
