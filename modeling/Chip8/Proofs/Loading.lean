import Chip8.Proofs.ImagesAtPaths
import Chip8.Proofs.MachineInvariant
import Chip8.Proofs.Runs

/-!
# Loading programs

A program is loaded all or nothing. What can go wrong is found out before anything is written: the
file cannot be read, or its image has more bytes than there is room for. After that the image
replaces as many bytes of memory from the program start on, the machine knows which program it has,
and the log tells of it.

## Main definitions

* `Console.Source`: what a program can be loaded from
* `Console.Source.Holds`: the image that it holds, in the file at its path if it is one
* `Machine.loaded`: a machine with an image placed in it
* `Machine.Loaded`: what loading leaves

## Main statements

* `Memory.toList_writeAll`: a run of bytes seen on the whole of memory
* `Machine.execute_load`: loading by what the source holds
* `Machine.load_all_or_nothing`: a failed load leaves the machine as it was, a successful one the
  image and nothing else
-/

namespace Chip8

theorem Bank.getElem_toList {w : Nat} {α : Type} (b : Bank w α) {i : Nat}
    (h : i < b.toList.length) :
    b.toList[i] = b.get (BitVec.ofNat w i) := by
  have hlt : i < 2 ^ w := by rwa [length_toList] at h
  simp only [toList, get, Vector.getElem_toList, BitVec.toNat_ofNat, Nat.mod_eq_of_lt hlt]

namespace Memory

/-- A run of bytes that does not reach past the top of memory stands between what was before it and
what was after it. -/
theorem toList_writeAll (m : Memory) (a : Address) (bytes : List Byte)
    (h : a.toNat + bytes.length ≤ size) :
    (m.writeAll a bytes).cells.toList =
      m.cells.toList.take a.toNat ++ bytes ++ m.cells.toList.drop (a.toNat + bytes.length) := by
  simp only [size] at h
  have hlength (n : Memory) : n.cells.toList.length = 4096 := Bank.length_toList _
  apply List.ext_getElem
  · simp only [hlength, List.length_append, List.length_take, List.length_drop]
    omega
  · intro i hi hi'
    rw [hlength] at hi
    have hcell : ((m.writeAll a bytes).cells.get (BitVec.ofNat 12 i)) =
        bytes[(BitVec.ofNat 12 i - a).toNat]?.getD (m.cells.get (BitVec.ofNat 12 i)) :=
      read_writeAll bytes m a _ (by simp only [size]; omega)
    have htake : (m.cells.toList.take a.toNat).length = a.toNat := by
      rw [List.length_take, hlength]
      omega
    rw [Bank.getElem_toList, hcell]
    by_cases hbefore : i < a.toNat
    · -- Before the run the distance from its start goes around, and is longer than the run.
      have hfar : (BitVec.ofNat 12 i - a).toNat = 4096 + i - a.toNat := by bv_omega
      rw [hfar, List.getElem?_eq_none (by omega), Option.getD_none,
        List.getElem_append_left (by simp only [List.length_append]; omega),
        List.getElem_append_left (by omega), List.getElem_take, Bank.getElem_toList]
    · have hnear : (BitVec.ofNat 12 i - a).toNat = i - a.toNat := by bv_omega
      rw [hnear]
      by_cases hwithin : i < a.toNat + bytes.length
      · rw [List.getElem?_eq_getElem (by omega), Option.getD_some,
          List.getElem_append_left (by simp only [List.length_append]; omega),
          List.getElem_append_right (by omega)]
        simp only [htake]
      · have hskip : (m.cells.toList.take a.toNat ++ bytes).length = a.toNat + bytes.length := by
          rw [List.length_append, htake]
        have hindex : a.toNat + bytes.length + (i - (a.toNat + bytes.length)) = i := by omega
        rw [List.getElem?_eq_none (by omega), Option.getD_none,
          List.getElem_append_right (by omega), List.getElem_drop, Bank.getElem_toList]
        simp only [hskip, hindex]

end Memory

namespace Console

/-- What a program can be loaded from. -/
inductive Source where
  /-- Its image. -/
  | image (bytes : List Byte)
  /-- The file at a path. -/
  | file (path : String)

namespace Source

/-- The path of the file, if the source is one. -/
def path? : Source → Option Path
  | image _ => none
  | file path => some (Path.ofString path)

/-- What is read from the source. -/
def read (files : FileSystem) : Source → Except Rom.LoadError (List Byte)
  | image bytes => .ok bytes
  | file path => Rom.read files (Path.ofString path)

/-- The source holds the image: it is that image, or the file at its path has it as its content. -/
inductive Holds (files : FileSystem) : Source → List Byte → Prop
  | image (bytes : List Byte) : Holds files (.image bytes) bytes
  | file {path : String} {bytes : List Byte} (hnul : Char.ofNat 0 ∉ path.toList)
      (hcontent : files.content (Path.ofString path) = .ok bytes) : Holds files (.file path) bytes

theorem holds_iff {files : FileSystem} {source : Source} {image : List Byte} :
    source.Holds files image ↔ source.read files = .ok image := by
  cases source with
  | image bytes =>
    constructor
    · rintro ⟨⟩
      rfl
    · rintro ⟨⟩
      exact .image _
  | file path =>
    rw [read, Rom.read_eq_ok_iff]
    constructor
    · rintro (_ | ⟨hnul, hcontent⟩)
      exact ⟨hnul, hcontent⟩
    · rintro ⟨hnul, hcontent⟩
      exact .file hnul hcontent

/-- Load from the source. -/
def load : Source → PlantM Console Program
  | image bytes => Console.load none bytes
  | file path => Console.loadFile (Path.ofString path)

/-- The operation that loads from the source. -/
def operation : Source → Operation
  | image bytes => .load bytes
  | file path => .loadFile path

end Source

/-- What the console knows of a program that it was given. -/
def programOf (path : Option Path) (image : List Byte) : Program :=
  ⟨Rom.name path, image.length, path⟩

theorem loadImage_eq (c : Console) (path : Option Path) (image : List Byte) :
    c.loadImage path image =
      if image.length ≤ Memory.capacity then
        .ok (programOf path image,
          { c with
            board := { c.board with memory := c.board.memory.writeAll Memory.programStart image }
            program := some (programOf path image) })
      else .error (.tooLarge ⟨image.length⟩) := by
  by_cases hfits : image.length ≤ Memory.capacity
  · simp only [loadImage, Memory.load, if_pos hfits]
    rfl
  · simp only [loadImage, Memory.load, if_neg hfits]
    rfl

end Console

namespace Machine

open Console (Source programOf)

/-- The machine with an image at the program start, and with its program known and noted in the
log. -/
def loaded (m : Machine) (path : Option Path) (image : List Byte) : Machine :=
  { m with
    plant :=
      { m.plant with
        board :=
          { m.plant.board with memory := m.plant.board.memory.writeAll Memory.programStart image }
        program := some (programOf path image) }
    world := m.world.record (.notice (.loaded (Rom.name path) image.length)) }

theorem onPlant_load (m : Machine) (path : Option Path) (image : List Byte) :
    (Host.onPlant (Console.load path image) : MachineM Program) m =
      if image.length ≤ Memory.capacity then .ok (programOf path image) (m.loaded path image)
      else .error (.load (.tooLarge ⟨image.length⟩)) m := by
  simp only [Host.onPlant, Console.load, run_bind, run_get, Console.loadImage_eq]
  by_cases hfits : image.length ≤ Memory.capacity
  · simp only [if_pos hfits]
    rfl
  · simp only [if_neg hfits]
    rfl

theorem onPlant_loadFile (m : Machine) (path : Path) :
    (Host.onPlant (Console.loadFile path) : MachineM Program) m =
      match Rom.read m.world.files path with
      | .error cause => .error (.load cause) m
      | .ok image => (Host.onPlant (Console.load (some path) image) : MachineM Program) m := by
  simp only [Host.onPlant, Console.loadFile, run_bind, run_get]
  cases Rom.read m.world.files path <;> rfl

theorem onPlant_source (m : Machine) (source : Source) :
    (Host.onPlant source.load : MachineM Program) m =
      match source.read m.world.files with
      | .error cause => .error (.load cause) m
      | .ok image =>
        if image.length ≤ Memory.capacity then
          .ok (programOf source.path? image) (m.loaded source.path? image)
        else .error (.load (.tooLarge ⟨image.length⟩)) m := by
  cases source with
  | image bytes => exact onPlant_load m none bytes
  | file path =>
    simp only [Source.load, Source.read, Source.path?, onPlant_loadFile]
    cases Rom.read m.world.files (Path.ofString path) with
    | error cause => rfl
    | ok image => exact onPlant_load m _ image

/-- Loading fails if there is nothing to be read or no room for it, and otherwise places what was
read. -/
theorem execute_load (m : Machine) (source : Source) :
    Host.execute (.operate source.operation) m =
      match source.read m.world.files with
      | .error cause => .error (.load cause) m
      | .ok image =>
        if image.length ≤ Memory.capacity then
          .ok (.program (some (programOf source.path? image))) (m.loaded source.path? image)
        else .error (.load (.tooLarge ⟨image.length⟩)) m := by
  have hanswer : Host.execute (.operate source.operation) m =
      match (Host.onPlant source.load : MachineM Program) m with
      | .ok program n => .ok (.program (some program)) n
      | .error cause n => .error cause n := by
    have hoperate : Console.operate source.operation = source.load >>= fun p =>
      pure (.program (some p)) := by
      cases source <;> rfl
    simp only [Host.execute, Host.carryOut, Plant.operate, hoperate, Host.onPlant, run_bind]
    cases source.load (m.plant, m.world) <;> rfl
  rw [hanswer, onPlant_source]
  cases source.read m.world.files with
  | error cause => rfl
  | ok image =>
    by_cases hfits : image.length ≤ Memory.capacity
    · simp only [if_pos hfits]
    · simp only [if_neg hfits]

/-- What loading leaves: the image in place of as many bytes from the program start on, the program
that was answered, a record of it in the log, and all else as it was. -/
structure Loaded (m : Machine) (path : Option Path) (image : List Byte) (program : Program)
    (n : Machine) : Prop where
  fits : image.length ≤ 3584
  size : program.size = image.length
  path : program.path = path
  bytes : n.plant.board.memory.cells.toList.length = 4096
  placed : n.plant.board.memory.cells.toList =
    m.plant.board.memory.cells.toList.take 0x200 ++ image ++
      m.plant.board.memory.cells.toList.drop (0x200 + image.length)
  others : n =
    { m with
      plant :=
        { m.plant with
          board := { m.plant.board with memory := n.plant.board.memory }
          program := some program }
      world := m.world.record (.notice (.loaded program.name program.size)) }

theorem loaded_of_fits (m : Machine) (path : Option Path) {image : List Byte}
    (hfits : image.length ≤ Memory.capacity) :
    Loaded m path image (programOf path image) (m.loaded path image) where
  fits := hfits
  size := rfl
  path := rfl
  bytes := Bank.length_toList _
  placed := by
    have hcapacity : Memory.capacity = 3584 := rfl
    have hstart : Memory.programStart.toNat = 0x200 := rfl
    exact Memory.toList_writeAll _ Memory.programStart image (by rw [hstart, Memory.size]; omega)
  others := rfl

/-- **Loading is all or nothing**: from whatever source a machine is to load a program, either that
fails and the machine is as it was, or the image that the source holds fits, and it is all that is
new but for the program and its record in the log. It fails just if the source holds no image or one
of too many bytes, so given as bytes just if they are too many. -/
theorem load_all_or_nothing (m : Machine) (source : Source) :
    let load (source : Source) := Host.execute (.operate source.operation) m
    ((∃ cause, load source = .error cause m) ∨
      ∃ image program n, source.Holds m.world.files image ∧
        load source = .ok (.program (some program)) n ∧ Loaded m source.path? image program n) ∧
    ((∃ cause n, load source = .error cause n) ↔
      ∀ image, source.Holds m.world.files image → 3584 < image.length) ∧
    ∀ bytes, (∃ cause n, load (.image bytes) = .error cause n) ↔ 3584 < bytes.length := by
  intro load
  have hload (source : Source) : load source = _ := execute_load m source
  have hfails (source : Source) : (∃ cause n, load source = .error cause n) ↔
      ∀ image, source.Holds m.world.files image → 3584 < image.length := by
    simp only [Source.holds_iff, hload]
    cases source.read m.world.files with
    | error cause => simp
    | ok image =>
      have hcapacity : image.length ≤ Memory.capacity ↔ ¬3584 < image.length := Nat.not_lt.symm
      by_cases hfits : image.length ≤ Memory.capacity
      · simp [hfits, hcapacity.1 hfits]
      · simp [hfits, not_not.1 (mt hcapacity.2 hfits)]
  refine ⟨?_, hfails source, ?_⟩
  · simp only [Source.holds_iff, hload]
    cases source.read m.world.files with
    | error cause => exact .inl ⟨_, rfl⟩
    | ok image =>
      by_cases hfits : image.length ≤ Memory.capacity
      · exact .inr ⟨image, _, _, rfl, if_pos hfits, loaded_of_fits m _ hfits⟩
      · exact .inl ⟨_, if_neg hfits⟩
  · intro bytes
    rw [hfails]
    constructor
    · exact fun h => h bytes (.image bytes)
    · rintro h image ⟨⟩
      exact h

end Machine

end Chip8
