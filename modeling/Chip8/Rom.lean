import Chip8.Memory
import Chip8.Storage.FileTree
import Chip8.Text.Upper

/-!
# Program images

A program image is a file without a header, or just bytes. A loaded program is known by the name of
its file in capitals.

## Main definitions

* `Rom.read`: the image at a path
* `Rom.ofNumbers`: the image given as numbers
* `Rom.name`: the name a program goes by
* `Program`: what is kept about the program last loaded
-/

namespace Chip8

/-- What is kept about the program last loaded. -/
structure Program where
  name : String
  /-- How many bytes its image has. -/
  size : Nat
  /-- The file it came from, if it came from one. -/
  path : Option Path
  deriving DecidableEq, Repr

namespace Rom

/-- Why a program cannot be loaded. -/
inductive LoadError where
  /-- The file cannot be read. -/
  | unreadable (path : Path) (cause : ReadError)
  /-- The path holds a character that no path may hold. -/
  | nulInPath
  /-- A number in the image is not a byte. -/
  | notBytes
  /-- The image does not fit into memory. -/
  | tooLarge (cause : Memory.Overfull)
  deriving DecidableEq, Repr

/-- What is said about a program that cannot be loaded. -/
def LoadError.message : LoadError → String
  | unreadable path cause => s!"cannot read ROM {path.toString}: {cause.message}"
  | nulInPath => "embedded null byte"
  | notBytes => "bytes must be in range(0, 256)"
  | tooLarge cause => s!"program is {cause.bytes} bytes, capacity is {Memory.capacity} bytes"

/-- The name of a program without a file. -/
def defaultName : String := "ROM"

/-- The image in the file at a path. A path with a null character in it is not even looked up. -/
def read (files : FileSystem) (path : Path) : Except LoadError (List Byte) :=
  if path.toString.toList.contains (Char.ofNat 0) then .error .nulInPath
  else (files.content path).mapError (.unreadable path)

/-- The image that a list of numbers stands for. -/
def ofNumbers (ns : List Int) : Except LoadError (List Byte) :=
  if ns.all fun n => 0 ≤ n && n < 256 then .ok (ns.map (BitVec.ofInt 8)) else .error .notBytes

/-- The name of the program in the file at a path: the file's name without its extension, in
capitals. -/
def name (path : Option Path) : String :=
  match path.map Path.stem with
  | none => defaultName
  | some stem => if stem = "" then defaultName else String.ofList (Text.upper stem.toList)

end Rom

end Chip8
