import Chip8.Bank

/-!
# Main memory

Four kibibytes of bytes under twelve-bit addresses. The hexadecimal font sits at the bottom and
programs are placed at `0x200`. Runs of addresses wrap from `0xFFF` to `0x000`.

## Main definitions

* `Memory.powerUp`: the font, and zeros above it
* `Memory.read`, `Memory.write`: one byte
* `Memory.opcodeAt`: the two bytes at an address, high byte first
* `Memory.writeAll`, `Memory.slice`: runs of bytes
* `Memory.load`: place a program image, if it fits

## Main statements

* `Memory.read_write`: a write changes the byte written and no other
* `Memory.ext_read`: a memory is what its addresses hold
-/

namespace Chip8

/-- A place in main memory. -/
abbrev Address := BitVec 12

/-- The console's main memory. -/
structure Memory where
  cells : Bank 12 Byte
  deriving DecidableEq

namespace Memory

/-- The number of bytes of main memory. -/
def size : Nat := 0x1000

/-- Rows in one glyph of the font, a byte each. -/
def glyphSize : Nat := 5

/-- The glyphs of the hexadecimal digits, four pixels wide and five rows tall. -/
def font : List Byte :=
  [ 0xF0, 0x90, 0x90, 0x90, 0xF0,
    0x20, 0x60, 0x20, 0x20, 0x70,
    0xF0, 0x10, 0xF0, 0x80, 0xF0,
    0xF0, 0x10, 0xF0, 0x10, 0xF0,
    0x90, 0x90, 0xF0, 0x10, 0x10,
    0xF0, 0x80, 0xF0, 0x10, 0xF0,
    0xF0, 0x80, 0xF0, 0x90, 0xF0,
    0xF0, 0x10, 0x20, 0x40, 0x40,
    0xF0, 0x90, 0xF0, 0x90, 0xF0,
    0xF0, 0x90, 0xF0, 0x10, 0xF0,
    0xF0, 0x90, 0xF0, 0x90, 0x90,
    0xE0, 0x90, 0xE0, 0x90, 0xE0,
    0xF0, 0x80, 0x80, 0x80, 0xF0,
    0xE0, 0x90, 0x90, 0x90, 0xE0,
    0xF0, 0x80, 0xF0, 0x80, 0xF0,
    0xF0, 0x80, 0xF0, 0x80, 0x80 ]

/-- Where programs are placed and where they start. -/
def programStart : Address := 0x200

/-- The most bytes a program may have: all of memory from `programStart` on. -/
def capacity : Nat := size - programStart.toNat

/-- Memory as the console is switched on: the font, and zeros above it. -/
def powerUp : Memory := ⟨Bank.ofFn fun a => font.getD a.toNat 0⟩

/-- The byte at an address. -/
def read (m : Memory) (a : Address) : Byte := m.cells.get a

/-- The memory with one byte written. -/
def write (m : Memory) (a : Address) (b : Byte) : Memory := ⟨m.cells.set a b⟩

/-- The sixteen-bit word at an address, high byte first. -/
def opcodeAt (m : Memory) (a : Address) : Word := m.read a ++ m.read (a + 1)

/-- The memory with bytes written from an address upwards. -/
def writeAll (m : Memory) (a : Address) : List Byte → Memory
  | [] => m
  | b :: bs => (m.write a b).writeAll (a + 1) bs

/-- The `n` bytes from an address upwards. -/
def slice (m : Memory) (a : Address) (n : Nat) : List Byte :=
  (List.range n).map fun k => m.read (a + BitVec.ofNat 12 k)

/-- A program image has more bytes than memory has room for. -/
structure Overfull where
  /-- How many bytes the image has. -/
  bytes : Nat
  deriving DecidableEq, Repr

/-- Place a program image at `programStart`. An image that does not fit changes nothing. -/
def load (m : Memory) (image : List Byte) : Except Overfull Memory :=
  if image.length ≤ capacity then .ok (m.writeAll programStart image) else .error ⟨image.length⟩

theorem read_write (m : Memory) (a c : Address) (b : Byte) :
    (m.write a b).read c = if a = c then b else m.read c :=
  Bank.get_set m.cells a c b

theorem read_powerUp (a : Address) : powerUp.read a = font.getD a.toNat 0 := by
  rw [read, powerUp, Bank.get_ofFn]

theorem length_slice (m : Memory) (a : Address) (n : Nat) : (m.slice a n).length = n := by
  simp [slice]

/-- A memory is what its addresses hold. -/
theorem ext_read {m n : Memory} (h : ∀ a, m.read a = n.read a) : m = n := by
  obtain ⟨m⟩ := m
  obtain ⟨n⟩ := n
  exact congrArg Memory.mk (Bank.ext_get h)

end Memory

end Chip8
