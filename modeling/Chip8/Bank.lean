/-!
# Banks of cells

Every store of the console is a power of two in size and is addressed by a word of the matching
width, so an address can never be out of range and address arithmetic wraps by itself. `Bank w α` is
such a store: main memory is a bank of twelve-bit addresses, the register file one of four-bit
addresses.

## Main definitions

* `Bank w α`: a cell of type `α` for each address of `w` bits
* `Bank.get`, `Bank.set`: read and write one cell
* `Bank.fill`, `Bank.ofFn`, `Bank.toList`: whole banks

## Main statements

* `Bank.get_set`: a write changes the cell written and no other
* `Bank.ext_get`: a bank is what its cells hold
-/

namespace Chip8

/-- An eight-bit value. -/
abbrev Byte := BitVec 8

/-- A sixteen-bit value. -/
abbrev Word := BitVec 16

/-- A four-bit value: the number of a register or of a key. -/
abbrev Nibble := BitVec 4

/-- How many addresses of `w` bits there are. -/
abbrev addressCount (w : Nat) : Nat := Nat.pow 2 w

/-- A cell for each `w`-bit address. -/
structure Bank (w : Nat) (α : Type) where
  cells : Vector α (addressCount w)
  deriving DecidableEq

namespace Bank

variable {w : Nat} {α : Type}

/-- The bank in which every cell holds `a`. -/
def fill (a : α) : Bank w α := ⟨Vector.replicate (addressCount w) a⟩

/-- The bank whose cell `i` holds `f i`. -/
def ofFn (f : BitVec w → α) : Bank w α := ⟨Vector.ofFn fun i => f (BitVec.ofFin i)⟩

/-- The content of cell `i`. -/
def get (b : Bank w α) (i : BitVec w) : α :=
  have : i.toNat < addressCount w := i.isLt
  b.cells[i.toNat]

/-- The bank with `a` written to cell `i`. -/
def set (b : Bank w α) (i : BitVec w) (a : α) : Bank w α := ⟨b.cells.set i.toNat a i.isLt⟩

/-- The contents in ascending order of address. -/
def toList (b : Bank w α) : List α := b.cells.toList

/-- A write changes the cell written and no other. -/
theorem get_set (b : Bank w α) (i j : BitVec w) (a : α) :
    (b.set i a).get j = if i = j then a else b.get j := by
  simp only [get, set, Vector.getElem_set, BitVec.toNat_inj]

@[simp] theorem get_set_self (b : Bank w α) (i : BitVec w) (a : α) : (b.set i a).get i = a := by
  simp [get_set]

theorem get_set_of_ne (b : Bank w α) {i j : BitVec w} (a : α) (h : i ≠ j) :
    (b.set i a).get j = b.get j := by
  simp [get_set, h]

@[simp] theorem get_fill (a : α) (i : BitVec w) : (fill a : Bank w α).get i = a := by
  simp [get, fill]

@[simp] theorem get_ofFn (f : BitVec w → α) (i : BitVec w) : (ofFn f).get i = f i := by
  simp [get, ofFn]

/-- A bank is what its cells hold. -/
theorem ext_get {b c : Bank w α} (h : ∀ i, b.get i = c.get i) : b = c := by
  obtain ⟨b⟩ := b
  obtain ⟨c⟩ := c
  congr 1
  ext i hi
  simpa [get] using h (BitVec.ofNatLT i hi)

@[simp] theorem length_toList (b : Bank w α) : b.toList.length = addressCount w := by
  simp [toList]

end Bank

end Chip8
