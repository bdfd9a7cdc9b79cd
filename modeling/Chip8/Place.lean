import Chip8.Bank

/-!
# Places counted from either end

A bank can also be addressed by any integer: its cells are counted from the front, beginning with
`0`, and from the back, beginning with `-1`. Every other number names no cell.

## Main definitions

* `place`: the cell that a number names, or why it names none
* `Misplaced`: what a number that names no cell was meant to do

## Main statements

* `place_eq_ok_iff`: which numbers name a cell, and which cell
* `place_natCast`: addresses name their own cells
-/

namespace Chip8

/-- Why a number names no cell. -/
inductive PlaceError where
  /-- It is past either end of the bank. -/
  | pastEnd
  /-- It is past all that a machine word can count. -/
  | pastWord
  deriving DecidableEq, Repr

/-- What a cell was wanted for. -/
inductive Access where
  /-- To look at pixels or to change them. -/
  | pixels
  /-- To read a register or an entry of the return stack. -/
  | reading
  /-- To write a register or an entry of the return stack. -/
  | writing
  deriving DecidableEq, Repr

/-- A cell was wanted by a number that names none. -/
structure Misplaced where
  access : Access
  cause : PlaceError
  deriving DecidableEq, Repr

/-- What is said about a number that names no cell. -/
def Misplaced.message (m : Misplaced) : String :=
  match m.cause, m.access with
  | .pastWord, _ => "cannot fit 'int' into an index-sized integer"
  | .pastEnd, .pixels => "bytearray index out of range"
  | .pastEnd, .reading => "list index out of range"
  | .pastEnd, .writing => "list assignment index out of range"

/-- The least number above what a signed machine word holds. -/
def wordLimit : Int := 0x8000000000000000

/-- The cell of a bank of `w`-bit addresses that a number names. -/
def place (w : Nat) (i : Int) : Except PlaceError (BitVec w) :=
  if -(addressCount w : Int) ≤ i ∧ i < addressCount w then .ok (BitVec.ofInt w i)
  else if -wordLimit ≤ i ∧ i < wordLimit then .error .pastEnd
  else .error .pastWord

/-- A number names a cell if it is within reach of one of the ends, and then it is the cell's
address up to a whole turn around the bank. -/
theorem place_eq_ok_iff {w : Nat} {i : Int} {a : BitVec w} :
    place w i = .ok a ↔ (-(addressCount w : Int) ≤ i ∧ i < addressCount w) ∧
      BitVec.ofInt w i = a := by
  unfold place
  split
  next inside => exact ⟨fun h => ⟨inside, Except.ok.inj h⟩, fun h => congrArg Except.ok h.2⟩
  next outside =>
    constructor
    · intro h
      split at h <;> cases h
    · exact fun h => absurd h.1 outside

/-- An address counts its own cell from the front. -/
theorem place_natCast {w : Nat} (a : BitVec w) : place w (a.toNat : Int) = .ok a := by
  refine place_eq_ok_iff.2 ⟨⟨?_, ?_⟩, ?_⟩
  · exact Int.le_trans (Int.neg_nonpos_of_nonneg (Int.natCast_nonneg _)) (Int.natCast_nonneg _)
  · exact Int.ofNat_lt.2 a.isLt
  · exact BitVec.eq_of_toNat_eq (by simp)

end Chip8
