import Chip8.Bank

/-!
# The keypad

Sixteen independent keys, numbered by their hexadecimal legends.

## Main definitions

* `Keypad.press`, `Keypad.release`, `Keypad.isDown`: one key
* `Keypad.firstDown`: the lowest key held down
* `keyOfInt`: the key that a number names, if it names one

## Main statements

* `Keypad.isDown_press`, `Keypad.isDown_release`: one key changes and no other
-/

namespace Chip8

/-- Which keys are held down. -/
structure Keypad where
  down : Bank 4 Bool
  deriving DecidableEq

namespace Keypad

/-- All keys, in ascending order. -/
def keys : List Nibble := (List.range 16).map (BitVec.ofNat 4)

/-- No key is down. -/
def released : Keypad := ⟨Bank.fill false⟩

/-- The keypad with a key pressed. -/
def press (p : Keypad) (k : Nibble) : Keypad := ⟨p.down.set k true⟩

/-- The keypad with a key let go. -/
def release (p : Keypad) (k : Nibble) : Keypad := ⟨p.down.set k false⟩

/-- Whether a key is held down. -/
def isDown (p : Keypad) (k : Nibble) : Bool := p.down.get k

/-- The keys held down, in ascending order. -/
def pressed (p : Keypad) : List Nibble := keys.filter p.isDown

/-- The lowest key held down. -/
def firstDown (p : Keypad) : Option Nibble := keys.find? p.isDown

theorem isDown_press (p : Keypad) (k j : Nibble) :
    (p.press k).isDown j = (decide (k = j) || p.isDown j) := by
  by_cases h : k = j <;> simp [isDown, press, Bank.get_set, h]

theorem isDown_release (p : Keypad) (k j : Nibble) :
    (p.release k).isDown j = (!decide (k = j) && p.isDown j) := by
  by_cases h : k = j <;> simp [isDown, release, Bank.get_set, h]

end Keypad

/-- The key that a number names: only `0` to `15` name one. -/
def keyOfInt (k : Int) : Option Nibble :=
  if 0 ≤ k ∧ k < 16 then some (BitVec.ofInt 4 k) else none

end Chip8
