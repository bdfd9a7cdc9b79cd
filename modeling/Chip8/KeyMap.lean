import Chip8.Bank

/-!
# Host keys

The left four columns of a keyboard stand for the keypad, in the keypad's own arrangement:

    1 2 3 4      1 2 3 C
    q w e r  ->  4 5 6 D
    a s d f      7 8 9 E
    z x c v      A 0 B F
-/

namespace Chip8

/-- Which key of the keypad each key of the host stands for. -/
def keyMap : List (Char × Nibble) :=
  [ ('1', 0x1), ('2', 0x2), ('3', 0x3), ('4', 0xC),
    ('q', 0x4), ('w', 0x5), ('e', 0x6), ('r', 0xD),
    ('a', 0x7), ('s', 0x8), ('d', 0x9), ('f', 0xE),
    ('z', 0xA), ('x', 0x0), ('c', 0xB), ('v', 0xF) ]

/-- The key of the keypad that a key code of the host stands for. -/
def keypadKey? (code : Int) : Option Nibble :=
  (keyMap.find? fun (c, _) => (c.toNat : Int) = code).map (·.2)

end Chip8
