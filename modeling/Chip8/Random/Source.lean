import Chip8.Bank
import Chip8.Random.Twister

/-!
# Sources of random bytes

Where the console's random instruction takes its bytes from: a list gone through again and again, or
the Mersenne twister.

## Main definitions

* `RandomSource`: a source of random bytes
* `RandomSource.next`: the next byte and the source after it
-/

namespace Chip8

/-- A source of random bytes. -/
inductive RandomSource where
  /-- The values in turn, from the start again after the last one. -/
  | listed (values : List Int) (drawn : Nat)
  /-- Bytes drawn from the Mersenne twister. -/
  | twister (generator : Twister)

namespace RandomSource

/-- The source seeded by an integer. -/
def ofSeed (seed : Int) : RandomSource := .twister (Twister.ofSeed seed)

/-- Draw nine leading bits of successive words until they are less than 256. The leading bits of the
generator are equidistributed in 19937 dimensions, so no more than that many words in a row can be
refused, and `attempts` never runs out when it starts above that. -/
def byteOf (generator : Twister) : (attempts : Nat) → Byte × Twister
  | 0 => (0, generator)
  | attempts + 1 =>
    let (word, generator) := generator.next
    let bits := word >>> 23
    if bits < 256 then (BitVec.ofNat 8 bits.toNat, generator) else byteOf generator attempts

/-- The next byte, and the source after it. -/
def next : RandomSource → Byte × RandomSource
  | listed values drawn =>
    (BitVec.ofInt 8 (values.getD (drawn % values.length) 0), listed values (drawn + 1))
  | twister generator =>
    let (byte, generator) := byteOf generator 19938
    (byte, twister generator)

end RandomSource

end Chip8
