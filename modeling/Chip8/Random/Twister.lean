/-!
# The Mersenne twister

The generator MT19937: 624 words of state, renewed all at once by a linear recurrence and read out
through a tempering function. The state is seeded from a list of words.

## Main definitions

* `Twister.ofSeed`: the generator seeded by an integer
* `Twister.next`: the next word and the generator after it
-/

namespace Chip8

/-- The state of an MT19937 generator. -/
structure Twister where
  /-- The words of the recurrence. -/
  words : Vector UInt32 624
  /-- How many of them have been read out since they were last renewed. -/
  used : Nat

namespace Twister

/-- Words of state. -/
abbrev degree : Nat := 624

/-- Words between the two operands of the recurrence. -/
def offset : Nat := 397

/-- The word at a position counted around the state. -/
def word (words : Vector UInt32 degree) (i : Nat) : UInt32 :=
  words.get (Fin.ofNat degree i)

/-- The state with one word replaced. -/
def put (words : Vector UInt32 degree) (i : Nat) (x : UInt32) : Vector UInt32 degree :=
  words.set (i % degree) x (Nat.mod_lt _ (by decide))

/-- A word folded onto its own top bits, as both seeding passes use it. -/
def folded (x : UInt32) : UInt32 := x ^^^ (x >>> 30)

/-- The state grown from one word. -/
def ofWord (seed : UInt32) : Vector UInt32 degree :=
  (List.range (degree - 1)).foldl
    (fun words k => put words (k + 1) (1812433253 * folded (word words k) + UInt32.ofNat (k + 1)))
    (put (Vector.replicate degree 0) 0 seed)

/-- Replace word `i` of the state, `0 < i`, and carry the last word around to the front after it. -/
def stir (words : Vector UInt32 degree) (i : Nat) (x : UInt32) : Vector UInt32 degree :=
  let words := put words i x
  if i + 1 = degree then put words 0 x else words

/-- The position after `i` in a seeding pass, which never visits the front. -/
def following (i : Nat) : Nat := if i + 1 < degree then i + 1 else 1

/-- The state seeded from a list of words. The first pass mixes the words in, each with its place in
the list; the second mixes the positions out. -/
def ofWords (key : List UInt32) : Vector UInt32 degree :=
  let key := key.toArray
  let rounds := max degree key.size
  let mixIn := fun (words, i, j) (_ : Nat) =>
    let x :=
      (word words i ^^^ (folded (word words (i - 1)) * 1664525)) + key.getD j 0 + UInt32.ofNat j
    (stir words i x, following i, if j + 1 < key.size then j + 1 else 0)
  let (words, i, _) := (List.range rounds).foldl mixIn (ofWord 19650218, 1, 0)
  let mixOut := fun (words, i) (_ : Nat) =>
    let x := (word words i ^^^ (folded (word words (i - 1)) * 1566083941)) - UInt32.ofNat i
    (stir words i x, following i)
  let (words, _) := (List.range (degree - 1)).foldl mixOut (words, i)
  put words 0 0x80000000

/-- The 32-bit words of a number, least significant first. Zero has one word. -/
def wordsOf (n : Nat) : List UInt32 :=
  if n < 0x100000000 then [UInt32.ofNat n] else UInt32.ofNat n :: wordsOf (n / 0x100000000)

/-- The generator seeded by an integer. The sign does not matter. -/
def ofSeed (seed : Int) : Twister := ⟨ofWords (wordsOf seed.natAbs), degree⟩

/-- One pass of the recurrence over the whole state. -/
def renew (words : Vector UInt32 degree) : Vector UInt32 degree :=
  (List.range degree).foldl (fun words k =>
    let y := (word words k &&& 0x80000000) ||| (word words (k + 1) &&& 0x7FFFFFFF)
    let x := word words (k + offset) ^^^ (y >>> 1)
    put words k (if y &&& 1 = 0 then x else x ^^^ 0x9908B0DF)) words

/-- The tempering of a word before it is given out. -/
def temper (x : UInt32) : UInt32 :=
  let x := x ^^^ (x >>> 11)
  let x := x ^^^ ((x <<< 7) &&& 0x9D2C5680)
  let x := x ^^^ ((x <<< 15) &&& 0xEFC60000)
  x ^^^ (x >>> 18)

/-- The next word, and the generator after it. -/
def next (t : Twister) : UInt32 × Twister :=
  let t := if t.used < degree then t else ⟨renew t.words, 0⟩
  (temper (word t.words t.used), { t with used := t.used + 1 })

end Twister

end Chip8
