import Chip8.Memory
import Chip8.Place

/-!
# The screen

A picture of 64 by 32 one-bit pixels, packed eight to a byte with the leftmost pixel in the highest
bit. Pixel `(x, y)` is bit `x % 8` from the left of byte `x / 8 + 8 * y`.

Sprites are eight pixels wide and are combined into the picture by exclusive or. A sprite row that
does not start on a byte boundary covers the right part of one byte and the left part of the next;
what falls past the right edge is dropped, and rows past the bottom come in again at the top. Left
of the picture the bytes are counted on, back into the rows above and from the first byte to the
last one, as far as they are there.

## Main definitions

* `Screen.lit`, `Screen.pixel`: one pixel
* `Screen.draw`: combine a sprite into the picture, reporting a collision
* `Screen.clear`: all pixels dark
-/

namespace Chip8

/-- The two colours of a picture, as red-green-blue numbers. -/
structure Palette where
  background : Int := 0x000000
  foreground : Int := 0xFFFFFF
  deriving DecidableEq

/-- The packed pixels: 32 rows of 8 bytes. -/
abbrev Framebuffer := Bank 8 Byte

/-- The picture, and whether it changed since the host last showed it. -/
structure Screen where
  bytes : Framebuffer := Bank.fill 0
  dirty : Bool := false
  palette : Palette := {}
  deriving DecidableEq

namespace Screen

/-- Pixels in a row. -/
def width : Nat := 64

/-- Rows of the picture. -/
def height : Nat := 32

/-- Bytes in a row. -/
def rowBytes : Nat := width / 8

/-- All pixels dark. The picture counts as changed even if it was dark before. -/
def clear (s : Screen) : Screen := { s with bytes := Bank.fill 0, dirty := true }

/-- Whether the pixel at a place on the picture is lit. -/
def lit (s : Screen) (x y : Nat) : Bool :=
  (s.bytes.get (BitVec.ofNat 8 (x / 8 + rowBytes * y))).getMsbD (x % 8)

/-- The pixel at a place given by any two numbers, if the picture reaches that far. -/
def pixel (s : Screen) (x y : Int) : Except PlaceError Bool :=
  (place 8 (x / 8 + rowBytes * y)).map fun i => (s.bytes.get i).getMsbD (x % 8).toNat

/-- Combine eight pixels into one byte of the picture. The flag tells whether a lit pixel was
hit. -/
def blitByte (f : Framebuffer) (i : BitVec 8) (pixels : Byte) : Framebuffer × Bool :=
  (f.set i (f.get i ^^^ pixels), f.get i &&& pixels != 0)

/-- A sprite row moved right by `shift` pixels, across the two bytes it then covers. -/
def window (sprite : Byte) (shift : Nat) : BitVec 16 := sprite.setWidth 16 <<< (8 - shift)

/-- Where in the packed picture a row has its byte of a column. Rows go around. -/
def rowOffset (column y : Int) : Int := rowBytes * (y % height) + column

/-- Combine one sprite row into row `y` of the picture, from column byte `column` on. Columns past
the right edge are dropped. -/
def blitRow (f : Framebuffer) (sprite : Byte) (column y : Int) (shift : Nat) : Framebuffer × Bool :=
  let pixels := window sprite shift
  let offset := BitVec.ofInt 8 (rowOffset column y)
  let (f, hitLeft) := blitByte f offset ((pixels >>> 8).setWidth 8)
  if column + 1 < rowBytes then
    let (f, hitRight) := blitByte f (offset + 1) (pixels.setWidth 8)
    (f, hitLeft || hitRight)
  else (f, hitLeft)

/-- Combine `rows` sprite rows, read from memory at `a`, into the picture with the upper left corner
at `(x, y)`. The flag tells whether a lit pixel was hit. -/
def blit (f : Framebuffer) (m : Memory) (a : Address) (x y : Int) (rows : Nat) :
    Framebuffer × Bool :=
  (List.range rows).foldl (fun (f, hit) row =>
    let (f, hitRow) := blitRow f (m.read (a + BitVec.ofNat 12 row)) (x / 8) (y + row) (x % 8).toNat
    (f, hit || hitRow)) (f, false)

/-- The first of `rows` sprite rows that the picture does not reach, and why. Rows go around, so
only as many as the picture has need to be looked at. -/
def firstMisplaced? (column y : Int) (rows : Nat) : Option (Nat × PlaceError) :=
  (List.range (min rows height)).findSome? fun (row : Nat) =>
    match place 8 (rowOffset column (y + row)) with
    | .ok _ => none
    | .error cause => some (row, cause)

/-- Draw a sprite of `rows` rows at `(x, y)`. A sprite that starts past the right edge draws
nothing. If the picture does not reach far enough to the left, drawing stops at the first row it has
no place for. -/
def draw (s : Screen) (m : Memory) (a : Address) (x y : Int) (rows : Nat) :
    EStateM.Result PlaceError Screen Bool :=
  let rows := if x / 8 < rowBytes then rows else 0
  match firstMisplaced? (x / 8) y rows with
  | none =>
    let (bytes, hit) := blit s.bytes m a x y rows
    .ok hit { s with bytes, dirty := true }
  | some (row, cause) => .error cause { s with bytes := (blit s.bytes m a x y row).1 }

@[simp] theorem lit_clear (s : Screen) (x y : Nat) : s.clear.lit x y = false := by
  simp [lit, clear]

end Screen

end Chip8
