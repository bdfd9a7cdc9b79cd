import Chip8.Screen

/-!
# Pictures of the screen

Three ways to show the same pixels: as text, as rows of colours, and as a surface painted with
filled rectangles at any whole scale.

## Main definitions

* `Screen.picture`: the pixels, row by row
* `Screen.text`: a character for each pixel
* `Screen.colours`: a colour for each pixel
* `Screen.surface`: a painted surface
-/

namespace Chip8

/-- A rectangle by its upper left corner and its extent. -/
structure Rectangle where
  x : Int
  y : Int
  width : Int
  height : Int
  deriving DecidableEq, Repr

/-- One step of painting: a colour, over a rectangle or over everything. -/
structure Fill where
  colour : Int
  area : Option Rectangle
  deriving DecidableEq, Repr

/-- A painted surface: its extent, and its fills in the order in which they are applied. -/
structure Surface where
  width : Int
  height : Int
  fills : List Fill
  deriving DecidableEq, Repr

namespace Screen

/-- The places of the picture, row by row. -/
def places : List (Nat × Nat) :=
  (List.range height).flatMap fun y => (List.range width).map fun x => (x, y)

/-- The pixels, row by row. -/
def picture (s : Screen) : List (List Bool) :=
  (List.range height).map fun y => (List.range width).map fun x => s.lit x y

/-- The character that shows a pixel. -/
def character (lit : Bool) : Char := if lit then '#' else '.'

/-- The lines that show the picture, a character for each pixel. -/
def textLines (s : Screen) : List (List Char) := s.picture.map (·.map character)

/-- The picture as text. -/
def text (s : Screen) : String := "\n".intercalate (s.textLines.map String.ofList)

/-- The colour that shows a pixel. -/
def Palette.colour (p : Palette) (lit : Bool) : Int := if lit then p.foreground else p.background

/-- The picture as rows of colours. -/
def colours (s : Screen) : List (List Int) := s.picture.map (·.map (Palette.colour s.palette))

/-- The square that shows the pixel at `(x, y)` at a scale. -/
def square (scale : Int) (x y : Nat) : Rectangle := ⟨x * scale, y * scale, scale, scale⟩

/-- The picture painted at a scale: the background everywhere, then a square for each lit pixel. -/
def surface (s : Screen) (scale : Int) : Surface where
  width := width * scale
  height := height * scale
  fills :=
    ⟨s.palette.background, none⟩ ::
      (places.filter fun (x, y) => s.lit x y).map fun (x, y) =>
        ⟨s.palette.foreground, some (square scale x y)⟩

theorem length_picture (s : Screen) : s.picture.length = height := by
  simp [picture]

theorem length_of_mem_picture {s : Screen} {row : List Bool} (h : row ∈ s.picture) :
    row.length = width := by
  obtain ⟨y, _, rfl⟩ := List.mem_map.1 h
  simp

end Screen

end Chip8
