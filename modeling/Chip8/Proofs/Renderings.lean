import Chip8.Proofs.Joining
import Chip8.Proofs.Sprite
import Chip8.Toolkit

/-!
# One picture, three renderings

The text, the rows of colours and the painted surface show the same pixels, each of them in its
place. On the surface a pixel is a square of points. Whole squares are painted in the order of the
places, but they do not overlap, so that the colour of a point is that of the one square which it is
in. Nothing of the picture is lost: from the text alone all of its bytes can be told.

## Main definitions

* `Rectangle.Contains`, `Fill.Covers`: the points that are painted
* `Surface.colourAt?`: the colour of a point after all fills
* `Screen.ShownAt`: the renderings show a pixel

## Main statements

* `Screen.contains_square_iff`: the squares tile the plane
* `Screen.colourAt?_surface`: the colour of every point of the surface
* `Screen.renderings_agree`: the renderings show every pixel, and the text tells all bytes
-/

namespace Chip8

/-- The point lies in the rectangle, of which the right and the lower edge are no longer part. -/
def Rectangle.Contains (r : Rectangle) (px py : Int) : Prop :=
  (r.x ≤ px ∧ px < r.x + r.width) ∧ r.y ≤ py ∧ py < r.y + r.height

instance (r : Rectangle) (px py : Int) :
    Decidable (r.Contains px py) := inferInstanceAs (Decidable (_ ∧ _))

/-- The fill paints the point. Without a rectangle it paints every point. -/
def Fill.Covers (f : Fill) (px py : Int) : Prop := ∀ r ∈ f.area, r.Contains px py

instance (f : Fill) (px py : Int) : Decidable (f.Covers px py) :=
  inferInstanceAs (Decidable (∀ r ∈ f.area, r.Contains px py))

namespace Surface

/-- The colour of a point after a fill, from the one before it. -/
def paintAt (px py : Int) (colour : Option Int) (f : Fill) : Option Int :=
  if f.Covers px py then some f.colour else colour

/-- The colour of a point after all fills, if it is painted at all. -/
def colourAt? (s : Surface) (px py : Int) : Option Int := s.fills.foldl (paintAt px py) none

/-- Fills of one colour paint it on the points that any of them covers. -/
theorem foldl_paintAt {c : Int} {fills : List Fill} (hcolour : ∀ f ∈ fills, f.colour = c)
    (px py : Int) (colour : Option Int) :
    fills.foldl (paintAt px py) colour = if ∃ f ∈ fills, f.Covers px py then some c
      else colour := by
  induction fills generalizing colour with
  | nil => simp
  | cons f fills ih =>
    obtain ⟨hf, hfills⟩ := List.forall_mem_cons.1 hcolour
    rw [List.foldl_cons, ih hfills, paintAt, hf]
    simp only [List.mem_cons, exists_eq_or_imp]
    by_cases hlater : ∃ g, g ∈ fills ∧ g.Covers px py
    · rw [if_pos hlater, if_pos (.inr hlater)]
    · by_cases hcovers : f.Covers px py
      · rw [if_neg hlater, if_pos hcovers, if_pos (.inl hcovers)]
      · rw [if_neg hlater, if_neg hcovers, if_neg (not_or.2 ⟨hcovers, hlater⟩)]

end Surface

namespace Screen

/-! ## The surface -/

theorem mem_places {x y : Nat} : (x, y) ∈ places ↔ x < width ∧ y < height := by
  simp [places, and_comm]

/-- Every point of the plane is in one square. -/
theorem contains_square_iff {scale : Int} (hscale : 0 < scale) (x y : Nat) (px py : Int) :
    (square scale x y).Contains px py ↔ px / scale = x ∧ py / scale = y :=
  (and_congr (Int.ediv_eq_iff_of_pos hscale) (Int.ediv_eq_iff_of_pos hscale)).symm

/-- The points of a square are those that are less than its side away from its corner. -/
theorem contains_square_iff_offsets {scale px py : Int} {x y : Nat} :
    (square scale x y).Contains px py ↔
      ∃ i j, (0 ≤ i ∧ i < scale) ∧ (0 ≤ j ∧ j < scale) ∧ px = x * scale + i ∧
        py = y * scale + j := by
  simp only [Rectangle.Contains, square]
  constructor
  · intro h
    refine ⟨px - x * scale, py - y * scale, ?_⟩
    omega
  · rintro ⟨i, j, hi, hj, rfl, rfl⟩
    omega

/-- The fills that come after the background. -/
def squares (s : Screen) (scale : Int) : List Fill := (s.surface scale).fills.tail

/-- There is a square for each lit pixel. -/
theorem mem_squares_iff (s : Screen) {scale : Int} {f : Fill} :
    f ∈ s.squares scale ↔ ∃ x y, (x < width ∧ y < height) ∧ s.lit x y = true ∧
      f = ⟨s.palette.foreground, some (square scale x y)⟩ := by
  constructor
  · intro hf
    obtain ⟨⟨x, y⟩, hplace, rfl⟩ := List.mem_map.1 hf
    obtain ⟨hplace, hlit⟩ := List.mem_filter.1 hplace
    exact ⟨x, y, mem_places.1 hplace, hlit, rfl⟩
  · rintro ⟨x, y, hplace, hlit, rfl⟩
    exact List.mem_map_of_mem (List.mem_filter.2 ⟨mem_places.2 hplace, hlit⟩)

/-- A point is covered by the squares if the pixel whose square it is in is lit. -/
theorem exists_covers_iff (s : Screen) {scale px py : Int} {x y : Nat} (hscale : 0 < scale)
    (hx : x < width) (hy : y < height) (hpoint : (square scale x y).Contains px py) :
    (∃ f ∈ s.squares scale, f.Covers px py) ↔ s.lit x y = true := by
  constructor
  · rintro ⟨f, hf, hcovers⟩
    obtain ⟨x', y', -, hlit, rfl⟩ := s.mem_squares_iff.1 hf
    -- The point is in one square only, so this is the one that it is in.
    obtain ⟨hpx, hpy⟩ := (contains_square_iff hscale x y px py).1 hpoint
    obtain ⟨hpx', hpy'⟩ := (contains_square_iff hscale x' y' px py).1 (hcovers _ rfl)
    obtain rfl : x' = x := Int.ofNat.inj (hpx'.symm.trans hpx)
    obtain rfl : y' = y := Int.ofNat.inj (hpy'.symm.trans hpy)
    exact hlit
  · intro hlit
    refine ⟨_, s.mem_squares_iff.2 ⟨x, y, ⟨hx, hy⟩, hlit, rfl⟩, ?_⟩
    rintro r ⟨⟩
    exact hpoint

/-- A point of the surface has the colour of the pixel whose square it is in. -/
theorem colourAt?_surface (s : Screen) {scale px py : Int} {x y : Nat} (hscale : 0 < scale)
    (hx : x < width) (hy : y < height) (hpoint : (square scale x y).Contains px py) :
    (s.surface scale).colourAt? px py = some (Palette.colour s.palette (s.lit x y)) := by
  have hcolour : ∀ f ∈ s.squares scale, f.colour = s.palette.foreground := by
    intro f hf
    obtain ⟨x, y, -, -, rfl⟩ := s.mem_squares_iff.1 hf
    rfl
  have hbackground : Surface.paintAt px py none ⟨s.palette.background, none⟩ =
      some s.palette.background :=
    if_pos (by rintro r ⟨⟩)
  calc (s.surface scale).colourAt? px py
      = (s.squares scale).foldl (Surface.paintAt px py) (some s.palette.background) := by
        rw [← hbackground]
        rfl
    _ = if s.lit x y = true then some s.palette.foreground else some s.palette.background := by
        rw [Surface.foldl_paintAt hcolour]
        exact if_congr (s.exists_covers_iff hscale hx hy hpoint) rfl rfl
    _ = some (Palette.colour s.palette (s.lit x y)) := (apply_ite some ..).symm

/-- Every point of the surface is in the square of one pixel of the picture. -/
theorem existsUnique_square {scale px py : Int} (hscale : 0 < scale) (hpx : 0 ≤ px)
    (hpx' : px < width * scale) (hpy : 0 ≤ py) (hpy' : py < height * scale) :
    ∃! place : Nat × Nat, (place.1 < width ∧ place.2 < height) ∧
      (square scale place.1 place.2).Contains px py := by
  have hx : 0 ≤ px / scale := Int.ediv_nonneg hpx (Int.le_of_lt hscale)
  have hy : 0 ≤ py / scale := Int.ediv_nonneg hpy (Int.le_of_lt hscale)
  have hx' : px / scale < width := Int.ediv_lt_of_lt_mul hscale hpx'
  have hy' : py / scale < height := Int.ediv_lt_of_lt_mul hscale hpy'
  refine ⟨((px / scale).toNat, (py / scale).toNat), ⟨⟨?_, ?_⟩, ?_⟩, ?_⟩
  · exact (Int.toNat_lt hx).2 hx'
  · exact (Int.toNat_lt hy).2 hy'
  · exact (contains_square_iff hscale _ _ _ _).2 ⟨(Int.toNat_of_nonneg hx).symm,
      (Int.toNat_of_nonneg hy).symm⟩
  · rintro ⟨x, y⟩ ⟨-, hcontains⟩
    obtain ⟨hx, hy⟩ := (contains_square_iff hscale x y px py).1 hcontains
    rw [hx, hy]
    rfl

/-! ## The rows -/

/-- Row `y` of the picture. -/
theorem getElem?_picture (s : Screen) {y : Nat} (hy : y < height) :
    s.picture[y]? = some ((List.range width).map fun x => s.lit x y) := by
  simp [picture, hy]

/-- Row `y` with something for each of its pixels. -/
theorem exists_row {α : Type} (s : Screen) (display : Bool → α) {x y : Nat} (hx : x < width)
    (hy : y < height) :
    ∃ row, (s.picture.map (·.map display))[y]? = some row ∧
      row[x]? = some (display (s.lit x y)) := by
  refine ⟨_, by rw [List.getElem?_map, getElem?_picture s hy]; rfl, ?_⟩
  simp [hx]

theorem length_of_mem_map_picture {α : Type} {display : Bool → α} {s : Screen} {row : List α}
    (h : row ∈ s.picture.map (·.map display)) : row.length = width := by
  obtain ⟨pixels, hpixels, rfl⟩ := List.mem_map.1 h
  rw [List.length_map]
  exact length_of_mem_picture hpixels

theorem newline_notMem_textLines (s : Screen) {line : List Char} (h : line ∈ s.textLines) :
    '\n' ∉ line := by
  obtain ⟨row, -, rfl⟩ := List.mem_map.1 h
  rw [List.mem_map]
  rintro ⟨lit, -, hlit⟩
  cases lit <;> cases hlit

/-- The text has its lines. -/
theorem splitOn_text (s : Screen) : s.text.toList.splitOn '\n' = s.textLines :=
  Text.splitOn_lines (fun _ h => newline_notMem_textLines s h)
    (by simp [textLines, picture, height])

theorem character_injective : ∀ lit lit' : Bool, character lit = character lit' → lit = lit' :=
  by decide

/-- The text tells the bytes of the picture. -/
theorem bytes_eq_of_text_eq {s t : Screen} (h : s.text = t.text) : s.bytes = t.bytes := by
  have hlines : s.textLines = t.textLines := by rw [← splitOn_text, ← splitOn_text, h]
  have hpicture : s.picture = t.picture :=
    (List.map_inj_right fun _ _ => (List.map_inj_right character_injective).1).1 hlines
  refine ext_litIn fun x hx y hy => ?_
  obtain ⟨row, hrow, hcell⟩ := exists_row s id hx hy
  obtain ⟨row', hrow', hcell'⟩ := exists_row t id hx hy
  rw [hpicture, hrow'] at hrow
  cases hrow
  exact Option.some.inj (hcell.symm.trans hcell')

/-! ## All renderings -/

/-- The renderings show the pixel at `(x, y)`: a character of the text, a cell of the rows of
colours, and a square of points on the surface. -/
structure ShownAt (s : Screen) (surface : Surface) (scale : Int) (x y : Nat) (lit : Bool) :
    Prop where
  pixel : s.pixel x y = .ok lit
  character : ∃ row, (s.text.toList.splitOn '\n')[y]? = some row ∧
    row[x]? = some (if lit then '#' else '.')
  colour : ∃ row, s.colours[y]? = some row ∧
    row[x]? = some (if lit then s.palette.foreground else s.palette.background)
  square : ∀ i j, 0 ≤ i → i < scale → 0 ≤ j → j < scale →
    surface.colourAt? (x * scale + i) (y * scale + j) =
      some (if lit then s.palette.foreground else s.palette.background)

theorem shownAt_surface (s : Screen) {scale : Int} (hscale : 0 < scale) {x y : Nat} (hx : x < width)
    (hy : y < height) : ShownAt s (s.surface scale) scale x y (s.lit x y) where
  pixel := pixel_natCast s hx hy
  character := by
    rw [splitOn_text]
    exact exists_row s character hx hy
  colour := exists_row s (Palette.colour s.palette) hx hy
  square i j hi hi' hj hj' :=
    colourAt?_surface s hscale hx hy
      (contains_square_iff_offsets.2 ⟨i, j, ⟨hi, hi'⟩, ⟨hj, hj'⟩, rfl, rfl⟩)

/-- **All renderings show the same picture and lose nothing.** At every positive scale the screen is
painted on a surface of 64 by 32 squares; text and colours have 32 rows of 64 cells; every pixel is
shown by its character, its colour and all points of its square; every point of the surface is in
the square of one pixel; and screens with the same text have the same bytes. -/
theorem renderings_agree (s : Screen) (toolkit : Toolkit) (scale : Int) (hscale : 1 ≤ scale) :
    ∃ surface, s.paint (some toolkit) scale = .ok surface ∧
      (surface.width = 64 * scale ∧ surface.height = 32 * scale) ∧
      ((s.text.toList.splitOn '\n').length = 32 ∧ ∀ line ∈ s.text.toList.splitOn '\n',
        line.length = 64) ∧
      (s.colours.length = 32 ∧ ∀ row ∈ s.colours, row.length = 64) ∧
      (∀ x < 64, ∀ y < 32, ∃ lit, ShownAt s surface scale x y lit) ∧
      (∀ px py, 0 ≤ px → px < surface.width → 0 ≤ py → py < surface.height →
        ∃! place : Nat × Nat, (place.1 < 64 ∧ place.2 < 32) ∧
          ∃ i j, (0 ≤ i ∧ i < scale) ∧ (0 ≤ j ∧ j < scale) ∧ px = place.1 * scale + i ∧
            py = place.2 * scale + j) ∧
      ∀ t : Screen, s.text = t.text → s.bytes = t.bytes := by
  have hpos : 0 < scale := hscale
  refine ⟨s.surface scale, ?_, ⟨rfl, rfl⟩, ⟨?_, ?_⟩, ⟨?_, ?_⟩, ?_, ?_, fun _ => bytes_eq_of_text_eq⟩
  · rw [paint, if_neg (Int.not_le.2 hpos)]
  · rw [splitOn_text, textLines, List.length_map]
    exact length_picture s
  · rw [splitOn_text]
    exact fun _ => length_of_mem_map_picture
  · rw [colours, List.length_map]
    exact length_picture s
  · exact fun _ => length_of_mem_map_picture
  · exact fun x hx y hy => ⟨_, shownAt_surface s hpos hx hy⟩
  · intro px py hpx hpx' hpy hpy'
    obtain ⟨place, ⟨hplace, hcontains⟩, hunique⟩ := existsUnique_square hpos hpx hpx' hpy hpy'
    refine ⟨place, ⟨hplace, contains_square_iff_offsets.1 hcontains⟩, ?_⟩
    rintro other ⟨hother, hoffsets⟩
    exact hunique other ⟨hother, contains_square_iff_offsets.2 hoffsets⟩

/-- The upper left pixel alone, painted with squares of three by three points. -/
theorem renderings_agree_corner :
    (1 : Int) ≤ 3 ∧
      ∃ surface, paint { bytes := (Bank.fill 0).set 0 0x80 } (some {}) 3 = .ok surface ∧
        surface.colourAt? 2 1 = some 0xFFFFFF ∧ surface.colourAt? 3 1 = some 0x000000 := by
  obtain ⟨surface, hpaint, -, -, -, hshown, -⟩ :=
    renderings_agree { bytes := (Bank.fill 0).set 0 0x80 } {} 3 (by decide)
  refine ⟨by decide, surface, hpaint, ?_, ?_⟩
  · obtain ⟨lit, hlit⟩ := hshown 0 (by decide) 0 (by decide)
    cases hlit.pixel
    exact hlit.square 2 1 (by decide) (by decide) (by decide) (by decide)
  · obtain ⟨lit, hlit⟩ := hshown 1 (by decide) 0 (by decide)
    cases hlit.pixel
    exact hlit.square 0 1 (by decide) (by decide) (by decide) (by decide)

end Screen

end Chip8
