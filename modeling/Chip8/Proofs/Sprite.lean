import Chip8.Screen
import Mathlib.Tactic.Common

/-!
# Sprites, pixel by pixel

A sprite is combined into the packed picture byte by byte, through a window of sixteen bits. Seen
from the pixels it is simpler: a sprite row puts its eight bits on eight columns of one line of the
picture, and every set bit turns the pixel under it over. This file proves that the two views agree.

## Main definitions

* `Screen.cell`, `Screen.litIn`: one byte and one pixel of a packed picture
* `Screen.rowCovers`: whether a sprite row drawn at a column has a set bit on another column
* `Screen.turned`: how the pixels are turned over by a sprite of any number of rows
* `Screen.Covers`: whether a sprite has a set bit on a pixel

## Main statements

* `Screen.litIn_blit`: a sprite turns pixels over, and no others
* `Screen.snd_blit_iff`: a collision is a set bit on a lit pixel
* `Screen.draw_pixels`: what a sprite of at most 32 rows does to every pixel
-/

namespace Chip8

namespace Screen

/-- The byte of a packed picture in a column of bytes and a line. -/
def cell (column line : Nat) : BitVec 8 := BitVec.ofNat 8 (column + rowBytes * line)

/-- Whether the pixel at a place on a packed picture is lit. -/
def litIn (f : Framebuffer) (x y : Nat) : Bool := (f.get (cell (x / 8) y)).getMsbD (x % 8)

/-- Whether a sprite row drawn from column `x` on has a set bit on column `px`. -/
def rowCovers (sprite : Byte) (x px : Nat) : Bool :=
  decide (x ≤ px ∧ px - x ≤ 7) && sprite.getLsbD (7 - (px - x))

/-- Whether the first `rows` rows of a sprite turn a pixel over, one after the other. A pixel that
is covered by two rows, as it can be by a sprite of more rows than the picture has, is turned over
twice. -/
def turned (read : Address → Byte) (a : Address) (x y : Nat) : (rows : Nat) → (px py : Nat) → Bool
  | 0, _, _ => false
  | rows + 1, px, py =>
    turned read a x y rows px py ^^
      (decide ((y + rows) % height = py) && rowCovers (read (a + BitVec.ofNat 12 rows)) x px)

/-- A sprite of `rows` rows has a set bit on a pixel. -/
def Covers (read : Address → Byte) (a : Address) (x y rows px py : Nat) : Prop :=
  ∃ row < rows, (y + row) % height = py ∧ rowCovers (read (a + BitVec.ofNat 12 row)) x px = true

instance (read : Address → Byte) (a : Address) (x y rows px py : Nat) :
    Decidable (Covers read a x y rows px py) :=
  inferInstanceAs (Decidable (∃ row < rows, _ ∧ _))

/-- On the picture, a pixel can be asked for by any two numbers. -/
theorem pixel_natCast (s : Screen) {x y : Nat} (hx : x < width) (hy : y < height) :
    s.pixel x y = .ok (s.lit x y) := by
  simp only [width, height] at hx hy
  have hcell : (x : Int) / 8 + (rowBytes : Int) * y = ((x / 8 + rowBytes * y : Nat) : Int) := by
    push_cast
    rfl
  have hplace : place 8 ((x / 8 + rowBytes * y : Nat) : Int) = .ok (cell (x / 8) y) := by
    have hbytes : rowBytes = 8 := rfl
    have hcount : addressCount 8 = 256 := rfl
    refine place_eq_ok_iff.2 ⟨⟨?_, ?_⟩, BitVec.ofInt_natCast ..⟩
    · omega
    · rw [hbytes, hcount]
      omega
  have hbit : ((x : Int) % 8).toNat = x % 8 := by omega
  rw [pixel, hcell, hplace, hbit]
  rfl

/-! ## One byte -/

theorem exists_getMsbD_of_ne_zero {b : Byte} (h : b ≠ 0) : ∃ k < 8, b.getMsbD k = true := by
  by_contra hnone
  apply h
  apply BitVec.eq_of_getMsbD_eq
  intro k hk
  have hfalse : b.getMsbD k ≠ true := fun hlit => hnone ⟨k, hk, hlit⟩
  simpa using hfalse

theorem cell_inj {c d y z : Nat} (hc : c < 8) (hd : d < 8) (hy : y < height) (hz : z < height) :
    cell c y = cell d z ↔ c = d ∧ y = z := by
  simp only [height] at hy hz
  have hbytes : rowBytes = 8 := rfl
  rw [cell, cell, hbytes, ← BitVec.toNat_inj, BitVec.toNat_ofNat, BitVec.toNat_ofNat]
  omega

theorem ext_litIn {f g : Framebuffer}
    (h : ∀ x < width, ∀ y < height, litIn f x y = litIn g x y) : f = g := by
  apply Bank.ext_get
  intro i
  apply BitVec.eq_of_getMsbD_eq
  intro k hk
  have hi := i.isLt
  have hx : (8 * (i.toNat % 8) + k) / 8 = i.toNat % 8 := by omega
  have hbit : (8 * (i.toNat % 8) + k) % 8 = k := by omega
  have hcell : cell (i.toNat % 8) (i.toNat / 8) = i := by
    have hbytes : rowBytes = 8 := rfl
    rw [cell, hbytes, Nat.mod_add_div, BitVec.ofNat_toNat, BitVec.setWidth_eq]
  have hpixel := h (8 * (i.toNat % 8) + k) (by simp only [width]; omega) (i.toNat / 8)
    (by simp only [height]; omega)
  rwa [litIn, litIn, hx, hbit, hcell] at hpixel

/-- Screens with the same pixels on the picture, the same mark and the same colours are the same. -/
theorem ext_lit {s t : Screen} (hlit : ∀ x < width, ∀ y < height, s.lit x y = t.lit x y)
    (hdirty : s.dirty = t.dirty) (hpalette : s.palette = t.palette) : s = t := by
  have hbytes : s.bytes = t.bytes := ext_litIn hlit
  exact (Screen.mk.injEq ..).mpr ⟨hbytes, hdirty, hpalette⟩

theorem litIn_blitByte (f : Framebuffer) (i : BitVec 8) (pixels : Byte) (x y : Nat) :
    litIn (blitByte f i pixels).1 x y =
      (litIn f x y ^^
        (decide (i = cell (x / 8) y) && pixels.getMsbD (x % 8))) := by
  simp only [litIn, blitByte, Bank.get_set]
  split
  next h => simp [h]
  next h => simp [h]

/-- Combining into one byte hits a lit pixel if a set bit meets one. -/
theorem snd_blitByte_iff (f : Framebuffer) (i : BitVec 8) (pixels : Byte) :
    (blitByte f i pixels).2 = true ↔
      ∃ k < 8, (f.get i).getMsbD k = true ∧ pixels.getMsbD k = true := by
  simp only [blitByte, bne_iff_ne]
  constructor
  · intro h
    obtain ⟨k, hk, hboth⟩ := exists_getMsbD_of_ne_zero h
    rw [BitVec.getMsbD_and, Bool.and_eq_true] at hboth
    exact ⟨k, hk, hboth⟩
  · rintro ⟨k, hk, hlit, hset⟩ hzero
    have hboth : (f.get i &&& pixels).getMsbD k = true := by
      rw [BitVec.getMsbD_and, hlit, hset]
      rfl
    rw [hzero] at hboth
    simp at hboth

/-! ## One row -/

theorem getMsbD_window_left (sprite : Byte) {shift k : Nat} (hshift : shift < 8) (hk : k < 8) :
    ((window sprite shift >>> 8).setWidth 8 : Byte).getMsbD k =
      (decide (shift ≤ k) && sprite.getMsbD (k - shift)) := by
  simp only [window, BitVec.getMsbD_eq_getLsbD, BitVec.getLsbD_setWidth, BitVec.getLsbD_ushiftRight,
    BitVec.getLsbD_shiftLeft]
  by_cases h : shift ≤ k
  · have hidx : 8 + (8 - 1 - k) - (8 - shift) = 8 - 1 - (k - shift) := by omega
    rw [hidx]
    grind
  · grind

theorem getMsbD_window_right (sprite : Byte) {shift k : Nat} (hshift : shift < 8) (hk : k < 8) :
    ((window sprite shift).setWidth 8 : Byte).getMsbD k =
      (decide (k < shift) && sprite.getMsbD (8 + k - shift)) := by
  simp only [window, BitVec.getMsbD_eq_getLsbD, BitVec.getLsbD_setWidth, BitVec.getLsbD_shiftLeft]
  by_cases h : k < shift
  · have hidx : (8 - 1 - k) - (8 - shift) = 8 - 1 - (8 + k - shift) := by omega
    rw [hidx]
    grind
  · grind

/-- A row covers a column with the bit that lies as far from its left end. -/
theorem rowCovers_eq_getMsbD (sprite : Byte) (x px : Nat) :
    rowCovers sprite x px = (decide (x ≤ px ∧ px - x ≤ 7) && sprite.getMsbD (px - x)) := by
  by_cases h : x ≤ px ∧ px - x ≤ 7
  · have hk : px - x < 8 := by omega
    simp [rowCovers, h, hk, BitVec.getMsbD_eq_getLsbD]
  · simp only [rowCovers, h, decide_false, Bool.false_and]

/-- The columns that a row covers are the right part of one byte and the left part of the next. -/
theorem rowCovers_eq_halves (sprite : Byte) (x px : Nat) :
    rowCovers sprite x px =
      ((decide (x / 8 = px / 8) && (decide (x % 8 ≤ px % 8) && sprite.getMsbD (px % 8 - x % 8))) ^^
        (decide (x / 8 + 1 = px / 8) &&
          (decide (px % 8 < x % 8) && sprite.getMsbD (8 + px % 8 - x % 8)))) := by
  rw [rowCovers_eq_getMsbD]
  -- A column is in the byte where the row starts, in the byte after it, or in neither.
  by_cases hsame : x / 8 = px / 8
  · have hwithin : decide (x ≤ px ∧ px - x ≤ 7) = decide (x % 8 ≤ px % 8) :=
      decide_eq_decide.2 (by omega)
    have hidx : px % 8 - x % 8 = px - x := by omega
    rw [hwithin, hidx]
    simp [hsame]
  · by_cases hnext : x / 8 + 1 = px / 8
    · have hwithin : decide (x ≤ px ∧ px - x ≤ 7) = decide (px % 8 < x % 8) :=
        decide_eq_decide.2 (by omega)
      have hidx : 8 + px % 8 - x % 8 = px - x := by omega
      rw [hwithin, hidx]
      simp [hsame, hnext]
    · have hwithout : ¬(x ≤ px ∧ px - x ≤ 7) := by omega
      simp only [hsame, hnext, hwithout, decide_false, Bool.false_and, Bool.xor_false]

theorem rowOffset_natCast (c y : Nat) :
    rowOffset c y = ((c + rowBytes * (y % height) : Nat) : Int) := by
  rw [rowOffset]
  push_cast
  exact Int.add_comm ..

theorem blitRow_eq (f : Framebuffer) (sprite : Byte) (c y shift : Nat) :
    blitRow f sprite c y shift =
      let left := blitByte f (cell c (y % height)) ((window sprite shift >>> 8).setWidth 8)
      let right := blitByte left.1 (cell (c + 1) (y % height)) ((window sprite shift).setWidth 8)
      if c + 1 < 8 then (right.1, left.2 || right.2) else left := by
  have hleft : BitVec.ofInt 8 (rowOffset c y) = cell c (y % height) := by
    rw [rowOffset_natCast, BitVec.ofInt_natCast, cell]
  have hright : cell c (y % height) + 1 = cell (c + 1) (y % height) := by
    rw [cell, cell, Nat.add_right_comm, BitVec.ofNat_add _ 1]
    rfl
  have hedge : ((c : Int) + 1 < (rowBytes : Int)) ↔ c + 1 < 8 := by
    have hbytes : rowBytes = 8 := rfl
    omega
  simp only [blitRow, hleft, hright, hedge]

/-- A sprite row turns over the pixels of its line that it has set bits on. What falls past the
right edge is not on the picture. -/
theorem litIn_blitRow (f : Framebuffer) (sprite : Byte) {x px py : Nat} (y : Nat) (hx : x < width)
    (hpx : px < width) (hpy : py < height) :
    litIn (blitRow f sprite (x / 8 : Nat) y (x % 8)).1 px py =
      (litIn f px py ^^ (decide (y % height = py) && rowCovers sprite x px)) := by
  simp only [width] at hx hpx
  have hline : y % height < height := Nat.mod_lt _ (by decide)
  have hshift : x % 8 < 8 := Nat.mod_lt _ (by decide)
  have hbit : px % 8 < 8 := Nat.mod_lt _ (by decide)
  have hleft := cell_inj (c := x / 8) (d := px / 8) (by omega) (by omega) hline hpy
  rw [blitRow_eq, rowCovers_eq_halves]
  dsimp only
  split
  next hinside =>
    have hright := cell_inj (c := x / 8 + 1) (d := px / 8) (by omega) (by omega) hline hpy
    simp only [litIn_blitByte, getMsbD_window_left _ hshift hbit,
      getMsbD_window_right _ hshift hbit, hleft, hright]
    by_cases hy : y % height = py <;> simp [hy]
  next hedge =>
    -- The byte after the last one of a line would be on the next line. No column of this line is in
    -- it.
    have hright : ¬x / 8 + 1 = px / 8 := by omega
    simp only [litIn_blitByte, getMsbD_window_left _ hshift hbit, hleft, hright]
    by_cases hy : y % height = py <;> simp [hy]

/-- The left part of a sprite row hits the lit pixels of the byte that it starts in. -/
theorem snd_left_iff (f : Framebuffer) (sprite : Byte) (x line : Nat) :
    (blitByte f (cell (x / 8) line) ((window sprite (x % 8) >>> 8).setWidth 8)).2 = true ↔
      ∃ px, px / 8 = x / 8 ∧ litIn f px line = true ∧ rowCovers sprite x px = true := by
  have hshift : x % 8 < 8 := Nat.mod_lt _ (by decide)
  rw [snd_blitByte_iff]
  constructor
  · rintro ⟨k, hk, hlit, hset⟩
    have hdiv : (8 * (x / 8) + k) / 8 = x / 8 := by omega
    have hmod : (8 * (x / 8) + k) % 8 = k := by omega
    refine ⟨8 * (x / 8) + k, hdiv, ?_, ?_⟩
    · rw [litIn, hdiv, hmod, hlit]
    · rw [getMsbD_window_left _ hshift hk] at hset
      rw [rowCovers_eq_halves, hdiv, hmod, hset]
      simp
  · rintro ⟨px, hsame, hlit, hcovers⟩
    have hk : px % 8 < 8 := Nat.mod_lt _ (by decide)
    refine ⟨px % 8, hk, ?_, ?_⟩
    · rwa [litIn, hsame] at hlit
    · rw [getMsbD_window_left _ hshift hk]
      simpa [rowCovers_eq_halves, hsame] using hcovers

/-- The right part of a sprite row hits the lit pixels of the byte after the one that it starts
in. -/
theorem snd_right_iff (f : Framebuffer) (sprite : Byte) (x line : Nat) :
    (blitByte f (cell (x / 8 + 1) line) ((window sprite (x % 8)).setWidth 8)).2 = true ↔
      ∃ px, px / 8 = x / 8 + 1 ∧ litIn f px line = true ∧ rowCovers sprite x px = true := by
  have hshift : x % 8 < 8 := Nat.mod_lt _ (by decide)
  rw [snd_blitByte_iff]
  constructor
  · rintro ⟨k, hk, hlit, hset⟩
    have hdiv : (8 * (x / 8 + 1) + k) / 8 = x / 8 + 1 := by omega
    have hmod : (8 * (x / 8 + 1) + k) % 8 = k := by omega
    refine ⟨8 * (x / 8 + 1) + k, hdiv, ?_, ?_⟩
    · rw [litIn, hdiv, hmod, hlit]
    · rw [getMsbD_window_right _ hshift hk] at hset
      rw [rowCovers_eq_halves, hdiv, hmod, hset]
      simp
  · rintro ⟨px, hnext, hlit, hcovers⟩
    have hk : px % 8 < 8 := Nat.mod_lt _ (by decide)
    refine ⟨px % 8, hk, ?_, ?_⟩
    · rwa [litIn, hnext] at hlit
    · rw [getMsbD_window_right _ hshift hk]
      simpa [rowCovers_eq_halves, hnext] using hcovers

/-- A byte that is combined into does not change what is hit in the next one. -/
theorem snd_blitByte_next (f : Framebuffer) {c line : Nat} (hc : c + 1 < 8) (hline : line < height)
    (pixels next : Byte) :
    (blitByte (blitByte f (cell c line) pixels).1 (cell (c + 1) line) next).2 =
      (blitByte f (cell (c + 1) line) next).2 := by
  have hne : cell c line ≠ cell (c + 1) line := by
    rw [Ne, cell_inj (by omega) hc hline hline]
    omega
  simp only [blitByte, Bank.get_set_of_ne _ _ hne]

/-- A sprite row hits a lit pixel of its line if it has a set bit on one. -/
theorem snd_blitRow_iff (f : Framebuffer) (sprite : Byte) {x : Nat} (y : Nat) (hx : x < width) :
    (blitRow f sprite (x / 8 : Nat) y (x % 8)).2 = true ↔
      ∃ px < width, litIn f px (y % height) = true ∧ rowCovers sprite x px = true := by
  simp only [width] at hx ⊢
  have hline : y % height < height := Nat.mod_lt _ (by decide)
  rw [blitRow_eq]
  dsimp only
  constructor
  · split
    next hinside =>
      rw [snd_blitByte_next f hinside hline, Bool.or_eq_true, snd_left_iff, snd_right_iff]
      rintro (⟨px, hbyte, hmeets⟩ | ⟨px, hbyte, hmeets⟩)
      · exact ⟨px, by omega, hmeets⟩
      · exact ⟨px, by omega, hmeets⟩
    next hedge =>
      rw [snd_left_iff]
      rintro ⟨px, hbyte, hmeets⟩
      exact ⟨px, by omega, hmeets⟩
  · rintro ⟨px, hpx, hlit, hcovers⟩
    have hwithin : x ≤ px ∧ px - x ≤ 7 := by
      rw [rowCovers, Bool.and_eq_true, decide_eq_true_iff] at hcovers
      exact hcovers.1
    split
    next hinside =>
      rw [snd_blitByte_next f hinside hline, Bool.or_eq_true, snd_left_iff, snd_right_iff]
      by_cases hbyte : px / 8 = x / 8
      · exact .inl ⟨px, hbyte, hlit, hcovers⟩
      · exact .inr ⟨px, by omega, hlit, hcovers⟩
    next hedge =>
      rw [snd_left_iff]
      exact ⟨px, by omega, hlit, hcovers⟩

/-! ## All rows -/

theorem blit_succ (f : Framebuffer) (m : Memory) (a : Address) (x y rows : Nat) :
    blit f m a x y (rows + 1) =
      let before := blit f m a x y rows
      let row := blitRow before.1 (m.read (a + BitVec.ofNat 12 rows)) (x / 8 : Nat)
        ((y + rows : Nat) : Int) (x % 8)
      (row.1, before.2 || row.2) := by
  have hshift : ((x : Int) % 8).toNat = x % 8 := by omega
  simp only [blit, List.range_succ, List.foldl_append, List.foldl_cons, List.foldl_nil, hshift]
  push_cast
  rfl

/-- A sprite turns pixels over, row by row, and changes no others. -/
theorem litIn_blit (f : Framebuffer) (m : Memory) (a : Address) {x px py : Nat} (y rows : Nat)
    (hx : x < width) (hpx : px < width) (hpy : py < height) :
    litIn (blit f m a x y rows).1 px py = (litIn f px py ^^ turned m.read a x y rows px py) := by
  induction rows with
  | zero => simp [blit, turned]
  | succ rows ih =>
    rw [blit_succ, turned]
    dsimp only
    rw [litIn_blitRow _ _ _ hx hpx hpy, ih, Bool.xor_assoc]

/-! ## Sprites that are not taller than the picture -/

theorem turned_eq_false (read : Address → Byte) (a : Address) (x y px py : Nat) :
    ∀ {rows : Nat}, (∀ row < rows, (y + row) % height ≠ py) → turned read a x y rows px py = false
  | 0, _ => rfl
  | rows + 1, h => by
    have hbefore : turned read a x y rows px py = false :=
      turned_eq_false read a x y px py fun row hrow => h row (by omega)
    have hline : (y + rows) % height ≠ py := h rows (by omega)
    simp [turned, hbefore, hline]

/-- The lines of a sprite that is not taller than the picture are different ones. -/
theorem line_injective {y i j : Nat} (hi : i < height) (hj : j < height)
    (h : (y + i) % height = (y + j) % height) : i = j := by
  simp only [height] at *
  omega

/-- A sprite that is not taller than the picture turns over what it covers. -/
theorem turned_iff_covers (read : Address → Byte) (a : Address) (x y px py : Nat) {rows : Nat}
    (h : rows ≤ height) : turned read a x y rows px py = true ↔ Covers read a x y rows px py := by
  induction rows with
  | zero => simp [turned, Covers]
  | succ rows ih =>
    by_cases hline : (y + rows) % height = py
    -- The last row is on the line of the pixel, so no other row is.
    · have hothers : ∀ row < rows, (y + row) % height ≠ py := by
        intro row hrow hsame
        have heq := line_injective (by omega) (by omega) (hsame.trans hline.symm)
        omega
      rw [turned, turned_eq_false read a x y px py hothers]
      simp only [hline, decide_true, Bool.true_and, Bool.false_xor]
      constructor
      · exact fun hcovers => ⟨rows, by omega, hline, hcovers⟩
      · rintro ⟨row, hrow, hsame, hcovers⟩
        have heq := line_injective (by omega) (by omega) (hsame.trans hline.symm)
        rwa [← heq]
    · rw [turned]
      simp only [hline, decide_false, Bool.false_and, Bool.xor_false]
      rw [ih (by omega)]
      constructor
      · rintro ⟨row, hrow, hcovers⟩
        exact ⟨row, by omega, hcovers⟩
      · rintro ⟨row, hrow, hsame, hcovers⟩
        refine ⟨row, ?_, hsame, hcovers⟩
        have hne : row ≠ rows := fun heq => hline (heq ▸ hsame)
        omega

/-- On the line of one of its rows, such a sprite turns over what that row covers. -/
theorem turned_eq_rowCovers (read : Address → Byte) (a : Address) (x y px : Nat) {rows row py : Nat}
    (h : rows ≤ height) (hrow : row < rows) (hline : (y + row) % height = py) :
    turned read a x y rows px py = rowCovers (read (a + BitVec.ofNat 12 row)) x px := by
  rw [Bool.eq_iff_iff, turned_iff_covers read a x y px py h]
  constructor
  · rintro ⟨other, hother, hsame, hcovers⟩
    have heq := line_injective (by omega) (by omega) (hsame.trans hline.symm)
    rwa [← heq]
  · exact fun hcovers => ⟨row, hrow, hline, hcovers⟩

/-- A sprite that is not taller than the picture reports a collision if it covers a pixel that was
lit before it was drawn. -/
theorem snd_blit_iff (f : Framebuffer) (m : Memory) (a : Address) {x : Nat} (y : Nat) {rows : Nat}
    (hx : x < width) (h : rows ≤ height) :
    (blit f m a x y rows).2 = true ↔
      ∃ px < width, ∃ py < height, litIn f px py = true ∧ Covers m.read a x y rows px py := by
  induction rows with
  | zero => simp [blit, Covers]
  | succ rows ih =>
    have hline : (y + rows) % height < height := Nat.mod_lt _ (by decide)
    -- No earlier row was combined into the line of this one, so its pixels are still the old ones.
    have hfresh : ∀ px < width, litIn (blit f m a x y rows).1 px ((y + rows) % height) =
        litIn f px ((y + rows) % height) := by
      intro px hpx
      have hothers : ∀ row < rows, (y + row) % height ≠ (y + rows) % height := by
        intro row hrow hsame
        have heq := line_injective (by omega) (by omega) hsame
        omega
      rw [litIn_blit f m a y rows hx hpx hline, turned_eq_false m.read a x y px _ hothers,
        Bool.xor_false]
    rw [blit_succ, Bool.or_eq_true, ih (by omega), snd_blitRow_iff _ _ _ hx]
    constructor
    · rintro (⟨px, hpx, py, hpy, hlit, row, hrow, hcovers⟩ | ⟨px, hpx, hlit, hcovers⟩)
      · exact ⟨px, hpx, py, hpy, hlit, row, by omega, hcovers⟩
      · rw [hfresh px hpx] at hlit
        exact ⟨px, hpx, _, hline, hlit, rows, by omega, rfl, hcovers⟩
    · rintro ⟨px, hpx, py, hpy, hlit, row, hrow, hsame, hcovers⟩
      by_cases hlast : row = rows
      · subst hlast
        subst hsame
        exact .inr ⟨px, hpx, by rwa [hfresh px hpx], hcovers⟩
      · exact .inl ⟨px, hpx, py, hpy, hlit, row, by omega, hsame, hcovers⟩

/-! ## Drawing -/

/-- To the right of its left edge, the picture has a place for every row. -/
theorem firstMisplaced?_eq_none {c : Nat} (hc : c < 8) (y : Int) (rows : Nat) :
    firstMisplaced? c y rows = none := by
  rw [firstMisplaced?, List.findSome?_eq_none_iff]
  intro row hrow
  have hplace : place 8 (rowOffset c (y + row)) = .ok (BitVec.ofInt 8 (rowOffset c (y + row))) := by
    have hbytes : rowBytes = 8 := rfl
    have hlines : height = 32 := rfl
    have hcount : addressCount 8 = 256 := rfl
    refine place_eq_ok_iff.2 ⟨?_, rfl⟩
    rw [rowOffset, hbytes, hlines, hcount]
    omega
  rw [hplace]

/-- On the picture, drawing combines the sprite and marks the picture as changed. -/
theorem draw_eq_blit (s : Screen) (m : Memory) (a : Address) {x : Nat} (y rows : Nat)
    (hx : x < width) :
    s.draw m a x y rows =
      .ok (blit s.bytes m a x y rows).2
        { s with bytes := (blit s.bytes m a x y rows).1, dirty := true } := by
  have hinside : (x : Int) / 8 < (rowBytes : Int) := by
    have hbytes : rowBytes = 8 := rfl
    simp only [width] at hx
    omega
  have hcolumn : x / 8 < 8 := by
    simp only [width] at hx
    omega
  have hnone := firstMisplaced?_eq_none hcolumn y rows
  push_cast at hnone
  simp only [draw, hinside, if_true, hnone]

/-- To the right of the picture, drawing changes no pixel. -/
theorem draw_past_edge (s : Screen) (m : Memory) (a : Address) {x : Nat} (y rows : Nat)
    (hx : width ≤ x) : s.draw m a x y rows = .ok false { s with dirty := true } := by
  have houtside : ¬(x : Int) / 8 < (rowBytes : Int) := by
    have hbytes : rowBytes = 8 := rfl
    simp only [width] at hx
    omega
  simp only [draw, houtside, if_false]
  rfl

theorem rowCovers_eq_false (sprite : Byte) {x px : Nat} (h : px < x) :
    rowCovers sprite x px = false := by
  have hleft : ¬(x ≤ px ∧ px - x ≤ 7) := by omega
  rw [rowCovers, decide_eq_false hleft, Bool.false_and]

theorem turned_left_eq_false (read : Address → Byte) (a : Address) {x px : Nat} (y py : Nat)
    (h : px < x) :
    ∀ rows, turned read a x y rows px py = false
  | 0 => rfl
  | rows + 1 => by
    rw [turned, turned_left_eq_false read a y py h rows, rowCovers_eq_false _ h, Bool.and_false]
    rfl

theorem le_of_covers {read : Address → Byte} {a : Address} {x y rows px py : Nat}
    (h : Covers read a x y rows px py) : x ≤ px := by
  obtain ⟨row, _, _, hcovers⟩ := h
  by_contra hlt
  rw [rowCovers_eq_false _ (by omega)] at hcovers
  cases hcovers

/-- Drawing at any place at or to the right of the left edge turns over the pixels that the sprite
meets on the picture, and leaves the colours alone. -/
theorem exists_draw (s : Screen) (m : Memory) (a : Address) (x y rows : Nat) :
    ∃ hit t, s.draw m a x y rows = .ok hit t ∧
      (∀ px < width, ∀ py < height, t.lit px py = (s.lit px py ^^ turned m.read a x y rows px py)) ∧
      (rows ≤ height → (hit = true ↔
        ∃ px < width, ∃ py < height, s.lit px py = true ∧ Covers m.read a x y rows px py)) ∧
      t.dirty = true ∧ t.palette = s.palette := by
  by_cases hx : x < width
  · refine ⟨_, _, draw_eq_blit s m a y rows hx, ?_, snd_blit_iff s.bytes m a y hx, rfl, rfl⟩
    intro px hpx py hpy
    exact litIn_blit s.bytes m a y rows hx hpx hpy
  · have hpast : width ≤ x := by omega
    refine ⟨_, _, draw_past_edge s m a y rows hpast, ?_, ?_, rfl, rfl⟩
    · intro px hpx py hpy
      rw [turned_left_eq_false m.read a y py (by omega) rows, Bool.xor_false]
      rfl
    · intro _
      constructor
      · intro hfalse
        cases hfalse
      · rintro ⟨px, hpx, py, hpy, _, hcovers⟩
        have hle := le_of_covers hcovers
        omega

/-- A sprite of at most 32 rows meets each pixel of the picture with at most one of its bits, and
the pixel is turned over if that bit is set: rows go around at the bottom, columns past the right
edge are dropped. A collision is a set bit on a pixel that was lit. The picture counts as changed in
any case. -/
theorem draw_pixels (s : Screen) (m : Memory) (address : Int) (x y rows : Nat) (h : rows ≤ height) :
    ∃ hit t, s.draw m (BitVec.ofInt 12 address) x y rows = .ok hit t ∧
      (∀ px < width, ∀ py < height, ∃ old, s.pixel px py = .ok old ∧
        (∀ row < rows, (y + row) % height = py → x ≤ px → px - x ≤ 7 →
          t.pixel px py =
            .ok (old ^^ (m.read (BitVec.ofInt 12 (address + row))).getLsbD (7 - (px - x)))) ∧
        ((∀ row < rows, (y + row) % height = py → ¬(x ≤ px ∧ px - x ≤ 7)) →
          t.pixel px py = .ok old)) ∧
      (hit = true ↔ ∃ px < width, ∃ py < height, s.pixel px py = .ok true ∧
        ∃ row < rows, (y + row) % height = py ∧ (x ≤ px ∧ px - x ≤ 7) ∧
          (m.read (BitVec.ofInt 12 (address + row))).getLsbD (7 - (px - x)) = true) ∧
      t.dirty = true := by
  have haddress : ∀ row : Nat,
      BitVec.ofInt 12 (address + row) = BitVec.ofInt 12 address + BitVec.ofNat 12 row := by
    intro row
    rw [BitVec.ofInt_add, BitVec.ofInt_natCast]
  obtain ⟨hit, t, hdraw, hlit, hhit, hdirty, -⟩ :=
    exists_draw s m (BitVec.ofInt 12 address) x y rows
  refine ⟨hit, t, hdraw, ?_, ?_, hdirty⟩
  · intro px hpx py hpy
    refine ⟨s.lit px py, pixel_natCast s hpx hpy, ?_, ?_⟩
    · intro row hrow hline hle hlt
      rw [pixel_natCast t hpx hpy, hlit px hpx py hpy,
        turned_eq_rowCovers m.read _ x y px h hrow hline, haddress, rowCovers]
      simp [hle, hlt]
    · intro hnone
      have hfalse : turned m.read (BitVec.ofInt 12 address) x y rows px py = false := by
        rw [Bool.eq_false_iff, Ne, turned_iff_covers m.read _ x y px py h]
        rintro ⟨row, hrow, hline, hcovers⟩
        rw [rowCovers, Bool.and_eq_true, decide_eq_true_iff] at hcovers
        exact hnone row hrow hline hcovers.1
      rw [pixel_natCast t hpx hpy, hlit px hpx py hpy, hfalse, Bool.xor_false]
  · rw [hhit h]
    simp only [Covers, rowCovers, Bool.and_eq_true, decide_eq_true_iff, haddress]
    constructor
    · rintro ⟨px, hpx, py, hpy, hold, hcovers⟩
      exact ⟨px, hpx, py, hpy, by rw [pixel_natCast s hpx hpy, hold], hcovers⟩
    · rintro ⟨px, hpx, py, hpy, hold, hcovers⟩
      rw [pixel_natCast s hpx hpy] at hold
      exact ⟨px, hpx, py, hpy, Except.ok.inj hold, hcovers⟩

/-- The glyph of the digit `0`, drawn across the lower right corner of a dark picture, goes around
to the top line, is cut off at the right edge and hits nothing. -/
theorem draw_pixels_corner :
    5 ≤ height ∧ ∃ hit t, ({} : Screen).draw .powerUp (BitVec.ofInt 12 0) 62 30 5 = .ok hit t ∧
      t.pixel 62 31 = .ok true ∧ t.pixel 62 1 = .ok true ∧ t.pixel 0 30 = .ok false ∧
      hit = false := by
  have hdark : ∀ px < width, ∀ py < height, ({} : Screen).pixel px py = .ok false := by
    intro px hpx py hpy
    rw [pixel_natCast _ hpx hpy]
    simp [lit]
  refine ⟨by decide, ?_⟩
  obtain ⟨hit, t, hdraw, hpixels, hhit, -⟩ := draw_pixels {} .powerUp 0 62 30 5 (by decide)
  refine ⟨hit, t, hdraw, ?_, ?_, ?_, ?_⟩
  · obtain ⟨old, hold, hset, -⟩ := hpixels 62 (by decide) 31 (by decide)
    rw [hdark 62 (by decide) 31 (by decide)] at hold
    cases hold
    have hnew := hset 1 (by decide) rfl (by decide) (by decide)
    rw [Memory.read_powerUp] at hnew
    exact hnew
  · obtain ⟨old, hold, hset, -⟩ := hpixels 62 (by decide) 1 (by decide)
    rw [hdark 62 (by decide) 1 (by decide)] at hold
    cases hold
    have hnew := hset 3 (by decide) rfl (by decide) (by decide)
    rw [Memory.read_powerUp] at hnew
    exact hnew
  · obtain ⟨old, hold, -, hunset⟩ := hpixels 0 (by decide) 30 (by decide)
    rw [hdark 0 (by decide) 30 (by decide)] at hold
    cases hold
    exact hunset fun row _ _ hcolumn => absurd hcolumn.1 (by decide)
  · rw [Bool.eq_false_iff]
    intro htrue
    obtain ⟨px, hpx, py, hpy, hlit, -⟩ := hhit.1 htrue
    rw [hdark px hpx py hpy] at hlit
    cases hlit

end Screen

end Chip8
