import Chip8.Proofs.Sprite

/-!
# Sprites as an action on pictures

Drawing a sprite turns over some pixels of the picture, and which ones they are does not depend on
the picture. So sprites can be drawn in any order, and drawing one again undoes it. That also ties
the collisions of the two drawings together: what the first one turns on, the second one hits.

## Main definitions

* `Sprite`: a sprite in memory, and where it is drawn
* `Sprite.drawAll`: draw sprites one after the other
* `Sprite.turns`, `Sprite.Covers`: the pixels it turns over, and those it has a set bit on
* `Sprite.Turns`: a screen is what another one becomes when the sprite is drawn

## Main statements

* `Sprite.Turns.undo`: drawing a sprite again undoes it
* `Sprite.drawAll_perm`: sprites can be drawn in any order
* `Sprite.draw_action`: how two drawings on a screen go together
-/

namespace Chip8

/-- A sprite in memory, and where it is drawn. -/
structure Sprite where
  memory : Memory
  address : Address
  x : Nat
  y : Nat
  rows : Nat

namespace Sprite

open Screen (width height)

/-- Draw a sprite on a screen, reporting a collision. -/
def draw (p : Sprite) : EStateM PlaceError Screen Bool :=
  fun s => s.draw p.memory p.address p.x p.y p.rows

/-- Draw sprites one after the other. -/
def drawAll : List Sprite → EStateM PlaceError Screen Unit
  | [] => pure ()
  | p :: ps => do
    let _ ← p.draw
    drawAll ps

/-- Whether the sprite turns a pixel over. -/
def turns (p : Sprite) (px py : Nat) : Bool :=
  Screen.turned p.memory.read p.address p.x p.y p.rows px py

/-- The sprite has a set bit on a pixel. -/
def Covers (p : Sprite) (px py : Nat) : Prop :=
  Screen.Covers p.memory.read p.address p.x p.y p.rows px py

instance (p : Sprite) (px py : Nat) :
    Decidable (p.Covers px py) := inferInstanceAs (Decidable (Screen.Covers ..))

/-- A sprite that is not taller than the picture turns over the pixels that it has set bits on. -/
theorem turns_iff_covers {p : Sprite} (h : p.rows ≤ height) (px py : Nat) :
    p.turns px py = true ↔ p.Covers px py :=
  Screen.turned_iff_covers p.memory.read p.address p.x p.y px py h

/-- The second screen is what the first one becomes when the sprite is drawn. -/
structure Turns (p : Sprite) (s t : Screen) : Prop where
  lit : ∀ px < width, ∀ py < height, t.lit px py = (s.lit px py ^^ p.turns px py)
  dirty : t.dirty = true
  palette : t.palette = s.palette

namespace Turns

variable {p q : Sprite} {s t t' u u' : Screen}

/-- Two sprites can be drawn in either order. -/
theorem comm (hp : p.Turns s t) (hq : q.Turns t u) (hq' : q.Turns s t') (hp' : p.Turns t' u') :
    u = u' := by
  apply Screen.ext_lit
  · intro px hpx py hpy
    calc u.lit px py
      _ = ((s.lit px py ^^ p.turns px py) ^^ q.turns px py) := by
        rw [hq.lit px hpx py hpy, hp.lit px hpx py hpy]
      _ = ((s.lit px py ^^ q.turns px py) ^^ p.turns px py) := Bool.xor_right_comm ..
      _ = u'.lit px py := by rw [hp'.lit px hpx py hpy, hq'.lit px hpx py hpy]
  · rw [hq.dirty, hp'.dirty]
  · rw [hq.palette, hp.palette, hp'.palette, hq'.palette]

/-- Drawing a sprite again undoes it, and leaves but the mark that the picture changed. -/
theorem undo (hp : p.Turns s t) (hp' : p.Turns t u) : u = { s with dirty := true } := by
  apply Screen.ext_lit
  · intro px hpx py hpy
    calc u.lit px py
      _ = ((s.lit px py ^^ p.turns px py) ^^ p.turns px py) := by
        rw [hp'.lit px hpx py hpy, hp.lit px hpx py hpy]
      _ = s.lit px py := by rw [Bool.xor_assoc, Bool.xor_self, Bool.xor_false]
  · exact hp'.dirty
  · rw [hp'.palette, hp.palette]

/-- Where the sprite has a set bit, what was dark is lit and the other way around. -/
theorem lit_of_covers (hp : p.Turns s t) (h : p.rows ≤ height) {px py : Nat} (hpx : px < width)
    (hpy : py < height) (hcovers : p.Covers px py) : t.lit px py = !s.lit px py := by
  rw [hp.lit px hpx py hpy, (turns_iff_covers h px py).2 hcovers, Bool.xor_true]

end Turns

/-- Drawing ends well, and hits what the sprite covers of the lit pixels. -/
theorem exists_draw (p : Sprite) (s : Screen) :
    ∃ hit t, p.draw s = .ok hit t ∧ p.Turns s t ∧
      (p.rows ≤ height → (hit = true ↔
        ∃ px < width, ∃ py < height, s.lit px py = true ∧ p.Covers px py)) := by
  obtain ⟨hit, t, hdraw, hlit, hhit, hdirty, hpalette⟩ :=
    s.exists_draw p.memory p.address p.x p.y p.rows
  exact ⟨hit, t, hdraw, ⟨hlit, hdirty, hpalette⟩, hhit⟩

/-- Two sprites leave the same screen in either order. -/
theorem exists_draw_comm (p q : Sprite) (s : Screen) :
    ∃ hitP t hitQ u hitQ' t' hitP', p.draw s = .ok hitP t ∧ q.draw t = .ok hitQ u ∧
      q.draw s = .ok hitQ' t' ∧ p.draw t' = .ok hitP' u := by
  obtain ⟨hitP, t, hp, hturnsP, -⟩ := p.exists_draw s
  obtain ⟨hitQ, u, hq, hturnsQ, -⟩ := q.exists_draw t
  obtain ⟨hitQ', t', hq', hturnsQ', -⟩ := q.exists_draw s
  obtain ⟨hitP', u', hp', hturnsP', -⟩ := p.exists_draw t'
  obtain rfl : u = u' := hturnsP.comm hturnsQ hturnsQ' hturnsP'
  exact ⟨hitP, t, hitQ, u, hitQ', t', hitP', hp, hq, hq', hp'⟩

theorem drawAll_cons {p : Sprite} {s t : Screen} {hit : Bool} (hdraw : p.draw s = .ok hit t)
    (ps : List Sprite) : drawAll (p :: ps) s = drawAll ps t := by
  simp only [drawAll, bind, EStateM.bind, hdraw]

/-- Sprites leave the same screen in any order. -/
theorem drawAll_perm {ps qs : List Sprite} (hperm : ps.Perm qs) (s : Screen) :
    drawAll ps s = drawAll qs s := by
  induction hperm generalizing s with
  | nil => rfl
  | cons p _ ih =>
    obtain ⟨hit, t, hdraw, -⟩ := p.exists_draw s
    rw [drawAll_cons hdraw, drawAll_cons hdraw, ih]
  | swap p q ps =>
    obtain ⟨hitP, t, hitQ, u, hitQ', t', hitP', hp, hq, hq', hp'⟩ := p.exists_draw_comm q s
    rw [drawAll_cons hq', drawAll_cons hp', drawAll_cons hp, drawAll_cons hq]
  | trans _ _ ih ih' => exact (ih s).trans (ih' s)

/-- **Drawing is an action by exclusive or**: on any screen, two sprites can be drawn in either
order, and drawing a sprite twice undoes it. Of a sprite that is not taller than the picture, the
second drawing hits what it covers of the dark pixels, and one of the two drawings hits something if
the sprite covers anything. -/
theorem draw_action (s : Screen) (p q : Sprite) :
    (∃ hitP t hitQ u hitQ' t' hitP', p.draw s = .ok hitP t ∧ q.draw t = .ok hitQ u ∧
      q.draw s = .ok hitQ' t' ∧ p.draw t' = .ok hitP' u) ∧
    ∃ first t second u, p.draw s = .ok first t ∧ p.draw t = .ok second u ∧
      u = { s with dirty := true } ∧
      (p.rows ≤ height →
        (second = true ↔ ∃ px < width, ∃ py < height, s.lit px py = false ∧ p.Covers px py) ∧
        ((first || second) = true ↔ ∃ px < width, ∃ py < height, p.Covers px py)) := by
  obtain ⟨first, t, hdraw, hturns, hfirst⟩ := p.exists_draw s
  obtain ⟨second, u, hagain, hturns', hsecond⟩ := p.exists_draw t
  refine ⟨p.exists_draw_comm q s, first, t, second, u, hdraw, hagain, hturns.undo hturns', ?_⟩
  intro h
  have hdark : second = true ↔
      ∃ px < width, ∃ py < height, s.lit px py = false ∧ p.Covers px py := by
    rw [hsecond h]
    constructor
    · rintro ⟨px, hpx, py, hpy, hlit, hcovers⟩
      rw [hturns.lit_of_covers h hpx hpy hcovers, Bool.not_eq_true'] at hlit
      exact ⟨px, hpx, py, hpy, hlit, hcovers⟩
    · rintro ⟨px, hpx, py, hpy, hlit, hcovers⟩
      refine ⟨px, hpx, py, hpy, ?_, hcovers⟩
      rw [hturns.lit_of_covers h hpx hpy hcovers, hlit]
      rfl
  refine ⟨hdark, ?_⟩
  rw [Bool.or_eq_true, hfirst h, hdark]
  constructor
  · rintro (⟨px, hpx, py, hpy, -, hcovers⟩ | ⟨px, hpx, py, hpy, -, hcovers⟩)
    · exact ⟨px, hpx, py, hpy, hcovers⟩
    · exact ⟨px, hpx, py, hpy, hcovers⟩
  · rintro ⟨px, hpx, py, hpy, hcovers⟩
    -- The pixel was lit before the first drawing or is lit before the second one.
    cases hold : s.lit px py with
    | true => exact .inl ⟨px, hpx, py, hpy, hold, hcovers⟩
    | false => exact .inr ⟨px, hpx, py, hpy, hold, hcovers⟩

/-- The glyph of the digit `0` across the lower right corner of the picture. -/
def cornerZero : Sprite := ⟨.powerUp, 0, 62, 30, 5⟩

theorem covers_cornerZero : cornerZero.Covers 62 31 := by
  refine ⟨1, by decide, by decide, ?_⟩
  show Screen.rowCovers (Memory.powerUp.read (0 + BitVec.ofNat 12 1)) 62 62 = true
  rw [Memory.read_powerUp]
  rfl

/-- On a dark screen, the second drawing of the glyph hits what the first one left and takes it
away. -/
theorem draw_action_corner :
    cornerZero.rows ≤ height ∧ ∃ first t second u, cornerZero.draw {} = .ok first t ∧
      cornerZero.draw t = .ok second u ∧ second = true ∧ u.bytes = Bank.fill 0 := by
  have hrows : cornerZero.rows ≤ height := by decide
  obtain ⟨-, first, t, second, u, hfirst, hsecond, hundone, hhits⟩ :=
    draw_action {} cornerZero cornerZero
  refine ⟨hrows, first, t, second, u, hfirst, hsecond, ?_, ?_⟩
  · have hdark : ({} : Screen).lit 62 31 = false := by simp [Screen.lit]
    exact (hhits hrows).1.2 ⟨62, by decide, 31, by decide, hdark, covers_cornerZero⟩
  · rw [hundone]

end Sprite

end Chip8
