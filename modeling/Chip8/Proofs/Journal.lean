import Chip8.Beeper
import Mathlib.Tactic.Common

/-!
# Worlds that sound alike

Of the world, a beep uses only the toolkit, and it leaves something in the journal. So in two worlds
with the same toolkit a beep does the same: it plays the sound, fails to, or finds that there is
none to be had.

The journal is written and never read. So two worlds that differ in their journals only stay so. And
a beep does not look at the wall clock.

## Main definitions

* `World.Tuned`: related worlds have the same toolkit, and stay related when something is recorded
* `World.Alike`: two worlds are the same but for their journals
* `World.movedTo`: a world at another moment
* `Both`: two calculations fail alike, or have related results

## Main statements

* `World.Tuned.beep`: a beep does the same in related worlds
* `World.Alike.beep`: a beep takes no notice of the journal
-/

namespace Chip8

/-- Two calculations fail alike, or have related results. -/
def Both {α : Type} (R : α → α → Prop) (x y : Except Failure α) : Prop :=
  (∃ e, x = .error e ∧ y = .error e) ∨ ∃ a b, x = .ok a ∧ y = .ok b ∧ R a b

theorem Both.bind {α β : Type} {R : α → α → Prop} {Q : β → β → Prop} {x y : Except Failure α}
    {f g : α → Except Failure β} (hxy : Both R x y) (hfg : ∀ a b, R a b → Both Q (f a) (g b)) :
    Both Q (x >>= f) (y >>= g) := by
  rcases hxy with ⟨e, rfl, rfl⟩ | ⟨a, b, rfl, rfl, hab⟩
  · exact Or.inl ⟨e, rfl, rfl⟩
  · exact hfg a b hab

namespace World

/-- Related worlds have the same toolkit. They stay related when something is recorded, and when the
toolkit changes. -/
structure Tuned (R : World → World → Prop) : Prop where
  toolkit : ∀ w w', R w w' → w'.toolkit = w.toolkit
  record : ∀ w w', R w w' → ∀ e, R (w.record e) (w'.record e)
  equip : ∀ w w', R w w' → ∀ toolkit, R { w with toolkit } { w' with toolkit }

/-! ## Beeps -/

namespace Tuned

variable {R : World → World → Prop} {w w' : World}

theorem note (hR : Tuned R) (h : R w w') (n : Option Notice) : R (w.note n) (w'.note n) := by
  cases n with
  | none => exact h
  | some n => exact hR.record _ _ h _

theorem call (hR : Tuned R) (h : R w w') (c : Call) : Both R (w.call c) (w'.call c) := by
  have hsame : w'.refusal c = w.refusal c := by simp only [refusal, hR.toolkit _ _ h]
  simp only [World.call, hsame]
  cases w.refusal c with
  | none => exact Or.inr ⟨_, _, rfl, rfl, hR.record _ _ h _⟩
  | some cause => exact Or.inl ⟨_, rfl, rfl⟩

theorem startMixer (hR : Tuned R) (h : R w w') (b : Beeper) :
    Both R (b.startMixer w) (b.startMixer w') := by
  have hcall := hR.call h (.mixerInit b.sampleRate)
  simp only [Beeper.startMixer, hR.toolkit _ _ h]
  cases w.toolkit with
  | none => exact Or.inl ⟨_, rfl, rfl⟩
  | some t =>
    simp only
    cases t.mixerReady with
    | true => exact Or.inr ⟨_, _, rfl, rfl, h⟩
    | false =>
      refine hcall.bind fun v v' hv => ?_
      exact Or.inr ⟨_, _, rfl, rfl, hR.equip _ _ hv _⟩

/-- Whether the sound prepared can be played depends on the toolkit only. -/
theorem prepareSound (hR : Tuned R) (h : R w w') (b : Beeper) :
    Both (fun x y => y.1 = x.1 ∧ R x.2 y.2) (b.prepareSound w) (b.prepareSound w') := by
  rw [Beeper.prepareSound, Beeper.prepareSound]
  cases b.tone with
  | error e => exact Or.inl ⟨e, rfl, rfl⟩
  | ok samples =>
    refine (hR.call h (.mixerSound samples)).bind fun v v' hv => ?_
    refine Or.inr ⟨_, _, rfl, rfl, ?_, hv⟩
    simp only [hR.toolkit _ _ hv]

theorem prepare (hR : Tuned R) (h : R w w') (b : Beeper) :
    (b.prepare w').1 = (b.prepare w).1 ∧ R (b.prepare w).2 (b.prepare w').2 := by
  rw [Beeper.prepare, Beeper.prepare]
  split
  · exact ⟨rfl, h⟩
  rcases hR.startMixer h b with ⟨e, hx, hy⟩ | ⟨v, v', hx, hy, hv⟩
  · simp only [hx, hy]
    exact ⟨rfl, hR.record _ _ h _⟩
  rcases hR.prepareSound hv b with ⟨e, hx', hy'⟩ | ⟨⟨sound, u⟩, ⟨_, u'⟩, hx', hy', rfl, hu⟩
  · simp only [hx, hy, hx', hy']
    exact ⟨rfl, hR.record _ _ hv _⟩
  · simp only [hx, hy, hx', hy']
    exact ⟨trivial, hu⟩

theorem playSound (hR : Tuned R) (h : R w w') (b : Beeper) :
    Both R (b.playSound w) (b.playSound w') := by
  rw [Beeper.playSound, Beeper.playSound]
  split
  · exact Or.inl ⟨_, rfl, rfl⟩
  · split
    · exact Or.inl ⟨_, rfl, rfl⟩
    · exact Or.inr ⟨_, _, rfl, rfl, hR.record _ _ h _⟩

theorem play (hR : Tuned R) (h : R w w') (b : Beeper) : R (b.play w) (b.play w') := by
  rw [Beeper.play, Beeper.play]
  rcases hR.playSound h b with ⟨cause, hx, hy⟩ | ⟨v, v', hx, hy, hv⟩
  · simp only [hx, hy]
    exact hR.record _ _ h _
  · simp only [hx, hy]
    exact hv

/-- A beep does the same in related worlds. -/
theorem beep (hR : Tuned R) (h : R w w') (b : Beeper) :
    (b.beep w').1 = (b.beep w).1 ∧ R (b.beep w).2 (b.beep w').2 := by
  obtain ⟨hsame, hworld⟩ := hR.prepare h { b with beeps := b.beeps + 1 }
  simp only [Beeper.beep, hsame]
  split
  next => exact ⟨rfl, hR.play hworld _⟩
  next => exact ⟨rfl, hworld⟩

end Tuned

/-! ## Other journals -/

/-- Two worlds are the same but for what their journals say. -/
def Alike (w w' : World) : Prop := ∃ journal, w' = { w with journal }

namespace Alike

variable {w w' : World}

theorem refl (w : World) : w.Alike w := ⟨w.journal, rfl⟩

theorem record (h : w.Alike w') (e e' : Entry) : (w.record e).Alike (w'.record e') := by
  obtain ⟨journal, rfl⟩ := h
  exact ⟨_, rfl⟩

theorem note (h : w.Alike w') (n n' : Option Notice) : (w.note n).Alike (w'.note n') := by
  obtain ⟨journal, rfl⟩ := h
  cases n <;> cases n' <;> exact ⟨_, rfl⟩

theorem pass (h : w.Alike w') (nanoseconds : Int) :
    (w.pass nanoseconds).Alike (w'.pass nanoseconds) := by
  obtain ⟨journal, rfl⟩ := h
  exact ⟨journal, rfl⟩

theorem tuned : Tuned Alike where
  toolkit := by
    rintro w _ ⟨journal, rfl⟩
    rfl
  record _ _ h e := h.record e e
  equip := by
    rintro w _ ⟨journal, rfl⟩ toolkit
    exact ⟨journal, rfl⟩

theorem beep (h : w.Alike w') (b : Beeper) :
    (b.beep w').1 = (b.beep w).1 ∧ (b.beep w).2.Alike (b.beep w').2 :=
  tuned.beep h b

end Alike

/-! ## Other moments -/

/-- The world at another moment of the wall clock. -/
def movedTo (w : World) (moment : Int) : World := { w with now := moment }

theorem tuned_movedTo (moment : Int) : Tuned fun w w' => w' = w.movedTo moment where
  toolkit := by
    rintro w _ rfl
    rfl
  record := by
    rintro w _ rfl e
    rfl
  equip := by
    rintro w _ rfl toolkit
    rfl

end World

end Chip8
