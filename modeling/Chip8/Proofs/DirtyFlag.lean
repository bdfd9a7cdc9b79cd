import Chip8.Proofs.PlantSimulation
import Chip8.Proofs.Renewal

/-!
# The dirty flag

The dirty flag is to tell whether the picture changed since it was last shown. The picture is drawn
on and cleared by instructions, and cleared when the console is reset or wiped; on each of these
ways the flag is set. It is cleared only when somebody says so.

When that was, cannot be told from a console. So a console is put next to the screen as it was when
its flag was last cleared, which changes nothing of what the console does.

## Main definitions

* `Screen.Since`: a screen that is not as it was counts as changed
* `Viewed`: a console next to the screen as it was when its flag was last cleared

## Main statements

* `Console.keeps_since`: unless the flag is cleared, what changes the picture sets it
* `Viewed.simulates`: a console does the same with the screen next to it
* `Viewed.keeps_honest`: a screen that is not as it was when the flag was last cleared counts as
  changed
-/

namespace Chip8

open Console (Operation)

/-! ## Screens -/

namespace Screen

variable {seen s t : Screen}

/-- The screen is as it was, or counts as changed. -/
def Since (seen s : Screen) : Prop := s.dirty = true ∨ s = seen

theorem dirty_of_draw {m : Memory} {a : Address} {x y : Int} {rows : Nat} {hit : Bool}
    (hdraw : s.draw m a x y rows = .ok hit t) : t.dirty = true := by
  simp only [draw] at hdraw
  split at hdraw
  · cases hdraw
    rfl
  · cases hdraw

end Screen

/-! ## Steps of the processor -/

namespace Board

/-- An instruction that touches the screen sets the flag, whether or not it changes anything. -/
theorem screen_execute (b : Board) (instruction : Instruction) :
    (finalState (b.execute instruction)).screen.dirty = true ∨
      (finalState (b.execute instruction)).screen = b.screen := by
  cases instruction with
  | clearScreen => exact .inl rfl
  | draw x y rows =>
    obtain ⟨hit, screen, hdraw, heq⟩ :=
      drawSprite_eq b (b.registers.v.get x) (b.registers.v.get y) rows.toNat
    simp only [execute, heq]
    exact .inl (Screen.dirty_of_draw hdraw)
  | returnFromCall =>
    simp only [execute]
    cases b.registers.pop <;> exact .inr rfl
  | call target =>
    simp only [execute]
    cases b.registers.push b.registers.advance.pc <;> exact .inr rfl
  | awaitKey x =>
    simp only [execute]
    cases b.keypad.firstDown <;> exact .inr rfl
  | _ => exact .inr rfl

theorem screen_step (b : Board) :
    (finalState b.step).screen.dirty = true ∨ (finalState b.step).screen = b.screen := by
  rw [step]
  split
  · rw [pollKey]
    cases b.keypad.firstDown with
    | none => exact .inr rfl
    | some key =>
      simp only
      cases place 4 b.keyWait.register <;> exact .inr rfl
  · exact b.screen_execute _

theorem since_step {seen : Screen} {b : Board} (hb : Screen.Since seen b.screen) :
    Screen.Since seen (finalState b.step).screen := by
  rcases b.screen_step with hdirty | hsame
  · exact .inl hdirty
  · rwa [hsame]

end Board

/-! ## Consoles -/

namespace Console

variable (seen : Screen)

theorem steady_since : Steady fun c => Screen.Since seen c.board.screen where
  aside _ _ _ _ _ _ hc := hc
  step _ hc := Board.since_step hc
  resetProcessor _ hc := hc
  clear _ _ := .inl rfl
  beep _ _ hc := hc
  forget _ hc := hc

theorem since_assign (setting : Setting) :
    KeepsConsole (fun c => Screen.Since seen c.board.screen) (assign setting) := by
  refine .get_bind fun s hs => ?_
  cases happly : setting.apply s.1.board with
  | error cause => exact .throw _
  | ok board =>
    have hset : Screen.Since seen board.screen := by
      rw [screen_apply happly]
      exact hs
    exact .modify fun _ _ => hset

/-- The operation does not clear the dirty flag. -/
def Operation.LeavesFlag (op : Operation) : Prop := op ≠ .setDirty false

theorem since_setDirty :
    KeepsConsole (fun c => Screen.Since seen c.board.screen) (operate (.setDirty true)) :=
  Keeps.bind (.modify fun _ _ => .inl rfl) fun _ => .pure _

/-- **Unless the flag is cleared, what changes the picture sets it.** -/
theorem keeps_since :
    Plant.Keeps (fun c : Console => Screen.Since seen c.board.screen) Operation.LeavesFlag := by
  refine (steady_since seen).plantKeeps (fun settings _ => .forM
    fun setting _ => since_assign seen setting) ?_
  intro dirty hleaves
  cases dirty with
  | true => exact since_setDirty seen
  | false => exact absurd rfl hleaves

end Console

/-! ## Next to the screen seen last -/

structure Viewed where
  console : Console
  /-- The screen as it was when the dirty flag was last cleared. -/
  seen : Option Screen := none

namespace Viewed

def part : Part Viewed Console where
  get v := v.console
  set v console := { v with console }
  get_set _ _ := rfl
  set_set _ _ _ := rfl

/-- A viewed console does what the console does. When its flag is cleared, the screen is kept in
mind. -/
instance : Plant Viewed Operation where
  cycle := part.lift Plant.cycle
  updateTimers clock := part.lift (Plant.updateTimers clock)
  reset := part.lift Plant.reset
  operate
    | .setDirty false => do
      let reply ← part.lift (Plant.operate (Operation.setDirty false))
      modify fun (v, w) => ({ v with seen := some v.console.board.screen }, w)
      return reply
    | op => part.lift (Plant.operate op)

theorem operate_eq {op : Operation} (hleaves : op.LeavesFlag) :
    (Plant.operate op : PlantM Viewed Reply) = part.lift (Plant.operate op) := by
  cases op with
  | setDirty dirty =>
    cases dirty with
    | true => rfl
    | false => exact absurd rfl hleaves
  | _ => rfl

/-! ### What is kept in mind changes nothing -/

theorem simulates :
    Plant.Simulates (σ := Viewed) (τ := Console) part.Same (fun _ : Operation => True) := by
  refine part.simulates (part.matches_lift _) (fun _ => part.matches_lift _)
    (part.matches_lift _) fun op => ?_
  by_cases hclears : op = .setDirty false
  · subst hclears
    rintro ⟨v, w⟩ _ rfl
    exact ⟨rfl, rfl⟩
  · rw [operate_eq hclears]
    exact part.matches_lift _

/-! ### A flag that can be relied on -/

/-- The screen is as it was when the flag was last cleared, or counts as changed. -/
def Honest (v : Viewed) : Prop :=
  ∀ seen, v.seen = some seen → Screen.Since seen v.console.board.screen

theorem keeps_lift {α : Type} {m : PlantM Console α}
    (hm : ∀ seen, Console.KeepsConsole (fun c => Screen.Since seen c.board.screen) m) :
    Keeps (fun s => s.1.Honest) (part.lift m) := by
  rintro ⟨v, w⟩ hv
  simp only [Part.lift, part]
  cases hend : m (v.console, w) with
  | ok a t =>
    intro seen hseen
    have hkept := hm seen (v.console, w) (hv seen hseen)
    rwa [hend] at hkept
  | error e t =>
    intro seen hseen
    have hkept := hm seen (v.console, w) (hv seen hseen)
    rwa [hend] at hkept

/-- **A screen that is not as it was when the flag was last cleared counts as changed**, whatever is
done. -/
theorem keeps_honest : Plant.Keeps Honest (fun _ : Operation => True) where
  cycle := by
    have hcycle : Keeps (fun s => s.1.Honest) (part.lift Plant.cycle) := keeps_lift fun seen =>
      (Console.keeps_since seen).cycle.consequence (fun _ hs => hs) (fun _ _ hs => hs.1)
        fun _ _ hs => hs
    exact hcycle.consequence (fun _ hs => hs)
      (fun script _ hs => ⟨hs, Script.every_of_forall (fun _ => trivial) script⟩) fun _ _ hs => hs
  updateTimers clock := by
    have hticked : Keeps (fun s => s.1.Honest)
      (part.lift (Plant.updateTimers clock)) := keeps_lift fun seen =>
      ((Console.keeps_since seen).updateTimers clock).consequence (fun _ hs => hs)
        (fun _ _ hs => hs.1) fun _ _ hs => hs
    exact hticked.consequence (fun _ hs => hs)
      (fun result _ hs => ⟨hs, Script.every_of_forall (fun _ => trivial) result.script⟩)
      fun _ _ hs => hs
  reset := keeps_lift fun seen => (Console.keeps_since seen).reset
  operate op _ := by
    by_cases hclears : op = .setDirty false
    · subst hclears
      rintro ⟨v, w⟩ - _ ⟨⟩
      exact .inr rfl
    · rw [operate_eq hclears]
      exact keeps_lift fun seen => (Console.keeps_since seen).operate op hclears

end Viewed

end Chip8
