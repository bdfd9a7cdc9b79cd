import Chip8.Proofs.WindowLoop
import Mathlib.Algebra.Ring.Parity
import Mathlib.Data.List.Induction

/-!
# Keys held down

What the window is told of the keys of its host is all that its keypad depends on: a key of the
keypad is down if the last thing heard of its key of the host was that it went down. Whether the
window has paused depends on how often its one key for that went down.

A console that runs leaves its keypad alone.

## Main definitions

* `Keypad.turn`, `Keypad.hear`, `Window.keysHeld`: the keypad, input by input
* `Window.lastOf`: what was heard last of a key of the host

## Main statements

* `existsUnique_keypadKey`: each key of the keypad has one key of the host
* `Window.isDown_keysHeld_iff`: a key is down if the last thing heard of it was that it went down
* `Window.paused_stateAfter_iff`: the window has paused if its key for that went down an odd number
  of times
* `Console.quiet_keypad`: a console that runs leaves its keypad alone
-/

namespace Chip8

/-! ## Keys of the host -/

/-- Each key of the keypad has one key of the host that stands for it. -/
theorem existsUnique_keypadKey (key : Nibble) : ∃! code, keypadKey? code = some key := by
  have hentry {code : Int} {key : Nibble} (hcode : keypadKey? code = some key) :
      ∃ c, (c, key) ∈ keyMap ∧ (c.toNat : Int) = code := by
    obtain ⟨⟨c, k⟩, hfind, rfl⟩ := Option.map_eq_some_iff.1 hcode
    exact ⟨c, List.mem_of_find?_eq_some hfind, by simpa using List.find?_some hfind⟩
  have hmapped : ∀ key : Nibble, ∃ entry ∈ keyMap, keypadKey? entry.1.toNat = some key := by decide
  have honce : ∀ p ∈ keyMap, ∀ q ∈ keyMap, p.2 = q.2 → p.1 = q.1 := by decide
  obtain ⟨entry, -, hcode⟩ := hmapped key
  refine ⟨entry.1.toNat, hcode, ?_⟩
  intro code hother
  obtain ⟨c, hc, rfl⟩ := hentry hother
  obtain ⟨d, hd, heq⟩ := hentry hcode
  have hsame : c = d := honce (c, key) hc (d, key) hd rfl
  rw [← heq, hsame]

namespace Keypad

/-- The keypad when a key of the host went down or up. -/
def turn (pad : Keypad) (code : Int) (down : Bool) : Keypad :=
  match keypadKey? code with
  | none => pad
  | some key => if down then pad.press key else pad.release key

theorem turn_of_none {code : Int} (hcode : keypadKey? code = none) (pad : Keypad) (down : Bool) :
    pad.turn code down = pad := by
  rw [turn, hcode]

theorem isDown_turn {code code' : Int} {key : Nibble} (hcode : keypadKey? code = some key)
    (pad : Keypad) (down : Bool) :
    (pad.turn code' down).isDown key = if code' = code then down else pad.isDown key := by
  rw [turn]
  cases hother : keypadKey? code' with
  | none =>
    have hne : code' ≠ code := by
      rintro rfl
      rw [hcode] at hother
      cases hother
    rw [if_neg hne]
  | some other =>
    have hsame : other = key ↔ code' = code := by
      constructor
      · rintro rfl
        exact (existsUnique_keypadKey other).unique hother hcode
      · rintro rfl
        exact Option.some.inj (hother.symm.trans hcode)
    by_cases hkey : other = key
    · rw [if_pos (hsame.1 hkey)]
      cases down <;> simp [isDown_press, isDown_release, hkey]
    · rw [if_neg (mt hsame.2 hkey)]
      cases down <;> simp [isDown_press, isDown_release, hkey]

/-- The keypad when the window was told something. -/
def hear (pad : Keypad) : Window.Input → Keypad
  | .keyDown code => pad.turn code true
  | .keyUp code => pad.turn code false
  | .close | .other => pad

end Keypad

/-! ## What the window was told -/

namespace Window

/-- The keypad after some inputs. -/
def keysHeld (past : List Input) : Keypad := past.foldl Keypad.hear .released

theorem keysHeld_concat (past : List Input) (input : Input) :
    keysHeld (past ++ [input]) = (keysHeld past).hear input := List.foldl_append

/-- The input is about a key of the host. -/
def Input.IsOf (code : Int) (input : Input) : Prop := input = .keyDown code ∨ input = .keyUp code

instance (code : Int) (input : Input) : Decidable (input.IsOf code) :=
  inferInstanceAs (Decidable (input = .keyDown code ∨ input = .keyUp code))

/-- What was heard last of a key of the host. -/
def lastOf (code : Int) (past : List Input) : Option Input := (past.filter (·.IsOf code)).getLast?

theorem lastOf_concat (code : Int) (past : List Input) (input : Input) :
    lastOf code (past ++ [input]) = if input.IsOf code then some input else lastOf code past := by
  by_cases hinput : input.IsOf code <;> simp [lastOf, List.filter_append, hinput]

/-- **A key is down if the last thing heard of it was that it went down.** -/
theorem isDown_keysHeld_iff {code : Int} {key : Nibble} (hcode : keypadKey? code = some key)
    (past : List Input) :
    (keysHeld past).isDown key = true ↔ lastOf code past = some (.keyDown code) := by
  induction past using List.reverseRecOn with
  | nil => simp [keysHeld, Keypad.released, Keypad.isDown, lastOf]
  | append_singleton past input ih =>
    rw [keysHeld_concat, lastOf_concat]
    cases input with
    | close | other => simpa [Keypad.hear, Input.IsOf] using ih
    | keyDown code' | keyUp code' =>
      rw [Keypad.hear, Keypad.isDown_turn hcode]
      by_cases hsame : code' = code
      · simp [Input.IsOf, hsame]
      · simpa [Input.IsOf, hsame] using ih

/-- **The window has paused if its key for that went down an odd number of times.** -/
theorem paused_stateAfter_iff (past : List Input) :
    (stateAfter past).paused = true ↔ Odd (past.count (.keyDown pauseKey)) := by
  induction past using List.reverseRecOn with
  | nil => simp [stateAfter]
  | append_singleton past input ih =>
    rw [stateAfter_concat, List.count_append]
    cases input with
    | close | other | keyUp => simpa [State.heed] using ih
    | keyDown code =>
      by_cases hpause : code = pauseKey
      · have hescape : code ≠ escapeKey := by
          rw [hpause]
          decide
        rw [State.heed, if_neg hescape, if_pos hpause, hpause, List.count_singleton_self,
          Nat.odd_add_one, ← ih]
        simp
      · have hsame : ((stateAfter past).heed (.keyDown code)).paused =
            (stateAfter past).paused := by
          rw [State.heed, if_neg hpause]
          split <;> rfl
        simpa [hsame, List.count_singleton, hpause] using ih

/-- An input that is not passed on changes nothing on the keypad. -/
theorem Input.Idle.hear {input : Input} (hidle : input.Idle) (pad : Keypad) :
    pad.hear input = pad := by
  cases input with
  | close | other => rfl
  | keyDown code =>
    obtain rfl : code = escapeKey := hidle
    have hnone : keypadKey? escapeKey = none := by decide
    exact Keypad.turn_of_none hnone pad true
  | keyUp code => exact hidle.elim

end Window

/-! ## The console -/

namespace Console

theorem hostKey_eq (code : Int) (down : Bool) (c : Console) (w : World) :
    hostKey code down (c, w) =
      .ok (keypadKey? code).isSome
        ({ c with board := { c.board with keypad := c.board.keypad.turn code down } }, w) := by
  simp only [hostKey, Keypad.turn]
  cases keypadKey? code <;> rfl

/-- A console that runs leaves its keypad alone. -/
theorem quiet_keypad (pad : Keypad) :
    Plant.Quiet fun s : Console × World => s.1.board.keypad = pad where
  cycle := by
    have hcycle : KeepsConsole (fun c => c.board.keypad = pad) Console.cycle := by
      refine keeps_advance fun c hc => ?_
      have hstep := c.board.keypad_step
      rw [Board.cycle]
      cases hboard : c.board.step with
      | ok remark board =>
        rw [hboard] at hstep
        exact hstep.trans hc
      | error fault board =>
        rw [hboard] at hstep
        exact hstep.trans hc
    exact Hoare.bind hcycle fun _ s hs => ⟨hs, rfl⟩
  updateTimers clock := by
    rintro ⟨c, w⟩ hc
    simp only [Plant.updateTimers, run_bind, updateTimers_eq]
    refine ⟨?_, rfl⟩
    by_cases hexpiring : c.board.timers.expiring = true
    · rw [if_pos hexpiring]
      exact hc
    · rw [if_neg hexpiring]
      exact hc
  tell _ _ _ hs := hs

end Console

end Chip8
