import Chip8.Proofs.MachineInvariant
import Chip8.Proofs.StackFaults

/-!
# Calls and returns

A call keeps the address of the next instruction on the return stack, and the return that brings the
stack pointer back to where it was before the call goes on at that address. What the program does in
between does not matter: it may call and return, fail, wait for a key and rewrite itself.

A step moves the stack pointer by at most one, and writes no slot but the one at the pointer. So the
slot that a call has written stays as it is for as long as the pointer is above it, and so do all
slots below.

## Main definitions

* `Registers.StackMove`: what a step can do to the return stack
* `Registers.Within`: a call is going on, and its return address is kept
* `Console.Turn`, `Console.take`: what happens to a console while a call is going on

## Main statements

* `Board.stackMove_step`: a step does no more to the return stack than `Registers.StackMove` says
* `Registers.StackMove.within`: a call goes on, or ends with the return to it
* `Console.return_to_call`: over a whole run, a return goes on after the call that it matches
-/

namespace Chip8

namespace Registers

variable {r s : Registers}

theorem pc_goto (r : Registers) (target : Int) : (r.goto target).pc = target % 4096 := by
  show ((BitVec.ofInt 12 target).toNat : Int) = target % 4096
  rw [BitVec.toNat_ofInt]
  omega

/-- What a step can do to the return stack: nothing, keep an address above all others, or take the
last one back and go on there. -/
inductive StackMove (r s : Registers) : Prop
  | none (sp : s.sp = r.sp) (stack : s.stack = r.stack)
  | push (room : r.sp < 16) (sp : s.sp = r.sp + 1)
    (stack : s.stack = r.stack.set (BitVec.ofInt 4 r.sp) ((r.pc + 2) % 4096))
  | pop (held : 0 < r.sp) (sp : s.sp = r.sp - 1) (stack : s.stack = r.stack)
    (pc : s.pc = r.stack.get (BitVec.ofInt 4 (r.sp - 1)))

/-- A call is going on that was made with `depth` entries on the stack: its return address is kept
in the slot after them, and the slots of the caller are as they were. -/
structure Within (depth home : Int) (caller r : Registers) : Prop where
  deeper : depth < r.sp
  home : r.stack.get (BitVec.ofInt 4 depth) = home
  below : ∀ i : Nibble, i.toNat < depth → r.stack.get i = caller.stack.get i

/-- The call is over, and the program goes on where it was to. -/
structure Returned (depth home : Int) (caller r : Registers) : Prop where
  sp : r.sp = depth
  pc : r.pc = home
  below : ∀ i : Nibble, i.toNat < depth → r.stack.get i = caller.stack.get i

variable {depth home : Int} {caller : Registers}

/-- **A call goes on, or ends with the return to it.** -/
theorem StackMove.within (hmove : StackMove r s) (hr : r.WellFormed) (hdepth : 0 ≤ depth)
    (hwithin : Within depth home caller r) :
    Within depth home caller s ∨ Returned depth home caller s := by
  obtain ⟨hdeeper, hhome, hbelow⟩ := hwithin
  have hsp := hr.sp
  cases hmove with
  | none sp stack =>
    left
    refine ⟨?_, ?_, ?_⟩
    · rw [sp]
      exact hdeeper
    · rw [stack]
      exact hhome
    · rw [stack]
      exact hbelow
  | push room sp stack =>
    -- The slot that is written is above the slots that matter.
    have hother : ∀ i : Nibble, (i.toNat : Int) ≤ depth → BitVec.ofInt 4 r.sp ≠ i := by
      rintro i hi rfl
      rw [BitVec.toNat_ofInt] at hi
      omega
    have hslot : ((BitVec.ofInt 4 depth).toNat : Int) ≤ depth := by
      rw [BitVec.toNat_ofInt]
      omega
    left
    refine ⟨by omega, ?_, ?_⟩
    · rw [stack, Bank.get_set_of_ne _ _ (hother _ hslot)]
      exact hhome
    · intro i hi
      rw [stack, Bank.get_set_of_ne _ _ (hother i (Int.le_of_lt hi))]
      exact hbelow i hi
  | pop held sp stack pc =>
    by_cases hlast : r.sp - 1 = depth
    · right
      refine ⟨by omega, ?_, ?_⟩
      · rw [pc, hlast]
        exact hhome
      · rw [stack]
        exact hbelow
    · left
      refine ⟨by omega, ?_, ?_⟩
      · rw [stack]
        exact hhome
      · rw [stack]
        exact hbelow

end Registers

/-! ## One step -/

namespace Board

open Registers (StackMove)

variable {b : Board}

theorem stackMove_execute (hb : b.WellFormed) (instruction : Instruction) :
    StackMove b.registers (finalState (b.execute instruction)).registers := by
  cases instruction with
  | call target =>
    rw [execute_call hb]
    split
    next hroom =>
      exact .push hroom rfl (congrArg (b.registers.stack.set _) (Registers.pc_goto b.registers _))
    next => exact .none rfl rfl
  | returnFromCall =>
    rw [execute_returnFromCall hb]
    split
    next => exact .none rfl rfl
    next hkept =>
      have hsp := hb.registers.sp
      have hentry := hb.registers.stack (BitVec.ofInt 4 (b.registers.sp - 1))
      refine .pop (by omega) rfl rfl ?_
      show (Registers.goto _ _).pc = _
      rw [Registers.pc_goto]
      omega
  | arithmetic operation x y =>
    cases operation <;> exact .none rfl rfl
  | draw x y rows =>
    obtain ⟨hit, screen, -, heq⟩ :=
      drawSprite_eq b (b.registers.v.get x) (b.registers.v.get y) rows.toNat
    simp only [execute, heq]
    exact .none rfl rfl
  | awaitKey x =>
    simp only [execute]
    cases b.keypad.firstDown <;> exact .none rfl rfl
  | fill x =>
    obtain ⟨v, hv⟩ := fillRegisters_eq b.registers x
      (b.memory.slice b.registers.indexAddress (x.toNat + 1))
    simp only [execute, hv]
    exact .none rfl rfl
  | _ => exact .none rfl rfl

theorem stackMove_pollKey (b : Board) : StackMove b.registers (finalState b.pollKey).registers := by
  rw [pollKey]
  cases b.keypad.firstDown with
  | none => exact .none rfl rfl
  | some key =>
    simp only
    cases place 4 b.keyWait.register <;> exact .none rfl rfl

/-- **One step** keeps an address, takes one back, or leaves the return stack alone. -/
theorem stackMove_step (hb : b.WellFormed) :
    StackMove b.registers (finalState b.step).registers := by
  rw [step]
  split
  next => exact stackMove_pollKey b
  next => exact stackMove_execute hb _

theorem registers_cycle (b : Board) :
    (finalState b.cycle).registers = (finalState b.step).registers := by
  rw [cycle]
  cases b.step <;> rfl

theorem stackMove_cycle (hb : b.WellFormed) :
    StackMove b.registers (finalState b.cycle).registers := by
  rw [registers_cycle]
  exact stackMove_step hb

end Board

/-! ## Whole runs -/

namespace Console

open Registers (StackMove Within Returned)

/-- What happens to a console while a call is going on. -/
inductive Turn where
  /-- An instruction that is not counted. -/
  | step
  /-- An instruction that is counted. -/
  | cycle
  | keyDown (key : Int)
  | keyUp (key : Int)
  | hostKey (code : Int) (down : Bool)
  | updateTimers (clock : Nat)

/-- Let something happen to a console. -/
def take : Turn → PlantM Console Unit
  | .step => advance Board.step
  | .cycle => cycle
  | .keyDown key => do setKey true (← checkKey key)
  | .keyUp key => do setKey false (← checkKey key)
  | .hostKey code down => do
    let _ ← hostKey code down
  | .updateTimers clock => do
    let _ ← updateTimers clock

/-- The console in its world after some turns, whether or not they fail. -/
def taken (turns : List Turn) (s : Console × World) : Console × World := (runAll take turns s).2

theorem taken_append (turns turns' : List Turn) (s : Console × World) :
    taken (turns ++ turns') s = taken turns' (taken turns s) := by
  induction turns generalizing s with
  | nil => rfl
  | cons turn turns ih => exact ih _

theorem Invariant.keeps_take {J : Console → Prop} (hJ : Invariant J) (turn : Turn) :
    KeepsConsole J (take turn) := by
  cases turn with
  | step => exact hJ.keeps_step
  | cycle => exact hJ.keeps_cycle
  | keyDown key => exact (keeps_checkKey key).bind fun k => hJ.keeps_setKey true k
  | keyUp key => exact (keeps_checkKey key).bind fun k => hJ.keeps_setKey false k
  | hostKey code down => exact (hJ.keeps_hostKey code down).bind fun _ => .pure _
  | updateTimers clock => exact (hJ.keeps_updateTimers clock).bind fun _ => .pure _

theorem wellFormed_taken {s : Console × World} (hs : s.1.WellFormed) (turns : List Turn) :
    (taken turns s).1.WellFormed := by
  induction turns generalizing s with
  | nil => exact hs
  | cons turn turns ih => exact ih ((invariant_wellFormed.keeps_take turn).finalState hs)

theorem board_advance (move : Board → Execution) (c : Console) (w : World) :
    (finalState (advance move (c, w))).1.board = finalState (move c.board) := by
  simp only [advance]
  cases move c.board <;> rfl

theorem registers_setKey_checkKey (down : Bool) (key : Int) (s : Console × World) :
    (finalState ((checkKey key >>= setKey down) s)).1.board.registers = s.1.board.registers := by
  rw [checkKey]
  cases keyOfInt key <;> rfl

theorem stackMove_take {s : Console × World} (hs : s.1.WellFormed) (turn : Turn) :
    StackMove s.1.board.registers (finalState (take turn s)).1.board.registers := by
  obtain ⟨c, w⟩ := s
  have hsame {r : Registers} (hr : r = c.board.registers) : StackMove c.board.registers r := by
    rw [hr]
    exact .none rfl rfl
  cases turn with
  | step =>
    rw [take, board_advance]
    exact Board.stackMove_step hs
  | cycle =>
    rw [take, cycle, board_advance]
    exact Board.stackMove_cycle hs
  | keyDown key => exact hsame (registers_setKey_checkKey true key _)
  | keyUp key => exact hsame (registers_setKey_checkKey false key _)
  | hostKey code down =>
    refine hsame ?_
    rw [take, hostKey]
    cases keypadKey? code <;> rfl
  | updateTimers clock =>
    refine hsame ?_
    rw [take, finalState_bind_pure, updateTimers_eq, finalState]
    split <;> rfl

variable {depth home : Int} {caller : Registers}

/-- For as long as the stack pointer stays above where it was before the call, the call is going
on. -/
theorem within_taken {s : Console × World} (hs : s.1.WellFormed) (hdepth : 0 ≤ depth)
    (hwithin : Within depth home caller s.1.board.registers) {turns : List Turn}
    (habove : ∀ k ≤ turns.length, depth < (taken (turns.take k) s).1.board.registers.sp) :
    Within depth home caller (taken turns s).1.board.registers := by
  induction turns generalizing s with
  | nil => exact hwithin
  | cons turn turns ih =>
    have hnext : depth < (finalState (take turn s)).1.board.registers.sp :=
      habove 1 (Nat.succ_le_succ (Nat.zero_le _))
    rcases (stackMove_take hs turn).within hs.registers hdepth hwithin with hstill | hover
    · exact ih ((invariant_wellFormed.keeps_take turn).finalState hs) hstill
        fun k hk => habove (k + 1) (Nat.succ_le_succ hk)
    · rw [hover.sp] at hnext
      exact absurd hnext (Int.lt_irrefl _)

/-- The step of a call keeps the address of the next instruction, and goes on at the target. -/
theorem take_call {c : Console} (hc : c.WellFormed) (w : World)
    (hready : c.board.keyWait.pending = false) {target : Address}
    (hcall : c.board.opcode = 0x2#4 ++ target) (hroom : c.board.registers.sp < 16) {move : Turn}
    (hmove : move = .step ∨ move = .cycle) :
    outcome (take move (c, w)) = .ok () ∧
      (taken [move] (c, w)).1.board.registers.sp = c.board.registers.sp + 1 ∧
      (taken [move] (c, w)).1.board.registers.pc = target.toNat ∧
      Within c.board.registers.sp ((c.board.registers.pc + 2) % 4096) c.board.registers
        (taken [move] (c, w)).1.board.registers := by
  have hsp := hc.registers.sp
  have hstep : c.board.step = .ok none (c.board.withRegisters
      ({ c.board.registers with
        stack := c.board.registers.stack.set (BitVec.ofInt 4 c.board.registers.sp)
          ((c.board.registers.pc + 2) % 4096)
        sp := c.board.registers.sp + 1 }.goto target.toNat)) := by
    rw [Board.step, hready, hcall, Instruction.ofOpcode_eq_call_iff.2 rfl]
    have hadvance : c.board.registers.advance.pc = (c.board.registers.pc + 2) % 4096 :=
      Registers.pc_goto c.board.registers _
    simp only [Bool.false_eq_true, if_false, Board.execute_call hc, hroom, if_true, hadvance]
  have hcycle : c.board.cycle =
      .ok none { (finalState c.board.step) with cycles := c.board.cycles + 1 } := by
    rw [Board.cycle, hstep]
    rfl
  -- A counted cycle does the same to the registers as a step.
  have hends : outcome (take move (c, w)) = .ok () ∧
      (taken [move] (c, w)).1.board.registers = (finalState c.board.step).registers := by
    rcases hmove with rfl | rfl
    · simp only [taken, runAll, take, advance, hstep]
      exact ⟨rfl, rfl⟩
    · simp only [taken, runAll, take, cycle, advance, hcycle]
      exact ⟨rfl, rfl⟩
  obtain ⟨hok, hregisters⟩ := hends
  refine ⟨hok, ?_⟩
  rw [hregisters, hstep]
  have htarget := target.isLt
  refine ⟨rfl, ?_, ?_, ?_, ?_⟩
  · show (Registers.goto _ _).pc = _
    rw [Registers.pc_goto]
    omega
  · show c.board.registers.sp < c.board.registers.sp + 1
    omega
  · exact Bank.get_set_self _ _ _
  · intro i hi
    refine Bank.get_set_of_ne _ _ ?_
    rintro rfl
    rw [BitVec.toNat_ofInt] at hi
    omega

/-- **Calls and returns match.** A call that finds room on the return stack raises the stack pointer
by one and goes on at its target. Then let instructions follow, with keys pressed and let go and
ticks of the timers in between, and the stack pointer above its old value all the time. When one
more turn brings it down, then to no less than the old value, the program goes on with the
instruction after the call, and the return addresses that were kept before the call are as they
were. -/
theorem return_to_call {c : Console} (hc : c.WellFormed) (w : World)
    (hready : c.board.keyWait.pending = false) {target : Address}
    (hcall : c.board.opcode = 0x2#4 ++ target) (hroom : c.board.registers.sp < 16) {move : Turn}
    (hmove : move = .step ∨ move = .cycle) :
    let caller := c.board.registers
    let called := taken [move] (c, w)
    outcome (take move (c, w)) = .ok () ∧ called.1.board.registers.sp = caller.sp + 1 ∧
      called.1.board.registers.pc = target.toNat ∧
      ∀ (turns : List Turn) (last : Turn),
        (∀ k ≤ turns.length, caller.sp < (taken (turns.take k) called).1.board.registers.sp) →
        let after := (taken (turns ++ [last]) called).1.board.registers
        after.sp ≤ caller.sp →
        after.sp = caller.sp ∧ after.pc = (caller.pc + 2) % 4096 ∧
          ∀ i : Nibble, i.toNat < caller.sp → after.stack.get i = caller.stack.get i := by
  intro caller called
  obtain ⟨hok, hsp, hpc, hwithin⟩ := take_call hc w hready hcall hroom hmove
  refine ⟨hok, hsp, hpc, ?_⟩
  intro turns last habove after hdown
  have hcalled : called.1.WellFormed := wellFormed_taken hc [move]
  have hinside := within_taken hcalled hc.registers.sp.1 hwithin habove
  have hwell := wellFormed_taken hcalled turns
  have hlast : after = (finalState (take last (taken turns called))).1.board.registers := by
    show (taken (turns ++ [last]) called).1.board.registers = _
    rw [taken_append]
    rfl
  rw [hlast] at hdown ⊢
  rcases (stackMove_take hwell last).within hwell.registers hc.registers.sp.1
    hinside with hstill | hover
  · exact absurd hstill.deeper (Int.not_lt.2 hdown)
  · exact ⟨hover.sp, hover.pc, hover.below⟩

/-- A console in front of a subroutine that calls another one. -/
def nested : Console where
  board :=
    { memory := Memory.writeAll ⟨Bank.fill 0⟩ 0x200 [0x22, 0x02, 0x22, 0x06, 0x00, 0xEE, 0x00, 0xEE]
      random := .listed [] 0 }

/-- Between a call and the return to it, another call is made, a key is pressed and the timers
tick. -/
theorem return_to_call_nested :
    outcome (take .step (nested, {})) = .ok () ∧
      (taken ([.cycle, .keyDown 5, .updateTimers 3, .step] ++ [.cycle])
        (taken [.step] (nested, {}))).1.board.registers.pc = 0x202 := by
  obtain ⟨hok, -, -, hreturns⟩ := return_to_call (c := nested)
    (Board.wellFormed_of_powerUp rfl rfl) {} rfl
    (show nested.board.opcode = 0x2#4 ++ 0x202#12 by decide +kernel) (by decide) (Or.inl rfl)
  obtain ⟨-, hpc, -⟩ := hreturns [.cycle, .keyDown 5, .updateTimers 3, .step] .cycle
    (by decide +kernel) (by decide +kernel)
  exact ⟨hok, hpc⟩

end Console

end Chip8
