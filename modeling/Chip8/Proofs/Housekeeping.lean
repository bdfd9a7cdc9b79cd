import Chip8.Host.Script
import Chip8.Proofs.Hoare

/-!
# The housekeeping of a host

A pause, a resume, a power-off, a reset, a power-on and a change of the frequency all come down to
the same few steps: the status is set, the clock is anchored, the timer chain is started or stopped,
the queue is cleared and the clock set to zero. Whatever these steps keep, all of them keep.

Of the steps, only the anchoring calculates, and may fail. What is left then may be more than the
invariant.

## Main definitions

* `Host.Housekeeping`: status, anchor and timer chain keep an invariant
* `Host.Clearance`: so does dropping all events and setting the clock to zero

## Main statements

* `Host.Housekeeping.keepsOr_setFrequency`: a change of the frequency keeps it
* `Host.Clearance.keepsOr_powerOn`: a power-on keeps it, if the reset of the plant does
-/

namespace Chip8.Host

variable {σ Op α : Type} {J : Host σ Op → Prop} {E : Failure → Host σ Op → Prop}

theorem hoare_calculate (hE : ∀ h cause, J h → E (.arithmetic cause) h)
    (x : Except ArithmeticError α) :
    Hoare J (calculate x : HostM σ Op α) (fun a h => J h ∧ x = .ok a) E := by
  intro h hh
  cases x with
  | ok a => exact ⟨hh, rfl⟩
  | error cause => exact hE h cause hh

/-- Anchoring the clock keeps what does not depend on the anchor. -/
theorem keepsOr_anchorAt_of (hanchor : ∀ h anchor, J h → J { h with anchor })
    (hE : ∀ h cause, J h → E (.arithmetic cause) h) (clock : Int) :
    KeepsOr J E (anchorAt clock) := by
  refine .get_bind fun h _ => ?_
  refine .bind_of (hoare_calculate hE _) fun anchor _ => ?_
  exact .modify fun h hh => hanchor h anchor hh

/-- So does asking for what is due, which may anchor the clock anew. -/
theorem keepsOr_cyclesDue_of (hanchor : ∀ h anchor, J h → J { h with anchor })
    (hE : ∀ h cause, J h → E (.arithmetic cause) h) : KeepsOr J E cyclesDue := by
  refine .get_bind fun h _ => ?_
  refine .ite (fun _ => .pure _) fun _ => ?_
  refine .bind_of (hoare_calculate hE _) fun expected _ => ?_
  refine .ite (fun _ => ?_) fun _ => .pure _
  exact (keepsOr_anchorAt_of hanchor hE _).bind fun _ => .pure _

/-- The invariant asks nothing of the status and the anchor, and is kept when the timer chain is
started or stopped. Where a calculation fails, it leaves what it has to. -/
structure Housekeeping (J : Host σ Op → Prop) (E : Failure → Host σ Op → Prop) : Prop where
  aside : ∀ h status anchor, J h → J { h with status, anchor }
  startChain : KeepsOr J E startChain
  stopChain : KeepsOr J E stopChain
  arithmetic : ∀ h cause, J h → E (.arithmetic cause) h

/-- The invariant is also kept when all events are dropped, and when the clock is set to zero. -/
structure Clearance (J : Host σ Op → Prop) (E : Failure → Host σ Op → Prop) : Prop
    extends Housekeeping J E where
  clearQueue : KeepsOr J E clearQueue
  zeroClock : ∀ h, J h → J { h with clock := 0 }

namespace Housekeeping

variable (hJ : Housekeeping J E)

include hJ

theorem keepsOr_setStatus (status : Status) :
    KeepsOr J E (modify fun h => { h with status } : HostM σ Op Unit) :=
  .modify fun h hh => hJ.aside h status h.anchor hh

theorem keepsOr_anchorAt (clock : Int) : KeepsOr J E (anchorAt clock) :=
  keepsOr_anchorAt_of (fun h anchor hh => hJ.aside h h.status anchor hh) hJ.arithmetic clock

theorem keepsOr_anchorClock : KeepsOr J E anchorClock := .get_bind fun _ _ => hJ.keepsOr_anchorAt _

theorem keepsOr_cyclesDue : KeepsOr J E cyclesDue :=
  keepsOr_cyclesDue_of (fun h anchor hh => hJ.aside h h.status anchor hh) hJ.arithmetic

theorem keepsOr_applyPause : KeepsOr J E applyPause := by
  refine .get_bind fun h _ => ?_
  refine .ite (fun _ => ?_) fun _ => .pure _
  exact (hJ.keepsOr_setStatus .paused).bind fun _ => hJ.stopChain

theorem keepsOr_applyResume : KeepsOr J E applyResume := by
  refine .get_bind fun h _ => ?_
  refine .ite (fun _ => ?_) fun _ => .pure _
  refine (hJ.keepsOr_setStatus .running).bind fun _ => ?_
  exact hJ.keepsOr_anchorClock.bind fun _ => hJ.startChain

/-- The interval of the timers that comes with a frequency is at least a cycle. -/
theorem keepsOr_setFrequency (hfrequency : ∀ h frequency, J h → J { h with frequency })
    (hinterval : ∀ h interval, 1 ≤ interval → J h → J { h with interval })
    (hE : ∀ h, J h → E .frequencyNotPositive h) (frequency : Number) :
    KeepsOr J E (setFrequency frequency) := by
  refine .ite (fun _ => .throw_bind hE _) fun _ => ?_
  refine (KeepsOr.modify fun h hh => hfrequency h frequency hh).bind fun _ => ?_
  refine hJ.keepsOr_anchorClock.bind fun _ => ?_
  refine .get_bind fun h _ => ?_
  refine .bind_of (hoare_calculate hJ.arithmetic _) fun interval hends => ?_
  have hpositive := Pacer.one_le_timerInterval hends
  refine (KeepsOr.modify fun k hk => hinterval k interval hpositive hk).bind fun _ => ?_
  refine .get_bind fun k _ => ?_
  exact .ite (fun _ => hJ.stopChain.bind fun _ => hJ.startChain) fun _ => .pure _

end Housekeeping

namespace Clearance

variable (hJ : Clearance J E)

include hJ

theorem keepsOr_applyPowerOff : KeepsOr J E applyPowerOff := by
  refine (hJ.keepsOr_setStatus .stopped).bind fun _ => ?_
  exact hJ.stopChain.bind fun _ => hJ.clearQueue

variable [Plant σ Op] (hreset : KeepsOr J E (onPlant Plant.reset))

include hreset

theorem keepsOr_applyReset : KeepsOr J E applyReset := by
  refine .get_bind fun h _ => ?_
  refine hJ.stopChain.bind fun _ => ?_
  refine hJ.clearQueue.bind fun _ => ?_
  refine (KeepsOr.modify hJ.zeroClock).bind fun _ => ?_
  refine hJ.keepsOr_anchorClock.bind fun _ => ?_
  refine hreset.bind fun _ => ?_
  exact .ite (fun _ => hJ.startChain) fun _ => .pure _

theorem keepsOr_powerOn : KeepsOr J E powerOn := by
  refine (hJ.keepsOr_applyReset hreset).bind fun _ => ?_
  refine (hJ.keepsOr_setStatus .running).bind fun _ => ?_
  exact hJ.keepsOr_anchorClock.bind fun _ => hJ.startChain

end Clearance

end Chip8.Host
