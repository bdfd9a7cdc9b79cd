import Chip8.Proofs.Dispatching
import Chip8.Proofs.Rounding

/-!
# What a host is set to

A host is set to a frequency, to the interval of its timer ticks, and to a limit for what it makes
up for. These settings change only when somebody changes them. So a host that nobody listens to and
for which no script is waiting keeps its settings through everything else: through power-on and
power-off, pauses and resets, through ticks and instructions, through whatever its plant is told,
and through all of that failing.

A change of the frequency changes the interval with it, unless it fails on the way. It can fail only
when the clock is so far ahead that its seconds are too many for a floating-point value.

## Main definitions

* `Command.Plain`: the command changes no settings and brings no script along
* `Host.Settings`: what a host is set to
* `Host.Settled`: a host with given settings, without listeners and with no script waiting

## Main statements

* `Host.settled_execute`: plain commands keep the settings
* `Host.settled_setFrequency`: a change of the frequency changes the interval with it
* `Host.exists_setFrequency`: when the clock is not too far ahead, a change of the frequency ends
  well
-/

namespace Chip8

variable {σ Op : Type}

/-- The command changes no settings and brings no script along. -/
def Command.Plain : Command Op → Prop
  | .setFrequency _ | .setMaxCatchUp _ => False
  | .schedule _ _ _ | .addListener _ _ | .removeListener _ => False
  | _ => True

/-- The anchor of a clock that is not too far ahead can be calculated. -/
theorem Pacer.exists_anchor (now : Int) {clock : Nat} {f : Int} (hf : 0 < f)
    (hclock : clock ≤ 2 ^ 200) :
    ∃ anchor, Pacer.anchor now clock (.integer f) = .ok anchor := by
  have hne : f ≠ 0 := hf.ne'
  have hsign : f.sign = 1 := Int.sign_eq_one_of_pos hf
  -- The seconds are no more than the cycles, and the nanoseconds are a billion times as many.
  have hcycles : (clock : ℚ) ≤ 2 ^ (200 : Int) := by
    rw [zpow_ofNat]
    exact_mod_cast hclock
  obtain ⟨seconds, hseconds, hnonneg, hle⟩ : ∃ v,
      Binary64.round (mkRat (clock * f.sign) f.natAbs) = .finite v ∧
      0 ≤ v ∧ v ≤ 2 ^ (200 : Int) := by
    have hone : (1 : ℚ) ≤ (f.natAbs : ℕ) := by exact_mod_cast Int.natAbs_pos.2 hne
    rw [hsign, Int.mul_one, Rat.mkRat_eq_div, Int.cast_natCast]
    refine Binary64.exists_round_le (by positivity) ?_ (by decide) (by decide)
    exact (div_le_self (Nat.cast_nonneg clock) hone).trans hcycles
  obtain ⟨nanoseconds, hnanoseconds, -⟩ : ∃ v, Binary64.round (seconds * 1000000000) = .finite v ∧
      0 ≤ v ∧ v ≤ 2 ^ (230 : Int) := by
    refine Binary64.exists_round_le (by positivity) ?_ (by decide) (by decide)
    have hbillion : (1000000000 : ℚ) ≤ 2 ^ (30 : Int) := by norm_num
    have hpow : (2 : ℚ) ^ (230 : Int) = 2 ^ (200 : Int) * 2 ^ (30 : Int) := by
      rw [← zpow_add₀ two_ne_zero]
      rfl
    rw [hpow]
    exact mul_le_mul hle hbillion (by positivity) (by positivity)
  have hquotient : Quantity.integerQuotient clock f = .ok (.finite seconds) := by
    rw [Quantity.integerQuotient, hseconds]
  have hdiv : Quantity.div (.integer clock) (.integer f) = .ok (.real (.finite seconds)) := by
    simp only [Quantity.div, if_neg hne, hquotient]
    rfl
  have hmul : Quantity.mul (.real (.finite seconds)) (.integer second) =
      .ok (.real (.finite nanoseconds)) := by
    rw [Quantity.mul, toValue_second]
    · exact congrArg (fun v => Except.ok (Quantity.real v)) hnanoseconds
    · rintro _ _ ⟨⟩
  refine ⟨now - nanoseconds.num.tdiv nanoseconds.den, ?_⟩
  simp only [anchor, isNonpositive_integer hf, Number.quantity, hdiv, bind, Except.bind, hmul]
  rfl

namespace Host

structure Settings where
  frequency : Number
  timerFrequency : Number
  maxCatchUp : Int
  interval : Nat

/-- A host with given settings, without listeners and with no script waiting, whose plant has an
invariant. -/
structure Settled (I : σ → Prop) (s : Settings) (h : Host σ Op) : Prop where
  plant : I h.plant
  frequency : h.frequency = s.frequency
  timerFrequency : h.timerFrequency = s.timerFrequency
  maxCatchUp : h.maxCatchUp = s.maxCatchUp
  interval : h.interval = s.interval
  listeners : h.listeners = []
  known : h.known = []
  events : ∀ e ∈ h.queue.events, e.payload.Runs (· = [])

variable {I : σ → Prop} {s : Settings} {α : Type}

theorem invariant_settled : Invariant (· = []) (Settled I s : Host σ Op → Prop) where
  aside _ _ _ _ _ _ _ hh := { hh with }
  recordMark _ _ hh := { hh with }
  pass _ _ hh := { hh with }
  queue _ _ hh hqueue := { hh with events := hqueue }
  events _ hh := hh.events
  told h hh l hl := by
    rw [hh.listeners] at hl
    exact nomatch hl

theorem settled_onPlant {m : PlantM σ α} (hm : Keeps (fun t => I t.1) m) :
    Keeps (Settled I s) (onPlant m : HostM σ Op α) :=
  hoare_onPlant_of hm (fun _ hh => hh.plant) (fun _ _ _ hh ht => { hh with plant := ht })
    fun _ _ _ hh ht => { hh with plant := ht }

section

variable [Plant σ Op] (hmodest : Plant.Modest σ) {p : Op → Prop} (hplant : Plant.Keeps I p)

include hmodest hplant

/-- A modest plant wants nothing done. -/
theorem plantInvariant_settled : PlantInvariant (· = []) (Settled I s : Host σ Op → Prop) where
  toInvariant := invariant_settled
  cycle := hoare_onPlant_of (hplant.cycle.and hmodest.quiet.cycle) (fun _ hh => ⟨hh.plant, trivial⟩)
    (fun _ _ _ hh ht => ⟨{ hh with plant := ht.1.1 }, ht.2.2⟩)
    fun _ _ _ hh ht => { hh with plant := ht.1 }
  updateTimers clock := hoare_onPlant_of
    ((hplant.updateTimers clock).and (hmodest.quiet.updateTimers clock))
    (fun _ hh => ⟨hh.plant, trivial⟩) (fun _ _ _ hh ht => ⟨{ hh with plant := ht.1.1 }, ht.2.2⟩)
    fun _ _ _ hh ht => { hh with plant := ht.1 }
  reset := settled_onPlant hplant.reset

/-- **A plain command** keeps the settings, whether or not it fails. -/
theorem settled_execute {c : Command Op} (hc : c.Plain) (hkind : c.Every p) :
    Keeps (Settled I s) (execute c : HostM σ Op Reply) := by
  have hJ : PlantInvariant (· = []) (Settled I s) := plantInvariant_settled hmodest hplant
  have hrun : ∀ script, script = [] →
      Keeps (Settled I s) (runner nestingLimit script : HostM σ Op Unit) := by
    rintro _ rfl
    rw [runner_nil]
    exact .pure _
  refine keepsOr_carryOut (hJ.immediate hrun) ?_
  cases c with
  | operate op => exact settled_onPlant (hplant.operate op hkind)
  | setFrequency | setMaxCatchUp | schedule | addListener | removeListener => exact hc.elim
  | _ => exact hJ.spares hrun trivial

end

/-! ## Changes of the frequency -/

variable {f t : Int}

theorem setFrequency_eq (hf : 0 < f) :
    (setFrequency (.integer f) : HostM σ Op Unit) = (do
      modify fun h => { h with frequency := .integer f }
      anchorClock
      let interval ← calculate (Pacer.timerInterval (.integer f) (← get).timerFrequency)
      modify fun h => { h with interval }
      if (← get).status = .running then
        stopChain
        startChain) := by
  have hpositive : ¬(Number.integer f).isNonpositive = true := by
    rw [Pacer.isNonpositive_integer hf]
    exact Bool.false_ne_true
  rw [setFrequency, if_neg hpositive]

/-- **A change of the frequency** to another positive integer changes the interval with it. -/
theorem settled_setFrequency (hf : 0 < f) (ht : 0 < t) (htimer : s.timerFrequency = .integer t) :
    Hoare (Settled I s) (setFrequency (.integer f) : HostM σ Op Unit)
      (fun _ => Settled I { s with frequency := .integer f, interval := max 1 (f / t).toNat })
      (fun _ _ => True) := by
  have hset : Hoare (Settled I s)
      (modify fun h => { h with frequency := .integer f } : HostM σ Op Unit)
      (fun _ => Settled I { s with frequency := .integer f }) (fun _ _ => True) :=
    fun _ hh => { hh with frequency := rfl }
  have hinterval : Hoare (Settled I { s with frequency := .integer f })
      (modify fun h => { h with interval := max 1 (f / t).toNat } : HostM σ Op Unit)
      (fun _ => Settled I { s with frequency := .integer f, interval := max 1 (f / t).toNat })
      (fun _ _ => True) :=
    fun _ hh => { hh with interval := rfl }
  have hrestart : Keeps
      (Settled I { s with frequency := .integer f, interval := max 1 (f / t).toNat })
      (do
        if (← get).status = .running then
          stopChain
          startChain : HostM σ Op Unit) := by
    refine .get_bind fun h _ => ?_
    exact .ite (fun _ => invariant_settled.keeps_stopChain.bind
      fun _ => invariant_settled.keeps_startChain) fun _ => .pure _
  have hsafe {s : Settings} {m : HostM σ Op Unit} (hm : Keeps (Settled I s) m) :
      Hoare (Settled I s) m (fun _ => Settled I s) (fun _ _ => True) :=
    hm.consequence (fun _ hh => hh) (fun _ _ hh => hh) fun _ _ _ => trivial
  rw [setFrequency_eq hf]
  refine hset.bind fun _ => ?_
  refine (hsafe invariant_settled.clearance.keepsOr_anchorClock).bind fun _ => ?_
  refine Hoare.get_bind fun h hh => ?_
  have hends : Pacer.timerInterval (.integer f) h.timerFrequency = .ok (max 1 (f / t).toNat) := by
    rw [hh.timerFrequency, htimer, Pacer.timerInterval_integer f ht]
  rw [hends]
  rintro k rfl
  exact (hinterval.bind fun _ => hsafe hrestart) k hh

theorem exists_startChain (h : Host σ Op) : ∃ k, startChain h = .ok () k := by
  simp only [startChain, run_bind, run_get]
  split
  · exact ⟨_, rfl⟩
  · exact ⟨_, rfl⟩

/-- When the clock is not too far ahead, a change of the frequency ends well. -/
theorem exists_setFrequency (hf : 0 < f) (ht : 0 < t) {h : Host σ Op}
    (htimer : h.timerFrequency = .integer t) (hclock : h.clock ≤ 2 ^ 200) :
    ∃ k, setFrequency (.integer f) h = .ok () k := by
  obtain ⟨anchor, hanchor⟩ := Pacer.exists_anchor h.world.now hf hclock
  have hends : Pacer.timerInterval (.integer f) h.timerFrequency = .ok (max 1 (f / t).toNat) := by
    rw [htimer, Pacer.timerInterval_integer f ht]
  rw [setFrequency_eq hf]
  simp only [run_bind, run_modify, run_get, anchorClock, anchorAt, hanchor, calculate,
    run_pure, hends]
  by_cases hrunning : h.status = .running
  · rw [if_pos hrunning]
    exact exists_startChain _
  · rw [if_neg hrunning]
    exact ⟨_, rfl⟩

end Host

end Chip8
