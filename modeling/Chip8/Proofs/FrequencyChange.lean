import Chip8.Bench
import Chip8.Proofs.Settings

/-!
# Changes of the frequency

A change of the frequency refuses what is at most zero before it does anything. Past that, the new
frequency is stored first. The anchor and the interval that go with it are calculated afterwards,
and a calculation may have no result. So a change that fails there is left half done: with the new
frequency, perhaps with a new anchor, and with the old interval and the old timer chain.

What is not a number is not refused, nor is infinity, and no interval goes with them. A running host
that is left with such a frequency cannot tell what is due any more.

## Main definitions

* `Binary64.Value.IsFinite`: the value is a number, and not infinite
* `Host.rechained`: the host with a new timer chain, if it runs
* `Host.Retuned`: what a change of the frequency comes to
* `Host.LeftBehind`: what it leaves behind when it fails

## Main statements

* `Host.hoare_setFrequency`: how a change of the frequency ends
* `Host.setFrequency_outcome`: which frequencies it fails for, and what becomes of the host
* `Host.setFrequency_not_atomic`: it is not always done in full or not at all
-/

namespace Chip8

namespace Binary64.Value

/-- The value is a number, and not infinite. -/
def IsFinite : Value → Prop
  | finite _ => True
  | nan | infinite _ => False

variable {v : Value}

theorem not_isFinite_mul (hv : ¬v.IsFinite) (w : Value) : ¬(w.mul v).IsFinite := by
  cases v with
  | finite q => exact absurd trivial hv
  | nan => cases w <;> exact id
  | infinite negative =>
    cases w with
    | nan => exact id
    | infinite negative' => exact id
    | finite p =>
      rw [mul]
      split
      · exact id
      · exact id

theorem not_isFinite_div (hv : ¬v.IsFinite) (w : Value) : ¬(v.div w).IsFinite := by
  cases v with
  | finite q => exact absurd trivial hv
  | nan => exact id
  | infinite negative => cases w <;> exact id

/-- What is left of an infinite dividend is not a number, so the floored quotient is none either. -/
theorem floorDiv_of_not_isFinite (hv : ¬v.IsFinite) (w : Value) : v.floorDiv w = nan := by
  have hremainder : v.remainder w = nan := by
    cases v with
    | finite q => exact absurd trivial hv
    | nan => rfl
    | infinite negative => cases w <;> rfl
  have hsub : v.sub nan = nan := by cases v <;> rfl
  have hdiv : (nan : Value).div w = nan := rfl
  have hless : (nan : Value).sub (finite 1) = nan := rfl
  simp only [floorDiv, hremainder, hsub, hdiv, hless, ite_self]
  rfl

end Binary64.Value

open Binary64 (Value)

theorem Quantity.truncate_of_not_isFinite {v : Value} (hv : ¬v.IsFinite) :
    ∃ cause, (Quantity.real v).truncate = .error cause := by
  cases v with
  | finite q => exact absurd trivial hv
  | nan => exact ⟨_, rfl⟩
  | infinite negative => exact ⟨_, rfl⟩

theorem Quantity.floorDiv_of_not_isFinite {v : Value} (hv : ¬v.IsFinite) (divisor : Quantity) :
    (∃ cause, (Quantity.real v).floorDiv divisor = .error cause) ∨
      (Quantity.real v).floorDiv divisor = .ok (.real .nan) := by
  have hends : (Quantity.real v).floorDiv divisor = divisor.toValue.bind fun w =>
      if w.isZero then .error .floorDivisionByZero else .ok (.real (v.floorDiv w)) := by
    cases divisor <;> rfl
  simp only [hends, Value.floorDiv_of_not_isFinite hv]
  cases divisor.toValue with
  | error cause => exact .inl ⟨cause, rfl⟩
  | ok w =>
    by_cases hzero : w.isZero = true
    · exact .inl ⟨.floorDivisionByZero, if_pos hzero⟩
    · exact .inr (if_neg hzero)

namespace Pacer

/-- Timer ticks are apart by the whole quotient of the frequencies, and no less than one cycle. -/
theorem timerInterval_eq_ok_iff {frequency timerFrequency : Number} {interval : Nat} :
    Pacer.timerInterval frequency timerFrequency = .ok interval ↔
      ∃ quotient n, frequency.quantity.floorDiv timerFrequency.quantity = .ok quotient ∧
        quotient.truncate = .ok n ∧ (interval : Int) = max 1 n := by
  simp only [Pacer.timerInterval, bind, Except.bind]
  cases hquotient : frequency.quantity.floorDiv timerFrequency.quantity with
  | error cause => simp
  | ok quotient =>
    cases hn : quotient.truncate with
    | error cause => simp [hn]
    | ok n =>
      have hcast : max 1 n.toNat = interval ↔ (interval : Int) = max 1 n := by omega
      simpa [hn, pure, Except.pure] using hcast

variable {x : Binary64} (hx : ¬x.value.IsFinite)

include hx

/-- At a frequency that is not finite there is no telling what a clock should show. -/
theorem expected_of_not_isFinite (now anchor : Int) :
    ∃ cause, Pacer.expected now anchor (.real x) = .error cause := by
  simp only [Pacer.expected, Number.quantity, Quantity.mul, bind, Except.bind]
  cases (Quantity.integer (now - anchor)).toValue with
  | error cause => exact ⟨cause, rfl⟩
  | ok w =>
    have hdiv : (Quantity.real (w.mul x.value)).div (.integer second) =
        .ok (.real ((w.mul x.value).div (.finite 1000000000))) := by
      rw [Quantity.div, toValue_second]
      · rfl
      · rintro _ _ ⟨⟩
    have hproduct : ¬(w.mul x.value).IsFinite := Value.not_isFinite_mul hx w
    obtain ⟨cause, hcause⟩ :=
      Quantity.truncate_of_not_isFinite (Value.not_isFinite_div hproduct (.finite 1000000000))
    refine ⟨cause, ?_⟩
    show Except.bind ((Quantity.real (w.mul x.value)).div (.integer second)) Quantity.truncate = _
    rw [hdiv]
    exact hcause

/-- Nor is there an interval that goes with it. -/
theorem timerInterval_of_not_isFinite (timerFrequency : Number) :
    ∃ cause, Pacer.timerInterval (.real x) timerFrequency = .error cause := by
  have hends : Pacer.timerInterval (.real x) timerFrequency = (do
      let quotient ← (← (Quantity.real x.value).floorDiv timerFrequency.quantity).truncate
      return max 1 quotient.toNat) := rfl
  rw [hends]
  rcases Quantity.floorDiv_of_not_isFinite hx timerFrequency.quantity with ⟨cause, hcause⟩ | hnan
  · rw [hcause]
    exact ⟨cause, rfl⟩
  · rw [hnan]
    exact ⟨.integerOfNan, rfl⟩

end Pacer

namespace Host

variable {σ Op : Type}

/-- The host with a new timer chain in place of the one that may be going, if it runs. -/
def rechained (h : Host σ Op) : Host σ Op :=
  if h.status = .running then
    { h with
      chainActive := true
      chain := h.chain + 1
      queue := h.queue.insert ⟨h.clock + h.interval, h.scheduled, .timers (h.chain + 1)⟩
      scheduled := h.scheduled + 1 }
  else h

theorem frequency_rechained (h : Host σ Op) : h.rechained.frequency = h.frequency := by
  rw [rechained]
  split <;> rfl

theorem anchor_rechained (h : Host σ Op) : h.rechained.anchor = h.anchor := by
  rw [rechained]
  split <;> rfl

theorem interval_rechained (h : Host σ Op) : h.rechained.interval = h.interval := by
  rw [rechained]
  split <;> rfl

/-- What a change of the frequency comes to: the clock shows what it showed, timer ticks are apart
by the whole quotient of the frequencies, and no less than one cycle, and the timer chain starts
anew. -/
structure Retuned (h : Host σ Op) (frequency : Number) (k : Host σ Op) : Prop where
  positive : frequency.isNonpositive = false
  stored : k.frequency = frequency
  anchor : Pacer.anchor h.world.now h.clock frequency = .ok k.anchor
  interval : ∃ quotient n, frequency.quantity.floorDiv h.timerFrequency.quantity = .ok quotient ∧
    quotient.truncate = .ok n ∧ (k.interval : Int) = max 1 n
  others : k = { h with frequency, anchor := k.anchor, interval := k.interval }.rechained

/-- What a change of the frequency leaves behind when it fails: all as it was, if the frequency is
at most zero, and otherwise the new frequency, with the old anchor if there is no new one, and with
the new anchor if there is no interval. -/
inductive LeftBehind (h : Host σ Op) (frequency : Number) : Failure → Host σ Op → Prop
  | refused (hnonpositive : frequency.isNonpositive = true) :
    LeftBehind h frequency .frequencyNotPositive h
  | anchorless (hpositive : frequency.isNonpositive = false) {cause : ArithmeticError}
    (hanchor : Pacer.anchor h.world.now h.clock frequency = .error cause) :
    LeftBehind h frequency (.arithmetic cause) { h with frequency }
  | intervalless (hpositive : frequency.isNonpositive = false) {anchor : Int}
    {cause : ArithmeticError} (hanchor : Pacer.anchor h.world.now h.clock frequency = .ok anchor)
    (hinterval : Pacer.timerInterval frequency h.timerFrequency = .error cause) :
    LeftBehind h frequency (.arithmetic cause) { h with frequency, anchor }

theorem run_rechain (h : Host σ Op) :
    (do
      if (← get).status = .running then
        stopChain
        startChain : HostM σ Op Unit) h = .ok () h.rechained := by
  by_cases hrunning : h.status = .running
  · simp only [run_bind, run_get, stopChain, run_modify, startChain, hrunning, Bool.not_false,
      and_self, if_true, rechained, enqueue]
    rfl
  · simp only [run_bind, run_get, if_neg hrunning, rechained]
    rfl

section

variable {h : Host σ Op} {frequency : Number} {anchor : Int} {interval : Nat}

theorem retuned_rechained (hpositive : frequency.isNonpositive = false)
    (hanchor : Pacer.anchor h.world.now h.clock frequency = .ok anchor)
    (hinterval : Pacer.timerInterval frequency h.timerFrequency = .ok interval) :
    Retuned h frequency { h with frequency, anchor, interval }.rechained where
  positive := hpositive
  stored := frequency_rechained _
  anchor := by rwa [anchor_rechained]
  interval := by
    rw [interval_rechained]
    exact Pacer.timerInterval_eq_ok_iff.1 hinterval
  others := by rw [anchor_rechained, interval_rechained]

theorem hoare_reanchor (hpositive : frequency.isNonpositive = false) :
    Hoare (· = { h with frequency }) (anchorClock : HostM σ Op Unit)
      (fun _ k => ∃ anchor, Pacer.anchor h.world.now h.clock frequency = .ok anchor ∧
        k = { h with frequency, anchor })
      (LeftBehind h frequency) := by
  rintro _ rfl
  simp only [anchorClock, anchorAt, run_bind, run_get]
  cases hanchor : Pacer.anchor h.world.now h.clock frequency with
  | error cause => exact .anchorless hpositive hanchor
  | ok anchor => exact ⟨anchor, rfl, rfl⟩

theorem hoare_recount (hpositive : frequency.isNonpositive = false)
    (hanchor : Pacer.anchor h.world.now h.clock frequency = .ok anchor) :
    Hoare (· = { h with frequency, anchor })
      (calculate (Pacer.timerInterval frequency h.timerFrequency) : HostM σ Op Nat)
      (fun interval k => Pacer.timerInterval frequency h.timerFrequency = .ok interval ∧
        k = { h with frequency, anchor })
      (LeftBehind h frequency) := by
  rintro _ rfl
  cases hinterval : Pacer.timerInterval frequency h.timerFrequency with
  | error cause => exact .intervalless hpositive hanchor hinterval
  | ok interval => exact ⟨rfl, rfl⟩

end

/-- How a change of the frequency ends: refused before anything is done, or half done because there
is no anchor or no interval, or done. -/
theorem hoare_setFrequency (h : Host σ Op) (frequency : Number) :
    Hoare (· = h) (setFrequency frequency) (fun _ => Retuned h frequency)
      (LeftBehind h frequency) := by
  by_cases hnonpositive : frequency.isNonpositive = true
  · rw [setFrequency, if_pos hnonpositive]
    rintro _ rfl
    exact .refused hnonpositive
  have hpositive : frequency.isNonpositive = false := Bool.not_eq_true _ ▸ hnonpositive
  have hstore : Hoare (· = h) (modify fun k => { k with frequency } : HostM σ Op Unit)
      (fun _ k => k = { h with frequency }) (LeftBehind h frequency) := by
    rintro _ rfl
    rfl
  rw [setFrequency, if_neg hnonpositive]
  refine hstore.bind fun _ => (hoare_reanchor hpositive).bind fun _ => Hoare.get_bind fun k hk => ?_
  obtain ⟨anchor, hanchor, rfl⟩ := hk
  refine (hoare_recount hpositive hanchor).bind fun interval => ?_
  have hset : Hoare (fun k => Pacer.timerInterval frequency h.timerFrequency = .ok interval ∧
        k = { h with frequency, anchor })
      (modify fun k => { k with interval } : HostM σ Op Unit)
      (fun _ k => Pacer.timerInterval frequency h.timerFrequency = .ok interval ∧
        k = { h with frequency, anchor, interval })
      (LeftBehind h frequency) := by
    rintro _ ⟨hinterval, rfl⟩
    exact ⟨hinterval, rfl⟩
  refine hset.bind fun _ => ?_
  rintro _ ⟨hinterval, rfl⟩
  rw [run_rechain]
  exact retuned_rechained hpositive hanchor hinterval

variable [Plant σ Op]

/-- A host that runs at a frequency which is not finite cannot tell what is due. -/
theorem cyclesDue_of_not_isFinite {x : Binary64} (hx : ¬x.value.IsFinite) {h : Host σ Op}
    (hrunning : h.status = .running) (hfrequency : h.frequency = .real x) :
    ∃ cause, execute .cyclesDue h = .error (.arithmetic cause) h := by
  obtain ⟨cause, hcause⟩ := Pacer.expected_of_not_isFinite hx h.world.now h.anchor
  rw [← hfrequency] at hcause
  have hdue : cyclesDue h = .error (.arithmetic cause) h := by
    simp only [cyclesDue, run_bind, run_get, hrunning, ne_eq, not_true_eq_false, if_false, hcause]
    rfl
  refine ⟨cause, ?_⟩
  show (cyclesDue >>= fun due => pure (Reply.integer due)) h = _
  rw [run_bind, hdue]

theorem execute_setFrequency (frequency : Number) :
    (execute (.setFrequency frequency) : HostM σ Op Reply) =
      (setFrequency frequency >>= fun _ => pure .nothing) := rfl

theorem hoare_execute_setFrequency (h : Host σ Op) (frequency : Number) :
    Hoare (· = h) (execute (.setFrequency frequency))
      (fun reply k => reply = .nothing ∧ Retuned h frequency k) (LeftBehind h frequency) := by
  rw [execute_setFrequency]
  exact (hoare_setFrequency h frequency).bind fun _ _ hk => ⟨rfl, hk⟩

/-- A frequency that is not finite is left behind, as there is no interval that goes with it. -/
theorem exists_error_of_not_isFinite (h : Host σ Op) {x : Binary64} (hx : ¬x.value.IsFinite)
    (hpositive : (Number.real x).isNonpositive = false) :
    ∃ cause k, execute (.setFrequency (.real x)) h = .error (.arithmetic cause) k ∧
      k.frequency = .real x := by
  obtain ⟨cause, hinterval⟩ := Pacer.timerInterval_of_not_isFinite hx h.timerFrequency
  have hend := hoare_execute_setFrequency h (.real x) h rfl
  cases hrun : execute (.setFrequency (.real x)) h with
  | ok reply k =>
    rw [hrun] at hend
    rw [Pacer.timerInterval_eq_ok_iff.2 hend.2.interval] at hinterval
    cases hinterval
  | error e k =>
    rw [hrun] at hend
    cases hend with
    | refused hnonpositive =>
      rw [hpositive] at hnonpositive
      cases hnonpositive
    | anchorless _ _ => exact ⟨_, _, rfl, rfl⟩
    | intervalless _ _ _ => exact ⟨_, _, rfl, rfl⟩

/-- **Changes of the frequency**, of any host and to any number: they end as `Retuned` and
`LeftBehind` say. To a positive integer, with another one for the timers, they end well as long as
the clock is not too far ahead. What is not finite they leave behind, and no host that runs at such
a frequency can tell what is due. -/
theorem setFrequency_outcome (h : Host σ Op) (frequency : Number) :
    Hoare (· = h) (execute (.setFrequency frequency))
        (fun reply k => reply = .nothing ∧ Retuned h frequency k) (LeftBehind h frequency) ∧
      (∀ f t : Int, 0 < f → 0 < t → frequency = .integer f → h.timerFrequency = .integer t →
        h.clock ≤ 2 ^ 200 → ∃ k, execute (.setFrequency frequency) h = .ok .nothing k) ∧
      ∀ x, frequency = .real x → ¬x.value.IsFinite → frequency.isNonpositive = false →
        (∃ cause k, execute (.setFrequency frequency) h = .error (.arithmetic cause) k ∧
          k.frequency = frequency) ∧
        ∀ k : Host σ Op, k.frequency = frequency → k.status = .running →
          ∃ cause, execute .cyclesDue k = .error (.arithmetic cause) k := by
  refine ⟨hoare_execute_setFrequency h frequency, ?_, ?_⟩
  · rintro f t hf ht rfl htimer hclock
    obtain ⟨k, hk⟩ := exists_setFrequency hf ht htimer hclock
    refine ⟨k, ?_⟩
    rw [execute_setFrequency, run_bind, hk]
    rfl
  · rintro x rfl hx hpositive
    refine ⟨exists_error_of_not_isFinite h hx hpositive, ?_⟩
    intro k hfrequency hrunning
    exact cyclesDue_of_not_isFinite hx hrunning hfrequency

/-- Not a number, as it is mostly written. -/
def notANumber : Binary64 := ⟨0x7FF8000000000000⟩

theorem not_isFinite_notANumber : ¬notANumber.value.IsFinite := by
  have hvalue : notANumber.value = .nan := by decide
  rw [hvalue]
  exact id

/-- A running bench changes to 1200 cycles in a second, and fails to change to no number of them. -/
theorem setFrequency_outcome_bench :
    ∃ h : Host Bench Empty, create {} {} (.integer 500) (.integer 60) 5000 = .ok h ∧
      let k := finalState (execute .powerOn h)
      (∃ n, execute (.setFrequency (.integer 1200)) k = .ok .nothing n ∧ n.interval = 20) ∧
        ∃ cause n, execute (.setFrequency (.real notANumber)) k = .error (.arithmetic cause) n ∧
          n.frequency = .real notANumber := by
  refine ⟨_, create_eq _ _ (by decide) (by decide) _, ?_⟩
  intro k
  have htimer : k.timerFrequency = .integer 60 := by decide +kernel
  have hclock : k.clock ≤ 2 ^ 200 := by decide +kernel
  refine ⟨?_, ?_⟩
  · obtain ⟨hends, hwhole, -⟩ := setFrequency_outcome k (.integer 1200)
    obtain ⟨n, hn⟩ := hwhole 1200 60 (by decide) (by decide) rfl htimer hclock
    refine ⟨n, hn, ?_⟩
    have hend := hends k rfl
    rw [hn] at hend
    obtain ⟨quotient, m, hquotient, hm, hmax⟩ := hend.2.interval
    rw [htimer] at hquotient
    cases hquotient
    cases hm
    have htwenty : (1200 : Int).fdiv 60 = 20 := by decide
    omega
  · obtain ⟨-, -, hendless⟩ := setFrequency_outcome k (.real notANumber)
    exact (hendless notANumber rfl not_isFinite_notANumber (by decide)).1

/-- A change that fails does not always leave the host as it was: the bench is left with no number
for its frequency. -/
theorem setFrequency_not_atomic :
    ¬∀ (h : Host Bench Empty) (commands : List (Command Empty)) (frequency : Number),
      create {} {} (.integer 500) (.integer 60) 5000 = .ok h →
        ∀ e k, execute (.setFrequency frequency) (runAll execute commands h).2 = .error e k →
          k = (runAll execute commands h).2 := by
  intro hall
  let start : Host Bench Empty :=
    { plant := {}
      world := {}
      frequency := .integer 500
      timerFrequency := .integer 60
      maxCatchUp := 5000
      anchor := 0
      interval := 8 }
  let running := (runAll execute [.powerOn] start).2
  obtain ⟨cause, k, hend, hfrequency⟩ :=
    exists_error_of_not_isFinite running not_isFinite_notANumber (by decide)
  have hcreate : create {} {} (.integer 500) (.integer 60) 5000 = .ok start :=
    create_eq _ _ (by decide) (by decide) _
  have hsame : k = running := hall start [.powerOn] _ hcreate _ k hend
  have hbefore : running.frequency = .integer 500 := by decide +kernel
  rw [hsame, hbefore] at hfrequency
  cases hfrequency

end Host

end Chip8
