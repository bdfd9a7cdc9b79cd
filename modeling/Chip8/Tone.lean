import Chip8.Number
import Chip8.Place

/-!
# Tones

A square wave as signed sixteen-bit samples: half a period at the positive amplitude, half at the
negative one, and so on for the whole duration.

## Main definitions

* `Tone`: amplitude, length and half period
* `Tone.ofSettings`: the tone that a beeper's settings ask for
* `Tone.samples`: the samples

## Main statements

* `Tone.samples_eq_ok_iff`: which tones can be rendered
-/

namespace Chip8

/-- A square wave. -/
structure Tone where
  amplitude : Int
  /-- How many samples there are. -/
  length : Nat
  /-- For how many samples the wave stays on one side. -/
  halfPeriod : Nat
  deriving DecidableEq, Repr

namespace Tone

/-- Why a tone cannot be rendered. -/
inductive Error where
  | arithmetic (cause : ArithmeticError)
  /-- More samples than a machine word can count. -/
  | beyondCount
  /-- More samples than a list can hold. -/
  | beyondMemory
  /-- A sample above the greatest sixteen-bit one. -/
  | aboveRange
  /-- A sample below the least sixteen-bit one. -/
  | belowRange
  /-- A sample that not even a machine word holds. -/
  | beyondWord
  deriving DecidableEq, Repr

/-- What is said about a tone that cannot be rendered. -/
def Error.message : Error → String
  | arithmetic cause => cause.message
  | beyondCount => "cannot fit 'int' into an index-sized integer"
  | beyondMemory => ""
  | aboveRange => "signed short integer is greater than maximum"
  | belowRange => "signed short integer is less than minimum"
  | beyondWord => "Python int too large to convert to C long"

/-- The greatest sample, which a volume of one reaches. -/
def peak : Int := 32767

/-- The tone of a volume and frequency over a duration, at a sample rate. It has at least one sample
and a half period of at least one. -/
def ofSettings (sampleRate frequency duration volume : Number) : Except ArithmeticError Tone := do
  let amplitude ← (← volume.quantity.mul (.integer peak)).truncate
  let length ← (← sampleRate.quantity.mul duration.quantity).truncate
  let period ← Quantity.mul (.real (.finite 2)) frequency.quantity
  let halfPeriod ← (← sampleRate.quantity.div period).truncate
  return ⟨amplitude, max 1 length.toNat, max 1 halfPeriod.toNat⟩

/-- A sample, if sixteen bits hold it. -/
def checkSample (n : Int) : Except Error Int :=
  if n < -wordLimit ∨ wordLimit ≤ n then .error .beyondWord
  else if n < -peak - 1 then .error .belowRange
  else if peak < n then .error .aboveRange
  else .ok n

/-- Sample `i` of a tone. -/
def sample (t : Tone) (i : Nat) : Int :=
  if i / t.halfPeriod % 2 = 0 then t.amplitude else -t.amplitude

/-- The least number of samples that is too many for a list, each of whose places takes eight
bytes. -/
def listLimit : Nat := 0x1000000000000000

/-- See to it that a list can hold so many samples. -/
def checkLength (n : Nat) : Except Error Unit :=
  if wordLimit ≤ n then .error .beyondCount
  else if listLimit ≤ n then .error .beyondMemory
  else .ok ()

/-- The samples of a tone. They are refused for their number, or else for the first one that sixteen
bits do not hold. -/
def samples (t : Tone) : Except Error (List Int) := do
  checkLength t.length
  (List.range t.length).mapM fun i => checkSample (t.sample i)

theorem checkLength_of_lt {n : Nat} (h : n < listLimit) : checkLength n = .ok () := by
  have hlimit : (listLimit : Int) ≤ wordLimit := by decide
  rw [checkLength, if_neg (by omega), if_neg (by omega)]

theorem checkLength_of_le {n : Nat} (h : listLimit ≤ n) :
    ∃ cause, checkLength n = .error cause := by
  by_cases hword : wordLimit ≤ n
  · exact ⟨_, if_pos hword⟩
  · exact ⟨.beyondMemory, by rw [checkLength, if_neg hword, if_pos h]⟩

theorem checkSample_of_fits {n : Int} (h : -peak - 1 ≤ n ∧ n ≤ peak) : checkSample n = .ok n := by
  have hpeak : peak < wordLimit := by decide
  rw [checkSample, if_neg (by omega), if_neg (by omega), if_neg (by omega)]

theorem fits_of_checkSample {n m : Int} (h : checkSample n = .ok m) : -peak - 1 ≤ n ∧ n ≤ peak := by
  unfold checkSample at h
  split at h
  · cases h
  · split at h
    · cases h
    · split at h
      · cases h
      · omega

section

variable {f : Nat → Int} {is : List Nat}

theorem mapM_checkSample_of_fits (h : ∀ i ∈ is, -peak - 1 ≤ f i ∧ f i ≤ peak) :
    is.mapM (fun i => checkSample (f i)) = .ok (is.map f) := by
  induction is with
  | nil => rfl
  | cons i is ih =>
    obtain ⟨hi, his⟩ := List.forall_mem_cons.1 h
    rw [List.mapM_cons, checkSample_of_fits hi, ih his]
    rfl

theorem fits_of_mapM_checkSample {ns : List Int}
    (h : is.mapM (fun i => checkSample (f i)) = .ok ns) :
    ∀ i ∈ is, -peak - 1 ≤ f i ∧ f i ≤ peak := by
  induction is generalizing ns with
  | nil => exact List.forall_mem_nil _
  | cons i is ih =>
    rw [List.mapM_cons] at h
    cases hi : checkSample (f i) with
    | error cause =>
      rw [hi] at h
      cases h
    | ok n =>
      cases his : is.mapM fun i => checkSample (f i) with
      | error cause =>
        rw [hi, his] at h
        cases h
      | ok ns => exact List.forall_mem_cons.2 ⟨fits_of_checkSample hi, ih his⟩

end

/-- **A tone can be rendered if a list holds its samples and sixteen bits hold each of them.** -/
theorem samples_eq_ok_iff {t : Tone} {ns : List Int} :
    t.samples = .ok ns ↔
      t.length < listLimit ∧ (∀ i < t.length, -peak - 1 ≤ t.sample i ∧ t.sample i ≤ peak) ∧
        ns = (List.range t.length).map t.sample := by
  rw [samples]
  by_cases hlength : t.length < listLimit
  · rw [checkLength_of_lt hlength, and_iff_right hlength]
    constructor
    · intro h
      have hfits := fits_of_mapM_checkSample h
      cases h.symm.trans (mapM_checkSample_of_fits hfits)
      exact ⟨fun i hi => hfits i (List.mem_range.2 hi), rfl⟩
    · rintro ⟨hfits, rfl⟩
      exact mapM_checkSample_of_fits fun i hi => hfits i (List.mem_range.1 hi)
  · obtain ⟨cause, hcause⟩ := checkLength_of_le (Nat.not_lt.1 hlength)
    rw [hcause]
    simp [hlength, bind, Except.bind]

/-- The samples that a beeper's settings ask for. -/
def render (sampleRate frequency duration volume : Number) : Except Error (List Int) := do
  let tone ← (ofSettings sampleRate frequency duration volume).mapError .arithmetic
  tone.samples

end Tone

end Chip8
