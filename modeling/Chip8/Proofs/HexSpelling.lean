import Chip8.HexRange
import Mathlib.Data.List.Forall2
import Mathlib.Data.List.TakeDrop
import Mathlib.Data.List.TakeWhile

/-!
# Spellings of addresses

An address can be spelled in many ways: each letter in either case, after any number of zeros, with
or without a marker, and between any blanks. However it is spelled, the same address is read. So a
range is read from any spellings of its two ends.

## Main definitions

* `Text.EitherCase`: a character shows a digit
* `Text.Spelling`: a spelling of a number

## Main statements

* `Text.exists_toDigits`: the digits of a number, as numbers
* `Text.readInteger_digits`: digits are read as what they are worth
* `HexRange.readAddress_spelling`, `HexRange.ofChars_spelling`: what is read from spellings
-/

namespace Chip8

namespace Text

/-! ## Trimming -/

section

variable {p : Char → Bool} {cs : List Char}

theorem dropWhile_eq_self (h : ∀ c ∈ cs.head?, p c = false) : cs.dropWhile p = cs := by
  cases cs with
  | nil => rfl
  | cons c cs => exact List.dropWhile_cons_of_neg (by simp [h c rfl])

/-- What is trimmed off are the characters of the class at the two ends, up to others. -/
theorem trimBy_append_of_ends {before after : List Char} (hbefore : ∀ c ∈ before, p c = true)
    (hhead : ∀ c ∈ cs.head?, p c = false) (hlast : ∀ c ∈ cs.getLast?, p c = false)
    (hafter : ∀ c ∈ after, p c = true) :
    trimBy p (before ++ (cs ++ after)) = cs := by
  rw [trimBy, List.dropWhile_append_of_pos hbefore]
  cases cs with
  | nil =>
    rw [List.nil_append, List.dropWhile_eq_nil_iff.2 hafter]
    rfl
  | cons c cs =>
    have hfront : ((c :: cs) ++ after).dropWhile p = (c :: cs) ++ after := dropWhile_eq_self hhead
    have hback : (c :: cs).reverse.dropWhile p = (c :: cs).reverse :=
      dropWhile_eq_self (by rwa [List.head?_reverse])
    rw [hfront, List.reverse_append,
      List.dropWhile_append_of_pos (fun d hd => hafter d (List.mem_reverse.1 hd)), hback,
      List.reverse_reverse]

theorem trimBy_append {before after : List Char} (hbefore : ∀ c ∈ before, p c = true)
    (hcs : ∀ c ∈ cs, p c = false) (hafter : ∀ c ∈ after, p c = true) :
    trimBy p (before ++ (cs ++ after)) = cs :=
  trimBy_append_of_ends hbefore (fun c hc => hcs c (List.mem_of_mem_head? hc))
    (fun c hc => hcs c (List.mem_of_mem_getLast? hc)) hafter

theorem trimBy_eq_self (h : ∀ c ∈ cs, p c = false) : trimBy p cs = cs := by
  have htrim : trimBy p ([] ++ (cs ++ [])) = cs := trimBy_append nofun h nofun
  simpa using htrim

end

/-! ## Digits -/

/-- What digits are worth after digits worth `value`. -/
def worth (value : Nat) (ds : List Nat) : Nat := ds.foldl (fun value d => value * 16 + d) value

theorem exists_toDigits (n : Nat) :
    ∃ ds : List Nat, Nat.toDigits 16 n = ds.map Nat.digitChar ∧ (∀ d ∈ ds, d < 16) ∧
      worth 0 ds = n := by
  induction n using Nat.strongRecOn with
  | _ n ih =>
    by_cases hn : n < 16
    · exact ⟨[n], Nat.toDigits_of_lt_base hn, by simpa using hn, by simp [worth]⟩
    · obtain ⟨ds, hds, hlt, hworth⟩ := ih (n / 16) (by omega)
      refine ⟨ds ++ [n % 16], ?_, ?_, ?_⟩
      · rw [Nat.toDigits_of_base_le (by decide) (Nat.not_lt.1 hn), hds, List.map_append,
          List.map_singleton]
      · have hlast : n % 16 < 16 := Nat.mod_lt n (by decide)
        simpa [or_imp, forall_and] using ⟨hlt, hlast⟩
      · rw [worth, List.foldl_concat, ← worth, hworth]
        omega

/-- A digit as it is shown is not changed in being read, and has its value. -/
theorem digitChar_spec : ∀ d < 16, plain (Nat.digitChar d) = Nat.digitChar d ∧
    digitIn? 16 (Nat.digitChar d) = some d ∧ Nat.digitChar d ∉ [' ', '_', '-', '+', 'x', 'X'] := by
  decide

variable {ds : List Nat}

theorem notMem_digits (hds : ∀ d ∈ ds, d < 16) {c : Char}
    (hc : c ∈ [' ', '_', '-', '+', 'x', 'X']) :
    c ∉ ds.map Nat.digitChar := by
  intro hmem
  obtain ⟨d, hd, rfl⟩ := List.mem_map.1 hmem
  exact (digitChar_spec d (hds d hd)).2.2 hc

theorem readDigits_digits (hds : ∀ d ∈ ds, d < 16) (hne : ds ≠ []) (value : Nat) :
    readDigits 16 value (ds.map Nat.digitChar) = some (worth value ds) := by
  induction ds generalizing value with
  | nil => exact absurd rfl hne
  | cons d ds ih =>
    obtain ⟨hd, hds⟩ := List.forall_mem_cons.1 hds
    obtain ⟨-, hvalue, -⟩ := digitChar_spec d hd
    cases ds with
    | nil => simp [readDigits, hvalue, worth]
    | cons e ds =>
      have hunderscore : Nat.digitChar e ≠ '_' := fun h =>
        notMem_digits hds (c := '_') (by decide) (h ▸ List.mem_cons_self)
      have hstep : readDigits 16 value
          (Nat.digitChar d :: Nat.digitChar e :: ds.map Nat.digitChar) =
          (digitIn? 16 (Nat.digitChar d)).bind fun d =>
            readDigits 16 (value * 16 + d) (Nat.digitChar e :: ds.map Nat.digitChar) := by
        rw [readDigits]
        · nofun
        · exact fun _ h => hunderscore (List.cons.inj h).1
      simp only [List.map_cons] at ih ⊢
      rw [hstep, hvalue]
      exact ih hds (by simp) _

theorem dropHexMarker_eq_self {cs : List Char} (hx : 'x' ∉ cs) (hX : 'X' ∉ cs) :
    dropHexMarker cs = cs := by
  fun_cases dropHexMarker cs <;> grind

theorem readSigned_of_notMem {base : Nat} {cs : List Char} (hminus : '-' ∉ cs) (hplus : '+' ∉ cs) :
    readSigned base cs = (readNatural base cs).map fun n => (n : Int) := by
  fun_cases readSigned base cs
  next => simp at hminus
  next => simp at hplus
  next => rfl

/-- Digits are read as what they are worth. -/
theorem readInteger_digits (hds : ∀ d ∈ ds, d < 16) (hne : ds ≠ []) :
    readInteger 16 (ds.map Nat.digitChar) = some (worth 0 ds : Int) := by
  have hplain : (ds.map Nat.digitChar).map plain = ds.map Nat.digitChar := by
    rw [List.map_map]
    exact List.map_congr_left fun d hd => (digitChar_spec d (hds d hd)).1
  have hnone {c : Char} (hc : c ∈ [' ', '_', '-', '+', 'x', 'X']) : c ∉ ds.map Nat.digitChar :=
    notMem_digits hds hc
  have htrim : trimBy (· = ' ') (ds.map Nat.digitChar) = ds.map Nat.digitChar :=
    trimBy_eq_self fun c hc => decide_eq_false (ne_of_mem_of_not_mem hc (hnone (by decide)))
  have hnatural : readNatural 16 (ds.map Nat.digitChar) = some (worth 0 ds) := by
    rw [readNatural, if_pos rfl, dropHexMarker_eq_self (hnone (by decide)) (hnone (by decide)),
      readDigits_digits hds hne]
  rw [readInteger, hplain, htrim]
  rw [readSigned_of_notMem (hnone (by decide)) (hnone (by decide)), hnatural]
  rfl

/-! ## Spellings -/

/-- The character is a digit, or its capital. -/
def EitherCase (c digit : Char) : Prop := c = digit ∨ c = digit.toUpper

/-- A spelling of a number: blanks, a marker or none, zeros and digits in either case, and
blanks. -/
structure Spelling (n : Nat) where
  before : List Char
  marker : List Char
  zeros : Nat
  numeral : List Char
  after : List Char
  before_blank : ∀ c ∈ before, isBlank c = true
  marker_mem : marker ∈ [[], ['0', 'x'], ['0', 'X']]
  numeral_cased : List.Forall₂ EitherCase numeral (List.replicate zeros '0' ++ Nat.toDigits 16 n)
  after_blank : ∀ c ∈ after, isBlank c = true

namespace Spelling

variable {n : Nat}

/-- The text of the spelling. -/
def text (x : Spelling n) : List Char := x.before ++ ((x.marker ++ x.numeral) ++ x.after)

end Spelling

/-- The characters of markers and numerals. -/
def numeralChars : List Char := "0123456789abcdefABCDEFxX".toList

/-- A digit in either case is a character of numerals, and the digit in lower case. -/
theorem eitherCase_spec {c : Char} {d : Nat} (hd : d < 16) (hc : EitherCase c (Nat.digitChar d)) :
    c ∈ numeralChars ∧ c ≠ Char.ofNat 0x3A3 ∧
      CaseRun.full lowerRuns lowerExpansions c = [Nat.digitChar d] := by
  obtain rfl | rfl := hc
  · revert d
    decide +kernel
  · revert d
    decide +kernel

theorem isBlank_of_mem_numeralChars {c : Char} (hc : c ∈ numeralChars) : isBlank c = false := by
  have hall : (numeralChars.all fun c => !isBlank c) = true := by decide
  simpa using List.all_eq_true.1 hall c hc

theorem lowerAfter_cased {numeral ds : List _} (before : List Char) (hds : ∀ d ∈ ds, d < 16)
    (hcased : List.Forall₂ EitherCase numeral (ds.map Nat.digitChar)) :
    lowerAfter before numeral = ds.map Nat.digitChar := by
  induction ds generalizing numeral before with
  | nil =>
    cases hcased
    rfl
  | cons d ds ih =>
    obtain ⟨hd, hds⟩ := List.forall_mem_cons.1 hds
    cases hcased with
    | cons hc hcased =>
      obtain ⟨-, hsigma, hfull⟩ := eitherCase_spec hd hc
      rw [lowerAfter, if_neg hsigma, hfull, ih _ hds hcased]
      rfl

theorem mem_numeralChars_of_cased {numeral ds : List _} (hds : ∀ d ∈ ds, d < 16)
    (hcased : List.Forall₂ EitherCase numeral (ds.map Nat.digitChar)) :
    ∀ c ∈ numeral, c ∈ numeralChars := by
  induction ds generalizing numeral with
  | nil =>
    cases hcased
    nofun
  | cons d ds ih =>
    obtain ⟨hd, hds⟩ := List.forall_mem_cons.1 hds
    cases hcased with
    | cons hc hcased => exact List.forall_mem_cons.2 ⟨(eitherCase_spec hd hc).1, ih hds hcased⟩

namespace Spelling

variable {n : Nat}

/-- The digits of a spelling, zeros included. -/
theorem exists_digits (x : Spelling n) :
    ∃ ds : List Nat, (∀ d ∈ ds, d < 16) ∧ ds ≠ [] ∧ worth 0 ds = n ∧
      List.Forall₂ EitherCase x.numeral (ds.map Nat.digitChar) := by
  obtain ⟨ds, hdigits, hds, hworth⟩ := exists_toDigits n
  have hzeros : worth 0 (List.replicate x.zeros 0) = 0 := by
    induction x.zeros with
    | zero => rfl
    | succ k ih => exact ih
  have hcased := x.numeral_cased
  rw [hdigits] at hcased
  refine ⟨List.replicate x.zeros 0 ++ ds, ?_, ?_, ?_, ?_⟩
  · intro d hd
    obtain hd | hd := List.mem_append.1 hd
    · rw [List.eq_of_mem_replicate hd]
      decide
    · exact hds d hd
  · intro h
    have hnil := (List.append_eq_nil_iff.1 h).2
    rw [hnil] at hdigits
    exact Nat.toDigits_ne_nil hdigits
  · rw [worth, List.foldl_append, ← worth, ← worth, hzeros, hworth]
  · rw [List.map_append, List.map_replicate]
    exact hcased

theorem mem_numeralChars (x : Spelling n) : ∀ c ∈ x.marker ++ x.numeral, c ∈ numeralChars := by
  obtain ⟨ds, hds, -, -, hcased⟩ := x.exists_digits
  have hmarker : ∀ marker ∈ [[], ['0', 'x'], ['0', 'X']],
    marker.all numeralChars.contains = true := by decide
  intro c hc
  obtain hc | hc := List.mem_append.1 hc
  · exact List.contains_iff_mem.1 (List.all_eq_true.1 (hmarker _ x.marker_mem) c hc)
  · exact mem_numeralChars_of_cased hds hcased c hc

/-- A spelling is written with blanks and the characters of numerals. -/
theorem notMem_text (x : Spelling n) {c : Char} (hblank : isBlank c = false)
    (hc : c ∉ numeralChars) :
    c ∉ x.text := by
  have hnot {cs : List Char} (hcs : ∀ d ∈ cs, isBlank d = true) : c ∉ cs := fun h =>
    Bool.false_ne_true (hblank.symm.trans (hcs c h))
  rw [text, List.mem_append, List.mem_append]
  rintro (h | h | h)
  · exact hnot x.before_blank h
  · exact hc (x.mem_numeralChars c h)
  · exact hnot x.after_blank h

theorem strip_text (x : Spelling n) : strip x.text = x.marker ++ x.numeral :=
  trimBy_append x.before_blank (fun c hc => isBlank_of_mem_numeralChars (x.mem_numeralChars c hc))
    x.after_blank

end Spelling

end Text

namespace HexRange

open Text

variable {n : Nat}

/-- What is left of a spelling when it is trimmed: its digits in lower case. -/
theorem exists_trim_spelling (x : Spelling n) :
    ∃ ds : List Nat, (∀ d ∈ ds, d < 16) ∧ ds ≠ [] ∧ worth 0 ds = n ∧
      trim x.text = ds.map Nat.digitChar := by
  obtain ⟨ds, hds, hne, hworth, hcased⟩ := x.exists_digits
  refine ⟨ds, hds, hne, hworth, ?_⟩
  have hunmarked : 'x' ∉ ds.map Nat.digitChar := notMem_digits hds (by decide)
  rw [trim, x.strip_text]
  have hmarker := x.marker_mem
  simp only [List.mem_cons, List.not_mem_nil, or_false] at hmarker
  obtain hmarker | hmarker := hmarker
  · rw [hmarker, List.nil_append, lower, lowerAfter_cased _ hds hcased]
    split
    next heq =>
      rw [heq] at hunmarked
      simp at hunmarked
    next => rfl
  · have hlower : lower (x.marker ++ x.numeral) = '0' :: 'x' :: ds.map Nat.digitChar := by
      obtain hmarker | hmarker := hmarker
      · rw [hmarker, ← lowerAfter_cased ['x', '0'] hds hcased]
        rfl
      · rw [hmarker, ← lowerAfter_cased ['X', '0'] hds hcased]
        rfl
    rw [hlower]
    rfl

/-- However an address is spelled, it is the one that is read. -/
theorem readAddress_spelling (x : Spelling n) (hn : n < Memory.size) :
    readAddress x.text = .ok (BitVec.ofNat 12 n) := by
  obtain ⟨ds, hds, hne, rfl, htrim⟩ := exists_trim_spelling x
  have hempty : (ds.map Nat.digitChar).isEmpty = false := by simpa using hne
  have hrange : (0 : Int) ≤ worth 0 ds ∧ (worth 0 ds : Int) < Memory.size := by omega
  simp only [readAddress, htrim, hempty, readInteger_digits hds hne]
  rw [if_neg Bool.false_ne_true, if_pos hrange, BitVec.ofInt_natCast]

example : readAddress " 0X00a ".toList = .ok 10 := by decide +kernel

/-- A text is told apart at its first colon. -/
theorem span_colon {before after : List Char} (h : ':' ∉ before) :
    (before ++ ':' :: after).span (· ≠ ':') = (before, ':' :: after) := by
  have hall : ∀ c ∈ before, decide (c ≠ ':') = true :=
    fun c hc => decide_eq_true (ne_of_mem_of_not_mem hc h)
  rw [List.span_eq_takeWhile_dropWhile, List.takeWhile_append_of_pos hall,
    List.dropWhile_append_of_pos hall]
  simp

/-- A range is read from spellings of its two ends. -/
theorem ofChars_spelling {first last : Address} (h : first ≤ last) (x : Spelling first.toNat)
    (y : Spelling last.toNat) : ofChars (x.text ++ ':' :: y.text) = .ok ⟨first, last⟩ := by
  have hcolon : ':' ∉ x.text := x.notMem_text (by decide) (by decide)
  have hread {a : Address} (z : Spelling a.toNat) : readAddress z.text = .ok a := by
    rw [readAddress_spelling z a.isLt, BitVec.ofNat_toNat, BitVec.setWidth_eq]
  simp only [ofChars, span_colon hcolon, hread]
  exact if_neg (Nat.not_lt.2 h)

/-- The last address of a range that was read is not before its first one. -/
theorem first_le_last_of_ofChars {text : List Char} {r : HexRange} (h : ofChars text = .ok r) :
    r.first ≤ r.last := by
  unfold ofChars at h
  split at h
  · cases h
  · simp only [bind, Except.bind] at h
    split at h
    · cases h
    · split at h
      · cases h
      · split at h
        · cases h
        next hle =>
          cases h
          exact Nat.not_lt.1 hle

end HexRange

end Chip8
