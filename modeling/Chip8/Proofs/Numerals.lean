import Chip8.Proofs.HexSpelling
import Mathlib.Data.Bool.AllAny

/-!
# Numerals in base sixteen

What is read as an integer in base sixteen is more than digits: a sign or none, a marker or none,
and digits of any script with single underscores between them, with blanks around. A numeral is
described by parts of the text, over any table of digits, so that the same words describe a text
before and after its characters are brought to their plain form.

## Main definitions

* `Text.hexDigit?`: the value of a digit, of any script if it is decimal
* `Text.Digits`: digits with single underscores between them
* `Text.IsNumeral`: a text as an integer

## Main statements

* `Text.readDigits_iff`: what is read as digits
* `Text.IsNumeral.map_iff`: characters can be replaced by others of the same kind
* `Text.readInteger_iff`: what is read as an integer
-/

namespace Chip8.Text

/-! ## Digits -/

/-- The value of a digit in base sixteen: of a decimal digit of any script, or of a letter in either
case. -/
def hexDigit? (c : Char) : Option Nat :=
  match decimalDigit? c with
  | some d => some d
  | none => digitIn? 16 c

/-- The letter of a marker, in either case. -/
def isMarkerLetter (c : Char) : Bool := c == 'x' || c == 'X'

/-- Digits with single underscores between them, and their values. -/
inductive Digits (digit? : Char → Option Nat) : List Char → List Nat → Prop where
  | last {c : Char} {d : Nat} (h : digit? c = some d) : Digits digit? [c] [d]
  | next {c : Char} {d : Nat} {cs : List Char} {ds : List Nat} (h : digit? c = some d)
    (hcs : Digits digit? cs ds) :
      Digits digit? (c :: cs) (d :: ds)
  | underscore {c : Char} {d : Nat} {cs : List Char} {ds : List Nat} (h : digit? c = some d)
      (hcs : Digits digit? cs ds) : Digits digit? (c :: '_' :: cs) (d :: ds)

/-- A marker inside a numeral, or none: a zero, the letter, and an underscore or none. -/
def IsMarker (digit? : Char → Option Nat) (cs : List Char) : Prop :=
  cs = [] ∨ ∃ zero letter, digit? zero = some 0 ∧ isMarkerLetter letter = true ∧
    (cs = [zero, letter] ∨ cs = [zero, letter, '_'])

/-- A text that denotes an integer: a sign or none, a marker or none, and digits. -/
def IsNumeral (digit? : Char → Option Nat) (cs : List Char) (i : Int) : Prop :=
  ∃ sign marker digits values, cs = sign ++ (marker ++ digits) ∧ sign ∈ [[], ['+'], ['-']] ∧
    IsMarker digit? marker ∧ Digits digit? digits values ∧
    i = if sign = ['-'] then -(worth 0 values : Int) else worth 0 values

theorem map_eq_singleton_iff {f : Char → Char} {s : Char} (h : ∀ c, f c = s ↔ c = s)
    {cs : List Char} :
    cs.map f = [s] ↔ cs = [s] := by
  rw [List.map_eq_singleton_iff]
  constructor
  · rintro ⟨c, rfl, hc⟩
    rw [(h c).1 hc]
  · rintro rfl
    exact ⟨s, rfl, (h s).2 rfl⟩

namespace Digits

variable {digit? : Char → Option Nat} {cs : List Char} {ds : List Nat}

theorem exists_cons (h : Digits digit? cs ds) : ∃ c tail d, cs = c :: tail ∧ digit? c = some d := by
  cases h with
  | last h => exact ⟨_, _, _, rfl, h⟩
  | next h _ => exact ⟨_, _, _, rfl, h⟩
  | underscore h _ => exact ⟨_, _, _, rfl, h⟩

/-- Among digits there are only digits and underscores. -/
theorem mem (h : Digits digit? cs ds) : ∀ c ∈ cs, c = '_' ∨ (digit? c).isSome = true := by
  induction h with
  | last h => simp [h]
  | next h _ ih => exact List.forall_mem_cons.2 ⟨Or.inr (by simp [h]), ih⟩
  | underscore h _ ih =>
    exact List.forall_mem_cons.2 ⟨Or.inr (by simp [h]), List.forall_mem_cons.2 ⟨Or.inl rfl, ih⟩⟩

/-- Characters can be replaced as long as underscores are kept apart from digits. -/
theorem map_iff {f : Char → Char} (hf : ∀ c, f c = '_' ↔ c = '_') :
    Digits digit? (cs.map f) ds ↔ Digits (digit? ∘ f) cs ds := by
  constructor
  · intro h
    generalize hmap : cs.map f = mapped at h
    induction h generalizing cs with
    | last h =>
      obtain ⟨c, rfl, rfl⟩ := List.map_eq_singleton_iff.1 hmap
      exact .last h
    | next h _ ih =>
      obtain ⟨c, tail, rfl, rfl, htail⟩ := List.map_eq_cons_iff.1 hmap
      exact .next h (ih htail)
    | underscore h _ ih =>
      obtain ⟨c, rest, rfl, rfl, hrest⟩ := List.map_eq_cons_iff.1 hmap
      obtain ⟨u, tail, rfl, hu, htail⟩ := List.map_eq_cons_iff.1 hrest
      obtain rfl := (hf u).1 hu
      exact .underscore h (ih htail)
  · intro h
    induction h with
    | last h => exact .last h
    | next h _ ih => exact .next h ih
    | underscore h _ ih =>
      rw [List.map_cons, List.map_cons, (hf '_').2 rfl]
      exact .underscore h ih

end Digits

theorem IsMarker.mem {digit? : Char → Option Nat} {cs : List Char} (h : IsMarker digit? cs) :
    ∀ c ∈ cs, c = '_' ∨ isMarkerLetter c = true ∨ (digit? c).isSome = true := by
  obtain rfl | ⟨zero, letter, hzero, hletter, rfl | rfl⟩ := h
  · nofun
  · simp [hzero, hletter]
  · simp [hzero, hletter]

theorem IsMarker.map_iff {digit? : Char → Option Nat} {cs : List Char} {f : Char → Char}
    (hf : ∀ c, f c = '_' ↔ c = '_') (hletter : ∀ c, isMarkerLetter (f c) = isMarkerLetter c) :
    IsMarker digit? (cs.map f) ↔ IsMarker (digit? ∘ f) cs := by
  constructor
  · rintro (h | ⟨_, _, hzero, hx, h | h⟩)
    · exact Or.inl (List.map_eq_nil_iff.1 h)
    · obtain ⟨zero, _, rfl, rfl, hrest⟩ := List.map_eq_cons_iff.1 h
      obtain ⟨x, rfl, rfl⟩ := List.map_eq_singleton_iff.1 hrest
      exact Or.inr ⟨zero, x, hzero, by rwa [← hletter], Or.inl rfl⟩
    · obtain ⟨zero, _, rfl, rfl, hrest⟩ := List.map_eq_cons_iff.1 h
      obtain ⟨x, _, rfl, rfl, hlast⟩ := List.map_eq_cons_iff.1 hrest
      rw [(map_eq_singleton_iff hf).1 hlast]
      exact Or.inr ⟨zero, x, hzero, by rwa [← hletter], Or.inr rfl⟩
  · rintro (rfl | ⟨zero, x, hzero, hx, rfl | rfl⟩)
    · exact Or.inl rfl
    · exact Or.inr ⟨f zero, f x, hzero, by rwa [hletter], Or.inl rfl⟩
    · exact Or.inr ⟨f zero, f x, hzero, by rwa [hletter], Or.inr (by simp [(hf '_').2])⟩

theorem mem_unsigned {digit? : Char → Option Nat} {marker digits : List Char} {values : List Nat}
    (hmarker : IsMarker digit? marker) (hdigits : Digits digit? digits values) :
    ∀ c ∈ marker ++ digits, c = '_' ∨ isMarkerLetter c = true ∨ (digit? c).isSome = true := by
  intro c hc
  rcases List.mem_append.1 hc with hc | hc
  · exact hmarker.mem c hc
  · exact (hdigits.mem c hc).imp_right Or.inr

namespace IsNumeral

variable {digit? : Char → Option Nat} {cs : List Char} {i : Int}

/-- The characters of numerals. -/
theorem mem (h : IsNumeral digit? cs i) :
    ∀ c ∈ cs, c ∈ ['_', '-', '+'] ∨ isMarkerLetter c = true ∨ (digit? c).isSome = true := by
  obtain ⟨sign, marker, digits, values, rfl, hsign, hmarker, hdigits, -⟩ := h
  intro c hc
  rcases List.mem_append.1 hc with hc | hc
  · have hmem : ∀ sign ∈ [[], ['+'], ['-']], sign.all ['_', '-', '+'].contains = true := by decide
    exact Or.inl (List.contains_iff_mem.1 (List.all_eq_true.1 (hmem sign hsign) c hc))
  · exact (mem_unsigned hmarker hdigits c hc).imp_left fun h => by simp [h]

theorem ne_nil (h : IsNumeral digit? cs i) : cs ≠ [] := by
  obtain ⟨sign, marker, digits, values, rfl, -, -, hdigits, -⟩ := h
  obtain ⟨c, tail, _, rfl, -⟩ := hdigits.exists_cons
  simp

/-- Characters can be replaced by others of the same kind. -/
theorem map_iff {f : Char → Char} (hf : ∀ s ∈ ['_', '-', '+'], ∀ c, f c = s ↔ c = s)
    (hletter : ∀ c, isMarkerLetter (f c) = isMarkerLetter c) :
    IsNumeral digit? (cs.map f) i ↔ IsNumeral (digit? ∘ f) cs i := by
  have hplus {cs : List Char} : cs.map f = ['+'] ↔ cs = ['+'] :=
    map_eq_singleton_iff (hf '+' (by decide))
  have hminus {cs : List Char} : cs.map f = ['-'] ↔ cs = ['-'] :=
    map_eq_singleton_iff (hf '-' (by decide))
  have hsign {cs : List Char} : cs.map f ∈ [[], ['+'], ['-']] ↔ cs ∈ [[], ['+'], ['-']] := by
    simp [hplus, hminus]
  have hunderscore : ∀ c, f c = '_' ↔ c = '_' := hf '_' (by decide)
  constructor
  · rintro ⟨_, _, _, values, hcs, hsigned, hmarker, hdigits, rfl⟩
    obtain ⟨sign, rest, rfl, rfl, hrest⟩ := List.map_eq_append_iff.1 hcs
    obtain ⟨marker, digits, rfl, rfl, rfl⟩ := List.map_eq_append_iff.1 hrest
    exact ⟨sign, marker, digits, values, rfl, hsign.1 hsigned,
      (IsMarker.map_iff hunderscore hletter).1 hmarker,
      (Digits.map_iff hunderscore).1 hdigits, by simp only [hminus]⟩
  · rintro ⟨sign, marker, digits, values, rfl, hsigned, hmarker, hdigits, rfl⟩
    exact ⟨sign.map f, marker.map f, digits.map f, values, by simp only [List.map_append],
      hsign.2 hsigned,
      (IsMarker.map_iff hunderscore hletter).2 hmarker, (Digits.map_iff hunderscore).2 hdigits,
      by simp only [hminus]⟩

end IsNumeral

/-- What is no digit of base sixteen. -/
theorem digitIn?_eq_none : ∀ c ∈ [' ', '_', '-', '+', 'x', 'X'], digitIn? 16 c = none :=
  List.all_iff_forall_prop.1 (by decide)

theorem notMem_of_digitIn? {c : Char} {d : Nat} (h : digitIn? 16 c = some d) :
    c ∉ [' ', '_', '-', '+', 'x', 'X'] :=
  fun hmem => by
    rw [digitIn?_eq_none c hmem] at h
    cases h

theorem eq_zero_of_digitIn? {c : Char} (h : digitIn? 16 c = some 0) : c = '0' := by
  simp only [digitIn?, digitValue?, Option.filter_eq_some_iff] at h
  obtain ⟨h, -⟩ := h
  split at h
  next hc =>
    have hle : '0'.toNat ≤ c.toNat := hc.1
    have hsub : c.toNat - '0'.toNat = 0 := Option.some.inj h
    exact Char.toNat_inj.1 (by omega)
  next =>
    split at h
    · cases h
    · split at h
      · cases h
      · cases h

/-- What is read as digits is digits, and counted as what they are worth. -/
theorem readDigits_iff {value n : Nat} {cs : List Char} :
    readDigits 16 value cs = some n ↔ ∃ ds, Digits (digitIn? 16) cs ds ∧ worth value ds = n := by
  constructor
  · intro h
    fun_induction readDigits 16 value cs with
    | case1 => cases h
    | case2 value c =>
      obtain ⟨d, hd, rfl⟩ := Option.map_eq_some_iff.1 h
      exact ⟨[d], .last hd, rfl⟩
    | case3 value c cs ih =>
      obtain ⟨d, hd, hrest⟩ := Option.bind_eq_some_iff.1 h
      obtain ⟨ds, hds, hworth⟩ := ih d hrest
      exact ⟨d :: ds, .underscore hd hds, hworth⟩
    | case4 value c cs _ _ ih =>
      obtain ⟨d, hd, hrest⟩ := Option.bind_eq_some_iff.1 h
      obtain ⟨ds, hds, hworth⟩ := ih d hrest
      exact ⟨d :: ds, .next hd hds, hworth⟩
  · rintro ⟨ds, hds, rfl⟩
    induction hds generalizing value with
    | last h => simp [readDigits, h, worth]
    | next h hcs ih =>
      obtain ⟨e, tail, _, rfl, he⟩ := hcs.exists_cons
      have hunderscore : e ≠ '_' := ne_of_mem_of_not_mem (by decide) (notMem_of_digitIn? he) |>.symm
      rw [readDigits, h]
      · exact ih
      · exact List.cons_ne_nil e tail
      · exact fun _ htail => hunderscore (List.cons.inj htail).1
    | underscore h _ ih =>
      rw [readDigits, h]
      exact ih

/-! ## Numerals -/

section

variable {cs : List Char}

theorem isMarkerLetter_iff {c : Char} : isMarkerLetter c = true ↔ c = 'x' ∨ c = 'X' := by
  simp [isMarkerLetter]

/-- What is dropped before the digits is a marker. -/
theorem exists_marker (cs : List Char) :
    ∃ marker, cs = marker ++ dropHexMarker cs ∧ IsMarker (digitIn? 16) marker := by
  fun_cases dropHexMarker cs with
  | case1 x cs hx =>
    exact ⟨['0', x, '_'], rfl, Or.inr ⟨_, _, by decide, isMarkerLetter_iff.2 hx, Or.inr rfl⟩⟩
  | case2 => exact ⟨[], rfl, Or.inl rfl⟩
  | case3 x cs _ hx =>
    exact ⟨['0', x], rfl, Or.inr ⟨_, _, by decide, isMarkerLetter_iff.2 hx, Or.inl rfl⟩⟩
  | case4 => exact ⟨[], rfl, Or.inl rfl⟩
  | case5 => exact ⟨[], rfl, Or.inl rfl⟩

theorem Digits.notMem_letter {ds : List Nat} (h : Digits (digitIn? 16) cs ds) {c : Char}
    (hc : c ∈ ['x', 'X']) :
    c ∉ cs := by
  have hother : ∀ c ∈ ['x', 'X'], c ≠ '_' ∧ digitIn? 16 c = none :=
    List.all_iff_forall_prop.1 (by decide)
  obtain ⟨hunderscore, hdigit⟩ := hother c hc
  intro hmem
  rcases h.mem c hmem with rfl | hsome
  · exact hunderscore rfl
  · rw [hdigit] at hsome
    cases hsome

/-- A marker before digits is dropped. -/
theorem dropHexMarker_append {marker digits : List Char} {values : List Nat}
    (hmarker : IsMarker (digitIn? 16) marker) (hdigits : Digits (digitIn? 16) digits values) :
    dropHexMarker (marker ++ digits) = digits := by
  obtain rfl | ⟨zero, letter, hzero, hletter, hmarker⟩ := hmarker
  · exact dropHexMarker_eq_self (hdigits.notMem_letter (by decide))
      (hdigits.notMem_letter (by decide))
  · obtain rfl := eq_zero_of_digitIn? hzero
    have hletter' := isMarkerLetter_iff.1 hletter
    obtain ⟨c, tail, _, rfl, hc⟩ := hdigits.exists_cons
    have hunderscore : c ≠ '_' := (ne_of_mem_of_not_mem (by decide) (notMem_of_digitIn? hc)).symm
    obtain rfl | rfl := hmarker
    · simp [dropHexMarker, hletter', hunderscore]
    · simp [dropHexMarker, hletter']

theorem readNatural_iff {n : Nat} :
    readNatural 16 cs = some n ↔ ∃ marker digits values, cs = marker ++ digits ∧
      IsMarker (digitIn? 16) marker ∧
      Digits (digitIn? 16) digits values ∧ worth 0 values = n := by
  rw [readNatural, if_pos rfl, readDigits_iff]
  constructor
  · rintro ⟨ds, hds, hn⟩
    obtain ⟨marker, hcs, hmarker⟩ := exists_marker cs
    exact ⟨marker, _, ds, hcs, hmarker, hds, hn⟩
  · rintro ⟨marker, digits, values, rfl, hmarker, hdigits, hn⟩
    exact ⟨values, by rwa [dropHexMarker_append hmarker hdigits], hn⟩

/-- Neither a marker nor the digits after it have a blank or a sign. -/
theorem notMem_unsigned {marker digits : List Char} {values : List Nat}
    (hmarker : IsMarker (digitIn? 16) marker) (hdigits : Digits (digitIn? 16) digits values)
    {c : Char} (hc : c ∈ [' ', '-', '+']) : c ∉ marker ++ digits := by
  have hother : ∀ c ∈ [' ', '-', '+'], c ≠ '_' ∧ isMarkerLetter c = false ∧ digitIn? 16 c = none :=
    List.all_iff_forall_prop.1 (by decide)
  obtain ⟨hunderscore, hletter, hdigit⟩ := hother c hc
  intro hmem
  rcases mem_unsigned hmarker hdigits c hmem with rfl | hsome | hsome
  · exact hunderscore rfl
  · exact Bool.false_ne_true (hletter.symm.trans hsome)
  · rw [hdigit] at hsome
    cases hsome

/-- What is read is a sign, and a natural number after it. -/
theorem exists_sign (cs : List Char) :
    ∃ sign rest, cs = sign ++ rest ∧ sign ∈ [[], ['+'], ['-']] ∧
      readSigned 16 cs = (readNatural 16 rest).map
        fun (n : Nat) => if sign = ['-'] then -(n : Int) else n := by
  fun_cases readSigned 16 cs with
  | case1 rest => exact ⟨['-'], rest, rfl, by decide, by cases readNatural 16 rest <;> rfl⟩
  | case2 rest => exact ⟨['+'], rest, rfl, by decide, by cases readNatural 16 rest <;> rfl⟩
  | case3 => exact ⟨[], cs, rfl, by decide, by cases readNatural 16 cs <;> rfl⟩

/-- What is read with a sign is a numeral. -/
theorem readSigned_iff {i : Int} : readSigned 16 cs = some i ↔ IsNumeral (digitIn? 16) cs i := by
  constructor
  · intro h
    obtain ⟨sign, rest, rfl, hsign, hread⟩ := exists_sign cs
    rw [hread] at h
    obtain ⟨n, hn, rfl⟩ := Option.map_eq_some_iff.1 h
    obtain ⟨marker, digits, values, rfl, hmarker, hdigits, rfl⟩ := readNatural_iff.1 hn
    exact ⟨sign, marker, digits, values, rfl, hsign, hmarker, hdigits, rfl⟩
  · rintro ⟨sign, marker, digits, values, rfl, hsign, hmarker, hdigits, rfl⟩
    have hnatural : readNatural 16 (marker ++ digits) = some (worth 0 values) :=
      readNatural_iff.2 ⟨marker, digits, values, rfl, hmarker, hdigits, rfl⟩
    have hnone {c : Char} (hc : c ∈ [' ', '-', '+']) : c ∉ marker ++ digits :=
      notMem_unsigned hmarker hdigits hc
    simp only [List.mem_cons, List.not_mem_nil, or_false] at hsign
    obtain rfl | rfl | rfl := hsign
    · rw [List.nil_append, readSigned_of_notMem (hnone (by decide)) (hnone (by decide)), hnatural]
      rfl
    · rw [List.singleton_append, readSigned, hnatural]
      rfl
    · rw [List.singleton_append, readSigned, hnatural]
      rfl

/-! ## Plain characters -/

theorem decimalDigit?_lt {c : Char} {d : Nat} (h : decimalDigit? c = some d) : d < 10 := by
  obtain ⟨z, hz, rfl⟩ := Option.map_eq_some_iff.1 h
  have hrange := List.find?_some hz
  simp only [decide_eq_true_eq] at hrange
  omega

/-- Blanks are no digits of any script. -/
theorem hexDigit?_of_isNumeralBlank {c : Char} (h : isNumeralBlank c = true) :
    hexDigit? c = none := by
  have hblanks : ∀ n ∈ blanks, hexDigit? (Char.ofNat n) = none := by decide +kernel
  have hmem : c.toNat ∈ blanks := List.contains_iff_mem.1 (Bool.and_eq_true_iff.1 h).1
  have hnone := hblanks _ hmem
  rwa [Char.ofNat_toNat] at hnone

theorem plain_cases (c : Char) :
    (isNumeralBlank c = true ∧ plain c = ' ') ∨
    (isNumeralBlank c = false ∧ ∃ d < 10, decimalDigit? c = some d ∧ plain c = Nat.digitChar d) ∨
      (isNumeralBlank c = false ∧ decimalDigit? c = none ∧ plain c = c) := by
  by_cases hblank : isNumeralBlank c = true
  · exact Or.inl ⟨hblank, by rw [plain, if_pos hblank]⟩
  · have hblank' : isNumeralBlank c = false := Bool.eq_false_iff.2 hblank
    cases hdigit : decimalDigit? c with
    | some d =>
      exact Or.inr (Or.inl ⟨hblank', d, decimalDigit?_lt hdigit, rfl, by
        simp only [plain, hblank', hdigit]; rfl⟩)
    | none => exact Or.inr (Or.inr ⟨hblank', rfl, by simp only [plain, hblank', hdigit]; rfl⟩)

/-- In plain form, the digits of all scripts are digits of base sixteen. -/
theorem digitIn?_plain (c : Char) : digitIn? 16 (plain c) = hexDigit? c := by
  rcases plain_cases c with ⟨hblank, hplain⟩ | ⟨-, d, hd, hdigit, hplain⟩ | ⟨-, hdigit, hplain⟩
  · rw [hplain, hexDigit?_of_isNumeralBlank hblank]
    decide
  · rw [hplain, hexDigit?, hdigit]
    exact (digitChar_spec d (by omega)).2.1
  · rw [hplain, hexDigit?, hdigit]

theorem plain_eq_space_iff {c : Char} : plain c = ' ' ↔ isNumeralBlank c = true := by
  rcases plain_cases c with ⟨hblank, hplain⟩ | ⟨hblank, d, hd, -, hplain⟩ | ⟨hblank, -, hplain⟩
  · exact iff_of_true hplain hblank
  · have hspace : ' ' ≠ Nat.digitChar d := ne_of_mem_of_not_mem (by decide)
      (digitChar_spec d (by omega)).2.2
    rw [hplain]
    exact iff_of_false hspace.symm (by simp [hblank])
  · rw [hplain]
    refine iff_of_false ?_ (by simp [hblank])
    rintro rfl
    exact absurd hblank (by decide)

/-- The other characters of numerals are plain already, and nothing else becomes one of them. -/
theorem plain_eq_iff {s : Char} (hs : s ∈ ['_', '-', '+', 'x', 'X']) {c : Char} :
    plain c = s ↔ c = s := by
  have hself : ∀ s ∈ ['_', '-', '+', 'x', 'X'], plain s = s ∧ s ≠ ' ' ∧
      s ∈ [' ', '_', '-', '+', 'x', 'X'] :=
    List.all_iff_forall_prop.1 (by decide)
  obtain ⟨hself, hspace, hmem⟩ := hself s hs
  refine ⟨?_, fun h => by rw [h, hself]⟩
  rcases plain_cases c with ⟨-, hplain⟩ | ⟨-, d, hd, -, hplain⟩ | ⟨-, -, hplain⟩
  · rw [hplain]
    exact fun h => absurd h.symm hspace
  · rw [hplain]
    exact fun h => absurd h.symm (ne_of_mem_of_not_mem hmem (digitChar_spec d (by omega)).2.2)
  · rw [hplain]
    exact id

theorem isMarkerLetter_plain (c : Char) : isMarkerLetter (plain c) = isMarkerLetter c := by
  rw [Bool.eq_iff_iff, isMarkerLetter_iff, isMarkerLetter_iff, plain_eq_iff (by decide),
    plain_eq_iff (by decide)]

/-! ## Integers -/

/-- What is trimmed off stood at the two ends. -/
theorem exists_trimBy (p : Char → Bool) (cs : List Char) :
    ∃ before after, cs = before ++ (trimBy p cs ++ after) ∧ (∀ c ∈ before, p c = true) ∧
      ∀ c ∈ after, p c = true := by
  refine ⟨cs.takeWhile p, ((cs.dropWhile p).reverse.takeWhile p).reverse, ?_, ?_, ?_⟩
  · rw [trimBy, ← List.reverse_append, List.takeWhile_append_dropWhile, List.reverse_reverse,
      List.takeWhile_append_dropWhile]
  · exact fun c hc => List.mem_takeWhile_imp hc
  · exact fun c hc => List.mem_takeWhile_imp (List.mem_reverse.1 hc)

/-- What is read as an integer is a numeral between blanks. -/
theorem readInteger_iff {cs : List Char} {i : Int} :
    readInteger 16 cs = some i ↔ ∃ before numeral after, cs = before ++ (numeral ++ after) ∧
      (∀ c ∈ before, isNumeralBlank c = true) ∧ IsNumeral hexDigit? numeral i ∧
        ∀ c ∈ after, isNumeralBlank c = true := by
  have hdigit : digitIn? 16 ∘ plain = hexDigit? := funext digitIn?_plain
  have hmap {numeral : List Char} : IsNumeral (digitIn? 16) (numeral.map plain) i ↔
      IsNumeral hexDigit? numeral i := by
    rw [IsNumeral.map_iff (fun s hs c => plain_eq_iff (List.mem_append_left ['x', 'X'] hs))
      isMarkerLetter_plain, hdigit]
  have hblank {cs : List Char} :
      (∀ c ∈ cs.map plain, decide (c = ' ') = true) ↔ ∀ c ∈ cs, isNumeralBlank c = true := by
    simp only [List.forall_mem_map, decide_eq_true_eq, plain_eq_space_iff]
  rw [readInteger, readSigned_iff]
  constructor
  · intro h
    obtain ⟨_, _, hcs, hbefore, hafter⟩ := exists_trimBy (· = ' ') (cs.map plain)
    obtain ⟨before, rest, rfl, rfl, hrest⟩ := List.map_eq_append_iff.1 hcs
    obtain ⟨numeral, after, rfl, hnumeral, rfl⟩ := List.map_eq_append_iff.1 hrest
    rw [← hnumeral] at h
    exact ⟨before, numeral, after, rfl, hblank.1 hbefore, hmap.1 h, hblank.1 hafter⟩
  · rintro ⟨before, numeral, after, rfl, hbefore, hnumeral, hafter⟩
    have hinside : ∀ c ∈ numeral.map plain, decide (c = ' ') = false := by
      intro c hc
      rw [decide_eq_false_iff_not]
      rintro rfl
      have hspace : ' ' ∉ ['_', '-', '+'] ∧ isMarkerLetter ' ' = false ∧
        digitIn? 16 ' ' = none := by decide
      have hmem := (hmap.2 hnumeral).mem _ hc
      simp [hspace] at hmem
    rw [List.map_append, List.map_append,
      trimBy_append (hblank.2 hbefore) hinside (hblank.2 hafter)]
    exact hmap.2 hnumeral

end

end Chip8.Text
