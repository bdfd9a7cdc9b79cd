import Chip8.Proofs.Numerals

/-!
# Numerals in lower case

A text is read as a numeral in lower case. That changes no meaning, over all of Unicode: the
characters of numerals are letters of ASCII, whose case does not count, and characters without case,
and no other character has one of them as its lower case. The two characters whose lower case
depends on their neighbours or is longer than one character do not become characters of numerals
either. So the text before and the text after are numerals of the same value.

## Main definitions

* `Text.SameMeaning`: two characters mean the same in a numeral
* `Text.Meaningful`: a character of a numeral, or a blank around it

## Main statements

* `Text.sameMeaning_partner`: in lower case a character means the same
* `Text.meaningful_of_lower`, `Text.lower_of_meaningful`: a text that is meaningful in lower case
  was so before, and is lowered character by character
* `Text.readInteger_lower`: a numeral in lower case is a numeral of the same value
-/

namespace Chip8

namespace Text

/-! ## Characters -/

/-- Two characters mean the same in a numeral. -/
structure SameMeaning (c d : Char) : Prop where
  digit : hexDigit? c = hexDigit? d
  blank : isNumeralBlank c = isNumeralBlank d
  letter : isMarkerLetter c = isMarkerLetter d
  sign : ∀ s ∈ ['0', '_', '-', '+'], c = s ↔ d = s

/-- Blocks of code points that contain all characters of numerals. Beyond the letters of ASCII, no
character in them has another case. -/
def numeralBlocks : List (Nat × Nat) :=
  [ (0x0, 0x66), (0x78, 0xBF), (0x660, 0x1099), (0x1680, 0x1C59), (0x2000, 0x205F),
    (0x3000, 0xA629), (0xA8D0, 0xAA59), (0xABF0, 0xFF19), (0x104A0, 0x104A9), (0x10D30, 0x11739),
    (0x118E0, 0x16B59), (0x1D7CE, 0x1E2F9), (0x1E950, 0x1FBF9) ]

section

variable {c d : Char}

theorem decimalDigit?_eq_none (h : inRanges numeralBlocks c = false) : decimalDigit? c = none := by
  have hblocks : ∀ z ∈ zeros, ∃ b ∈ numeralBlocks, b.1 ≤ z ∧ z + 9 ≤ b.2 := by decide +kernel
  rw [decimalDigit?, Option.map_eq_none_iff, List.find?_eq_none]
  intro z hz hrange
  obtain ⟨b, hb, hfirst, hlast⟩ := hblocks z hz
  simp only [decide_eq_true_eq] at hrange
  refine Bool.false_ne_true (h.symm.trans (List.any_eq_true.2 ⟨b, hb, ?_⟩))
  simp only [Bool.and_eq_true, decide_eq_true_eq]
  omega

theorem isNumeralBlank_eq_false (h : inRanges numeralBlocks c = false) :
    isNumeralBlank c = false := by
  have hblocks : ∀ n ∈ blanks, ∃ b ∈ numeralBlocks, b.1 ≤ n ∧ n ≤ b.2 := by decide +kernel
  by_contra hblank
  rw [Bool.not_eq_false, isNumeralBlank, Bool.and_eq_true, isBlank, List.contains_iff_mem] at hblank
  obtain ⟨b, hb, hfirst, hlast⟩ := hblocks _ hblank.1
  refine Bool.false_ne_true (h.symm.trans (List.any_eq_true.2 ⟨b, hb, ?_⟩))
  simp only [Bool.and_eq_true, decide_eq_true_eq]
  omega

theorem toNat_le_of_digitIn? {n : Nat} (h : digitIn? 16 c = some n) : c.toNat ≤ 0x66 := by
  obtain ⟨hvalue, hlt⟩ := Option.filter_eq_some_iff.1 h
  have hle {s : Char} (hcs : c ≤ s) : c.toNat ≤ s.toNat := hcs
  have hsize : n < 16 := of_decide_eq_true hlt
  rw [digitValue?] at hvalue
  split at hvalue
  next hc => exact (hle hc.2).trans (by decide)
  next =>
    split at hvalue
    next =>
      have hn : c.toNat - 'a'.toNat + 10 = n := Option.some.inj hvalue
      have ha : 'a'.toNat = 0x61 := rfl
      omega
    next =>
      split at hvalue
      next hc => exact (hle hc.2).trans (by decide)
      next => cases hvalue

/-- Characters outside of the blocks mean nothing. -/
theorem sameMeaning_of_notInRanges (hc : inRanges numeralBlocks c = false)
    (hd : inRanges numeralBlocks d = false) :
    SameMeaning c d := by
  have hne {c : Char} (hc : inRanges numeralBlocks c = false) {s : Char}
      (hs : inRanges numeralBlocks s = true) :
      c ≠ s := by
    rintro rfl
    exact Bool.false_ne_true (hc.symm.trans hs)
  have hdigit {c : Char} (hc : inRanges numeralBlocks c = false) : hexDigit? c = none := by
    rw [hexDigit?, decimalDigit?_eq_none hc]
    by_contra hsome
    obtain ⟨d, hd⟩ := Option.ne_none_iff_exists'.1 hsome
    have hle := toNat_le_of_digitIn? hd
    simp [inRanges, numeralBlocks, hle] at hc
  have hletter {c : Char} (hc : inRanges numeralBlocks c = false) : isMarkerLetter c = false := by
    simp [isMarkerLetter, hne hc (s := 'x') (by decide), hne hc (s := 'X') (by decide)]
  have hsign : ∀ s ∈ ['0', '_', '-', '+'], inRanges numeralBlocks s = true :=
    List.all_iff_forall_prop.1 (by decide)
  exact
    { digit := by rw [hdigit hc, hdigit hd]
      blank := by rw [isNumeralBlank_eq_false hc, isNumeralBlank_eq_false hd]
      letter := by rw [hletter hc, hletter hd]
      sign := fun s hs => iff_of_false (hne hc (hsign s hs)) (hne hd (hsign s hs)) }

/-- Beyond the first, the runs of case pairs lie outside of the blocks, with both cases. -/
theorem runs_outside : ∀ r ∈ lowerRuns.tail,
    (∀ b ∈ numeralBlocks, (r.last < b.1 ∨ b.2 < r.first) ∧
      (r.last + r.shift < b.1 ∨ b.2 < r.first + r.shift)) ∧
      (0 ≤ r.first + r.shift ∧ r.last + r.shift < 0xD800 ∨
        0xDFFF < r.first + r.shift ∧ r.last + r.shift < 0x110000) := by
  decide +kernel

theorem inRanges_eq_false {ranges : List (Nat × Nat)}
    (h : ∀ b ∈ ranges, c.toNat < b.1 ∨ b.2 < c.toNat) :
    inRanges ranges c = false := by
  rw [inRanges, List.any_eq_false]
  intro b hb
  have hout := h b hb
  simp only [Bool.and_eq_true, decide_eq_true_eq]
  omega

/-- In the other case, a letter means the same. -/
theorem sameMeaning_letter :
    ∀ k < 26, SameMeaning (Char.ofNat (0x41 + k)) (Char.ofNat (0x61 + k)) := by
  have hsame : ∀ k < 26, hexDigit? (Char.ofNat (0x41 + k)) = hexDigit? (Char.ofNat (0x61 + k)) ∧
      isNumeralBlank (Char.ofNat (0x41 + k)) = isNumeralBlank (Char.ofNat (0x61 + k)) ∧
      isMarkerLetter (Char.ofNat (0x41 + k)) = isMarkerLetter (Char.ofNat (0x61 + k)) ∧
      (['0', '_', '-', '+'].all fun s => Char.ofNat (0x41 + k) = s ↔
        Char.ofNat (0x61 + k) = s) = true := by
    decide +kernel
  exact fun k hk =>
    { digit := (hsame k hk).1
      blank := (hsame k hk).2.1
      letter := (hsame k hk).2.2.1
      sign := List.all_iff_forall_prop.1 (hsame k hk).2.2.2 }

/-- In lower case, a character means the same. -/
theorem sameMeaning_partner (c : Char) : SameMeaning c (CaseRun.partner lowerRuns c) := by
  rw [CaseRun.partner]
  split
  next r hr =>
    have hcovers := List.find?_some hr
    simp only [CaseRun.covers, Bool.and_eq_true, decide_eq_true_eq] at hcovers
    obtain ⟨⟨hfirst, hlast⟩, -⟩ := hcovers
    have hruns : lowerRuns = ⟨0x41, 0x5A, 1, 32⟩ :: lowerRuns.tail := rfl
    have hmem := List.mem_of_find?_eq_some hr
    rw [hruns] at hmem
    obtain rfl | hmem := List.mem_cons.1 hmem
    · have hrange : 0x41 ≤ c.toNat ∧ c.toNat ≤ 0x5A := ⟨hfirst, hlast⟩
      have hletter := sameMeaning_letter (c.toNat - 0x41) (by omega)
      have hc : 0x41 + (c.toNat - 0x41) = c.toNat := by omega
      have hpartner : 0x61 + (c.toNat - 0x41) = ((c.toNat : Int) + 32).toNat := by omega
      rwa [hc, hpartner, Char.ofNat_toNat] at hletter
    · obtain ⟨houtside, hvalid⟩ := runs_outside r hmem
      have hpartner : (Char.ofNat (c.toNat + r.shift).toNat).toNat = (c.toNat + r.shift).toNat := by
        have hvalid' : (c.toNat + r.shift).toNat.isValidChar := by
          rw [Nat.isValidChar]
          omega
        rw [Char.ofNat, dif_pos hvalid']
        rfl
      refine sameMeaning_of_notInRanges (inRanges_eq_false fun b hb => ?_)
        (inRanges_eq_false fun b hb => ?_)
      · have hout := houtside b hb
        omega
      · have hout := houtside b hb
        omega
  next => exact ⟨rfl, rfl, rfl, fun _ _ => Iff.rfl⟩

end

/-! ## Texts -/

/-- A character of a numeral, or a blank around it. -/
def Meaningful (c : Char) : Prop :=
  isNumeralBlank c = true ∨ c ∈ ['_', '-', '+'] ∨ isMarkerLetter c = true ∨
    (hexDigit? c).isSome = true

instance : DecidablePred Meaningful := fun _ => inferInstanceAs (Decidable (_ ∨ _ ∨ _ ∨ _))

theorem SameMeaning.meaningful {c d : Char} (h : SameMeaning c d) :
    Meaningful c ↔ Meaningful d := by
  have hsign : c ∈ ['_', '-', '+'] ↔ d ∈ ['_', '-', '+'] := by
    simp only [List.mem_cons, List.not_mem_nil, or_false,
      h.sign _ (by decide : '_' ∈ ['0', '_', '-', '+']),
      h.sign _ (by decide : '-' ∈ ['0', '_', '-', '+']),
      h.sign _ (by decide : '+' ∈ ['0', '_', '-', '+'])]
  rw [Meaningful, Meaningful, h.blank, hsign, h.letter, h.digit]

/-- The two characters whose lower case is not their partner in a run mean nothing, and neither does
their lower case. -/
theorem not_meaningful :
    ∀ c ∈ [Char.ofNat 0x3A3, Char.ofNat 0x3C2, Char.ofNat 0x3C3, Char.ofNat 0x130, Char.ofNat 0x69],
      ¬Meaningful c :=
  List.all_iff_forall_prop.1 (by decide +kernel)

section

variable {cs : List Char}

theorem full_eq_partner {c : Char} (h : c ≠ Char.ofNat 0x130) :
    CaseRun.full lowerRuns lowerExpansions c = [CaseRun.partner lowerRuns c] := by
  have hcode : (c.toNat == 0x130) = false := by
    rw [beq_eq_false_iff_ne]
    intro hc
    rw [← Char.ofNat_toNat c, hc] at h
    exact h rfl
  simp only [CaseRun.full, lowerExpansions, List.lookup_cons, hcode, List.lookup_nil]

theorem lowerAfter_eq_map (before : List Char)
    (h : ∀ c ∈ cs, c ≠ Char.ofNat 0x3A3 ∧ c ≠ Char.ofNat 0x130) :
    lowerAfter before cs = cs.map (CaseRun.partner lowerRuns) := by
  induction cs generalizing before with
  | nil => rfl
  | cons c cs ih =>
    obtain ⟨⟨hsigma, hdotted⟩, h⟩ := List.forall_mem_cons.1 h
    rw [lowerAfter, if_neg hsigma, full_eq_partner hdotted, ih _ h]
    rfl

/-- What is meaningful in lower case has none of the characters that have a lower case of their
own. -/
theorem ne_of_meaningful_lower (before : List Char) (h : ∀ c ∈ lowerAfter before cs, Meaningful c) :
    ∀ c ∈ cs, c ≠ Char.ofNat 0x3A3 ∧ c ≠ Char.ofNat 0x130 := by
  induction cs generalizing before with
  | nil => nofun
  | cons c cs ih =>
    rw [lowerAfter] at h
    obtain ⟨hc, hcs⟩ := List.forall_mem_append.1 h
    refine List.forall_mem_cons.2 ⟨⟨?_, ?_⟩, ih _ hcs⟩
    · rintro rfl
      rw [if_pos rfl, List.forall_mem_singleton] at hc
      revert hc
      split
      · exact not_meaningful _ (by decide)
      · exact not_meaningful _ (by decide)
    · rintro rfl
      have hfull : CaseRun.full lowerRuns lowerExpansions (Char.ofNat 0x130) =
          [Char.ofNat 0x69, Char.ofNat 0x307] := by
        decide +kernel
      rw [if_neg (by decide), hfull] at hc
      exact not_meaningful (Char.ofNat 0x69) (by decide) (hc _ List.mem_cons_self)

/-- What is meaningful in lower case was meaningful before. -/
theorem meaningful_of_lower (h : ∀ c ∈ lower cs, Meaningful c) : ∀ c ∈ cs, Meaningful c := by
  rw [lower, lowerAfter_eq_map [] (ne_of_meaningful_lower [] h)] at h
  exact fun c hc => (sameMeaning_partner c).meaningful.2 (h _ (List.mem_map_of_mem hc))

theorem lower_of_meaningful (h : ∀ c ∈ cs, Meaningful c) :
    lower cs = cs.map (CaseRun.partner lowerRuns) :=
  lowerAfter_eq_map [] fun c hc =>
    ⟨fun heq => not_meaningful _ (by decide) (heq ▸ h c hc),
      fun heq => not_meaningful _ (by decide) (heq ▸ h c hc)⟩

theorem IsNumeral.meaningful {i : Int} (h : IsNumeral hexDigit? cs i) : ∀ c ∈ cs, Meaningful c :=
  fun c hc => Or.inr (h.mem c hc)

theorem meaningful_of_readInteger {i : Int} (h : readInteger 16 cs = some i) :
    ∀ c ∈ cs, Meaningful c := by
  obtain ⟨before, numeral, after, rfl, hbefore, hnumeral, hafter⟩ := readInteger_iff.1 h
  refine List.forall_mem_append.2 ⟨fun c hc => Or.inl (hbefore c hc), ?_⟩
  exact List.forall_mem_append.2 ⟨hnumeral.meaningful, fun c hc => Or.inl (hafter c hc)⟩

/-- A numeral in lower case is a numeral of the same value. -/
theorem readInteger_lower {i : Int} :
    readInteger 16 (cs.map (CaseRun.partner lowerRuns)) = some i ↔ readInteger 16 cs = some i := by
  have hdigit : hexDigit? ∘ CaseRun.partner lowerRuns = hexDigit? :=
    funext fun c => (sameMeaning_partner c).digit.symm
  have hmap {numeral : List Char} :
      IsNumeral hexDigit? (numeral.map (CaseRun.partner lowerRuns)) i ↔
        IsNumeral hexDigit? numeral i := by
    rw [IsNumeral.map_iff
      (fun s hs c => ((sameMeaning_partner c).sign s (List.mem_cons_of_mem _ hs)).symm)
      (fun c => (sameMeaning_partner c).letter.symm), hdigit]
  have hblank {blanks : List Char} : (∀ c ∈ blanks.map (CaseRun.partner lowerRuns),
      isNumeralBlank c = true) ↔
      ∀ c ∈ blanks, isNumeralBlank c = true := by
    simp only [List.forall_mem_map, ← (sameMeaning_partner _).blank]
  rw [readInteger_iff, readInteger_iff]
  constructor
  · rintro ⟨_, _, _, hcs, hbefore, hnumeral, hafter⟩
    obtain ⟨before, rest, rfl, rfl, hrest⟩ := List.map_eq_append_iff.1 hcs
    obtain ⟨numeral, after, rfl, rfl, rfl⟩ := List.map_eq_append_iff.1 hrest
    exact ⟨before, numeral, after, rfl, hblank.1 hbefore, hmap.1 hnumeral, hblank.1 hafter⟩
  · rintro ⟨before, numeral, after, rfl, hbefore, hnumeral, hafter⟩
    exact ⟨_, _, _, by simp only [List.map_append], hblank.2 hbefore, hmap.2 hnumeral,
      hblank.2 hafter⟩

end

end Text

end Chip8
