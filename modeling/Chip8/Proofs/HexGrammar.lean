import Chip8.Proofs.LowerCase

/-!
# The texts that are read as addresses

An address is a text of hexadecimal digits with a marker or none, between blanks. All addresses in
memory are read, but they are not all that is read: the marker is taken off by hand, and what is
left may be any integer in base sixteen, with blanks and a marker of its own, a sign, underscores
between its digits, and digits of other scripts. This file describes all texts that are read, and
tells that without these adornments they are the addresses.

## Main definitions

* `HexRange.Writing`: a text that is read as a number
* `HexRange.IsAddress`: a marker or none and digits, between blanks
* `HexRange.Unadorned`: between blanks there are only digits and at most one marker

## Main statements

* `HexRange.readAddress_iff`: what is read is the writings
* `HexRange.isAddress_iff`: the addresses are the unadorned ones
* `HexRange.accepted_texts`: both, and for ranges
* `HexRange.not_only_addresses`: not only addresses are read
-/

namespace Chip8.HexRange

open Text

variable {cs : List Char} {n : Nat} {a : Address}

/-! ## What is read -/

/-- A numeral begins with a zero and the letter of a marker. -/
def StartsMarked (cs : List Char) : Prop :=
  ∃ letter rest, isMarkerLetter letter = true ∧ cs = '0' :: letter :: rest

/-- A text that is read as a number: blanks, a marker or none, blanks, a numeral that is worth the
number, and blanks. A marker at the start is taken for the outer one. -/
structure Writing (n : Nat) where
  before : List Char
  marker : List Char
  gap : List Char
  numeral : List Char
  after : List Char
  before_blank : ∀ c ∈ before, isBlank c = true
  marker_mem : marker ∈ [[], ['0', 'x'], ['0', 'X']]
  gap_blank : ∀ c ∈ gap, isNumeralBlank c = true
  isNumeral : IsNumeral hexDigit? numeral n
  unmarked : marker = [] → ¬StartsMarked numeral
  after_blank : ∀ c ∈ after, isBlank c = true

/-- The text of a writing. -/
def Writing.text (w : Writing n) : List Char :=
  w.before ++ ((w.marker ++ (w.gap ++ w.numeral)) ++ w.after)

theorem isBlank_of_isNumeralBlank {c : Char} (h : isNumeralBlank c = true) : isBlank c = true :=
  (Bool.and_eq_true_iff.1 h).1

/-- The characters of numerals are not blank. -/
theorem isBlank_of_isNumeral {cs : List Char} {i : Int} (h : IsNumeral hexDigit? cs i) :
    ∀ c ∈ cs, isBlank c = false := by
  have hblanks : ∀ b ∈ blanks, Char.ofNat b ∉ ['_', '-', '+'] ∧
      isMarkerLetter (Char.ofNat b) = false ∧
      hexDigit? (Char.ofNat b) = none := by decide +kernel
  intro c hc
  by_contra hblank
  rw [Bool.not_eq_false, isBlank, List.contains_iff_mem] at hblank
  have hnone := hblanks _ hblank
  rw [Char.ofNat_toNat] at hnone
  have hmem := h.mem c hc
  simp [hnone] at hmem

theorem readAddress_eq_ok_iff :
    readAddress cs = .ok a ↔ readInteger 16 (trim cs) = some (a.toNat : Int) := by
  simp only [readAddress]
  constructor
  · intro h
    split at h
    · cases h
    · split at h
      · cases h
      next n hn =>
        split at h
        next hrange =>
          obtain ⟨k, rfl⟩ := Int.eq_ofNat_of_zero_le hrange.1
          have hk : k < 2 ^ 12 := by exact_mod_cast hrange.2
          cases h
          rw [hn, BitVec.ofInt_natCast, BitVec.toNat_ofNat, Nat.mod_eq_of_lt hk]
        next => cases h
  · intro h
    have hne : (trim cs).isEmpty = false := by
      obtain ⟨before, numeral, after, htrim, -, hnumeral, -⟩ := readInteger_iff.1 h
      rw [List.isEmpty_eq_false_iff, htrim]
      simp [hnumeral.ne_nil]
    have hrange : (0 : Int) ≤ a.toNat ∧ (a.toNat : Int) < Memory.size :=
      ⟨by omega, by exact_mod_cast a.isLt⟩
    rw [hne, h]
    simp only [Bool.false_eq_true, if_false, if_pos hrange, BitVec.ofInt_natCast,
      BitVec.ofNat_toNat, BitVec.setWidth_eq]

/-- What follows a marker is left when a text is trimmed. -/
theorem trim_of_marked {letter : Char} {rest : List Char}
    (hstrip : strip cs = '0' :: letter :: rest) (hletter : isMarkerLetter letter = true)
    (hmeaningful : ∀ c ∈ strip cs, Meaningful c) :
    trim cs = rest.map (CaseRun.partner lowerRuns) := by
  have hlower : lower (strip cs) = '0' :: 'x' :: rest.map (CaseRun.partner lowerRuns) := by
    rw [lower_of_meaningful hmeaningful, hstrip]
    obtain rfl | rfl := isMarkerLetter_iff.1 hletter
    · rfl
    · rfl
  simp only [trim, hlower]

/-- Without a marker, all is left. -/
theorem trim_of_unmarked (hmeaningful : ∀ c ∈ strip cs, Meaningful c)
    (hunmarked : ¬StartsMarked (strip cs)) :
    trim cs = (strip cs).map (CaseRun.partner lowerRuns) := by
  rw [trim, lower_of_meaningful hmeaningful]
  split
  next rest hmap =>
    obtain ⟨zero, tail, hstrip, hzero, htail⟩ := List.map_eq_cons_iff.1 hmap
    obtain ⟨letter, rest, rfl, hletter, -⟩ := List.map_eq_cons_iff.1 htail
    obtain rfl := ((sameMeaning_partner zero).sign '0' (by decide)).2 hzero
    have hmarker := (sameMeaning_partner letter).letter
    rw [hletter] at hmarker
    exact absurd ⟨letter, rest, hmarker, hstrip⟩ hunmarked
  next => rfl

/-- What is meaningful when it is trimmed was meaningful before. -/
theorem meaningful_of_trim (h : ∀ c ∈ trim cs, Meaningful c) : ∀ c ∈ strip cs, Meaningful c := by
  refine meaningful_of_lower ?_
  rw [trim] at h
  split at h
  next rest hlower =>
    rw [hlower]
    refine List.forall_mem_cons.2 ⟨?_, List.forall_mem_cons.2 ⟨?_, h⟩⟩
    · exact Or.inr (Or.inr (Or.inr (by decide)))
    · exact Or.inr (Or.inr (Or.inl (by decide)))
  next => exact h

/-- A text begins with no blank when it is stripped. -/
theorem isBlank_head_strip {c : Char} {rest : List Char} (h : strip cs = c :: rest) :
    isBlank c = false := by
  have hfront : ∃ after, cs.dropWhile isBlank = strip cs ++ after := by
    refine ⟨((cs.dropWhile isBlank).reverse.takeWhile isBlank).reverse, ?_⟩
    rw [strip, trimBy, ← List.reverse_append, List.takeWhile_append_dropWhile, List.reverse_reverse]
  obtain ⟨after, hfront⟩ := hfront
  have hhead := List.head?_dropWhile_not isBlank cs
  rw [hfront, h] at hhead
  simpa using hhead

theorem exists_writing (h : readAddress cs = .ok a) : ∃ w : Writing a.toNat, w.text = cs := by
  have hread := readAddress_eq_ok_iff.1 h
  have hmeaningful := meaningful_of_trim (meaningful_of_readInteger hread)
  obtain ⟨before, after, hcs, hbefore, hafter⟩ := exists_trimBy isBlank cs
  rw [← strip] at hcs
  by_cases hmarked : StartsMarked (strip cs)
  · obtain ⟨letter, rest, hletter, hstrip⟩ := hmarked
    rw [trim_of_marked hstrip hletter hmeaningful, readInteger_lower] at hread
    obtain ⟨gap, numeral, last, rfl, hgap, hnumeral, hlast⟩ := readInteger_iff.1 hread
    refine ⟨⟨before, ['0', letter], gap, numeral, last ++ after, hbefore, ?_, hgap, hnumeral,
      nofun, ?_⟩, ?_⟩
    · obtain rfl | rfl := isMarkerLetter_iff.1 hletter
      · decide
      · decide
    · exact List.forall_mem_append.2 ⟨fun c hc => isBlank_of_isNumeralBlank (hlast c hc), hafter⟩
    · simp only [Writing.text]
      rw [hcs, hstrip]
      simp
  · rw [trim_of_unmarked hmeaningful hmarked, readInteger_lower] at hread
    obtain ⟨gap, numeral, last, hstrip, hgap, hnumeral, hlast⟩ := readInteger_iff.1 hread
    have hnone : gap = [] := by
      cases gap with
      | nil => rfl
      | cons c gap =>
        have hblank := isBlank_of_isNumeralBlank (hgap c List.mem_cons_self)
        rw [isBlank_head_strip hstrip] at hblank
        cases hblank
    subst hnone
    refine ⟨⟨before, [], [], numeral, last ++ after, hbefore, by decide, nofun, hnumeral,
      fun _ => ?_, ?_⟩, ?_⟩
    · rintro ⟨letter, rest, hletter, rfl⟩
      exact hmarked ⟨letter, rest ++ last, hletter, hstrip⟩
    · exact List.forall_mem_append.2 ⟨fun c hc => isBlank_of_isNumeralBlank (hlast c hc), hafter⟩
    · simp only [Writing.text]
      rw [hcs, hstrip]
      simp

theorem readInteger_of_isNumeral {gap numeral : List Char} {i : Int}
    (hgap : ∀ c ∈ gap, isNumeralBlank c = true) (h : IsNumeral hexDigit? numeral i) :
    readInteger 16 (gap ++ numeral) = some i :=
  readInteger_iff.2 ⟨gap, numeral, [], by simp, hgap, h, nofun⟩

namespace Writing

/-- Without a marker, the blanks before the numeral are all stripped. -/
theorem strip_text_of_unmarked (w : Writing n) (hmarker : w.marker = []) :
    strip w.text = w.numeral := by
  have hfront : ∀ c ∈ w.before ++ w.gap, isBlank c = true :=
    List.forall_mem_append.2 ⟨w.before_blank,
      fun c hc => isBlank_of_isNumeralBlank (w.gap_blank c hc)⟩
  simpa [strip, text, hmarker] using trimBy_append hfront (isBlank_of_isNumeral w.isNumeral)
    w.after_blank

theorem marker_cases (w : Writing n) :
    w.marker = [] ∨ ∃ letter, isMarkerLetter letter = true ∧ w.marker = ['0', letter] := by
  have hmarker := w.marker_mem
  simp only [List.mem_cons, List.not_mem_nil, or_false] at hmarker
  obtain hmarker | hmarker | hmarker := hmarker
  · exact Or.inl hmarker
  · exact Or.inr ⟨'x', rfl, hmarker⟩
  · exact Or.inr ⟨'X', rfl, hmarker⟩

/-- After a marker, the blanks before the numeral stay. -/
theorem strip_text_of_marked (w : Writing n) {letter : Char} (hmarker : w.marker = ['0', letter]) :
    strip w.text = '0' :: letter :: (w.gap ++ w.numeral) := by
  rw [text, hmarker]
  refine trimBy_append_of_ends w.before_blank ?_ ?_ w.after_blank
  · rintro c ⟨⟩
    decide
  · intro c hc
    rw [← List.append_assoc, List.getLast?_append_of_ne_nil _ w.isNumeral.ne_nil] at hc
    exact isBlank_of_isNumeral w.isNumeral c (List.mem_of_mem_getLast? hc)

end Writing

theorem readAddress_writing (w : Writing a.toNat) : readAddress w.text = .ok a := by
  rw [readAddress_eq_ok_iff]
  obtain hmarker | ⟨letter, hletter, hmarker⟩ := w.marker_cases
  · have hstrip := w.strip_text_of_unmarked hmarker
    have hmeaningful : ∀ c ∈ strip w.text, Meaningful c := hstrip ▸ w.isNumeral.meaningful
    rw [trim_of_unmarked hmeaningful (hstrip ▸ w.unmarked hmarker), hstrip, readInteger_lower]
    exact readInteger_of_isNumeral (List.forall_mem_nil _) w.isNumeral
  · have hstrip := w.strip_text_of_marked hmarker
    have hmeaningful : ∀ c ∈ strip w.text, Meaningful c := by
      rw [hstrip]
      refine List.forall_mem_cons.2 ⟨Or.inr (Or.inr (Or.inr (by decide))),
        List.forall_mem_cons.2 ⟨?_, ?_⟩⟩
      · exact Or.inr (Or.inr (Or.inl hletter))
      · exact List.forall_mem_append.2 ⟨fun c hc => Or.inl (w.gap_blank c hc),
          w.isNumeral.meaningful⟩
    rw [trim_of_marked hstrip hletter hmeaningful, readInteger_lower]
    exact readInteger_of_isNumeral w.gap_blank w.isNumeral

/-- **What is read** are the writings. -/
theorem readAddress_iff : readAddress cs = .ok a ↔ ∃ w : Writing a.toNat, w.text = cs := by
  constructor
  · exact exists_writing
  · rintro ⟨w, rfl⟩
    exact readAddress_writing w

/-! ## Addresses -/

/-- The text of an address: a marker or none and one or more digits, between blanks. -/
def IsAddress (cs : List Char) (n : Nat) : Prop :=
  ∃ before marker digits values after, cs = before ++ ((marker ++ digits) ++ after) ∧
    (∀ c ∈ before, isBlank c = true) ∧ marker ∈ [[], ['0', 'x'], ['0', 'X']] ∧ digits ≠ [] ∧
    List.Forall₂ (fun c d => digitIn? 16 c = some d) digits values ∧ worth 0 values = n ∧
    ∀ c ∈ after, isBlank c = true

/-- Between blanks there are only digits and letters of markers, of which there is at most one. -/
def Unadorned (cs : List Char) : Prop :=
  ∃ before core after, cs = before ++ (core ++ after) ∧ (∀ c ∈ before, isBlank c = true) ∧
    (∀ c ∈ core, c ∈ numeralChars) ∧ core.countP isMarkerLetter ≤ 1 ∧ ∀ c ∈ after, isBlank c = true

/-- A digit of base sixteen is one in the wider sense, too. -/
theorem hexDigit?_of_digitIn? {c : Char} {d : Nat} (h : digitIn? 16 c = some d) :
    c ∈ numeralChars ∧ isMarkerLetter c = false ∧ hexDigit? c = some d := by
  have hascii : ∀ k < 0x67, (digitIn? 16 (Char.ofNat k)).isSome = true →
      Char.ofNat k ∈ numeralChars ∧ isMarkerLetter (Char.ofNat k) = false ∧
        hexDigit? (Char.ofNat k) = digitIn? 16 (Char.ofNat k) := by decide +kernel
  have hc := hascii c.toNat (Nat.lt_succ_of_le (toNat_le_of_digitIn? h))
  rw [Char.ofNat_toNat, h] at hc
  exact hc rfl

theorem hexDigit?_eq {c : Char} (h : c ∈ numeralChars) : hexDigit? c = digitIn? 16 c := by
  have hall : ∀ c ∈ numeralChars, hexDigit? c = digitIn? 16 c :=
    List.all_iff_forall_prop.1 (by decide +kernel)
  exact hall c h

section

variable {values : List Nat}

theorem digits_of_forall₂ (hne : cs ≠ [])
    (h : List.Forall₂ (fun c d => digitIn? 16 c = some d) cs values) :
    Digits hexDigit? cs values := by
  induction h with
  | nil => exact absurd rfl hne
  | cons hc hcs ih =>
    have hdigit := (hexDigit?_of_digitIn? hc).2.2
    cases hcs with
    | nil => exact .last hdigit
    | cons hd hds => exact .next hdigit (ih (by simp))

theorem forall₂_of_digits (h : Digits hexDigit? cs values) (hcs : ∀ c ∈ cs, c ∈ numeralChars) :
    List.Forall₂ (fun c d => digitIn? 16 c = some d) cs values := by
  induction h with
  | last h =>
    rw [List.forall_mem_singleton] at hcs
    exact .cons (by rw [← hexDigit?_eq hcs, h]) .nil
  | next h _ ih =>
    obtain ⟨hc, hcs⟩ := List.forall_mem_cons.1 hcs
    exact .cons (by rw [← hexDigit?_eq hc, h]) (ih hcs)
  | underscore =>
    have hunderscore : '_' ∈ numeralChars := hcs _ (by simp)
    exact absurd hunderscore (by decide)

theorem mem_of_forall₂ (h : List.Forall₂ (fun c d => digitIn? 16 c = some d) cs values) :
    ∀ c ∈ cs, c ∈ numeralChars ∧ isMarkerLetter c = false := by
  induction h with
  | nil => nofun
  | cons hc _ ih =>
    have hchar := hexDigit?_of_digitIn? hc
    exact List.forall_mem_cons.2 ⟨⟨hchar.1, hchar.2.1⟩, ih⟩

end

/-- A numeral without adornments is digits. -/
theorem exists_forall₂ (h : IsNumeral hexDigit? cs n) (hcs : ∀ c ∈ cs, c ∈ numeralChars)
    (hmarker : StartsMarked cs → False) :
    ∃ values, List.Forall₂ (fun c d => digitIn? 16 c = some d) cs values ∧ worth 0 values = n := by
  obtain ⟨sign, marker, digits, values, rfl, hsign, hinner, hdigits, hn⟩ := h
  have hsigns : ∀ sign ∈ [[], ['+'], ['-']], sign.all numeralChars.contains = true →
    sign = [] := by decide
  obtain ⟨hsigned, hrest⟩ := List.forall_mem_append.1 hcs
  obtain rfl :=
    hsigns sign hsign (List.all_eq_true.2 fun c hc => List.contains_iff_mem.2 (hsigned c hc))
  obtain rfl | ⟨zero, letter, hzero, hletter, hinner⟩ := hinner
  · refine ⟨values, forall₂_of_digits hdigits hrest, ?_⟩
    rw [if_neg (by decide)] at hn
    exact_mod_cast hn.symm
  · -- An inner marker is one of the text, for its zero is that of ASCII.
    refine (hmarker ?_).elim
    have hmem : zero ∈ numeralChars := by
      obtain rfl | rfl := hinner
      · exact hrest _ (by simp)
      · exact hrest _ (by simp)
    rw [hexDigit?_eq hmem] at hzero
    obtain rfl := eq_zero_of_digitIn? hzero
    obtain rfl | rfl := hinner
    · exact ⟨letter, digits, hletter, rfl⟩
    · exact ⟨letter, '_' :: digits, hletter, rfl⟩

/-- An address is unadorned. -/
theorem IsAddress.unadorned (h : IsAddress cs n) : Unadorned cs := by
  obtain ⟨before, marker, digits, values, after, rfl, hbefore, hmarker, -, hdigits, -, hafter⟩ := h
  have hmarkers : ∀ marker ∈ [[], ['0', 'x'], ['0', 'X']],
      marker.all numeralChars.contains = true ∧ marker.countP isMarkerLetter ≤ 1 := by decide
  have hnone : digits.countP isMarkerLetter = 0 :=
    List.countP_eq_zero.2 fun c hc => by simp [(mem_of_forall₂ hdigits c hc).2]
  refine ⟨before, marker ++ digits, after, rfl, hbefore, ?_, ?_, hafter⟩
  · refine List.forall_mem_append.2 ⟨fun c hc => ?_, fun c hc => (mem_of_forall₂ hdigits c hc).1⟩
    exact List.contains_iff_mem.1 (List.all_eq_true.1 (hmarkers marker hmarker).1 c hc)
  · rw [List.countP_append, hnone]
    exact (hmarkers marker hmarker).2

/-- An address is a writing. -/
theorem IsAddress.exists_writing (h : IsAddress cs n) : ∃ w : Writing n, w.text = cs := by
  obtain ⟨before, marker, digits, values, after, rfl, hbefore, hmarker, hne, hdigits,
    rfl, hafter⟩ := h
  refine ⟨⟨before, marker, [], digits, after, hbefore, hmarker, nofun, ?_, fun _ => ?_, hafter⟩,
    rfl⟩
  · exact ⟨[], [], digits, values, rfl, by decide, Or.inl rfl, digits_of_forall₂ hne hdigits, rfl⟩
  · rintro ⟨letter, rest, hletter, rfl⟩
    have hdigit := (mem_of_forall₂ hdigits letter (by simp)).2
    exact Bool.false_ne_true (hdigit.symm.trans hletter)

/-- **The addresses** are the writings that are unadorned. -/
theorem isAddress_iff : IsAddress cs n ↔ (∃ w : Writing n, w.text = cs) ∧ Unadorned cs := by
  constructor
  · exact fun h => ⟨h.exists_writing, h.unadorned⟩
  · rintro ⟨⟨w, htext⟩, before, core, after, rfl, hbefore, hcore, hcount, hafter⟩
    have hstrip : strip w.text = core := by
      rw [htext]
      exact trimBy_append hbefore (fun c hc => isBlank_of_mem_numeralChars (hcore c hc)) hafter
    obtain hmarker | ⟨letter, hletter, hmarker⟩ := w.marker_cases
    · obtain rfl := (w.strip_text_of_unmarked hmarker).symm.trans hstrip
      obtain ⟨values, hvalues, hworth⟩ := exists_forall₂ w.isNumeral hcore (w.unmarked hmarker)
      exact ⟨before, [], w.numeral, values, after, rfl, hbefore, by decide, w.isNumeral.ne_nil,
        hvalues, hworth, hafter⟩
    · obtain rfl := (w.strip_text_of_marked hmarker).symm.trans hstrip
      obtain ⟨-, hcore⟩ := List.forall_mem_cons.1 hcore
      obtain ⟨-, hcore⟩ := List.forall_mem_cons.1 hcore
      obtain ⟨hgap, hnumeral⟩ := List.forall_mem_append.1 hcore
      have hnone : w.gap = [] := List.eq_nil_iff_forall_not_mem.2 fun c hc => by
        have hblank := isBlank_of_isNumeralBlank (w.gap_blank c hc)
        rw [isBlank_of_mem_numeralChars (hgap c hc)] at hblank
        cases hblank
      have hplain : w.numeral.countP isMarkerLetter = 0 := by
        rw [List.countP_cons_of_neg (by decide), List.countP_cons_of_pos hletter, hnone,
          List.nil_append] at hcount
        omega
      obtain ⟨values, hvalues, hworth⟩ := exists_forall₂ w.isNumeral hnumeral
        fun ⟨x, rest, hx, hmarked⟩ => by
        rw [hmarked, List.countP_cons_of_neg (by decide), List.countP_cons_of_pos hx] at hplain
        cases hplain
      refine ⟨before, ['0', letter], w.numeral, values, after, ?_, hbefore, ?_, w.isNumeral.ne_nil,
        hvalues, hworth, hafter⟩
      · simp [hnone]
      · exact hmarker ▸ w.marker_mem

/-! ## Ranges -/

/-- There is no colon in what is read as an address. -/
theorem colon_notMem (h : readAddress cs = .ok a) : ':' ∉ cs := by
  obtain ⟨w, rfl⟩ := exists_writing h
  have hblank {blanks : List Char}
    (hblanks : ∀ c ∈ blanks, isBlank c = true) : ':' ∉ blanks := fun hmem =>
    absurd (hblanks _ hmem) (by decide)
  have hmeaningful : ∀ c ∈ w.gap ++ w.numeral, Meaningful c :=
    List.forall_mem_append.2 ⟨fun c hc => Or.inl (w.gap_blank c hc), w.isNumeral.meaningful⟩
  have hmarker : ∀ marker ∈ [[], ['0', 'x'], ['0', 'X']], ':' ∉ marker := by decide
  have hcolon : ¬Meaningful ':' := by decide
  simp only [Writing.text, List.mem_append, not_or]
  exact ⟨hblank w.before_blank,
    ⟨hmarker _ w.marker_mem, fun h => hcolon (hmeaningful _ (List.mem_append_left _ h)),
    fun h => hcolon (hmeaningful _ (List.mem_append_right _ h))⟩, hblank w.after_blank⟩

/-- A range is read from the texts of its two ends, in order and with a colon between them. -/
theorem ofChars_iff {r : HexRange} :
    ofChars cs = .ok r ↔ ∃ before after, cs = before ++ ':' :: after ∧
      readAddress before = .ok r.first ∧
      readAddress after = .ok r.last ∧ r.first ≤ r.last := by
  constructor
  · intro h
    rw [ofChars, List.span_eq_takeWhile_dropWhile] at h
    have hcs := List.takeWhile_append_dropWhile (p := (· ≠ ':')) (l := cs)
    have hhead := List.head?_dropWhile_not (· ≠ ':') cs
    generalize cs.takeWhile (· ≠ ':') = before at h hcs
    generalize cs.dropWhile (· ≠ ':') = rest at h hcs hhead
    cases rest with
    | nil => cases h
    | cons c after =>
      obtain rfl : c = ':' := by simpa using hhead
      simp only [bind, Except.bind] at h
      cases hfirst : readAddress before with
      | error e => simp [hfirst, Except.mapError] at h
      | ok first =>
        cases hlast : readAddress after with
        | error e => simp [hfirst, hlast, Except.mapError] at h
        | ok last =>
          by_cases hlt : last < first
          · simp [hfirst, hlast, hlt, Except.mapError] at h
          · simp only [hfirst, hlast, hlt, Except.mapError, if_false] at h
            cases h
            exact ⟨before, after, hcs.symm, hfirst, hlast, Nat.not_lt.1 hlt⟩
  · rintro ⟨before, after, rfl, hfirst, hlast, hle⟩
    simp only [ofChars, span_colon (colon_notMem hfirst), hfirst, hlast]
    exact if_neg (Nat.not_lt.2 hle)

/-- **The texts that are read.** A text is read as an address if it is a writing of it. The texts of
the address - a marker or none and digits that are worth it, between blanks - are among them, and
all that are unadorned are such texts. What is read as a range are writings of its two ends, in
order and with a colon between them. -/
theorem accepted_texts (text : List Char) :
    (∀ a, readAddress text = .ok a ↔ ∃ w : Writing a.toNat, w.text = text) ∧
    (∀ a, IsAddress text a.toNat ↔ readAddress text = .ok a ∧ Unadorned text) ∧
    ∀ r, ofChars text = .ok r ↔ ∃ (x : Writing r.first.toNat) (y : Writing r.last.toNat),
      text = x.text ++ ':' :: y.text ∧ r.first ≤ r.last := by
  refine ⟨fun _ => readAddress_iff, fun _ => by rw [isAddress_iff, readAddress_iff], fun r => ?_⟩
  rw [ofChars_iff]
  constructor
  · rintro ⟨before, after, rfl, hfirst, hlast, hle⟩
    obtain ⟨x, rfl⟩ := readAddress_iff.1 hfirst
    obtain ⟨y, rfl⟩ := readAddress_iff.1 hlast
    exact ⟨x, y, rfl, hle⟩
  · rintro ⟨x, y, rfl, hle⟩
    exact ⟨x.text, y.text, rfl, readAddress_writing x, readAddress_writing y, hle⟩

example : readAddress " 0X\t-0x_0_0 ".toList = .ok 0 := by decide +kernel

/-- There is at most one letter of a marker in an unadorned text. -/
theorem Unadorned.countP_le (h : Unadorned cs) : cs.countP isMarkerLetter ≤ 1 := by
  obtain ⟨before, core, after, rfl, hbefore, -, hcount, hafter⟩ := h
  have hnone {blanks : List Char}
      (hblanks : ∀ c ∈ blanks, isBlank c = true) : blanks.countP isMarkerLetter = 0 := by
    refine List.countP_eq_zero.2 fun c hc hletter => ?_
    have hblank := hblanks c hc
    obtain rfl | rfl := isMarkerLetter_iff.1 hletter
    · exact absurd hblank (by decide)
    · exact absurd hblank (by decide)
  rw [List.countP_append, List.countP_append, hnone hbefore, hnone hafter]
  omega

/-- Not only addresses are read: `0x0x10` is no address, for it has two markers, and it is read as
one. -/
theorem not_only_addresses : ¬∀ text a, readAddress text = .ok a ↔ IsAddress text a.toNat := by
  intro h
  have hread : readAddress "0x0x10".toList = .ok 0x10 := by decide +kernel
  have hcount := ((h _ _).1 hread).unadorned.countP_le
  exact absurd hcount (by decide)

end Chip8.HexRange
