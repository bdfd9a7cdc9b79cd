import Chip8.Proofs.HexSpelling
import Chip8.Proofs.Joining
import Chip8.Report

/-!
# Reading dumps

A dump of memory can be read back. Each line starts with the address of its first byte, spelled so
that it is read as an address, and the bytes of the line follow in fields of two digits. What is
read from the dump of a range are its addresses, from the first to the last and each of them once,
with the bytes that memory holds there.

## Main definitions

* `Report.Cell`, `Report.cells`: addresses with their bytes
* `Report.readLine`, `Report.readDump`: read a line, and a whole dump
* `Report.Rows`: the rows in which a range is laid out

## Main statements

* `Report.readLine_dumpLine`: a line is read back
* `Report.rows_of_range`: how a range is laid out
* `Report.linesOf_dump`: the lines of a dump
* `Report.dumps_decode`: a dump is read back, and ranges are read from all their spellings
-/

namespace Chip8

open Text (Spelling numeralChars)

namespace Report

/-! ## Reading -/

/-- An address, and the byte that is there. -/
abbrev Cell := Nat × Byte

/-- The byte that a field of two digits shows. -/
def readField : List Char → Option Byte
  | [high, low] => do
    let high ← Text.digitIn? 16 high
    let low ← Text.digitIn? 16 low
    return BitVec.ofNat 8 (16 * high + low)
  | _ => none

/-- The cells that a line shows: its bytes, with addresses counted from its label. -/
def readLine (line : List Char) : Option (List Cell) :=
  match line.span (· ≠ ':') with
  | (label, ':' :: ' ' :: fields) => do
    let first ← (HexRange.readAddress label).toOption
    let bytes ← (fields.splitOn ' ').mapM readField
    return (List.range' first.toNat bytes.length).zip bytes
  | _ => none

/-- The rows of cells that a dump shows, line by line. -/
def readDump (text : String) : Option (List (List Cell)) := (Text.linesOf text.toList).mapM readLine

theorem mapM_map_eq_some {α β γ : Type} {l : List α} {f : β → Option γ} {g : α → β} {h : α → γ}
    (hf : ∀ a ∈ l, f (g a) = some (h a)) : (l.map g).mapM f = some (l.map h) := by
  induction l with
  | nil => rfl
  | cons a l ih =>
    obtain ⟨ha, hl⟩ := List.forall_mem_cons.1 hf
    rw [List.map_cons, List.mapM_cons, ha, ih hl]
    rfl

theorem mapM_flatMap_eq_some {α β γ : Type} {l : List α} {f : β → Option γ} {g : α → List β}
    {h : α → List γ} (hf : ∀ a ∈ l, (g a).mapM f = some (h a)) :
    (l.flatMap g).mapM f = some (l.flatMap h) := by
  induction l with
  | nil => rfl
  | cons a l ih =>
    obtain ⟨ha, hl⟩ := List.forall_mem_cons.1 hf
    rw [List.flatMap_cons, List.mapM_append, ha, ih hl]
    rfl

/-! ## Labels and fields -/

theorem label_natCast (n : Nat) : label n = Text.hexUpper 3 n := by
  rw [label, Text.hexUpperSigned, Text.signed, if_neg (Int.not_lt.2 (Int.natCast_nonneg n)),
    Int.natAbs_natCast]

/-- The label of an address as a spelling of it. -/
def labelSpelling (n : Nat) : Spelling n where
  before := []
  marker := []
  zeros := 3 - (Nat.toDigits 16 n).length
  numeral := label n
  after := []
  before_blank := nofun
  marker_mem := by simp
  numeral_cased := by
    rw [label_natCast, Text.hexUpper, Text.hexLower, List.leftpad, List.forall₂_map_left_iff]
    exact List.forall₂_same.2 fun _ _ => .inr rfl
  after_blank := nofun

theorem text_labelSpelling (n : Nat) : (labelSpelling n).text = label n := by
  simp [Spelling.text, labelSpelling]

theorem mem_label {n : Nat} : ∀ c ∈ label n, c ∈ numeralChars := (labelSpelling n).mem_numeralChars

/-- A byte in two digits, capitals where they are letters. -/
theorem hexUpper_byte (b : Byte) : Text.hexUpper 2 b.toNat =
    [(Nat.digitChar (b.toNat / 16)).toUpper, (Nat.digitChar (b.toNat % 16)).toUpper] := by
  have hlt := b.isLt
  rw [Text.hexUpper, Text.hexLower]
  by_cases hone : b.toNat < 16
  · have hhigh : b.toNat / 16 = 0 := Nat.div_eq_of_lt hone
    have hlow : b.toNat % 16 = b.toNat := Nat.mod_eq_of_lt hone
    rw [Nat.toDigits_of_lt_base hone, hhigh, hlow]
    rfl
  · have hhigh : b.toNat / 16 < 16 := by omega
    rw [Nat.toDigits_of_base_le (by decide) (Nat.not_lt.1 hone), Nat.toDigits_of_lt_base hhigh]
    rfl

/-- A capital digit is a character of numerals, and has its value. -/
theorem toUpper_digitChar_spec : ∀ d < 16, (Nat.digitChar d).toUpper ∈ numeralChars ∧
    Text.digitIn? 16 (Nat.digitChar d).toUpper = some d := by
  decide

theorem readField_hexUpper (b : Byte) : readField (Text.hexUpper 2 b.toNat) = some b := by
  have hlt := b.isLt
  obtain ⟨-, hhigh⟩ := toUpper_digitChar_spec (b.toNat / 16) (by omega)
  obtain ⟨-, hlow⟩ := toUpper_digitChar_spec (b.toNat % 16) (by omega)
  rw [hexUpper_byte, readField, hhigh, hlow]
  simp [Nat.div_add_mod]

theorem mem_hexUpper {b : Byte} {c : Char} (hc : c ∈ Text.hexUpper 2 b.toNat) :
    c ∈ numeralChars := by
  have hlt := b.isLt
  rw [hexUpper_byte, List.mem_pair] at hc
  obtain rfl | rfl := hc
  · exact (toUpper_digitChar_spec _ (by omega)).1
  · exact (toUpper_digitChar_spec _ (by omega)).1

/-- Fields with spaces between them are told apart. -/
theorem splitOn_fields {bytes : List Byte} (hne : bytes ≠ []) :
    ([' '].intercalate (bytes.map fun b => Text.hexUpper 2 b.toNat)).splitOn ' ' =
      bytes.map fun b => Text.hexUpper 2 b.toNat := by
  apply List.splitOn_intercalate
  · intro field hfield hspace
    obtain ⟨b, -, rfl⟩ := List.mem_map.1 hfield
    exact absurd (mem_hexUpper hspace) (by decide)
  · simpa using hne

theorem mapM_readField (bytes : List Byte) :
    (bytes.map fun b => Text.hexUpper 2 b.toNat).mapM readField = some bytes := by
  rw [mapM_map_eq_some fun b _ => readField_hexUpper b, List.map_id']

/-! ## Lines -/

/-- The cells of `count` addresses, upwards from `first`. -/
def cells (m : Memory) (first count : Nat) : List Cell :=
  (List.range' first count).map fun a => (a, m.read (BitVec.ofNat 12 a))

theorem length_cells (m : Memory) (first count : Nat) : (cells m first count).length = count := by
  simp [cells]

theorem cells_append (m : Memory) (first count more : Nat) :
    cells m first count ++ cells m (first + count) more = cells m first (count + more) := by
  rw [cells, cells, ← List.map_append, List.range'_append_1, cells]

variable (m : Memory) {first count : Nat}

theorem zip_slice :
    (List.range' first count).zip (m.slice (BitVec.ofInt 12 first) count) =
      cells m first count := by
  apply List.ext_getElem
  · simp [length_cells, Memory.length_slice]
  · intro k hk hk'
    simp [cells, Memory.slice, BitVec.ofNat_add]

/-- A line is written with the characters of numerals, a colon and spaces. -/
theorem mem_dumpLine {c : Char} (hc : c ∈ dumpLine m first count) :
    c ∈ numeralChars ∨ c = ':' ∨ c = ' ' := by
  rw [dumpLine, List.mem_append, List.mem_cons, List.mem_cons] at hc
  obtain hc | rfl | rfl | hc := hc
  · exact .inl (mem_label c hc)
  · exact .inr (.inl rfl)
  · exact .inr (.inr rfl)
  · by_cases hspace : c = ' '
    · exact .inr (.inr hspace)
    · obtain ⟨field, hfield, hc⟩ := (Text.mem_intercalate_iff (by simpa using hspace) _).1 hc
      obtain ⟨b, -, rfl⟩ := List.mem_map.1 hfield
      exact .inl (mem_hexUpper hc)

/-- What is read from a line are the cells that it shows. -/
theorem readLine_dumpLine (hcount : 0 < count) (hfirst : first < Memory.size) :
    readLine (dumpLine m first count) = some (cells m first count) := by
  have hcolon : ':' ∉ label first := fun h => absurd (mem_label _ h) (by decide)
  have hlabel : HexRange.readAddress (label first) = .ok (BitVec.ofNat 12 first) := by
    rw [← text_labelSpelling]
    exact HexRange.readAddress_spelling _ hfirst
  have hslice : m.slice (BitVec.ofInt 12 first) count ≠ [] := by
    rw [← List.length_pos_iff, Memory.length_slice]
    exact hcount
  have hcells : (BitVec.ofNat 12 first).toNat = first := Nat.mod_eq_of_lt hfirst
  simp only [readLine, dumpLine, HexRange.span_colon hcolon, hlabel, splitOn_fields hslice,
    mapM_readField,
    Except.toOption, Option.bind_eq_bind, Option.bind_some, hcells, Memory.length_slice, zip_slice]
  rfl

example : readLine "1FE: 0A FF".toList = some [(0x1FE, 0x0A), (0x1FF, 0xFF)] := by decide +kernel

/-! ## Ranges -/

/-- One row of `count` addresses: sixteen cells, or as many as are left. -/
def row (first count k : Nat) : List Cell :=
  cells m (first + bytesPerLine * k) (min bytesPerLine (count - bytesPerLine * k))

/-- The rows of `count` addresses. -/
def rows (first count : Nat) : List (List Cell) :=
  (List.range ((count + bytesPerLine - 1) / bytesPerLine)).map (row m first count)

/-- The lines of a range are read back as its rows. -/
theorem mapM_dumpLines (hfits : first + count ≤ Memory.size) :
    (dumpLines m first count).mapM readLine = some (rows m first count) := by
  apply mapM_map_eq_some
  intro k hk
  rw [List.mem_range, bytesPerLine] at hk
  have hstart : ((first : Int) + bytesPerLine * k) = ((first + bytesPerLine * k : Nat) : Int) := by
    push_cast; rfl
  rw [hstart]
  apply readLine_dumpLine
  · simp only [bytesPerLine]
    omega
  · simp only [bytesPerLine]
    omega

/-- Rows one after the other are all cells, as far as there are as many. -/
theorem flatten_map_row (n : Nat) :
    ((List.range n).map (row m first count)).flatten =
      cells m first (min (bytesPerLine * n) count) := by
  induction n with
  | zero => simp [cells]
  | succ n ih =>
    rw [List.range_succ, List.map_append, List.flatten_append, ih, List.map_singleton,
      List.flatten_singleton, row]
    by_cases hfull : bytesPerLine * n ≤ count
    · rw [Nat.min_eq_left hfull, cells_append]
      congr 1
      simp only [bytesPerLine] at hfull ⊢
      omega
    · have hnone : count - bytesPerLine * n = 0 := by omega
      have hmin : min (bytesPerLine * (n + 1)) count = count := by
        simp only [bytesPerLine] at hfull ⊢
        omega
      rw [Nat.min_eq_right (Nat.le_of_not_le hfull), hnone, hmin]
      simp [cells]

/-- How many addresses a range has. -/
def countOf (r : HexRange) : Nat := r.last.toNat + 1 - r.first.toNat

/-- The rows in which a range is laid out: all of its cells in the order of their addresses, sixteen
to a row but for the last one. -/
structure Rows (r : HexRange) (rows : List (List Cell)) : Prop where
  all : rows.flatten = cells m r.first.toNat (countOf r)
  full : ∀ row ∈ rows.dropLast, row.length = 16
  short : ∀ row ∈ rows, 0 < row.length ∧ row.length ≤ 16

theorem rows_of_range (r : HexRange) : Rows m r (rows m r.first.toNat (countOf r)) where
  all := by
    rw [rows, flatten_map_row, Nat.min_eq_right]
    simp only [bytesPerLine]
    omega
  full := by
    intro row hrow
    rw [rows, ← List.map_dropLast, List.dropLast_eq_take, List.length_range,
      List.take_range] at hrow
    obtain ⟨k, hk, rfl⟩ := List.mem_map.1 hrow
    rw [List.mem_range] at hk
    rw [row, length_cells]
    simp only [bytesPerLine] at hk ⊢
    omega
  short := by
    intro row hrow
    obtain ⟨k, hk, rfl⟩ := List.mem_map.1 hrow
    rw [List.mem_range] at hk
    rw [row, length_cells]
    simp only [bytesPerLine] at hk ⊢
    omega

/-! ## Dumps -/

theorem dumpRanges_eq (ranges : List HexRange) :
    dumpRanges m (ranges.map fun r => ((r.first.toNat : Int), (r.last.toNat : Int))) =
      ranges.flatMap fun r => dumpLines m r.first.toNat (countOf r) := by
  have hcount (r : HexRange) : ((r.last.toNat : Int) + 1 - (r.first.toNat : Int)).toNat =
      countOf r := by
    simp only [countOf]
    omega
  simp only [dumpRanges, List.flatMap_map, hcount]

/-- The lines of a dump are those of its ranges. -/
theorem linesOf_dump (ranges : List HexRange) :
    Text.linesOf (dump m ranges).toList = ranges.flatMap
      fun r => dumpLines m r.first.toNat (countOf r) := by
  have hline {line : List Char}
      (h : line ∈ ranges.flatMap fun r => dumpLines m r.first.toNat (countOf r)) :
      ∃ first count : Nat, line = dumpLine m first count := by
    obtain ⟨r, -, h⟩ := List.mem_flatMap.1 h
    obtain ⟨k, -, rfl⟩ := List.mem_map.1 h
    exact ⟨r.first.toNat + bytesPerLine * k, _, rfl⟩
  rw [dump, dumpText, dumpRanges_eq]
  apply Text.linesOf_lines
  · intro line h hnewline
    obtain ⟨first, count, rfl⟩ := hline h
    exact absurd (mem_dumpLine m hnewline) (by decide)
  · intro h
    obtain ⟨first, count, hempty⟩ := hline h
    simp [dumpLine] at hempty

/-- **Memory dumps decode back.** Whatever memory holds, the dump of ranges that were read from
texts is read back as their rows, one range after the other; and every range is read from all
spellings of its two ends. -/
theorem dumps_decode (ranges : List HexRange)
    (hread : ∀ r ∈ ranges, ∃ text, HexRange.ofString text = .ok r) :
    (∃ rows, readDump (dump m ranges) = some rows.flatten ∧ List.Forall₂ (Rows m) ranges rows) ∧
      ∀ {first last : Address}, first ≤ last →
        ∀ (x : Spelling first.toNat) (y : Spelling last.toNat),
        HexRange.ofString (String.ofList (x.text ++ ':' :: y.text)) = .ok ⟨first, last⟩ := by
  constructor
  · refine ⟨ranges.map fun r => rows m r.first.toNat (countOf r), ?_, ?_⟩
    · have hfits (r : HexRange) (hr : r ∈ ranges) : r.first.toNat + countOf r ≤ Memory.size := by
        obtain ⟨text, htext⟩ := hread r hr
        have hle : r.first.toNat ≤ r.last.toNat := HexRange.first_le_last_of_ofChars htext
        have hlast : r.last.toNat < Memory.size := r.last.isLt
        simp only [countOf]
        omega
      rw [readDump, linesOf_dump, ← List.flatMap_def]
      exact mapM_flatMap_eq_some fun r hr => mapM_dumpLines m (hfits r hr)
    · rw [List.forall₂_map_right_iff]
      exact List.forall₂_same.2 fun r _ => rows_of_range m r
  · intro first last hle x y
    rw [HexRange.ofString, String.toList_ofList]
    exact HexRange.ofChars_spelling hle x y

/-- A range that is spelled with a blank and a marker is read, and its dump of two rows is read
back. -/
theorem dumps_decode_marked :
    (0x1FE : Address) ≤ 0x20F ∧ HexRange.ofString " 0x1FE:20F" = .ok ⟨0x1FE, 0x20F⟩ ∧
      ∃ rows, readDump (dump Memory.powerUp [⟨0x1FE, 0x20F⟩]) = some rows.flatten ∧
        List.Forall₂ (Rows Memory.powerUp) [⟨0x1FE, 0x20F⟩] rows := by
  let marked : Spelling 0x1FE :=
    { labelSpelling 0x1FE with
      before := [' ']
      marker := ['0', 'x']
      before_blank := List.forall_mem_singleton.2 rfl
      marker_mem := by decide }
  have hle : (0x1FE : Address) ≤ 0x20F := by decide
  have hread : HexRange.ofString " 0x1FE:20F" = .ok ⟨0x1FE, 0x20F⟩ :=
    (dumps_decode Memory.powerUp [] nofun).2 hle marked (labelSpelling 0x20F)
  refine ⟨hle, hread, (dumps_decode Memory.powerUp [⟨0x1FE, 0x20F⟩] ?_).1⟩
  exact List.forall_mem_singleton.2 ⟨_, hread⟩

end Report

end Chip8
