import Chip8.Proofs.Joining
import Chip8.Rom

/-!
# Images at paths

What is read at a path is the content of the file there, unless the path was given with a null
character in it. Such a path is no path for the system at all.

## Main statements

* `Path.mem_toString_ofString`: a path has the characters of its text, but for slashes and dots
* `Rom.read_of_nul`, `Rom.read_of_no_nul`: what is read at the path of a text
* `Rom.read_eq_ok_iff`: where there is an image
-/

namespace Chip8

namespace Path

variable {c : Char}

theorem mem_split_iff (hslash : c ≠ '/') (cs : List Char) :
    (∃ part ∈ split cs, c ∈ part) ↔ c ∈ cs := by
  induction cs with
  | nil => simp [split]
  | cons d cs ih =>
    rw [split, List.mem_cons, ← ih]
    by_cases hd : d = '/'
    · simp [hd, hslash]
    · rw [if_neg hd]
      cases split cs with
      | nil => simp
      | cons part parts => simp [or_assoc]

theorem mem_intercalate_names_iff (hslash : c ≠ '/') (names : List String) :
    c ∈ ("/".intercalate names).toList ↔ ∃ name ∈ names, c ∈ name.toList := by
  rw [String.toList_intercalate, Text.mem_intercalate_iff (by simpa using hslash)]
  simp

/-- Reading a text as a path drops slashes and dots, and writing the path puts slashes and a dot. -/
theorem mem_toString_ofString (hslash : c ≠ '/') (hdot : c ≠ '.') (text : String) :
    c ∈ (ofString text).toString.toList ↔ c ∈ text.toList := by
  have hnames : (∃ name ∈ (ofString text).names, c ∈ name.toList) ↔ c ∈ text.toList := by
    rw [← mem_split_iff hslash]
    constructor
    · rintro ⟨name, hname, hc⟩
      obtain ⟨part, hpart, rfl⟩ := List.mem_map.1 (List.mem_filter.1 hname).1
      exact ⟨part, hpart, by simpa using hc⟩
    · rintro ⟨part, hpart, hc⟩
      refine ⟨String.ofList part, List.mem_filter.2 ⟨List.mem_map_of_mem hpart, ?_⟩, by
        simpa using hc⟩
      -- What is dropped is empty or a dot, and `c` is in neither.
      have hne (dropped : String)
          (hdropped : c ∉ dropped.toList) : String.ofList part ≠ dropped := by
        rintro rfl
        exact hdropped (by simpa using hc)
      exact decide_eq_true ⟨hne "" (by simp), hne "." (by simpa using hdot)⟩
  have hroot : c ∉ (ofString text).root.toList := by
    simp only [ofString, rootOf]
    split
    · simp
    · split <;> simpa using hslash
  rw [← hnames, ← mem_intercalate_names_iff hslash, toString]
  split
  next hempty =>
    have hnone : (ofString text).root ++ "/".intercalate (ofString text).names = "" := hempty
    have hnames : ("/".intercalate (ofString text).names).toList = [] :=
      (List.append_eq_nil_iff.1 (String.toList_append ▸ congrArg String.toList hnone)).2
    rw [hnames]
    simpa using hdot
  next => rw [String.toList_append, List.mem_append, or_iff_right hroot]

end Path

namespace Rom

variable {files : FileSystem} {text : String}

/-- The system does not take a path that was given with a null character in it. -/
theorem read_of_nul (hnul : Char.ofNat 0 ∈ text.toList) :
    read files (Path.ofString text) = .error .nulInPath := by
  rw [read, if_pos]
  rw [List.contains_iff_mem]
  exact (Path.mem_toString_ofString (by decide) (by decide) text).2 hnul

theorem read_of_no_nul (hnul : Char.ofNat 0 ∉ text.toList) :
    read files (Path.ofString text) =
      (files.content (Path.ofString text)).mapError (.unreadable (Path.ofString text)) := by
  rw [read, if_neg]
  rw [List.contains_iff_mem]
  exact mt (Path.mem_toString_ofString (by decide) (by decide) text).1 hnul

/-- The image at a path is the content of the file there. -/
theorem read_eq_ok_iff {image : List Byte} :
    read files (Path.ofString text) = .ok image ↔
      Char.ofNat 0 ∉ text.toList ∧ files.content (Path.ofString text) = .ok image := by
  by_cases hnul : Char.ofNat 0 ∈ text.toList
  · rw [read_of_nul hnul]
    simp [hnul]
  · rw [read_of_no_nul hnul, and_iff_right hnul]
    cases files.content (Path.ofString text) <;> simp [Except.mapError]

end Rom

end Chip8
