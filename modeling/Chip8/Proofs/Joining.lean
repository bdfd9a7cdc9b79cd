import Mathlib.Tactic.Common

/-!
# Joined texts

Parts are joined to a text by a separator between them. What is in the text is in one of its parts,
or in the separator, and a text of lines has its lines back when it is split.

## Main definitions

* `Text.linesOf`: the lines of a text

## Main statements

* `Text.mem_intercalate_iff`: what is in a joined text
* `Text.splitOn_lines`, `Text.linesOf_lines`: joined lines are told apart again
-/

namespace Chip8.Text

theorem mem_intercalate_iff {α : Type} {a : α} {sep : List α} (hsep : a ∉ sep)
    (parts : List (List α)) :
    a ∈ sep.intercalate parts ↔ ∃ part ∈ parts, a ∈ part := by
  induction parts with
  | nil => simp
  | cons part parts ih =>
    cases parts with
    | nil => simp
    | cons next parts =>
      rw [List.intercalate_cons_cons, List.mem_append, List.mem_append, or_iff_left hsep]
      exact (or_congr_right ih).trans (by simp)

theorem toList_lines (lines : List (List Char)) :
    ("\n".intercalate (lines.map String.ofList)).toList = ['\n'].intercalate lines := by
  rw [String.toList_intercalate, List.map_map]
  simp

/-- Lines that are joined by line ends are told apart by them. -/
theorem splitOn_lines {lines : List (List Char)} (hnewline : ∀ line ∈ lines, '\n' ∉ line)
    (hne : lines ≠ []) :
    ("\n".intercalate (lines.map String.ofList)).toList.splitOn '\n' = lines := by
  rw [toList_lines]
  exact List.splitOn_intercalate '\n' hnewline hne

/-- The lines of a text. There are none in an empty one. -/
def linesOf (text : List Char) : List (List Char) := if text = [] then [] else text.splitOn '\n'

/-- Lines with something in them are the lines of the text that they are joined to, if there are any
or not. -/
theorem linesOf_lines {lines : List (List Char)} (hnewline : ∀ line ∈ lines, '\n' ∉ line)
    (hsome : [] ∉ lines) :
    linesOf ("\n".intercalate (lines.map String.ofList)).toList = lines := by
  by_cases hne : lines = []
  · rw [hne]
    rfl
  · have hsplit := splitOn_lines hnewline hne
    rw [linesOf, if_neg, hsplit]
    -- An empty text has an empty line when it is split.
    intro hempty
    rw [hempty] at hsplit
    exact hsome (hsplit ▸ List.mem_singleton_self [])

end Chip8.Text
