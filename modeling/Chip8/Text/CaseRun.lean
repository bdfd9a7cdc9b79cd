/-!
# Runs of case pairs

Unicode pairs the cases of most letters at a fixed distance: over a stretch of an alphabet each
letter, or every other one, has its partner equally far away.
-/

namespace Chip8.Text

/-- The code points from `first` to `last` in strides of `stride`, each with its partner `shift`
away. -/
structure CaseRun where
  first : Nat
  last : Nat
  stride : Nat
  shift : Int

namespace CaseRun

/-- Whether a code point belongs to a run. -/
def covers (r : CaseRun) (c : Nat) : Bool :=
  r.first ≤ c && c ≤ r.last && (c - r.first) % r.stride == 0

/-- The partner of a character by a table of runs; a character in none of them is its own
partner. -/
def partner (runs : List CaseRun) (c : Char) : Char :=
  match runs.find? (·.covers c.toNat) with
  | some r => Char.ofNat (c.toNat + r.shift).toNat
  | none => c

/-- The full mapping of a character: its expansion if it has one, and else its partner. -/
def full (runs : List CaseRun) (expansions : List (Nat × List Nat)) (c : Char) : List Char :=
  match expansions.lookup c.toNat with
  | some codes => codes.map Char.ofNat
  | none => [partner runs c]

end CaseRun

end Chip8.Text
