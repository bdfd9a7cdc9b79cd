/-!
# Paths

A path is an optional root and a list of names. Empty names and the name `.` are dropped when a text
is read as a path; the name `..` is kept, because what it means depends on the files there are. Two
slashes at the start are a root of their own; more are the same as one.

## Main definitions

* `Path.ofString`: a text as a path
* `Path.toString`: a path as a text
* `Path.stem`: the last name without its extension
-/

namespace Chip8

/-- A path in normal form. -/
structure Path where
  /-- The slashes at the start: none, one or two. -/
  root : String
  names : List String
  deriving DecidableEq, Repr

namespace Path

/-- The parts of a text between slashes. -/
def split : List Char → List (List Char)
  | [] => [[]]
  | c :: cs =>
    if c = '/' then [] :: split cs
    else match split cs with
      | part :: parts => (c :: part) :: parts
      | [] => [[c]]

/-- The root of a path, by the number of slashes its text starts with. -/
def rootOf (slashes : Nat) : String :=
  if slashes = 0 then "" else if slashes = 2 then "//" else "/"

/-- The path that a text denotes. -/
def ofString (text : String) : Path where
  root := rootOf (text.toList.takeWhile (· = '/')).length
  names := ((split text.toList).map String.ofList).filter fun name => name ≠ "" ∧ name ≠ "."

/-- The text of a path. A path with nothing in it is written as a dot. -/
def toString (p : Path) : String :=
  let text := p.root ++ "/".intercalate p.names
  if text = "" then "." else text

/-- The last name, or nothing. -/
def lastName (p : Path) : String := p.names.getLast?.getD ""

/-- A name without its extension: the last dot and what follows it, unless it is the first character
or nothing follows it. -/
def stemOf (name : List Char) : List Char :=
  let afterDot := (name.reverse.takeWhile (· ≠ '.')).length
  let beforeDot := name.length - afterDot - 1
  if name.contains '.' ∧ 0 < beforeDot ∧ 0 < afterDot then name.take beforeDot else name

/-- The last name without its extension. -/
def stem (p : Path) : String := String.ofList (stemOf p.lastName.toList)

end Path

end Chip8
