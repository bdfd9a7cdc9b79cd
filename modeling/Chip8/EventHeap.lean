import Chip8.EventQueue

/-!
# Event heaps

Events wait in a binary heap: the events below position `i` are those at `2 * i + 1` and
`2 * i + 2`, and none of them comes before the one above. So the first of all is at the root. A new
event starts at the end and rises. When the root is taken, the last event goes to its place, sinks
to the end of a path, along the child that comes first, and rises again to where it belongs.

## Main definitions

* `EventHeap`: the waiting events, by position
* `EventHeap.rise`, `EventHeap.sink`: bring an event to its place
* `EventHeap.add`: add an event
* `EventHeap.takeDue`: take what is due off the root, one after the other

## Main statements

* `EventHeap.rise_perm`, `EventHeap.sink_perm`: events change their places only
* `EventHeap.add_perm`, `EventHeap.takeDueFrom_perm`: no event is lost, and none is there twice
-/

namespace Chip8

/-- Events by their positions in a binary tree. -/
structure EventHeap (α : Type) where
  size : Nat
  cells : Vector (Event α) size

namespace EventHeap

variable {α : Type} {n : Nat}

/-- The heap without events. -/
def empty : EventHeap α := ⟨0, #v[]⟩

/-- The waiting events, in the order of their positions. -/
def events (h : EventHeap α) : List (Event α) := h.cells.toList

/-- The first event of a heap. -/
def root (v : Vector (Event α) (n + 1)) : Event α := v[0]

/-! ## Rising and sinking -/

theorem parent_lt {i : Nat} (hi : i < n) : (i - 1) / 2 < n := by omega

/-- Move an event up as long as it comes before the one above. -/
def rise (v : Vector (Event α) n) (i : Nat) (hi : i < n) : Vector (Event α) n :=
  if h : 0 < i then
    if v[i].before v[(i - 1) / 2] then rise (v.swap i ((i - 1) / 2)) ((i - 1) / 2)
      (parent_lt hi) else v
  else v
termination_by i

/-- Which of the events below a position comes first. -/
def firstChild (v : Vector (Event α) n) (i : Nat) (h : 2 * i + 1 < n) : Nat :=
  if hright : 2 * i + 2 < n then
    if v[2 * i + 1].before v[2 * i + 2] then 2 * i + 1 else 2 * i + 2
  else 2 * i + 1

theorem firstChild_bounds (v : Vector (Event α) n) (i : Nat) (h : 2 * i + 1 < n) :
    i < firstChild v i h ∧ firstChild v i h < n ∧ (firstChild v i h - 1) / 2 = i := by
  rw [firstChild]
  split
  · split <;> omega
  · omega

/-- Move an event down to where nothing is below, and from there up. -/
def sink (v : Vector (Event α) n) (i : Nat) (hi : i < n) : Vector (Event α) n :=
  if h : 2 * i + 1 < n then
    have hchild := firstChild_bounds v i h
    sink (v.swap i (firstChild v i h) hi hchild.2.1) (firstChild v i h) hchild.2.1
  else rise v i hi
termination_by n - i
decreasing_by omega

/-! ## The operations -/

/-- The heap with one more event. -/
def add (h : EventHeap α) (e : Event α) : EventHeap α :=
  ⟨h.size + 1, rise (h.cells.push e) h.size (by omega)⟩

/-- The heap without its root. The last event takes its place. -/
def dropRoot (v : Vector (Event α) (n + 1)) : Vector (Event α) n :=
  let moved := (v.swap 0 n).pop
  if h : 0 < n then sink moved 0 h else moved

/-- Take events off the root as long as they are due. What is left comes last. -/
def takeDueFrom (clock : Int) : {n : Nat} → Vector (Event α) n → List (Event α) × EventHeap α
  | 0, v => ([], ⟨0, v⟩)
  | n + 1, v =>
    if (root v).clock ≤ clock then
      let (due, rest) := takeDueFrom clock (dropRoot v)
      (root v :: due, rest)
    else ([], ⟨n + 1, v⟩)

theorem takeDueFrom_of_due {clock : Int} {v : Vector (Event α) (n + 1)}
    (hdue : (root v).clock ≤ clock) :
    takeDueFrom clock v = (root v :: (takeDueFrom clock (dropRoot v)).1,
      (takeDueFrom clock (dropRoot v)).2) := by
  rw [takeDueFrom, if_pos hdue]

theorem takeDueFrom_of_late {clock : Int} {v : Vector (Event α) (n + 1)}
    (hlate : ¬(root v).clock ≤ clock) :
    takeDueFrom clock v = ([], ⟨n + 1, v⟩) := by
  rw [takeDueFrom, if_neg hlate]

/-- The events up to a clock, in order, and the heap without them. -/
def takeDue (h : EventHeap α) (clock : Int) : List (Event α) × EventHeap α :=
  takeDueFrom clock h.cells

/-! ## Nothing is lost -/

theorem rise_perm (v : Vector (Event α) n) (i : Nat) (hi : i < n) : (rise v i hi).Perm v := by
  fun_induction rise v i hi with
  | case1 v i hi h hbefore ih => exact ih.trans (Vector.swap_perm hi (by omega))
  | case2 => exact .rfl
  | case3 => exact .rfl

theorem sink_perm (v : Vector (Event α) n) (i : Nat) (hi : i < n) : (sink v i hi).Perm v := by
  fun_induction sink v i hi with
  | case1 v i hi h hchild ih => exact ih.trans (Vector.swap_perm hi hchild.2.1)
  | case2 v i hi h => exact rise_perm v i hi

theorem add_perm (h : EventHeap α) (e : Event α) : (h.add e).events.Perm (e :: h.events) := by
  have hrise : (h.add e).events.Perm (h.cells.push e).toList := (rise_perm _ _ _).toList
  rw [Vector.toList_push] at hrise
  exact hrise.trans List.perm_append_comm

theorem pop_swap_perm (v : Vector (Event α) (n + 1)) :
    (root v :: (v.swap 0 n).pop.toList).Perm v.toList := by
  have hback : (v.swap 0 n).back = root v := by
    rw [Vector.back_eq_getElem]
    exact Vector.getElem_swap_right (by omega) (by omega)
  have hlast : (v.swap 0 n).pop.toList ++ [root v] = (v.swap 0 n).toList := by
    rw [← hback, ← Vector.toList_push, Vector.push_pop_back]
  have hswap : (v.swap 0 n).toList.Perm v.toList := (Vector.swap_perm (by omega) (by omega)).toList
  rw [← hlast] at hswap
  exact List.perm_append_comm.trans hswap

theorem dropRoot_perm (v : Vector (Event α) (n + 1)) :
    (root v :: (dropRoot v).toList).Perm v.toList := by
  rw [dropRoot]
  split
  next h => exact ((sink_perm _ 0 h).toList.cons _).trans (pop_swap_perm v)
  next => exact pop_swap_perm v

theorem takeDueFrom_perm (clock : Int) (v : Vector (Event α) n) :
    ((takeDueFrom clock v).1 ++ (takeDueFrom clock v).2.events).Perm v.toList := by
  induction n with
  | zero => exact .rfl
  | succ n ih =>
    by_cases hdue : (root v).clock ≤ clock
    · rw [takeDueFrom_of_due hdue]
      exact ((ih (dropRoot v)).cons _).trans (dropRoot_perm v)
    · rw [takeDueFrom_of_late hdue]
      exact .rfl

end EventHeap

end Chip8
