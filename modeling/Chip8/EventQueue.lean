/-!
# Event queues

Events wait for their clock. The queue keeps them in ascending order of clock and, at the same
clock, of a second number that tells them apart; what is due is taken off the front.

## Main definitions

* `Event.before`: one event comes before another
* `EventQueue`: the waiting events, in order
* `EventQueue.insert`: add an event
* `EventQueue.due`, `EventQueue.later`: the events up to a clock, and the others

## Main statements

* `Event.before_of_not_before`: of two events with different keys one comes before the other
* `EventQueue.mem_insertEvent`: an insertion adds the event and keeps the others
* `EventQueue.due_append_later`: taking what is due loses nothing and keeps the order
-/

namespace Chip8

/-- Something to happen at a clock. -/
structure Event (α : Type) where
  clock : Int
  /-- Decides between events of the same clock. -/
  order : Int
  payload : α

namespace Event

variable {α : Type} {e f g : Event α}

/-- What decides the order of events. -/
def key (e : Event α) : Int × Int := (e.clock, e.order)

/-- Whether an event comes before another. -/
def before (e f : Event α) : Bool := e.clock < f.clock || (e.clock == f.clock && e.order < f.order)

theorem before_iff : e.before f ↔ e.clock < f.clock ∨ e.clock = f.clock ∧ e.order < f.order := by
  simp [before]

theorem before_irrefl (e : Event α) : ¬e.before e := by
  rw [before_iff]
  omega

theorem before_asymm (h : e.before f) : ¬f.before e := by
  rw [before_iff] at *
  omega

theorem not_before_trans (hef : ¬f.before e) (hfg : ¬g.before f) : ¬g.before e := by
  rw [before_iff] at *
  omega

/-- Of two events with different keys one comes before the other. -/
theorem before_of_not_before (h : ¬f.before e) (hkey : e.key ≠ f.key) : e.before f := by
  rw [before_iff] at *
  simp only [key, ne_eq, Prod.mk.injEq] at hkey
  omega

end Event

/-- Events in the order in which they come due. -/
structure EventQueue (α : Type) where
  events : List (Event α) := []

namespace EventQueue

variable {α : Type}

/-- The queue without events. -/
def empty : EventQueue α := ⟨[]⟩

/-- An ordered list of events with one more in its place. -/
def insertEvent (e : Event α) : List (Event α) → List (Event α)
  | [] => [e]
  | f :: fs => if e.before f then e :: f :: fs else f :: insertEvent e fs

/-- The queue with one more event. -/
def insert (q : EventQueue α) (e : Event α) : EventQueue α := ⟨insertEvent e q.events⟩

/-- The events up to a clock, in order. -/
def due (q : EventQueue α) (clock : Int) : List (Event α) := q.events.takeWhile (·.clock ≤ clock)

/-- The queue without the events up to a clock. -/
def later (q : EventQueue α) (clock : Int) : EventQueue α := ⟨q.events.dropWhile (·.clock ≤ clock)⟩

theorem insertEvent_perm (e : Event α) (es : List (Event α)) :
    (insertEvent e es).Perm (e :: es) := by
  induction es with
  | nil => exact .refl _
  | cons g gs ih =>
    rw [insertEvent]
    split
    · exact .refl _
    · exact (ih.cons g).trans (.swap e g gs)

/-- An insertion adds the event and keeps the others. -/
theorem mem_insertEvent {e f : Event α} {es : List (Event α)} :
    f ∈ insertEvent e es ↔ f = e ∨ f ∈ es :=
  (insertEvent_perm e es).mem_iff.trans List.mem_cons

/-- Taking what is due loses nothing and keeps the order. -/
theorem due_append_later (q : EventQueue α) (clock : Int) :
    q.due clock ++ (q.later clock).events = q.events :=
  List.takeWhile_append_dropWhile

/-- Nothing is taken before it is due. -/
theorem clock_le_of_mem_due {q : EventQueue α} {clock : Int} {e : Event α} (h : e ∈ q.due clock) :
    e.clock ≤ clock := by
  have all := List.all_takeWhile (p := fun e => decide (e.clock ≤ clock)) (l := q.events)
  exact of_decide_eq_true (List.all_eq_true.1 all e h)

end EventQueue

end Chip8
