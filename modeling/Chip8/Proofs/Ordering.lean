import Chip8.Proofs.Scheduling

/-!
# The order of events

Events are kept in the order of their clocks. So what is left when the events that are due were
taken off the front is not due.

A host that is left alone has nothing due in its queue. What is put into the queue for later leaves
it so, and so does the step of the clock that takes off what has come due.

## Main definitions

* `EventQueue.Ordered`: the events are in ascending order of clock
* `Host.UpToDate`: nothing in the queue of the host is due

## Main statements

* `EventQueue.Ordered.insert`, `EventQueue.Ordered.later`: the queue stays in order
* `EventQueue.Ordered.late_later`: nothing that is left is due
* `Host.UpToDate.enqueue`, `Host.UpToDate.step`: a host stays up to date
-/

namespace Chip8.EventQueue

variable {α : Type} {q : EventQueue α}

/-- The events are in ascending order of clock. -/
def Ordered (q : EventQueue α) : Prop := q.events.Pairwise (·.clock ≤ ·.clock)

theorem ordered_empty : (empty : EventQueue α).Ordered := List.Pairwise.nil

theorem late_empty (clock : Int) : (empty : EventQueue α).Late clock := fun _ he => nomatch he

/-- An insertion keeps every order that agrees with which event comes before which. -/
theorem pairwise_insertEvent {R : Event α → Event α → Prop} (hbefore : ∀ e f, e.before f → R e f)
    (hnot : ∀ e f, ¬e.before f → R f e) (htrans : ∀ e f g, R e f → R f g → R e g) (e : Event α)
    {es : List (Event α)} (h : es.Pairwise R) : (insertEvent e es).Pairwise R := by
  induction es with
  | nil => exact List.pairwise_singleton _ _
  | cons f fs ih =>
    obtain ⟨hf, hfs⟩ := List.pairwise_cons.1 h
    rw [insertEvent]
    split
    next hef =>
      refine List.pairwise_cons.2 ⟨?_, h⟩
      intro g hg
      rcases List.mem_cons.1 hg with rfl | hg
      · exact hbefore e g hef
      · exact htrans e f g (hbefore e f hef) (hf g hg)
    next hef =>
      refine List.pairwise_cons.2 ⟨?_, ih hfs⟩
      intro g hg
      rcases mem_insertEvent.1 hg with rfl | hg
      · exact hnot g f hef
      · exact hf g hg

theorem Ordered.insert (h : q.Ordered) (e : Event α) : (q.insert e).Ordered := by
  have hbefore : ∀ f g : Event α, f.before g → f.clock ≤ g.clock := by
    intro f g hfg
    rw [Event.before_iff] at hfg
    omega
  have hnot : ∀ f g : Event α, ¬f.before g → g.clock ≤ f.clock := by
    intro f g hfg
    rw [Event.before_iff] at hfg
    omega
  exact pairwise_insertEvent hbefore hnot (fun _ _ _ => Int.le_trans) e h

theorem Ordered.later (h : q.Ordered) (clock : Int) : (q.later clock).Ordered :=
  h.sublist (List.dropWhile_sublist _)

/-- When the events that are due were taken, nothing that is left is due. -/
theorem Ordered.late_later (h : q.Ordered) (clock : Int) : (q.later clock).Late clock := by
  obtain ⟨events⟩ := q
  induction events with
  | nil => exact fun e he => nomatch he
  | cons f fs ih =>
    obtain ⟨hf, hfs⟩ := List.pairwise_cons.1 h
    by_cases hdue : f.clock ≤ clock
    · have hlater : EventQueue.later ⟨f :: fs⟩ clock = EventQueue.later ⟨fs⟩ clock := by
        simp [EventQueue.later, hdue]
      rw [hlater]
      exact ih hfs
    · have hlater : EventQueue.later ⟨f :: fs⟩ clock = ⟨f :: fs⟩ := by
        simp [EventQueue.later, hdue]
      rw [hlater]
      intro e he
      rcases List.mem_cons.1 he with rfl | he
      · omega
      · have hfe := hf e he
        omega

theorem Late.insert_late {clock : Int} (h : q.Late clock) {e : Event α} (he : clock < e.clock) :
    (q.insert e).Late clock := by
  intro f hf
  rcases mem_insertEvent.1 hf with rfl | hf
  · exact he
  · exact h f hf

/-! ## Events of a kind -/

section

variable {p : Event α → Bool} {e : Event α} {es : List (Event α)}

theorem filter_insertEvent_of_neg (he : ¬p e = true) :
    (insertEvent e es).filter p = es.filter p := by
  induction es with
  | nil => simp [insertEvent, he]
  | cons f fs ih =>
    rw [insertEvent]
    split
    next => rw [List.filter_cons_of_neg he]
    next =>
      by_cases hf : p f = true
      · rw [List.filter_cons_of_pos hf, List.filter_cons_of_pos hf, ih]
      · rw [List.filter_cons_of_neg hf, List.filter_cons_of_neg hf, ih]

/-- The first event of a kind is the only one. -/
theorem filter_insertEvent_of_pos (he : p e = true) (hes : es.filter p = []) :
    (insertEvent e es).filter p = [e] := by
  induction es with
  | nil => simp [insertEvent, he]
  | cons f fs ih =>
    have hf : ¬p f = true := List.filter_eq_nil_iff.1 hes f List.mem_cons_self
    rw [List.filter_cons_of_neg hf] at hes
    rw [insertEvent]
    split
    next => rw [List.filter_cons_of_pos he, List.filter_cons_of_neg hf, hes]
    next => rw [List.filter_cons_of_neg hf, ih hes]

end

end Chip8.EventQueue

namespace Chip8.Host

variable {σ Op : Type} {h : Host σ Op}

/-- Nothing in the queue is due, it is in order, and timer ticks are at least a cycle apart. -/
structure UpToDate (h : Host σ Op) : Prop where
  interval : 1 ≤ h.interval
  ordered : h.queue.Ordered
  late : h.queue.Late h.clock

theorem upToDate_create {plant : σ} {world : World} {frequency timerFrequency : Number}
    {maxCatchUp : Int} (hcreate : create plant world frequency timerFrequency maxCatchUp = .ok h) :
    UpToDate h := by
  obtain ⟨-, interval, anchor, hinterval, -, rfl⟩ := create_eq_ok_iff.1 hcreate
  exact {
    interval := Pacer.one_le_timerInterval hinterval
    ordered := EventQueue.ordered_empty
    late := EventQueue.late_empty _ }

namespace UpToDate

variable (hh : UpToDate h)

include hh

theorem enqueue {delay : Nat} (hdelay : 0 < delay) (task : Task Op) :
    UpToDate (finalState (Host.enqueue delay task h)) where
  interval := hh.interval
  ordered := hh.ordered.insert _
  late := hh.late.insert_late (show (h.clock : Int) < h.clock + delay by omega)

/-- When the clock moves on, what is due is taken off the queue. -/
theorem step :
    UpToDate { h with clock := h.clock + 1, queue := h.queue.later (h.clock + 1 : Nat) } where
  interval := hh.interval
  ordered := hh.ordered.later _
  late := hh.ordered.late_later _

theorem clear : UpToDate { h with queue := .empty } where
  interval := hh.interval
  ordered := EventQueue.ordered_empty
  late := EventQueue.late_empty _

/-- What is later than the clock is later than zero. -/
theorem zeroClock : UpToDate { h with clock := 0 } where
  interval := hh.interval
  ordered := hh.ordered
  late e he := by
    have hlater := hh.late e he
    show (0 : Int) < e.clock
    omega

end UpToDate

end Chip8.Host
