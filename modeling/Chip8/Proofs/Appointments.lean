import Chip8.Bench
import Chip8.Proofs.Orderly
import Chip8.Proofs.Surroundings
import Mathlib.Data.List.Sort

/-!
# Appointments

An event of the user's own is an appointment: a label, and the clock at which it is due. Those that
wait can be read off the queue, and those that were kept off the marks in the journal, each with the
clock at which it was. In what order appointments are due is a matter of sorting: by clock, and
those of the same clock as they were made.

The queue sorts them. An event has a later number than all that wait, so it is put behind those of
its clock.

## Main definitions

* `Appointment`: a label at a clock
* `World.happened`, `Host.waiting`: the appointments that were kept, and those that wait
* `Appointment.inOrder`: appointments in the order in which they are due
* `Plant.Discreet`: a plant that leaves the appointments alone, and whose timers do not fail

## Main statements

* `Appointment.eq_inOrder`: what is sorted by clock, and has those of each clock in order, is in
  order
* `Appointment.inOrder_concat`: a new appointment comes behind those that are due no later
* `EventQueue.appointments_insertEvent`: so does an event of the latest number in a queue
* `Bench.discreet`, `Console.discreet`: benches and consoles leave the appointments alone
-/

namespace Chip8

/-- Something that is to happen, or has happened, at a clock. -/
structure Appointment where
  clock : Int
  label : String
  deriving DecidableEq, Repr

namespace Appointment

/-! ## The order in which appointments are due -/

/-- The one appointment is due no later than the other. -/
def NoLater (a b : Appointment) : Prop := a.clock ≤ b.clock

instance : DecidableRel NoLater := fun a b => inferInstanceAs (Decidable (a.clock ≤ b.clock))

instance : IsTrans Appointment NoLater := ⟨fun _ _ _ => Int.le_trans⟩

instance : Std.Total NoLater := ⟨fun a b => Int.le_total a.clock b.clock⟩

/-- Appointments in the order in which they are due. Those of the same clock stay in the order
given. -/
def inOrder (as : List Appointment) : List Appointment := as.insertionSort NoLater

variable {a : Appointment} {as bs : List Appointment}

theorem inOrder_nil : inOrder [] = [] := rfl

theorem pairwise_inOrder (as : List Appointment) : (inOrder as).Pairwise (·.clock ≤ ·.clock) :=
  List.pairwise_insertionSort NoLater as

theorem perm_inOrder (as : List Appointment) : (inOrder as).Perm as :=
  List.perm_insertionSort NoLater as

theorem filter_inOrder (as : List Appointment) (clock : Int) :
    (inOrder as).filter (·.clock = clock) = as.filter (·.clock = clock) := by
  have hsame : (as.filter (·.clock = clock)).Pairwise NoLater := by
    refine List.pairwise_of_forall_mem_list fun a ha b hb => ?_
    have hac := of_decide_eq_true (List.mem_filter.1 ha).2
    have hbc := of_decide_eq_true (List.mem_filter.1 hb).2
    exact Int.le_of_eq (hac.trans hbc.symm)
  have hsub : (as.filter (·.clock = clock)).Sublist (inOrder as) :=
    List.sublist_insertionSort hsame List.filter_sublist
  have hlength : (as.filter (·.clock = clock)).length =
      ((inOrder as).filter (·.clock = clock)).length :=
    ((perm_inOrder as).filter _).length_eq.symm
  have hfiltered := hsub.filter (·.clock = clock)
  rw [List.filter_filter] at hfiltered
  simp only [Bool.and_self] at hfiltered
  exact (hfiltered.eq_of_length hlength).symm

/-- Two lists in the order of clock are the same if they are for each clock. -/
theorem eq_of_filter_eq (has : as.Pairwise (·.clock ≤ ·.clock))
    (hbs : bs.Pairwise (·.clock ≤ ·.clock))
    (h : ∀ clock, as.filter (·.clock = clock) = bs.filter (·.clock = clock)) : as = bs := by
  induction as generalizing bs with
  | nil =>
    cases bs with
    | nil => rfl
    | cons b bs =>
      have hb := h b.clock
      simp at hb
  | cons a as ih =>
    have hmem : a ∈ bs.filter (·.clock = a.clock) := by
      rw [← h]
      exact List.mem_filter.2 ⟨List.mem_cons_self, decide_eq_true rfl⟩
    cases bs with
    | nil => cases hmem
    | cons b bs =>
      have hmem' : b ∈ (a :: as).filter (·.clock = b.clock) := by
        rw [h]
        exact List.mem_filter.2 ⟨List.mem_cons_self, decide_eq_true rfl⟩
      obtain ⟨ha, has'⟩ := List.pairwise_cons.1 has
      obtain ⟨hb, hbs'⟩ := List.pairwise_cons.1 hbs
      -- Both heads are of the earliest clock.
      have hclock : a.clock = b.clock := by
        have hba : b.clock ≤ a.clock := by
          rcases List.mem_cons.1 (List.mem_filter.1 hmem).1 with rfl | hin
          · exact Int.le_refl _
          · exact hb a hin
        have hab : a.clock ≤ b.clock := by
          rcases List.mem_cons.1 (List.mem_filter.1 hmem').1 with rfl | hin
          · exact Int.le_refl _
          · exact ha b hin
        omega
      have hhead := h b.clock
      simp only [List.filter_cons, hclock, decide_true, if_true] at hhead
      obtain ⟨rfl, htail⟩ := List.cons.inj hhead
      refine congrArg (a :: ·) (ih has' hbs' fun clock => ?_)
      by_cases hsame : a.clock = clock
      · rw [← hsame]
        exact htail
      · have hothers := h clock
        simpa only [List.filter_cons, hsame, decide_false, Bool.false_eq_true, if_false]
          using hothers

/-- What is sorted by clock, and has the appointments of each clock in the order given, is in
order. -/
theorem eq_inOrder (hbs : bs.Pairwise (·.clock ≤ ·.clock))
    (h : ∀ clock, bs.filter (·.clock = clock) = as.filter (·.clock = clock)) : bs = inOrder as :=
  eq_of_filter_eq hbs (pairwise_inOrder as)
    fun clock => (h clock).trans (filter_inOrder as clock).symm

theorem inOrder_of_pairwise (has : as.Pairwise (·.clock ≤ ·.clock)) : inOrder as = as :=
  (eq_inOrder has fun _ => rfl).symm

/-- The appointment behind those that are due no later. -/
def filed (a : Appointment) (as : List Appointment) : List Appointment :=
  as.filter (·.clock ≤ a.clock) ++ a :: as.filter (a.clock < ·.clock)

theorem pairwise_filed (has : as.Pairwise (·.clock ≤ ·.clock)) :
    (filed a as).Pairwise (·.clock ≤ ·.clock) := by
  refine List.pairwise_append.2 ⟨has.filter _, List.pairwise_cons.2 ⟨?_, has.filter _⟩, ?_⟩
  · intro b hb
    have hlater := of_decide_eq_true (List.mem_filter.1 hb).2
    omega
  · intro b hb c hc
    have hearly := of_decide_eq_true (List.mem_filter.1 hb).2
    rcases List.mem_cons.1 hc with rfl | hc
    · exact hearly
    · have hlater := of_decide_eq_true (List.mem_filter.1 hc).2
      omega

/-- Of its own clock, the appointment is the last one. -/
theorem filter_filed (a : Appointment) (as : List Appointment) (clock : Int) :
    (filed a as).filter (·.clock = clock) = (as ++ [a]).filter (·.clock = clock) := by
  simp only [filed, List.filter_append, List.filter_cons, List.filter_filter, List.filter_nil]
  by_cases hearly : clock ≤ a.clock
  · have hfirst : (as.filter fun b => decide (b.clock = clock) && decide (b.clock ≤ a.clock)) =
        as.filter (·.clock = clock) := by
      refine List.filter_congr fun b _ => ?_
      by_cases hb : b.clock = clock <;> simp [hb, hearly]
    have hrest : (as.filter fun b => decide (b.clock = clock) && decide (a.clock < b.clock)) =
        [] := by
      refine List.filter_eq_nil_iff.2 fun b _ hb => ?_
      simp only [Bool.and_eq_true, decide_eq_true_eq] at hb
      omega
    rw [hfirst, hrest]
  · have hother : ¬a.clock = clock := by omega
    have hfirst : (as.filter fun b => decide (b.clock = clock) && decide (b.clock ≤ a.clock)) =
        [] := by
      refine List.filter_eq_nil_iff.2 fun b _ hb => ?_
      simp only [Bool.and_eq_true, decide_eq_true_eq] at hb
      omega
    have hrest : (as.filter fun b => decide (b.clock = clock) && decide (a.clock < b.clock)) =
        as.filter (·.clock = clock) := by
      refine List.filter_congr fun b _ => ?_
      by_cases hb : b.clock = clock <;> simp [hb]
      omega
    simp [hfirst, hrest, hother]

/-- **A new appointment** comes behind those that are due no later. -/
theorem inOrder_concat (as : List Appointment) (a : Appointment) :
    inOrder (as ++ [a]) = filed a (inOrder as) := by
  refine (eq_inOrder (pairwise_filed (pairwise_inOrder as)) fun clock => ?_).symm
  rw [filter_filed, List.filter_append, List.filter_append, filter_inOrder]

/-- Where some appointments are due no later than a new one and the others later, it comes between
them. -/
theorem filed_append (hearly : ∀ b ∈ as, b.clock ≤ a.clock) :
    filed a (as ++ bs) = as ++ filed a bs := by
  have hfirst : as.filter (·.clock ≤ a.clock) = as :=
    List.filter_eq_self.2 fun b hb => decide_eq_true (hearly b hb)
  have hrest : as.filter (a.clock < ·.clock) = [] := by
    refine List.filter_eq_nil_iff.2 fun b hb hlater => ?_
    have hle := hearly b hb
    have hlt := of_decide_eq_true hlater
    omega
  simp only [filed, List.filter_append, hfirst, hrest, List.append_assoc, List.nil_append]

theorem filed_of_later (hlater : ∀ b ∈ as, a.clock < b.clock) : filed a as = a :: as := by
  have hfirst : as.filter (·.clock ≤ a.clock) = [] := by
    refine List.filter_eq_nil_iff.2 fun b hb hearly => ?_
    have hlt := hlater b hb
    have hle := of_decide_eq_true hearly
    omega
  have hrest : as.filter (a.clock < ·.clock) = as :=
    List.filter_eq_self.2 fun b hb => decide_eq_true (hlater b hb)
  rw [filed, hfirst, hrest, List.nil_append]

end Appointment

variable {σ Op : Type}

/-! ## Appointments in the queue -/

namespace Event

/-- The appointment that an event stands for, if it is one of the user's own. -/
def appointment? (e : Event (Task Op)) : Option Appointment :=
  match e.payload with
  | .script label _ => some ⟨e.clock, label⟩
  | _ => none

theorem clock_of_appointment {e : Event (Task Op)} {a : Appointment} (h : e.appointment? = some a) :
    a.clock = e.clock := by
  obtain ⟨clock, order, payload⟩ := e
  cases payload with
  | script label script =>
    cases h
    rfl
  | _ => cases h

end Event

namespace EventQueue

open Appointment (filed)

/-- The appointments among events, in the order of the events. -/
def appointments (es : List (Event (Task Op))) : List Appointment := es.filterMap Event.appointment?

variable {e : Event (Task Op)} {es : List (Event (Task Op))} {a : Appointment}

theorem mem_appointments : a ∈ appointments es ↔ ∃ e ∈ es, e.appointment? = some a :=
  List.mem_filterMap

theorem pairwise_appointments (hes : es.Pairwise (·.clock ≤ ·.clock)) :
    (appointments es).Pairwise (·.clock ≤ ·.clock) := by
  refine List.pairwise_filterMap.2 (hes.imp fun {e f} hef a ha b hb => ?_)
  rw [Event.clock_of_appointment ha, Event.clock_of_appointment hb]
  exact hef

theorem appointments_insertEvent_of_none (he : e.appointment? = none) :
    appointments (insertEvent e es) = appointments es := by
  induction es with
  | nil => exact List.filterMap_cons_none he
  | cons f fs ih =>
    rw [insertEvent]
    split
    · exact List.filterMap_cons_none he
    · cases hf : f.appointment? with
      | none => rw [appointments, appointments, List.filterMap_cons_none hf,
        List.filterMap_cons_none hf]; exact ih
      | some b =>
        rw [appointments, appointments, List.filterMap_cons_some hf, List.filterMap_cons_some hf]
        exact congrArg (b :: ·) ih

/-- **An event of the latest number** is put behind those that are due no later. -/
theorem appointments_insertEvent (he : e.appointment? = some a)
    (hes : es.Pairwise (·.clock ≤ ·.clock)) (hnumbers : ∀ f ∈ es, f.order < e.order) :
    appointments (insertEvent e es) = filed a (appointments es) := by
  have hclock := Event.clock_of_appointment he
  induction es with
  | nil => exact List.filterMap_cons_some he
  | cons f fs ih =>
    obtain ⟨hf, hfs⟩ := List.pairwise_cons.1 hes
    have hnumber := hnumbers f List.mem_cons_self
    rw [insertEvent]
    split
    next hbefore =>
      -- The event is earlier than the first one, and so than all.
      have hearly : e.clock < f.clock := by
        simp only [Event.before, Bool.or_eq_true, Bool.and_eq_true, decide_eq_true_eq,
          beq_iff_eq] at hbefore
        omega
      have hlater : ∀ b ∈ appointments (f :: fs), a.clock < b.clock := by
        intro b hb
        obtain ⟨g, hg, hb⟩ := mem_appointments.1 hb
        rw [hclock, Event.clock_of_appointment hb]
        rcases List.mem_cons.1 hg with rfl | hg
        · exact hearly
        · exact Int.lt_of_lt_of_le hearly (hf g hg)
      rw [Appointment.filed_of_later hlater]
      exact List.filterMap_cons_some he
    next hbefore =>
      have hle : f.clock ≤ e.clock := by
        simp only [Event.before, Bool.or_eq_true, Bool.and_eq_true, decide_eq_true_eq,
          beq_iff_eq, not_or, not_and] at hbefore
        omega
      have hrest := ih hfs fun g hg => hnumbers g (List.mem_cons_of_mem f hg)
      cases hb : f.appointment? with
      | none => rw [appointments, appointments, List.filterMap_cons_none hb,
        List.filterMap_cons_none hb]; exact hrest
      | some b =>
        have hearly : ∀ c ∈ [b], c.clock ≤ a.clock := by
          intro c hc
          rw [List.mem_singleton.1 hc, hclock, Event.clock_of_appointment hb]
          exact hle
        rw [appointments, appointments, List.filterMap_cons_some hb, List.filterMap_cons_some hb]
        exact (congrArg (b :: ·) hrest).trans (Appointment.filed_append hearly).symm

end EventQueue

/-! ## Appointments in the journal -/

/-- The appointment that an entry of the journal stands for, if it is the mark of one. -/
def Entry.appointment? : Entry → Option Appointment
  | .mark (.event label clock) => some ⟨clock, label⟩
  | _ => none

namespace World

/-- The appointments that were kept, in order, with the clocks at which they were. -/
def happened (w : World) : List Appointment := w.journal.toList.filterMap Entry.appointment?

theorem happened_record (w : World) (e : Entry) :
    (w.record e).happened = w.happened ++ (Entry.appointment? e).toList := by
  simp only [happened, record, Array.toList_push, List.filterMap_append]
  cases he : e.appointment? with
  | none => rw [List.filterMap_cons_none he]; rfl
  | some a => rw [List.filterMap_cons_some he]; rfl

theorem happened_record_of_none {e : Entry} (he : e.appointment? = none) (w : World) :
    (w.record e).happened = w.happened := by
  rw [happened_record, he]
  exact List.append_nil _

end World

namespace Host

/-- The appointments that wait in the queue, in the order in which they are due. -/
def waiting (h : Host σ Op) : List Appointment := EventQueue.appointments h.queue.events

/-- Where nothing is due, all that waits is for later. -/
theorem lt_of_mem_waiting {h : Host σ Op} (hlate : h.queue.Late h.clock) {a : Appointment}
    (ha : a ∈ h.waiting) :
    h.clock < a.clock := by
  obtain ⟨e, he, ha⟩ := EventQueue.mem_appointments.1 ha
  rw [Event.clock_of_appointment ha]
  exact hlate e he

end Host

/-! ## Plants that leave the appointments alone -/

/-- The plant has an invariant, wants nothing done, and leaves no mark of an appointment. Its timers
do not fail. -/
structure Plant.Discreet [Plant σ Op] (I : σ → Prop) : Prop where
  quiet : ∀ past, Plant.Quiet (fun s : σ × World => I s.1 ∧ s.2.happened = past)
  timers : ∀ clock s, I s.1 → ∃ result t,
    (Plant.updateTimers clock : PlantM σ (TimerResult Op)) s = .ok result t
  reset : ∀ past, Chip8.Keeps (fun s => I s.1 ∧ s.2.happened = past) (Plant.reset : PlantM σ Unit)
  operate : ∀ past op, Chip8.Keeps (fun s => I s.1 ∧ s.2.happened = past)
    (Plant.operate op : PlantM σ Reply)

theorem Plant.Discreet.undemanding [Plant σ Op] {I : σ → Prop} (hdiscreet : Plant.Discreet I) :
    Plant.Undemanding I where
  quiet := {
    cycle := by
      intro s hs
      exact (((hdiscreet.quiet s.2.happened).cycle).consequence (fun _ ht => ht)
        (fun _ _ ht => ⟨ht.1.1, ht.2⟩) (fun _ _ ht => ht.1)) s ⟨hs, rfl⟩
    updateTimers := by
      intro clock s hs
      exact (((hdiscreet.quiet s.2.happened).updateTimers clock).consequence (fun _ ht => ht)
        (fun _ _ ht => ⟨ht.1.1, ht.2⟩) (fun _ _ ht => ht.1)) s ⟨hs, rfl⟩
    tell := by
      intro s name clock hs
      exact ((hdiscreet.quiet s.2.happened).tell s name clock ⟨hs, rfl⟩).1 }
  reset := by
    intro s hs
    exact ((hdiscreet.reset s.2.happened).consequence (fun _ ht => ht) (fun _ _ ht => ht.1)
      (fun _ _ ht => ht.1)) s ⟨hs, rfl⟩
  operate op := by
    intro s hs
    exact ((hdiscreet.operate s.2.happened op).consequence (fun _ ht => ht) (fun _ _ ht => ht.1)
      (fun _ _ ht => ht.1)) s ⟨hs, rfl⟩

theorem Bench.happened_resetMarks (b : Bench) (w : World) :
    (b.resetMarks.foldl (fun w m => w.record (.mark m)) w).happened = w.happened := by
  have hmarks : ∀ m ∈ b.resetMarks, Entry.appointment? (.mark m) = none := by
    intro m hm
    rcases List.mem_append.1 hm with hm | hm
    · split at hm
      · rw [List.mem_singleton.1 hm]
        rfl
      · cases hm
    · obtain ⟨device, -, rfl⟩ := List.mem_map.1 hm
      rfl
  generalize b.resetMarks = marks at hmarks ⊢
  induction marks generalizing w with
  | nil => rfl
  | cons m ms ih =>
    rw [List.foldl_cons, ih _ fun n hn => hmarks n (List.mem_cons_of_mem m hn)]
    exact World.happened_record_of_none (hmarks m List.mem_cons_self) w

/-- A bench on which nothing is to be done at any count leaves the appointments alone. -/
theorem Bench.discreet : Plant.Discreet fun b : Bench => b.onCycle = [] ∧ b.onTimer = [] where
  quiet past := {
    cycle := by
      rintro ⟨b, w⟩ ⟨⟨hcycle, htimer⟩, hpast⟩
      simp only [Plant.cycle, run_modifyGet, Bench.cycle]
      have hnothing : (b.onCycle.lookup (b.cycles + 1)).getD [] = [] := by rw [hcycle]; rfl
      by_cases habsent : b.processor = .absent
      · simp only [habsent, if_true]
        exact ⟨⟨⟨hcycle, htimer⟩, hpast⟩, trivial⟩
      · simp only [habsent, if_false]
        exact ⟨⟨⟨hcycle, htimer⟩, hpast⟩, hnothing⟩
    updateTimers := by
      rintro clock ⟨b, w⟩ ⟨⟨hcycle, htimer⟩, hpast⟩
      have hnothing : (b.onTimer.lookup (b.timerTicks + 1)).getD [] = [] := by rw [htimer]; rfl
      exact ⟨⟨⟨hcycle, htimer⟩, (World.happened_record_of_none rfl w).trans hpast⟩, hnothing⟩
    tell := fun s name clock hs => ⟨hs.1, (World.happened_record_of_none rfl _).trans hs.2⟩ }
  timers clock s _ := ⟨_, _, rfl⟩
  reset past := .modify fun s hs => ⟨hs.1, (happened_resetMarks s.1 s.2).trans hs.2⟩
  operate past op := nomatch op

theorem World.lasting_happened (past : List Appointment) : World.Lasting (·.happened = past) where
  notice w _ hw := (happened_record_of_none rfl w).trans hw
  call w _ _ hw := (happened_record_of_none rfl w).trans hw
  equip _ _ hw := hw

theorem Console.discreet : Plant.Discreet fun _ : Console => True where
  quiet past := by
    have hquiet := (World.lasting_happened past).quiet
      fun w _ _ hw => (World.happened_record_of_none rfl w).trans hw
    simpa only [true_and] using hquiet
  timers clock := by
    rintro ⟨c, w⟩ -
    simp only [Plant.updateTimers, run_bind, updateTimers_eq]
    exact ⟨_, _, rfl⟩
  reset past := .modify fun _ hs => hs
  operate past op := by
    have hkeeps : Keeps (fun s => s.2.happened = past) (Plant.operate op : PlantM Console Reply) :=
      (World.lasting_happened past).operate op
    simpa only [true_and] using hkeeps

end Chip8
