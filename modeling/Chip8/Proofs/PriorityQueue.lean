import Chip8.Proofs.HeapOrder
import Chip8.Proofs.Ordering
import Mathlib.Data.List.Induction
import Mathlib.Data.List.Nodup

/-!
# Queues of events

Whatever is added, taken and cleared, and in whatever order, a queue of events answers as its
history demands: at each clock that is asked for, with those events that were added and neither
taken nor cleared since then, as far as they are due, in order. All others stay. Clocks may go
forwards and backwards.

A queue can keep events in different ways. An ordered list, as hosts have it, does, and so does a
binary heap. The two cannot be told apart by their answers.

## Main definitions

* `Queueing.Operation`, `Queueing.History`: what is asked of a queue, and what it answers
* `Queueing.History.Waits`: an event was added, and neither taken nor cleared since then
* `Queueing.History.Distinct`: no event is added that could be confused with one that waits
* `Queueing.Serves`: an answer is what a history demands
* `Queueing.Implements`: what the operations of a queue do to the events that it holds

## Main statements

* `EventHeap.implements`, `EventQueue.implements`: heaps and ordered lists are queues
* `Queueing.Implements.holds`: the events that a queue holds are those that wait
* `Queueing.Implements.history_eq`: two queues have the same history
* `Queueing.served_in_order`: what is taken from a heap or an ordered list is what the history
  demands
-/

namespace Chip8

namespace Queueing

variable {α : Type} {σ τ : Type}

/-! ## Histories -/

/-- What is asked of a queue of events. -/
inductive Operation (α : Type) where
  | add (e : Event α)
  | take (clock : Int)
  | clear

/-- Operations, each with the events that were returned. -/
abbrev History (α : Type) := List (Operation α × List (Event α))

namespace History

variable {h : History α} {e f : Event α} {clock : Int} {answer : List (Event α)}

/-- The event was added, and since then it was not returned and the queue was not cleared. -/
def Waits (h : History α) (e : Event α) : Prop :=
  ∃ past since, h = past ++ (.add e, []) :: since ∧ ∀ x ∈ since, x.1 ≠ .clear ∧ e ∉ x.2

/-- Whenever an event is added, those that wait have other keys. -/
def Distinct (h : History α) : Prop :=
  ∀ past e since, h = past ++ (.add e, []) :: since → ∀ f, Waits past f → f.key ≠ e.key

theorem not_waits_nil : ¬Waits [] e := by
  rintro ⟨past, since, heq, -⟩
  cases past <;> cases heq

theorem waits_concat_iff {x : Operation α × List (Event α)} :
    Waits (h ++ [x]) e ↔ x = (.add e, []) ∨ Waits h e ∧ x.1 ≠ .clear ∧ e ∉ x.2 := by
  constructor
  · rintro ⟨past, since, heq, hsince⟩
    rcases List.eq_nil_or_concat since with rfl | ⟨since, y, rfl⟩
    · obtain ⟨-, hx⟩ := List.append_inj' heq rfl
      exact .inl (List.cons.inj hx).1
    · rw [List.concat_eq_append, ← List.cons_append, ← List.append_assoc] at heq
      obtain ⟨rfl, hy⟩ := List.append_inj' heq rfl
      obtain rfl := (List.cons.inj hy).1
      rw [List.concat_eq_append] at hsince
      exact .inr ⟨⟨past, since, rfl, fun z hz => hsince z (List.mem_append_left _ hz)⟩,
        hsince x (List.mem_append_right _ List.mem_cons_self)⟩
  · rintro (rfl | ⟨⟨past, since, rfl, hsince⟩, hx⟩)
    · exact ⟨h, [], rfl, fun _ hz => nomatch hz⟩
    · refine ⟨past, since ++ [x], by simp, fun z hz => ?_⟩
      rcases List.mem_append.1 hz with hz | hz
      · exact hsince z hz
      · obtain rfl := List.mem_singleton.1 hz
        exact hx

theorem waits_add_iff : Waits (h ++ [(.add e, [])]) f ↔ f = e ∨ Waits h f := by
  simp [waits_concat_iff, eq_comm]

theorem waits_take_iff : Waits (h ++ [(.take clock, answer)]) e ↔ Waits h e ∧ e ∉ answer := by
  simp [waits_concat_iff]

theorem not_waits_clear : ¬Waits (h ++ [(.clear, answer)]) e := by
  simp [waits_concat_iff]

theorem Distinct.init {x : Operation α × List (Event α)} (hdistinct : Distinct (h ++ [x])) :
    Distinct h := by
  intro past e since heq
  exact hdistinct past e (since ++ [x]) (by simp [heq])

theorem Distinct.fresh (hdistinct : Distinct (h ++ [(.add e, [])])) (hwaits : Waits h f) :
    f.key ≠ e.key :=
  hdistinct h e [] rfl f hwaits

/-- The keys of all events that were added. -/
def keys (h : History α) : List (Int × Int) := h.filterMap fun
  | (.add e, _) => some e.key
  | _ => none

/-- It is enough that no two events that are ever added have the same key. -/
theorem distinct_of_nodup (hkeys : h.keys.Nodup) : Distinct h := by
  rintro past e since rfl f ⟨earlier, later, rfl, -⟩ heq
  simp only [keys, List.append_assoc, List.cons_append, List.filterMap_append, List.filterMap_cons,
    heq] at hkeys
  obtain ⟨-, hkeys, -⟩ := List.nodup_append.1 hkeys
  exact (List.nodup_cons.1 hkeys).1 (List.mem_append_right _ List.mem_cons_self)

end History

/-- What a history demands at a clock: the events to be returned, and those that stay. -/
structure Serves (h : History α) (clock : Int) (ready rest : List (Event α)) : Prop where
  due : ∀ e, e ∈ ready ↔ h.Waits e ∧ e.clock ≤ clock
  ascending : ready.Pairwise (·.before ·)
  later : ∀ e, e ∈ rest ↔ h.Waits e ∧ clock < e.clock
  once : (ready ++ rest).Nodup

/-! ## Queues -/

/-- Carry out operations one after the other, and write down what is returned. -/
def record (answer : Operation α → σ → List (Event α) × σ) (start : σ) (ops : List (Operation α)) :
    History α × σ :=
  ops.foldl (fun (h, s) op => (h ++ [(op, (answer op s).1)], (answer op s).2)) ([], start)

theorem record_concat (answer : Operation α → σ → List (Event α) × σ) (start : σ)
    (ops : List (Operation α)) (op : Operation α) : record answer start (ops ++ [op]) =
      ((record answer start ops).1 ++ [(op, (answer op (record answer start ops).2).1)],
        (answer op (record answer start ops).2).2) := by
  simp [record]

/-- The events are divided into those that are due, in order, and the others. -/
structure Divides (clock : Int) (events ready rest : List (Event α)) : Prop where
  perm : (ready ++ rest).Perm events
  due : ∀ e ∈ ready, e.clock ≤ clock
  late : ∀ e ∈ rest, clock < e.clock
  ascending : ready.Pairwise fun e f => ¬f.before e

/-- As long as it is in a sound state, a queue returns nothing but events that are due, and holds
the others. -/
structure Implements (answer : Operation α → σ → List (Event α) × σ) (start : σ) (Sound : σ → Prop)
    (events : σ → List (Event α)) : Prop where
  start : Sound start ∧ events start = []
  sound : ∀ op s, Sound s → Sound (answer op s).2
  add : ∀ e s, (answer (.add e) s).1 = [] ∧ (events (answer (.add e) s).2).Perm (e :: events s)
  take : ∀ clock s, Sound s →
    Divides clock (events s) (answer (.take clock) s).1 (events (answer (.take clock) s).2)
  clear : ∀ s, (answer .clear s).1 = [] ∧ events (answer .clear s).2 = []

/-- The events are those that wait, and have different keys. -/
structure Holds (h : History α) (events : List (Event α)) : Prop where
  waits : ∀ e, e ∈ events ↔ h.Waits e
  keys : (events.map Event.key).Nodup

section

variable {h : History α} {clock : Int} {events events' ready ready' rest rest' : List (Event α)}

theorem Holds.nil (hnone : ∀ e, ¬h.Waits e) : Holds h [] where
  waits e := ⟨fun he => (List.not_mem_nil he).elim, fun he => absurd he (hnone e)⟩
  keys := List.nodup_nil

theorem Holds.add {e : Event α} (hh : Holds h events) (hfresh : ∀ f, h.Waits f → f.key ≠ e.key)
    (hperm : events'.Perm (e :: events)) : Holds (h ++ [(.add e, [])]) events' where
  waits f := by
    rw [History.waits_add_iff, ← hh.waits f, hperm.mem_iff, List.mem_cons]
  keys := by
    rw [(hperm.map Event.key).nodup_iff, List.map_cons, List.nodup_cons]
    refine ⟨fun hmem => ?_, hh.keys⟩
    obtain ⟨f, hf, heq⟩ := List.mem_map.1 hmem
    exact hfresh f ((hh.waits f).1 hf) heq

theorem Holds.keys_divided (hh : Holds h events) (hd : Divides clock events ready rest) :
    (ready.map Event.key ++ rest.map Event.key).Nodup := by
  rw [← List.map_append]
  exact (hd.perm.map Event.key).nodup_iff.2 hh.keys

/-- What the history demands is what the division of the events yields. -/
theorem Holds.serves (hh : Holds h events) (hd : Divides clock events ready rest) :
    Serves h clock ready rest where
  due e := by
    rw [← hh.waits, ← hd.perm.mem_iff, List.mem_append]
    constructor
    · exact fun he => ⟨.inl he, hd.due e he⟩
    · rintro ⟨he | he, hdue⟩
      · exact he
      · have hlate := hd.late e he
        omega
  ascending := by
    have hready : ready.Pairwise fun e f => e.key ≠ f.key :=
      List.pairwise_map.1 (List.nodup_append.1 (hh.keys_divided hd)).1
    exact (hd.ascending.and hready).imp fun hef => Event.before_of_not_before hef.1 hef.2
  later e := by
    rw [← hh.waits, ← hd.perm.mem_iff, List.mem_append]
    constructor
    · exact fun he => ⟨.inr he, hd.late e he⟩
    · rintro ⟨he | he, hlate⟩
      · have hdue := hd.due e he
        omega
      · exact he
  once := hd.perm.nodup_iff.2 (List.Nodup.of_map _ hh.keys)

theorem Holds.take (hh : Holds h events) (hd : Divides clock events ready rest) :
    Holds (h ++ [(.take clock, ready)]) rest where
  waits e := by
    have hserves := hh.serves hd
    rw [History.waits_take_iff, hserves.later, hserves.due, not_and]
    refine and_congr_right fun hwaits => ⟨fun hlate _ => by omega, fun hdue => ?_⟩
    have hlate := hdue hwaits
    omega
  keys := (List.nodup_append.1 (hh.keys_divided hd)).2.1

/-- There is only one way to serve. -/
theorem Serves.unique (hr : Serves h clock ready rest) (hr' : Serves h clock ready' rest') :
    ready = ready' := by
  have hperm : ready.Perm ready' :=
    (List.perm_ext_iff_of_nodup (List.nodup_append.1 hr.once).1
      (List.nodup_append.1 hr'.once).1).2 fun e => (hr.due e).trans (hr'.due e).symm
  exact hperm.eq_of_pairwise (fun e f _ _ hef hfe => absurd hfe (Event.before_asymm hef))
    hr.ascending hr'.ascending

end

namespace Implements

variable {answer : Operation α → σ → List (Event α) × σ} {start : σ} {Sound : σ → Prop}
  {events : σ → List (Event α)} {answer' : Operation α → τ → List (Event α) × τ} {start' : τ}
  {Sound' : τ → Prop} {events' : τ → List (Event α)}

theorem sound_record (hq : Implements answer start Sound events) (ops : List (Operation α)) :
    Sound (record answer start ops).2 := by
  induction ops using List.reverseRecOn with
  | nil => exact hq.start.1
  | append_singleton ops op ih =>
    rw [record_concat]
    exact hq.sound op _ ih

/-- One operation. -/
theorem holds_answer (hq : Implements answer start Sound events) {h : History α} {s : σ}
    (hs : Sound s) (hh : Holds h (events s)) (op : Operation α)
    (hdistinct : History.Distinct (h ++ [(op, (answer op s).1)])) :
    Holds (h ++ [(op, (answer op s).1)]) (events (answer op s).2) := by
  cases op with
  | add e =>
    obtain ⟨hnone, hperm⟩ := hq.add e s
    rw [hnone] at hdistinct ⊢
    exact hh.add (fun f => hdistinct.fresh) hperm
  | take clock => exact hh.take (hq.take clock s hs)
  | clear =>
    obtain ⟨hnone, hempty⟩ := hq.clear s
    rw [hnone, hempty]
    exact .nil fun _ => History.not_waits_clear

/-- **A queue holds what waits.** -/
theorem holds (hq : Implements answer start Sound events) (ops : List (Operation α))
    (hdistinct : (record answer start ops).1.Distinct) :
    Holds (record answer start ops).1 (events (record answer start ops).2) := by
  induction ops using List.reverseRecOn with
  | nil =>
    have hempty : events (record answer start []).2 = [] := hq.start.2
    rw [hempty]
    exact .nil fun _ => History.not_waits_nil
  | append_singleton ops op ih =>
    rw [record_concat] at hdistinct ⊢
    exact hq.holds_answer (hq.sound_record ops) (ih hdistinct.init) op hdistinct

theorem serves (hq : Implements answer start Sound events) (ops : List (Operation α))
    (hdistinct : (record answer start ops).1.Distinct) (clock : Int) :
    Serves (record answer start ops).1 clock (answer (.take clock) (record answer start ops).2).1
      (events (answer (.take clock) (record answer start ops).2).2) :=
  (hq.holds ops hdistinct).serves (hq.take clock _ (hq.sound_record ops))

/-- **Two queues have the same history.** -/
theorem history_eq (hq : Implements answer start Sound events)
    (hq' : Implements answer' start' Sound' events') (ops : List (Operation α))
    (hdistinct : (record answer start ops).1.Distinct) :
    (record answer' start' ops).1 = (record answer start ops).1 := by
  induction ops using List.reverseRecOn with
  | nil => rfl
  | append_singleton ops op ih =>
    rw [record_concat] at hdistinct ⊢
    rw [record_concat]
    have hinit := hdistinct.init
    have hsame := ih hinit
    have hanswer : (answer' op (record answer' start' ops).2).1 =
        (answer op (record answer start ops).2).1 := by
      cases op with
      | add e => rw [(hq.add e _).1, (hq'.add e _).1]
      | take clock =>
        have hserves' := hq'.serves ops (hsame ▸ hinit) clock
        rw [hsame] at hserves'
        exact hserves'.unique (hq.serves ops hinit clock)
      | clear => rw [(hq.clear _).1, (hq'.clear _).1]
    rw [hsame, hanswer]

end Implements

end Queueing

/-! ## Heaps and ordered lists -/

open Queueing (Operation History Implements record)

variable {α : Type}

namespace EventHeap

/-- What a heap does at an operation. -/
def answer : Operation α → EventHeap α → List (Event α) × EventHeap α
  | .add e, h => ([], h.add e)
  | .take clock, h => h.takeDue clock
  | .clear, _ => ([], .empty)

/-- The history of a new heap, and what the heap is at its end. -/
def run (ops : List (Operation α)) : History α × EventHeap α := record answer empty ops

theorem implements : Implements answer (empty : EventHeap α) (fun h => IsHeap h.cells) events where
  start := ⟨isHeap_empty, rfl⟩
  sound op h hheap := by
    cases op with
    | add e => exact isHeap_add hheap e
    | take clock => exact isHeap_takeDueFrom hheap
    | clear => exact isHeap_empty
  add e h := ⟨rfl, add_perm h e⟩
  take clock h hheap :=
    { perm := takeDueFrom_perm clock h.cells
      due := fun e he => clock_le_of_mem_takeDueFrom he
      late := fun e he => lt_clock_of_mem_takeDueFrom hheap he
      ascending := takeDueFrom_ascending hheap }
  clear h := ⟨rfl, rfl⟩

end EventHeap

namespace EventQueue

/-- What an ordered list does at an operation. -/
def answer : Operation α → EventQueue α → List (Event α) × EventQueue α
  | .add e, q => ([], q.insert e)
  | .take clock, q => (q.due clock, q.later clock)
  | .clear, _ => ([], .empty)

/-- The history of a new list, and what the list is at its end. -/
def run (ops : List (Operation α)) : History α × EventQueue α := record answer empty ops

theorem implements : Implements answer (empty : EventQueue α)
    (fun q => q.events.Pairwise fun e f => ¬f.before e) events where
  start := ⟨List.Pairwise.nil, rfl⟩
  sound op q hq := by
    cases op with
    | add e =>
      exact pairwise_insertEvent (fun _ _ => Event.before_asymm) (fun _ _ hef => hef)
        (fun _ _ _ => Event.not_before_trans) e hq
    | take clock => exact hq.sublist (List.dropWhile_sublist _)
    | clear => exact List.Pairwise.nil
  add e q := ⟨rfl, insertEvent_perm e q.events⟩
  take clock q hq :=
    { perm := .of_eq (q.due_append_later clock)
      due := fun e he => clock_le_of_mem_due he
      late := Ordered.late_later (hq.imp fun hef => by rw [Event.before_iff] at hef; omega) clock
      ascending := hq.sublist (List.takeWhile_sublist _) }
  clear q := ⟨rfl, rfl⟩

end EventQueue

namespace Queueing

/-- **Events are served in order.** Whatever has been asked of a heap, as long as no event was added
whose key was that of one that waited, at any clock it yields exactly the events that wait and are
due, each of them once and in ascending order of their keys, and exactly the others that wait are
left. An ordered list of which the same was asked has given the same answers, and goes on like
this. -/
theorem served_in_order (ops : List (Operation α)) (hdistinct : (EventHeap.run ops).1.Distinct)
    (clock : Int) :
    Serves (EventHeap.run ops).1 clock ((EventHeap.run ops).2.takeDue clock).1
        ((EventHeap.run ops).2.takeDue clock).2.events ∧
      (EventQueue.run ops).1 = (EventHeap.run ops).1 ∧
        Serves (EventHeap.run ops).1 clock ((EventQueue.run ops).2.due clock)
          ((EventQueue.run ops).2.later clock).events := by
  have hsame : (EventQueue.run ops).1 = (EventHeap.run ops).1 :=
    EventHeap.implements.history_eq EventQueue.implements ops hdistinct
  refine ⟨EventHeap.implements.serves ops hdistinct clock, hsame, ?_⟩
  rw [← hsame] at hdistinct ⊢
  exact EventQueue.implements.serves ops hdistinct clock

/-- Some events are dropped, some taken, and one is added for a clock that has passed. -/
def errands : List (Operation String) :=
  [.add ⟨2, 0, "lost"⟩, .clear, .add ⟨5, 1, "a"⟩, .add ⟨3, 3, "c"⟩, .add ⟨3, 2, "b"⟩,
    .add ⟨9, 4, "d"⟩, .take 3, .add ⟨1, 5, "e"⟩, .take 0]

theorem served_in_order_errands :
    (EventHeap.run errands).1.Distinct ∧
      (EventHeap.run errands).1.map (·.2.map (·.payload)) =
        [[], [], [], [], [], [], ["b", "c"], [], []] ∧
      ((EventHeap.run errands).2.takeDue 5).1.map (·.payload) = ["e", "a"] ∧
      Serves (EventHeap.run errands).1 5 ((EventHeap.run errands).2.takeDue 5).1
        ((EventHeap.run errands).2.takeDue 5).2.events := by
  have hdistinct : (EventHeap.run errands).1.Distinct :=
    History.distinct_of_nodup (by decide +kernel)
  exact ⟨hdistinct, by decide +kernel, by decide +kernel, (served_in_order errands hdistinct 5).1⟩

end Queueing

end Chip8
