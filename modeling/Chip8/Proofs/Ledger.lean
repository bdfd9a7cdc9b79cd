import Chip8.Proofs.Appointments
import Mathlib.Data.List.Perm.Subperm

/-!
# The ledger of appointments

A ledger says at every moment that nothing is lost, done twice or done early: what has happened,
what is off the queue but not carried out yet, and what waits are together the appointments that
were made, in the order in which they are due. The host's own doings leave it alone. The cycles of a
tick keep it, and so do the steps of its clock and the events, and with them ticks of any number.

## Main definitions

* `Host.Recording`: a host whose events and listeners only leave their marks
* `Host.Ledger`: what has happened and what is to come are the appointments that were made
* `Host.Punctual`: both

## Main statements

* `Host.Ledger.filter_eq`: what has happened is what the clock has reached, and what waits is the
  rest
* `Host.ledger_perform`: an event is carried out at its clock
* `Host.running_punctual`: the cycles and the ticks of a host keep the ledger
-/

namespace Chip8

open Appointment (inOrder filed)
open EventQueue (appointments)

variable {σ Op : Type}

namespace Host

/-- The scripts of events and listeners are empty: all that is left of them is their marks. -/
abbrev Recording (I : σ → Prop) (es : List (Event (Task Op))) (h : Host σ Op) : Prop :=
  Orderly I (· = []) (· = []) 1 es h

/-! ## The ledger -/

/-- Since a moment in the past, some appointments were kept, none of them early. With those that are
off the queue but not carried out yet, for which it is time, and with those that wait, they are the
ones that were made, in the order in which they are due. -/
structure Ledger (past all : List Appointment) (es : List (Event (Task Op))) (h : Host σ Op) :
    Prop where
  timely : ∀ e ∈ es, e.clock = h.clock
  balance : ∃ ran, h.world.happened = past ++ ran ∧
    ran ++ (appointments es ++ h.waiting) = inOrder all ∧
    ∀ a ∈ ran, a.clock ≤ h.clock

variable {I : σ → Prop} {past all : List Appointment} {es : List (Event (Task Op))}
  {e : Event (Task Op)} {h k : Host σ Op} {α : Type}

/-- A ledger without appointments. -/
theorem ledger_nil : Ledger past [] [] h ↔ h.world.happened = past ∧ h.waiting = [] := by
  constructor
  · rintro ⟨-, ran, hran, hall, -⟩
    obtain ⟨rfl, hrest⟩ := List.append_eq_nil_iff.1 (hall.trans Appointment.inOrder_nil)
    exact ⟨hran.trans (List.append_nil _), hrest⟩
  · rintro ⟨hpast, hwaiting⟩
    refine ⟨fun _ he => (nomatch he), [], hpast.trans (List.append_nil _).symm, ?_,
      fun _ ha => nomatch ha⟩
    exact hwaiting.trans Appointment.inOrder_nil.symm

/-- A ledger is opened with what waits. -/
theorem ledger_waiting (hordered : h.queue.Ordered) : Ledger h.world.happened h.waiting [] h where
  timely _ he := nomatch he
  balance :=
    ⟨[], (List.append_nil _).symm,
      (Appointment.inOrder_of_pairwise (EventQueue.pairwise_appointments hordered)).symm,
      fun _ ha => nomatch ha⟩

namespace Ledger

theorem congr (hh : Ledger past all es h) (hhappened : k.world.happened = h.world.happened)
    (hclock : k.clock = h.clock) (hwaiting : k.waiting = h.waiting) : Ledger past all es k := by
  obtain ⟨htimely, hbalance⟩ := hh
  rw [← hclock] at htimely hbalance
  rw [← hhappened, ← hwaiting] at hbalance
  exact ⟨htimely, hbalance⟩

theorem around (hh : Ledger past all es h)
    (hk : Around (fun s => I s.1 ∧ s.2.happened = h.world.happened) h k) :
    Ledger past all es k := by
  obtain ⟨s, ⟨-, hs⟩, rfl⟩ := hk
  exact hh.congr hs rfl rfl

/-- An event that is no appointment makes no difference. -/
theorem drop_head (hh : Ledger past all (e :: es) h) (he : e.appointment? = none) :
    Ledger past all es h where
  timely f hf := hh.timely f (List.mem_cons_of_mem e hf)
  balance := by
    obtain ⟨ran, hran, hall, hearly⟩ := hh.balance
    rw [appointments, List.filterMap_cons_none he] at hall
    exact ⟨ran, hran, hall, hearly⟩

/-- An appointment is kept at its clock. -/
theorem keep {a : Appointment} (hh : Ledger past all (e :: es) h) (he : e.appointment? = some a)
    (hhappened : k.world.happened = h.world.happened ++ [a]) (hclock : k.clock = h.clock)
    (hwaiting : k.waiting = h.waiting) : Ledger past all es k where
  timely f hf := by
    rw [hclock]
    exact hh.timely f (List.mem_cons_of_mem e hf)
  balance := by
    obtain ⟨ran, hran, hall, hearly⟩ := hh.balance
    have hnow : a.clock = k.clock := by
      rw [hclock, Event.clock_of_appointment he, hh.timely e List.mem_cons_self]
    refine ⟨ran ++ [a], ?_, ?_, ?_⟩
    · rw [hhappened, hran, List.append_assoc]
    · rw [appointments, List.filterMap_cons_some he] at hall
      rw [List.append_assoc, hwaiting]
      exact hall
    · intro b hb
      rcases List.mem_append.1 hb with hb | hb
      · rw [hclock]
        exact hearly b hb
      · rw [List.mem_singleton.1 hb]
        exact Int.le_of_eq hnow

/-- When the clock moves on, it is time for what is taken off the queue. -/
theorem step (hh : Ledger past all [] h) (hlate : h.queue.Late h.clock) :
    Ledger past all (h.queue.due (h.clock + 1 : Nat))
      { h with clock := h.clock + 1, queue := h.queue.later (h.clock + 1 : Nat) } where
  timely e he := by
    have hdue := EventQueue.clock_le_of_mem_due he
    have hmem : e ∈ h.queue.events :=
      h.queue.due_append_later (h.clock + 1 : Nat) ▸ List.mem_append_left _ he
    have hlater := hlate e hmem
    show e.clock = (h.clock + 1 : Nat)
    omega
  balance := by
    obtain ⟨ran, hran, hall, hearly⟩ := hh.balance
    refine ⟨ran, hran, ?_, ?_⟩
    · have hqueue := h.queue.due_append_later (h.clock + 1 : Nat)
      rw [waiting, ← hqueue, appointments, appointments, List.filterMap_append] at hall
      exact hall
    · intro a ha
      have hle := hearly a ha
      show a.clock ≤ (h.clock + 1 : Nat)
      omega

/-- A new appointment comes before all that wait for a later clock, and behind all that were
kept. -/
theorem inOrder_concat (hh : Ledger past all [] h) {a : Appointment} (ha : h.clock ≤ a.clock) :
    ∃ ran, h.world.happened = past ++ ran ∧ inOrder (all ++ [a]) = ran ++ filed a h.waiting ∧
      ∀ b ∈ ran, b.clock ≤ h.clock := by
  obtain ⟨ran, hran, hall, hearly⟩ := hh.balance
  refine ⟨ran, hran, ?_, hearly⟩
  rw [Appointment.inOrder_concat, ← hall]
  exact Appointment.filed_append fun b hb => Int.le_trans (hearly b hb) ha

theorem exists_subperm (hh : Ledger past all [] h) :
    ∃ ran, h.world.happened = past ++ ran ∧ ran.Subperm all := by
  obtain ⟨ran, hran, hall, -⟩ := hh.balance
  have hpart : ran.Sublist (inOrder all) := hall ▸ List.sublist_append_left _ _
  exact ⟨ran, hran, hpart.subperm.trans (Appointment.perm_inOrder all).subperm⟩

/-- What has happened is what the clock has reached, and what waits is the rest. -/
theorem filter_eq (hh : Ledger past all [] h) (hlate : h.queue.Late h.clock) :
    h.world.happened = past ++ (inOrder all).filter (fun a : Appointment => a.clock ≤ h.clock) ∧
      h.waiting = (inOrder all).filter (fun a : Appointment => h.clock < a.clock) := by
  obtain ⟨ran, hran, hall, hearly⟩ := hh.balance
  have hran_early : ran.filter (fun a : Appointment => a.clock ≤ h.clock) = ran :=
    List.filter_eq_self.2 fun a ha => decide_eq_true (hearly a ha)
  have hran_late : ran.filter (fun a : Appointment => h.clock < a.clock) = [] := by
    refine List.filter_eq_nil_iff.2 fun a ha hlater => ?_
    have hle := hearly a ha
    have hlt := of_decide_eq_true hlater
    omega
  have hwaiting_early : h.waiting.filter (fun a : Appointment => a.clock ≤ h.clock) = [] := by
    refine List.filter_eq_nil_iff.2 fun a ha hsooner => ?_
    have hlt := lt_of_mem_waiting hlate ha
    have hle := of_decide_eq_true hsooner
    omega
  have hwaiting_late : h.waiting.filter (fun a : Appointment => h.clock < a.clock) = h.waiting :=
    List.filter_eq_self.2 fun a ha => decide_eq_true (lt_of_mem_waiting hlate ha)
  have hnone : ran ++ h.waiting = inOrder all := hall
  rw [← hnone, List.filter_append, List.filter_append, hran_early, hran_late, hwaiting_early,
    hwaiting_late, List.append_nil, List.nil_append]
  exact ⟨hran, rfl⟩

end Ledger

/-! ## What leaves the ledger alone -/

theorem ledger_enqueue_timers (delay chain : Nat) :
    Keeps (Ledger past all es) (enqueue delay (.timers chain) : HostM σ Op Unit) :=
  .modify fun _ hh => hh.congr rfl rfl (EventQueue.appointments_insertEvent_of_none rfl)

theorem ledger_startChain : Keeps (Ledger past all es) (startChain : HostM σ Op Unit) := by
  refine .get_bind fun h hh => ?_
  refine .ite (fun _ => ?_) fun _ => .pure _
  have hactive : Ledger past all es { h with chainActive := true, chain := h.chain + 1 } :=
    hh.congr rfl rfl rfl
  exact (Keeps.set hactive).bind fun _ => ledger_enqueue_timers _ _

theorem ledger_stopChain : Keeps (Ledger past all es) (stopChain : HostM σ Op Unit) :=
  .modify fun _ hh => hh.congr rfl rfl rfl

/-- An empty ledger stays empty when all that waits is dropped. -/
theorem ledger_clearQueue : Keeps (Ledger past [] []) (clearQueue : HostM σ Op Unit) :=
  .modify fun _ hh => ledger_nil.2 ⟨(ledger_nil.1 hh).1, rfl⟩

/-! ## What a plant does -/

/-- The host is orderly, and its ledger is in balance. -/
abbrev Punctual (I : σ → Prop) (past all : List Appointment) (es : List (Event (Task Op)))
    (h : Host σ Op) : Prop :=
  Recording I es h ∧ Ledger past all es h

/-- What the host does by itself leaves the ledger alone, unless it drops all events. -/
theorem housekeeping_punctual :
    Housekeeping (Punctual I past all [] : Host σ Op → Prop) fun _ => Punctual I past all [] where
  aside _ _ _ hh := ⟨{ hh.1 with }, hh.2.congr rfl rfl rfl⟩
  startChain := orderly_startChain.and ledger_startChain
  stopChain := orderly_stopChain.and ledger_stopChain
  arithmetic _ _ hh := hh

theorem clearance_punctual :
    Clearance (Punctual I past [] [] : Host σ Op → Prop) fun _ => Punctual I past [] [] where
  toHousekeeping := housekeeping_punctual
  clearQueue := orderly_clearQueue.and ledger_clearQueue
  zeroClock h hh := by
    obtain ⟨hpast, hwaiting⟩ := ledger_nil.1 hh.2
    exact ⟨hh.1.zeroClock, ledger_nil.2 ⟨hpast, hwaiting⟩⟩

theorem punctual_setFrequency (frequency : Number) :
    Keeps (Punctual I past all []) (setFrequency frequency : HostM σ Op Unit) := by
  refine housekeeping_punctual.keepsOr_setFrequency ?_ ?_ (fun _ hh => hh) frequency
  · exact fun _ _ hh => ⟨{ hh.1 with }, hh.2.congr rfl rfl rfl⟩
  · exact fun _ _ hinterval hh => ⟨{ hh.1 with interval := hinterval }, hh.2.congr rfl rfl rfl⟩

/-- What only a plant does that leaves no marks of appointments. -/
theorem punctual_of_around {m : HostM σ Op α}
    (hm : ∀ h, Recording I es h →
      Keeps (Around (fun s => I s.1 ∧ s.2.happened = h.world.happened) h) m) :
    Keeps (Punctual I past all es) m := by
  refine keeps_of_around (fun h hh => hm h hh.1) (fun _ hh => ⟨hh.1.holds, rfl⟩) ?_
  rintro h _ hh ⟨s, ⟨hplant, hhappened⟩, rfl⟩
  exact ⟨hh.1.around ⟨s, hplant, rfl⟩, hh.2.congr hhappened rfl rfl⟩

theorem nothingDue_punctual : NothingDue (Punctual I past all [] : Host σ Op → Prop) where
  late _ hh := hh.1.late
  skip _ hh := ⟨hh.1.skip, hh.2.congr rfl rfl rfl⟩

theorem asksOfListeners_punctual :
    AsksOfListeners (· = []) (Punctual I past all [] : Host σ Op → Prop) where
  listeners _ hh := hh.1.listeners
  known _ hh := hh.1.known
  update _ _ _ hh hlisteners hknown :=
    ⟨{ hh.1 with listeners := hlisteners, known := hknown }, hh.2.congr rfl rfl rfl⟩

theorem punctual_onPlant {m : PlantM σ α}
    (hm : ∀ past, Chip8.Keeps (fun s => I s.1 ∧ s.2.happened = past) m) :
    Keeps (Punctual I past all es) (onPlant m : HostM σ Op α) := by
  refine punctual_of_around fun h _ => ?_
  have hresult : Hoare (fun s : σ × World => I s.1 ∧ s.2.happened = h.world.happened) m
      (fun _ s => (I s.1 ∧ s.2.happened = h.world.happened) ∧ True)
      (fun _ s => I s.1 ∧ s.2.happened = h.world.happened) :=
    (hm _).consequence (fun _ hs => hs) (fun _ _ hs => ⟨hs, trivial⟩) fun _ _ hs => hs
  exact (hoare_around_onPlant hresult).consequence (fun _ hk => hk) (fun _ _ hk => hk.1)
    fun _ _ hk => hk

section

variable [Plant σ Op] {run : Runner σ Op} (hdiscreet : Plant.Discreet (σ := σ) I)

section

variable (hrun : LeavesAlone run)

include hdiscreet hrun

theorem punctual_cycle : Keeps (Punctual I past all es) (cycle run) :=
  punctual_of_around fun _ _ => keeps_around_cycle hrun (hdiscreet.quiet _)

/-- Listeners that are told of a beep leave their marks, and no more. -/
theorem punctual_updateTimers : Keeps (Punctual I past all es) (updateTimers run) := by
  refine punctual_of_around fun h hh => keeps_around_updateTimers hrun (hdiscreet.quiet _)
    fun l hl => ?_
  rw [hh.listeners l hl]
  exact Script.inert_nil

end

variable (hnil : run [] = pure ())

include hnil

omit [Plant σ Op] in
/-- Listeners whose scripts are empty are told of a beep without fail. -/
theorem exists_forM_tell {ls : List (Listener Op)} (hls : ∀ l ∈ ls, l.script = []) (h : Host σ Op) :
    ∃ k, ls.forM (tell run) h = .ok () k := by
  induction ls generalizing h with
  | nil => exact ⟨h, rfl⟩
  | cons l ls ih =>
    have hnext := ih (fun l' hl' => hls l' (List.mem_cons_of_mem l hl'))
    show ∃ k, (tell run l >>= fun _ => ls.forM (tell run)) h = .ok () k
    simp only [run_bind, tell, run_get, mark, run_modify, hls l List.mem_cons_self, hnil, run_pure]
    exact hnext _

include hdiscreet

theorem exists_updateTimers (hplant : I h.plant) (hlisteners : ∀ l ∈ h.listeners, l.script = []) :
    ∃ k, updateTimers run h = .ok () k := by
  obtain ⟨result, s, hticked⟩ := hdiscreet.timers h.clock (h.plant, h.world) hplant
  have hquiet := (hdiscreet.quiet h.world.happened).updateTimers h.clock (h.plant, h.world)
    ⟨hplant, rfl⟩
  rw [hticked] at hquiet
  simp only [updateTimers, run_bind, run_get, onPlant, hticked, hquiet.2, hnil, run_pure]
  by_cases hbeeped : result.beeped = true
  · rw [if_pos hbeeped]
    exact exists_forM_tell hnil hlisteners _
  · rw [if_neg hbeeped]
    exact ⟨_, rfl⟩

/-! ## Events -/

variable (hrun : LeavesAlone run)

include hrun

/-- **An event** of the user's own is carried out at its clock, and a tick of a timer chain makes no
difference. -/
theorem ledger_perform (e : Event (Task Op)) (es : List (Event (Task Op))) :
    Hoare (Punctual I past all (e :: es)) (perform run e.payload) (fun _ => Ledger past all es)
      (fun _ _ => False) := by
  rintro h ⟨horderly, hh⟩
  have hkept := horderly.kept e List.mem_cons_self
  have hnow := hh.timely e List.mem_cons_self
  cases hpayload : e.payload with
  | timers chain =>
    have hrest : Ledger past all es h := hh.drop_head (by simp only [Event.appointment?, hpayload])
    rcases tickChain_cases hrun (hdiscreet.quiet h.world.happened)
        (fun l hl => horderly.listeners l hl ▸ Script.inert_nil) ⟨horderly.holds, rfl⟩ chain with
      ⟨-, heq⟩ | ⟨-, k, hk, ⟨-, heq⟩ | ⟨cause, hfail, -⟩⟩
    · simp only [perform, heq]
      exact hrest
    · simp only [perform, heq]
      exact ledger_enqueue_timers _ chain k (hrest.around hk)
    · obtain ⟨k', hend⟩ := exists_updateTimers hdiscreet hnil horderly.holds horderly.listeners
      rw [hend] at hfail
      cases hfail
  | script label script =>
    rw [hpayload] at hkept
    obtain rfl : script = [] := hkept
    have happointment : e.appointment? = some ⟨h.clock, label⟩ := by
      simp only [Event.appointment?, hpayload, hnow]
    simp only [perform, mark, run_bind, run_get, run_modify, hnil, run_pure]
    exact hh.keep happointment (World.happened_record _ _) rfl rfl
  | _ =>
    rw [hpayload] at hkept
    exact hkept.elim

theorem dispatches_punctual :
    Dispatches run (fun _ => Punctual I past all)
      (fun _ (h : Host σ Op) => Punctual I past all [] h) where
  late _ _ hh := hh.1.late
  cycle _ := (punctual_cycle hdiscreet hrun).consequence (fun _ hh => hh.1) (fun _ _ hh => hh)
    fun _ _ hh => hh
  step _ _ hh := ⟨hh.1.step, hh.2.step hh.1.late⟩
  perform _ e es := by
    have horderly := orderly_perform (q := (· = [])) (r := (· = [])) hdiscreet.undemanding hrun
      (fun _ hscript => hscript ▸ Script.inert_nil) (fun _ hscript => hscript ▸ Script.inert_nil) e
      es
    refine (horderly.and (ledger_perform hdiscreet hnil hrun e es)).consequence ?_
      (fun _ _ hk => hk) ?_
    · exact fun _ hh => ⟨hh.1, hh⟩
    · exact fun _ _ hk => hk.2.elim

theorem running_punctual :
    Running run (Punctual I past all []) fun _ (h : Host σ Op) => Punctual I past all [] h where
  cycle := punctual_cycle hdiscreet hrun
  updateTimers := punctual_updateTimers hdiscreet hrun
  tick := (dispatches_punctual hdiscreet hnil hrun).ticking.keepsOr_tick
  pass _ _ hh := ⟨{ hh.1 with }, hh.2.congr rfl rfl rfl⟩
  raise _ _ hh := hh

end

end Host

end Chip8
