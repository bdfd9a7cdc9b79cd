import Chip8.Proofs.Batching
import Chip8.Proofs.Dispatching

/-!
# Orderly hosts

Where scripts do nothing but fail at most, the queue of a host holds no more than ticks of timer
chains and events of the user's own. They are numbered in the order in which they were scheduled,
and of the current timer chain there is at most one, whatever the host was told, and whatever failed
on the way. There may be none: the event of the chain is taken off the queue before the timers tick,
and a tick that fails does not put the next one there.

## Main definitions

* `Command.Brings`: the scripts that a command brings along are of kinds
* `Plant.Undemanding`: a plant that has an invariant and wants nothing done
* `Host.Orderly`: what the queue holds, with the events that are off it but not carried out yet

## Main statements

* `Host.orderly_perform`: events are carried out in an orderly host
* `Host.orderly_runAll`: commands keep a host orderly, whether or not they fail
-/

namespace Chip8

variable {σ Op : Type}

/-- The scripts that the command brings along for an event or a listener are of kinds. -/
def Command.Brings (q r : Script Op → Prop) : Command Op → Prop
  | .schedule _ _ script => q script
  | .addListener _ script => r script
  | _ => True

/-- The plant has an invariant, and wants nothing done. -/
structure Plant.Undemanding [Plant σ Op] (I : σ → Prop) : Prop where
  quiet : Plant.Quiet (fun s : σ × World => I s.1)
  reset : Chip8.Keeps (fun s => I s.1) (Plant.reset : PlantM σ Unit)
  operate : ∀ op, Chip8.Keeps (fun s => I s.1) (Plant.operate op : PlantM σ Reply)

namespace Host

/-- What waits is numbered in the order of scheduling. With the events that are off the queue but
not carried out yet, there are no more than a number of ticks of the current timer chain among it.
Listeners that are only known have scripts of the kind, too. -/
structure Orderly (I : σ → Prop) (q r : Script Op → Prop) (current : Nat)
    (es : List (Event (Task Op))) (h : Host σ Op) : Prop
    extends Arranged (fun s => I s.1) q r es h where
  numbered : ∀ e ∈ h.queue.events, e.order < h.scheduled
  single : (es.filter (·.payload.isTimers h.chain)).length + h.chainEvents.length ≤ current
  known : ∀ l ∈ h.known, r l.script

variable {I : σ → Prop} {q r : Script Op → Prop} {current : Nat} {es : List (Event (Task Op))}
  {h k : Host σ Op} {α : Type}

theorem orderly_create {plant : σ} {world : World} {frequency timerFrequency : Number}
    {maxCatchUp : Int} (hplant : I plant)
    (hcreate : create plant world frequency timerFrequency maxCatchUp = .ok h) :
    Orderly I q r 1 [] h := by
  have hdue := upToDate_create hcreate
  obtain ⟨-, interval, anchor, -, -, rfl⟩ := create_eq_ok_iff.1 hcreate
  exact { hdue with
    holds := hplant
    numbered := fun _ he => nomatch he
    kept := fun _ he => nomatch he
    single := Nat.zero_le _
    listeners := fun _ hl => nomatch hl
    known := fun _ hl => nomatch hl }

namespace Orderly

theorem around (hh : Orderly I q r current es h) (hk : Around (fun s => I s.1) h k) :
    Orderly I q r current es k := by
  obtain ⟨s, hs, rfl⟩ := hk
  exact { hh with holds := hs }

/-- Events that are off the queue may be lost. -/
theorem drop (hh : Orderly I q r current es h) : Orderly I q r current [] h :=
  { hh with
    toArranged := hh.toArranged.drop
    single := by
      have hsingle := hh.single
      rw [List.filter_nil, List.length_nil]
      omega }

theorem drop_head {e : Event (Task Op)} (hh : Orderly I q r current (e :: es) h) :
    Orderly I q r current es h :=
  { hh with
    toArranged := hh.toArranged.drop_head
    single := by
      have hsingle := hh.single
      have hle := (List.sublist_cons_self e es).filter (·.payload.isTimers h.chain)
      have hlength := hle.length_le
      omega }

/-- The only tick of the current timer chain is taken. -/
theorem drop_current {e : Event (Task Op)} (hh : Orderly I q r 1 (e :: es) h)
    (he : e.payload.isTimers h.chain = true) : Orderly I q r 0 es h :=
  { hh.drop_head with
    single := by
      have hsingle := hh.single
      rw [List.filter_cons_of_pos (p := fun f : Event (Task Op) => f.payload.isTimers h.chain) he,
        List.length_cons] at hsingle
      omega }

/-- A number may be left out. -/
theorem skip (hh : Orderly I q r current es h) :
    Orderly I q r current es { h with scheduled := h.scheduled + 1 } :=
  { hh with
    numbered := fun e he => Int.lt_trans (hh.numbered e he) (Int.ofNat_lt.2 (Nat.lt_succ_self _)) }

theorem enqueue {current' : Nat} (hh : Orderly I q r current es h) {delay : Nat}
    (hdelay : 0 < delay) {task : Task Op} (htask : task.Kept q h.chain)
    (hsingle : (es.filter (·.payload.isTimers h.chain)).length +
      (finalState (Host.enqueue delay task h)).chainEvents.length ≤ current') :
    Orderly I q r current' es (finalState (Host.enqueue delay task h)) where
  toArranged := hh.toArranged.enqueue hdelay htask
  numbered := by
    intro e he
    show e.order < (h.scheduled + 1 : Nat)
    rcases EventQueue.mem_insertEvent.1 he with rfl | he
    · show (h.scheduled : Int) < (h.scheduled + 1 : Nat)
      omega
    · have hbefore := hh.numbered e he
      omega
  single := hsingle
  known := hh.known

theorem enqueue_script (hh : Orderly I q r current es h) {delay : Nat} (hdelay : 0 < delay)
    (label : String) {script : Script Op} (hscript : q script) :
    Orderly I q r current es (finalState (Host.enqueue delay (.script label script) h)) := by
  refine hh.enqueue hdelay hscript ?_
  have hother : ¬(Task.script label script).isTimers h.chain = true := Bool.false_ne_true
  have hsame : (finalState (Host.enqueue delay (.script label script) h)).chainEvents =
      h.chainEvents :=
    EventQueue.filter_insertEvent_of_neg hother
  rw [hsame]
  exact hh.single

/-- Where no tick of the current timer chain waits, there is room for one. -/
theorem enqueue_timers (hh : Orderly I q r 0 es h) {chain : Nat} (hchain : chain ≤ h.chain) :
    Orderly I q r 1 es (finalState (Host.enqueue h.interval (.timers chain) h)) := by
  have hnone := hh.single
  have hempty : h.chainEvents = [] := List.length_eq_zero_iff.1 (by omega)
  refine hh.enqueue hh.interval hchain ?_
  have hle : (finalState (Host.enqueue h.interval (.timers chain) h)).chainEvents.length ≤ 1 := by
    by_cases hcurrent : (Task.timers chain : Task Op).isTimers h.chain = true
    · exact Nat.le_of_eq
        (congrArg List.length (EventQueue.filter_insertEvent_of_pos hcurrent hempty))
    · have hsame : (finalState (Host.enqueue h.interval (.timers chain) h)).chainEvents =
          h.chainEvents :=
        EventQueue.filter_insertEvent_of_neg hcurrent
      rw [hsame, hempty]
      exact Nat.zero_le 1
  omega

end Orderly

/-! ## Starting and stopping the timer chain -/

/-- A new chain has a number of its own. -/
theorem orderly_startChain : Keeps (Orderly I q r 1 []) (startChain : HostM σ Op Unit) := by
  refine Hoare.get_bind fun h hh => ?_
  by_cases hstart : h.status = .running ∧ (!h.chainActive) = true
  · rw [if_pos hstart]
    have hfresh : ∀ e ∈ h.queue.events, ¬e.payload.isTimers (h.chain + 1) = true := by
      intro e he hof
      have hkept := hh.kept e he
      cases hpayload : e.payload with
      | timers c =>
        rw [hpayload] at hkept hof
        have hle : c ≤ h.chain := hkept
        rw [Task.isTimers_timers] at hof
        omega
      | _ =>
        rw [hpayload] at hof
        cases hof
    have hnew : Orderly I q r 0 [] { h with chainActive := true, chain := h.chain + 1 } := { hh with
      toArranged := hh.toArranged.nextChain
      single := by
        have hnone :
            ({ h with chainActive := true, chain := h.chain + 1 } : Host σ Op).chainEvents = [] :=
          List.filter_eq_nil_iff.2 hfresh
        rw [hnone]
        exact Nat.le_refl 0 }
    rintro _ rfl
    exact hnew.enqueue_timers (Nat.le_refl _)
  · rw [if_neg hstart]
    rintro _ rfl
    exact hh

theorem orderly_stopChain : Keeps (Orderly I q r 1 []) (stopChain : HostM σ Op Unit) :=
  .modify fun _ hh => { hh with }

theorem orderly_clearQueue : Keeps (Orderly I q r 1 []) (clearQueue : HostM σ Op Unit) :=
  .modify fun _ hh => { hh with
    toUpToDate := hh.toUpToDate.clear
    numbered := fun _ he => nomatch he
    kept := fun _ he => nomatch he
    single := Nat.zero_le _ }

theorem Orderly.zeroClock (hh : Orderly I q r current es h) :
    Orderly I q r current es { h with clock := 0 } :=
  { hh with toUpToDate := hh.toUpToDate.zeroClock }

/-- What an orderly host does by itself keeps it orderly. -/
theorem clearance_orderly :
    Clearance (Orderly I q r 1 [] : Host σ Op → Prop) fun _ => Orderly I q r 1 [] where
  aside _ _ _ hh := { hh with }
  startChain := orderly_startChain
  stopChain := orderly_stopChain
  arithmetic _ _ hh := hh
  clearQueue := orderly_clearQueue
  zeroClock _ hh := hh.zeroClock

theorem orderly_setFrequency (frequency : Number) :
    Keeps (Orderly I q r 1 []) (setFrequency frequency : HostM σ Op Unit) := by
  refine clearance_orderly.keepsOr_setFrequency ?_ ?_ (fun _ hh => hh) frequency
  · exact fun _ _ hh => { hh with }
  · exact fun _ _ hinterval hh => { hh with interval := hinterval }

theorem asksOfListeners_orderly : AsksOfListeners r (Orderly I q r 1 [] : Host σ Op → Prop) where
  listeners _ hh := hh.listeners
  known _ hh := hh.known
  update _ _ _ hh hlisteners hknown := { hh with listeners := hlisteners, known := hknown }

theorem orderly_onPlant {m : PlantM σ α} (hm : Chip8.Keeps (fun s => I s.1) m) :
    Keeps (Orderly I q r 1 []) (onPlant m : HostM σ Op α) :=
  hoare_onPlant_of hm (fun _ hh => hh.holds) (fun _ _ _ hh hs => { hh with holds := hs })
    fun _ _ _ hh hs => { hh with holds := hs }

theorem nothingDue_orderly : NothingDue (Orderly I q r 1 [] : Host σ Op → Prop) where
  late _ hh := hh.late
  skip _ hh := hh.skip

/-! ## Events -/

section

variable [Plant σ Op] {run : Runner σ Op} (hundemanding : Plant.Undemanding I)
  (hrun : LeavesAlone run)

include hundemanding hrun

theorem orderly_cycle : Keeps (Orderly I q r current es) (cycle run) :=
  keeps_of_around (fun _ _ => keeps_around_cycle hrun hundemanding.quiet) (fun _ hh => hh.holds)
    fun _ _ hh hk => hh.around hk

variable (hr : ∀ script, r script → Script.Inert script)

include hr

theorem orderly_updateTimers : Keeps (Orderly I q r current es) (updateTimers run) := by
  refine keeps_of_around (fun h hh => ?_) (fun _ hh => hh.holds) fun _ _ hh hk => hh.around hk
  exact keeps_around_updateTimers hrun hundemanding.quiet fun l hl => hr _ (hh.listeners l hl)

variable (hq : ∀ script, q script → Script.Inert script)

include hq

omit hundemanding hr in
theorem orderly_script (label : String) {script : Script Op} (hscript : q script) :
    Keeps (Orderly I q r current es) (perform run (.script label script)) := by
  refine .get_bind fun h _ => ?_
  refine Keeps.bind (.modify fun _ hh => { hh with }) fun _ => ?_
  exact hrun.keeps (hq script hscript)

/-- **An event** is carried out in an orderly host. If it fails, the other events that are off the
queue are lost. -/
theorem orderly_perform (e : Event (Task Op)) (es : List (Event (Task Op))) :
    Hoare (Orderly I q r 1 (e :: es)) (perform run e.payload) (fun _ => Orderly I q r 1 es)
      (fun _ => Orderly I q r 1 []) := by
  intro h hh
  have hkept := hh.kept e List.mem_cons_self
  cases hpayload : e.payload with
  | timers chain =>
    rw [hpayload] at hkept
    rcases tickChain_cases hrun hundemanding.quiet (fun l hl => hr _ (hh.listeners l hl))
      hh.holds chain with ⟨-, heq⟩ | ⟨⟨rfl, -⟩, k, hk, ⟨-, heq⟩ | ⟨e, -, heq⟩⟩
    · simp only [perform, heq]
      exact hh.drop_head
    · have hnone : Orderly I q r 0 es k :=
        (hh.drop_current (by rw [hpayload, Task.isTimers_timers])).around hk
      have hchain : h.chain ≤ k.chain := by
        obtain ⟨s, -, rfl⟩ := hk
        exact Nat.le_refl _
      simp only [perform, heq]
      exact hnone.enqueue_timers hchain
    · simp only [perform, heq]
      exact hh.drop.around hk
  | script label script =>
    rw [hpayload] at hkept
    refine (orderly_script hrun hq label hkept).consequence (fun _ hk => hk) (fun _ _ hk => hk) ?_
      h hh.drop_head
    exact fun _ _ hk => hk.drop
  | _ =>
    rw [hpayload] at hkept
    exact hkept.elim

/-! ## Ticks -/

omit [Plant σ Op] hundemanding hrun hr hq in
/-- When the clock moves on, what is due is taken off the queue. -/
theorem Orderly.step (hh : Orderly I q r current [] h) :
    Orderly I q r current (h.queue.due (h.clock + 1 : Nat))
      { h with clock := h.clock + 1, queue := h.queue.later (h.clock + 1 : Nat) } := by
  have hall := h.queue.due_append_later (h.clock + 1 : Nat)
  have hlater : ∀ e ∈ (h.queue.later (h.clock + 1 : Nat)).events, e ∈ h.queue.events :=
    fun e he => hall ▸ List.mem_append_right _ he
  refine { hh.toArranged.step with
    numbered := fun e he => hh.numbered e (hlater e he)
    single := ?_
    known := hh.known }
  have hsingle := hh.single
  rw [chainEvents, ← hall, List.filter_append, List.length_append] at hsingle
  simp only [List.filter_nil, List.length_nil, Nat.zero_add] at hsingle
  exact hsingle

theorem dispatches_orderly :
    Dispatches run (fun _ es => Orderly I q r 1 es) (fun _ => Orderly I q r 1 []) where
  late _ _ hh := hh.late
  cycle _ := (orderly_cycle hundemanding hrun).consequence (fun _ hh => hh.1) (fun _ _ hh => hh)
    fun _ _ hh => hh.drop
  step _ _ hh := hh.step
  perform _ := orderly_perform hundemanding hrun hr hq

theorem running_orderly : Running run (Orderly I q r 1 []) fun _ => Orderly I q r 1 [] where
  cycle := orderly_cycle hundemanding hrun
  updateTimers := orderly_updateTimers hundemanding hrun hr
  tick := (dispatches_orderly hundemanding hrun hr hq).ticking.keepsOr_tick
  pass _ _ hh := { hh with }
  raise _ _ hh := hh

end

/-! ## Commands -/

section

variable [Plant σ Op] {run : Runner σ Op}

theorem orderly_schedule (hrun : LeavesAlone run) (hq : ∀ script, q script → Script.Inert script)
    (delay : Int) (label : String) {script : Script Op} (hscript : q script) :
    Keeps (Orderly I q r 1 []) (schedule run delay (.script label script)) :=
  nothingDue_orderly.keepsOr_schedule (orderly_script hrun hq label hscript)
    (fun _ _ hdelay hh => hh.enqueue_script hdelay label hscript) delay

variable (hundemanding : Plant.Undemanding I) (hrun : LeavesAlone run)
  (hr : ∀ script, r script → Script.Inert script) (hq : ∀ script, q script → Script.Inert script)
  (hnone : r [])

include hundemanding hrun hr hq hnone

/-- **One command** keeps a host orderly, whether or not it fails. -/
theorem orderly_carryOut {c : Command Op} (hc : c.Brings q r) :
    Keeps (Orderly I q r 1 []) (carryOut run c) := by
  have hnow : Immediate run (Orderly I q r 1 []) fun _ => Orderly I q r 1 [] :=
    nothingDue_orderly.immediate
  have hoff := hnow.keepsOr_powerOff clearance_orderly.keepsOr_applyPowerOff
  have hrunning := running_orderly hundemanding hrun hr hq
  refine keepsOr_carryOut hnow ?_
  cases c with
  | setFrequency frequency => exact orderly_setFrequency frequency
  | setMaxCatchUp cycles => exact fun _ hh => { hh with }
  | schedule delay label script => exact orderly_schedule hrun hq delay label hc
  | addListener name script => exact asksOfListeners_orderly.keepsOr_addListener name hc
  | removeListener name =>
    exact asksOfListeners_orderly.keepsOr_removeListener hnone (fun _ hh => hh) name
  | operate op => exact orderly_onPlant (hundemanding.operate op)
  | _ =>
    exact clearance_orderly.spares hrunning (orderly_onPlant hundemanding.reset)
      (fun cycles => keeps_ensuring (hrunning.tick cycles) hoff) trivial

omit hrun in
/-- So does any number of commands. -/
theorem orderly_runAll {commands : List (Command Op)} (hcommands : ∀ c ∈ commands, c.Brings q r)
    {h : Host σ Op} (hh : Orderly I q r 1 [] h) :
    Orderly I q r 1 [] (runAll execute commands h).2 := by
  refine keeps_runAll (fun c hc => ?_) hh
  exact orderly_carryOut hundemanding (leavesAlone_runner nestingLimit) hr hq hnone (hcommands c hc)

end

end Host

end Chip8
