import Chip8.Proofs.HostInvariant

/-!
# Calm hosts

Whenever a host is left alone, nothing in its queue is due: events are carried out as soon as the
clock reaches them, and whatever is scheduled for now is carried out at once. This holds also after
a failure, because the events that are due are all taken off the queue before the first of them is
carried out.

A failure can come from far inside: from a listener that was told of a beep, or from a script that
one of the events ran. If it is a fault of the processor, nothing that happens on the way out
touches the plant, so it is left at the instruction that failed.

## Main definitions

* `Host.Calm`: a host with nothing due, and what it keeps
* `Blames`: what a failure says about the plant that is left
* `Plant.Stuck`: when a plant's own operation fails with a fault, the plant is stuck with it
* `Host.Rests`: an operation keeps a host calm, also if it fails

## Main statements

* `Host.rests_execute`: a command keeps a host calm, and a fault leaves its plant stuck
-/

namespace Chip8

variable {σ Op : Type}

/-- If the failure is a fault, the plant is stuck with it. -/
def Blames (stuck : Fault → σ → Prop) (e : Failure) (plant : σ) : Prop :=
  ∀ fault, e = .fault fault → stuck fault plant

theorem blames_of_ne {stuck : Fault → σ → Prop} {e : Failure} (he : ∀ fault, e ≠ .fault fault)
    (plant : σ) : Blames stuck e plant :=
  fun fault heq => absurd heq (he fault)

/-- When an operation of the plant fails with a fault, the plant is stuck with it. -/
structure Plant.Stuck [Plant σ Op] (I : σ → Prop) (p : Op → Prop) (stuck : Fault → σ → Prop) :
    Prop where
  cycle : Hoare (fun s => I s.1) (Plant.cycle : PlantM σ (Script Op)) (fun _ _ => True)
    (fun e s => Blames stuck e s.1)
  updateTimers : ∀ clock, Hoare (fun s => I s.1)
    (Plant.updateTimers clock : PlantM σ (TimerResult Op)) (fun _ _ => True)
    (fun e s => Blames stuck e s.1)
  reset : Hoare (fun s => I s.1) (Plant.reset : PlantM σ Unit) (fun _ _ => True)
    (fun e s => Blames stuck e s.1)
  operate : ∀ op, p op →
    Hoare (fun s => I s.1) (Plant.operate op : PlantM σ Reply) (fun _ _ => True)
    (fun e s => Blames stuck e s.1)

namespace Host

/-- A host with nothing due, whose plant has an invariant, and for which only scripts of a kind are
kept. -/
structure Calm (I : σ → Prop) (p : Op → Prop) (h : Host σ Op) : Prop
    extends UpToDate h, Upheld (fun s => I s.1) p h where

/-- The operation keeps a host calm, also if it fails. If it fails with a fault, the plant is
stuck. -/
def Rests (I : σ → Prop) (p : Op → Prop) (stuck : Fault → σ → Prop) {α : Type} (m : HostM σ Op α) :
    Prop :=
  KeepsOr (Calm I p) (fun e h => Calm I p h ∧ Blames stuck e h.plant) m

variable {I : σ → Prop} {p : Op → Prop} {stuck : Fault → σ → Prop} {α : Type}

namespace Calm

variable {h : Host σ Op}

theorem of_upheld (hh : UpToDate h) (hupheld : Upheld (fun s => I s.1) p h) : Calm I p h :=
  { hupheld with
    ordered := hh.ordered
    late := hh.late }

theorem enqueue (hh : Calm I p h) {delay : Nat} (hdelay : 0 < delay) {task : Task Op}
    (htask : task.Every p) : Calm I p (finalState (Host.enqueue delay task h)) := by
  have hinvariant : Invariant (Script.Every p) (Upheld (σ := σ) (fun s => I s.1) p) :=
    invariant_upheld (fun _ _ hs => hs) fun _ _ hs => hs
  have hkept := (hinvariant.keeps_enqueue delay (Task.runs_every.2 htask)).finalState hh.toUpheld
  exact .of_upheld (hh.toUpToDate.enqueue hdelay task) hkept

theorem clear (hh : Calm I p h) : Calm I p { h with queue := .empty } :=
  .of_upheld hh.toUpToDate.clear { hh.toUpheld with queue := fun _ he => nomatch he }

theorem zeroClock (hh : Calm I p h) : Calm I p { h with clock := 0 } :=
  .of_upheld hh.toUpToDate.zeroClock { hh.toUpheld with }

/-- When the clock moves on, what is due is taken off the queue. -/
theorem step (hh : Calm I p h) :
    Calm I p { h with clock := h.clock + 1, queue := h.queue.later (h.clock + 1 : Nat) } ∧
      ∀ e ∈ h.queue.due (h.clock + 1 : Nat), e.payload.Every p := by
  have hall := h.queue.due_append_later (h.clock + 1 : Nat)
  refine ⟨.of_upheld hh.toUpToDate.step { hh.toUpheld with queue := fun e he => ?_ },
    fun e he => ?_⟩
  · exact hh.queue e (hall ▸ List.mem_append_right _ he)
  · exact hh.queue e (hall ▸ List.mem_append_left _ he)

end Calm

theorem calm_create {plant : σ} {world : World} {frequency timerFrequency : Number}
    {maxCatchUp : Int} {h : Host σ Op} (hplant : I plant)
    (hcreate : create plant world frequency timerFrequency maxCatchUp = .ok h) : Calm I p h :=
  .of_upheld (upToDate_create hcreate) (upheld_create (W := fun s => I s.1) hplant hcreate)

/-! ## Using the plant and the world -/

theorem hoare_calm_onPlant {m : PlantM σ α} {R : α → Prop}
    (hm : Hoare (fun s => I s.1) m (fun a s => I s.1 ∧ R a) (fun _ s => I s.1))
    (hstuck : Hoare (fun s => I s.1) m (fun _ _ => True) (fun e s => Blames stuck e s.1)) :
    Hoare (Calm I p) (onPlant m : HostM σ Op α) (fun a h => Calm I p h ∧ R a)
      (fun e h => Calm I p h ∧ Blames stuck e h.plant) :=
  hoare_onPlant_of (hm.and hstuck) (fun _ hh => ⟨hh.holds, hh.holds⟩)
    (fun _ _ _ hh hs => ⟨{ hh with holds := hs.1.1 }, hs.1.2⟩)
    fun _ _ _ hh hs => ⟨{ hh with holds := hs.1 }, hs.2⟩

theorem rests_onPlant {m : PlantM σ α} (hm : Keeps (fun s => I s.1) m)
    (hstuck : Hoare (fun s => I s.1) m (fun _ _ => True) (fun e s => Blames stuck e s.1)) :
    Rests I p stuck (onPlant m : HostM σ Op α) :=
  hoare_onPlant_of (Hoare.and hm hstuck) (fun _ hh => ⟨hh.holds, hh.holds⟩)
    (fun _ _ _ hh hs => { hh with holds := hs.1 })
    fun _ _ _ hh hs => ⟨{ hh with holds := hs.1 }, hs.2⟩

/-! ## Clock, queue and timer chain -/

theorem rests_startChain : Rests I p stuck (startChain : HostM σ Op Unit) := by
  refine .get_bind fun h hh => ?_
  refine .ite (fun _ => ?_) fun _ => .pure _
  have hset : Calm I p { h with chainActive := true, chain := h.chain + 1 } := { hh with }
  intro k _
  exact hset.enqueue hh.interval trivial

/-- What a calm host does by itself keeps it calm. -/
theorem clearance_calm :
    Clearance (Calm (σ := σ) I p) (fun e h => Calm I p h ∧ Blames stuck e h.plant) where
  aside _ _ _ hh := { hh with }
  startChain := rests_startChain
  stopChain := .modify fun _ hh => { hh with }
  arithmetic _ _ hh := ⟨hh, fun _ heq => nomatch heq⟩
  clearQueue := .modify fun _ hh => hh.clear
  zeroClock _ hh := hh.zeroClock

theorem nothingDue_calm : NothingDue (Calm (σ := σ) I p) where
  late _ hh := hh.late
  skip _ hh := { hh with }

/-! ## Events and listeners -/

/-- Running a script keeps a host calm, if the script is of the kind. -/
def RestsScripts (I : σ → Prop) (p : Op → Prop) (stuck : Fault → σ → Prop) (run : Runner σ Op) :
    Prop :=
  ∀ script, Script.Every p script → Rests I p stuck (run script)

variable {run : Runner σ Op}

theorem rests_mark_bind (m : Mark) {rest : HostM σ Op α} (hrest : Rests I p stuck rest) :
    Rests I p stuck (mark m >>= fun _ => rest) :=
  KeepsOr.bind (.modify fun _ hh => { hh with }) fun _ => hrest

theorem rests_tell (hrun : RestsScripts I p stuck run) {l : Listener Op}
    (hl : Script.Every p l.script) :
    Rests I p stuck (tell run l) :=
  .get_bind fun _ _ => rests_mark_bind _ (hrun l.script hl)

section

variable [Plant σ Op] (hplant : Plant.Keeps (σ := σ) I p) (hstuck : Plant.Stuck (σ := σ) I p stuck)
  (hrun : RestsScripts I p stuck run)

include hplant hstuck hrun

theorem rests_updateTimers : Rests I p stuck (updateTimers run) := by
  refine .get_bind fun h _ => ?_
  refine .bind_of (hoare_calm_onPlant (hplant.updateTimers h.clock) (hstuck.updateTimers h.clock))
    fun result hscript => ?_
  refine (hrun result.script hscript).bind fun _ => ?_
  refine .ite (fun _ => ?_) fun _ => .pure _
  refine .get_bind fun k hk => ?_
  exact .forM fun l hl => rests_tell hrun (hk.listeners l hl)

theorem rests_tickChain (chain : Nat) : Rests I p stuck (tickChain run chain) := by
  refine .get_bind fun h _ => ?_
  refine .ite (fun _ => ?_) fun _ => .pure _
  refine (rests_updateTimers hplant hstuck hrun).bind fun _ => ?_
  -- The next event is as far away as the interval says that is in force by now.
  refine Hoare.get_bind fun k hk l hl => ?_
  obtain rfl : k = l := hl.symm
  by_cases hgoing : k.chainActive = true ∧ k.status = .running
  · rw [if_pos hgoing]
    have htask : (Task.timers chain : Task Op).Every p := trivial
    exact hk.enqueue hk.interval htask
  · rw [if_neg hgoing]
    exact hk

theorem rests_perform {task : Task Op} (htask : task.Every p) :
    Rests I p stuck (perform run task) := by
  cases task with
  | timers chain => exact rests_tickChain hplant hstuck hrun chain
  | powerOff => exact clearance_calm.keepsOr_applyPowerOff
  | reset => exact clearance_calm.keepsOr_applyReset (rests_onPlant hplant.reset hstuck.reset)
  | pause => exact clearance_calm.keepsOr_applyPause
  | resume => exact clearance_calm.keepsOr_applyResume
  | script label commands => exact .get_bind fun _ _ => rests_mark_bind _ (hrun commands htask)

theorem rests_schedule (delay : Int) {task : Task Op} (htask : task.Every p) :
    Rests I p stuck (schedule run delay task) :=
  nothingDue_calm.keepsOr_schedule (rests_perform hplant hstuck hrun htask)
    (fun _ _ hdelay hh => hh.enqueue hdelay htask) delay

/-! ## Running -/

theorem rests_cycle : Rests I p stuck (cycle run) :=
  .bind_of (hoare_calm_onPlant hplant.cycle hstuck.cycle) fun script hscript => hrun script hscript

theorem dispatches_calm :
    Dispatches run (fun _ es h => Calm I p h ∧ ∀ e ∈ es, e.payload.Every p)
      (fun e h => Calm I p h ∧ Blames stuck e h.plant) where
  late _ _ hh := hh.1.late
  cycle _ := (rests_cycle hplant hstuck hrun).consequence (fun _ hh => hh.1.1)
    (fun _ _ hh => ⟨hh, fun _ he => nomatch he⟩) fun _ _ hh => hh
  step _ _ hh := hh.1.step
  perform _ e es := by
    rintro h ⟨hh, hes⟩
    have hrest : ∀ f ∈ es, f.payload.Every p := fun f hf => hes f (List.mem_cons_of_mem e hf)
    exact (rests_perform hplant hstuck hrun (hes e List.mem_cons_self)).consequence (fun _ hk => hk)
      (fun _ _ hk => ⟨hk, hrest⟩) (fun _ _ hk => hk) h hh

theorem rests_tick (cycles : Int) : Rests I p stuck (tick run cycles) :=
  ((dispatches_calm hplant hstuck hrun).ticking.keepsOr_tick cycles).consequence
    (fun _ hh => ⟨hh, fun _ he => nomatch he⟩) (fun _ _ hh => hh.1) fun _ _ hh => hh

theorem running_calm :
    Running run (Calm (σ := σ) I p) (fun e h => Calm I p h ∧ Blames stuck e h.plant) where
  cycle := rests_cycle hplant hstuck hrun
  updateTimers := rests_updateTimers hplant hstuck hrun
  tick := rests_tick hplant hstuck hrun
  pass _ _ hh := { hh with }
  raise _ _ hh := ⟨hh, fun _ heq => nomatch heq⟩

omit hplant hstuck hrun in
/-- Power-off of a calm host never fails, and leaves the plant alone. -/
theorem powerOff_calm (run : Runner σ Op) {h : Host σ Op} (hh : Calm I p h) :
    ∃ k, powerOff run h = .ok () k ∧ Calm I p k ∧ k.plant = h.plant := by
  by_cases hstopped : h.status = .stopped
  · exact ⟨h, by simp only [powerOff, run_bind, run_get, hstopped]; rfl, hh, rfl⟩
  · exact ⟨_, powerOff_late hh.late hstopped, { hh.clear with }, rfl⟩

/-- Power-off follows the tick also when it failed, and then leaves the plant as the failure did. -/
theorem rests_ensuring (cycles : Int) :
    Rests I p stuck (ensuring (tick run cycles) (powerOff run)) := by
  intro h hh
  have htick := rests_tick hplant hstuck hrun cycles h hh
  simp only [ensuring]
  cases hend : tick run cycles h with
  | ok _ k =>
    rw [hend] at htick
    obtain ⟨l, hoff, hl, -⟩ := powerOff_calm run htick
    simp only [hoff]
    exact hl
  | error e k =>
    rw [hend] at htick
    obtain ⟨l, hoff, hl, hsame⟩ := powerOff_calm run htick.1
    simp only [hoff]
    exact ⟨hl, hsame ▸ htick.2⟩

end

/-! ## Commands -/

theorem rests_setFrequency (frequency : Number) :
    Rests I p stuck (setFrequency frequency : HostM σ Op Unit) := by
  refine clearance_calm.keepsOr_setFrequency ?_ ?_
    (fun _ hh => ⟨hh, fun _ heq => nomatch heq⟩) frequency
  · exact fun _ _ hh => { hh with }
  · exact fun _ _ hinterval hh => { hh with interval := hinterval }

theorem asksOfListeners_calm : AsksOfListeners (Script.Every p) (Calm (σ := σ) I p) where
  listeners _ hh := hh.listeners
  known _ hh := hh.known
  update _ _ _ hh hlisteners hknown := { hh with listeners := hlisteners, known := hknown }

section

variable [Plant σ Op] (hplant : Plant.Keeps (σ := σ) I p) (hstuck : Plant.Stuck (σ := σ) I p stuck)

include hplant hstuck

/-- **One command**: given a way to run scripts that keeps the host calm, so does the command. -/
theorem rests_carryOut {run : Runner σ Op} (hrun : RestsScripts I p stuck run) {c : Command Op}
    (hc : c.Every p) : Rests I p stuck (carryOut run c) := by
  refine keepsOr_carryOut nothingDue_calm.immediate ?_
  cases c with
  | setFrequency frequency => exact rests_setFrequency frequency
  | setMaxCatchUp cycles => exact fun _ hh => { hh with }
  | schedule delay label script => exact rests_schedule hplant hstuck hrun delay hc
  | addListener name script => exact asksOfListeners_calm.keepsOr_addListener name hc
  | removeListener name =>
    exact asksOfListeners_calm.keepsOr_removeListener trivial
      (fun _ hh => ⟨hh, by simp [Blames]⟩) name
  | operate op => exact rests_onPlant (hplant.operate op hc) (hstuck.operate op hc)
  | _ =>
    exact clearance_calm.spares (running_calm hplant hstuck hrun)
      (rests_onPlant hplant.reset hstuck.reset) (rests_ensuring hplant hstuck hrun) trivial

theorem restsScripts_runner (depth : Nat) : RestsScripts I p stuck (runner depth : Runner σ Op) :=
  fun _ hscript =>
    keepsOr_runner (fun _ hh => ⟨hh, fun _ heq => nomatch heq⟩) (fun h hc => h.of_mem hc)
      (fun _ hrun _ => rests_carryOut hplant hstuck hrun) depth hscript

/-- **A command from outside** keeps a host calm. If it fails with a fault, the plant is stuck with
it. -/
theorem rests_execute {c : Command Op} (hc : c.Every p) :
    Rests I p stuck (execute c : HostM σ Op Reply) :=
  rests_carryOut hplant hstuck (restsScripts_runner hplant hstuck nestingLimit) hc

end

end Host

end Chip8
