import Chip8.Proofs.Dispatching

/-!
# Hosts left to their clockwork

A host for which nothing was scheduled has nothing in its queue but ticks of its timer chains. If
its listeners do nothing but fail at most, then running it changes its plant and its world, as the
plant does by itself, and its clock and its queue; whether it runs, and at which pace, stays as it
was. A pause and a resume change that, and nothing else.

So what holds of the plant in its world, and is kept by cycles and ticks of the timers, is kept
while the host runs.

## Main definitions

* `Host.Clockwork`: nothing is in the queue but ticks of timer chains, and something holds of the
  plant in its world
* `Host.Ran`: what running leaves alone
* `Host.Still`: what a pause and a resume leave alone

## Main statements

* `Host.clockwork_runUntilNow`: running keeps what cycles and ticks of the timers keep
* `Host.still_pause`, `Host.still_resume`: a pause and a resume change nothing but the status
-/

namespace Chip8.Host

variable {σ Op : Type}

/-- Nothing in the queue is due. Nothing is in it, or off it but not carried out yet, but ticks of
timer chains. Listeners do nothing but fail at most, and something holds of the plant in its
world. -/
abbrev Clockwork (W : σ × World → Prop) (es : List (Event (Task Op))) (h : Host σ Op) : Prop :=
  Arranged W (fun _ => False) Script.Inert es h

/-- Whether the host runs, and at which pace, is as it was. -/
structure Ran (start h : Host σ Op) : Prop where
  status : h.status = start.status
  frequency : h.frequency = start.frequency
  maxCatchUp : h.maxCatchUp = start.maxCatchUp
  interval : h.interval = start.interval
  listeners : h.listeners = start.listeners

variable {W : σ × World → Prop} {es : List (Event (Task Op))} {start h k : Host σ Op} {α : Type}
  {E : Failure → Host σ Op → Prop}

theorem Ran.refl (h : Host σ Op) : Ran h h := ⟨rfl, rfl, rfl, rfl, rfl⟩

theorem Ran.around (hh : Ran start h) (hk : Around W h k) : Ran start k := by
  obtain ⟨s, -, rfl⟩ := hk
  exact { hh with }

/-! ## Running -/

section

variable [Plant σ Op] {run : Runner σ Op} (hrun : LeavesAlone run) (hquiet : Plant.Quiet W)

include hrun hquiet

/-- A tick of a timer chain, or what is left of one that is stale. -/
theorem clockwork_perform (e : Event (Task Op)) (es : List (Event (Task Op))) :
    Hoare (fun h => Clockwork W (e :: es) h ∧ Ran start h) (perform run e.payload)
      (fun _ h => Clockwork W es h ∧ Ran start h) (fun _ h => Clockwork W [] h ∧ Ran start h) := by
  rintro h ⟨hh, hran⟩
  have hkept := hh.kept e List.mem_cons_self
  cases hpayload : e.payload with
  | timers chain =>
    rw [hpayload] at hkept
    rcases tickChain_cases hrun hquiet hh.listeners hh.holds chain with
      ⟨-, heq⟩ | ⟨⟨rfl, -⟩, k, hk, ⟨-, heq⟩ | ⟨cause, -, heq⟩⟩
    · simp only [perform, heq]
      exact ⟨hh.drop_head, hran⟩
    · have hrest := hh.drop_head.around hk fun _ hs => hs
      have hchain : h.chain ≤ k.chain := by
        obtain ⟨s, -, rfl⟩ := hk
        exact Nat.le_refl _
      simp only [perform, heq]
      exact ⟨hrest.enqueue hrest.interval hchain, { hran.around hk with }⟩
    · simp only [perform, heq]
      exact ⟨hh.drop.around hk fun _ hs => hs, hran.around hk⟩
  | _ =>
    rw [hpayload] at hkept
    exact hkept.elim

theorem dispatches_clockwork :
    Dispatches run (fun _ es h => Clockwork W es h ∧ Ran start h)
      (fun _ h => Clockwork W [] h ∧ Ran start h) where
  late _ _ hh := hh.1.late
  cycle _ := by
    have hcycle : Keeps (fun h => Clockwork W [] h ∧ Ran start h) (cycle run) :=
      keeps_of_around (fun _ _ => keeps_around_cycle hrun hquiet) (fun _ hh => hh.1.holds)
        fun _ _ hh hk => ⟨hh.1.around hk fun _ hs => hs, hh.2.around hk⟩
    exact hcycle.consequence (fun _ hh => hh.1) (fun _ _ hh => hh) fun _ _ hh => hh
  step _ _ hh := ⟨hh.1.step, { hh.2 with }⟩
  perform _ := clockwork_perform hrun hquiet

/-- **Running until now** keeps what cycles and ticks of the timers keep. -/
theorem clockwork_runUntilNow :
    Keeps (fun h => Clockwork W [] h ∧ Ran start h) (runUntilNow run) := by
  have hanchor : ∀ (h : Host σ Op) anchor, Clockwork W [] h ∧ Ran start h →
      Clockwork W [] { h with anchor } ∧ Ran start { h with anchor } :=
    fun _ _ hh => ⟨{ hh.1 with }, { hh.2 with }⟩
  exact keepsOr_runUntilNow (keepsOr_cyclesDue_of hanchor fun _ _ hh => hh)
    (dispatches_clockwork hrun hquiet).ticking.keepsOr_tick

theorem hoare_runUntilNow_clockwork (hh : Clockwork W [] h) :
    Hoare (· = h) (runUntilNow run) (fun _ k => Clockwork W [] k ∧ Ran h k)
      (fun _ k => Clockwork W [] k ∧ Ran h k) := by
  rintro k rfl
  exact clockwork_runUntilNow hrun hquiet k ⟨hh, .refl k⟩

end

/-! ## Pausing and going on -/

/-- Nothing but control was exercised since `start`, and it has led to a status. -/
structure Still (W : σ × World → Prop) (status : Status) (start h : Host σ Op) : Prop
    extends Clockwork W [] h where
  status : h.status = status
  plant : h.plant = start.plant
  world : h.world = start.world
  clock : h.clock = start.clock
  frequency : h.frequency = start.frequency

/-- The clock cannot be anchored at what it shows. -/
def Adrift (start : Host σ Op) (e : Failure) : Prop :=
  ∃ cause, e = .arithmetic cause ∧
    Pacer.anchor start.world.now start.clock start.frequency = .error cause

variable {status status' : Status}

theorem still_refl (hh : Clockwork W [] h) (hstatus : h.status = status) : Still W status h h :=
  ⟨hh, hstatus, rfl, rfl, rfl, rfl⟩

theorem Still.skip (hh : Still W status start h) :
    Still W status start { h with scheduled := h.scheduled + 1 } :=
  { hh with }

theorem still_setStatus :
    Hoare (Still W status start) (modify fun h => { h with status := status' } : HostM σ Op Unit)
      (fun _ => Still W status' start) E :=
  fun _ hh => { hh with status := rfl }

theorem still_stopChain : KeepsOr (Still W status start) E (stopChain : HostM σ Op Unit) :=
  .modify fun _ hh => { hh with }

theorem still_startChain : KeepsOr (Still W status start) E (startChain : HostM σ Op Unit) := by
  refine .get_bind fun h hh => ?_
  refine .ite (fun _ => ?_) fun _ => .pure _
  intro k _
  exact { hh with toArranged := hh.nextChain.enqueue hh.interval (Nat.le_refl _) }

theorem still_anchorClock :
    Hoare (Still W status start) (anchorClock : HostM σ Op Unit) (fun _ => Still W status start)
      (fun e h => Still W status start h ∧ Adrift start e) := by
  intro h hh
  simp only [anchorClock, anchorAt, run_bind, run_get]
  cases hanchor : Pacer.anchor h.world.now h.clock h.frequency with
  | ok anchor => exact { hh with }
  | error cause =>
    refine ⟨hh, cause, rfl, ?_⟩
    rw [← hh.world, ← hh.clock, ← hh.frequency]
    exact hanchor

theorem still_applyPause :
    Hoare (Still W .running start) (applyPause : HostM σ Op Unit)
      (fun _ => Still W .paused start) E := by
  refine .get_bind fun h hh => ?_
  rw [if_pos hh.status]
  rintro k rfl
  exact Hoare.bind (E := E) still_setStatus (fun _ => still_stopChain) k hh

theorem still_applyResume :
    Hoare (Still W .paused start) (applyResume : HostM σ Op Unit) (fun _ => Still W .running start)
      (fun e h => Still W .running start h ∧ Adrift start e) := by
  refine .get_bind fun h hh => ?_
  have hidle : h.status ≠ .running := by
    rw [hh.status]
    decide
  rw [if_pos hidle]
  rintro k rfl
  exact Hoare.bind still_setStatus (fun _ => still_anchorClock.bind fun _ => still_startChain) k hh

variable [Plant σ Op] {run : Runner σ Op}

/-- **A pause** changes the status. -/
theorem still_pause :
    Hoare (Still W .running start) (pause run) (fun _ => Still W .paused start) E := by
  intro h hh
  have hpause : pause run h = applyPause { h with scheduled := h.scheduled + 1 } := by
    rw [pause, run_bind, run_get]
    simp only [if_pos hh.status]
    exact schedule_now hh.late .pause
  rw [hpause]
  exact still_applyPause _ hh.skip

/-- **A resume** changes it back, also if the clock cannot be anchored. -/
theorem still_resume :
    Hoare (Still W .paused start) (resume run) (fun _ => Still W .running start)
      (fun e h => Still W .running start h ∧ Adrift start e) := by
  intro h hh
  have hresume : resume run h = applyResume { h with scheduled := h.scheduled + 1 } := by
    rw [resume, run_bind, run_get]
    simp only [if_pos hh.status]
    exact schedule_now hh.late .resume
  rw [hresume]
  exact still_applyResume _ hh.skip

end Chip8.Host
