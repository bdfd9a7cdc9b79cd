import Chip8.Proofs.TimerChain

/-!
# Dispatching events

Where listeners and events of the user's own do nothing but fail at most, a tick of the timer chain
leaves everything alone but the plant and the world, and puts the next event into the queue unless
it fails.

So such a host is told by what holds of its plant in its world, and by what waits in its queue.
While events are carried out, those that are off the queue already have to be counted in.

## Main definitions

* `Script.Inert`: a script that does nothing, or asks for a failure
* `Plant.Quiet`: a plant that wants nothing done keeps what holds of it and its world
* `Host.Around`: a host with another plant in another world
* `Host.Arranged`: nothing waits but ticks of timer chains and events with scripts of a kind

## Main statements

* `Host.tickChain_cases`: a tick of the timer chain, told by a host with inert listeners
* `Host.keeps_of_around`: what only the plant does keeps what the plant keeps
* `Host.Arranged.enqueue`, `Host.Arranged.step`: what waits, as the queue and the clock move on
-/

namespace Chip8

variable {σ Op : Type}

/-- The script does nothing, or asks for a failure. -/
def Script.Inert (script : List (Command Op)) : Prop := ∀ c ∈ script, ∃ text, c = .raise text

theorem Script.inert_nil : Script.Inert ([] : Script Op) := fun _ hc => nomatch hc

/-- The event is a tick of a timer chain that has begun, or has a script of a kind. -/
def Task.Kept (q : Script Op → Prop) (chain : Nat) : Task Op → Prop
  | .timers c => c ≤ chain
  | .script _ commands => q commands
  | _ => False

theorem Task.Kept.mono {q : Script Op → Prop} {chain chain' : Nat} {task : Task Op}
    (h : task.Kept q chain) (hle : chain ≤ chain') : task.Kept q chain' := by
  cases task with
  | timers c => exact Nat.le_trans h hle
  | script label commands => exact h
  | _ => exact h.elim

/-- The plant wants nothing done, and what holds of it and its world is kept when it runs and when a
listener is told of a beep. -/
structure Plant.Quiet [Plant σ Op] (W : σ × World → Prop) : Prop where
  cycle : Hoare W (Plant.cycle : PlantM σ (Script Op))
    (fun script s => W s ∧ script = []) (fun _ => W)
  updateTimers : ∀ clock, Hoare W (Plant.updateTimers clock : PlantM σ (TimerResult Op))
    (fun result s => W s ∧ result.script = []) (fun _ => W)
  tell : ∀ s name clock, W s → W (s.1, s.2.record (.mark (.listener name clock)))

theorem Plant.Modest.quiet [Plant σ Op] (hmodest : Plant.Modest σ) :
    Plant.Quiet (σ := σ) (fun _ => True) where
  cycle := by
    intro s _
    cases hend : (Plant.cycle : PlantM σ (Script Op)) s with
    | ok script t => exact ⟨trivial, hmodest.cycle _ _ _ hend⟩
    | error e t => trivial
  updateTimers clock := by
    intro s _
    obtain ⟨beeped, t, hend⟩ := hmodest.updateTimers clock s
    rw [hend]
    exact ⟨trivial, rfl⟩
  tell _ _ _ _ := trivial

namespace Host

variable {W : σ × World → Prop} {h : Host σ Op} {α : Type}

/-! ## What leaves the host alone -/

/-- The host with another plant in another world, of which something holds. -/
def Around (W : σ × World → Prop) (h k : Host σ Op) : Prop :=
  ∃ s : σ × World, W s ∧ k = { h with plant := s.1, world := s.2 }

theorem Around.refl (hW : W (h.plant, h.world)) : Around W h h := ⟨(h.plant, h.world), hW, rfl⟩

/-- What changes only the plant and the world keeps an invariant, if it keeps what the invariant
says about them. -/
theorem keeps_of_around {J : Host σ Op → Prop} {V : Host σ Op → σ × World → Prop} {m : HostM σ Op α}
    (hm : ∀ h, J h → Keeps (Around (V h) h) m) (hJ : ∀ h, J h → V h (h.plant, h.world))
    (haround : ∀ h k, J h → Around (V h) h k → J k) : Keeps J m := by
  intro h hh
  refine (hm h hh).consequence (fun _ hk => hk) ?_ ?_ h (.refl (hJ h hh))
  · exact fun _ k hk => haround h k hh hk
  · exact fun _ k hk => haround h k hh hk

theorem hoare_around_onPlant {m : PlantM σ α} {R : α → Prop}
    (hm : Hoare W m (fun a s => W s ∧ R a) (fun _ => W)) :
    Hoare (Around W h) (onPlant m) (fun a k => Around W h k ∧ R a) (fun _ => Around W h) := by
  refine hoare_onPlant_of hm ?_ ?_ ?_
  · rintro _ ⟨s, hs, rfl⟩
    exact hs
  · rintro _ a t ⟨s, -, rfl⟩ ht
    exact ⟨⟨t, ht.1, rfl⟩, ht.2⟩
  · rintro _ e t ⟨s, -, rfl⟩ ht
    exact ⟨t, ht, rfl⟩

/-! ## What waits -/

/-- Nothing in the queue is due. In it, or off it but not carried out yet, there are only ticks of
timer chains and events with scripts of a kind. Listeners have scripts of a kind, too, and something
holds of the plant in its world. -/
structure Arranged (W : σ × World → Prop) (q r : Script Op → Prop) (es : List (Event (Task Op)))
    (h : Host σ Op) : Prop extends UpToDate h where
  holds : W (h.plant, h.world)
  kept : ∀ e ∈ es ++ h.queue.events, e.payload.Kept q h.chain
  listeners : ∀ l ∈ h.listeners, r l.script

namespace Arranged

variable {V : σ × World → Prop} {q r : Script Op → Prop} {e : Event (Task Op)}
  {es : List (Event (Task Op))} {k : Host σ Op}

theorem around (hh : Arranged W q r es h) (hk : Around V h k) (hW : ∀ s, V s → W s) :
    Arranged W q r es k := by
  obtain ⟨s, hs, rfl⟩ := hk
  exact { hh with holds := hW s hs }

/-- Events that are off the queue may be lost. -/
theorem drop (hh : Arranged W q r es h) : Arranged W q r [] h :=
  { hh with kept := fun e he => hh.kept e (List.mem_append_right _ he) }

theorem drop_head (hh : Arranged W q r (e :: es) h) : Arranged W q r es h :=
  { hh with kept := fun f hf => hh.kept f (List.mem_cons_of_mem e hf) }

theorem enqueue (hh : Arranged W q r es h) {delay : Nat} (hdelay : 0 < delay) {task : Task Op}
    (htask : task.Kept q h.chain) : Arranged W q r es (finalState (Host.enqueue delay task h)) where
  toUpToDate := hh.toUpToDate.enqueue hdelay task
  holds := hh.holds
  kept := by
    intro e he
    rcases List.mem_append.1 he with he | he
    · exact hh.kept e (List.mem_append_left _ he)
    rcases EventQueue.mem_insertEvent.1 he with rfl | he
    · exact htask
    · exact hh.kept e (List.mem_append_right _ he)
  listeners := hh.listeners

/-- Ticks of former chains may wait when a new chain begins. -/
theorem nextChain (hh : Arranged W q r es h) :
    Arranged W q r es { h with chainActive := true, chain := h.chain + 1 } :=
  { hh with kept := fun e he => (hh.kept e he).mono (Nat.le_succ _) }

/-- When the clock moves on, what is due is taken off the queue. -/
theorem step (hh : Arranged W q r [] h) :
    Arranged W q r (h.queue.due (h.clock + 1 : Nat))
      { h with clock := h.clock + 1, queue := h.queue.later (h.clock + 1 : Nat) } where
  toUpToDate := hh.toUpToDate.step
  holds := hh.holds
  kept e he := hh.kept e (h.queue.due_append_later (h.clock + 1 : Nat) ▸ he)
  listeners := hh.listeners

end Arranged

/-! ## Ticks of the timer chain -/

/-- Running an inert script leaves the host alone. -/
def LeavesAlone (run : Runner σ Op) : Prop :=
  ∀ script, Script.Inert script → ∀ h, finalState (run script h) = h

theorem LeavesAlone.keeps {run : Runner σ Op} (hrun : LeavesAlone run) {J : Host σ Op → Prop}
    {script : Script Op} (hscript : Script.Inert script) : Keeps J (run script) := by
  intro h hh
  have hsame : finalState (run script h) = h := hrun script hscript h
  rw [← hsame] at hh
  cases hend : run script h with
  | ok _ k => rwa [hend] at hh
  | error e k => rwa [hend] at hh

variable [Plant σ Op] {run : Runner σ Op}

theorem leavesAlone_runner (depth : Nat) : LeavesAlone (runner depth : Runner σ Op) := by
  intro script hscript h
  cases script with
  | nil => rw [runner_nil]; rfl
  | cons c cs =>
    obtain ⟨text, rfl⟩ := hscript c List.mem_cons_self
    cases depth <;> rfl

section

variable (hrun : LeavesAlone run) (hquiet : Plant.Quiet (σ := σ) W)

include hrun hquiet

theorem keeps_around_cycle : Keeps (Around W h) (cycle run) := by
  refine .bind_of (hoare_around_onPlant hquiet.cycle) ?_
  rintro _ rfl
  exact hrun.keeps Script.inert_nil

theorem keeps_around_tell {l : Listener Op} (hl : Script.Inert l.script) :
    Keeps (Around W h) (tell run l) := by
  refine .get_bind fun k _ => ?_
  refine Keeps.bind (.modify ?_) fun _ => hrun.keeps hl
  rintro _ ⟨s, hs, rfl⟩
  exact ⟨_, hquiet.tell s l.name k.clock hs, rfl⟩

theorem keeps_around_updateTimers (hlisteners : ∀ l ∈ h.listeners, Script.Inert l.script) :
    Keeps (Around W h) (updateTimers run) := by
  refine .get_bind fun k _ => ?_
  refine .bind_of (hoare_around_onPlant (hquiet.updateTimers k.clock)) fun result hnothing => ?_
  rw [hnothing]
  refine (hrun.keeps Script.inert_nil).bind fun _ => ?_
  refine .ite (fun _ => ?_) fun _ => .pure _
  refine .get_bind ?_
  rintro _ ⟨s, -, rfl⟩
  exact .forM fun l hl => keeps_around_tell hrun hquiet (hlisteners l hl)

/-- **A tick of the timer chain** does nothing if the chain is stale. Otherwise the next event is
put into the queue, unless the tick fails. -/
theorem tickChain_cases (hlisteners : ∀ l ∈ h.listeners, Script.Inert l.script)
    (hW : W (h.plant, h.world)) (chain : Nat) :
    (¬(chain = h.chain ∧ h.chainActive = true ∧ h.status = .running) ∧
      tickChain run chain h = .ok () h) ∨
    (chain = h.chain ∧ h.chainActive = true ∧ h.status = .running) ∧ ∃ k, Around W h k ∧
      ((updateTimers run h = .ok () k ∧
        tickChain run chain h = enqueue k.interval (.timers chain) k) ∨
        ∃ e, updateTimers run h = .error e k ∧ tickChain run chain h = .error e k) := by
  by_cases hcurrent : chain = h.chain ∧ h.chainActive = true ∧ h.status = .running
  · refine .inr ⟨hcurrent, ?_⟩
    have hend := keeps_around_updateTimers (h := h) hrun hquiet hlisteners h (.refl hW)
    cases hticked : updateTimers run h with
    | ok _ k =>
      rw [hticked] at hend
      refine ⟨k, hend, .inl ⟨rfl, ?_⟩⟩
      obtain ⟨s, -, rfl⟩ := hend
      have hgoing := hcurrent.2
      simp only [tickChain, run_bind, run_get, if_pos hcurrent, hticked, if_pos hgoing]
    | error e k =>
      rw [hticked] at hend
      refine ⟨k, hend, .inr ⟨e, rfl, ?_⟩⟩
      simp only [tickChain, run_bind, run_get, if_pos hcurrent, hticked]
  · refine .inl ⟨hcurrent, ?_⟩
    simp only [tickChain, run_bind, run_get, if_neg hcurrent]
    rfl

end

end Host

end Chip8
