import Chip8.Proofs.Commands

/-!
# Invariants of a host

Whatever a host is told, it does with its plant nothing but what it was told to. So if the plant
keeps an invariant under its own operations, it keeps it under every command of the host, with all
the events, listeners and scripts that a command may set going, and whether or not it fails on the
way.

Commands come in scripts, and scripts wait in the queue and with the listeners until they are run.
The invariant therefore has to speak of all scripts that are kept somewhere.

What a host does by itself is gone through once, for all invariants that ask nothing of its status,
its clock and its counts, and of its queue only which scripts are waiting in it.

## Main definitions

* `Command.Every`, `Script.Every`: all that the plant is told, at any depth, is of a kind
* `Plant.Keeps`, `Plant.Upholds`: the plant keeps an invariant under operations of a kind, which may
  speak of the world, too
* `Host.Invariant`, `Host.PlantInvariant`: what an invariant has to come with
* `Host.Upheld`: the plant has the invariant in its world, timer ticks are apart, and all scripts
  kept are of the kind
* `Host.AsksOfListeners`: what an invariant may ask of the listeners, to be kept when they come and
  go

## Main statements

* `Host.PlantInvariant.spares`: such an invariant is spared by the routine of a host
* `Host.keepsOr_runner`: nested scripts keep what their commands keep
* `Host.upheld_execute`: a command keeps what holds of the plant in its world
-/

namespace Chip8

variable {σ Op : Type}

mutual

/-- All that a command tells the plant, also in the scripts it brings along, is of a kind. -/
def Command.Every (p : Op → Prop) : Command Op → Prop
  | .schedule _ _ script => Script.Every p script
  | .addListener _ script => Script.Every p script
  | .operate op => p op
  | _ => True

/-- All that the commands of a script tell the plant is of a kind. -/
def Script.Every (p : Op → Prop) : List (Command Op) → Prop
  | [] => True
  | c :: cs => Command.Every p c ∧ Script.Every p cs

end

/-- What is said of a script command by command holds of each of its commands. -/
theorem Script.of_mem {p : Command Op → Prop} {q : Script Op → Prop}
    (hcons : ∀ c cs, q (c :: cs) → p c ∧ q cs) {script : Script Op} (h : q script) {c : Command Op}
    (hc : c ∈ script) : p c := by
  induction script with
  | nil => cases hc
  | cons d ds ih =>
    obtain ⟨hd, hds⟩ := hcons d ds h
    rcases List.mem_cons.1 hc with rfl | hc
    · exact hd
    · exact ih hds hc

theorem Script.Every.of_mem {p : Op → Prop} {script : Script Op} (h : Script.Every p script)
    {c : Command Op} (hc : c ∈ script) : c.Every p :=
  Script.of_mem (fun _ _ hcons => hcons) h hc

mutual

theorem Command.every_of_forall {p : Op → Prop} (hp : ∀ op, p op) : ∀ c : Command Op, c.Every p
  | .schedule _ _ script => Script.every_of_forall hp script
  | .addListener _ script => Script.every_of_forall hp script
  | .operate op => hp op
  | .powerOn | .powerOff | .pause | .resume | .reset | .tick _ | .cycle _ | .cyclesDue
  | .runUntilNow | .run _ | .setFrequency _ | .updateTimers | .applyPause | .applyResume
  | .applyPowerOff | .advance _ | .setMaxCatchUp _ | .raise _ | .removeListener _ => trivial

theorem Script.every_of_forall {p : Op → Prop} (hp : ∀ op, p op) :
    ∀ script : Script Op, Script.Every p script
  | [] => trivial
  | c :: cs => ⟨Command.every_of_forall hp c, Script.every_of_forall hp cs⟩

end

/-- All that an event tells the plant is of a kind. -/
def Task.Every (p : Op → Prop) : Task Op → Prop
  | .script _ commands => Script.Every p commands
  | _ => True

/-- The script of the event, if it has one, is of a kind. -/
def Task.Runs (q : Script Op → Prop) : Task Op → Prop
  | .script _ commands => q commands
  | _ => True

theorem Task.runs_every {p : Op → Prop} {task : Task Op} :
    task.Runs (Script.Every p) ↔ task.Every p := by
  cases task <;> exact Iff.rfl

/-- The plant keeps an invariant under operations of a kind, and wants only such operations done. -/
structure Plant.Keeps [Plant σ Op] (I : σ → Prop) (p : Op → Prop) : Prop where
  cycle : Hoare (fun s => I s.1) (Plant.cycle : PlantM σ (Script Op))
    (fun script s => I s.1 ∧ Script.Every p script) (fun _ s => I s.1)
  updateTimers : ∀ clock, Hoare (fun s => I s.1)
    (Plant.updateTimers clock : PlantM σ (TimerResult Op))
    (fun result s => I s.1 ∧ Script.Every p result.script) (fun _ s => I s.1)
  reset : Chip8.Keeps (fun s => I s.1) (Plant.reset : PlantM σ Unit)
  operate : ∀ op, p op → Chip8.Keeps (fun s => I s.1) (Plant.operate op : PlantM σ Reply)

/-- What holds of the plant in its world is kept under operations of a kind, when a mark is left and
when time passes. The plant wants only such operations done. -/
structure Plant.Upholds [Plant σ Op] (W : σ × World → Prop) (p : Op → Prop) : Prop where
  cycle : Hoare W (Plant.cycle : PlantM σ (Script Op))
    (fun script s => W s ∧ Script.Every p script) (fun _ => W)
  updateTimers : ∀ clock, Hoare W (Plant.updateTimers clock : PlantM σ (TimerResult Op))
    (fun result s => W s ∧ Script.Every p result.script) (fun _ => W)
  reset : Chip8.Keeps W (Plant.reset : PlantM σ Unit)
  operate : ∀ op, p op → Chip8.Keeps W (Plant.operate op : PlantM σ Reply)
  mark : ∀ s m, W s → W (s.1, s.2.record (.mark m))
  pass : ∀ s nanoseconds, W s → W (s.1, s.2.pass nanoseconds)

theorem Plant.Upholds.and [Plant σ Op] {V W : σ × World → Prop} {p : Op → Prop}
    (hV : Plant.Upholds V p) (hW : Plant.Upholds W p) : Plant.Upholds (fun s => V s ∧ W s) p where
  cycle := (hV.cycle.and hW.cycle).consequence (fun _ hs => hs)
    (fun _ _ hs => ⟨⟨hs.1.1, hs.2.1⟩, hs.1.2⟩) fun _ _ hs => hs
  updateTimers clock := ((hV.updateTimers clock).and (hW.updateTimers clock)).consequence
    (fun _ hs => hs) (fun _ _ hs => ⟨⟨hs.1.1, hs.2.1⟩, hs.1.2⟩) fun _ _ hs => hs
  reset := hV.reset.and hW.reset
  operate op hop := (hV.operate op hop).and (hW.operate op hop)
  mark s m hs := ⟨hV.mark s m hs.1, hW.mark s m hs.2⟩
  pass s nanoseconds hs := ⟨hV.pass s nanoseconds hs.1, hW.pass s nanoseconds hs.2⟩

/-- An invariant of the plant asks nothing of the world. -/
theorem Plant.Keeps.upholds [Plant σ Op] {I : σ → Prop} {p : Op → Prop} (hplant : Plant.Keeps I p) :
    Plant.Upholds (fun s => I s.1) p :=
  { hplant with
    mark := fun _ _ hs => hs
    pass := fun _ _ hs => hs }

namespace Host

variable {α : Type}

/-! ## Using the plant -/

theorem finalState_onPlant (m : PlantM σ α) (h : Host σ Op) :
    finalState (onPlant m h) = { h with
      plant := (finalState (m (h.plant, h.world))).1
      world := (finalState (m (h.plant, h.world))).2 } := by
  simp only [onPlant]
  cases m (h.plant, h.world) <;> rfl

/-- What the plant does keeps or leaves what it asks of the plant in its world, and of the rest of
the host. -/
theorem hoare_onPlant_of {m : PlantM σ α} {W : σ × World → Prop} {Q : α → σ × World → Prop}
    {F : Failure → σ × World → Prop} {J : Host σ Op → Prop} {K : α → Host σ Op → Prop}
    {E : Failure → Host σ Op → Prop} (hm : Hoare W m Q F) (hholds : ∀ h, J h → W (h.plant, h.world))
    (hends : ∀ h a s, J h → Q a s → K a { h with plant := s.1, world := s.2 })
    (hfails : ∀ h e s, J h → F e s → E e { h with plant := s.1, world := s.2 }) :
    Hoare J (onPlant m) K E := by
  intro h hh
  have hplant := hm (h.plant, h.world) (hholds h hh)
  simp only [onPlant]
  cases hend : m (h.plant, h.world) with
  | ok a s =>
    rw [hend] at hplant
    exact hends h a s hh hplant
  | error e s =>
    rw [hend] at hplant
    exact hfails h e s hh hplant

theorem onPlant_eq_ok {m : PlantM σ α} {h k : Host σ Op} {a : α} (hend : onPlant m h = .ok a k) :
    m (h.plant, h.world) = .ok a (k.plant, k.world) := by
  simp only [onPlant] at hend
  cases hm : m (h.plant, h.world) with
  | ok b s =>
    rw [hm] at hend
    cases hend
    rfl
  | error e s =>
    rw [hm] at hend
    cases hend

/-! ## Cleaning up -/

theorem keeps_ensuring {J : Host σ Op → Prop} {body : HostM σ Op α} {cleanup : HostM σ Op Unit}
    (hbody : Keeps J body) (hcleanup : Keeps J cleanup) : Keeps J (ensuring body cleanup) := by
  intro h hh
  have hmid := hbody h hh
  simp only [ensuring]
  split at hmid
  next a k heq =>
    have hend := hcleanup k hmid
    rw [heq]
    split at hend
    next hclean => simpa only [hclean] using hend
    next hclean => simpa only [hclean] using hend
  next e k heq =>
    have hend := hcleanup k hmid
    rw [heq]
    split at hend
    next hclean => simpa only [hclean] using hend
    next hclean => simpa only [hclean] using hend


/-! ## What a host does by itself -/

/-- The invariant asks nothing of the status, the clock and the counts, and is kept when a mark is
left and when time passes. Scripts that wait in the queue or with a listener are of a kind, and the
queue may be any other of which that holds. -/
structure Invariant (q : Script Op → Prop) (J : Host σ Op → Prop) : Prop where
  aside : ∀ h status clock anchor scheduled chainActive chain, J h →
    J { h with status, clock, anchor, scheduled, chainActive, chain }
  recordMark : ∀ h m, J h → J { h with world := h.world.record (.mark m) }
  pass : ∀ h nanoseconds, J h → J { h with world := h.world.pass nanoseconds }
  queue : ∀ h queue, J h → (∀ e ∈ queue.events, e.payload.Runs q) → J { h with queue }
  events : ∀ h, J h → ∀ e ∈ h.queue.events, e.payload.Runs q
  told : ∀ h, J h → ∀ l ∈ h.listeners, q l.script

/-- The plant keeps the invariant when it runs, and wants only scripts of the kind. -/
structure PlantInvariant [Plant σ Op] (q : Script Op → Prop) (J : Host σ Op → Prop) : Prop
    extends Invariant q J where
  cycle : Hoare J (onPlant Plant.cycle) (fun script h => J h ∧ q script) (fun _ => J)
  updateTimers : ∀ clock, Hoare J (onPlant (Plant.updateTimers clock))
    (fun result h => J h ∧ q result.script) (fun _ => J)
  reset : Keeps J (onPlant Plant.reset)

variable {q : Script Op → Prop} {J : Host σ Op → Prop}

namespace Invariant

variable (hJ : Invariant q J)

include hJ

theorem keeps_mark (m : Mark) : Keeps J (mark m) :=
  .modify fun h hh => hJ.recordMark h m hh

theorem keeps_enqueue (delay : Nat) {task : Task Op} (htask : task.Runs q) :
    Keeps J (enqueue delay task) := by
  refine .modify fun h hh => ?_
  refine hJ.queue _ _
    (hJ.aside h h.status h.clock h.anchor (h.scheduled + 1) h.chainActive h.chain hh) ?_
  intro e he
  rcases EventQueue.mem_insertEvent.1 he with rfl | he
  · exact htask
  · exact hJ.events h hh e he

theorem hoare_takeDue :
    Hoare J takeDue (fun events h => J h ∧ ∀ e ∈ events, e.payload.Runs q) (fun _ => J) := by
  intro h hh
  -- What is due and what is later were both in the queue.
  have hall := EventQueue.due_append_later h.queue h.clock
  refine ⟨hJ.queue h _ hh ?_, ?_⟩
  · intro e he
    exact hJ.events h hh e (hall ▸ List.mem_append_right _ he)
  · intro e he
    exact hJ.events h hh e (hall ▸ List.mem_append_left _ he)

theorem keeps_startChain : Keeps J startChain := by
  refine .get_bind fun h hh => ?_
  refine .ite (fun _ => ?_) fun _ => .pure _
  exact (Keeps.set (hJ.aside h _ _ _ _ _ _ hh)).bind fun _ => hJ.keeps_enqueue _ trivial

theorem keeps_stopChain : Keeps J stopChain := .modify fun h hh => hJ.aside h _ _ _ _ _ _ hh

theorem keeps_clearQueue : Keeps J clearQueue :=
  .modify fun h hh => hJ.queue h _ hh fun _ he => nomatch he

theorem clearance : Clearance J fun _ => J where
  aside h _ _ hh := hJ.aside h _ _ _ _ _ _ hh
  startChain := hJ.keeps_startChain
  stopChain := hJ.keeps_stopChain
  arithmetic _ _ hh := hh
  clearQueue := hJ.keeps_clearQueue
  zeroClock h hh := hJ.aside h _ _ _ _ _ _ hh

end Invariant

section

variable [Plant σ Op]

namespace PlantInvariant

variable {run : Runner σ Op} (hJ : PlantInvariant q J)

include hJ

/-! ### Events and listeners -/

variable (hrun : ∀ script, q script → Keeps J (run script))

include hrun

theorem keeps_tell {l : Listener Op} (hl : q l.script) : Keeps J (tell run l) := by
  refine .get_bind fun h _ => ?_
  exact (hJ.keeps_mark _).bind fun _ => hrun l.script hl

theorem keeps_updateTimers : Keeps J (Host.updateTimers run) := by
  refine .get_bind fun h _ => ?_
  refine .bind_of (hJ.updateTimers h.clock) fun result hscript => ?_
  refine (hrun result.script hscript).bind fun _ => ?_
  refine .ite (fun _ => ?_) fun _ => .pure _
  -- The listeners told are those of the moment before the first of them is told.
  refine .get_bind fun k hk => ?_
  exact .forM fun l hl => hJ.keeps_tell hrun (hJ.told k hk l hl)

theorem keeps_tickChain (chain : Nat) : Keeps J (tickChain run chain) := by
  refine .get_bind fun h _ => ?_
  refine .ite (fun _ => ?_) fun _ => .pure _
  refine (hJ.keeps_updateTimers hrun).bind fun _ => ?_
  refine .get_bind fun k _ => ?_
  exact .ite (fun _ => hJ.keeps_enqueue _ trivial) fun _ => .pure _

theorem keeps_perform {task : Task Op} (htask : task.Runs q) : Keeps J (perform run task) := by
  cases task with
  | timers chain => exact hJ.keeps_tickChain hrun chain
  | powerOff => exact hJ.clearance.keepsOr_applyPowerOff
  | reset => exact hJ.clearance.keepsOr_applyReset hJ.reset
  | pause => exact hJ.clearance.keepsOr_applyPause
  | resume => exact hJ.clearance.keepsOr_applyResume
  | script label commands =>
    refine .get_bind fun h _ => ?_
    exact (hJ.keeps_mark _).bind fun _ => hrun commands htask

theorem keeps_processEvents : Keeps J (processEvents run) := by
  refine .bind_of hJ.hoare_takeDue fun events hevents => ?_
  exact .forM fun e he => hJ.keeps_perform hrun (hevents e he)

theorem keeps_schedule (delay : Int) {task : Task Op} (htask : task.Runs q) :
    Keeps J (schedule run delay task) := by
  refine (hJ.keeps_enqueue _ htask).bind fun _ => ?_
  exact .ite (fun _ => hJ.keeps_processEvents hrun) fun _ => .pure _

theorem immediate : Immediate run J fun _ => J := by
  intro task hcontrols _
  refine hJ.keeps_schedule hrun 0 ?_
  cases task with
  | script => exact hcontrols.elim
  | _ => trivial

/-! ### Running -/

theorem keeps_cycle : Keeps J (Host.cycle run) :=
  .bind_of hJ.cycle fun script hscript => hrun script hscript

theorem keeps_tickTimes (n : Nat) : Keeps J (tickTimes run n) := by
  induction n with
  | zero => exact .pure _
  | succ n ih =>
    refine .get_bind fun h _ => ?_
    refine .ite (fun _ => ?_) fun _ => .pure _
    refine (hJ.keeps_cycle hrun).bind fun _ => ?_
    refine (Keeps.modify fun h hh => hJ.aside h _ _ _ _ _ _ hh).bind fun _ => ?_
    exact (hJ.keeps_processEvents hrun).bind fun _ => ih

theorem keeps_tick (cycles : Int) : Keeps J (tick run cycles) := by
  refine .ite (fun _ => ?_) fun _ => .pure _
  exact (hJ.keeps_processEvents hrun).bind fun _ => hJ.keeps_tickTimes hrun _

theorem running : Running run J fun _ => J where
  cycle := hJ.keeps_cycle hrun
  updateTimers := hJ.keeps_updateTimers hrun
  tick := hJ.keeps_tick hrun
  pass := hJ.pass
  raise _ _ hh := hh

/-- **The routine** of a host, given a way to run scripts that keeps the invariant. -/
theorem spares {c : Command Op} (hroutine : c.Routine) : Spares run J (fun _ => J) c := by
  have hoff := (hJ.immediate hrun).keepsOr_powerOff hJ.clearance.keepsOr_applyPowerOff
  exact hJ.clearance.spares (hJ.running hrun) hJ.reset
    (fun cycles => keeps_ensuring (hJ.keeps_tick hrun cycles) hoff) hroutine

end PlantInvariant

end

/-! ## Invariants of the plant in its world -/

/-- Something holds of the plant in its world, timer ticks are at least a cycle apart, and whatever
waits in the queue or with a listener tells the plant only operations of a kind. -/
structure Upheld (W : σ × World → Prop) (p : Op → Prop) (h : Host σ Op) : Prop where
  holds : W (h.plant, h.world)
  interval : 1 ≤ h.interval
  queue : ∀ e ∈ h.queue.events, e.payload.Every p
  listeners : ∀ l ∈ h.listeners, Script.Every p l.script
  known : ∀ l ∈ h.known, Script.Every p l.script

variable {W : σ × World → Prop} {p : Op → Prop}

theorem upheld_create {plant : σ} {world : World} {frequency timerFrequency : Number}
    {maxCatchUp : Int} {h : Host σ Op} (hW : W (plant, world))
    (hcreate : create plant world frequency timerFrequency maxCatchUp = .ok h) : Upheld W p h := by
  obtain ⟨-, interval, anchor, hinterval, -, rfl⟩ := create_eq_ok_iff.1 hcreate
  exact {
    holds := hW
    interval := Pacer.one_le_timerInterval hinterval
    queue := fun _ he => nomatch he
    listeners := fun _ hl => nomatch hl
    known := fun _ hl => nomatch hl }

theorem hoare_onPlant {m : PlantM σ α} {R : α → Prop}
    (hm : Hoare W m (fun a s => W s ∧ R a) (fun _ => W)) :
    Hoare (Upheld W p) (onPlant m : HostM σ Op α) (fun a h => Upheld W p h ∧ R a)
      (fun _ => Upheld W p) :=
  hoare_onPlant_of hm (fun _ hh => hh.holds) (fun _ _ _ hh hs => ⟨{ hh with holds := hs.1 }, hs.2⟩)
    fun _ _ _ hh hs => { hh with holds := hs }

theorem keeps_onPlant {m : PlantM σ α} (hm : Keeps W m) :
    Keeps (Upheld W p) (onPlant m : HostM σ Op α) :=
  hoare_onPlant_of hm (fun _ hh => hh.holds) (fun _ _ _ hh hs => { hh with holds := hs })
    fun _ _ _ hh hs => { hh with holds := hs }

theorem invariant_upheld (hmark : ∀ s m, W s → W (s.1, s.2.record (.mark m)))
    (hpass : ∀ s nanoseconds, W s → W (s.1, s.2.pass nanoseconds)) :
    Invariant (Script.Every p) (Upheld (σ := σ) W p) where
  aside _ _ _ _ _ _ _ hh := { hh with }
  recordMark _ m hh := { hh with holds := hmark _ m hh.holds }
  pass _ nanoseconds hh := { hh with holds := hpass _ nanoseconds hh.holds }
  queue _ _ hh hqueue := { hh with queue := fun e he => Task.runs_every.1 (hqueue e he) }
  events _ hh e he := Task.runs_every.2 (hh.queue e he)
  told _ hh := hh.listeners

theorem plantInvariant_upheld [Plant σ Op] (hplant : Plant.Upholds (σ := σ) W p) :
    PlantInvariant (Script.Every p) (Upheld (σ := σ) W p) where
  toInvariant := invariant_upheld hplant.mark hplant.pass
  cycle := hoare_onPlant hplant.cycle
  updateTimers clock := hoare_onPlant (hplant.updateTimers clock)
  reset := keeps_onPlant hplant.reset

/-- Of the listeners, registered or only known, an invariant asks no more than that their scripts
are of a kind. -/
structure AsksOfListeners (q : Script Op → Prop) (J : Host σ Op → Prop) : Prop where
  listeners : ∀ h, J h → ∀ l ∈ h.listeners, q l.script
  known : ∀ h, J h → ∀ l ∈ h.known, q l.script
  update : ∀ h listeners known, J h → (∀ l ∈ listeners, q l.script) → (∀ l ∈ known, q l.script) →
    J { h with listeners, known }

namespace AsksOfListeners

variable {q : Script Op → Prop} {J : Host σ Op → Prop} {E : Failure → Host σ Op → Prop}

/-- A listener is known by the script it was first named with. -/
theorem hoare_listenerNamed (hJ : AsksOfListeners q J) (name : String) {script : Script Op}
    (hscript : q script) :
    Hoare J (listenerNamed name script : HostM σ Op (Listener Op))
      (fun l h => J h ∧ q l.script) E := by
  refine .get_bind fun h hh => ?_
  cases hfind : h.known.find? (·.name = name) with
  | some l =>
    rintro _ rfl
    exact ⟨hh, hJ.known _ hh l (List.mem_of_find?_eq_some hfind)⟩
  | none =>
    rintro _ rfl
    refine ⟨hJ.update _ _ _ hh (hJ.listeners _ hh) ?_, hscript⟩
    intro l hl
    rcases List.mem_cons.1 hl with rfl | hl
    · exact hscript
    · exact hJ.known _ hh l hl

theorem keepsOr_addListener (hJ : AsksOfListeners q J) (name : String) {script : Script Op}
    (hscript : q script) : KeepsOr J E (addListener name script : HostM σ Op Unit) := by
  refine .bind_of (hJ.hoare_listenerNamed name hscript) fun l hl => ?_
  refine .modify fun h hh => hJ.update _ _ _ hh ?_ (hJ.known _ hh)
  intro k hk
  rcases List.mem_append.1 hk with hk | hk
  · exact hJ.listeners _ hh k hk
  · rw [List.mem_singleton.1 hk]
    exact hl

theorem keepsOr_removeListener (hJ : AsksOfListeners q J) (hnone : q [])
    (hE : ∀ h, J h → E .unknownListener h) (name : String) :
    KeepsOr J E (removeListener name : HostM σ Op Unit) := by
  refine .bind_of (hJ.hoare_listenerNamed name hnone) fun _ _ => ?_
  refine .get_bind fun h hh => ?_
  refine .ite (fun _ _ _ => ?_) fun _ => .throw hE
  exact hJ.update _ _ _ hh (fun l hl => hJ.listeners _ hh l (List.mem_of_mem_eraseP hl))
    (hJ.known _ hh)

end AsksOfListeners

theorem asksOfListeners_upheld : AsksOfListeners (Script.Every p) (Upheld (σ := σ) W p) where
  listeners _ hh := hh.listeners
  known _ hh := hh.known
  update _ _ _ hh hlisteners hknown := { hh with listeners := hlisteners, known := hknown }

/-! ## Commands -/

/-- **Nested scripts** keep an invariant if their commands do, given a way to run scripts that keeps
it. -/
theorem keepsOr_runner [Plant σ Op] {r : Command Op → Prop} {q : Script Op → Prop}
    {J : Host σ Op → Prop} {E : Failure → Host σ Op → Prop} (hlimit : ∀ h, J h → E .nestedTooDeep h)
    (hmem : ∀ {script : Script Op} {c : Command Op}, q script → c ∈ script → r c)
    (hcommand : ∀ run : Runner σ Op, (∀ script, q script → KeepsOr J E (run script)) →
      ∀ c, r c → KeepsOr J E (carryOut run c)) (depth : Nat)
    {script : Script Op} (hscript : q script) :
    KeepsOr J E (runner depth script : HostM σ Op Unit) := by
  induction depth generalizing script with
  | zero =>
    -- Too deep: an empty script does nothing, and any other fails before its first command.
    cases script with
    | nil => exact .pure _
    | cons c cs => exact .throw hlimit
  | succ depth ih =>
    refine .forM fun c hc => ?_
    exact (hcommand (runner depth) (fun _ => ih) c (hmem hscript hc)).bind fun _ => .pure _

section

variable [Plant σ Op] (hplant : Plant.Upholds (σ := σ) W p)

include hplant

theorem upheld_setFrequency (frequency : Number) :
    Keeps (Upheld W p) (setFrequency frequency : HostM σ Op Unit) := by
  refine (plantInvariant_upheld hplant).clearance.keepsOr_setFrequency ?_ ?_
    (fun _ hh => hh) frequency
  · exact fun _ _ hh => { hh with }
  · exact fun _ _ hinterval hh => { hh with interval := hinterval }

/-- **One command**: given a way to run scripts that keeps an invariant of the plant in its world,
so does the command. -/
theorem upheld_carryOut {run : Runner σ Op}
    (hrun : ∀ script, Script.Every p script → Keeps (Upheld W p) (run script)) {c : Command Op}
    (hc : c.Every p) :
    Keeps (Upheld W p) (carryOut run c) := by
  have hJ := plantInvariant_upheld hplant
  refine keepsOr_carryOut (hJ.immediate hrun) ?_
  cases c with
  | setFrequency frequency => exact upheld_setFrequency hplant frequency
  | setMaxCatchUp cycles => exact fun _ hh => { hh with }
  | schedule delay label script => exact hJ.keeps_schedule hrun delay hc
  | addListener name script => exact asksOfListeners_upheld.keepsOr_addListener name hc
  | removeListener name =>
    exact asksOfListeners_upheld.keepsOr_removeListener trivial (fun _ hh => hh) name
  | operate op => exact keeps_onPlant (hplant.operate op hc)
  | _ => exact hJ.spares hrun trivial

theorem upheld_runner (depth : Nat) (script : Script Op) (hscript : Script.Every p script) :
    Keeps (Upheld W p) (runner depth script : HostM σ Op Unit) :=
  keepsOr_runner (E := fun _ => Upheld W p) (fun _ hh => hh) (fun h hc => h.of_mem hc)
    (fun _ hrun _ => upheld_carryOut hplant hrun) depth hscript

/-- **A command from outside** keeps what holds of the plant in its world. -/
theorem upheld_execute {c : Command Op} (hc : c.Every p) :
    Keeps (Upheld W p) (execute c : HostM σ Op Reply) :=
  upheld_carryOut hplant (upheld_runner hplant nestingLimit) hc

/-- It holds after any commands, whether or not they fail. -/
theorem upheld_runAll {commands : List (Command Op)} (hcommands : Script.Every p commands)
    {h : Host σ Op} (hh : Upheld W p h) : Upheld W p (runAll execute commands h).2 :=
  keeps_runAll (fun _ hc => upheld_execute hplant (hcommands.of_mem hc)) hh

end

end Host

end Chip8
