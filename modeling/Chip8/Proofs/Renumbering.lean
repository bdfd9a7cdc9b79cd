import Chip8.Proofs.HostInvariant
import Chip8.Proofs.Pacing

/-!
# Hosts that count differently

A host numbers its events and its timer chains, and anchors its clock at some moment of the wall
clock. None of these numbers can be noticed: events are told apart by the order of their numbers,
timer chains by whether their numbers are the same, and of moments only differences count.

A host also deals with its plant only by the plant's own operations. So two hosts whose numbers are
shifted against each other do the same, command by command, if their plants answer alike and stay
related whatever is asked of them, with all the events, listeners and scripts that a command may set
going.

Scripts are run by a parameter of every operation, and the two hosts may run them in different ways,
as long as these agree as well.

## Main definitions

* `Offset`: by how much the numbers of two hosts differ
* `Plant.Parallel`: two plants answer alike under operations of a kind, and stay related
* `Host.Shifted`: two hosts are the same apart from their plants, which are related, and their
  numbers, which are shifted

## Main statements

* `Host.alongside_carryOut`: a command does the same on hosts that are shifted against each other
* `Host.alongside_execute`: so does a command from outside
-/

namespace Chip8

variable {σ τ Op : Type}

/-! ## Shifted events -/

/-- By how much the numbers of one host are ahead of those of another. -/
structure Offset where
  chains : Nat := 0
  events : Nat := 0
  /-- In nanoseconds of the wall clock. -/
  time : Int := 0

namespace Task

def shift (d : Offset) : Task Op → Task Op
  | .timers chain => .timers (chain + d.chains)
  | task => task

end Task

namespace Event

def shift (d : Offset) (e : Event (Task Op)) : Event (Task Op) :=
  ⟨e.clock, e.order + d.events, e.payload.shift d⟩

theorem before_shift (d : Offset) (e f : Event (Task Op)) :
    (e.shift d).before (f.shift d) = e.before f := by
  have horder : (e.order + d.events < f.order + d.events) ↔ e.order < f.order := by omega
  show (decide (e.clock < f.clock) ||
    e.clock == f.clock && decide (e.order + d.events < f.order + d.events)) = e.before f
  rw [decide_eq_decide.2 horder]
  rfl

end Event

namespace EventQueue

def shift (d : Offset) (q : EventQueue (Task Op)) : EventQueue (Task Op) :=
  ⟨q.events.map (Event.shift d)⟩

variable (d : Offset) (q : EventQueue (Task Op))

theorem insertEvent_shift (e : Event (Task Op)) (es : List (Event (Task Op))) :
    insertEvent (e.shift d) (es.map (Event.shift d)) = (insertEvent e es).map (Event.shift d) := by
  induction es with
  | nil => rfl
  | cons f fs ih =>
    rw [List.map_cons, insertEvent, insertEvent, Event.before_shift, ih]
    split
    · rfl
    · rfl

theorem insert_shift (e : Event (Task Op)) :
    (q.shift d).insert (e.shift d) = (q.insert e).shift d :=
  congrArg EventQueue.mk (insertEvent_shift d e q.events)

theorem due_shift (clock : Int) : (q.shift d).due clock = (q.due clock).map (Event.shift d) := by
  simp only [due, shift, List.takeWhile_map]
  rfl

theorem later_shift (clock : Int) : (q.shift d).later clock = (q.later clock).shift d := by
  simp only [later, shift, List.dropWhile_map]
  rfl

theorem shift_zero : q.shift {} = q := by
  have hevent (e : Event (Task Op)) : e.shift {} = e := by
    obtain ⟨clock, order, task⟩ := e
    have horder : order + ((0 : Nat) : Int) = order := Int.add_zero order
    cases task <;> exact congrArg (Event.mk clock · _) horder
  rw [shift, funext hevent, List.map_id']

end EventQueue

/-! ## Shifted hosts -/

namespace Pacer

theorem anchor_shift (now time clock : Int) (frequency : Number) :
    anchor (now + time) clock frequency = (anchor now clock frequency).map (· + time) := by
  simp only [anchor]
  split
  · rfl
  · cases Quantity.div (.integer clock) frequency.quantity with
    | error cause => rfl
    | ok seconds =>
      simp only [bind, Except.bind]
      cases seconds.mul (.integer second) with
      | error cause => rfl
      | ok elapsed =>
        simp only
        cases elapsed.truncate with
        | error cause => rfl
        | ok nanoseconds =>
          have hswap : now + time - nanoseconds = now - nanoseconds + time := by omega
          exact congrArg Except.ok hswap

theorem expected_shift (now anchor time : Int) (frequency : Number) :
    expected (now + time) (anchor + time) frequency = expected now anchor frequency := by
  rw [expected, expected, Int.add_sub_add_right]

end Pacer

/-- Two plants answer alike under operations of a kind, and stay related in their worlds, of which
the one is ahead of the other. -/
structure Plant.Parallel [Plant σ Op] [Plant τ Op] (time : Int) (S : σ × World → τ × World → Prop)
    (p : Op → Prop) : Prop where
  now : ∀ s t, S s t → t.2.now = s.2.now + time
  record : ∀ s t, S s t → ∀ e, S (s.1, s.2.record e) (t.1, t.2.record e)
  pass : ∀ s t, S s t → ∀ nanoseconds, S (s.1, s.2.pass nanoseconds) (t.1, t.2.pass nanoseconds)
  cycle : Matches S (Plant.cycle : PlantM σ (Script Op)) (Plant.cycle : PlantM τ (Script Op))
  cycleScript : ∀ s script s', (Plant.cycle : PlantM σ (Script Op)) s = .ok script s' →
    Script.Every p script
  updateTimers : ∀ clock, Matches S (Plant.updateTimers clock : PlantM σ (TimerResult Op))
    (Plant.updateTimers clock : PlantM τ (TimerResult Op))
  timersScript : ∀ clock s result s',
    (Plant.updateTimers clock : PlantM σ (TimerResult Op)) s = .ok result s' →
      Script.Every p result.script
  reset : Matches S (Plant.reset : PlantM σ Unit) (Plant.reset : PlantM τ Unit)
  operate : ∀ op, p op →
    Matches S (Plant.operate op : PlantM σ Reply) (Plant.operate op : PlantM τ Reply)

namespace Host

/-- Two hosts are the same apart from their plants, which are related in their worlds, and from
their numbers, which are shifted. Whatever waits in the queue or with a listener tells the plant
only operations of a kind. -/
structure Shifted (S : σ × World → τ × World → Prop) (p : Op → Prop) (d : Offset) (h : Host σ Op)
    (k : Host τ Op) : Prop where
  plant : S (h.plant, h.world) (k.plant, k.world)
  status : k.status = h.status
  clock : k.clock = h.clock
  frequency : k.frequency = h.frequency
  timerFrequency : k.timerFrequency = h.timerFrequency
  maxCatchUp : k.maxCatchUp = h.maxCatchUp
  anchor : k.anchor = h.anchor + d.time
  queue : k.queue = h.queue.shift d
  scheduled : k.scheduled = h.scheduled + d.events
  interval : k.interval = h.interval
  chainActive : k.chainActive = h.chainActive
  chain : k.chain = h.chain + d.chains
  listeners : k.listeners = h.listeners
  known : k.known = h.known
  queued : ∀ e ∈ h.queue.events, e.payload.Every p
  told : ∀ l ∈ h.listeners, Script.Every p l.script
  named : ∀ l ∈ h.known, Script.Every p l.script

variable {S : σ × World → τ × World → Prop} {p : Op → Prop} {d : Offset} {α : Type}

/-- Two operations of hosts that are shifted against each other do the same. -/
abbrev Alongside (S : σ × World → τ × World → Prop) (p : Op → Prop) (d : Offset) (m : HostM σ Op α)
    (m' : HostM τ Op α) : Prop :=
  Matches (Shifted S p d) m m'

/-! ## Using the plant and the world -/

theorem agree_shifted_onPlant {m : PlantM σ α} {m' : PlantM τ α} {h : Host σ Op} {k : Host τ Op}
    (hr : Shifted S p d h k) (hend : Agree S (m (h.plant, h.world)) (m' (k.plant, k.world))) :
    Agree (Shifted S p d) (onPlant m h) (onPlant m' k) := by
  simp only [onPlant]
  rcases hend.cases with ⟨a, s, t, hx, hy, hplant⟩ | ⟨e, s, t, hx, hy, hplant⟩
  · rw [hx, hy]
    exact ⟨rfl, { hr with plant := hplant }⟩
  · rw [hx, hy]
    exact ⟨rfl, { hr with plant := hplant }⟩

theorem alongside_onPlant {m : PlantM σ α} {m' : PlantM τ α} (hm : Matches S m m') :
    Alongside S p d (onPlant m : HostM σ Op α) (onPlant m') :=
  fun _ _ hr => agree_shifted_onPlant hr (hm _ _ hr.plant)

theorem alongside_calculate (x : Except ArithmeticError α) :
    Alongside S p d (calculate x : HostM σ Op α) (calculate x) := by
  cases x with
  | ok a => exact .pure a
  | error e => exact .throw _

/-- A failure of the cleanup comes first. Otherwise the body decides how the whole ends. -/
theorem ensuring_eq_match (body : HostM σ Op α) (cleanup : HostM σ Op Unit) (h : Host σ Op) :
    ensuring body cleanup h = match cleanup (finalState (body h)), outcome (body h) with
      | .error e k, _ => .error e k
      | .ok _ k, .ok a => .ok a k
      | .ok _ k, .error e => .error e k := by
  simp only [ensuring]
  cases body h <;> simp only [finalState, outcome] <;> split <;> simp only [*]

theorem alongside_ensuring {body : HostM σ Op α} {body' : HostM τ Op α} {cleanup : HostM σ Op Unit}
    {cleanup' : HostM τ Op Unit} (hbody : Alongside S p d body body')
    (hcleanup : Alongside S p d cleanup cleanup') :
    Alongside S p d (ensuring body cleanup) (ensuring body' cleanup') := by
  intro h k hr
  obtain ⟨houtcome, hmid⟩ := hbody h k hr
  -- Both cleanups run, whatever the bodies came to, and end alike.
  rw [ensuring_eq_match, ensuring_eq_match, ← houtcome]
  rcases (hcleanup _ _ hmid).cases with ⟨_, h', k', hx, hy, hend⟩ | ⟨e, h', k', hx, hy, hend⟩
  · rw [hx, hy]
    cases outcome (body h) <;> exact ⟨rfl, hend⟩
  · rw [hx, hy]
    exact ⟨rfl, hend⟩

/-! ## The queue -/

theorem alongside_enqueue (delay : Nat) {task : Task Op} (htask : task.Every p) :
    Alongside S p d (enqueue delay task : HostM σ Op Unit) (enqueue delay (task.shift d)) := by
  refine .modify fun h k hr => { hr with queue := ?_, scheduled := ?_, queued := ?_ }
  · have hevent :
        (⟨h.clock + delay, (h.scheduled + d.events : Nat), task.shift d⟩ : Event (Task Op)) =
        Event.shift d ⟨h.clock + delay, h.scheduled, task⟩ := by
      rw [Event.shift, Int.natCast_add]
    simp only [hr.queue, hr.clock, hr.scheduled, hevent]
    exact EventQueue.insert_shift d _ _
  · simp only [hr.scheduled]
    omega
  · intro e he
    rcases EventQueue.mem_insertEvent.1 he with rfl | he
    · exact htask
    · exact hr.queued e he

theorem alongside_enqueue_timers (delay chain : Nat) :
    Alongside S p d (enqueue delay (.timers chain) : HostM σ Op Unit)
      (enqueue delay (.timers (chain + d.chains))) := by
  have htask : (Task.timers chain : Task Op).Every p := trivial
  exact alongside_enqueue delay htask

/-- What is due is taken from both queues at once. -/
theorem agree_takeDue_bind {h : Host σ Op} {k : Host τ Op} (hr : Shifted S p d h k)
    {f : List (Event (Task Op)) → HostM σ Op α} {g : List (Event (Task Op)) → HostM τ Op α}
    (hfg : ∀ events, (∀ e ∈ events, e.payload.Every p) →
      Alongside S p d (f events) (g (events.map (Event.shift d)))) :
    Agree (Shifted S p d) ((takeDue >>= f) h) ((takeDue >>= g) k) := by
  have hall := EventQueue.due_append_later h.queue h.clock
  have hdue : ∀ e ∈ h.queue.due h.clock, e.payload.Every p :=
    fun e he => hr.queued e (hall ▸ List.mem_append_left _ he)
  simp only [run_bind, takeDue, run_modifyGet, hr.queue, hr.clock, EventQueue.due_shift,
    EventQueue.later_shift]
  refine hfg _ hdue _ _ { hr with queue := rfl, clock := rfl, queued := ?_ }
  exact fun e he => hr.queued e (hall ▸ List.mem_append_right _ he)

theorem alongside_clearQueue : Alongside S p d (clearQueue : HostM σ Op Unit) clearQueue :=
  .modify fun _ _ hr => { hr with queue := rfl, queued := fun _ he => nomatch he }

theorem alongside_stopChain : Alongside S p d (stopChain : HostM σ Op Unit) stopChain :=
  .modify fun _ _ hr => { hr with chainActive := rfl }

theorem alongside_startChain : Alongside S p d (startChain : HostM σ Op Unit) startChain := by
  refine .get_bind fun h k hr => ?_
  rw [hr.status, hr.chainActive, hr.interval]
  refine .ite (fun _ => ?_) fun _ => .pure _
  have hchain : k.chain + 1 = h.chain + 1 + d.chains := by
    rw [hr.chain]
    omega
  rw [hchain]
  exact (Matches.set
    { hr with status := rfl, interval := rfl, chainActive := rfl, chain := rfl }).bind
      fun _ => alongside_enqueue_timers h.interval (h.chain + 1)

theorem alongside_applyPause : Alongside S p d (applyPause : HostM σ Op Unit) applyPause := by
  refine .get_bind fun h k hr => ?_
  rw [hr.status]
  refine .ite (fun _ => ?_) fun _ => .pure _
  exact (Matches.modify fun _ _ hr => { hr with status := rfl }).bind fun _ => alongside_stopChain

theorem alongside_applyPowerOff :
    Alongside S p d (applyPowerOff : HostM σ Op Unit) applyPowerOff := by
  refine (Matches.modify fun _ _ hr => { hr with status := rfl }).bind fun _ => ?_
  exact alongside_stopChain.bind fun _ => alongside_clearQueue

/-! ## The clock -/

section

variable [Plant σ Op] [Plant τ Op] (hsim : Plant.Parallel (σ := σ) (τ := τ) d.time S p)

include hsim

theorem alongside_mark (m : Mark) : Alongside S p d (mark m : HostM σ Op Unit) (mark m) :=
  .modify fun _ _ hr => { hr with plant := hsim.record _ _ hr.plant _ }

theorem alongside_anchorAt (clock : Int) :
    Alongside S p d (anchorAt clock : HostM σ Op Unit) (anchorAt clock) := by
  refine .get_bind fun h k hr => ?_
  rw [hsim.now _ _ hr.plant, hr.frequency, Pacer.anchor_shift]
  cases Pacer.anchor h.world.now clock h.frequency with
  | ok anchor => exact .modify fun _ _ hr => { hr with anchor := rfl }
  | error cause => exact .throw_bind _ _ _

theorem alongside_anchorClock : Alongside S p d (anchorClock : HostM σ Op Unit) anchorClock := by
  refine .get_bind fun h k hr => ?_
  rw [hr.clock]
  exact alongside_anchorAt hsim _

theorem alongside_cyclesDue : Alongside S p d (cyclesDue : HostM σ Op Int) cyclesDue := by
  refine .get_bind fun h k hr => ?_
  rw [hr.status, hsim.now _ _ hr.plant, hr.anchor, hr.frequency, hr.clock, hr.maxCatchUp,
    Pacer.expected_shift]
  refine .ite (fun _ => .pure _) fun _ => ?_
  refine (alongside_calculate _).bind fun expected => ?_
  refine .ite (fun _ => ?_) fun _ => .pure _
  exact (alongside_anchorAt hsim _).bind fun _ => .pure _

theorem alongside_applyResume : Alongside S p d (applyResume : HostM σ Op Unit) applyResume := by
  refine .get_bind fun h k hr => ?_
  rw [hr.status]
  refine .ite (fun _ => ?_) fun _ => .pure _
  refine (Matches.modify fun _ _ hr => { hr with status := rfl }).bind fun _ => ?_
  exact (alongside_anchorClock hsim).bind fun _ => alongside_startChain

theorem alongside_applyReset : Alongside S p d (applyReset : HostM σ Op Unit) applyReset := by
  refine .get_bind fun h k hr => ?_
  rw [hr.status]
  refine alongside_stopChain.bind fun _ => ?_
  refine alongside_clearQueue.bind fun _ => ?_
  refine (Matches.modify fun _ _ hr => { hr with clock := rfl }).bind fun _ => ?_
  refine (alongside_anchorClock hsim).bind fun _ => ?_
  refine (alongside_onPlant hsim.reset).bind fun _ => ?_
  exact .ite (fun _ => alongside_startChain) fun _ => .pure _

theorem alongside_powerOn : Alongside S p d (powerOn : HostM σ Op Unit) powerOn := by
  refine (alongside_applyReset hsim).bind fun _ => ?_
  refine (Matches.modify fun _ _ hr => { hr with status := rfl }).bind fun _ => ?_
  exact (alongside_anchorClock hsim).bind fun _ => alongside_startChain

theorem alongside_setFrequency (frequency : Number) :
    Alongside S p d (setFrequency frequency : HostM σ Op Unit) (setFrequency frequency) := by
  refine .ite (fun _ => .throw_bind _ _ _) fun _ => ?_
  refine (Matches.modify fun _ _ hr => { hr with frequency := rfl }).bind fun _ => ?_
  refine (alongside_anchorClock hsim).bind fun _ => ?_
  refine .get_bind fun h k hr => ?_
  rw [hr.timerFrequency]
  refine (alongside_calculate _).bind fun interval => ?_
  refine (Matches.modify fun _ _ hr => { hr with interval := rfl }).bind fun _ => ?_
  refine .get_bind fun h k hr => ?_
  rw [hr.status]
  exact .ite (fun _ => alongside_stopChain.bind fun _ => alongside_startChain) fun _ => .pure _

/-! ## Events and listeners -/

variable {run : Runner σ Op} {run' : Runner τ Op}
  (hrun : ∀ script, Script.Every p script → Alongside S p d (run script) (run' script))

include hrun

theorem alongside_tell {l : Listener Op} (hl : Script.Every p l.script) :
    Alongside S p d (tell run l) (tell run' l) := by
  refine .get_bind fun h k hr => ?_
  rw [hr.clock]
  exact (alongside_mark hsim _).bind fun _ => hrun l.script hl

theorem alongside_updateTimers : Alongside S p d (updateTimers run) (updateTimers run') := by
  refine .get_bind fun h k hr => ?_
  rw [hr.clock]
  refine .bind_of (alongside_onPlant (hsim.updateTimers h.clock))
    (fun _ _ result _ _ hend => hsim.timersScript _ _ result _ (onPlant_eq_ok hend))
    fun result hscript => ?_
  refine (hrun result.script hscript).bind fun _ => ?_
  refine .ite (fun _ => ?_) fun _ => .pure _
  refine .get_bind fun h k hr => ?_
  rw [hr.listeners]
  exact .forM fun l hl => alongside_tell hsim hrun (hr.told l hl)

theorem alongside_tickChain (chain : Nat) :
    Alongside S p d (tickChain run chain) (tickChain run' (chain + d.chains)) := by
  refine .get_bind fun h k hr => ?_
  have hcurrent : (chain + d.chains = k.chain ∧ k.chainActive = true ∧ k.status = .running) =
      (chain = h.chain ∧ h.chainActive = true ∧ h.status = .running) := by
    rw [hr.chain, hr.chainActive, hr.status, Nat.add_right_cancel_iff]
  simp only [hcurrent]
  refine .ite (fun _ => ?_) fun _ => .pure _
  refine (alongside_updateTimers hsim hrun).bind fun _ => ?_
  refine .get_bind fun h k hr => ?_
  rw [hr.chainActive, hr.status, hr.interval]
  exact .ite (fun _ => alongside_enqueue_timers h.interval chain) fun _ => .pure _

theorem alongside_perform {task : Task Op} (htask : task.Every p) :
    Alongside S p d (perform run task) (perform run' (task.shift d)) := by
  cases task with
  | timers chain => exact alongside_tickChain hsim hrun chain
  | powerOff => exact alongside_applyPowerOff
  | reset => exact alongside_applyReset hsim
  | pause => exact alongside_applyPause
  | resume => exact alongside_applyResume hsim
  | script label commands =>
    refine .get_bind fun h k hr => ?_
    rw [hr.clock]
    exact (alongside_mark hsim _).bind fun _ => hrun commands htask

theorem alongside_processEvents : Alongside S p d (processEvents run) (processEvents run') := by
  intro h k hr
  refine agree_takeDue_bind hr fun events hevents => ?_
  exact .forM_map fun e he => alongside_perform hsim hrun (hevents e he)

theorem alongside_schedule (delay : Int) {task : Task Op} (htask : task.Every p) :
    Alongside S p d (schedule run delay task) (schedule run' delay (task.shift d)) := by
  refine (alongside_enqueue _ htask).bind fun _ => ?_
  exact .ite (fun _ => alongside_processEvents hsim hrun) fun _ => .pure _

/-! ## Running and control -/

theorem alongside_cycle : Alongside S p d (cycle run) (cycle run') :=
  .bind_of (alongside_onPlant hsim.cycle)
    (fun _ _ script _ _ hend => hsim.cycleScript _ script _ (onPlant_eq_ok hend))
    fun script hscript => hrun script hscript

theorem alongside_cycleTimes (n : Nat) :
    Alongside S p d (cycleTimes run n) (cycleTimes run' n) := by
  induction n with
  | zero => exact .pure _
  | succ n ih => exact (alongside_cycle hsim hrun).bind fun _ => ih

theorem alongside_tickTimes (n : Nat) : Alongside S p d (tickTimes run n) (tickTimes run' n) := by
  induction n with
  | zero => exact .pure _
  | succ n ih =>
    refine .get_bind fun h k hr => ?_
    rw [hr.status]
    refine .ite (fun _ => ?_) fun _ => .pure _
    refine (alongside_cycle hsim hrun).bind fun _ => ?_
    refine (Matches.modify fun h k hr =>
      { hr with clock := congrArg (· + 1) hr.clock }).bind fun _ => ?_
    exact (alongside_processEvents hsim hrun).bind fun _ => ih

theorem alongside_tick (cycles : Int) : Alongside S p d (tick run cycles) (tick run' cycles) := by
  refine .ite (fun _ => ?_) fun _ => .pure _
  exact (alongside_processEvents hsim hrun).bind fun _ => alongside_tickTimes hsim hrun _

theorem alongside_runUntilNow : Alongside S p d (runUntilNow run) (runUntilNow run') := by
  refine (alongside_cyclesDue hsim).bind fun due => ?_
  exact (alongside_tick hsim hrun due).bind fun _ => .pure _

theorem alongside_powerOff : Alongside S p d (powerOff run) (powerOff run') := by
  refine .get_bind fun h k hr => ?_
  rw [hr.status]
  exact .ite (fun _ => alongside_schedule hsim hrun 0 trivial) fun _ => .pure _

theorem alongside_pause : Alongside S p d (pause run) (pause run') := by
  refine .get_bind fun h k hr => ?_
  rw [hr.status]
  exact .ite (fun _ => alongside_schedule hsim hrun 0 trivial) fun _ => .pure _

theorem alongside_resume : Alongside S p d (resume run) (resume run') := by
  refine .get_bind fun h k hr => ?_
  rw [hr.status]
  exact .ite (fun _ => alongside_schedule hsim hrun 0 trivial) fun _ => .pure _

theorem alongside_runFor (cycles : Int) :
    Alongside S p d (runFor run cycles) (runFor run' cycles) := by
  refine (alongside_powerOn hsim).bind fun _ => ?_
  exact alongside_ensuring (alongside_tick hsim hrun cycles) (alongside_powerOff hsim hrun)

end

/-! ## Listeners -/

theorem alongside_listenerNamed (name : String) {script : Script Op}
    (hscript : Script.Every p script) :
    Alongside S p d (listenerNamed name script : HostM σ Op (Listener Op))
      (listenerNamed name script) := by
  refine .get_bind fun h k hr => ?_
  -- Both hosts know the same listeners, so they find the same one or name a new one.
  rw [hr.known]
  cases h.known.find? (·.name = name) with
  | some l => exact .pure _
  | none =>
    have hnamed : Alongside S p d
        (modify fun h => { h with known := ⟨name, script⟩ :: h.known } : HostM σ Op Unit)
        (modify fun h => { h with known := ⟨name, script⟩ :: h.known }) := by
      refine .modify fun h k hr => { hr with known := congrArg (_ :: ·) hr.known, named := ?_ }
      intro l hl
      rcases List.mem_cons.1 hl with rfl | hl
      · exact hscript
      · exact hr.named l hl
    exact hnamed.bind fun _ => .pure _

theorem every_of_listenerNamed {name : String} {script : Script Op}
    (hscript : Script.Every p script) {h h' : Host σ Op} {k : Host τ Op} (hr : Shifted S p d h k)
    {l : Listener Op} (hend : listenerNamed name script h = .ok l h') :
    Script.Every p l.script := by
  simp only [listenerNamed, run_bind, run_get] at hend
  cases hfind : h.known.find? (·.name = name) with
  | some l' =>
    rw [hfind] at hend
    cases hend
    exact hr.named l (List.mem_of_find?_eq_some hfind)
  | none =>
    rw [hfind] at hend
    cases hend
    exact hscript

theorem alongside_addListener (name : String) {script : Script Op}
    (hscript : Script.Every p script) :
    Alongside S p d (addListener name script : HostM σ Op Unit) (addListener name script) := by
  refine .bind_of (alongside_listenerNamed name hscript)
    (fun _ _ _ _ hr hend => every_of_listenerNamed hscript hr hend) fun l hl => ?_
  refine .modify fun h k hr => { hr with listeners := congrArg (· ++ [l]) hr.listeners, told := ?_ }
  intro l' hl'
  rcases List.mem_append.1 hl' with hl' | hl'
  · exact hr.told l' hl'
  · rw [List.mem_singleton.1 hl']
    exact hl

theorem alongside_removeListener (name : String) :
    Alongside S p d (removeListener name : HostM σ Op Unit) (removeListener name) := by
  have hnone : Script.Every p ([] : Script Op) := trivial
  refine (alongside_listenerNamed name hnone).bind fun _ => ?_
  refine .get_bind fun h k hr => ?_
  rw [hr.listeners]
  refine .ite (fun _ => .set { hr with listeners := rfl, told := ?_ }) fun _ => .throw _
  exact fun l hl => hr.told l (List.mem_of_mem_eraseP hl)

/-! ## Commands -/

section

variable [Plant σ Op] [Plant τ Op] (hsim : Plant.Parallel (σ := σ) (τ := τ) d.time S p)

include hsim

/-- **One command**: given ways to run scripts that do the same, a command does the same on related
hosts. -/
theorem alongside_carryOut {run : Runner σ Op} {run' : Runner τ Op}
    (hrun : ∀ script, Script.Every p script → Alongside S p d (run script) (run' script))
    {c : Command Op} (hc : c.Every p) : Alongside S p d (carryOut run c) (carryOut run' c) := by
  have silently {m : HostM σ Op Unit} {m' : HostM τ Op Unit} (hm : Alongside S p d m m') :
      Alongside S p d (m >>= fun _ => pure Reply.nothing) (m' >>= fun _ => pure Reply.nothing) :=
    hm.bind fun _ => .pure _
  cases c with
  | powerOn => exact silently (alongside_powerOn hsim)
  | powerOff => exact silently (alongside_powerOff hsim hrun)
  | pause => exact silently (alongside_pause hsim hrun)
  | resume => exact silently (alongside_resume hsim hrun)
  | reset => exact silently (alongside_schedule hsim hrun 0 trivial)
  | tick cycles => exact silently (alongside_tick hsim hrun cycles)
  | cycle count => exact silently (alongside_cycleTimes hsim hrun count)
  | cyclesDue => exact (alongside_cyclesDue hsim).bind fun _ => .pure _
  | runUntilNow => exact (alongside_runUntilNow hsim hrun).bind fun _ => .pure _
  | run cycles => exact silently (alongside_runFor hsim hrun cycles)
  | setFrequency frequency => exact silently (alongside_setFrequency hsim frequency)
  | updateTimers => exact silently (alongside_updateTimers hsim hrun)
  | applyPause => exact silently alongside_applyPause
  | applyResume => exact silently (alongside_applyResume hsim)
  | applyPowerOff => exact silently alongside_applyPowerOff
  | advance nanoseconds =>
    exact silently (.modify fun _ _ hr => { hr with plant := hsim.pass _ _ hr.plant _ })
  | setMaxCatchUp cycles => exact silently (.modify fun _ _ hr => { hr with maxCatchUp := rfl })
  | raise text => exact .throw _
  | schedule delay label script => exact silently (alongside_schedule hsim hrun delay hc)
  | addListener name script => exact silently (alongside_addListener name hc)
  | removeListener name => exact silently (alongside_removeListener name)
  | operate op => exact alongside_onPlant (hsim.operate op hc)

theorem alongside_runner (depth : Nat) (script : Script Op) (hscript : Script.Every p script) :
    Alongside S p d (runner depth script : HostM σ Op Unit) (runner depth script) := by
  induction depth generalizing script with
  | zero =>
    cases script with
    | nil => exact .pure _
    | cons c cs => exact .throw _
  | succ depth ih =>
    refine .forM fun c hc => ?_
    exact (alongside_carryOut hsim ih (hscript.of_mem hc)).bind fun _ => .pure _

/-- **A command from outside** does the same on related hosts. -/
theorem alongside_execute {c : Command Op} (hc : c.Every p) :
    Alongside S p d (execute c : HostM σ Op Reply) (execute c) :=
  alongside_carryOut hsim (alongside_runner hsim nestingLimit) hc

/-- So do any number of commands, whether or not they fail. -/
theorem alongside_runAll {commands : List (Command Op)} (hcommands : Script.Every p commands)
    {h : Host σ Op} {k : Host τ Op} (hr : Shifted S p d h k) :
    (runAll execute commands h).1 = (runAll execute commands k).1 ∧
      Shifted S p d (runAll execute commands h).2 (runAll execute commands k).2 := by
  induction commands generalizing h k with
  | nil => exact ⟨Eq.refl [], hr⟩
  | cons c cs ih =>
    obtain ⟨hc, hcs⟩ := hcommands
    obtain ⟨houtcome, hnext⟩ := alongside_execute hsim hc h k hr
    obtain ⟨houtcomes, hend⟩ := ih hcs hnext
    exact ⟨congrArg₂ List.cons houtcome houtcomes, hend⟩

end

end Host

end Chip8
