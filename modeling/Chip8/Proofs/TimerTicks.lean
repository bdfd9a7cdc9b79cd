import Chip8.Proofs.FaultAtomicity
import Chip8.Proofs.TimerChain
import Mathlib.Data.List.Chain

/-!
# Ticks of the timer chain

When the event of the timer chain comes due, the timers tick, listeners are told if there is a beep,
and the next event is put into the queue, unless a listener has seen to that. This file follows a
host with a watched plant through a tick, through the events that come due after a cycle, through
many cycles, and through all that it may be told.

## Main definitions

* `Host.Processing`: the events that were due are being carried out
* `Host.Faulted`: a fault of the program leaves the timer chain alone

## Main statements

* `Host.tended_tickChain`: a tick of the timers, with all that the listeners do
* `Host.processing_cycled`, `Host.ticking_processing`: the events that come due after a cycle
* `Host.tended_watch`, `Host.tended_runAll`: commands from outside
* `Machine.one_timer_chain`: there is one timer chain, and its ticks are an interval apart
-/

namespace Chip8

variable {σ Op : Type}

namespace Host

variable {floor : Nat} {base : List TimerTick} {telling : Prop} {h : Host (Watched σ) Op}

/-! ## Between two events of the chain -/

/-- While the host runs, one event of the timer chain is to come, at most an interval away. -/
theorem Tended.next (hh : Tended floor base h) (hrun : h.status = .running) :
    ∃ e, h.chainEvents = [e] ∧ h.clock < e.clock ∧ e.clock ≤ h.clock + h.interval := by
  obtain ⟨e, he, hclose, -⟩ := hh.armed hrun
  exact ⟨e, he, hh.late e (mem_of_chainEvents he), hclose⟩

theorem note_of_noted (hnoted : h.plant.begun = h.plant.ticks.length) : note h = .ok () h := by
  have hsame : h.plant.note h.interval h.chain = h.plant := by
    rw [Watched.note, if_neg (by omega)]
  simp only [note, run_modify, hsame]

theorem attended_note :
    KeepsOr (Attended telling floor base) Foreign (note : HostM (Watched σ) Op Unit) := by
  intro h hh
  rw [note_of_noted hh.steady.noted]
  exact hh

theorem Owed.between (hh : Owed floor base h) (plant : σ) (world : World) :
    Between h.chain (h.plant.ticks ++ [⟨h.plant.cycles, h.interval, h.chain⟩])
      { h with
        plant := { h.plant with
          plant
          begun := h.plant.begun + 1
          ticks := h.plant.ticks ++ [⟨h.plant.cycles, h.interval, h.chain⟩] }
        world } := by
  refine { hh with
    noted := ?_
    since := ⟨[], (List.append_nil _).symm, fun _ ht => nomatch ht⟩
    apart := ?_
    past := ?_
    floor_le := Nat.le_refl _
    chain := rfl }
  · simp [hh.noted]
  · -- Only the last tick before this one is next to it, and that was an interval ago.
    refine List.isChain_append.2 ⟨hh.apart, .singleton _, ?_⟩
    intro t ht u hu
    cases hu
    exact hh.elapsed t ht
  · intro t ht
    rcases List.mem_append.1 ht with ht | ht
    · exact hh.past t ht
    · rw [List.mem_singleton.1 ht]

theorem Steady.rebase {new : List TimerTick} {chain : Nat} (hh : Steady chain (base ++ new) h)
    (hnew : ∀ t ∈ new, floor < t.chain) (hfloor : floor ≤ chain) : Steady floor base h := by
  obtain ⟨newer, hticks, hnewer⟩ := hh.since
  refine { hh with
    since := ⟨new ++ newer, hticks.trans (List.append_assoc _ _ _), ?_⟩
    floor_le := Nat.le_trans hfloor hh.floor_le }
  intro t ht
  rcases List.mem_append.1 ht with ht | ht
  · exact hnew t ht
  · exact Nat.lt_of_le_of_lt hfloor (hnewer t ht)

/-- An event of a former chain is put into the queue, and does not matter. -/
theorem Tended.enqueue_stale (hh : Tended floor base h) {chain : Nat} (hchain : chain < h.chain) :
    Tended floor base (finalState (enqueue h.interval (.timers chain) h)) := by
  refine { hh.toSteady.enqueue (Nat.le_of_lt hchain) with
    going := hh.going, above := hh.above, armed := fun hrun => ?_ }
  have hstale : ¬(Task.timers chain : Task Op).isTimers h.chain = true := by
    rw [Task.isTimers_timers]
    omega
  obtain ⟨e, he, hclose, hlast⟩ := hh.armed hrun
  exact ⟨e, (EventQueue.filter_insertEvent_of_neg hstale).trans he, hclose, hlast⟩

/-- After a tick of the timers the next event is put into the queue. If a listener has started a new
chain, then the next event of that one is there already. -/
theorem tended_continue {new : List TimerTick} {chain : Nat} (hnew : ∀ t ∈ new, floor < t.chain)
    (hchain : floor < chain) :
    Hoare (Attended True chain (base ++ new))
      (do
        let h ← get
        if h.chainActive ∧ h.status = .running then enqueue h.interval (.timers chain) :
          HostM (Watched σ) Op Unit)
      (fun _ h => Tended floor base h ∧ chain ≤ h.chain) Foreign := by
  refine Hoare.get_bind fun h hh => ?_
  have hsteady : Steady floor base h := hh.steady.rebase hnew (Nat.le_of_lt hchain)
  have hle : chain ≤ h.chain := hh.steady.floor_le
  by_cases hgoing : h.chainActive = true ∧ h.status = .running
  · rw [if_pos hgoing]
    rintro k rfl
    rcases hh with ht | ⟨-, hb⟩
    · -- A listener has started a new chain, so the event put into the queue now is of a former one.
      have habove : chain < k.chain := ht.above hgoing.2
      have htended : Tended floor base k :=
        { hsteady with
          going := ht.going, above := fun _ => Nat.lt_trans hchain habove, armed := ht.armed }
      exact ⟨htended.enqueue_stale habove, hle⟩
    · have hcurrent : k.chain = chain := hb.chain
      subst hcurrent
      exact ⟨hsteady.enqueue_awaited hb.toAwaited hchain, hle⟩
  · rw [if_neg hgoing]
    rintro _ rfl
    rcases hh with ht | ⟨-, hb⟩
    · exact ⟨{ hsteady with
        going := ht.going, above := fun hrun => Nat.lt_of_lt_of_le hchain hle, armed := ht.armed },
          hle⟩
    · exact absurd ⟨hb.active, hb.running⟩ hgoing

/-! ## When the clock moves on -/

/-- Events that were due are being carried out. Either the one of the current timer chain is among
those to come, or it is in the queue. -/
def Processing (floor : Nat) (base : List TimerTick) (es : List (Event (Task Op)))
    (h : Host (Watched σ) Op) : Prop :=
  (∀ e ∈ es, ∃ chain ≤ h.chain, e.payload = .timers chain) ∧
    (Tended floor base h ∧ es.filter (·.payload.isTimers h.chain) = [] ∨
      Owed floor base h ∧ ∃ e, es.filter (·.payload.isTimers h.chain) = [e])

theorem processing_nil : Processing floor base [] h ↔ Tended floor base h := by
  refine ⟨?_, fun hh => ⟨fun _ he => (nomatch he), .inl ⟨hh, rfl⟩⟩⟩
  rintro ⟨-, ⟨hh, -⟩ | ⟨-, e, he⟩⟩
  · exact hh
  · cases he

/-- Events of former chains are left to be carried out, and do not matter. -/
theorem processing_of_tended {es : List (Event (Task Op))} {current : Nat}
    (hh : Tended floor base h) (hcurrent : current ≤ h.chain)
    (hes : ∀ e ∈ es, ∃ chain ≤ current, e.payload = .timers chain)
    (hnone : es.filter (·.payload.isTimers current) = []) : Processing floor base es h := by
  refine ⟨fun e he => (hes e he).imp fun _ hc => ⟨Nat.le_trans hc.1 hcurrent, hc.2⟩, .inl ⟨hh, ?_⟩⟩
  refine List.filter_eq_nil_iff.2 fun e he hof => ?_
  obtain ⟨chain, hle, hpayload⟩ := hes e he
  rw [hpayload, Task.isTimers_timers] at hof
  refine List.filter_eq_nil_iff.1 hnone e he ?_
  rw [hpayload, Task.isTimers_timers]
  omega

/-- The host after a cycle and the step of the clock that counts it, with what is due taken off the
queue. -/
def cycled (h : Host (Watched σ) Op) (plant : σ) (world : World) : Host (Watched σ) Op :=
  { h with
    plant := { h.plant with plant, cycles := h.plant.cycles + 1 }
    world
    clock := h.clock + 1
    queue := h.queue.later (h.clock + 1 : Nat) }

theorem Steady.cycled (hh : Steady floor base h) (plant : σ) (world : World) :
    Steady floor base (h.cycled plant world) := by
  refine { hh with
    toUpToDate := { hh.toUpToDate.step with }
    events := fun e he => hh.events e ?_
    past := fun t ht => Nat.le_succ_of_le (hh.past t ht) }
  rw [← EventQueue.due_append_later]
  exact List.mem_append_right _ he

/-- **When the clock has moved on**, the event of the timer chain is still in the queue, or it is
due and the timers are owed a tick. -/
theorem processing_cycled (hh : Tended floor base h) (hrun : h.status = .running) (plant : σ)
    (world : World) :
    Processing floor base (h.queue.due (h.clock + 1 : Nat)) (h.cycled plant world) := by
  obtain ⟨e, he, hclose, hlast⟩ := hh.armed hrun
  have hlate : (h.clock : Int) < e.clock := hh.late e (mem_of_chainEvents he)
  have hsteady := hh.toSteady.cycled plant world
  constructor
  · intro f hf
    refine hh.events f ?_
    rw [← EventQueue.due_append_later h.queue (h.clock + 1 : Nat)]
    exact List.mem_append_left _ hf
  · rw [chainEvents, ← EventQueue.due_append_later h.queue (h.clock + 1 : Nat), List.filter_append,
      List.append_eq_singleton_iff] at he
    rcases he with ⟨hdue, hlater⟩ | ⟨hdue, hlater⟩
    · -- The event is still to come. The cycle that was completed made up for the step of the clock.
      refine .inl
        ⟨{ hsteady with going := hh.going, above := hh.above, armed := fun _ => ?_ }, hdue⟩
      refine ⟨e, hlater, ?_, fun t ht => ?_⟩
      · show e.clock ≤ (h.clock + 1 : Nat) + (h.interval : Int)
        omega
      · have hbefore := hlast t ht
        show (t.cycles + h.interval : Int) ≤
          (h.plant.cycles + 1 : Nat) + (e.clock - (h.clock + 1 : Nat))
        omega
    · -- The event is due. It was later than the clock before, so it is due just now.
      have hnow : e.clock ≤ (h.clock + 1 : Nat) := by
        have hmem : e ∈ (h.queue.due (h.clock + 1 : Nat)).filter (·.payload.isTimers h.chain) :=
          hdue ▸ List.mem_singleton_self e
        exact EventQueue.clock_le_of_mem_due (List.mem_filter.1 hmem).1
      refine .inr ⟨{ hsteady with
        running := hrun
        active := hh.going.2 hrun
        none := hlater
        above := hh.above hrun
        elapsed := fun t ht => ?_ }, e, hdue⟩
      have hbefore := hlast t ht
      show t.cycles + h.interval ≤ h.plant.cycles + 1
      omega

/-! ## Listeners -/

variable [Plant σ Op]

theorem tickChain_stale {run : Runner (Watched σ) Op} {chain : Nat} (hchain : chain ≠ h.chain) :
    tickChain run chain h = .ok () h := by
  simp only [tickChain, run_bind, run_get, if_neg fun hcond => hchain (And.left hcond)]
  rfl

theorem watcher_nil (depth : Nat) : (watcher depth [] : HostM (Watched σ) Op Unit) = note := by
  cases depth <;> rfl

variable (hmodest : Plant.Modest σ)

include hmodest

theorem attended_watcher (depth : Nat) {script : Script Op} (hscript : Script.Controls script) :
    KeepsOr (Attended telling floor base) Foreign
      (watcher depth script : HostM (Watched σ) Op Unit) := by
  cases depth with
  | zero =>
    refine attended_note.bind fun _ => ?_
    cases script with
    | nil => exact .pure _
    | cons c cs => exact .throw fun _ _ ⟨_, heq⟩ => nomatch heq
  | succ depth =>
    refine attended_note.bind fun _ => ?_
    refine .forM fun c hc => ?_
    exact (attended_carryOut hmodest (hscript.of_mem hc)).bind fun _ => .pure _

theorem attended_tell (depth : Nat) {l : Listener Op} (hl : Script.Controls l.script) :
    KeepsOr (Attended telling floor base) Foreign
      (tell (watcher depth) l : HostM (Watched σ) Op Unit) := by
  refine .get_bind fun _ _ => ?_
  refine KeepsOr.bind (.modify fun _ hh => hh.aside _ _ _ _) fun _ => ?_
  exact attended_watcher hmodest depth hl

/-! ## One tick of the timers -/

/-- The timers tick, the tick is noted, and the listeners are told if there was a beep. -/
theorem attended_updateTimers (depth : Nat) (hh : Owed floor base h) :
    Hoare (· = h) (updateTimers (watcher depth))
      (fun _ => Attended True h.chain (h.plant.ticks ++ [⟨h.plant.cycles, h.interval, h.chain⟩]))
      Foreign := by
  obtain ⟨beeped, ⟨plant, world⟩, hplant⟩ := hmodest.updateTimers h.clock (h.plant.plant, h.world)
  have hticked : (onPlant (Plant.updateTimers h.clock) : HostM (Watched σ) Op (TimerResult Op)) h =
      .ok { beeped }
        { h with plant := { h.plant with plant, begun := h.plant.begun + 1 }, world } := by
    simp only [onPlant, Plant.updateTimers, run_bind, run_modify, Part.lift, Watched.part, hplant]
  have hnoted : (watcher depth [] : HostM (Watched σ) Op Unit)
      { h with plant := { h.plant with plant, begun := h.plant.begun + 1 }, world } =
        .ok () { h with
          plant := { h.plant with
            plant
            begun := h.plant.begun + 1
            ticks := h.plant.ticks ++ [⟨h.plant.cycles, h.interval, h.chain⟩] }
          world } := by
    have hlt : h.plant.ticks.length < h.plant.begun + 1 := by
      rw [hh.noted]
      exact Nat.lt_succ_self _
    simp only [watcher_nil, note, run_modify, Watched.note, if_pos hlt]
  have hbetween := hh.between plant world
  rintro _ rfl
  simp only [updateTimers, run_bind, run_get, hticked, hnoted]
  cases beeped with
  | false => exact .inr ⟨trivial, hbetween⟩
  | true =>
    refine KeepsOr.forM (fun l hl => ?_) _ (.inr ⟨trivial, hbetween⟩)
    exact attended_tell hmodest depth (hbetween.listeners l hl)

/-- **A tick of the timer chain**, with all that the listeners do, leaves the next event in the
queue if the host still runs. -/
theorem tended_tickChain (depth : Nat) (hh : Owed floor base h) :
    Hoare (· = h) (tickChain (watcher depth) h.chain)
      (fun _ k => Tended floor base k ∧ h.chain ≤ k.chain) Foreign := by
  obtain ⟨new, hticks, hnew⟩ := hh.since
  have hticked := attended_updateTimers hmodest depth hh
  rw [hticks, List.append_assoc] at hticked
  have hnew' : ∀ t ∈ new ++ [⟨h.plant.cycles, h.interval, h.chain⟩], floor < t.chain := by
    intro t ht
    rcases List.mem_append.1 ht with ht | ht
    · exact hnew t ht
    · rw [List.mem_singleton.1 ht]
      exact hh.above
  have hcurrent : h.chain = h.chain ∧ h.chainActive = true ∧ h.status = .running :=
    ⟨rfl, hh.active, hh.running⟩
  refine Hoare.get_bind ?_
  rintro _ rfl
  rw [if_pos hcurrent]
  exact hticked.bind fun _ => tended_continue hnew' hh.above

/-! ## The events that come due -/

theorem processing_perform (depth : Nat) (e : Event (Task Op)) (es : List (Event (Task Op))) :
    Hoare (Processing floor base (e :: es))
      (perform (watcher depth : Runner (Watched σ) Op) e.payload)
      (fun _ => Processing floor base es) Foreign := by
  rintro h ⟨hes, hh⟩
  obtain ⟨chain, hle, hpayload⟩ := hes e List.mem_cons_self
  have hrest : ∀ f ∈ es, ∃ chain ≤ h.chain, f.payload = .timers chain :=
    fun f hf => hes f (List.mem_cons_of_mem e hf)
  simp only [hpayload, perform]
  by_cases hcurrent : chain = h.chain
  · -- The chain ticks. Whatever is left is of chains before the one that goes on.
    subst hcurrent
    have hpos : (e.payload.isTimers h.chain) = true := by rw [hpayload, Task.isTimers_timers]
    rw [List.filter_cons_of_pos (p := fun f : Event (Task Op) => f.payload.isTimers h.chain) hpos]
      at hh
    obtain ⟨howed, f, hf⟩ : Owed floor base h ∧ ∃ f,
        e :: es.filter (·.payload.isTimers h.chain) = [f] :=
      hh.resolve_left fun ht => List.cons_ne_nil _ _ ht.2
    obtain ⟨-, hnone⟩ := List.cons.inj hf
    refine Hoare.consequence (tended_tickChain hmodest depth howed) (fun _ hk => hk) ?_
      (fun _ _ hk => hk) h rfl
    exact fun _ k hk => processing_of_tended hk.1 hk.2 hrest hnone
  · have hneg : ¬(e.payload.isTimers h.chain) = true := by rwa [hpayload, Task.isTimers_timers]
    rw [List.filter_cons_of_neg (p := fun f : Event (Task Op) => f.payload.isTimers h.chain) hneg]
      at hh
    rw [tickChain_stale hcurrent]
    exact ⟨hrest, hh⟩

/-! ## Running -/

/-- If an operation fails with a fault of the program, the timer chain is tended all the same. -/
def Faulted (floor : Nat) (base : List TimerTick) (e : Failure) (h : Host (Watched σ) Op) : Prop :=
  e.IsFault → Tended floor base h

theorem hoare_clockedCycle_tended (depth : Nat) :
    Hoare (fun h => Tended floor base h ∧ h.status = .running)
      (clockedCycle (watcher depth : Runner (Watched σ) Op))
      (fun _ h =>
        Processing floor base (h.queue.due h.clock) { h with queue := h.queue.later h.clock })
      (Faulted floor base) := by
  rintro h ⟨hh, hrun⟩
  cases hcycle : (Plant.cycle : PlantM σ (Script Op)) (h.plant.plant, h.world) with
  | error e s =>
    simp only [clockedCycle, cycle, run_bind, onPlant, Plant.cycle, Part.lift, Watched.part, hcycle]
    exact fun _ => { hh with }
  | ok script s =>
    -- The plant wants nothing done, and no tick has begun that was not noted.
    obtain rfl := hmodest.cycle _ _ _ hcycle
    have hnote : note { h with
        plant := { h.plant with plant := s.1, cycles := h.plant.cycles + 1 }, world := s.2 } = _ :=
      note_of_noted hh.noted
    simp only [clockedCycle, cycle, run_bind, onPlant, Plant.cycle, Part.lift, Watched.part, hcycle,
      run_modify, run_pure, watcher_nil, hnote]
    exact processing_cycled hh hrun s.1 s.2

theorem ticking_processing (depth : Nat) :
    Ticking (watcher depth : Runner (Watched σ) Op) (fun _ => Processing floor base)
      (Faulted floor base) where
  late _ _ hh := (processing_nil.1 hh).late
  counted _ := (hoare_clockedCycle_tended hmodest depth).consequence
    (fun _ hh => ⟨processing_nil.1 hh.1, hh.2⟩) (fun _ _ hh => hh) fun _ _ hh => hh
  perform _ e es := (processing_perform hmodest depth e es).consequence (fun _ hh => hh)
    (fun _ _ hh => hh) fun _ _ hforeign hfault => absurd hfault hforeign

/-- **Any number of cycles** keep the timer chain, also if one of them fails with a fault. -/
theorem tended_tick (depth : Nat) (cycles : Int) :
    KeepsOr (Tended floor base) (Faulted floor base)
      (tick (watcher depth : Runner (Watched σ) Op) cycles) :=
  ((ticking_processing hmodest depth).keepsOr_tick cycles).consequence
    (fun _ hh => processing_nil.2 hh) (fun _ _ hh => processing_nil.1 hh) fun _ _ hh => hh

omit hmodest in
theorem tended_operate (op : Op) :
    KeepsOr (Tended floor base) (Faulted floor base)
      (onPlant (Plant.operate op) : HostM (Watched σ) Op Reply) := by
  intro h hh
  simp only [onPlant, Plant.operate, Part.lift, Watched.part]
  cases (Plant.operate op : PlantM σ Reply) (h.plant.plant, h.world) with
  | ok reply s => exact { hh with }
  | error e s => exact fun _ => { hh with }

/-- **A command from outside** keeps or renews the timer chain. -/
theorem tended_watch {c : Command Op} (hc : c.Steers) :
    KeepsOr (Tended floor base) (Faulted floor base) (watch c : HostM (Watched σ) Op Reply) := by
  have control (hcontrols : c.Controls) :
      KeepsOr (Tended floor base) (Faulted floor base) (watch c : HostM (Watched σ) Op Reply) := by
    have hkeeps : KeepsOr (Attended False floor base) Foreign
        (watch c : HostM (Watched σ) Op Reply) :=
      attended_carryOut hmodest hcontrols
    refine hkeeps.consequence (fun _ hh => .inl hh) ?_ ?_
    · exact fun _ h hh => hh.resolve_right And.left
    · exact fun e h hforeign hfault => absurd hfault hforeign
  cases c with
  | tick cycles => exact (tended_tick hmodest _ cycles).bind fun _ => .pure _
  | operate op => exact tended_operate op
  | _ => exact control hc

/-- So do any commands in a row, as long as they fail with faults of the program at most. -/
theorem tended_runAll {history : List (Command Op)} (hsteers : ∀ c ∈ history, c.Steers)
    (hh : Tended floor base h) (hfaults : ∀ e, .error e ∈ (runAll watch history h).1 → e.IsFault) :
    Tended floor base (runAll watch history h).2 := by
  induction history generalizing h with
  | nil => exact hh
  | cons c cs ih =>
    refine ih (fun d hd => hsteers d (List.mem_cons_of_mem c hd)) ?_ fun e he =>
      hfaults e (List.mem_cons_of_mem _ he)
    have hend := tended_watch hmodest (hsteers c List.mem_cons_self) h hh
    cases hwatch : watch c h with
    | ok reply k =>
      rw [hwatch] at hend
      exact hend
    | error e k =>
      rw [hwatch] at hend
      refine hend (hfaults e ?_)
      rw [runAll, hwatch]
      exact List.mem_cons_self

/-- While the host does not run, nothing in its queue will ever tick the timers. All ticks to come
are of chains that have not begun. -/
theorem ticks_of_idle (hh : Tended floor base h) (hidle : h.status ≠ .running)
    {more : List (Command Op)} (hsteers : ∀ c ∈ more, c.Steers)
    (hfaults : ∀ e, .error e ∈ (runAll watch more h).1 → e.IsFault) :
    ∃ new, (runAll watch more h).2.plant.ticks = h.plant.ticks ++ new ∧
      ∀ e ∈ h.queue.events, ∃ chain, e.payload = .timers chain ∧ ∀ tick ∈ new,
        tick.chain ≠ chain := by
  -- The invariant may be counted from here on, as nothing is asked of the current chain of an idle
  -- host.
  have hidle' : Tended h.chain h.plant.ticks h :=
    { hh with
      since := ⟨[], (List.append_nil _).symm, fun _ ht => nomatch ht⟩
      floor_le := Nat.le_refl _
      above := fun hrun => absurd hrun hidle
      armed := fun hrun => absurd hrun hidle }
  obtain ⟨new, hticks, hnew⟩ := (tended_runAll hmodest hsteers hidle' hfaults).since
  refine ⟨new, hticks, fun e he => ?_⟩
  obtain ⟨chain, hle, hpayload⟩ := hh.events e he
  exact ⟨chain, hpayload, fun tick ht => Nat.ne_of_gt (Nat.lt_of_le_of_lt hle (hnew tick ht))⟩

end Host

/-! ## Machines -/

theorem Console.modest : Plant.Modest Console where
  cycle _ _ _ hend := eq_of_bind_pure_eq_ok hend
  updateTimers clock := by
    rintro ⟨c, w⟩
    simp only [Plant.updateTimers, run_bind, updateTimers_eq]
    exact ⟨_, _, rfl⟩
  reset _ := ⟨_, rfl⟩

namespace Machine

open Host (Tended Unwatched)

theorem tended_create {console : Console} {world : World} {frequency timerFrequency : Number}
    {w : Host (Watched Console) Console.Operation}
    (hcreate : Host.create { plant := console } world frequency timerFrequency maxCatchUp = .ok w) :
    Tended 0 [] w := by
  have hdue := Host.upToDate_create hcreate
  obtain ⟨-, interval, anchor, -, -, rfl⟩ := Host.create_eq_ok_iff.1 hcreate
  exact { hdue with
    events := fun _ he => nomatch he
    listeners := fun _ hl => nomatch hl
    known := fun _ hl => nomatch hl
    noted := rfl
    since := ⟨[], rfl, fun _ ht => nomatch ht⟩
    apart := .nil
    past := fun _ ht => nomatch ht
    floor_le := Nat.le_refl 0
    going := ⟨nofun, nofun⟩
    above := nofun
    armed := nofun }

/-- **There is one timer chain**, however a machine is controlled, from outside or by listeners. Its
program may fail, but nothing else does: no listener, and no calculation for a number too large.

While the machine runs, exactly one event of the current chain is in its queue, at most an interval
away. While it does not run, no event in its queue will ever tick the timers: all ticks to come, if
it is told to run again, are of other chains. Between two ticks of the timers the machine completes
at least as many cycles as the interval in force at the second.

The ticks are those of a second machine that is watched. It does the same as the first, and none of
its ticks has escaped notice. -/
theorem one_timer_chain (world : World) (random : RandomSource) {f t : Int} (hf : 0 < f)
    (ht : 0 < t) (soundEnabled : Bool) :
    ∃ (m : Machine) (w : Host (Watched Console) Console.Operation),
      create world random (.integer f) (.integer t) soundEnabled = .ok m ∧
      Host.create { plant := Console.powerUp random soundEnabled } world (.integer f)
        (.integer t) maxCatchUp = .ok w ∧
      ∀ history : List (Command Console.Operation), (∀ c ∈ history, c.Steers) →
        (∀ e, .error e ∈ (runAll Host.execute history m).1 → e.IsFault) →
        let n := m.after history
        let watched := (runAll Host.watch history w).2
        let ticks := watched.plant.ticks
        (n.status = .running →
          ∃ e, n.chainEvents = [e] ∧ n.clock < e.clock ∧ e.clock ≤ n.clock + n.interval) ∧
        (n.status ≠ .running → ∀ more : List (Command Console.Operation), (∀ c ∈ more, c.Steers) →
          (∀ e, .error e ∈ (runAll Host.execute more n).1 → e.IsFault) →
          ∃ new, (runAll Host.watch more watched).2.plant.ticks = ticks ++ new ∧
            ∀ e ∈ n.queue.events, ∃ chain, e.payload = .timers chain ∧ ∀ tick ∈ new,
              tick.chain ≠ chain) ∧
        ticks.IsChain (fun before after => before.cycles + after.interval ≤ after.cycles) ∧
        watched.plant.begun = ticks.length ∧ Unwatched watched n := by
  obtain ⟨w, hw⟩ : ∃ w : Host (Watched Console) Console.Operation,
      Host.create { plant := Console.powerUp random soundEnabled } world (.integer f)
        (.integer t) maxCatchUp = .ok w := ⟨_, Host.create_eq _ world hf ht _⟩
  have hplant : Watched.part.Same ({ plant := Console.powerUp random soundEnabled }, world)
      (Console.powerUp random soundEnabled, world) := rfl
  obtain ⟨m, hm, hstart⟩ := Host.related_create hplant hw
  refine ⟨m, w, hm, hw, ?_⟩
  intro history hsteers hfaults n watched ticks
  obtain ⟨houtcomes, hunwatched⟩ := Host.agree_watch history hstart
  have htended : Tended 0 [] watched :=
    Host.tended_runAll Console.modest hsteers (tended_create hw)
      fun e he => hfaults e (houtcomes ▸ he)
  have hstatus : n.status = watched.status := hunwatched.status
  have hqueue : n.queue = watched.queue := hunwatched.queue
  have hevents : Host.chainEvents n = watched.chainEvents := by
    have hchain : n.chain = watched.chain := hunwatched.chain
    rw [Host.chainEvents, Host.chainEvents, hqueue, hchain]
  have hclock : n.clock = watched.clock := hunwatched.clock
  have hinterval : n.interval = watched.interval := hunwatched.interval
  refine ⟨fun hrun => ?_, fun hidle more hmore hfaults' => ?_, htended.apart,
    htended.noted, hunwatched⟩
  · rw [hevents, hclock, hinterval]
    exact htended.next (hstatus ▸ hrun)
  · obtain ⟨houtcomes', -⟩ := Host.agree_watch more hunwatched
    rw [hqueue]
    exact Host.ticks_of_idle Console.modest htended (hstatus ▸ hidle) hmore fun e he =>
      hfaults' e (houtcomes' ▸ he)

/-- When a program has failed, the next tick of the timers is still to come. -/
theorem one_timer_chain_return :
    ∃ m, create {} (.listed [] 0) (.integer 500) (.integer 60) true = .ok m ∧
      let n := m.after [.operate (.load [0x00, 0xEE]), .powerOn, .tick 7]
      n.status = .running ∧
        ∃ e, Host.chainEvents n = [e] ∧ n.clock < e.clock ∧ e.clock ≤ n.clock + n.interval := by
  obtain ⟨m, loaded, reply, n, hcreate, hload, hon, hcalm, hboard, hrunning⟩ :=
    exists_powered_return
  obtain ⟨m', w, hcreate', -, hchain⟩ :=
    one_timer_chain {} (.listed [] 0) (f := 500) (t := 60) (by decide) (by decide) true
  obtain rfl : m = m' := Except.ok.inj (hcreate.symm.trans hcreate')
  have htick : Host.execute (.tick 7) n = .error (.fault (.stackEmpty 0x200)) n :=
    execute_tick_of_faults hcalm hboard hrunning (by decide)
  have hafter : m.after [.operate (.load [0x00, 0xEE]), .powerOn, .tick 7] = n := by
    simp only [after, runAll, hload, hon, htick, finalState]
  have hfaults : ∀ e, .error e ∈
      (runAll Host.execute [.operate (.load [0x00, 0xEE]), .powerOn, .tick 7] m).1 → e.IsFault := by
    intro e he
    simp only [runAll, hload, hon, htick, finalState, outcome] at he
    simp only [List.mem_cons, reduceCtorEq, Except.error.injEq, List.not_mem_nil, or_false,
      false_or] at he
    exact ⟨_, he⟩
  have hsteers :
      ∀ c ∈ ([.operate (.load [0x00, 0xEE]), .powerOn, .tick 7] : List (Command Console.Operation)),
      c.Steers := by
    simp [Command.Steers, Command.Controls]
  obtain ⟨hone, -⟩ := hchain _ hsteers hfaults
  refine ⟨m, hcreate, ?_⟩
  rw [hafter] at hone ⊢
  exact ⟨hrunning, hone hrunning⟩

end Machine

end Chip8
