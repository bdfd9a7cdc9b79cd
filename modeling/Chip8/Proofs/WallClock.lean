import Chip8.Proofs.Batching
import Chip8.Proofs.Journal
import Chip8.Proofs.Rounding
import Chip8.Proofs.TimerTicks

/-!
# Running by the wall clock

A host that is powered on and then looked after from time to time shows, after each look, the count
that the wall clock has come to since power-on, rounded once and cut off. How often it was looked
after before does not matter, and neither does when.

What a host does while it ticks does not depend on the moment at which it ticks, as long as nobody
else does anything with it. So all the ticks that a host was told to catch up with, at whatever
moments, are one batch that could have been run right at power-on, and the count decides which. The
count in turn never goes back, because rounding keeps the order.

## Main definitions

* `Plant.Timeless`: a plant does the same at every moment of the wall clock
* `Host.LeftAlone`: a running host that nobody else does anything with
* `Host.Polled`: a host is looked after at a row of moments

## Main statements

* `Host.tickTimes_movedTo`: ticks at one moment are ticks at another
* `Pacer.expected_eq_ok_iff`, `Pacer.expected_mono`: the count that the wall clock has come to
* `Machine.clock_of_polled`: the clock after a row of looks, and the machine, are those of the last
  moment
-/

namespace Chip8

variable {σ Op : Type}

/-! ## The count that the wall clock has come to -/

namespace Pacer

variable {now anchor f : Int}

theorem integerQuotient_second (n : Int) :
    Quantity.integerQuotient n second = match Binary64.round (n / 1000000000) with
      | .infinite _ => .error .quotientTooLarge
      | v => .ok v := by
  have hsign : second.sign = 1 := by decide
  rw [Quantity.integerQuotient, hsign, Int.mul_one, Rat.mkRat_eq_div]
  rfl

/-- The count is the rounded quotient, cut off. -/
theorem expected_eq_ok_iff {n : Int} :
    expected now anchor (.integer f) = .ok n ↔
      ∃ q, Binary64.round (((now - anchor) * f : Int) / 1000000000) = .finite q ∧
        n = q.num.tdiv q.den := by
  have hne : second ≠ 0 := by decide
  have hexpected : expected now anchor (.integer f) =
      (Quantity.integerQuotient ((now - anchor) * f) second >>= fun v =>
        (Quantity.real v).truncate) := by
    simp only [expected, Number.quantity, Quantity.mul, Quantity.div, if_neg hne, bind, Except.bind]
    cases Quantity.integerQuotient ((now - anchor) * f) second <;> rfl
  rw [hexpected, integerQuotient_second]
  cases hround : Binary64.round (((now - anchor) * f : Int) / 1000000000) with
  | nan => exact absurd hround (Binary64.round_ne_nan _)
  | infinite negative =>
    constructor
    · intro h
      cases h
    · rintro ⟨q, hq, -⟩
      cases hq
  | finite q =>
    constructor
    · intro h
      cases h
      exact ⟨q, rfl, rfl⟩
    · rintro ⟨q', hq', rfl⟩
      cases hq'
      rfl

theorem tdiv_eq_floor {q : ℚ} (hq : 0 ≤ q) : q.num.tdiv q.den = ⌊q⌋ := by
  rw [Int.tdiv_eq_ediv_of_nonneg (Rat.num_nonneg.2 hq), Rat.floor_def']

/-- At the moment of the anchor nothing is due. -/
theorem expected_anchor (f : Int) : expected anchor anchor (.integer f) = .ok 0 := by
  refine expected_eq_ok_iff.2 ⟨0, ?_, rfl⟩
  rw [Int.sub_self, Int.zero_mul, Int.cast_zero, zero_div]
  exact round_zero

/-- **The count never goes back.** -/
theorem expected_mono {later m n : Int} (hf : 0 ≤ f) (hnow : anchor ≤ now) (hlater : now ≤ later)
    (hm : expected now anchor (.integer f) = .ok m)
    (hn : expected later anchor (.integer f) = .ok n) :
    m ≤ n := by
  obtain ⟨p, hp, rfl⟩ := expected_eq_ok_iff.1 hm
  obtain ⟨q, hq, rfl⟩ := expected_eq_ok_iff.1 hn
  have helapsed : 0 ≤ (now - anchor) * f := Int.mul_nonneg (by omega) hf
  have hmore : (now - anchor) * f ≤ (later - anchor) * f :=
    Int.mul_le_mul_of_nonneg_right (by omega) hf
  have hnonneg : (0 : ℚ) ≤ ((now - anchor) * f : Int) / 1000000000 := by positivity
  have hle : (((now - anchor) * f : Int) : ℚ) / 1000000000 ≤
      ((later - anchor) * f : Int) / 1000000000 := by
    gcongr
  have hpq : p ≤ q := Binary64.round_mono hnonneg hle hp hq
  have hp' : 0 ≤ p := Binary64.round_nonneg hnonneg hp
  rw [tdiv_eq_floor hp', tdiv_eq_floor (hp'.trans hpq)]
  exact Int.floor_mono hpq

end Pacer

/-! ## Ticks at other moments -/

/-- The plant does the same at every moment of the wall clock. -/
structure Plant.Timeless (σ : Type) {Op : Type} [Plant σ Op] : Prop where
  cycle : ∀ moment, Matches (fun s s' : σ × World => s' = (s.1, s.2.movedTo moment))
    (Plant.cycle : PlantM σ (Script Op)) Plant.cycle
  updateTimers : ∀ moment clock, Matches (fun s s' : σ × World => s' = (s.1, s.2.movedTo moment))
    (Plant.updateTimers clock : PlantM σ (TimerResult Op)) (Plant.updateTimers clock)

namespace Host

/-- The host at another moment of the wall clock. -/
def movedTo (h : Host σ Op) (moment : Int) : Host σ Op := { h with world := h.world.movedTo moment }

/-- What nobody but the host's user changes, with the clock. -/
structure Pace where
  clock : Nat
  now : Int
  anchor : Int
  frequency : Number
  maxCatchUp : Int

/-- A host that runs, with nobody else doing anything with it: listeners only listen, and all events
are of timer chains. -/
structure LeftAlone (pace : Pace) (h : Host σ Op) : Prop where
  running : h.status = .running
  clock : h.clock = pace.clock
  now : h.world.now = pace.now
  anchor : h.anchor = pace.anchor
  frequency : h.frequency = pace.frequency
  maxCatchUp : h.maxCatchUp = pace.maxCatchUp
  listeners : ∀ l ∈ h.listeners, l.script = []
  events : ∀ e ∈ h.queue.events, ∃ chain, e.payload = .timers chain

/-- A host that is left alone, and the same host at another moment. -/
structure Moved (pace : Pace) (moment : Int) (h k : Host σ Op) : Prop extends LeftAlone pace h where
  eq : k = h.movedTo moment

variable {pace : Pace} {moment : Int} {α : Type}

theorem moved_onPlant {m : PlantM σ α}
    (hm : ∀ moment, Matches (fun s s' : σ × World => s' = (s.1, s.2.movedTo moment)) m m) :
    Matches (Moved pace moment) (onPlant m : HostM σ Op α) (onPlant m) := by
  rintro h _ ⟨hh, rfl⟩
  have hmoved := hm moment (h.plant, h.world) (h.plant, h.world.movedTo moment) rfl
  -- At the moment at which it is anyway, the plant leaves the wall clock alone.
  have hsame := hm h.world.now (h.plant, h.world) (h.plant, h.world) rfl
  simp only [onPlant, movedTo]
  cases hx : m (h.plant, h.world) with
  | ok a s =>
    rw [hx] at hmoved hsame
    have hnow : s.2.now = h.world.now := congrArg (·.2.now) hsame.2
    cases hy : m (h.plant, h.world.movedTo moment) with
    | ok b t =>
      rw [hy] at hmoved
      obtain ⟨houtcome, rfl : t = _⟩ := hmoved
      exact ⟨houtcome, { hh with now := hnow.trans hh.now }, rfl⟩
    | error e t =>
      rw [hy] at hmoved
      cases hmoved.1
  | error e s =>
    rw [hx] at hmoved hsame
    have hnow : s.2.now = h.world.now := congrArg (·.2.now) hsame.2
    cases hy : m (h.plant, h.world.movedTo moment) with
    | ok b t =>
      rw [hy] at hmoved
      cases hmoved.1
    | error e' t =>
      rw [hy] at hmoved
      obtain ⟨houtcome, rfl : t = _⟩ := hmoved
      exact ⟨houtcome, { hh with now := hnow.trans hh.now }, rfl⟩

theorem moved_enqueue (delay chain : Nat) :
    Matches (Moved pace moment) (enqueue delay (.timers chain) : HostM σ Op Unit)
      (enqueue delay (.timers chain)) := by
  refine .modify ?_
  rintro h _ ⟨hh, rfl⟩
  refine ⟨{ hh with events := ?_ }, rfl⟩
  intro e he
  rcases EventQueue.mem_insertEvent.1 he with rfl | he
  · exact ⟨chain, rfl⟩
  · exact hh.events e he

theorem moved_takeDue :
    Matches (Moved pace moment) (takeDue : HostM σ Op (List (Event (Task Op)))) takeDue := by
  rintro h _ ⟨hh, rfl⟩
  refine ⟨rfl, { hh with events := ?_ }, rfl⟩
  intro e he
  exact hh.events e (EventQueue.due_append_later h.queue h.clock ▸ List.mem_append_right _ he)

theorem moved_mark (m : Mark) :
    Matches (Moved pace moment) (mark m : HostM σ Op Unit) (mark m) := by
  refine .modify ?_
  rintro h _ ⟨hh, rfl⟩
  exact ⟨{ hh with }, rfl⟩

section

variable [Plant σ Op] {run : Runner σ Op} (hrun : run [] = pure ())

include hrun

omit [Plant σ Op] in
theorem moved_tell {l : Listener Op} (hl : l.script = []) :
    Matches (Moved pace moment) (tell run l) (tell run l) := by
  refine .get_bind ?_
  rintro h _ ⟨hh, rfl⟩
  refine (moved_mark _).bind fun _ => ?_
  rw [hl, hrun]
  exact .pure _

variable (hmodest : Plant.Modest σ) (htimeless : Plant.Timeless σ)

include hmodest htimeless

theorem moved_cycle : Matches (Moved pace moment) (cycle run) (cycle run) := by
  refine .bind_of (moved_onPlant htimeless.cycle)
    (fun _ _ script _ _ hend => hmodest.cycle _ script _ (onPlant_eq_ok hend)) ?_
  rintro _ rfl
  rw [hrun]
  exact .pure _

theorem moved_updateTimers : Matches (Moved pace moment) (updateTimers run) (updateTimers run) := by
  refine .get_bind ?_
  rintro h _ ⟨hh, rfl⟩
  have hscript (s : σ × World) (result : TimerResult Op) (t : σ × World)
      (hend : Plant.updateTimers h.clock s = .ok result t) : result.script = [] := by
    obtain ⟨beeped, t', ht⟩ := hmodest.updateTimers h.clock s
    rw [ht] at hend
    cases hend
    rfl
  refine .bind_of (moved_onPlant fun moment => htimeless.updateTimers moment h.clock)
    (fun _ _ result _ _ hend => hscript _ result _ (onPlant_eq_ok hend)) fun result hnothing => ?_
  rw [hnothing, hrun, pure_bind]
  refine .ite (fun _ => ?_) fun _ => .pure _
  refine .get_bind ?_
  rintro k _ ⟨hk, rfl⟩
  exact .forM fun l hl => moved_tell hrun (hk.listeners l hl)

theorem moved_tickChain (chain : Nat) :
    Matches (Moved pace moment) (tickChain run chain) (tickChain run chain) := by
  refine .get_bind ?_
  rintro h _ ⟨hh, rfl⟩
  refine .ite (fun _ => ?_) fun _ => .pure _
  refine (moved_updateTimers hrun hmodest htimeless).bind fun _ => ?_
  refine .get_bind ?_
  rintro k _ ⟨hk, rfl⟩
  exact .ite (fun _ => moved_enqueue _ _) fun _ => .pure _

theorem moved_processEvents :
    Matches (Moved pace moment) (processEvents run) (processEvents run) := by
  refine .bind_of (P := fun events => ∀ e ∈ events, ∃ chain, e.payload = .timers chain)
    moved_takeDue ?_ fun events hevents => .forM fun e he => ?_
  · rintro h _ events _ ⟨hh, -⟩ hend
    cases hend
    intro e he
    exact hh.events e (EventQueue.due_append_later h.queue h.clock ▸ List.mem_append_left _ he)
  · obtain ⟨chain, hchain⟩ := hevents e he
    rw [hchain]
    exact moved_tickChain hrun hmodest htimeless chain

/-- **One tick of the clock** that ends well does so at every moment. -/
theorem moved_clockTick (moment : Int) {h h' : Host σ Op} (hh : LeftAlone pace h)
    (hend : clockTick run h = .ok () h') :
    clockTick run (h.movedTo moment) = .ok () (h'.movedTo moment) ∧
      LeftAlone { pace with clock := pace.clock + 1 } h' := by
  obtain ⟨_, counted, hcounted, hevents⟩ := exists_of_bind_eq_ok hend
  obtain ⟨_, k, hk, hcount⟩ := exists_of_bind_eq_ok hcounted
  cases hcount
  obtain ⟨_, hk', hk_alone, rfl⟩ :=
    (moved_cycle hrun hmodest htimeless h (h.movedTo moment) ⟨hh, rfl⟩).exists_of_ok hk
  have hnext : LeftAlone { pace with clock := pace.clock + 1 } { k with clock := k.clock + 1 } :=
    { hk_alone with clock := congrArg (· + 1) hk_alone.clock }
  obtain ⟨_, hevents', hlast, rfl⟩ :=
    (moved_processEvents hrun hmodest htimeless _ (movedTo _ moment) ⟨hnext, rfl⟩).exists_of_ok
      hevents
  refine ⟨?_, hlast⟩
  simp only [clockTick, clockedCycle, run_bind, hk', run_modify]
  exact hevents'

/-- **Ticks at one moment are ticks at another**, if they end well, and none of them is left out. -/
theorem tickTimes_movedTo (moment : Int) {h h' : Host σ Op} (hh : LeftAlone pace h) {n : Nat}
    (hend : tickTimes run n h = .ok () h') :
    tickTimes run n (h.movedTo moment) = .ok () (h'.movedTo moment) ∧
      LeftAlone { pace with clock := pace.clock + n } h' := by
  induction n generalizing pace h with
  | zero =>
    cases hend
    exact ⟨rfl, hh⟩
  | succ n ih =>
    rw [tickTimes_succ hh.running] at hend
    obtain ⟨_, k, hk, hrest⟩ := exists_of_bind_eq_ok hend
    obtain ⟨hfirst, hnext⟩ := moved_clockTick hrun hmodest htimeless moment hh hk
    obtain ⟨hothers, hlast⟩ := ih hnext hrest
    refine ⟨?_, ?_⟩
    · rw [tickTimes_succ (h := h.movedTo moment) hh.running, run_bind, hfirst]
      exact hothers
    · rw [Nat.add_comm n 1, ← Nat.add_assoc]
      exact hlast

end

/-! ## Looking after a host -/

section

variable [Plant σ Op]

/-- A host is looked after at a row of moments, none of them before the one before it. No look finds
more due than is made up for at once, and none fails. -/
inductive Polled : Host σ Op → List Int → Host σ Op → Prop
  | done (h : Host σ Op) : Polled h [] h
  | look {h k l : Host σ Op} {moment expected due : Int} {moments : List Int}
    (later : h.world.now ≤ moment)
    (expects : Pacer.expected moment h.anchor h.frequency = .ok expected)
    (few : expected - h.clock ≤ h.maxCatchUp)
    (runs : (execute (.advance (moment - h.world.now)) >>= fun _ => execute .runUntilNow) h =
      .ok (.integer due) k)
    (rest : Polled k moments l) : Polled h (moment :: moments) l

theorem execute_advance (h : Host σ Op) (moment : Int) :
    execute (.advance (moment - h.world.now)) h = .ok .nothing (h.movedTo moment) := by
  have hmoment : h.world.now + (moment - h.world.now) = moment := by omega
  show EStateM.Result.ok Reply.nothing { h with world := h.world.pass (moment - h.world.now) } = _
  rw [World.pass, hmoment]
  rfl

/-- The host is where one batch of ticks takes it that was powered on, and its clock is that of the
moment. -/
structure CaughtUp (f : Int) (on h : Host σ Op) : Prop where
  resting : h.Resting
  alone : LeftAlone ⟨h.clock, h.world.now, on.anchor, .integer f, on.maxCatchUp⟩ h
  batch : tickTimes (runner nestingLimit) h.clock on = .ok () (h.movedTo on.world.now)
  count : Pacer.expected h.world.now on.anchor (.integer f) = .ok h.clock
  since : on.anchor ≤ h.world.now

namespace CaughtUp

variable {f : Int} {on h k : Host σ Op}

/-- Where a host has been caught up, only the moment counts. -/
theorem eq_of_now (hh : CaughtUp f on h) (hk : CaughtUp f on k) (hnow : h.world.now = k.world.now) :
    h = k := by
  have hcount := hh.count
  rw [hnow, hk.count] at hcount
  have hclock : k.clock = h.clock := by
    have hint : (k.clock : Int) = h.clock := Except.ok.inj hcount
    omega
  have hbatch := hh.batch
  rw [← hclock, hk.batch] at hbatch
  have hsame : k.movedTo on.world.now = h.movedTo on.world.now := (EStateM.Result.ok.inj hbatch).2
  calc h = (h.movedTo on.world.now).movedTo h.world.now := rfl
    _ = (k.movedTo on.world.now).movedTo k.world.now := by rw [hsame, hnow]
    _ = k := rfl

/-- What is due is the difference of two counts, and nothing is dropped. -/
theorem cyclesDue_eq (hf : 0 < f) (hh : CaughtUp f on h) {moment expected : Int}
    (hlater : h.world.now ≤ moment)
    (hexpects : Pacer.expected moment on.anchor (.integer f) = .ok expected)
    (hfew : expected - h.clock ≤ h.maxCatchUp) :
    cyclesDue (h.movedTo moment) = .ok (expected - h.clock) (h.movedTo moment) ∧
      h.clock ≤ expected := by
  have hmono := Pacer.expected_mono (Int.le_of_lt hf) hh.since hlater hh.count hexpects
  have hmax : max (expected - h.clock) 0 = expected - h.clock := by omega
  have hcalculate : Pacer.expected (h.movedTo moment).world.now (h.movedTo moment).anchor
      (h.movedTo moment).frequency = .ok expected := by
    show Pacer.expected moment h.anchor h.frequency = _
    rw [hh.alone.anchor, hh.alone.frequency, hexpects]
  have hrunning : (h.movedTo moment).status = .running := hh.alone.running
  refine ⟨?_, hmono⟩
  have hnone : ¬(h.movedTo moment).maxCatchUp < expected - (h.movedTo moment).clock :=
    Int.not_lt.2 hfew
  simp only [cyclesDue, run_bind, run_get, hrunning, ne_eq, not_true_eq_false, if_false,
    hcalculate, calculate, run_pure, if_neg hnone]
  exact congrArg (EStateM.Result.ok · _) hmax

variable (hmodest : Plant.Modest σ) (htimeless : Plant.Timeless σ) (hf : 0 < f)

include hf

/-- A look that finds ticks due which end well. -/
theorem polled_of_tickTimes (hh : CaughtUp f on h) {moment expected : Int} {l : Host σ Op}
    {moments : List Int} (hlater : h.world.now ≤ moment)
    (hexpects : Pacer.expected moment on.anchor (.integer f) = .ok expected)
    (hfew : expected - h.clock ≤ h.maxCatchUp)
    (htick :
      tickTimes (runner nestingLimit) (expected - h.clock).toNat (h.movedTo moment) = .ok () k)
    (hrest : Polled k moments l) : Polled h (moment :: moments) l := by
  have hmoved : (h.movedTo moment).Resting := { hh.resting with }
  obtain ⟨hdue, -⟩ := hh.cyclesDue_eq hf hlater hexpects hfew
  have hexpects' : Pacer.expected moment h.anchor h.frequency = .ok expected := by
    rw [hh.alone.anchor, hh.alone.frequency, hexpects]
  have hruns : (execute (.advance (moment - h.world.now)) >>= fun _ => execute .runUntilNow) h =
      .ok (.integer (expected - h.clock)) k := by
    rw [run_bind, execute_advance]
    show (runUntilNow (runner nestingLimit) >>= fun n =>
      pure (Reply.integer n)) (h.movedTo moment) = _
    simp only [runUntilNow, run_bind, hdue, tick_late hmoved.late, htick]
    rfl
  exact .look hlater hexpects' hfew hruns hrest

include hmodest htimeless

theorem look (hh : CaughtUp f on h) {moment expected due : Int} (hlater : h.world.now ≤ moment)
    (hexpects : Pacer.expected moment on.anchor (.integer f) = .ok expected)
    (hfew : expected - h.clock ≤ h.maxCatchUp)
    (hruns : execute .runUntilNow (h.movedTo moment) = .ok (.integer due) k) :
    CaughtUp f on k ∧ k.world.now = moment := by
  obtain ⟨hdue, hmono⟩ := hh.cyclesDue_eq hf hlater hexpects hfew
  have hmoved : (h.movedTo moment).Resting := { hh.resting with }
  have hresting : k.Resting := by
    have hkept := resting_execute .runUntilNow _ hmoved
    rwa [hruns] at hkept
  -- The cycles that are due are ticked.
  have htick : tickTimes (runner nestingLimit) (expected - h.clock).toNat (h.movedTo moment) =
      .ok () k := by
    have hrun : (runUntilNow (runner nestingLimit) >>= fun n =>
      pure (Reply.integer n)) (h.movedTo moment) =
        .ok (.integer due) k := hruns
    obtain ⟨n, k', hk', hreply⟩ := exists_of_bind_eq_ok hrun
    cases hreply
    rw [runUntilNow, run_bind, hdue] at hk'
    obtain ⟨_, k'', hk'', hsame⟩ := exists_of_bind_eq_ok hk'
    cases hsame
    rwa [tick_late hmoved.late] at hk''
  have halone : LeftAlone ⟨h.clock, moment, on.anchor, .integer f, on.maxCatchUp⟩
      (h.movedTo moment) :=
    { hh.alone with now := rfl }
  obtain ⟨hback, hk⟩ := tickTimes_movedTo (runner_nil _) hmodest htimeless on.world.now halone htick
  have hclock : k.clock = h.clock + (expected - h.clock).toNat := hk.clock
  have hexpected : (k.clock : Int) = expected := by omega
  have hnow : k.world.now = moment := hk.now
  refine ⟨?_, hnow⟩
  exact {
    resting := hresting
    alone := { hk with clock := rfl, now := rfl }
    batch := by
      -- Both batches together are one that starts at power-on.
      rw [hclock, tickTimes_add, run_bind, hh.batch]
      exact hback
    count := by rw [hnow, hexpects, hexpected]
    since := by
      have hsince := hh.since
      omega }

/-- A row of looks leaves a host where its last look does. -/
theorem polled (hh : CaughtUp f on h) {moments : List Int} (hpolled : Polled h moments k) :
    CaughtUp f on k ∧ k.world.now = moments.getLastD h.world.now := by
  induction hpolled with
  | done h => exact ⟨hh, rfl⟩
  | @look h k l moment expected due moments later expects few runs rest ih =>
    rw [hh.alone.anchor, hh.alone.frequency] at expects
    rw [run_bind, execute_advance] at runs
    obtain ⟨hk, hnow⟩ := hh.look hmodest htimeless hf later expects few runs
    obtain ⟨hl, hlast⟩ := ih hk
    refine ⟨hl, ?_⟩
    rw [hlast, hnow, List.getLastD_cons]

end CaughtUp

end

end Host

/-! ## Machines -/

theorem Console.timeless : Plant.Timeless Console where
  cycle moment := by
    have htuned := World.tuned_movedTo moment
    have hcycle : Matches (fun s s' : Console × World => s' = (s.1, s.2.movedTo moment))
        cycle cycle := by
      rintro ⟨c, w⟩ _ rfl
      simp only [cycle, advance]
      cases c.board.cycle with
      | ok remark board => exact ⟨rfl, congrArg (Prod.mk _) (htuned.note rfl _)⟩
      | error fault board => exact ⟨rfl, rfl⟩
    exact hcycle.bind fun _ => .pure _
  updateTimers moment clock := by
    have htuned := World.tuned_movedTo moment
    have hticks : Matches (fun s s' : Console × World => s' = (s.1, s.2.movedTo moment))
        (updateTimers clock) (updateTimers clock) := by
      rintro ⟨c, w⟩ _ rfl
      obtain ⟨hbeeper, hworld⟩ :=
        htuned.beep (htuned.record w _ rfl (.notice (.beep clock))) c.beeper
      simp only [updateTimers_eq]
      refine ⟨rfl, ?_⟩
      simp only [finalState]
      split
      next => rw [hbeeper, hworld]
      next => rfl
    exact hticks.bind fun _ => .pure _

namespace Machine

/-- A machine is caught up when it is powered on. -/
theorem caughtUp_poweredOn {m : Machine} (hm : Host.Resting m) {f : Int} (hf : 0 < f)
    (hfrequency : m.frequency = .integer f) (hlisteners : ∀ l ∈ m.listeners, l.script = []) :
    Host.CaughtUp f m.poweredOn m.poweredOn where
  resting := by
    have hkept := Host.resting_execute .powerOn m hm
    rwa [execute_powerOn hf hfrequency] at hkept
  alone := {
    running := rfl
    clock := rfl
    now := rfl
    anchor := rfl
    frequency := hfrequency
    maxCatchUp := rfl
    listeners := hlisteners
    events := by
      intro e he
      exact ⟨_, congrArg Event.payload (List.mem_singleton.1 he)⟩ }
  batch := rfl
  count := Pacer.expected_anchor f
  since := Int.le_refl _

/-- **The clock follows the wall clock, however often one looks.** Take a machine with a positive
integer frequency that was told anything before and whose listeners only listen, and power it on.
Then let it run up to now at a row of moments, with nothing failing and no more due at once than is
made up for. After the last of them, the clock is the nearest value to the cycles of the time that
has passed since power-on, cut off to an integer; and another row of moments that ends at the same
one leaves the same machine. -/
theorem clock_of_polled {world : World} {random : RandomSource} {frequency timerFrequency : Number}
    {soundEnabled : Bool} {m : Machine}
    (hcreate : create world random frequency timerFrequency soundEnabled = .ok m)
    (commands : List (Command Console.Operation)) {f : Int} (hf : 0 < f)
    (hfrequency : (m.after commands).frequency = .integer f)
    (hlisteners : ∀ l ∈ (m.after commands).listeners, l.script = []) :
    let start := (m.after commands).world.now
    ∃ on, Host.execute .powerOn (m.after commands) = .ok .nothing on ∧
      (∀ moments k, Host.Polled on moments k →
        ∃ q : ℚ,
          Binary64.round (((moments.getLastD start - start) * f : Int) / 1000000000) = .finite q ∧
          0 ≤ q ∧ (k.clock : Int) = ⌊q⌋) ∧
      ∀ moments moments' k k', Host.Polled on moments k → Host.Polled on moments' k' →
        moments.getLastD start = moments'.getLastD start → k = k' := by
  intro start
  have hstart := caughtUp_poweredOn (resting_after (Host.resting_create hcreate) commands) hf
    hfrequency hlisteners
  have hpolled {moments : List Int} {k : Machine}
      (hk : Host.Polled (m.after commands).poweredOn moments k) :
      Host.CaughtUp f (m.after commands).poweredOn k ∧ k.world.now = moments.getLastD start :=
    hstart.polled Console.modest Console.timeless hf hk
  refine ⟨_, execute_powerOn hf hfrequency, ?_, ?_⟩
  · intro moments k hk
    obtain ⟨hcaught, hlast⟩ := hpolled hk
    have hcount := hcaught.count
    have hsince : start ≤ k.world.now := hcaught.since
    rw [hlast] at hcount hsince
    obtain ⟨q, hq, hclock⟩ := Pacer.expected_eq_ok_iff.1 hcount
    have helapsed : 0 ≤ (moments.getLastD start - start) * f :=
      Int.mul_nonneg (Int.sub_nonneg.2 hsince) (Int.le_of_lt hf)
    have hnonneg : 0 ≤ q := Binary64.round_nonneg (by positivity) hq
    exact ⟨q, hq, hnonneg, hclock.trans (Pacer.tdiv_eq_floor hnonneg)⟩
  · intro moments moments' k k' hk hk' hlast
    obtain ⟨hcaught, hend⟩ := hpolled hk
    obtain ⟨hcaught', hend'⟩ := hpolled hk'
    exact hcaught.eq_of_now hcaught' (by rw [hend, hend', hlast])

/-- A machine ticks once if its next instruction does not fail and no event comes due with it. -/
theorem exists_tickTimes_one {m : Machine} {run : Runner Console Console.Operation}
    (hrun : run [] = pure ()) (hm : m.plant.WellFormed)
    (hfaults : ∀ fault, ¬m.plant.board.Faults fault) (hrunning : m.status = .running)
    (hlate : m.queue.Late (m.clock + 1 : Nat)) : ∃ n, Host.tickTimes run 1 m = .ok () n := by
  obtain ⟨world, hcycle⟩ := Host.cycle_eq hrun m
  cases hboard : m.plant.board.cycle with
  | ok remark board =>
    rw [hboard] at hcycle
    have hevents : Host.processEvents run
        { m with plant := { m.plant with board }, world, clock := m.clock + 1 } = _ :=
      Host.processEvents_late hlate
    refine ⟨{ m with plant := { m.plant with board }, world, clock := m.clock + 1 }, ?_⟩
    rw [Host.tickTimes_succ hrunning]
    simp only [Host.clockTick, Host.clockedCycle, run_bind, hcycle, run_modify, hevents]
    rfl
  | error fault board =>
    obtain ⟨-, hfault⟩ := (Board.cycle_eq_error_iff hm).1 hboard
    exact absurd hfault (hfaults fault)

/-- Of two machines without a program, one is looked after once more than the other. -/
theorem clock_of_polled_once_more :
    ∃ m on k k' : Machine, create {} (.listed [] 0) (.integer 500) (.integer 60) true = .ok m ∧
      Host.execute .powerOn m = .ok .nothing on ∧ Host.Polled on [1000000, 3000000] k ∧
      Host.Polled on [3000000] k' ∧ k = k' ∧ k.clock = 1 := by
  obtain ⟨m, hcreate, hfrequency, hlisteners, hnow, hmax, hinterval, hplant⟩ : ∃ m : Machine,
      create {} (.listed [] 0) (.integer 500) (.integer 60) true = .ok m ∧
        m.frequency = .integer 500 ∧
        m.listeners = [] ∧ m.world.now = 0 ∧ Host.maxCatchUp m = 5000 ∧ m.interval = 8 ∧
          m.plant = Console.powerUp (.listed [] 0) true :=
    ⟨_, Host.create_eq _ _ (by decide) (by decide) _, rfl, rfl, rfl, rfl, rfl, rfl⟩
  have hquiet : ∀ l ∈ m.listeners, l.script = [] := by
    rw [hlisteners]
    exact fun _ hl => nomatch hl
  have hstart : Host.CaughtUp 500 m.poweredOn m.poweredOn :=
    caughtUp_poweredOn (Host.resting_create hcreate) (by decide) hfrequency hquiet
  have hzero : Pacer.expected 1000000 m.world.now (.integer 500) = .ok 0 := by
    rw [hnow]
    decide +kernel
  have hone : Pacer.expected 3000000 m.world.now (.integer 500) = .ok 1 := by
    rw [hnow]
    decide +kernel
  -- Without a program there is an opcode without a meaning, which does not fail.
  obtain ⟨k, hk⟩ : ∃ k,
      Host.tickTimes (Host.runner Host.nestingLimit) 1 (m.poweredOn.movedTo 3000000) =
      .ok () k := by
    have hopcode : (m.poweredOn.movedTo 3000000).plant.board.opcode = 0 := by
      show m.plant.board.memory.opcodeAt 0x200 = 0
      rw [hplant]
      simp [Console.powerUp, Memory.opcodeAt, Memory.read_powerUp, Memory.font]
    refine exists_tickTimes_one (Host.runner_nil _) (Console.wellFormed_reset _) ?_ rfl ?_
    · rintro fault ⟨-, ⟨hreturn, -⟩ | ⟨-, hfull, -⟩⟩
      · rw [hopcode] at hreturn
        exact absurd hreturn (by decide)
      · exact absurd hfull (show ¬(0 : Int) = 16 by decide)
    · intro e he
      rw [List.mem_singleton.1 he]
      show (1 : Int) < 0 + m.interval
      omega
  have hlast {h : Machine} (hh : Host.CaughtUp 500 m.poweredOn h) (hclock : h.clock = 0)
      (hsame : h.movedTo 3000000 = m.poweredOn.movedTo 3000000) (hnow : h.world.now ≤ 3000000) :
      Host.Polled h [3000000] k := by
    refine hh.polled_of_tickTimes (by decide) hnow hone ?_ ?_ (.done k)
    · rw [hclock, hh.alone.maxCatchUp]
      show (1 : Int) - 0 ≤ Host.maxCatchUp m
      omega
    · rw [hclock, hsame]
      exact hk
  have hlook {k : Machine} {moments : List Int}
      (hrest : Host.Polled (m.poweredOn.movedTo 1000000) moments k) :
      Host.Polled m.poweredOn (1000000 :: moments) k := by
    refine hstart.polled_of_tickTimes (by decide) ?_ hzero ?_ rfl hrest
    · show m.world.now ≤ 1000000
      omega
    · show (0 : Int) - 0 ≤ Host.maxCatchUp m
      omega
  obtain ⟨hcaught, -⟩ := hstart.polled Console.modest Console.timeless (by decide) (hlook (.done _))
  have htwice : Host.Polled m.poweredOn [1000000, 3000000] k :=
    hlook (hlast hcaught rfl rfl (show (1000000 : Int) ≤ 3000000 by decide))
  have honce : Host.Polled m.poweredOn [3000000] k := by
    refine hlast hstart rfl rfl ?_
    show m.world.now ≤ 3000000
    omega
  obtain ⟨on, hon, hclock, hsame⟩ := clock_of_polled hcreate [] (f := 500) (by decide)
    hfrequency hquiet
  obtain rfl : on = m.poweredOn :=
    (EStateM.Result.ok.inj (hon.symm.trans (execute_powerOn (f := 500) (by decide) hfrequency))).2
  refine ⟨m, _, k, k, hcreate, hon, htwice, honce, hsame _ _ k k htwice honce rfl, ?_⟩
  obtain ⟨q, hq, -, hfloor⟩ := hclock [3000000] k honce
  have hround : Binary64.round (((3000000 - 0) * 500 : Int) / 1000000000) = .finite (3 / 2) := by
    decide +kernel
  have hstartNow : (m.after []).world.now = 0 := hnow
  rw [hstartNow] at hq
  obtain rfl : (3 / 2 : ℚ) = q := Binary64.Value.finite.inj (hround.symm.trans hq)
  have hone' : ⌊(3 / 2 : ℚ)⌋ = 1 := by decide +kernel
  omega

end Machine

end Chip8
