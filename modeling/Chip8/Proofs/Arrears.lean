import Chip8.Proofs.Precision
import Chip8.Proofs.StalledTimers
import Chip8.Proofs.Surroundings

/-!
# Nothing is in arrears

A machine owes the cycles that its clock is behind the wall clock. Whatever anchors the clock anew
writes them off: a power-on, a reset, a change of the frequency, and a resume of a machine that does
not run. A run until now pays what is due, and writes off the rest where that is more than may be
made up for at once. So right after each of these, nothing is due, and a second run until now runs
nothing. What is due at any moment is between nothing and the most that is made up for.

A resume of a machine that runs does nothing, and what was due stays due.

## Main definitions

* `Host.Moderate`: a positive integer frequency, and a clock that is not too far ahead
* `Host.Abreast`: the wall clock has come to no more than what the clock shows
* `Host.Underway`: a host with a number of cycles to go until its clock shows a count
* `Command.Reanchors`: what writes off, or pays, what is owed

## Main statements

* `Host.exists_cyclesDue`: what is due, and what is owed once it is paid
* `Host.abreast_of_runUntilNow`: a run until now pays it
* `Machine.nothing_in_arrears`: nothing is due after a clock was anchored anew
* `Machine.arrears_after_resume`: a machine that runs is resumed in vain
-/

namespace Chip8

variable {σ Op : Type}

theorem World.lasting_now (now : Int) : World.Lasting (·.now = now) where
  notice _ _ hw := hw
  call _ _ _ hw := hw
  equip _ _ hw := hw

/-- A console that runs leaves the wall clock alone. -/
theorem Console.quiet_now (now : Int) : Plant.Quiet (fun s : Console × World => s.2.now = now) :=
  (World.lasting_now now).quiet fun _ _ _ hw => hw

namespace Host

variable {h k : Host σ Op} {f g : Int}

/-! ## What is owed -/

/-- The frequency is a positive integer, and neither the clock nor what may be made up for is too
much for the precision of the anchor. -/
structure Moderate (f : Int) (h : Host σ Op) : Prop where
  frequency : h.frequency = .integer f
  positive : 0 < f
  limit : 0 ≤ h.maxCatchUp
  bound : h.clock + h.maxCatchUp < 2 ^ 50

/-- The host owes nothing: if it runs, the wall clock has come to no more than what its clock
shows. -/
structure Abreast (h : Host σ Op) : Prop where
  limit : 0 ≤ h.maxCatchUp
  expected : h.status = .running →
    ∃ e, Pacer.expected h.world.now h.anchor h.frequency = .ok e ∧ e ≤ h.clock

theorem cyclesDue_of_running (hrunning : h.status = .running) {e : Int}
    (he : Pacer.expected h.world.now h.anchor h.frequency = .ok e) :
    cyclesDue h = if h.maxCatchUp < e - h.clock then
        (anchorAt (h.clock + h.maxCatchUp) >>= fun _ => pure h.maxCatchUp) h
      else .ok (max (e - h.clock) 0) h := by
  simp only [cyclesDue, run_bind, run_get, hrunning, ne_eq, not_true_eq_false, if_false, he,
    calculate, run_pure]
  by_cases hmany : h.maxCatchUp < e - h.clock
  · rw [if_pos hmany, if_pos hmany]
    rfl
  · rw [if_neg hmany, if_neg hmany]
    rfl

/-- What is due has been counted. -/
theorem exists_expected_of_cyclesDue (hrunning : h.status = .running) {due : Int}
    (hend : cyclesDue h = .ok due k) :
    ∃ e, Pacer.expected h.world.now h.anchor h.frequency = .ok e := by
  cases he : Pacer.expected h.world.now h.anchor h.frequency with
  | ok e => exact ⟨e, rfl⟩
  | error cause =>
    simp only [cyclesDue, run_bind, run_get, hrunning, ne_eq, not_true_eq_false, if_false, he,
      calculate] at hend
    cases hend

theorem cyclesDue_of_idle (hidle : h.status ≠ .running) : cyclesDue h = .ok 0 h := by
  simp only [cyclesDue, run_bind, run_get, if_pos hidle]
  rfl

/-- A host that does not run is left as it is. -/
theorem runUntilNow_of_idle [Plant σ Op] {run : Runner σ Op} (hidle : h.status ≠ .running) :
    runUntilNow run h = .ok 0 h := by
  rw [runUntilNow, run_bind, cyclesDue_of_idle hidle]
  rfl

theorem cyclesDue_abreast (hh : h.Abreast) : cyclesDue h = .ok 0 h := by
  by_cases hrunning : h.status = .running
  · obtain ⟨e, he, hle⟩ := hh.expected hrunning
    have hlimit := hh.limit
    have hnone : max (e - h.clock) 0 = 0 := by omega
    rw [cyclesDue_of_running hrunning he, if_neg (by omega), hnone]
  · exact cyclesDue_of_idle hrunning

/-- Where the clock is anchored anew, nothing is owed. -/
theorem exists_anchorAt (hh : Moderate f h) {clock : Int} (hclock : 0 ≤ clock)
    (hbound : clock < 2 ^ 50) :
    ∃ anchor e, anchorAt clock h = .ok () { h with anchor } ∧
      Pacer.expected h.world.now anchor h.frequency = .ok e ∧ e ≤ clock := by
  obtain ⟨c, rfl⟩ := Int.eq_ofNat_of_zero_le hclock
  have hfar : c ≤ 2 ^ 200 := by omega
  obtain ⟨anchor, hanchor⟩ := Pacer.exists_anchor h.world.now hh.positive hfar
  obtain ⟨e, he, hle⟩ := Pacer.exists_expected_of_anchor hh.positive hclock hbound hanchor
  rw [← hh.frequency] at hanchor he
  refine ⟨anchor, e, ?_, he, hle⟩
  simp only [anchorAt, run_bind, run_get, hanchor]
  rfl

/-- What is due is between nothing and the most that is made up for. Once it is paid, nothing is
owed. -/
theorem exists_cyclesDue (hh : Moderate f h)
    (hexpects : h.status = .running → ∃ e,
      Pacer.expected h.world.now h.anchor h.frequency = .ok e) :
    ∃ due anchor, cyclesDue h = .ok due { h with anchor } ∧ 0 ≤ due ∧ due ≤ h.maxCatchUp ∧
      (h.status = .running →
        ∃ e, Pacer.expected h.world.now anchor h.frequency = .ok e ∧ e ≤ h.clock + due) := by
  have hlimit := hh.limit
  by_cases hrunning : h.status = .running
  · obtain ⟨e, he⟩ := hexpects hrunning
    rw [cyclesDue_of_running hrunning he]
    by_cases hmany : h.maxCatchUp < e - h.clock
    · -- The rest is written off.
      obtain ⟨anchor, e', hanchor, he', hle⟩ := exists_anchorAt hh (by omega) hh.bound
      refine ⟨h.maxCatchUp, anchor, ?_, hlimit, Int.le_refl _, fun _ => ⟨e', he', hle⟩⟩
      rw [if_pos hmany, run_bind, hanchor]
      rfl
    · refine ⟨max (e - h.clock) 0, h.anchor, ?_, by omega, by omega, fun _ => ⟨e, he, by omega⟩⟩
      rw [if_neg hmany]
  · exact ⟨0, h.anchor, cyclesDue_of_idle hrunning, Int.le_refl _, hlimit,
      fun hrun => absurd hrun hrunning⟩

/-! ## Anchoring anew -/

theorem abreast_startChain : KeepsOr Abreast (fun _ _ => False) (startChain : HostM σ Op Unit) := by
  refine .get_bind fun h hh => ?_
  refine .ite (fun _ => ?_) fun _ => .pure _
  rintro _ -
  exact { hh with }

theorem abreast_stopChain : KeepsOr Abreast (fun _ _ => False) (stopChain : HostM σ Op Unit) :=
  .modify fun _ hh => { hh with }

/-- Anchoring the clock writes off what is owed. -/
theorem abreast_anchorClock :
    Hoare (Moderate f) (anchorClock : HostM σ Op Unit) (fun _ => Abreast) (fun _ _ => False) := by
  intro h hh
  have hlimit := hh.limit
  have hbound := hh.bound
  obtain ⟨anchor, e, hanchor, he, hle⟩ := exists_anchorAt hh (Int.natCast_nonneg h.clock) (by omega)
  have hsame : anchorClock h = anchorAt h.clock h := rfl
  rw [hsame, hanchor]
  exact ⟨hlimit, fun _ => ⟨e, he, hle⟩⟩

/-- A resume writes it off, if the host does not run. -/
theorem abreast_applyResume :
    Hoare (fun h => Moderate f h ∧ h.status ≠ .running) (applyResume : HostM σ Op Unit)
      (fun _ => Abreast) (fun _ _ => False) := by
  refine Hoare.get_bind fun h hh => ?_
  rw [if_pos hh.2]
  have hstatus : Hoare (· = h) (modify fun h => { h with status := .running } : HostM σ Op Unit)
      (fun _ => Moderate f) (fun _ _ => False) := by
    rintro _ rfl
    exact { hh.1 with }
  exact hstatus.bind fun _ => abreast_anchorClock.bind fun _ => abreast_startChain

/-- So does a change of the frequency that ends well. -/
theorem abreast_setFrequency (hg : 0 < g) :
    Hoare (Moderate f) (setFrequency (.integer g) : HostM σ Op Unit) (fun _ => Abreast)
      (fun _ _ => True) := by
  have hset : Hoare (Moderate f)
      (modify fun h => { h with frequency := .integer g } : HostM σ Op Unit)
      (fun _ => Moderate g) (fun _ _ => True) :=
        fun _ hh => { hh with frequency := rfl, positive := hg }
  rw [setFrequency_eq hg]
  refine hset.bind fun _ => ?_
  refine abreast_anchorClock.safely.bind fun _ => ?_
  refine KeepsOr.get_bind fun h _ => ?_
  refine .bind_of (hoare_calculate (fun _ _ _ => trivial) _) fun interval _ => ?_
  refine KeepsOr.bind (.modify fun _ hk => { hk with }) fun _ => ?_
  refine .get_bind fun k _ => ?_
  exact .ite (fun _ => (Hoare.safely abreast_stopChain).bind
    fun _ => Hoare.safely abreast_startChain) fun _ => .pure _

/-! ## Runs until now -/

/-- The host has a number of cycles to go until its clock shows a count. Nobody changes its pace. -/
structure Underway (pace : Pace) (left : Nat) (h : Host σ Op) : Prop where
  clock : h.clock + left = pace.clock
  now : h.world.now = pace.now
  anchor : h.anchor = pace.anchor
  frequency : h.frequency = pace.frequency
  maxCatchUp : h.maxCatchUp = pace.maxCatchUp

variable {pace : Pace} {left : Nat}

theorem Underway.around (hh : Underway pace left h)
    (hk : Around (fun s => s.2.now = pace.now) h k) :
    Underway pace left k := by
  obtain ⟨s, hnow, rfl⟩ := hk
  exact { hh with now := hnow }

theorem Underway.step (hh : Underway pace (left + 1) h) (queue : EventQueue (Task Op)) :
    Underway pace left { h with clock := h.clock + 1, queue } :=
  { hh with
    clock := by
      have hclock := hh.clock
      show h.clock + 1 + left = pace.clock
      omega }

section

variable [Plant σ Op] {run : Runner σ Op} (hundemanding : Plant.Undemanding (σ := σ) fun _ => True)
  (hquiet : ∀ now, Plant.Quiet (fun s : σ × World => s.2.now = now)) (hrun : LeavesAlone run)

include hquiet hrun

/-- No event changes the pace. -/
theorem underway_perform (e : Event (Task Op)) (es : List (Event (Task Op))) :
    Hoare (fun h => Orderly (fun _ => True) Script.Inert Script.Inert 1 (e :: es) h ∧
      Underway pace left h)
      (perform run e.payload) (fun _ => Underway pace left) (fun _ _ => True) := by
  rintro h ⟨horderly, hh⟩
  have hkept := horderly.kept e List.mem_cons_self
  cases hpayload : e.payload with
  | timers chain =>
    rcases tickChain_cases hrun (hquiet pace.now) horderly.listeners hh.now chain with
      ⟨-, heq⟩ | ⟨-, k, hk, ⟨-, heq⟩ | ⟨cause, -, heq⟩⟩
    · simp only [perform, heq]
      exact hh
    · have hticked := hh.around hk
      simp only [perform, heq]
      exact { hticked with }
    · simp only [perform, heq]
  | script label script =>
    rw [hpayload] at hkept
    have hkeeps : Keeps (Underway pace left) (perform run (.script label script)) := by
      refine .get_bind fun h _ => ?_
      refine Keeps.bind (.modify fun _ hk => { hk with }) fun _ => ?_
      exact hrun.keeps hkept
    exact hkeeps.consequence (fun _ hk => hk) (fun _ _ hk => hk) (fun _ _ _ => trivial) h hh
  | _ =>
    rw [hpayload] at hkept
    exact hkept.elim

include hundemanding

theorem dispatches_underway :
    Dispatches run
      (fun left es h => Orderly (fun _ => True) Script.Inert Script.Inert 1 es h ∧
        Underway pace left h)
      (fun _ _ => True) where
  late _ _ hh := hh.1.late
  cycle left := by
    rintro h ⟨⟨horderly, hh⟩, -⟩
    have horderly' := orderly_cycle hundemanding hrun h horderly
    have hnow := keeps_around_cycle (h := h) hrun (hquiet pace.now) h (.refl hh.now)
    cases hcycle : cycle run h with
    | ok _ k =>
      rw [hcycle] at horderly' hnow
      exact ⟨horderly', hh.around hnow⟩
    | error e k => trivial
  step _ _ hh := ⟨hh.1.step, hh.2.step _⟩
  perform left e es := by
    have horderly := orderly_perform (q := Script.Inert) (r := Script.Inert) hundemanding hrun
      (fun _ hs => hs) (fun _ hs => hs) e es
    refine (horderly.and (underway_perform hquiet hrun e es)).consequence ?_ (fun _ _ hk => hk)
      fun _ _ _ => trivial
    exact fun _ hh => ⟨hh.1, hh⟩

/-- **A run until now** pays what is due, and writes off the rest. -/
theorem abreast_of_runUntilNow (hh : Moderate f h)
    (horderly : Orderly (fun _ => True) Script.Inert Script.Inert 1 [] h) {due : Int}
    (hend : runUntilNow run h = .ok due k) : k.Abreast := by
  obtain ⟨_, n, hdue, hrest⟩ := exists_of_bind_eq_ok hend
  obtain ⟨_, _, htick, hlast⟩ := exists_of_bind_eq_ok hrest
  cases hlast
  by_cases hrunning : h.status = .running
  · obtain ⟨e, he⟩ := exists_expected_of_cyclesDue hrunning hdue
    obtain ⟨_, anchor, hdue', hnonneg, -, hpaid⟩ := exists_cyclesDue hh fun _ => ⟨e, he⟩
    rw [hdue] at hdue'
    cases hdue'
    have hunderway :
        Underway ⟨h.clock + due.toNat, h.world.now, anchor, h.frequency, h.maxCatchUp⟩ due.toNat
          { h with anchor } := ⟨rfl, rfl, rfl, rfl, rfl⟩
    have hticked := (dispatches_underway hundemanding hquiet hrun).ticking.hoare_tick due
      { h with anchor } ⟨{ horderly with }, hunderway⟩
    rw [htick] at hticked
    obtain ⟨left, ⟨-, hk⟩, hall⟩ := hticked
    refine ⟨hk.maxCatchUp ▸ hh.limit, fun hstill => ?_⟩
    obtain ⟨e', he', hle⟩ := hpaid hrunning
    have hclock : k.clock + left = h.clock + due.toNat := hk.clock
    have hnone := hall hstill
    rw [hk.now, hk.anchor, hk.frequency]
    exact ⟨e', he', by omega⟩
  · rw [cyclesDue_of_idle hrunning] at hdue
    cases hdue
    cases htick
    exact ⟨hh.limit, fun hrun => absurd hrun hrunning⟩

omit hundemanding hquiet hrun in
theorem runUntilNow_abreast (hh : h.Abreast) : runUntilNow run h = .ok 0 h := by
  simp only [runUntilNow, run_bind, cyclesDue_abreast hh]
  rfl

end

end Host

/-! ## Machines -/

open Host (Abreast Moderate)

/-- The command anchors the clock anew, and so writes off or pays what is owed. -/
def Command.Reanchors (h : Host σ Op) : Command Op → Prop
  | .powerOn | .reset | .runUntilNow => True
  | .resume => h.status ≠ .running
  | .setFrequency frequency => ∃ g, 0 < g ∧ frequency = .integer g
  | _ => False

namespace Machine

open Console (Operation)

variable {m : Machine} {f : Int}

/-! ### What ends well -/

theorem exists_powerOn (hm : Moderate f m) :
    ∃ k, Host.execute .powerOn m = .ok .nothing k ∧ Abreast k := by
  refine ⟨_, execute_powerOn hm.positive hm.frequency, hm.limit, fun _ => ⟨0, ?_, Int.le_refl _⟩⟩
  show Pacer.expected m.world.now m.world.now m.frequency = .ok 0
  rw [hm.frequency]
  exact Pacer.expected_anchor f

theorem exists_reset (hm : Moderate f m) (hlate : m.queue.Late m.clock) :
    ∃ k, Host.execute .reset m = .ok .nothing k ∧ Abreast k := by
  have hreset : Host.execute .reset m =
      (Host.applyReset >>= fun _ => pure Reply.nothing)
        { m with scheduled := m.scheduled + 1 } := by
    show (Host.schedule _ 0 .reset >>= fun _ => pure Reply.nothing) m = _
    rw [run_bind, run_bind, Host.schedule_now hlate]
    rfl
  have hnow : Pacer.expected m.world.now m.world.now m.frequency = .ok 0 := by
    rw [hm.frequency]
    exact Pacer.expected_anchor f
  by_cases hrunning : m.status = .running
  · have happlied := applyReset_running (m := { m with scheduled := m.scheduled + 1 })
      hm.positive hm.frequency hrunning
    rw [hreset, run_bind, happlied]
    exact ⟨_, rfl, hm.limit, fun _ => ⟨0, hnow, Int.le_refl _⟩⟩
  · have happlied := applyReset_idle (m := { m with scheduled := m.scheduled + 1 }) hm.positive
      hm.frequency hrunning
    rw [hreset, run_bind, happlied]
    exact ⟨_, rfl, hm.limit, fun hrun => absurd hrun hrunning⟩

theorem exists_resume (hm : Moderate f m) (hlate : m.queue.Late m.clock)
    (hidle : m.status ≠ .running) :
    ∃ k, Host.execute .resume m = .ok .nothing k ∧ Abreast k := by
  have hresume : Host.execute .resume m =
      (Host.resume (Host.runner Host.nestingLimit) >>= fun _ => pure .nothing) m :=
    rfl
  by_cases hpaused : m.status = .paused
  · have hskipped : Moderate f { m with scheduled := m.scheduled + 1 } := { hm with }
    obtain ⟨_, k, happlied, hk⟩ := Host.abreast_applyResume.exists_ok ⟨hskipped, hidle⟩
    refine ⟨k, ?_, hk⟩
    simp only [hresume, Host.resume, run_bind, run_get, if_pos hpaused, Host.schedule_now hlate,
      Host.perform, happlied]
    rfl
  · refine ⟨m, ?_, hm.limit, fun hrun => absurd hrun hidle⟩
    simp only [hresume, Host.resume, run_bind, run_get, if_neg hpaused]
    rfl

/-- Where the clock was anchored anew, nothing is owed. -/
theorem abreast_of_reanchors (hm : Moderate f m) (hlate : m.queue.Late m.clock)
    {c : Command Operation}
    (horderly : c = .runUntilNow → Host.Orderly (fun _ => True) Script.Inert Script.Inert 1 [] m)
    (hc : c.Reanchors m) {reply : Reply} {k : Machine} (hend : Host.execute c m = .ok reply k) :
    Abreast k := by
  have of_exists (h : ∃ k, Host.execute c m = .ok .nothing k ∧ Abreast k) : Abreast k := by
    obtain ⟨l, hl, habreast⟩ := h
    rw [hl] at hend
    cases hend
    exact habreast
  cases c with
  | powerOn => exact of_exists (exists_powerOn hm)
  | reset => exact of_exists (exists_reset hm hlate)
  | resume => exact of_exists (exists_resume hm hlate hc)
  | setFrequency frequency =>
    obtain ⟨g, hg, rfl⟩ := hc
    obtain ⟨_, l, hset, hlast⟩ := exists_of_bind_eq_ok hend
    cases hlast
    have habreast := Host.abreast_setFrequency hg m hm
    rw [hset] at habreast
    exact habreast
  | runUntilNow =>
    obtain ⟨due, l, hrun, hlast⟩ := exists_of_bind_eq_ok hend
    cases hlast
    exact Host.abreast_of_runUntilNow Console.modest.undemanding Console.quiet_now
      (Host.leavesAlone_runner Host.nestingLimit) hm (horderly rfl) hrun
  | _ => exact hc.elim

/-- **Nothing is in arrears.** Take a machine that was told anything, with a positive integer
frequency and a clock that is not too far ahead. Right after its clock was anchored anew, no cycles
are due, and a run until now runs none; a power-on, a reset and the resume of a machine that does
not run do anchor it, and a run until now that ends well does if the scripts of events and listeners
do nothing but fail at most. And whenever the count that the wall clock has come to fits a
floating-point value, what is due is between nothing and the most that is made up for. -/
theorem nothing_in_arrears {world : World} {random : RandomSource}
    {frequency timerFrequency : Number} {soundEnabled : Bool}
    (hcreate : create world random frequency timerFrequency soundEnabled = .ok m)
    (commands : List (Command Operation)) (hf : 0 < f)
    (hfrequency : (m.after commands).frequency = .integer f)
    (hlimit : 0 ≤ Host.maxCatchUp (m.after commands))
    (hbound : (m.after commands).clock + Host.maxCatchUp (m.after commands) < 2 ^ 50) :
    let n := m.after commands
    (∀ c, Command.Reanchors n c →
      (c = .runUntilNow → ∀ d ∈ commands, d.Brings Script.Inert Script.Inert) →
      (c = .powerOn ∨ c = .reset ∨ c = .resume → ∃ k, Host.execute c n = .ok .nothing k) ∧
      ∀ reply k, Host.execute c n = .ok reply k →
        Host.execute .cyclesDue k = .ok (.integer 0) k ∧
          Host.execute .runUntilNow k = .ok (.integer 0) k) ∧
    ((n.status = .running → ∃ q,
      Binary64.round (((n.world.now - n.anchor) * f : Int) / 1000000000) = .finite q) →
      ∃ due k, Host.execute .cyclesDue n = .ok (.integer due) k ∧ 0 ≤ due ∧
        due ≤ Host.maxCatchUp n) := by
  intro n
  have hlate : n.queue.Late n.clock := (resting_after (Host.resting_create hcreate) commands).late
  have hn : Moderate f n := ⟨hfrequency, hf, hlimit, hbound⟩
  refine ⟨fun c hc hbrings => ⟨?_, fun reply k hend => ?_⟩, fun hfits => ?_⟩
  · rintro (rfl | rfl | rfl)
    · obtain ⟨k, hk, -⟩ := exists_powerOn hn
      exact ⟨k, hk⟩
    · obtain ⟨k, hk, -⟩ := exists_reset hn hlate
      exact ⟨k, hk⟩
    · obtain ⟨k, hk, -⟩ := exists_resume hn hlate hc
      exact ⟨k, hk⟩
  · have hk : Abreast k := by
      refine abreast_of_reanchors hn hlate (fun hrun => ?_) hc hend
      exact Host.orderly_runAll Console.modest.undemanding (fun _ hs => hs) (fun _ hs => hs)
        Script.inert_nil (hbrings hrun) (Host.orderly_create trivial hcreate)
    have hdue : Host.execute .cyclesDue k = (Host.cyclesDue >>= fun due => pure (.integer due)) k :=
      rfl
    have hrun : Host.execute .runUntilNow k =
        (Host.runUntilNow (Host.runner Host.nestingLimit) >>= fun due => pure (.integer due)) k :=
          rfl
    constructor
    · rw [hdue, run_bind, Host.cyclesDue_abreast hk]
      rfl
    · rw [hrun, run_bind, Host.runUntilNow_abreast hk]
      rfl
  · have hexpects : n.status = .running → ∃ e,
        Pacer.expected n.world.now n.anchor n.frequency = .ok e := by
      intro hrunning
      obtain ⟨q, hq⟩ := hfits hrunning
      rw [hn.frequency]
      exact ⟨_, Pacer.expected_eq_ok_iff.2 ⟨q, hq, rfl⟩⟩
    obtain ⟨due, anchor, hdue, hnonneg, hle, -⟩ := Host.exists_cyclesDue hn hexpects
    refine ⟨due, { n with anchor }, ?_, hnonneg, hle⟩
    have hcount :
        Host.execute .cyclesDue n = (Host.cyclesDue >>= fun due => pure (.integer due)) n := rfl
    rw [hcount, run_bind, hdue]
    rfl

/-- Half a second after power-on, a change of the frequency writes off what is due, and a run until
now pays it. -/
theorem nothing_in_arrears_late :
    ∃ m, create {} (.listed [] 0) (.integer 500) (.integer 60) false = .ok m ∧
      let n := m.after [.setMaxCatchUp 3, .powerOn, .operate (.assign [.awaitingKey true]),
        .advance 500000000]
      (∃ k, Host.execute (.setFrequency (.integer 700)) n = .ok .nothing k ∧
        Host.execute .cyclesDue k = .ok (.integer 0) k) ∧
      (∃ k, Host.execute .runUntilNow n = .ok (.integer 3) k ∧
        Host.execute .runUntilNow k = .ok (.integer 0) k) ∧
      ∃ due k, Host.execute .cyclesDue n = .ok (.integer due) k ∧ 0 ≤ due ∧ due ≤ 3 := by
  have hcreate : create {} (.listed [] 0) (.integer 500) (.integer 60) false = _ :=
    Host.create_eq _ _ (by decide) (by decide) _
  refine ⟨_, hcreate, ?_⟩
  intro n
  obtain ⟨hanchored, hdue⟩ := nothing_in_arrears hcreate
    [.setMaxCatchUp 3, .powerOn, .operate (.assign [.awaitingKey true]), .advance 500000000]
    (f := 500) (by decide) (by decide +kernel) (by decide +kernel) (by decide +kernel)
  have hlimit : Host.maxCatchUp n = 3 := by decide +kernel
  rw [hlimit] at hdue
  obtain ⟨k, hset⟩ : ∃ k, Host.execute (.setFrequency (.integer 700)) n = .ok .nothing k :=
    exists_of_outcome_eq_ok (by decide +kernel)
  obtain ⟨l, hrun⟩ : ∃ l, Host.execute .runUntilNow n = .ok (.integer 3) l :=
    exists_of_outcome_eq_ok (by decide +kernel)
  obtain ⟨hset_due, -⟩ :=
    (hanchored (.setFrequency (.integer 700)) ⟨700, by decide, rfl⟩ nofun).2 _ k hset
  obtain ⟨-, hrun_again⟩ :=
    (hanchored .runUntilNow trivial fun _ => by simp [Command.Brings]).2 _ l hrun
  exact ⟨⟨k, hset, hset_due⟩, ⟨l, hrun, hrun_again⟩, hdue fun _ => ⟨250, by decide +kernel⟩⟩

/-- A second after power-on, the resume of a machine that runs leaves all that is due. -/
theorem arrears_after_resume :
    ∃ m, create {} (.listed [] 0) (.integer 500) (.integer 60) false = .ok m ∧
      let n := m.after [.powerOn, .advance 1000000000]
      n.frequency = .integer 500 ∧ Host.maxCatchUp n = 5000 ∧ n.clock = 0 ∧
        (runAll Host.execute [.resume, .cyclesDue] n).1 = [.ok .nothing, .ok (.integer 500)] := by
  refine ⟨_, Host.create_eq _ _ (by decide) (by decide) _, ?_⟩
  decide +kernel

end Machine

end Chip8
