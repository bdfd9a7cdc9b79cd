import Chip8.Proofs.Calm
import Chip8.Proofs.SilentMachine
import Chip8.Proofs.StackFaults

/-!
# Failing instructions of a machine

A machine that runs into a fault of its program stays in front of the instruction that failed, with
its clock, its queue and everything else as they were before it. So it fails again, in the same way,
as often as it is told to go on.

## Main definitions

* `Console.Faults`: the next instruction of a console fails
* `Machine.Calm`: a sound machine with nothing due, as it is whenever it is left alone

## Main statements

* `Console.plantStuck`: a console that fails with a fault is left in front of the instruction that
  failed
* `Host.tickTimes_add`: ticks in a row are ticks one after the other
* `Machine.faults_atomic`: which instructions fail, and what a machine is left with
-/

namespace Chip8

namespace Console

open Operation (Ordinary)

/-- The next instruction of the console fails with a fault. -/
def Faults (fault : Fault) (c : Console) : Prop := c.board.Faults fault

/-- The operation keeps the board well-formed if it ends well. If it fails with a fault, so does the
next instruction. -/
abbrev GetsStuck {α : Type} (m : PlantM Console α) : Prop :=
  KeepsOr (fun s => s.1.WellFormed) (fun e s => Blames Faults e s.1) m

/-- The operation does not fail with a fault. -/
abbrev Faultless {α : Type} (m : PlantM Console α) : Prop :=
  KeepsOr (fun _ => True) (fun e _ => ∀ fault, e ≠ .fault fault) m

variable {α : Type}

/-- A move of the processor that fails leaves the board in front of the instruction that failed. -/
theorem getsStuck_advance {move : Board → Execution}
    (hkeeps : Keeps Board.WellFormed (move : EStateM Fault Board (Option Remark)))
    (hmove : ∀ {b : Board}, b.WellFormed → ∀ {fault : Fault} {c : Board},
      move b = .error fault c ↔ c = b ∧ b.Faults fault) : GetsStuck (advance move) := by
  rintro ⟨c, w⟩ hc
  have hend := keeps_advance (J := WellFormed) (fun _ hd => hkeeps.finalState hd) (c, w) hc
  simp only [advance] at hend ⊢
  cases hboard : move c.board with
  | ok remark board =>
    simpa only [hboard] using hend
  | error fault board =>
    obtain ⟨rfl, hfaults⟩ := (hmove hc).1 hboard
    rintro _ ⟨⟩
    exact hfaults

theorem getsStuck_cycle : GetsStuck cycle :=
  getsStuck_advance Board.keeps_cycle Board.cycle_eq_error_iff

theorem getsStuck_trace (n : Nat) : GetsStuck (trace n) := by
  induction n with
  | zero => exact .pure _
  | succ n ih =>
    refine getsStuck_cycle.bind fun _ => ?_
    refine .get_bind fun s _ => ?_
    exact ih.bind fun _ => .pure _

theorem Faultless.stuck {m : PlantM Console α} (hm : Faultless m) :
    Hoare (fun s => s.1.WellFormed) m (fun _ _ => True) (fun e s => Blames Faults e s.1) :=
  hm.consequence (fun _ _ => trivial) (fun _ _ hs => hs) fun _ s he => blames_of_ne he s.1

theorem faultless_load (path : Option Path) (image : List Byte) : Faultless (load path image) := by
  refine .get_bind ?_
  rintro ⟨c, w⟩ -
  cases hload : c.loadImage path image with
  | error e => simpa only [hload] using .throw (by simp)
  | ok loaded =>
    simp only [hload]
    exact fun _ _ => trivial

theorem faultless_loadFile (path : Path) : Faultless (loadFile path) := by
  refine .get_bind fun s _ => ?_
  cases Rom.read s.2.files path with
  | error e => exact .throw (by simp)
  | ok image => exact faultless_load _ _

theorem faultless_checkKey (key : Int) : Faultless (checkKey key) := by
  rw [checkKey]
  cases keyOfInt key with
  | none => exact .throw (by simp)
  | some k => exact .pure _

theorem faultless_hostKey (code : Int) (down : Bool) : Faultless (hostKey code down) := by
  rw [hostKey]
  cases keypadKey? code with
  | none => exact .pure _
  | some key => exact fun _ _ => trivial

theorem faultless_operate {op : Operation} (hop : op.Ordinary) (hstep : op ≠ .step)
    (htrace : ∀ count, op ≠ .trace count) : Faultless (operate op) := by
  cases op with
  | step => exact absurd rfl hstep
  | trace count => exact absurd rfl (htrace count)
  | assign settings => exact hop.elim
  | load image => exact (faultless_load none image).bind fun _ => .pure _
  | loadFile path => exact (faultless_loadFile _).bind fun _ => .pure _
  | keyDown key | keyUp key => exact (faultless_checkKey key).bind fun _ _ _ => trivial
  | hostKey code down => exact (faultless_hostKey code down).bind fun _ => .pure _
  | pixel x y =>
    refine .get_bind fun s _ => ?_
    cases s.1.board.screen.pixel x y with
    | ok lit => exact .pure _
    | error cause => exact .throw (by simp)
  | wipe | resetProcessor | poke | setDirty => exact fun _ _ => trivial
  | program | isDirty | registers | screenText | dump | colours => exact fun _ _ => trivial

theorem plantStuck : Plant.Stuck WellFormed Ordinary Faults where
  cycle := by
    have hcycle : GetsStuck (Plant.cycle : PlantM Console (Script Operation)) :=
      getsStuck_cycle.bind fun _ => .pure _
    exact hcycle.consequence (fun _ hs => hs) (fun _ _ _ => trivial) (fun _ _ hs => hs)
  updateTimers clock := by
    rintro ⟨c, w⟩ -
    trivial
  reset := fun _ _ => trivial
  operate op hop := by
    have hstuck (m : PlantM Console Reply) (hm : GetsStuck m) :
        Hoare (fun s => s.1.WellFormed) m (fun _ _ => True) (fun e s => Blames Faults e s.1) :=
      hm.consequence (fun _ hs => hs) (fun _ _ _ => trivial) (fun _ _ hs => hs)
    by_cases hstep : op = .step
    · subst hstep
      exact hstuck _
        ((getsStuck_advance Board.keeps_step Board.step_eq_error_iff).bind fun _ => .pure _)
    by_cases htrace : ∃ count, op = .trace count
    · obtain ⟨count, rfl⟩ := htrace
      exact hstuck _ ((getsStuck_trace count).bind fun _ => .pure _)
    · exact (faultless_operate hop hstep (not_exists.1 htrace)).stuck

end Console

namespace Machine

open Console.Operation (Ordinary)

/-- A sound machine with nothing due. -/
abbrev Calm (m : Machine) : Prop := Host.Calm Console.WellFormed Ordinary m

variable {m n : Machine} {fault : Fault}

theorem calm_create {world : World} {random : RandomSource} {frequency timerFrequency : Number}
    {soundEnabled : Bool} (h : create world random frequency timerFrequency soundEnabled = .ok m) :
    m.Calm :=
  .of_upheld (Host.upToDate_create h) (sound_create h)

theorem calm_execute (hm : m.Calm) {c : Command Console.Operation} (hc : c.Every Ordinary) :
    Calm (finalState (Host.execute c m)) ∧
      ∀ {fault n}, Host.execute c m = .error (.fault fault) n → n.plant.board.Faults fault := by
  have hrests := Host.rests_execute Console.plantKeeps Console.plantStuck hc m hm
  cases hend : Host.execute c m with
  | ok reply n =>
    rw [hend] at hrests
    exact ⟨hrests, fun heq => nomatch heq⟩
  | error e n =>
    rw [hend] at hrests
    refine ⟨hrests.1, ?_⟩
    rintro fault _ ⟨⟩
    exact hrests.2 fault rfl

theorem calm_after (hm : m.Calm) {commands : List (Command Console.Operation)}
    (hcommands : Script.Every Ordinary commands) : (m.after commands).Calm := by
  induction commands generalizing m with
  | nil => exact hm
  | cons c cs ih =>
    obtain ⟨hc, hcs⟩ := hcommands
    exact ih (calm_execute hm hc).1 hcs

/-! ## In front of an instruction that fails -/

/-- When the processor is moved by hand or by the scheduler, the machine fails as its board does,
and is left as it was. -/
theorem onPlant_advance_eq_error_iff {move : Board → Execution}
    (hmove : ∀ {fault : Fault} {c : Board},
      move m.plant.board = .error fault c ↔ c = m.plant.board ∧ m.plant.board.Faults fault)
    {e : Failure} :
    (Host.onPlant (Console.advance move) : MachineM Unit) m = .error e n ↔
      n = m ∧ ∃ fault, e = .fault fault ∧ m.plant.board.Faults fault := by
  simp only [Host.onPlant, Console.advance]
  constructor
  · intro hend
    cases hboard : move m.plant.board with
    | ok remark board =>
      rw [hboard] at hend
      cases hend
    | error fault board =>
      obtain ⟨rfl, hfaults⟩ := hmove.1 hboard
      rw [hboard] at hend
      cases hend
      exact ⟨rfl, fault, rfl, hfaults⟩
  · rintro ⟨rfl, fault, rfl, hfaults⟩
    rw [hmove.2 ⟨rfl, hfaults⟩]

theorem onPlant_bind_pure {α β : Type} (x : PlantM Console α) (b : β) :
    (Host.onPlant (x >>= fun _ => pure b) : MachineM β) = Host.onPlant x >>= fun _ => pure b := by
  funext m
  simp only [Host.onPlant, run_bind]
  cases x (m.plant, m.world) <;> rfl

theorem execute_step_eq_error_iff (hm : m.plant.WellFormed) {e : Failure} :
    Host.execute (.operate .step) m = .error e n ↔
      n = m ∧ ∃ fault, e = .fault fault ∧ m.plant.board.Faults fault := by
  have hstep : Host.execute (.operate .step) m =
      (Host.onPlant (Console.advance Board.step) >>= fun _ => pure Reply.nothing) m :=
    congrFun (onPlant_bind_pure _ _) m
  rw [hstep, bind_pure_eq_error_iff]
  exact onPlant_advance_eq_error_iff (Board.step_eq_error_iff hm)

theorem cycle_eq_error_iff {run : Runner Console Console.Operation} (hrun : run [] = pure ())
    (hm : m.plant.WellFormed) {e : Failure} :
    Host.cycle run m = .error e n ↔ n = m ∧ ∃ fault, e = .fault fault ∧
      m.plant.board.Faults fault := by
  -- The console wants nothing done after a cycle.
  have hcycle : Host.cycle run m = (Host.onPlant Console.cycle >>= fun _ => pure ()) m := by
    show (Host.onPlant (Console.cycle >>= fun _ => pure []) >>= run) m = _
    rw [onPlant_bind_pure]
    simp only [run_bind]
    cases (Host.onPlant Console.cycle : MachineM Unit) m with
    | ok _ k => exact congrFun hrun k
    | error e k => rfl
  rw [hcycle, bind_pure_eq_error_iff]
  exact onPlant_advance_eq_error_iff (Board.cycle_eq_error_iff hm)

theorem cycle_of_faults {run : Runner Console Console.Operation} (hrun : run [] = pure ())
    (hm : m.plant.WellFormed) (hfaults : m.plant.board.Faults fault) :
    Host.cycle run m = .error (.fault fault) m :=
  (cycle_eq_error_iff hrun hm).2 ⟨rfl, fault, rfl, hfaults⟩

theorem execute_cycle_of_faults (hm : m.plant.WellFormed) (hfaults : m.plant.board.Faults fault)
    {count : Nat} (hcount : 0 < count) :
    Host.execute (.cycle count) m = .error (.fault fault) m := by
  obtain ⟨n, rfl⟩ := Nat.exists_eq_succ_of_ne_zero (Nat.ne_of_gt hcount)
  show ((Host.cycle _ >>= fun _ => _) >>= fun _ => pure Reply.nothing) m = _
  simp only [run_bind, cycle_of_faults (Host.runner_nil _) hm hfaults]

/-- A running machine in front of an instruction that fails does not get past it. -/
theorem tickTimes_of_faults {run : Runner Console Console.Operation} (hrun : run [] = pure ())
    (hm : m.plant.WellFormed) (hfaults : m.plant.board.Faults fault)
    (hrunning : m.status = .running) {n : Nat} (hn : 0 < n) :
    Host.tickTimes run n m = .error (.fault fault) m := by
  obtain ⟨k, rfl⟩ := Nat.exists_eq_succ_of_ne_zero (Nat.ne_of_gt hn)
  rw [Host.tickTimes_succ hrunning]
  simp only [Host.clockTick, Host.clockedCycle, run_bind, cycle_of_faults hrun hm hfaults]

theorem execute_tick (hm : m.Calm) (cycles : Int) :
    Host.execute (.tick cycles) m =
      (Host.tickTimes (Host.runner Host.nestingLimit) cycles.toNat >>= fun _ =>
        pure Reply.nothing) m :=
  Host.execute_tick_late hm.late cycles

theorem execute_tick_of_faults (hm : m.Calm) (hfaults : m.plant.board.Faults fault)
    (hrunning : m.status = .running) {cycles : Int} (hcycles : 0 < cycles) :
    Host.execute (.tick cycles) m = .error (.fault fault) m := by
  rw [execute_tick hm, run_bind,
    tickTimes_of_faults (Host.runner_nil _) hm.holds hfaults hrunning (by omega)]

/-- Running up to an instruction that fails, and no further. -/
theorem execute_tick_up_to (hm : m.Calm) {completed cycles : Int} (hlt : completed < cycles)
    (hcompleted : 0 ≤ completed) (htick : Host.execute (.tick completed) m = .ok .nothing n)
    (hrunning : n.status = .running) (hfaults : n.plant.board.Faults fault) :
    Host.execute (.tick cycles) m = .error (.fault fault) n := by
  have hcalm : n.Calm := by
    have hend := (calm_execute hm (c := .tick completed) trivial).1
    rwa [htick] at hend
  obtain ⟨i, rfl⟩ := Int.eq_ofNat_of_zero_le hcompleted
  obtain ⟨j, hj, hsum⟩ : ∃ j : Nat, 0 < j ∧ cycles.toNat = i + j :=
    ⟨cycles.toNat - i, by omega, by omega⟩
  rw [execute_tick hm, run_bind, Int.toNat_natCast] at htick
  have hrest := tickTimes_of_faults (Host.runner_nil Host.nestingLimit) hcalm.holds
    hfaults hrunning hj
  rw [execute_tick hm, hsum, bind_pure_eq_error_iff, Host.tickTimes_add, run_bind]
  cases hend : Host.tickTimes (Host.runner Host.nestingLimit) i m with
  | ok _ k =>
    rw [hend] at htick
    obtain rfl : k = n := by
      cases htick
      rfl
    exact hrest
  | error e k =>
    rw [hend] at htick
    cases htick

/-- When running fails, the instructions before the one that failed were completed. Either the
machine is left as they left it, in front of an instruction that fails, or the next instruction
ended well and an event failed that was carried out after it. -/
theorem exists_completed_of_execute_tick (hm : m.Calm) {cycles : Int} {e : Failure}
    (hend : Host.execute (.tick cycles) m = .error e n) :
    ∃ completed last, 0 ≤ completed ∧ completed < cycles ∧
      Host.execute (.tick completed) m = .ok .nothing last ∧ last.status = .running ∧
        (n = last ∧ (∃ fault, e = .fault fault ∧ last.plant.board.Faults fault) ∨
          ∃ next, Host.execute (.cycle 1) last = .ok .nothing next ∧
            Host.processEvents (Host.runner Host.nestingLimit)
              { next with clock := next.clock + 1 } = .error e n) := by
  rw [execute_tick hm, bind_pure_eq_error_iff] at hend
  obtain ⟨completed, hlt, last, hlast, hrunning, hrest⟩ := Host.exists_completed_of_tickTimes hend
  have htick : Host.execute (.tick completed) m = .ok .nothing last := by
    rw [execute_tick hm, run_bind, Int.toNat_natCast, hlast]
    rfl
  have hcalm : Calm last := by
    have hend := (calm_execute hm (c := .tick completed) trivial).1
    rwa [htick] at hend
  refine ⟨completed, last, by omega, by omega, htick, hrunning, ?_⟩
  rcases hrest with hcycle | ⟨next, hcycle, hevents⟩
  · exact Or.inl ((cycle_eq_error_iff (Host.runner_nil _) hcalm.holds).1 hcycle)
  · refine Or.inr ⟨next, ?_, hevents⟩
    show ((Host.cycle _ >>= fun _ => pure ()) >>= fun _ => pure Reply.nothing) last = _
    simp only [run_bind, hcycle]
    rfl

/-- A machine that is powered on with a program that is a single return. -/
theorem exists_powered_return :
    ∃ (m loaded : Machine) (reply : Reply) (n : Machine),
      create {} (.listed [] 0) (.integer 500) (.integer 60) true = .ok m ∧
      Host.execute (.operate (.load [0x00, 0xEE])) m = .ok reply loaded ∧
      Host.execute .powerOn loaded = .ok .nothing n ∧
      Calm n ∧ n.plant.board.Faults (.stackEmpty 0x200) ∧ n.status = .running := by
  obtain ⟨m, hcreate, hfrequency⟩ : ∃ m : Machine,
      create {} (.listed [] 0) (.integer 500) (.integer 60) true = .ok m ∧
        m.frequency = .integer 500 :=
    ⟨_, Host.create_eq _ _ (by decide) (by decide) _, rfl⟩
  obtain ⟨loaded, reply, hload, hmemory, hloaded⟩ : ∃ (k : Machine) (reply : Reply),
      Host.execute (.operate (.load [0x00, 0xEE])) m = .ok reply k ∧
        k.plant.board.memory = m.plant.board.memory.writeAll 0x200 [0x00, 0xEE] ∧
        k.frequency = m.frequency := ⟨_, _, rfl, rfl, rfl⟩
  obtain ⟨n, hon, hplant, hrunning⟩ : ∃ n,
      Host.execute .powerOn loaded = .ok .nothing n ∧ n.plant = loaded.plant.reset ∧
        n.status = .running :=
    ⟨_, execute_powerOn (f := 500) (by decide) (hloaded.trans hfrequency), rfl, rfl⟩
  have hopcode : n.plant.board.opcode = 0x00EE := by
    rw [hplant]
    show loaded.plant.board.memory.opcodeAt 0x200 = 0x00EE
    rw [hmemory]
    simp [Memory.opcodeAt, Memory.writeAll, Memory.read_write]
  have hcalm : Calm n := by
    have hcommands : Script.Every Ordinary [.operate (.load [0x00, 0xEE]), .powerOn] :=
      ⟨trivial, trivial, trivial⟩
    simpa only [after, runAll, hload, finalState, hon] using calm_after
      (calm_create hcreate) hcommands
  refine ⟨m, loaded, reply, n, hcreate, hload, hon, hcalm, ⟨?_, Or.inl ⟨hopcode, ?_, ?_⟩⟩,
    hrunning⟩ <;>
    rw [hplant] <;> rfl

/-- **Only the return stack makes a program fail, and it fails in place.** Take a new machine, tell
it whatever does not set registers by hand, and look at it then.

A step fails if and only if the processor does not wait for a key and finds a return with an empty
return stack or a call with a full one, and it changes nothing of the machine. In front of such an
instruction, a counted cycle fails in the same way, and so do ticks of any number if the machine
runs. Ticks that come to such an instruction leave the machine as the instructions before it did,
and fail. Conversely, when ticks fail, the instructions before were completed, and what failed is
the next one or an event after it. And whatever command failed with a fault, the machine it leaves
fails with the same fault when it is told to run, and stays the same. -/
theorem faults_atomic {world : World} {random : RandomSource} {frequency timerFrequency : Number}
    {soundEnabled : Bool}
    (hcreate : create world random frequency timerFrequency soundEnabled = .ok m)
    {commands : List (Command Console.Operation)} (hcommands : Script.Every Ordinary commands) :
    let n := m.after commands
    (∀ e k, Host.execute (.operate .step) n = .error e k ↔
      k = n ∧ ∃ fault, e = .fault fault ∧ n.plant.board.Faults fault) ∧
    (∀ fault, n.plant.board.Faults fault →
      (∀ count, 0 < count → Host.execute (.cycle count) n = .error (.fault fault) n) ∧
      (n.status = .running → ∀ cycles, 0 < cycles →
        Host.execute (.tick cycles) n = .error (.fault fault) n)) ∧
    (∀ completed cycles last fault, 0 ≤ completed → completed < cycles →
      Host.execute (.tick completed) n = .ok .nothing last → last.status = .running →
      last.plant.board.Faults fault → Host.execute (.tick cycles) n = .error (.fault fault) last) ∧
    (∀ cycles e k, Host.execute (.tick cycles) n = .error e k →
      ∃ completed last, 0 ≤ completed ∧ completed < cycles ∧
        Host.execute (.tick completed) n = .ok .nothing last ∧ last.status = .running ∧
          (k = last ∧ (∃ fault, e = .fault fault ∧ last.plant.board.Faults fault) ∨
            ∃ next, Host.execute (.cycle 1) last = .ok .nothing next ∧
              Host.processEvents (Host.runner Host.nestingLimit)
                { next with clock := next.clock + 1 } = .error e k)) ∧
    (∀ c, c.Every Ordinary → ∀ fault k, Host.execute c n = .error (.fault fault) k →
      k.plant.board.Faults fault ∧
        (k.status = .running → ∀ cycles, 0 < cycles →
          Host.execute (.tick cycles) k = .error (.fault fault) k)) := by
  intro n
  have hn : n.Calm := calm_after (calm_create hcreate) hcommands
  refine ⟨fun _ _ => execute_step_eq_error_iff hn.holds, ?_, ?_, ?_, ?_⟩
  · intro fault hfaults
    exact ⟨fun _ => execute_cycle_of_faults hn.holds hfaults,
      fun hrunning _ => execute_tick_of_faults hn hfaults hrunning⟩
  · intro completed cycles last fault hcompleted hlt htick hrunning hfaults
    exact execute_tick_up_to hn hlt hcompleted htick hrunning hfaults
  · intro cycles e k hend
    exact exists_completed_of_execute_tick hn hend
  · intro c hc fault k hend
    obtain ⟨hcalm, hfaults⟩ := calm_execute hn hc
    rw [hend] at hcalm
    have hk := hfaults hend
    exact ⟨hk, fun hrunning _ => execute_tick_of_faults hcalm hk hrunning⟩

/-- A program that is a single return fails at once, and again when it is told to go on. -/
theorem faults_atomic_return :
    ∃ m, create {} (.listed [] 0) (.integer 500) (.integer 60) true = .ok m ∧
      let n := m.after [.operate (.load [0x00, 0xEE]), .powerOn]
      Host.execute (.tick 7) n = .error (.fault (.stackEmpty 0x200)) n := by
  obtain ⟨m, loaded, reply, n, hcreate, hload, hon, -, hboard, hrunning⟩ := exists_powered_return
  have hn : m.after [.operate (.load [0x00, 0xEE]), .powerOn] = n := by
    simp only [after, runAll, hload, finalState, hon]
  have hcommands : Script.Every Ordinary [.operate (.load [0x00, 0xEE]), .powerOn] :=
    ⟨trivial, trivial, trivial⟩
  obtain ⟨-, hfails, -⟩ := faults_atomic hcreate hcommands
  refine ⟨m, hcreate, ?_⟩
  rw [hn] at hfails ⊢
  exact (hfails _ hboard).2 hrunning 7 (by decide)

end Machine

end Chip8
