import Chip8.Proofs.Renumbering

/-!
# Two plants side by side

A host deals with its plant only by the plant's own operations. So if two plants answer alike and
stay related whatever is asked of them, then hosts around them do the same, command by command, with
all the events, listeners and scripts that a command may set going.

Scripts are run by a parameter of every operation, and the two hosts may run them in different ways,
as long as these agree as well.

A plant can be made part of another one that keeps something besides it, and lets it do whatever it
is told. As long as what is kept besides has no part in that, nothing of it is seen from outside.

## Main definitions

* `Plant.Simulates`: two plants answer alike under operations of a kind, and stay related
* `Part`, `Part.lift`: a state within a larger one, and what is done there
* `Host.Related`: two hosts are the same apart from their plants, which are related

## Main statements

* `Part.simulates`: a plant does the same within another one
* `Host.alike_carryOut`: a command does the same on related hosts
* `Host.alike_execute`: so does a command from outside
-/

namespace Chip8

variable {σ τ Op : Type}

/-- Two plants answer alike under operations of a kind, and stay related in their worlds. -/
abbrev Plant.Simulates [Plant σ Op] [Plant τ Op] (S : σ × World → τ × World → Prop)
    (p : Op → Prop) : Prop :=
  Plant.Parallel 0 S p

/-! ## A plant within another -/

/-- A part of a state: it can be read off, and another one can be put in its place. -/
structure Part (τ σ : Type) where
  get : τ → σ
  set : τ → σ → τ
  get_set : ∀ t s, get (set t s) = s
  set_set : ∀ t s s', set (set t s) s' = set t s'

namespace Part

variable {α β : Type} (part : Part τ σ)

/-- What is done to the part, and to nothing else. -/
def lift (m : PlantM σ α) : PlantM τ α := fun (t, w) =>
  match m (part.get t, w) with
  | .ok a (s, w) => .ok a (part.set t s, w)
  | .error e (s, w) => .error e (part.set t s, w)

theorem lift_bind (x : PlantM σ α) (f : α → PlantM σ β) :
    part.lift (x >>= f) = part.lift x >>= fun a => part.lift (f a) := by
  funext ⟨t, w⟩
  simp only [lift, run_bind]
  cases x (part.get t, w) with
  | ok a u =>
    simp only [part.get_set]
    cases f a u <;> simp only [part.set_set]
  | error e u => rfl

/-- The one is the part of the other, in the same world. -/
def Same (s : τ × World) (t : σ × World) : Prop := t = (part.get s.1, s.2)

theorem same_set (s : τ) (t : σ) (w : World) : part.Same (part.set s t, w) (t, w) := by
  rw [Same, part.get_set]

theorem matches_lift (m : PlantM σ α) : Matches part.Same (part.lift m) m := by
  rintro ⟨s, w⟩ _ rfl
  simp only [lift]
  cases m (part.get s, w) with
  | ok a t => exact ⟨rfl, part.same_set s t.1 t.2⟩
  | error e t => exact ⟨rfl, part.same_set s t.1 t.2⟩

/-- What is changed besides the part is not seen from it. -/
theorem matches_modify_bind {f : τ → τ} (hf : ∀ s, part.get (f s) = part.get s) {m : PlantM τ α}
    {m' : PlantM σ α} (hm : Matches part.Same m m') :
    Matches part.Same (modify (fun s => (f s.1, s.2)) >>= fun _ => m) m' := by
  rintro ⟨s, w⟩ _ rfl
  refine hm (f s, w) _ ?_
  rw [Same, hf]

/-- **A plant does the same within another one**, if all that this one does comes down to what it
does. -/
theorem simulates [Plant τ Op] [Plant σ Op]
    (hcycle : Matches part.Same (Plant.cycle : PlantM τ (Script Op))
      (Plant.cycle : PlantM σ (Script Op)))
    (hupdate : ∀ clock, Matches part.Same (Plant.updateTimers clock : PlantM τ (TimerResult Op))
      (Plant.updateTimers clock : PlantM σ (TimerResult Op)))
    (hreset : Matches part.Same (Plant.reset : PlantM τ Unit) (Plant.reset : PlantM σ Unit))
    (hoperate : ∀ op : Op, Matches part.Same (Plant.operate op : PlantM τ Reply)
      (Plant.operate op : PlantM σ Reply)) :
    Plant.Simulates part.Same (fun _ : Op => True) where
  now := by
    rintro s _ rfl
    exact (Int.add_zero _).symm
  record := by
    rintro s _ rfl e
    rfl
  pass := by
    rintro s _ rfl nanoseconds
    rfl
  cycle := hcycle
  cycleScript _ script _ _ := Script.every_of_forall (fun _ => trivial) script
  updateTimers := hupdate
  timersScript _ _ result _ _ := Script.every_of_forall (fun _ => trivial) result.script
  reset := hreset
  operate op _ := hoperate op

end Part

namespace Host

/-- Two hosts are the same apart from their plants, which are related in their worlds. Whatever
waits in the queue or with a listener tells the plant only operations of a kind. -/
structure Related (S : σ × World → τ × World → Prop) (p : Op → Prop) (h : Host σ Op)
    (k : Host τ Op) : Prop where
  plant : S (h.plant, h.world) (k.plant, k.world)
  status : k.status = h.status
  clock : k.clock = h.clock
  frequency : k.frequency = h.frequency
  timerFrequency : k.timerFrequency = h.timerFrequency
  maxCatchUp : k.maxCatchUp = h.maxCatchUp
  anchor : k.anchor = h.anchor
  queue : k.queue = h.queue
  scheduled : k.scheduled = h.scheduled
  interval : k.interval = h.interval
  chainActive : k.chainActive = h.chainActive
  chain : k.chain = h.chain
  listeners : k.listeners = h.listeners
  known : k.known = h.known
  queued : ∀ e ∈ h.queue.events, e.payload.Every p
  told : ∀ l ∈ h.listeners, Script.Every p l.script
  named : ∀ l ∈ h.known, Script.Every p l.script

variable {S : σ × World → τ × World → Prop} {p : Op → Prop} {α : Type}

/-- Two operations of hosts do the same. -/
abbrev Alike (S : σ × World → τ × World → Prop) (p : Op → Prop) (m : HostM σ Op α)
    (m' : HostM τ Op α) : Prop :=
  Matches (Related S p) m m'

/-- There is a host around the one plant if there is one around the other, and they are related if
the plants are. -/
theorem related_create {plant : σ} {plant' : τ} {world : World} {frequency timerFrequency : Number}
    {maxCatchUp : Int} {h : Host σ Op} (hplant : S (plant, world) (plant', world))
    (hcreate : create plant world frequency timerFrequency maxCatchUp = .ok h) :
    ∃ k : Host τ Op, create plant' world frequency timerFrequency maxCatchUp = .ok k ∧
      Related S p h k := by
  obtain ⟨hpositive, interval, anchor, hinterval, hanchor, rfl⟩ := create_eq_ok_iff.1 hcreate
  refine ⟨_, create_eq_ok_iff.2 ⟨hpositive, interval, anchor, hinterval, hanchor, rfl⟩, ?_⟩
  exact {
    plant := hplant
    status := rfl
    clock := rfl
    frequency := rfl
    timerFrequency := rfl
    maxCatchUp := rfl
    anchor := rfl
    queue := rfl
    scheduled := rfl
    interval := rfl
    chainActive := rfl
    chain := rfl
    listeners := rfl
    known := rfl
    queued := fun _ he => nomatch he
    told := fun _ hl => nomatch hl
    named := fun _ hl => nomatch hl }

/-! ## Without a shift -/

/-- Related hosts are hosts that are not shifted against each other. -/
theorem shifted_zero_iff {h : Host σ Op} {k : Host τ Op} :
    Shifted S p {} h k ↔ Related S p h k := by
  constructor
  · intro hr
    exact { hr with
      anchor := hr.anchor.trans (Int.add_zero _)
      queue := hr.queue.trans h.queue.shift_zero }
  · intro hr
    exact { hr with
      anchor := hr.anchor.trans (Int.add_zero _).symm
      queue := hr.queue.trans h.queue.shift_zero.symm }

theorem alongside_zero_iff {m : HostM σ Op α} {m' : HostM τ Op α} :
    Alongside S p {} m m' ↔ Alike S p m m' := by
  simp only [Matches, Agree, shifted_zero_iff]

theorem agree_onPlant {m : PlantM σ α} {m' : PlantM τ α} {h : Host σ Op} {k : Host τ Op}
    (hr : Related S p h k) (hend : Agree S (m (h.plant, h.world)) (m' (k.plant, k.world))) :
    Agree (Related S p) (onPlant m h) (onPlant m' k) := by
  have hshifted := agree_shifted_onPlant (shifted_zero_iff.2 hr) hend
  exact ⟨hshifted.1, shifted_zero_iff.1 hshifted.2⟩

variable [Plant σ Op] [Plant τ Op] (hsim : Plant.Simulates (σ := σ) (τ := τ) S p)

include hsim

/-- **One command**: given ways to run scripts that do the same, a command does the same on related
hosts. -/
theorem alike_carryOut {run : Runner σ Op} {run' : Runner τ Op}
    (hrun : ∀ script, Script.Every p script → Alike S p (run script) (run' script)) {c : Command Op}
    (hc : c.Every p) : Alike S p (carryOut run c) (carryOut run' c) :=
  alongside_zero_iff.1 (alongside_carryOut hsim
    (fun script hscript => alongside_zero_iff.2 (hrun script hscript)) hc)

theorem alike_runner (depth : Nat) (script : Script Op) (hscript : Script.Every p script) :
    Alike S p (runner depth script : HostM σ Op Unit) (runner depth script) :=
  alongside_zero_iff.1 (alongside_runner hsim depth script hscript)

/-- **A command from outside** does the same on related hosts. -/
theorem alike_execute {c : Command Op} (hc : c.Every p) :
    Alike S p (execute c : HostM σ Op Reply) (execute c) :=
  alongside_zero_iff.1 (alongside_execute hsim hc)

end Host

end Chip8
