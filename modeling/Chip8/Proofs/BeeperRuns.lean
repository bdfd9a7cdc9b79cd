import Chip8.Proofs.Beeps

/-!
# The beeper in a failing world

To set up the sound takes a toolkit, a mixer that can be started, a tone that the settings allow,
and a sound that the toolkit prepares from it, and each of them can fail at any time. Whatever fails
becomes a record for the log and not a failure of the beep. A beeper that counts as initialized has
a sound, for both are set at once and given up at once. And a beeper that has given up is disabled,
so it tries nothing until it is enabled again.

## Main definitions

* `Beeper.Happening`: what is done to a beeper, and what changes around it
* `Beeper.obstacle`: why the sound cannot be set up
* `Beeper.GaveUp`: the last thing that happened is that sound was given up

## Main statements

* `Beeper.obstacle_eq_none_iff`: what it takes to set up the sound
* `Beeper.prepare_of_obstacle`, `Beeper.prepare_of_no_obstacle`: what an attempt comes to
* `Beeper.never_plays_nothing`: what holds in every run
-/

namespace Chip8.Beeper

/-! ## Happenings -/

/-- Something that is done to a beeper, or that changes around it. -/
inductive Happening where
  | beep
  | reset
  | prepare
  /-- Sound is enabled or disabled from outside. -/
  | enable (on : Bool)
  /-- There is another toolkit now, or none. -/
  | equip (toolkit : Option Toolkit)
  /-- Playing the sound that is prepared fails from now on, or works. -/
  | mute (on : Bool)
  deriving DecidableEq

/-- A beeper and its world after something happened. -/
def after (s : Beeper × World) : Happening → Beeper × World
  | .beep => s.1.beep s.2
  | .reset => (s.1.reset, s.2)
  | .prepare => s.1.prepare s.2
  | .enable on => ({ s.1 with enabled := on }, s.2)
  | .equip toolkit => (s.1, { s.2 with toolkit })
  | .mute on => ({ s.1 with sound := s.1.sound.map fun _ => ⟨on⟩ }, s.2)

/-- A beeper and its world after a run. -/
def run (happenings : List Happening) (s : Beeper × World) : Beeper × World :=
  happenings.foldl after s

/-- A beeper with its settings, before anything happened. -/
def create (sampleRate frequency duration volume : Number) (enabled : Bool) : Beeper :=
  { sampleRate, frequency, duration, volume, enabled }

/-- The count of beeps after something happened. -/
def Happening.count (beeps : Nat) : Happening → Nat
  | .beep => beeps + 1
  | .reset => 0
  | _ => beeps

/-! ## Attempts -/

/-- Why the sound cannot be set up, if it cannot. -/
def obstacle (b : Beeper) (w : World) : Option Failure :=
  match b.startMixer w with
  | .error cause => some cause
  | .ok w =>
    match b.prepareSound w with
    | .error cause => some cause
    | .ok _ => none

/-- The last thing that happened is that sound was given up: it is disabled, and nothing of it is
left. -/
structure GaveUp (cause : Failure) (s : Beeper × World) : Prop where
  disabled : s.1.enabled = false
  uninitialized : s.1.initialized = false
  soundless : s.1.sound = none
  noticed : s.2.journal.back? = some (.notice (.soundDisabled cause))

/-- All that was added to the journal are calls. -/
def OnlyCalls (w v : World) : Prop :=
  ∃ calls : List Call, v.journal.toList = w.journal.toList ++ calls.map Entry.call

variable {b : Beeper} {w v : World} {cause : Failure}

theorem OnlyCalls.refl (w : World) : OnlyCalls w w := ⟨[], by simp⟩

theorem OnlyCalls.trans {u : World} (h : OnlyCalls w v) (h' : OnlyCalls v u) : OnlyCalls w u := by
  obtain ⟨calls, hcalls⟩ := h
  obtain ⟨calls', hcalls'⟩ := h'
  exact ⟨calls ++ calls', by rw [hcalls', hcalls, List.map_append, List.append_assoc]⟩

theorem OnlyCalls.mem_of_notice (h : OnlyCalls w v) {n : Notice} (hn : Entry.notice n ∈ v.journal) :
    Entry.notice n ∈ w.journal := by
  obtain ⟨calls, hcalls⟩ := h
  rw [← Array.mem_toList_iff, hcalls] at hn
  simpa using hn

theorem OnlyCalls.of_record (w : World) (c : Call) : OnlyCalls w (w.record (.call c)) :=
  ⟨[c], by simp [World.record]⟩

/-- The world after the mixer was started. -/
def mixing (b : Beeper) (t : Toolkit) (w : World) : World :=
  if t.mixerReady then w
  else { w.record (.call (.mixerInit b.sampleRate))
    with toolkit := some { t with mixerReady := true } }

section

variable {t : Toolkit} (htoolkit : w.toolkit = some t)

include htoolkit

/-- A call fails if the toolkit refuses it. -/
theorem call_eq (c : Call) :
    w.call c = if t.refuses c then .error (.callFailed c.name) else .ok (w.record (.call c)) := by
  rw [World.call, World.refusal, htoolkit]
  cases hrefuses : t.refuses c with
  | true => simp [hrefuses]
  | false => simp [hrefuses]

theorem startMixer_eq :
    b.startMixer w = if t.mixerReady = false ∧ t.refuses (.mixerInit b.sampleRate) = true then
      .error (.callFailed (Call.mixerInit b.sampleRate).name) else .ok (b.mixing t w) := by
  simp only [startMixer, htoolkit, mixing, call_eq htoolkit]
  cases t.mixerReady with
  | true => rfl
  | false =>
    cases t.refuses (.mixerInit b.sampleRate) with
    | true => rfl
    | false => rfl

theorem prepareSound_eq :
    b.prepareSound w = b.tone.bind fun samples =>
      if t.refuses (.mixerSound samples) then .error (.callFailed (Call.mixerSound samples).name)
      else .ok (⟨t.refuses .play⟩, w.record (.call (.mixerSound samples))) := by
  rw [prepareSound]
  cases b.tone with
  | error e => rfl
  | ok samples =>
    simp only [bind, Except.bind, call_eq htoolkit]
    cases t.refuses (.mixerSound samples) with
    | true => rfl
    | false => simp [World.record, htoolkit, pure, Except.pure]

theorem mixing_toolkit : ∃ t', (b.mixing t w).toolkit = some t' ∧ t'.refuses = t.refuses := by
  rw [mixing]
  split
  · exact ⟨t, htoolkit, rfl⟩
  · exact ⟨_, rfl, rfl⟩

end

theorem onlyCalls_mixing (b : Beeper) (t : Toolkit) (w : World) : OnlyCalls w (b.mixing t w) := by
  rw [mixing]
  split
  · exact .refl w
  · exact .of_record w _

/-- To set up the sound takes a toolkit whose mixer runs or can be started, a tone, and that the
toolkit prepares it. -/
theorem obstacle_eq_none_iff :
    b.obstacle w = none ↔ ∃ t samples, w.toolkit = some t ∧
      (t.mixerReady = true ∨ t.refuses (.mixerInit b.sampleRate) = false) ∧ b.tone = .ok samples ∧
        t.refuses (.mixerSound samples) = false := by
  cases htoolkit : w.toolkit with
  | none => simp [obstacle, startMixer, htoolkit]
  | some t =>
    obtain ⟨t', htoolkit', hrefuses⟩ := mixing_toolkit (b := b) htoolkit
    rw [obstacle, startMixer_eq htoolkit]
    by_cases hinit : t.mixerReady = false ∧ t.refuses (.mixerInit b.sampleRate) = true
    · rw [if_pos hinit]
      simp [hinit]
    · rw [if_neg hinit]
      have hinit' : t.mixerReady = true ∨ t.refuses (.mixerInit b.sampleRate) = false := by
        rw [not_and_or] at hinit
        simpa using hinit
      simp only [prepareSound_eq htoolkit', hrefuses]
      cases b.tone with
      | error e => simp [Except.bind]
      | ok samples =>
        cases hsound : t.refuses (.mixerSound samples) with
        | true => simp [Except.bind, hsound]
        | false => simp [Except.bind, hsound, hinit']

/-- To start the mixer takes calls only. -/
theorem onlyCalls_of_startMixer (h : b.startMixer w = .ok v) :
    OnlyCalls w v ∧ ∃ t, v.toolkit = some t := by
  cases htoolkit : w.toolkit with
  | none => simp [startMixer, htoolkit] at h
  | some t =>
    rw [startMixer_eq htoolkit] at h
    split at h
    · cases h
    · cases h
      obtain ⟨t', htoolkit', -⟩ := mixing_toolkit (b := b) htoolkit
      exact ⟨onlyCalls_mixing b t w, t', htoolkit'⟩

/-- So does preparing the sound. -/
theorem onlyCalls_of_prepareSound {t : Toolkit} (htoolkit : w.toolkit = some t) {sound : Sound}
    (h : b.prepareSound w = .ok (sound, v)) : OnlyCalls w v := by
  rw [prepareSound_eq htoolkit] at h
  cases htone : b.tone with
  | error e =>
    rw [htone] at h
    cases h
  | ok samples =>
    simp only [htone, Except.bind] at h
    split at h
    · cases h
    · cases h
      exact .of_record w _

/-- Nothing is tried if sound is disabled, or set up already. -/
theorem prepare_of_settled (h : b.enabled = false ∨ b.initialized = true) :
    b.prepare w = (b, w) := by
  have hsettled : (!b.enabled || b.initialized) = true := by simpa using h
  rw [prepare, if_pos hsettled]

section

variable (henabled : b.enabled = true) (huninitialized : b.initialized = false)

include henabled huninitialized

/-- An attempt with an obstacle in its way gives up. -/
theorem prepare_of_obstacle (h : b.obstacle w = some cause) :
    ∃ v, b.prepare w = b.giveUp v cause ∧ OnlyCalls w v := by
  rw [obstacle] at h
  rw [prepare, henabled, huninitialized]
  cases hstart : b.startMixer w with
  | error e =>
    rw [hstart] at h
    cases h
    exact ⟨w, rfl, .refl w⟩
  | ok v =>
    simp only [hstart] at h
    cases hsound : b.prepareSound v with
    | error e =>
      rw [hsound] at h
      cases h
      exact ⟨v, by simp [hsound], (onlyCalls_of_startMixer hstart).1⟩
    | ok prepared =>
      rw [hsound] at h
      cases h

/-- Without one, the beeper is initialized and has a sound. -/
theorem prepare_of_no_obstacle (h : b.obstacle w = none) :
    ∃ sound v, b.prepare w = ({ b with initialized := true, sound := some sound }, v) ∧
      OnlyCalls w v := by
  rw [obstacle] at h
  rw [prepare, henabled, huninitialized]
  cases hstart : b.startMixer w with
  | error e =>
    rw [hstart] at h
    cases h
  | ok v =>
    simp only [hstart] at h
    cases hsound : b.prepareSound v with
    | error e =>
      rw [hsound] at h
      cases h
    | ok prepared =>
      obtain ⟨hcalls, t, htoolkit⟩ := onlyCalls_of_startMixer hstart
      exact ⟨prepared.1, prepared.2, by simp [hsound],
        hcalls.trans (onlyCalls_of_prepareSound htoolkit hsound)⟩

end

/-! ## Playing -/

/-- With a sound, playing it is a call that works or a record of the call that failed. -/
theorem play_cases (h : b.sound.isSome = true) (w : World) :
    b.play w = w.record (.call .play) ∨
      b.play w = w.record (.notice (.playbackFailed (.callFailed Call.play.name))) := by
  obtain ⟨sound, hsound⟩ := Option.isSome_iff_exists.1 h
  rw [play, playSound, hsound]
  cases hmute : sound.mute with
  | true => exact Or.inr (by simp [hmute])
  | false => exact Or.inl (by simp [hmute])

theorem fst_beep : (b.beep w).1 = (Beeper.prepare { b with beeps := b.beeps + 1 } w).1 := by
  simp only [beep]
  split
  · rfl
  · rfl

/-! ## Runs -/

/-- A beeper that counts as initialized has a sound, and no record since `past` tells of playing
none. -/
structure Sane (past : World) (s : Beeper × World) : Prop where
  sound : s.1.initialized = true → s.1.sound.isSome = true
  played : ∀ cause, Entry.notice (.playbackFailed cause) ∈ s.2.journal →
    Entry.notice (.playbackFailed cause) ∈ past.journal ∨ cause = .callFailed Call.play.name

section

variable {past : World} {s : Beeper × World}

theorem Sane.onlyCalls (h : Sane past s) (hv : OnlyCalls s.2 v) : Sane past (s.1, v) where
  sound := h.sound
  played cause hcause := h.played cause (hv.mem_of_notice hcause)

/-- A record that tells of playing tells of a call that failed. -/
theorem Sane.record (h : Sane past s) {entry : Entry}
    (hentry : ∀ cause, entry = .notice (.playbackFailed cause) →
      cause = .callFailed Call.play.name) :
    Sane past (s.1, s.2.record entry) where
  sound := h.sound
  played cause hcause := by
    simp only [World.record, Array.mem_push] at hcause
    exact hcause.elim (h.played cause) fun heq => Or.inr (hentry cause heq.symm)

theorem Sane.prepare (h : Sane past s) : Sane past (s.1.prepare s.2) := by
  by_cases hsettled : s.1.enabled = false ∨ s.1.initialized = true
  · rwa [prepare_of_settled hsettled]
  · obtain ⟨henabled, huninitialized⟩ : s.1.enabled = true ∧
      s.1.initialized = false := by simpa using hsettled
    cases hobstacle : s.1.obstacle s.2 with
    | some cause =>
      obtain ⟨v, hprepare, hv⟩ := prepare_of_obstacle henabled huninitialized hobstacle
      rw [hprepare]
      have hnoticed : Sane past (s.1, v.record (.notice (.soundDisabled cause))) :=
        (h.onlyCalls hv).record fun _ => nofun
      exact ⟨nofun, hnoticed.played⟩
    | none =>
      obtain ⟨sound, v, hprepare, hv⟩ := prepare_of_no_obstacle henabled huninitialized hobstacle
      rw [hprepare]
      exact ⟨fun _ => rfl, (h.onlyCalls hv).played⟩

/-- What happens keeps a beeper sane. -/
theorem Sane.after (h : Sane past s) (happening : Happening) : Sane past (after s happening) := by
  cases happening with
  | beep =>
    have hcounted : Sane past ({ s.1 with beeps := s.1.beeps + 1 }, s.2) := ⟨h.sound, h.played⟩
    have hprepared := hcounted.prepare
    simp only [Beeper.after, beep]
    split
    next hready =>
      obtain hplay | hplay := play_cases (hprepared.sound (Bool.and_eq_true_iff.1 hready).2)
          (Beeper.prepare { s.1 with beeps := s.1.beeps + 1 } s.2).2
      · rw [hplay]
        refine hprepared.record fun cause hcause => ?_
        cases hcause
      · rw [hplay]
        refine hprepared.record fun cause hcause => ?_
        cases hcause
        rfl
    next => exact hprepared
  | reset => exact ⟨h.sound, h.played⟩
  | prepare => exact h.prepare
  | enable on => exact ⟨h.sound, h.played⟩
  | equip toolkit => exact ⟨h.sound, h.played⟩
  | mute on =>
    exact ⟨fun hinitialized => by simpa [Beeper.after] using h.sound hinitialized, h.played⟩

theorem Sane.run (h : Sane past s) (happenings : List Happening) :
    Sane past (run happenings s) := by
  induction happenings generalizing s with
  | nil => exact h
  | cons happening happenings ih => exact ih (h.after happening)

theorem sane_create (sampleRate frequency duration volume : Number) (enabled : Bool) (w : World) :
    Sane w (create sampleRate frequency duration volume enabled, w) where
  sound := nofun
  played _ := Or.inl

/-- Every beep is counted, and nothing else. -/
theorem beeps_after (s : Beeper × World) (happening : Happening) :
    (after s happening).1.beeps = happening.count s.1.beeps := by
  cases happening with
  | beep => exact beeps_beep s.1 s.2
  | prepare => exact beeps_prepare s.1 s.2
  | reset | enable | equip | mute => rfl

theorem beeps_run (happenings : List Happening) (s : Beeper × World) :
    (run happenings s).1.beeps = happenings.foldl Happening.count s.1.beeps := by
  induction happenings generalizing s with
  | nil => rfl
  | cons happening happenings ih =>
    rw [run, List.foldl_cons, List.foldl_cons, ← run, ih, beeps_after]

/-- Having given up, a beeper stays that way until it is enabled again, and does nothing that could
be noticed. -/
theorem GaveUp.after (h : GaveUp cause s) {happening : Happening}
    (hkeep : happening ≠ .enable true) :
    GaveUp cause (after s happening) ∧ (after s happening).2.journal = s.2.journal := by
  cases happening with
  | beep =>
    rw [Beeper.after, Console.beep_silent h.disabled]
    exact ⟨⟨h.disabled, h.uninitialized, h.soundless, h.noticed⟩, rfl⟩
  | prepare =>
    rw [Beeper.after, prepare_of_settled (Or.inl h.disabled)]
    exact ⟨h, rfl⟩
  | enable on =>
    cases on with
    | true => exact absurd rfl hkeep
    | false => exact ⟨⟨rfl, h.uninitialized, h.soundless, h.noticed⟩, rfl⟩
  | mute on =>
    exact ⟨⟨h.disabled, h.uninitialized, by simp [Beeper.after, h.soundless], h.noticed⟩, rfl⟩
  | reset | equip => exact ⟨⟨h.disabled, h.uninitialized, h.soundless, h.noticed⟩, rfl⟩

theorem GaveUp.run (h : GaveUp cause s) {happenings : List Happening}
    (hkeep : .enable true ∉ happenings) :
    GaveUp cause (run happenings s) ∧ (run happenings s).2.journal = s.2.journal := by
  induction happenings generalizing s with
  | nil => exact ⟨h, rfl⟩
  | cons happening happenings ih =>
    rw [List.mem_cons, not_or] at hkeep
    obtain ⟨hne, hkeep⟩ := hkeep
    obtain ⟨hafter, hjournal⟩ := h.after (Ne.symm hne)
    obtain ⟨hrun, hjournal'⟩ := ih hafter hkeep
    exact ⟨hrun, hjournal'.trans hjournal⟩

section

variable (henabled : s.1.enabled = true) (huninitialized : s.1.initialized = false)

include henabled huninitialized

/-- To beep is an attempt to set up the sound, too. Either gives up if there is an obstacle. -/
theorem gaveUp_of_obstacle (h : s.1.obstacle s.2 = some cause) :
    ∀ attempt ∈ [Happening.beep, .prepare], GaveUp cause (Beeper.after s attempt) := by
  have hgaveUp (b : Beeper) (v : World) : GaveUp cause (b.giveUp v cause) :=
    ⟨rfl, rfl, rfl, by simp [giveUp, World.record]⟩
  refine List.forall_mem_cons.2 ⟨?_, List.forall_mem_singleton.2 ?_⟩
  · obtain ⟨v, hprepare, -⟩ :=
      prepare_of_obstacle (b := { s.1 with beeps := s.1.beeps + 1 }) henabled huninitialized h
    simp only [Beeper.after, beep, hprepare]
    exact hgaveUp _ v
  · obtain ⟨v, hprepare, -⟩ := prepare_of_obstacle henabled huninitialized h
    rw [Beeper.after, hprepare]
    exact hgaveUp _ v

/-- If there is none, the sound is there afterwards. -/
theorem ready_of_no_obstacle (h : s.1.obstacle s.2 = none) :
    ∀ attempt ∈ [Happening.beep, .prepare], (Beeper.after s attempt).1.ready = true := by
  refine List.forall_mem_cons.2 ⟨?_, List.forall_mem_singleton.2 ?_⟩
  · obtain ⟨sound, v, hprepare, -⟩ :=
      prepare_of_no_obstacle (b := { s.1 with beeps := s.1.beeps + 1 }) henabled huninitialized h
    rw [Beeper.after, fst_beep.trans (congrArg Prod.fst hprepare)]
    simp [ready, henabled]
  · obtain ⟨sound, v, hprepare, -⟩ := prepare_of_no_obstacle henabled huninitialized h
    rw [Beeper.after, hprepare]
    simp [ready, henabled]

end

end

/-- **The beeper never plays a sound that is missing, and never asks twice.** Whatever its settings
are, and whatever happens: each beep is counted once; a beeper that counts as initialized has a
sound, and what can fail in playing is the call alone; and an attempt to set up the sound that finds
an obstacle gives up, with a record of the obstacle, and from then on nothing is called and nothing
is recorded until sound is enabled again. -/
theorem never_plays_nothing (sampleRate frequency duration volume : Number) (enabled : Bool)
    (w : World) (happenings : List Happening) :
    let s := run happenings (create sampleRate frequency duration volume enabled, w)
    s.1.beeps = happenings.foldl Happening.count 0 ∧
    (s.1.initialized = true → s.1.sound.isSome = true) ∧
    (∀ cause, Entry.notice (.playbackFailed cause) ∈ s.2.journal →
      Entry.notice (.playbackFailed cause) ∈ w.journal ∨ cause = .callFailed Call.play.name) ∧
    (s.1.enabled = true → s.1.initialized = false → ∀ attempt ∈ [Happening.beep, .prepare],
      (s.1.obstacle s.2 = none → (after s attempt).1.ready = true) ∧
      ∀ cause, s.1.obstacle s.2 = some cause → GaveUp cause (after s attempt) ∧
        ∀ later, .enable true ∉ later → GaveUp cause (run later (after s attempt)) ∧
          (run later (after s attempt)).2.journal = (after s attempt).2.journal) := by
  intro s
  have hsane : Sane w s :=
    (sane_create sampleRate frequency duration volume enabled w).run happenings
  refine ⟨beeps_run _ _, hsane.sound, hsane.played,
    fun henabled huninitialized attempt hattempt => ⟨fun h => ?_, ?_⟩⟩
  · exact ready_of_no_obstacle henabled huninitialized h attempt hattempt
  · intro cause h
    have hgaveUp := gaveUp_of_obstacle henabled huninitialized h attempt hattempt
    exact ⟨hgaveUp, fun later hlater => hgaveUp.run hlater⟩

/-- Without a toolkit, only the first beep is a try. -/
example (sampleRate frequency duration volume : Number) :
    (run [.beep, .prepare, .beep] (create sampleRate frequency duration volume true,
      {})).2.journal =
      #[.notice (.soundDisabled .toolkitMissing)] := rfl

end Chip8.Beeper
