import Mathlib.Tactic.Common

/-!
# Hoare triples for operations that can fail

An operation that changes a state ends well with a result or fails with a cause, and leaves a state
behind in both cases. A triple says what holds then; an operation keeps an invariant if it holds
afterwards whatever the outcome.

## Main definitions

* `finalState`, `outcome`: the state an operation ends in, and how it ends
* `Hoare`: `{P} m {Q}`, and `{E}` if the operation fails
* `Keeps`: the operation keeps an invariant
* `KeepsOr`: the operation keeps an invariant if it ends well, and leaves something else if it fails
* `Agree`: two operations end alike, in related states
* `Matches`: two operations agree from related states on
* `runAll`: operations one after the other, whether or not they fail

## Main statements

* `Hoare.bind`: triples compose
* `Keeps.bind`, `Keeps.get_bind`, `Keeps.forM`: so do operations that keep an invariant
* `agree_runAll`: operations that agree one by one agree in a row
-/

namespace Chip8

variable {ε σ τ α β : Type}

/-- The state that an operation ends in, whether or not it fails. -/
def finalState : EStateM.Result ε σ α → σ
  | .ok _ s => s
  | .error _ s => s

/-- How an operation ends. -/
def outcome : EStateM.Result ε σ α → Except ε α
  | .ok a _ => .ok a
  | .error e _ => .error e

theorem exists_of_outcome_eq_ok {r : EStateM.Result ε σ α} {a : α} (h : outcome r = .ok a) :
    ∃ s, r = .ok a s := by
  cases r with
  | ok b s =>
    cases h
    exact ⟨s, rfl⟩
  | error e s => cases h

theorem exists_of_outcome_eq_error {r : EStateM.Result ε σ α} {e : ε} (h : outcome r = .error e) :
    ∃ s, r = .error e s := by
  cases r with
  | ok b s => cases h
  | error e s =>
    cases h
    exact ⟨s, rfl⟩

theorem exists_of_isOk {r : EStateM.Result ε σ α} (h : (outcome r).isOk = true) :
    ∃ a s, r = .ok a s := by
  cases r with
  | ok a s => exact ⟨a, s, rfl⟩
  | error e s => cases h

/-! ## Running operations -/

@[simp] theorem run_pure (a : α) (s : σ) : (pure a : EStateM ε σ α) s = .ok a s := rfl

@[simp] theorem run_bind (x : EStateM ε σ α) (f : α → EStateM ε σ β) (s : σ) :
    (x >>= f) s = match x s with
      | .ok a t => f a t
      | .error e t => .error e t := rfl

@[simp] theorem run_get (s : σ) : (get : EStateM ε σ σ) s = .ok s s := rfl

@[simp] theorem run_modify (f : σ → σ) (s : σ) :
    (modify f : EStateM ε σ PUnit) s = .ok () (f s) := rfl

@[simp] theorem run_modifyGet (f : σ → α × σ) (s : σ) :
    (modifyGet f : EStateM ε σ α) s = .ok (f s).1 (f s).2 := rfl

theorem outcome_bind_pure (x : EStateM ε σ α) (b : β) (s : σ) :
    outcome ((x >>= fun _ => pure b) s) = (outcome (x s)).map fun _ => b := by
  rw [run_bind]
  cases x s <;> rfl

theorem finalState_bind_pure (x : EStateM ε σ α) (b : β) (s : σ) :
    finalState ((x >>= fun _ => pure b) s) = finalState (x s) := by
  rw [run_bind]
  cases x s <;> rfl

/-- An operation fails no less for a result of its own after it. -/
theorem bind_pure_eq_error_iff {x : EStateM ε σ α} {b : β} {s t : σ} {e : ε} :
    (x >>= fun _ => pure b) s = .error e t ↔ x s = .error e t := by
  rw [run_bind]
  cases x s <;> simp

theorem eq_of_bind_pure_eq_ok {x : EStateM ε σ α} {b c : β} {s t : σ}
    (h : (x >>= fun _ => pure b) s = .ok c t) : c = b := by
  rw [run_bind] at h
  cases hx : x s with
  | ok a s' =>
    rw [hx] at h
    cases h
    rfl
  | error e s' =>
    rw [hx] at h
    cases h

/-- If two operations in a row end well, so do both of them. -/
theorem exists_of_bind_eq_ok {x : EStateM ε σ α} {f : α → EStateM ε σ β} {b : β} {s u : σ}
    (h : (x >>= f) s = .ok b u) : ∃ a t, x s = .ok a t ∧ f a t = .ok b u := by
  rw [run_bind] at h
  cases hx : x s with
  | ok a t =>
    rw [hx] at h
    exact ⟨a, t, rfl, h⟩
  | error e t =>
    rw [hx] at h
    cases h

/-! ## Triples -/

/-- From every state with `P`, the operation ends well with `Q` or fails with `E`. -/
def Hoare (P : σ → Prop) (m : EStateM ε σ α) (Q : α → σ → Prop) (E : ε → σ → Prop) : Prop :=
  ∀ s, P s → match m s with
    | .ok a t => Q a t
    | .error e t => E e t

/-- The operation keeps an invariant, whether or not it fails. -/
def Keeps (I : σ → Prop) (m : EStateM ε σ α) : Prop := Hoare I m (fun _ => I) (fun _ => I)

/-- The operation keeps an invariant if it ends well. If it fails, it leaves a state with `E`. -/
def KeepsOr (I : σ → Prop) (E : ε → σ → Prop) (m : EStateM ε σ α) : Prop := Hoare I m (fun _ => I) E

namespace Hoare

variable {P P' : σ → Prop} {Q Q' : α → σ → Prop} {E E' : ε → σ → Prop}

theorem of_forall {m : EStateM ε σ α} (hQ : ∀ a s, Q a s) (hE : ∀ e s, E e s) : Hoare P m Q E := by
  intro s _
  cases m s with
  | ok a t => exact hQ a t
  | error e t => exact hE e t

/-- **Consequence rule**: weaken the precondition and strengthen the postconditions. -/
theorem consequence {m : EStateM ε σ α} (h : Hoare P m Q E) (hpre : ∀ s, P' s → P s)
    (hpost : ∀ a s, Q a s → Q' a s) (hfail : ∀ e s, E e s → E' e s) : Hoare P' m Q' E' := by
  intro s hs
  have hm := h s (hpre s hs)
  split at hm
  next a t _ => exact hpost a t hm
  next e t _ => exact hfail e t hm

theorem bind {R : β → σ → Prop} {x : EStateM ε σ α} {f : α → EStateM ε σ β} (hx : Hoare P x Q E)
    (hf : ∀ a, Hoare (Q a) (f a) R E) : Hoare P (x >>= f) R E := by
  intro s hs
  have hm := hx s hs
  rw [run_bind]
  split at hm
  next a t _ => exact hf a t hm
  next e t _ => exact hm

/-- Two triples of the same operation hold together. -/
theorem and {m : EStateM ε σ α} (h : Hoare P m Q E) (h' : Hoare P' m Q' E') :
    Hoare (fun s => P s ∧ P' s) m (fun a s => Q a s ∧ Q' a s) (fun e s => E e s ∧ E' e s) := by
  rintro s ⟨hs, hs'⟩
  have hm := h s hs
  have hm' := h' s hs'
  cases hend : m s with
  | ok a t =>
    rw [hend] at hm hm'
    exact ⟨hm, hm'⟩
  | error e t =>
    rw [hend] at hm hm'
    exact ⟨hm, hm'⟩

/-- What cannot fail leaves whatever it is asked to when it fails. -/
theorem safely {m : EStateM ε σ α} (h : Hoare P m Q fun _ _ => False) : Hoare P m Q E :=
  h.consequence (fun _ hs => hs) (fun _ _ hs => hs) fun _ _ hs => hs.elim

/-- What cannot fail ends well. -/
theorem exists_ok {m : EStateM ε σ α} (h : Hoare P m Q fun _ _ => False) {s : σ} (hs : P s) :
    ∃ a t, m s = .ok a t ∧ Q a t := by
  have hm := h s hs
  cases hend : m s with
  | ok a t =>
    rw [hend] at hm
    exact ⟨a, t, rfl, hm⟩
  | error e t =>
    rw [hend] at hm
    exact hm.elim

/-- What comes after reading the state starts from the state read. -/
theorem get_bind {f : σ → EStateM ε σ β} {R : β → σ → Prop}
    (hf : ∀ s, P s → Hoare (· = s) (f s) R E) : Hoare P (get >>= f) R E :=
  fun s hs => hf s hs s rfl

end Hoare

namespace KeepsOr

variable {I : σ → Prop} {E : ε → σ → Prop}

theorem pure (a : α) : KeepsOr I E (Pure.pure a : EStateM ε σ α) := fun _ hs => hs

theorem throw {e : ε} (he : ∀ s, I s → E e s) : KeepsOr I E (throw e : EStateM ε σ α) := he

/-- Nothing comes after a failure. -/
theorem throw_bind {e : ε} (he : ∀ s, I s → E e s) (f : α → EStateM ε σ β) :
    KeepsOr I E ((MonadExcept.throw e : EStateM ε σ α) >>= f) := he

theorem modify {f : σ → σ} (hf : ∀ s, I s → I (f s)) : KeepsOr I E (modify f : EStateM ε σ PUnit) :=
  fun s hs => hf s hs

theorem bind {x : EStateM ε σ α} {f : α → EStateM ε σ β} (hx : KeepsOr I E x)
    (hf : ∀ a, KeepsOr I E (f a)) : KeepsOr I E (x >>= f) :=
  Hoare.bind hx hf

/-- What comes after an operation may make use of what holds of its result. -/
theorem bind_of {R : α → Prop} {x : EStateM ε σ α} {f : α → EStateM ε σ β}
    (hx : Hoare I x (fun a s => I s ∧ R a) E) (hf : ∀ a, R a → KeepsOr I E (f a)) :
    KeepsOr I E (x >>= f) :=
  Hoare.bind hx fun a s hs => hf a hs.2 s hs.1

/-- What comes after reading the state may make use of the invariant. -/
theorem get_bind {f : σ → EStateM ε σ β} (hf : ∀ s, I s → KeepsOr I E (f s)) :
    KeepsOr I E (get >>= f) :=
  fun s hs => hf s hs s hs

theorem ite {c : Prop} [Decidable c] {x y : EStateM ε σ α} (hx : c → KeepsOr I E x)
    (hy : ¬c → KeepsOr I E y) : KeepsOr I E (if c then x else y) := by
  split
  next h => exact hx h
  next h => exact hy h

theorem forM {f : α → EStateM ε σ PUnit} : ∀ {as : List α}, (∀ a ∈ as, KeepsOr I E (f a)) →
    KeepsOr I E (as.forM f)
  | [], _ => pure _
  | a :: as, h => by
    show KeepsOr I E (f a >>= fun _ => as.forM f)
    exact (h a List.mem_cons_self).bind fun _ => forM fun b hb => h b (List.mem_cons_of_mem a hb)

end KeepsOr

namespace Keeps

variable {I : σ → Prop}

theorem finalState {m : EStateM ε σ α} (h : Keeps I m) {s : σ} (hs : I s) :
    I (finalState (m s)) := by
  have hm := h s hs
  split at hm
  next a t heq => rwa [heq]
  next e t heq => rwa [heq]

/-- Two invariants that are kept are kept together. -/
theorem and {J : σ → Prop} {m : EStateM ε σ α} (h : Keeps I m) (h' : Keeps J m) :
    Keeps (fun s => I s ∧ J s) m := Hoare.and h h'

theorem pure (a : α) : Keeps I (Pure.pure a : EStateM ε σ α) := KeepsOr.pure a

theorem throw (e : ε) : Keeps I (throw e : EStateM ε σ α) := fun _ hs => hs

theorem set {t : σ} (ht : I t) : Keeps I (set t : EStateM ε σ PUnit) := fun _ _ => ht

theorem modify {f : σ → σ} (hf : ∀ s, I s → I (f s)) : Keeps I (modify f : EStateM ε σ PUnit) :=
  KeepsOr.modify hf

theorem bind {x : EStateM ε σ α} {f : α → EStateM ε σ β} (hx : Keeps I x)
    (hf : ∀ a, Keeps I (f a)) : Keeps I (x >>= f) :=
  KeepsOr.bind hx hf

theorem bind_of {R : α → Prop} {x : EStateM ε σ α} {f : α → EStateM ε σ β}
    (hx : Hoare I x (fun a s => I s ∧ R a) (fun _ => I)) (hf : ∀ a, R a → Keeps I (f a)) :
    Keeps I (x >>= f) :=
  KeepsOr.bind_of hx hf

theorem get_bind {f : σ → EStateM ε σ β} (hf : ∀ s, I s → Keeps I (f s)) : Keeps I (get >>= f) :=
  KeepsOr.get_bind hf

theorem ite {c : Prop} [Decidable c] {x y : EStateM ε σ α} (hx : c → Keeps I x)
    (hy : ¬c → Keeps I y) : Keeps I (if c then x else y) :=
  KeepsOr.ite hx hy

theorem forM {f : α → EStateM ε σ PUnit} {as : List α} (h : ∀ a ∈ as, Keeps I (f a)) :
    Keeps I (as.forM f) :=
  KeepsOr.forM h

end Keeps

/-! ## Two operations side by side -/

/-- Two operations end alike, in related states. -/
def Agree (R : σ → τ → Prop) (x : EStateM.Result ε σ α) (y : EStateM.Result ε τ α) : Prop :=
  outcome x = outcome y ∧ R (finalState x) (finalState y)

/-- Two operations that end alike both end well or both fail. -/
theorem Agree.cases {R : σ → τ → Prop} {x : EStateM.Result ε σ α} {y : EStateM.Result ε τ α}
    (h : Agree R x y) :
    (∃ a s t, x = .ok a s ∧ y = .ok a t ∧ R s t) ∨ ∃ e s t, x = .error e s ∧
      y = .error e t ∧ R s t := by
  obtain ⟨houtcome, hstate⟩ := h
  cases x with
  | ok a s =>
    cases y with
    | ok b t =>
      cases houtcome
      exact .inl ⟨a, s, t, rfl, rfl, hstate⟩
    | error e t => cases houtcome
  | error e s =>
    cases y with
    | ok b t => cases houtcome
    | error e' t =>
      cases houtcome
      exact .inr ⟨e, s, t, rfl, rfl, hstate⟩

theorem Agree.exists_of_ok {R : σ → τ → Prop} {x : EStateM.Result ε σ α} {y : EStateM.Result ε τ α}
    (h : Agree R x y) {a : α} {s : σ} (hx : x = .ok a s) : ∃ t, y = .ok a t ∧ R s t := by
  rcases h.cases with ⟨b, s', t, rfl, hy, hstate⟩ | ⟨e, s', t, rfl, -, -⟩
  · cases hx
    exact ⟨t, hy, hstate⟩
  · cases hx

/-- Operations that agree can be followed by operations that agree, which may make use of how the
first ones ended. -/
theorem Agree.bind_of_ok {R : σ → τ → Prop} {x : EStateM ε σ α} {y : EStateM ε τ α}
    {f : α → EStateM ε σ β} {g : α → EStateM ε τ β} {s : σ} {t : τ} (hxy : Agree R (x s) (y t))
    (hfg : ∀ a s' t', x s = .ok a s' → R s' t' → Agree R (f a s') (g a t')) :
    Agree R ((x >>= f) s) ((y >>= g) t) := by
  rw [run_bind, run_bind]
  rcases hxy.cases with ⟨a, s', t', hx, hy, hstate⟩ | ⟨e, s', t', hx, hy, hstate⟩
  · rw [hx, hy]
    exact hfg a s' t' hx hstate
  · rw [hx, hy]
    exact ⟨rfl, hstate⟩

theorem Agree.bind {R : σ → τ → Prop} {x : EStateM ε σ α} {y : EStateM ε τ α}
    {f : α → EStateM ε σ β} {g : α → EStateM ε τ β} {s : σ} {t : τ} (hxy : Agree R (x s) (y t))
    (hfg : ∀ a s t, R s t → Agree R (f a s) (g a t)) : Agree R ((x >>= f) s) ((y >>= g) t) :=
  hxy.bind_of_ok fun a s' t' _ hst => hfg a s' t' hst

/-- Two operations agree from related states on. -/
def Matches (R : σ → τ → Prop) (x : EStateM ε σ α) (y : EStateM ε τ α) : Prop :=
  ∀ s t, R s t → Agree R (x s) (y t)

namespace Matches

variable {R : σ → τ → Prop}

theorem pure (a : α) : Matches R (Pure.pure a : EStateM ε σ α) (Pure.pure a) :=
  fun _ _ hst => ⟨rfl, hst⟩

theorem throw (e : ε) : Matches R (throw e : EStateM ε σ α) (throw e) := fun _ _ hst => ⟨rfl, hst⟩

theorem throw_bind (e : ε) (f : α → EStateM ε σ β) (g : α → EStateM ε τ β) :
    Matches R ((MonadExcept.throw e : EStateM ε σ α) >>= f)
      ((MonadExcept.throw e : EStateM ε τ α) >>= g) :=
  fun _ _ hst => ⟨rfl, hst⟩

theorem set {s : σ} {t : τ} (hst : R s t) :
    Matches R (set s : EStateM ε σ PUnit) (set t) := fun _ _ _ => ⟨rfl, hst⟩

theorem modify {f : σ → σ} {g : τ → τ} (hfg : ∀ s t, R s t → R (f s) (g t)) :
    Matches R (modify f : EStateM ε σ PUnit) (modify g) := fun s t hst => ⟨rfl, hfg s t hst⟩

theorem bind {x : EStateM ε σ α} {y : EStateM ε τ α} {f : α → EStateM ε σ β} {g : α → EStateM ε τ β}
    (hxy : Matches R x y) (hfg : ∀ a, Matches R (f a) (g a)) : Matches R (x >>= f) (y >>= g) :=
  fun s t hst => (hxy s t hst).bind hfg

theorem bind_of {P : α → Prop} {x : EStateM ε σ α} {y : EStateM ε τ α} {f : α → EStateM ε σ β}
    {g : α → EStateM ε τ β} (hxy : Matches R x y)
    (hP : ∀ s t a s', R s t → x s = .ok a s' → P a) (hfg : ∀ a, P a → Matches R (f a) (g a)) :
    Matches R (x >>= f) (y >>= g) :=
  fun s t hst => (hxy s t hst).bind_of_ok
    fun a s' t' hx hst' => hfg a (hP s t a s' hst hx) s' t' hst'

theorem get_bind {f : σ → EStateM ε σ β} {g : τ → EStateM ε τ β}
    (hfg : ∀ s t, R s t → Matches R (f s) (g t)) : Matches R (get >>= f) (get >>= g) :=
  fun s t hst => hfg s t hst s t hst

theorem ite {c : Prop} [Decidable c] {x x' : EStateM ε σ α} {y y' : EStateM ε τ α}
    (hxy : c → Matches R x y) (hxy' : ¬c → Matches R x' y') :
    Matches R (if c then x else x') (if c then y else y') := by
  by_cases h : c
  · rw [if_pos h, if_pos h]
    exact hxy h
  · rw [if_neg h, if_neg h]
    exact hxy' h

theorem forM_map {γ : Type} {f : α → EStateM ε σ PUnit} {g : γ → EStateM ε τ PUnit} {φ : α → γ} :
    ∀ {as : List α}, (∀ a ∈ as, Matches R (f a) (g (φ a))) →
      Matches R (as.forM f) ((as.map φ).forM g)
  | [], _ => pure _
  | a :: as, h => by
    show Matches R (f a >>= fun _ => as.forM f) (g (φ a) >>= fun _ => (as.map φ).forM g)
    exact (h a List.mem_cons_self).bind fun _ => forM_map
      fun b hb => h b (List.mem_cons_of_mem a hb)

theorem forM {f : α → EStateM ε σ PUnit} {g : α → EStateM ε τ PUnit} {as : List α}
    (h : ∀ a ∈ as, Matches R (f a) (g a)) : Matches R (as.forM f) (as.forM g) := by
  have hmap : Matches R (as.forM f) ((as.map id).forM g) := forM_map h
  rwa [List.map_id] at hmap

end Matches

/-- Operations one after the other, whether or not they fail: how each ends, and the state after
all. -/
def runAll {κ : Type} (f : κ → EStateM ε σ α) : List κ → σ → List (Except ε α) × σ
  | [], s => ([], s)
  | k :: ks, s =>
    let rest := runAll f ks (finalState (f k s))
    (outcome (f k s) :: rest.1, rest.2)

/-- An invariant of each operation is one of all in a row. -/
theorem keeps_runAll {κ : Type} {I : σ → Prop} {f : κ → EStateM ε σ α} {ks : List κ}
    (hf : ∀ k ∈ ks, Keeps I (f k)) {s : σ} (hs : I s) : I (runAll f ks s).2 := by
  induction ks generalizing s with
  | nil => exact hs
  | cons k ks ih =>
    obtain ⟨hk, hks⟩ := List.forall_mem_cons.1 hf
    exact ih hks (hk.finalState hs)

/-- Operations that agree one by one agree in a row. -/
theorem agree_runAll {κ : Type} {R : σ → τ → Prop} {f : κ → EStateM ε σ α} {g : κ → EStateM ε τ α}
    (hfg : ∀ k s t, R s t → Agree R (f k s) (g k t)) (ks : List κ) {s : σ} {t : τ} (hst : R s t) :
    (runAll f ks s).1 = (runAll g ks t).1 ∧ R (runAll f ks s).2 (runAll g ks t).2 := by
  induction ks generalizing s t with
  | nil => exact ⟨rfl, hst⟩
  | cons k ks ih =>
    obtain ⟨houtcome, hstate⟩ := hfg k s t hst
    obtain ⟨houtcomes, hfinal⟩ := ih hstate
    exact ⟨congrArg₂ List.cons houtcome houtcomes, hfinal⟩

end Chip8
